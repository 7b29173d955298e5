import TinyDocker.Docker.RemovalOrder
import TinyDocker.Docker.Rollback

/-!
# Names that can neither be used nor removed

`docker_run` refuses a name that has a cgroup, a workspace or metadata; `docker_rm` refuses a name without
metadata.  A failed start leaves such a name when part of it stays and no metadata does.

`Recovers` is about the state in which a start fails: what is mounted there, which processes live in the cgroup,
whether the metadata has been written, and which answers the system gives to the calls that follow.

Principal result: `stuck_names_iff` — after a `docker run` on a free name, the name is free again or has
metadata if and only if the start succeeds or fails in a state from which the name recovers; in a run in which
this is so for every `docker run`, no name is ever stuck.
-/

set_option autoImplicit false

namespace TinyDocker

open CText MountSpace Staged

/-- The name is free, or `docker_rm` finds its metadata. -/
def NotStuck (name : Text) (h : Host) : Prop :=
  containerExists name h = false ∨ (h.info name).isSome = true

/-! ## The state in which a start fails -/

/-- The volumes of the command line come off from the last to the first, each path being followed in what is
still mounted then; `i` is the index of the head. -/
inductive VolumesDetach (env : Env) (name : Text) (h : Host) : Nat → List VolumeConfig → List Mount → Prop
  | nil {i : Nat} : VolumesDetach env name h i [] h.space.table
  | cons {i : Nat} {v : VolumeConfig} {vs : List VolumeConfig} {mid left : List Mount} :
      VolumesDetach env name h (i + 1) vs mid → targetFits name v = true →
      Detaches (env.umountErrno (.volumeUmount i)) (resolveTarget (h.setTable mid) name v.path) mid left →
      VolumesDetach env name h i (v :: vs) left

section Conditions

variable (env : Env) (args : RunArguments) (st : RunState)

/-- No unmount is refused, and `left` stays mounted: the volumes, then the overlay, come off once the
mountpoint is set. -/
def MountsDetach (left : List Mount) : Prop :=
  if st.mountpointSet then
    ∃ mid, VolumesDetach env args.name st.host 0 args.volumes mid ∧
      Detaches (env.umountErrno .rootUmount) (.ok (mountpointDir args.name)) mid left
  else left = st.host.space.table

/-- The mounts come off, nothing stays mounted below the container directory, and the recursive delete works. -/
def WorkspaceGoes : Prop :=
  env.fails .removeTree = false ∧ ∃ left, MountsDetach env args st left ∧ mountsBelow args.name left = []

/-- `rmdir` of the cgroup works, and no process but the child lives in it. -/
def CgroupGoes : Prop :=
  env.fails .cgroupRmdir = false ∧ ∀ p ∈ cgroupProcs args.name st.host, st.childPid = some p.pid

/-- The metadata has been written, and an unmount is refused or the unlink fails. -/
def MetadataStays : Prop :=
  (st.host.info args.name).isSome = true ∧
    ((¬ ∃ left, MountsDetach env args st left) ∨ env.fails .unlinkInfo = true)

/-- The metadata stays, or what has been made goes. -/
def Recovers : Prop :=
  MetadataStays env args st ∨ ((st.host.workspace args.name = true → WorkspaceGoes env args st) ∧
    (st.cgroupCreated = true → CgroupGoes env args st))

end Conditions

/-- The start succeeds, or it fails in a state from which the name recovers. -/
def RunRecovers (env : Env) (args : RunArguments) (h : Host) : Prop :=
  env.fails .mountpointAlloc = true ∨
    ∀ st, runAll (runStages env args) (RunState.start h) = .error st → Recovers env args st

/-! ## The unmounts of the cleanup -/

section Unmounts

variable {env : Env}

/-- The code's `umount` reports success exactly if it is not refused. -/
theorem umount_detaches {site : Site} {target : Except Errno Path} {h : Host} {left : List Mount} :
    (umount env site target h).2 = true ∧ (umount env site target h).1.space.table = left ↔
      Detaches (env.umountErrno site) target h.space.table left := by
  constructor
  · intro ⟨hok, hleft⟩
    unfold umount umountResolved at hok hleft
    cases hforced : env.umountErrno site with
    | some e =>
      simp only [hforced] at hok hleft
      exact hleft ▸ .told rfl (of_decide_eq_true (p := e = .EINVAL ∨ e = .ENOENT) hok)
    | none =>
      cases target with
      | error e =>
        simp only [hforced] at hok hleft
        exact hleft ▸ .noPath rfl rfl (of_decide_eq_true (p := e = .EINVAL ∨ e = .ENOENT) hok)
      | ok p =>
        cases hu : umountAt h.space.table p with
        | error e =>
          simp only [hforced, hu] at hok hleft
          exact hleft ▸ .notMounted rfl rfl hu (of_decide_eq_true (p := e = .EINVAL ∨ e = .ENOENT) hok)
        | ok table =>
          simp only [hforced, hu] at hleft
          exact hleft ▸ .taken rfl rfl hu
  · intro hd
    unfold umount umountResolved
    cases hd with
    | told hforced habsent =>
      simp only [hforced]
      exact ⟨decide_eq_true (p := _ ∨ _) habsent, rfl⟩
    | noPath hforced htarget habsent =>
      simp only [hforced, htarget]
      exact ⟨decide_eq_true (p := _ ∨ _) habsent, rfl⟩
    | notMounted hforced htarget hu habsent =>
      simp only [hforced, htarget, hu]
      exact ⟨decide_eq_true (p := _ ∨ _) habsent, rfl⟩
    | taken hforced htarget hu =>
      simp only [hforced, htarget, hu]
      exact ⟨trivial, rfl⟩

theorem umount_space (env : Env) (site : Site) (target : Except Errno Path) (h : Host) :
    (umount env site target h).1.space = { h.space with table := (umount env site target h).1.space.table } := by
  unfold umount
  split
  · rfl
  · rfl

/-- An unmount changes nothing of the mount space but its table. -/
theorem umountEach_space (env : Env) (site : Nat → Site) (name : Text) :
    ∀ (vs : List VolumeConfig) (i : Nat) (h : Host), (umountEach env site name i vs h).1.space =
      { h.space with table := (umountEach env site name i vs h).1.space.table }
  | [], _, _ => rfl
  | v :: vs, i, h => by
    have hlater := umountEach_space env site name vs (i + 1) h
    unfold umountEach umountTarget
    simp only
    split
    · rw [umount_space, hlater]
    · exact hlater

theorem resolveTarget_setTable {g h : Host} (hs : g.space = { h.space with table := g.space.table })
    (name : Text) (path : Path) : resolveTarget g name path = resolveTarget (h.setTable g.space.table) name path := by
  unfold resolveTarget Host.setTable
  simp only
  rw [← hs]

/-- The loop of `umount_volumes` reports success exactly if no unmount is refused. -/
theorem umountEach_detaches {name : Text} {h : Host} :
    ∀ (vs : List VolumeConfig) (i : Nat) {g : Host} {left : List Mount}, g.space = h.space →
      ((umountEach env .volumeUmount name i vs g).2 = true ∧
          (umountEach env .volumeUmount name i vs g).1.space.table = left ↔ VolumesDetach env name h i vs left)
  | [], _, g, left, hg => by
    constructor
    · rintro ⟨-, rfl⟩
      show VolumesDetach env name h _ [] g.space.table
      rw [hg]
      exact .nil
    · intro hd
      cases hd
      exact ⟨rfl, congrArg Space.table hg⟩
  | v :: vs, i, g, left, hg => by
    have hspace := umountEach_space env .volumeUmount name vs (i + 1) g
    rw [hg] at hspace
    have ih := fun mid => @umountEach_detaches name h vs (i + 1) g mid hg
    have hresolve := resolveTarget_setTable hspace name v.path
    unfold umountEach umountTarget
    simp only [Bool.and_eq_true]
    generalize umountEach env .volumeUmount name (i + 1) vs g = later at ih hresolve
    constructor
    · rintro ⟨⟨hlater, hthis⟩, hleft⟩
      by_cases hfit : targetFits name v = true
      · rw [if_pos hfit] at hthis hleft
        refine .cons ((ih later.1.space.table).1 ⟨hlater, rfl⟩) hfit ?_
        rw [← hresolve]
        exact umount_detaches.1 ⟨hthis, hleft⟩
      · rw [if_neg hfit] at hthis
        cases hthis
    · intro hd
      cases hd with
      | cons hvs hfit hthis =>
        obtain ⟨hlater, rfl⟩ := (ih _).2 hvs
        rw [← hresolve] at hthis
        obtain ⟨hok, hleft⟩ := umount_detaches.2 hthis
        rw [if_pos hfit]
        exact ⟨⟨hlater, hok⟩, hleft⟩

/-- **The unmounts of the cleanup**, which do not depend on what it does before. -/
theorem dropMounts_detaches {args : RunArguments} {st : RunState} {g : Host} {left : List Mount}
    (hg : g.space = st.host.space) :
    (dropMounts env args st.mountpointSet g).2 = true ∧
        (dropMounts env args st.mountpointSet g).1.space.table = left ↔ MountsDetach env args st left := by
  unfold dropMounts MountsDetach
  cases st.mountpointSet with
  | false =>
    simp only [Bool.false_eq_true, if_false, true_and, hg]
    exact eq_comm
  | true =>
    have hvols := fun mid => @umountEach_detaches env args.name st.host args.volumes 0 g mid hg
    simp only [if_true]
    unfold umountAll umountVolumes
    simp only [Bool.and_eq_true]
    generalize umountEach env .volumeUmount args.name 0 args.volumes g = v at hvols
    constructor
    · rintro ⟨⟨hok, hroot⟩, hleft⟩
      exact ⟨_, (hvols _).1 ⟨hok, rfl⟩, umount_detaches.1 ⟨hroot, hleft⟩⟩
    · rintro ⟨mid, hmid, hroot⟩
      obtain ⟨hok, rfl⟩ := (hvols _).2 hmid
      obtain ⟨hdone, hleft⟩ := umount_detaches.2 hroot
      exact ⟨⟨hok, hdone⟩, hleft⟩

end Unmounts

/-! ## One `docker run` -/

section Run

variable {env : Env} {args : RunArguments} {h : Host} {st : RunState}

/-- What the cleanup has changed when the unmounts are done. -/
theorem dropMounts_rest (env : Env) (args : RunArguments) (st : RunState) : ∃ m,
    dropMounts env args st.mountpointSet (dropNetwork env args.name st.ipAddr (killChild st)) = m ∧
      m.1.info = st.host.info ∧ m.1.workspace = st.host.workspace ∧ m.1.cgroups = st.host.cgroups ∧
      m.1.procs = (killChild st).procs ∧
      ∀ left, m.2 = true ∧ m.1.space.table = left ↔ MountsDetach env args st left := by
  obtain ⟨_, hk⟩ := killChild_only st
  obtain ⟨_, _, _, _, hn⟩ := dropNetwork_only env args.name st.ipAddr (killChild st)
  obtain ⟨_, _, hm, -⟩ := dropMounts_only env args st.mountpointSet
    (dropNetwork env args.name st.ipAddr (killChild st))
  have hspace : (dropNetwork env args.name st.ipAddr (killChild st)).space = st.host.space := by
    rw [hn, hk]
  refine ⟨_, rfl, ?_, ?_, ?_, ?_, fun left => dropMounts_detaches hspace⟩
  · rw [hm, hn, hk]
  · rw [hm, hn, hk]
  · rw [hm, hn, hk]
  · rw [hm, hn]

theorem removeWorkspace_workspace (env : Env) (name : Text) (b : Bool) (h : Host) :
    (removeWorkspace env name b h).1.workspace name = false ↔
      (h.workspace name = true → b = true ∧ env.fails .removeTree = false ∧
        mountsBelow name h.space.table = []) := by
  unfold removeWorkspace
  cases b with
  | false => simp
  | true =>
    unfold removeDir
    by_cases hws : h.workspace name = true
    · by_cases hbusy : env.fails .removeTree = true ∨ mountsBelow name h.space.table ≠ []
      · simp only [if_true, hws, Bool.true_eq_false, if_false, if_pos hbusy]
        refine ⟨fun hc => (by rw [show h.workspace name = false from hc] at hws; cases hws), fun hc => ?_⟩
        obtain ⟨-, h1, h2⟩ := hc trivial
        rcases hbusy with hb | hb
        · rw [h1] at hb; cases hb
        · exact absurd h2 hb
      · simp only [if_true, hws, Bool.true_eq_false, if_false, if_neg hbusy, Function.update_self, true_iff]
        simp only [not_or, Bool.not_eq_true, not_not] at hbusy
        exact fun _ => ⟨trivial, hbusy⟩
    · simp [hws, Host.record]

/-- Killing the child empties the cgroup if no other process lives there. -/
theorem cgroupProcs_killChild {name : Text} : cgroupProcs name (killChild st) = [] ↔
    ∀ p ∈ cgroupProcs name st.host, st.childPid = some p.pid := by
  unfold killChild
  cases hchild : st.childPid with
  | none => simp [List.eq_nil_iff_forall_not_mem]
  | some pid =>
    simp only [cgroupProcs, List.filter_filter, List.filter_eq_nil_iff, List.mem_filter, Bool.and_eq_true,
      decide_eq_true_eq, Option.some.injEq, not_and, and_imp]
    refine forall_congr' fun p => forall_congr' fun hp => ⟨fun hkill hcg hz => ?_, fun hall hcg hz hne => ?_⟩
    · by_contra hne
      exact hkill hcg hz (fun he => hne he.symm)
    · exact hne (hall hcg hz).symm

theorem cgroupCleanup_mem (hfresh : args.name ∉ h.cgroups) (htracked : CgroupTracked args h st) {g : Host}
    (hcg : g.cgroups = st.host.cgroups) (hprocs : g.procs = (killChild st).procs) :
    args.name ∉ (cgroupCleanup env args.name st.cgroupCreated g).cgroups ↔
      (st.cgroupCreated = true → CgroupGoes env args st) := by
  have hlive : cgroupProcs args.name g = cgroupProcs args.name (killChild st) := by
    unfold cgroupProcs
    rw [hprocs]
  unfold CgroupTracked at htracked
  unfold cgroupCleanup CgroupGoes
  rw [← cgroupProcs_killChild]
  cases hcreated : st.cgroupCreated with
  | false =>
    rw [hcreated] at htracked
    simp only [Bool.false_eq_true, if_false, false_imp_iff, iff_true]
    rw [hcg, htracked]
    exact hfresh
  | true =>
    rw [hcreated] at htracked
    simp only [if_true, forall_const]
    unfold rmdirCgroup
    rw [if_neg (by rw [hcg, htracked]; simp), hlive]
    split
    · rename_i hbusy
      simp only [hcg, htracked, if_true, List.mem_cons, true_or, not_true, false_iff, not_and]
      intro hok
      rcases hbusy with hb | hb
      · rw [hok] at hb; cases hb
      · exact hb
    · rename_i hgoes
      simp only [not_or, Bool.not_eq_true, not_not] at hgoes
      simp only [hcg, htracked, if_true, List.erase_cons_head]
      exact ⟨fun _ => hgoes, fun _ => hfresh⟩

theorem removeStatusInfo_isSome (env : Env) (name : Text) (h : Host) :
    ((removeStatusInfo env name h).1.info name).isSome = true ↔
      (h.info name).isSome = true ∧ env.fails .unlinkInfo = true := by
  unfold removeStatusInfo
  split
  · rename_i hnone
    simp [hnone]
  rename_i hsome
  have hsome : (h.info name).isSome = true := Option.isSome_iff_ne_none.2 hsome
  split
  · rename_i hfail
    simp [hsome, hfail]
  · rename_i hfail
    simp [hfail]

/-- **What the cleanup leaves of the name.** -/
theorem cleanupRunFailure_notStuck (hfresh : containerExists args.name h = false)
    (htracked : CgroupTracked args h st) :
    NotStuck args.name (cleanupRunFailure env args st) ↔ Recovers env args st := by
  obtain ⟨m, hm, hinfo, hws, hcg, hprocs, hdetach⟩ := dropMounts_rest env args st
  simp only [containerExists, Bool.or_eq_false_iff, decide_eq_false_iff_not, not_not] at hfresh
  obtain ⟨hvalid, ⟨hno, -⟩, -⟩ := hfresh
  have hno : args.name ∉ h.cgroups := fun hm => by
    rw [List.contains_iff_mem.2 hm] at hno
    cases hno
  have hclean : (∃ left, MountsDetach env args st left) ↔ m.2 = true :=
    ⟨fun h => h.elim fun left hl => ((hdetach left).2 hl).1, fun hok => ⟨_, (hdetach _).1 ⟨hok, rfl⟩⟩⟩
  have hgoes : WorkspaceGoes env args st ↔
      m.2 = true ∧ env.fails .removeTree = false ∧ mountsBelow args.name m.1.space.table = [] := by
    unfold WorkspaceGoes
    constructor
    · rintro ⟨hdelete, left, hl, hnone⟩
      obtain ⟨hok, rfl⟩ := (hdetach left).2 hl
      exact ⟨hok, hdelete, hnone⟩
    · rintro ⟨hok, hdelete, hnone⟩
      exact ⟨hdelete, _, (hdetach _).1 ⟨hok, rfl⟩, hnone⟩
  -- the three marks after the cleanup
  have hmarks : ∀ g : Host, g.workspace = (removeWorkspace env args.name m.2 m.1).1.workspace →
      (args.name ∉ g.cgroups ↔ (st.cgroupCreated = true → CgroupGoes env args st)) →
      ((g.info args.name).isSome = true ↔ MetadataStays env args st) →
      (NotStuck args.name g ↔ Recovers env args st) := by
    intro g hgw hgc hgi
    have hgw' : g.workspace args.name = false ↔
        (st.host.workspace args.name = true → WorkspaceGoes env args st) := by
      rw [hgw, removeWorkspace_workspace, hws, hgoes]
    unfold NotStuck Recovers
    rw [← hgi, ← hgw', ← hgc]
    simp only [containerExists, Bool.or_eq_false_iff, decide_eq_false_iff_not, hvalid]
    cases (g.info args.name).isSome <;> simp [and_comm]
  unfold cleanupRunFailure
  simp only [hm]
  have hd := removeWorkspace_only env args.name m.2 m.1
  generalize (removeWorkspace env args.name m.2 m.1).1 = d at hmarks hd
  obtain ⟨workspace, extra, hd⟩ := hd
  have hdcg : d.cgroups = st.host.cgroups := by rw [hd]; exact hcg
  have hdprocs : d.procs = (killChild st).procs := by rw [hd]; exact hprocs
  have hdinfo : d.info = st.host.info := by rw [hd]; exact hinfo
  have hmem := @cgroupCleanup_mem env args h st hno htracked d hdcg hdprocs
  obtain ⟨cgroups, hc⟩ := cgroupCleanup_only env args.name st.cgroupCreated d
  generalize cgroupCleanup env args.name st.cgroupCreated d = c at hmem hc
  have hcinfo : c.info = st.host.info := by rw [hc]; exact hdinfo
  have hcws : c.workspace = d.workspace := by rw [hc]
  split
  · rename_i hun
    obtain ⟨⟨o, ho⟩, -, -⟩ := removeStatusInfo_result env args.name c
    have hsome := removeStatusInfo_isSome env args.name c
    rw [ho] at hsome ⊢
    refine hmarks _ hcws hmem ?_
    rw [hsome, hcinfo]
    unfold MetadataStays
    rw [hclean, hun]
    simp
  · rename_i hun
    refine hmarks _ hcws hmem ?_
    rw [hcinfo]
    unfold MetadataStays
    rw [hclean]
    simp [hun]

/-- A start that succeeds has written the metadata. -/
theorem runStages_recorded (h' : runAll (runStages env args) (RunState.start h) = .ok st) :
    (st.host.info args.name).isSome = true := by
  have hsplit : runStages env args = (runStages env args).take 8 ++ [metadataStage env args, releaseStage env] := rfl
  rw [hsplit, runAll_append] at h'
  split at h'
  · rename_i mid _
    simp only [runAll] at h'
    split at h'
    · rename_i st₁ hmeta
      have hinfo : (st₁.host.info args.name).isSome = true := by
        unfold metadataStage at hmeta
        split at hmeta
        · cases hmeta
        rename_i info _
        rcases writeContainerInfo_cases env args.name info mid.host with hw | hw
        · rw [hw] at hmeta
          cases hmeta
        · rw [hw] at hmeta
          cases hmeta
          exact Option.isSome_iff_exists.2 ⟨info, Host.setInfo_self ..⟩
      split at h'
      · rename_i st₂ hrel
        cases h'
        unfold releaseStage at hrel
        split at hrel
        · cases hrel
        · cases hrel
          exact hinfo
      · cases h'
    · cases h'
  · cases h'

/-- **One `docker run` on a free name.** -/
theorem dockerRun_notStuck (env : Env) (hfresh : containerExists args.name h = false) :
    NotStuck args.name (dockerRun env args h).1 ↔ RunRecovers env args h := by
  have htracked := @runStages_cgroups env args h (RunState.start h) ⟨rfl, rfl⟩
  unfold dockerRun RunRecovers
  rw [if_neg (by rw [hfresh]; exact Bool.false_ne_true)]
  split
  · rename_i halloc
    exact iff_of_true (Or.inl hfresh) (Or.inl halloc)
  rename_i halloc
  rw [or_iff_right halloc]
  cases hst : runAll (runStages env args) (RunState.start h) with
  | ok st => exact iff_of_true (Or.inr (runStages_recorded hst)) fun _ he => (by cases he)
  | error st =>
    simp only [Except.error.injEq, forall_eq']
    exact cleanupRunFailure_notStuck hfresh (htracked.2 st hst)

end Run

/-! ## Whole runs -/

theorem SameMarks.notStuck {n : Text} {h h' : Host} (hm : SameMarks n h h') (hn : NotStuck n h) :
    NotStuck n h' := by
  unfold NotStuck
  rw [hm.containerExists, hm.info]
  exact hn

/-- `docker rm` removes the metadata last, so it leaves no stuck name. -/
theorem NotStuck.rmContainer {n : Text} {h : Host} (hn : NotStuck n h) (hT : Tidy h) (env : Env)
    (name : Text) : NotStuck n (rmContainer env name h).1 := by
  by_cases hne : n = name
  · subst hne
    by_cases hex : containerExists n h = false
    · rw [rmContainer_absent hex]
      exact hn
    cases hi : h.info n with
    | none =>
      rcases hn with hn | hn
      · exact absurd hn hex
      · rw [hi] at hn
        cases hn
    | some i =>
      obtain ⟨j, -, ⟨hok, -, -⟩ | ⟨-, hkept⟩⟩ := rmContainer_removed hT env hi
      · exact Or.inl (rmContainer_absent_after hT hok)
      · exact Or.inr (Option.isSome_iff_exists.2 ⟨j, hkept⟩)
  · exact (rmContainer_marks env hne h).notStuck hn

theorem NotStuck.dockerRm {n : Text} : ∀ (targets : List (Text × Env)) {h : Host}, NotStuck n h → Tidy h →
    NotStuck n (dockerRm targets h).1
  | [], _, hn, _ => hn
  | (name, env) :: rest, _, hn, hT =>
    NotStuck.dockerRm rest (hn.rmContainer hT env name) (hT.rmContainer env name)

/-- A `docker run` on a free name recovers. -/
def Command.Recovers (h : Host) : Command → Prop
  | .run env args => containerExists args.name h = false → RunRecovers env args h
  | _ => True

theorem NotStuck.step {n : Text} {w : World} (hn : NotStuck n w.host) (hT : Tidy w.host) {c : Command}
    (hc : c.Recovers w.host) : NotStuck n (w.step c).host := by
  cases c with
  | run env args =>
    by_cases hne : n = args.name
    · subst hne
      by_cases hex : containerExists args.name w.host = false
      · exact (dockerRun_notStuck env hex).2 (hc hex)
      · show NotStuck args.name (dockerRun env args w.host).1
        unfold dockerRun
        rw [if_pos (Bool.not_eq_false _ ▸ hex)]
        exact hn
    · exact (dockerRun_marks env hne w.host).notStuck hn
  | rm targets => exact NotStuck.dockerRm targets hn hT
  | _ => exact (w.step_marks (by exact id)).notStuck hn

/-- Reboots are clean, and a `docker run` that finds its name free recovers; it starts with the network that
`init_docker_env` leaves. -/
def RecoversOk (m : Machine) (c : MachineCommand) : Prop :=
  c.CleanBoot ∧ match c with
    | .command net (.run env args) =>
      (initDockerEnv net m.net).2 = true →
        Command.Recovers (initDockerEnv net m.net).1.host (.run env args)
    | _ => True

/-- Every valid name is free or can be removed. -/
structure Freeable (h : Host) : Prop where
  tidy : Tidy h
  names : ∀ n, tdValidateName n TINYDOCKER_MAX_CONTAINER_NAME = .ok () → NotStuck n h

theorem Freeable.net {h h' : Host} (hf : Freeable h) (ho : OnlyNet h h') : Freeable h' :=
  ⟨hf.tidy.net ho, fun n hv => (ho.marks n).notStuck (hf.names n hv)⟩

theorem Freeable.world {w : World} (hf : Freeable w.host) {c : Command} (hc : c.Recovers w.host) :
    Freeable (w.step c).host :=
  ⟨hf.tidy.step c, fun n hv => (hf.names n hv).step hf.tidy hc⟩

theorem Freeable.step {m : Machine} (hf : Freeable m.world.host) {c : MachineCommand} (hc : RecoversOk m c) :
    Freeable (m.step c).world.host := by
  obtain ⟨hboot, hrun⟩ := hc
  cases c with
  | command net c =>
    cases c with
    | run env args =>
      have hinit := hf.net (initDockerEnv_only net m.net).net
      simp only [Machine.step]
      split
      · rename_i s he
        rw [he] at hinit
        exact hinit
      · rename_i s he
        simp only [he] at hinit hrun
        exact Freeable.world (w := (m.setNet s).world) hinit (hrun trivial)
    | _ => exact Freeable.world hf trivial
  | networkCreate net name cidr => exact hf.net (createNetwork_only net m.net ..).net
  | networkRm targets => exact hf.net (removeDockerNetwork_only targets m.net).net
  | reboot boot =>
    refine ⟨Machine.step_tidy hf.tidy hboot, fun n hv => ?_⟩
    rcases hf.names n hv with hfree | hsome
    · exact Or.inl (Machine.run_absent [.reboot boot] hfree fun c hc => by
        rw [List.mem_singleton.1 hc]
        exact ⟨hboot, id⟩)
    · exact Or.inr hsome

end TinyDocker
