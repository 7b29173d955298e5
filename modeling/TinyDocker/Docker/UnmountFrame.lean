import TinyDocker.Docker.VolumeRollback
import TinyDocker.Docker.System

/-!
# Which mounts a failed start removes

When `mount_volumes` fails, `cleanup_run_failure` unmounts every volume of the command line, also
those that were refused.  A volume is refused when its target is a symbolic link, and `umount`
follows the link.

Principal result: `unmount_frame_iff` — after a failure of `mount_volumes` every mount of the host
is still there if and only if no target leads, links followed, to another mount that can be
unmounted, unless a target later in the list leads to the mountpoint itself.
-/

set_option autoImplicit false

namespace TinyDocker

open CText MountSpace Staged

/-- The target leads to the mountpoint of the container. -/
def LeadsToRoot (name : Text) (h : Host) (v : VolumeConfig) : Prop :=
  targetFits name v = true ∧ resolveTarget h name v.path = .ok (mountpointDir name)

/-- The target leads to a mount other than the overlay, and that one can be unmounted. -/
def LeadsAway (name : Text) (h : Host) (v : VolumeConfig) : Prop :=
  targetFits name v = true ∧ ∃ q table, resolveTarget h name v.path = .ok q ∧
    q ≠ mountpointDir name ∧ umountAt h.space.table q = .ok table

/-- No target leads away before one further back in the list leads to the mountpoint. -/
def StaysInside (name : Text) (vs : List VolumeConfig) (h : Host) : Prop :=
  ∀ front v back, vs = front ++ v :: back → (∀ w ∈ back, ¬ LeadsToRoot name h w) → ¬ LeadsAway name h v

theorem StaysInside.tail {name : Text} {v : VolumeConfig} {vs : List VolumeConfig} {h : Host}
    (hs : StaysInside name (v :: vs) h) : StaysInside name vs h :=
  fun front w back he => hs (v :: front) w back (by rw [he]; rfl)

/-- Only the mount namespace matters. -/
theorem StaysInside.congr {name : Text} {vs : List VolumeConfig} {h h' : Host} (hs : StaysInside name vs h)
    (he : h'.space = h.space) : StaysInside name vs h' := by
  have hres : ∀ v : VolumeConfig, resolveTarget h' name v.path = resolveTarget h name v.path := by
    intro v
    unfold resolveTarget
    rw [he]
  intro front v back hvs hback haway
  refine hs front v back hvs (fun w hw hroot => hback w hw ⟨hroot.1, (hres w).trans hroot.2⟩) ?_
  obtain ⟨hfit, q, table, hq, hne, hu⟩ := haway
  exact ⟨hfit, q, table, (hres v).symm.trans hq, hne, by rw [← he]; exact hu⟩

/-! ## The unmount loop after the rollback -/

section Loop

variable {env : Env} {name : Text} {outer : List Mount} {overlay : Mount}

theorem umountTarget_space (hquiet : env.QuietUmounts) (site : Site) (name : Text) (v : VolumeConfig)
    (h : Host) :
    (umountTarget env site name v h).1.space = h.space ∨
      ∃ q table, targetFits name v = true ∧ resolveTarget h name v.path = .ok q ∧
        umountAt h.space.table q = .ok table ∧
        (umountTarget env site name v h).1.space = { h.space with table := table } := by
  unfold umountTarget
  split
  · rename_i hfit
    unfold umount
    split
    · rename_i table hu
      simp only [umountResolved, hquiet site] at hu
      split at hu
      · cases hu
      rename_i q hq
      exact Or.inr ⟨q, table, hfit, hq, hu, rfl⟩
    · exact Or.inl rfl
  · exact Or.inl rfl

theorem no_mount_at_mountpoint {table : List Mount} (hfree : mountsBelow name table = []) :
    umountAt table (mountpointDir name) = .error .EINVAL ∧ mountedAt table (mountpointDir name) = false := by
  have hnone : ∀ m ∈ table, m.path ≠ mountpointDir name := by
    intro m hm hp
    refine below_eq_nil.1 hfree m hm ?_
    rw [hp]
    exact List.prefix_append _ _
  refine ⟨umountAt_of_forall_ne hnone (by simp [mountpointDir, containerDir]), ?_⟩
  rw [Bool.eq_false_iff]
  intro hmounted
  obtain ⟨m, hm, hp⟩ := mountedAt_mem hmounted
  exact hnone m hm hp

/-- With nothing mounted there, no target leads anywhere. -/
theorem umountTarget_unmounted (hquiet : env.QuietUmounts) (site : Site) (v : VolumeConfig) {h : Host}
    (hfree : mountsBelow name h.space.table = []) :
    (umountTarget env site name v h).1.space = h.space := by
  obtain ⟨heinval, hunmounted⟩ := no_mount_at_mountpoint hfree
  rcases umountTarget_space hquiet site name v h with hv | ⟨q, table, -, hq, hu, -⟩
  · exact hv
  · unfold resolveTarget at hq
    rw [hunmounted] at hq
    simp only [Bool.false_eq_true, if_false] at hq
    split at hq
    · cases hq
      rw [heinval] at hu
      cases hu
    · cases hq

theorem sublist_of_umountAt {table table' : List Mount} {p : Path} (h : umountAt table p = .ok table') :
    List.Sublist table' table := by
  obtain ⟨before, m, after, rfl, rfl, -, -⟩ := umountAt_ok h
  exact List.Sublist.append_left (List.sublist_cons_self m after) before

/-- Unmounting a mount of the host loses it for good. -/
theorem not_sublist_of_away {q : Path} {table : List Mount} (hfree : mountsBelow name outer = [])
    (hov : overlay.path = mountpointDir name) (hq : q ≠ mountpointDir name)
    (hu : umountAt (outer ++ [overlay]) q = .ok table) : ¬ List.Sublist outer table := by
  obtain ⟨before, m, after, htable, rfl, hm, -⟩ := umountAt_ok hu
  intro hsub
  have hlen : (before ++ after).length = outer.length := by
    have := congrArg List.length htable
    simp only [List.length_append, List.length_cons, List.length_nil] at this ⊢
    omega
  have heq : outer = before ++ after := hsub.eq_of_length hlen.symm
  have hmem : overlay ∈ before ++ m :: after := htable ▸ List.mem_append_right _ List.mem_cons_self
  have hne : overlay ≠ m := fun he => hq (by rw [← hm, ← he, hov])
  have hin : overlay ∈ outer := by
    rw [heq]
    rcases List.mem_append.1 hmem with h | h
    · exact List.mem_append_left _ h
    · rcases List.mem_cons.1 h with h | h
      · exact absurd h hne
      · exact List.mem_append_right _ h
  refine below_eq_nil.1 hfree overlay hin ?_
  rw [hov]
  exact List.prefix_append _ _

/-- What the loop leaves, starting from the overlay on top of the mounts of the host:
the same, or these mounts without the overlay, or one of them is lost. -/
theorem umountEach_after_rollback (hquiet : env.QuietUmounts) (hfree : mountsBelow name outer = [])
    (hov : overlay.path = mountpointDir name) (site : Nat → Site) :
    ∀ (vs : List VolumeConfig) (i : Nat) {h : Host}, h.space.table = outer ++ [overlay] →
      ((umountEach env site name i vs h).1.space = h.space ∧
        ∀ v ∈ vs, ¬ LeadsToRoot name h v ∧ ¬ LeadsAway name h v) ∨
      ((umountEach env site name i vs h).1.space = { h.space with table := outer } ∧
        (∃ v ∈ vs, LeadsToRoot name h v) ∧ StaysInside name vs h) ∨
      (¬ List.Sublist outer (umountEach env site name i vs h).1.space.table ∧ ¬ StaysInside name vs h)
  | [], _, _, _ => Or.inl ⟨rfl, fun v hv => by cases hv⟩
  | v :: vs, i, h, htable => by
    have ih := umountEach_after_rollback hquiet hfree hov site vs (i + 1) htable
    unfold umountEach
    simp only
    generalize umountEach env site name (i + 1) vs h = later at ih ⊢
    have hv := umountTarget_space hquiet (site i) name v later.1
    rcases ih with ⟨hsame, hvs⟩ | ⟨hgone, ⟨w, hw, hwroot⟩, hstay⟩ | ⟨hlost, hleft⟩
    · -- the overlay is still on top
      have hres : resolveTarget later.1 name v.path = resolveTarget h name v.path := by
        unfold resolveTarget; rw [hsame]
      rw [hsame, hres] at hv
      by_cases hroot : LeadsToRoot name h v
      · right; left
        refine ⟨?_, ⟨v, List.mem_cons_self, hroot⟩, fun front u back he hback haway => ?_⟩
        · unfold umountTarget
          rw [if_pos hroot.1, hres, hroot.2]
          have hpop : umountAt later.1.space.table (mountpointDir name) = .ok outer := by
            rw [hsame, htable, ← hov]
            exact umountAt_append_self outer overlay
          simp only [umount, umountResolved, hquiet (site i), hpop]
          show { later.1.space with table := outer } = _
          rw [hsame]
        · cases front with
          | nil =>
            cases he
            obtain ⟨-, q, _, hq, hne, -⟩ := haway
            rw [hroot.2] at hq
            cases hq
            exact hne rfl
          | cons x front =>
            cases he
            exact (hvs u (by simp)).2 haway
      · by_cases haway : LeadsAway name h v
        · right; right
          obtain ⟨hfit, q, table, hq, hne, hu⟩ := haway
          refine ⟨?_, fun hs => hs [] v vs rfl (fun u hu => (hvs u hu).1) ⟨hfit, q, table, hq, hne, hu⟩⟩
          unfold umountTarget
          rw [if_pos hfit, hres, hq]
          have hu' : umountAt later.1.space.table q = .ok table := by rw [hsame]; exact hu
          simp only [umount, umountResolved, hquiet (site i), hu']
          rw [htable] at hu
          exact not_sublist_of_away hfree hov hne hu
        · left
          refine ⟨?_, fun u hu => ?_⟩
          · rcases hv with hv | ⟨q, table, hfit, hq, hu, -⟩
            · exact hv
            · by_cases hne : q = mountpointDir name
              · exact absurd ⟨hfit, hne ▸ hq⟩ hroot
              · exact absurd ⟨hfit, q, table, hq, hne, hu⟩ haway
          · rcases List.mem_cons.1 hu with rfl | hu
            · exact ⟨hroot, haway⟩
            · exact hvs u hu
    · -- the overlay has gone; nothing is mounted on the mountpoint any more
      right; left
      have hstill : mountsBelow name later.1.space.table = [] := by rw [hgone]; exact hfree
      refine ⟨?_, ⟨w, List.mem_cons_of_mem _ hw, hwroot⟩, fun front u back he hback => ?_⟩
      · rw [umountTarget_unmounted hquiet (site i) v hstill, hgone]
      · cases front with
        | nil =>
          cases he
          exact absurd hwroot (hback w hw)
        | cons x front =>
          cases he
          exact hstay front u back rfl hback
    · right; right
      refine ⟨fun hsub => hlost ?_, fun hs => hleft hs.tail⟩
      rcases hv with hv | ⟨q, table, -, -, hu, hv⟩
      · rw [hv] at hsub
        exact hsub
      · rw [hv] at hsub
        exact hsub.trans (sublist_of_umountAt hu)

end Loop

/-- **If no target leads away**, exactly the overlay goes: in the loop or by the last unmount. -/
theorem umountAll_outer {env : Env} {name : Text} {outer : List Mount} {overlay : Mount}
    (hquiet : env.QuietUmounts) (hfree : mountsBelow name outer = [])
    (hov : overlay.path = mountpointDir name) {vs : List VolumeConfig} {h : Host}
    (htable : h.space.table = outer ++ [overlay]) (hstay : StaysInside name vs h) :
    (umountAll env name vs h).1.space.table = outer := by
  have hloop := umountEach_after_rollback hquiet hfree hov .volumeUmount vs 0 htable
  unfold umountAll umountVolumes
  simp only
  generalize umountEach env .volumeUmount name 0 vs h = v at hloop
  rcases hloop with ⟨hsame, -⟩ | ⟨hgone, -, -⟩ | ⟨-, hleft⟩
  · have hpop : umountAt v.1.space.table (mountpointDir name) = .ok outer := by
      rw [hsame, htable, ← hov]
      exact umountAt_append_self outer overlay
    simp only [umount, umountResolved, hquiet .rootUmount, hpop]
    rfl
  · have heinval : umountAt v.1.space.table (mountpointDir name) = .error .EINVAL := by
      rw [hgone]
      exact (no_mount_at_mountpoint hfree).1
    simp only [umount, umountResolved, hquiet .rootUmount, heinval]
    show v.1.space.table = outer
    rw [hgone]
  · exact absurd hstay hleft

theorem umountAll_after_rollback {env : Env} {name : Text} {outer : List Mount} {overlay : Mount}
    (hquiet : env.QuietUmounts) (hfree : mountsBelow name outer = [])
    (hov : overlay.path = mountpointDir name) (vs : List VolumeConfig) {h : Host}
    (htable : h.space.table = outer ++ [overlay]) :
    List.Sublist outer (umountAll env name vs h).1.space.table ↔ StaysInside name vs h := by
  refine ⟨fun hsub => ?_, fun hstay => ?_⟩
  · by_contra hleft
    have hlost : ¬ List.Sublist outer (umountEach env .volumeUmount name 0 vs h).1.space.table := by
      rcases umountEach_after_rollback hquiet hfree hov .volumeUmount vs 0 htable with
        ⟨-, hvs⟩ | ⟨-, -, hstay⟩ | ⟨hlost, -⟩
      · exact absurd (fun front v back he _ => (hvs v (by rw [he]; simp)).2) hleft
      · exact absurd hstay hleft
      · exact hlost
    refine hlost (hsub.trans ?_)
    show List.Sublist (umount env .rootUmount (.ok (mountpointDir name)) _).1.space.table _
    unfold umount
    split
    · rename_i table hu
      simp only [umountResolved, hquiet .rootUmount] at hu
      exact sublist_of_umountAt hu
    · exact List.Sublist.refl _
  · rw [umountAll_outer hquiet hfree hov htable hstay]

/-! ## The failed start -/

/-- After the cleanup the mount table is what the two rounds of unmounting have left. -/
theorem cleanupRunFailure_space (env : Env) (args : RunArguments) {st : RunState}
    (hchild : st.childPid = none) (hip : st.ipAddr = []) (hset : st.mountpointSet = true) :
    (cleanupRunFailure env args st).space = (umountAll env args.name args.volumes st.host).1.space := by
  have hstart : dropNetwork env args.name st.ipAddr (killChild st) = st.host := by
    simp only [killChild, hchild, hip, dropNetwork, if_true]
  obtain ⟨_, _, _, _, he⟩ := cleanupRunFailure_rest env args st rfl
  rw [he, hstart, hset]
  rfl

/-- The state in which the cleanup starts: the overlay is on top of the mounts of the host. -/
theorem volume_failure_state {env : Env} {args : RunArguments} {h : Host} {st₁ st₂ : RunState}
    (hquiet : env.QuietUmounts)
    (hinit : initContainerWorkerspace env args (RunState.start h) = .ok st₁)
    (hfail : volumeStage env args st₁ = .error st₂) :
    st₂.childPid = none ∧ st₂.ipAddr = [] ∧ st₂.mountpointSet = true ∧
      ∃ overlay : Mount, overlay.path = mountpointDir args.name ∧
        st₂.host.space.table = h.space.table ++ [overlay] := by
  obtain ⟨lower, -, rfl⟩ := initContainerWorkerspace_ok hinit
  obtain ⟨hflag, rfl⟩ := volumeStage_error hfail
  have hmp := mountedAt_append_self h.space.table ⟨mountpointDir args.name, h.space.nextFs, []⟩
  exact ⟨rfl, rfl, rfl, _, rfl, (mountVolumes_failed hquiet hmp hflag).table⟩

/-- **Unmount frame.**  When `mount_volumes` fails, `docker run` leaves every mount of the host in
place if and only if, in the state before the cleanup, no target leads away. -/
theorem unmount_frame_iff (env : Env) (args : RunArguments) (h : Host) (st₁ st₂ : RunState)
    (hquiet : env.QuietUmounts) (hfresh : containerExists args.name h = false)
    (hfree : mountsBelow args.name h.space.table = []) (halloc : env.fails .mountpointAlloc = false)
    (hinit : initContainerWorkerspace env args (RunState.start h) = .ok st₁)
    (hfail : volumeStage env args st₁ = .error st₂) :
    List.Sublist h.space.table (dockerRun env args h).1.space.table ↔
      StaysInside args.name args.volumes st₂.host := by
  obtain ⟨hchild, hip, hset, overlay, hov, htable⟩ := volume_failure_state hquiet hinit hfail
  have hrun : dockerRun env args h = (cleanupRunFailure env args st₂, -1) := by
    unfold dockerRun
    rw [hfresh, halloc]
    simp only [Bool.false_eq_true, if_false, runStages, runAll, hinit, hfail]
  rw [hrun, cleanupRunFailure_space env args hchild hip hset]
  exact umountAll_after_rollback hquiet hfree hov args.volumes htable

/-- A host with `/v`, a mount on `/mnt`, and an image directory `/img` in which `/d` is what `d` says. -/
def mntHost (d : Option Obj) : Host :=
  { Host.bare with space :=
    ⟨fun fs q => if fs ≠ 0 then none
      else if q = [ "v".toList] ∨ q = [ "mnt".toList] ∨ q = [ "img".toList] then some .dir
      else if q = [ "img".toList, "d".toList] then d else none,
      [⟨[ "mnt".toList], 5, []⟩], 6⟩ }

def mntArgs : RunArguments :=
  { shellArgs "web001".toList true with volumes := [⟨"/v".toList, "/d".toList, 0⟩] }

/-- An environment in which the bind mount fails. -/
def Env.noBind : Env :=
  { Env.quiet [ "img".toList] 20 with fails := fun s => decide (s = .bindMount 0) }

theorem plain_target_keeps_mnt :
    ∃ st₁ st₂, initContainerWorkerspace .noBind mntArgs (RunState.start (mntHost none)) = .ok st₁ ∧
      volumeStage .noBind mntArgs st₁ = .error st₂ ∧
      List.Sublist [⟨[ "mnt".toList], 5, []⟩] (dockerRun .noBind mntArgs (mntHost none)).1.space.table ∧
      StaysInside mntArgs.name mntArgs.volumes st₂.host :=
  ⟨_, _, rfl, rfl, by decide +kernel,
    (unmount_frame_iff .noBind mntArgs (mntHost none) _ _ (fun _ => rfl) (by decide) (by decide) rfl rfl
      rfl).1 (by decide +kernel)⟩

/-- The image has a link `/d -> /mnt`: the volume is refused, and the cleanup unmounts `/mnt` of the
host. -/
theorem link_target_loses_mnt :
    (∀ v ∈ mntArgs.volumes, CliVolume v) ∧
      containerExists mntArgs.name (mntHost (some (.link "/mnt".toList))) = false ∧
      (∃ st₁ st₂, initContainerWorkerspace (.quiet [ "img".toList] 20) mntArgs
          (RunState.start (mntHost (some (.link "/mnt".toList)))) = .ok st₁ ∧
        volumeStage (.quiet [ "img".toList] 20) mntArgs st₁ = .error st₂) ∧
      (dockerRun (.quiet [ "img".toList] 20) mntArgs (mntHost (some (.link "/mnt".toList)))).2 = -1 ∧
      ¬ List.Sublist (mntHost (some (.link "/mnt".toList))).space.table
        (dockerRun (.quiet [ "img".toList] 20) mntArgs (mntHost (some (.link "/mnt".toList)))).1.space.table := by
  refine ⟨fun v hv => ?_, by decide, ⟨_, _, rfl, rfl⟩, by decide +kernel, by decide +kernel⟩
  rw [List.mem_singleton.1 hv]
  exact ⟨"/v:/d".toList, by decide, by decide⟩

end TinyDocker
