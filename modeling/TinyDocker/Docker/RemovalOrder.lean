import TinyDocker.Docker.DefaultBridge
import TinyDocker.Docker.Removal

/-!
# `docker rm` removes the metadata last

`SameMarks` says what `container_exists` looks at; only `docker run` and `docker rm` of a name change it.

Principal result: `metadata_removed_last` — after any commands, an attempt either fails and keeps the
metadata, or succeeds and nothing of the container remains; from then on, as long as no `docker run`
uses the name, further attempts succeed and change nothing.
-/

set_option autoImplicit false

namespace TinyDocker

open CText MountSpace Staged

/-! ## What `container_exists` looks at -/

/-- The workspace, the cgroup and the metadata of a name are there as before. -/
structure SameMarks (n : Text) (h h' : Host) : Prop where
  workspace : h'.workspace n = h.workspace n
  cgroup : n ∈ h'.cgroups ↔ n ∈ h.cgroups
  info : (h'.info n).isSome = (h.info n).isSome

section Marks

variable {n name : Text} {h h' h'' : Host}

theorem SameMarks.of_eq (hw : h'.workspace = h.workspace) (hc : h'.cgroups = h.cgroups)
    (hi : h'.info = h.info) : SameMarks n h h' :=
  ⟨by rw [hw], by rw [hc], by rw [hi]⟩

theorem SameMarks.refl (n : Text) (h : Host) : SameMarks n h h := .of_eq rfl rfl rfl

theorem SameMarks.trans (h1 : SameMarks n h h') (h2 : SameMarks n h' h'') : SameMarks n h h'' :=
  ⟨h2.workspace.trans h1.workspace, h2.cgroup.trans h1.cgroup, h2.info.trans h1.info⟩

theorem SameMarks.containerExists (hm : SameMarks n h h') : containerExists n h' = containerExists n h := by
  have hcg : h'.cgroups.contains n = h.cgroups.contains n := by
    rw [Bool.eq_iff_iff, List.contains_iff_mem, List.contains_iff_mem]
    exact hm.cgroup
  unfold TinyDocker.containerExists
  rw [hcg, hm.info, hm.workspace]

theorem OnlyMounts.marks (n : Text) : OnlyMounts h h' → SameMarks n h h' := by
  rintro ⟨_, _, rfl, -⟩
  exact .of_eq rfl rfl rfl

theorem OnlyNet.marks (n : Text) : OnlyNet h h' → SameMarks n h h' := by
  rintro ⟨_, _, _, _, rfl⟩
  exact .of_eq rfl rfl rfl

theorem OnlyProcs.marks (n : Text) : OnlyProcs h h' → SameMarks n h h' := by
  rintro ⟨_, rfl⟩
  exact .of_eq rfl rfl rfl

/-- Another record. -/
theorem OnlyStatus.marks_of_ne (hn : n ≠ name) : OnlyStatus name h h' → SameMarks n h h' := by
  rintro ⟨o, rfl, -⟩
  exact ⟨rfl, Iff.rfl, by rw [Host.setInfo_of_ne h hn]⟩

/-- Writing over a record. -/
theorem writeContainerInfo_marks (env : Env) (n : Text) {i : ContainerInfo} (hi : h.info name = some i)
    (j : ContainerInfo) : SameMarks n h (writeContainerInfo env name j h).1 := by
  rcases writeContainerInfo_cases env name j h with he | he
  · rw [he]; exact .refl n h
  · rw [he]
    refine ⟨rfl, Iff.rfl, ?_⟩
    by_cases hn : n = name
    · subst hn
      rw [Host.setInfo_self, hi, Option.isSome_some, Option.isSome_some]
    · rw [Host.setInfo_of_ne h hn]

theorem updateContainerStatus_marks (env : Env) (n name : Text) (status : ContainerStatus) (h : Host) :
    SameMarks n h (updateContainerStatus env name status h).1 := by
  unfold updateContainerStatus
  split
  · exact .refl n h
  · rename_i i hi
    exact writeContainerInfo_marks env n hi _

theorem refresh_marks (env : Env) (n : Text) {i : ContainerInfo} (hi : h.info name = some i) :
    SameMarks n h (refreshContainerStatusIfNeeded env name i h).1 := by
  unfold refreshContainerStatusIfNeeded
  split
  · exact .refl n h
  split
  · exact .refl n h
  simp only
  split
  · split
    · exact .refl n h
    · exact writeContainerInfo_marks env n hi _
  · exact writeContainerInfo_marks env n hi _

theorem removeWorkspace_marks (env : Env) (hn : n ≠ name) (b : Bool) (h : Host) :
    SameMarks n h (removeWorkspace env name b h).1 := by
  unfold removeWorkspace
  split
  · unfold removeDir
    simp only
    split
    · exact .of_eq rfl rfl rfl
    split
    · exact .of_eq rfl rfl rfl
    · exact ⟨Function.update_of_ne hn .., Iff.rfl, rfl⟩
  · exact .refl n h

theorem rmdirCgroup_marks (env : Env) (site : Site) (hn : n ≠ name) (h : Host) :
    SameMarks n h (rmdirCgroup env site name h).1 := by
  unfold rmdirCgroup
  split
  · exact .refl n h
  split
  · exact .refl n h
  · exact ⟨rfl, List.mem_erase_of_ne hn, rfl⟩

theorem rmContainer_marks (env : Env) (hn : n ≠ name) (h : Host) :
    SameMarks n h (rmContainer env name h).1 := by
  rcases rmContainer_cases env name h with he | ⟨i, h', o, hi, href, hcase⟩
  · rw [he]; exact .refl n h
  have hs := refresh_marks env n hi
  rw [href] at hs
  rcases hcase with he | ⟨j, rfl, -, he⟩
  · rw [he]; exact hs
  rw [he]
  have hrec : SameMarks n h (h'.record (.teardown name (initAlive j h'))) := hs.trans (.of_eq rfl rfl rfl)
  rcases cleanContainerRuntime_cases env name j (h'.record (.teardown name (initAlive j h'))) with
    he | ⟨m, t, d, c, rfl, rfl, rfl, rfl, hlast⟩
  · rw [he]; exact hrec
  have hm := hrec.trans ((umountAll_only env name (j.volumes.map parseVolumeConfig) _).marks n)
  generalize umountAll env name (j.volumes.map parseVolumeConfig) _ = m at hm hlast
  have hnet := hm.trans ((cleanNetwork_only env name j.ipAddr m.1).marks n)
  have hc := (hnet.trans (removeWorkspace_marks env hn m.2 _)).trans
    (rmdirCgroup_marks env .cgroupRmdir hn _)
  rcases hlast with he | ⟨-, -, -, -, he⟩
  · rw [he]; exact hc
  · rw [he]; exact hc.trans ((removeStatusInfo_status env name _).marks_of_ne hn)

theorem dockerRm_marks : ∀ (targets : List (Text × Env)) (h : Host), n ∉ targets.map Prod.fst →
    SameMarks n h (dockerRm targets h).1
  | [], h, _ => .refl n h
  | (name, env) :: rest, h, hn => by
    simp only [List.map_cons, List.mem_cons, not_or] at hn
    exact (rmContainer_marks env hn.1 h).trans (dockerRm_marks rest _ hn.2)

theorem stopContainer_marks (env : Env) (time : Nat) (n name : Text) (h : Host) :
    SameMarks n h (stopContainer env time name h).1 := by
  rcases stopContainer_cases env time name h with he | ⟨i, h₁, o, hi, href, h₂, hprocs, hlast⟩
  · rw [he]; exact .refl n h
  have hs := refresh_marks env n hi
  rw [href] at hs
  have hs₂ := hs.trans (hprocs.marks n)
  rcases hlast with he | he
  · rw [he]; exact hs₂
  · rw [he]; exact hs₂.trans (updateContainerStatus_marks env n name .stopped h₂)

theorem dockerStop_marks (time : Nat) (n : Text) : ∀ (targets : List (Text × Env)) (h : Host),
    SameMarks n h (dockerStop time targets h).1
  | [], h => .refl n h
  | (name, env) :: rest, h =>
    (stopContainer_marks env time n name h).trans (dockerStop_marks time n rest _)

/-- The stages of another container. -/
theorem runStages_marks (env : Env) {args : RunArguments} (hn : n ≠ args.name) (h : Host) :
    TripleAll (fun st => SameMarks n h st.host) (runStages env args)
      (fun st => SameMarks n h st.host) (fun st => SameMarks n h st.host) := by
  refine .keep fun stage hstage st hs => ?_
  simp only [runStages, List.mem_cons, List.not_mem_nil, or_false] at hstage
  rcases hstage with rfl | rfl | rfl | rfl | rfl | rfl | rfl | rfl | rfl | rfl
  · have hmade : SameMarks n st.host
        { st.host with workspace := Function.update st.host.workspace args.name true } :=
      ⟨Function.update_of_ne hn .., Iff.rfl, rfl⟩
    unfold initContainerWorkerspace
    split
    · exact hs
    split
    · exact hs
    split
    · exact hs
    simp only
    split
    · exact hs.trans hmade
    split
    · exact hs.trans hmade
    · exact (hs.trans hmade).trans (.of_eq rfl rfl rfl)
  · obtain ⟨g, ho, he⟩ := volumeStage_outcome env args st
    rw [he]
    exact hs.trans (ho.marks n)
  · have hmade : SameMarks n st.host { st.host with cgroups := args.name :: st.host.cgroups } :=
      ⟨rfl, List.mem_cons.trans (or_iff_right hn), rfl⟩
    unfold cgroupPrepare
    split
    · exact hs
    simp only
    split
    · exact (hs.trans hmade).trans (rmdirCgroup_marks env .cgroupRollback hn _)
    · exact hs.trans hmade
  · obtain ⟨_, he⟩ := pipeStage_outcome env st
    rw [he]
    exact hs
  · obtain ⟨_, _, _, he⟩ := cloneStage_outcome env st
    rw [he]
    exact hs.trans (.of_eq rfl rfl rfl)
  · obtain ⟨_, he⟩ := cgroupApply_outcome env args st
    rw [he]
    exact hs.trans (.of_eq rfl rfl rfl)
  · obtain ⟨g, _, ho, he⟩ := connectStage_outcome env args st
    rw [he]
    exact hs.trans (ho.net.marks n)
  · obtain ⟨g, ho, he, -⟩ := portStage_outcome env args st
    rw [he]
    exact hs.trans (ho.net.marks n)
  · unfold metadataStage
    split
    · exact hs
    rename_i info _
    rcases writeContainerInfo_cases env args.name info st.host with hw | hw
    · rw [hw]; exact hs
    · rw [hw]
      have hother : SameMarks n st.host (st.host.setInfo args.name (some info)) :=
        ⟨rfl, Iff.rfl, by rw [Host.setInfo_of_ne st.host hn]⟩
      exact hs.trans hother
  · obtain ⟨_, he⟩ := releaseStage_outcome env st
    rw [he]
    exact hs

theorem dockerRun_marks (env : Env) {args : RunArguments} (hn : n ≠ args.name) (h : Host) :
    SameMarks n h (dockerRun env args h).1 := by
  have hrun := runStages_marks env hn h (RunState.start h) (.refl n h)
  refine dockerRun_rule (.refl n h) (fun st _ hst => hrun.1 st hst) fun st _ hst => ?_
  have hs := ((hrun.2 st hst).trans ((killChild_only st).marks n)).trans
    ((dropNetwork_only env args.name st.ipAddr _).marks n)
  have hm := hs.trans ((dropMounts_only env args st.mountpointSet _).marks n)
  unfold cleanupRunFailure
  simp only
  generalize dropMounts env args st.mountpointSet (dropNetwork env args.name st.ipAddr (killChild st)) = m
    at hm
  have hd := hm.trans (removeWorkspace_marks env hn m.2 m.1)
  have hc : SameMarks n h (cgroupCleanup env args.name st.cgroupCreated
      (removeWorkspace env args.name m.2 m.1).1) := by
    unfold cgroupCleanup
    split
    · exact hd.trans (rmdirCgroup_marks env .cgroupRmdir hn _)
    · exact hd
  split
  · exact hc.trans ((removeStatusInfo_status env args.name _).marks_of_ne hn)
  · exact hc

end Marks

/-- The command starts or removes a container of that name. -/
def Command.concerns (n : Text) : Command → Prop
  | .run _ args => args.name = n
  | .rm targets => n ∈ targets.map Prod.fst
  | _ => False

/-- Only `docker run` and `docker rm` of a name change whether it exists. -/
theorem World.step_marks {n : Text} (w : World) {c : Command} (hc : ¬ c.concerns n) :
    SameMarks n w.host (w.step c).host := by
  have hadd : ∀ pid cgroup, SameMarks n w.host (addProcess pid cgroup w.host) := by
    intro pid cgroup
    unfold addProcess
    split
    · exact .refl n w.host
    · exact .of_eq rfl rfl rfl
  cases c with
  | run env args => exact dockerRun_marks env (fun he => hc he.symm) w.host
  | reap env k =>
    simp only [World.step]
    split
    · exact .refl n w.host
    · rename_i e _
      split
      · have hreaped : SameMarks n w.host { w.host with
            procs := w.host.procs.filter fun p => decide (¬ (p.pid = e.pid ∧ p.start = e.start)) } :=
          .of_eq rfl rfl rfl
        exact hreaped.trans (updateContainerStatus_marks env n e.name .exited _)
      · exact .refl n w.host
  | stop time targets => exact dockerStop_marks time n targets w.host
  | rm targets => exact dockerRm_marks targets w.host hc
  | refresh name env =>
    simp only [World.step]
    split
    · exact .refl n w.host
    · rename_i i hi
      exact refresh_marks env n hi
  | exit pid => exact .of_eq rfl rfl rfl
  | collect pid =>
    simp only [World.step]
    split
    · exact .refl n w.host
    · exact .of_eq rfl rfl rfl
  | fork parent pid =>
    simp only [World.step]
    split
    · exact .refl n w.host
    · exact hadd pid _
  | spawn pid => exact hadd pid none
  | edit obj => exact .of_eq rfl rfl rfl

/-! ## Sequences of attempts -/

/-- A command that starts a container of that name. -/
def Command.starts (n : Text) : Command → Prop
  | .run _ args => args.name = n
  | _ => False

def MachineCommand.starts (n : Text) : MachineCommand → Prop
  | .command _ c => c.starts n
  | _ => False

/-- The host boots without cgroups of containers, and with nothing mounted where containers live. -/
def MachineCommand.CleanBoot : MachineCommand → Prop
  | .reboot boot => (∀ n, mountsBelow n boot.host.space.table = []) ∧ boot.host.cgroups = []
  | _ => True

theorem Machine.step_tidy {m : Machine} (hT : Tidy m.world.host) {c : MachineCommand} (hc : c.CleanBoot) :
    Tidy (m.step c).world.host := by
  rcases m.step_cases c with ⟨boot, rfl⟩ | ⟨h, hnet, hw | ⟨net, c', rfl, hw⟩⟩
  · refine ⟨fun n hn => absurd (hc.1 n) hn, ?_, hT.connected⟩
    show boot.host.cgroups.Nodup
    rw [hc.2]
    exact List.nodup_nil
  · rw [hw]
    exact hT.net hnet.net
  · rw [hw]
    exact (Tidy.net hT hnet.net).step (w := { m.world with host := h }) c'

theorem Machine.run_tidy : ∀ (cs : List MachineCommand) {m : Machine}, Tidy m.world.host →
    (∀ c ∈ cs, c.CleanBoot) → Tidy (m.run cs).world.host
  | [], _, hT, _ => hT
  | c :: cs, m, hT, hcs => Machine.run_tidy cs (m := m.step c)
      (Machine.step_tidy hT (hcs c List.mem_cons_self)) fun x hx => hcs x (List.mem_cons_of_mem _ hx)

theorem rmContainer_absent {env : Env} {name : Text} {h : Host} (hno : containerExists name h = false) :
    rmContainer env name h = (h, true) := by
  unfold rmContainer
  rw [if_pos hno]

/-- A `docker rm` of an absent container, and of others. -/
theorem dockerRm_absent {n : Text} : ∀ (targets : List (Text × Env)) {h : Host}, containerExists n h = false →
    containerExists n (dockerRm targets h).1 = false
  | [], _, hno => hno
  | (name, env) :: rest, h, hno => by
    refine dockerRm_absent rest ?_
    by_cases hn : n = name
    · subst hn
      rw [rmContainer_absent hno]
      exact hno
    · rw [(rmContainer_marks env hn h).containerExists]
      exact hno

theorem World.step_absent {n : Text} {w : World} (hno : containerExists n w.host = false) {c : Command}
    (hc : ¬ c.starts n) : containerExists n (w.step c).host = false := by
  cases c with
  | rm targets => exact dockerRm_absent targets hno
  | _ =>
    rw [(w.step_marks (by exact hc)).containerExists]
    exact hno

/-- An absent container stays absent until a `docker run` uses its name. -/
theorem Machine.run_absent {n : Text} : ∀ (cs : List MachineCommand) {m : Machine},
    containerExists n m.world.host = false → (∀ c ∈ cs, c.CleanBoot ∧ ¬ c.starts n) →
      containerExists n (m.run cs).world.host = false
  | [], _, hno, _ => hno
  | c :: cs, m, hno, hcs => by
    refine Machine.run_absent cs (m := m.step c) ?_ fun x hx => hcs x (List.mem_cons_of_mem _ hx)
    obtain ⟨hboot, hstart⟩ := hcs c List.mem_cons_self
    rcases m.step_cases c with ⟨boot, rfl⟩ | ⟨h, hnet, hw | ⟨net, c', rfl, hw⟩⟩
    · -- the workspace and the metadata are kept, the cgroups are gone
      simp only [containerExists, Bool.or_eq_false_iff] at hno
      simp [containerExists, Machine.step, hboot.2, hno.1, hno.2.1.2, hno.2.2]
    · rw [hw, (hnet.net.marks n).containerExists]
      exact hno
    · rw [hw]
      refine World.step_absent (w := { m.world with host := h }) ?_ hstart
      rw [(hnet.net.marks n).containerExists]
      exact hno

/-- After a successful attempt the container does not exist. -/
theorem rmContainer_absent_after {env : Env} {name : Text} {h : Host} (hT : Tidy h)
    (hok : (rmContainer env name h).2 = true) : containerExists name (rmContainer env name h).1 = false := by
  by_cases hex : containerExists name h = false
  · rw [rmContainer_absent hex]
    exact hex
  cases hi : h.info name with
  | none =>
    unfold rmContainer at hok
    rw [if_neg hex, hi] at hok
    cases hok
  | some i =>
    obtain ⟨j, -, ⟨-, hnone, hgone⟩ | ⟨hfail, -⟩⟩ := rmContainer_removed hT env hi
    · simp only [Remains, not_or, Bool.not_eq_true] at hgone
      have hvalid := (hT.connected name i hi).valid
      simp [containerExists, hvalid, hnone, hgone.2.2.2.2.1, hgone.2.2.2.2.2]
    · rw [hok] at hfail
      cases hfail

/-- One attempt of `docker rm NAME`. -/
def MachineCommand.attempt (name : Text) (env : Env) : MachineCommand :=
  .command (fun _ => false) (.rm [(name, env)])

/-- **The metadata is removed last.**  After any commands and reboots, whatever fails in them: an attempt on
a container that is not running removes the metadata and leaves nothing, or fails and keeps the metadata.
After a successful attempt further ones succeed and change nothing, whatever happens in between, as long as
no `docker run` uses the name. -/
theorem metadata_removed_last (m : Machine) (cs : List MachineCommand) (hboot : m.world.Booted)
    (hcgroups : m.world.host.cgroups.Nodup) (hcs : ∀ c ∈ cs, c.CleanBoot) (name : Text) (env : Env) :
    (∀ i, (m.run cs).world.host.info name = some i → i.status ≠ .running →
      ((dockerRm [(name, env)] (m.run cs).world.host).2 = true ∧
          (dockerRm [(name, env)] (m.run cs).world.host).1.info name = none ∧
          ¬ Remains name i (dockerRm [(name, env)] (m.run cs).world.host).1) ∨
        ((dockerRm [(name, env)] (m.run cs).world.host).2 = false ∧
          (dockerRm [(name, env)] (m.run cs).world.host).1.info name = some i)) ∧
    ((dockerRm [(name, env)] (m.run cs).world.host).2 = true →
      ∀ cs' env', (∀ c ∈ cs', c.CleanBoot ∧ ¬ c.starts name) →
        dockerRm [(name, env')] (((m.run cs).step (.attempt name env)).run cs').world.host =
          ((((m.run cs).step (.attempt name env)).run cs').world.host, true)) := by
  have hT : Tidy (m.run cs).world.host := Machine.run_tidy cs (hboot.tidy hcgroups) hcs
  have hflag : (dockerRm [(name, env)] (m.run cs).world.host).2 =
      (rmContainer env name (m.run cs).world.host).2 := by
    simp only [dockerRm, Bool.and_true]
  refine ⟨fun i hi hs => ?_, fun hok cs' env' hcs' => ?_⟩
  · rw [hflag]
    obtain ⟨j, hj, hcase⟩ := rmContainer_removed hT env hi
    rw [hj hs] at hcase
    exact hcase
  · rw [hflag] at hok
    have hgone : containerExists name ((m.run cs).step (.attempt name env)).world.host = false :=
      rmContainer_absent_after hT hok
    have hstill := Machine.run_absent cs' hgone hcs'
    simp only [dockerRm, rmContainer_absent hstill, Bool.and_true]

/-- A container that has ended, and a `docker rm` that could not remove its cgroup. -/
def halfRemoved : List MachineCommand :=
  firstRun ++ [.command (fun _ => false) (.exit 20), .command (fun _ => false) (.collect 20),
    .attempt "web001".toList { Env.quiet [] 0 with fails := fun s => decide (s = .cgroupRmdir) }]

theorem Machine.fresh_booted : Machine.fresh.world.Booted :=
  ⟨rfl, fun _ => rfl, fun _ => rfl, fun _ => rfl, rfl, by decide, by decide, by decide⟩

theorem halfRemoved_finished :
    (∃ i, (Machine.fresh.run halfRemoved).world.host.info "web001".toList = some i ∧ i.status = .exited) ∧
      (dockerRm [("web001".toList, .quiet [] 0)] (Machine.fresh.run halfRemoved).world.host).2 = true ∧
      dockerRm [("web001".toList, .quiet [] 0)]
          ((Machine.fresh.run halfRemoved).step (.attempt "web001".toList (.quiet [] 0))).world.host =
        (((Machine.fresh.run halfRemoved).step (.attempt "web001".toList (.quiet [] 0))).world.host, true) := by
  have hok : (dockerRm [("web001".toList, .quiet [] 0)] (Machine.fresh.run halfRemoved).world.host).2 = true := by
    decide +kernel
  refine ⟨⟨_, rfl, rfl⟩, hok, (metadata_removed_last Machine.fresh halfRemoved Machine.fresh_booted (by decide)
    (fun c hc => ?_) "web001".toList (.quiet [] 0)).2 hok [] (.quiet [] 0) fun c hc => by cases hc⟩
  simp only [halfRemoved, firstRun, List.cons_append, List.nil_append, List.mem_cons, List.not_mem_nil,
    or_false] at hc
  rcases hc with rfl | rfl | rfl | rfl
  all_goals trivial

end TinyDocker
