import TinyDocker.Lib.Runs
import TinyDocker.Docker.RemovalOrder

/-!
# `docker run` against `docker run`

Nothing locks a container name: between `container_exists` and the first directory another process may check the
same name.  Here any number of calls of `docker_run` run on one host, one stage at a time in any order; the check
and the cleanup after a failure are one step each.  A call that runs alone is `dockerRun`.

Principal results: `racing_runs` — the exclusive creation of the cgroup lets at most one call for a name succeed,
but the cleanup of another takes its metadata away; `alone_is_dockerRun`.
-/

set_option autoImplicit false

namespace TinyDocker

open CText Staged

inductive RunPhase where
  | checking
  /-- So many stages are done. -/
  | running (done : Nat)
  | failing
  | returned (result : Int)
  deriving DecidableEq, Repr

/-- A call of `docker_run` with the answers it gets; the host in `locals` is the one it saw last. -/
structure RunCall where
  env : Env
  args : RunArguments
  locals : RunState
  phase : RunPhase

/-- The next step of a call. -/
def RunCall.step (c : RunCall) (h : Host) : Host × RunCall :=
  match c.phase with
  | .checking =>
    if containerExists c.args.name h ∨ c.env.fails .mountpointAlloc = true then
      (h, { c with phase := .returned (-1) })
    else (h, { c with locals := RunState.start h, phase := .running 0 })
  | .running done =>
    match (runStages c.env c.args)[done]? with
    | none => (h, { c with phase := .returned 0 })
    | some stage =>
      match stage { c.locals with host := h } with
      | .ok st => (st.host, { c with locals := st, phase := .running (done + 1) })
      | .error st => (st.host, { c with locals := st, phase := .failing })
  | .failing => (cleanupRunFailure c.env c.args { c.locals with host := h }, { c with phase := .returned (-1) })
  | .returned _ => (h, c)

structure Race where
  host : Host
  calls : Nat → RunCall

def Race.step (r : Race) (i : Nat) : Race :=
  ⟨((r.calls i).step r.host).1, Function.update r.calls i ((r.calls i).step r.host).2⟩

/-- The calls before their first steps. -/
def Race.start (h : Host) (runs : Nat → Env × RunArguments) : Race :=
  ⟨h, fun i => ⟨(runs i).1, (runs i).2, RunState.start h, .checking⟩⟩

/-! ## What a step does to the cgroups -/

section Stages

variable {env : Env} {args : RunArguments} {st st' : RunState}

/-- Stages other than the third leave the cgroups alone. -/
theorem stage_cgroups {k : Nat} {stage : Stage RunState} (hk : (runStages env args)[k]? = some stage)
    (hne : k ≠ 2) (st : RunState) : (outcome (stage st)).host.cgroups = st.host.cgroups ∧
      (outcome (stage st)).cgroupCreated = st.cgroupCreated := by
  rcases k with _ | _ | _ | _ | _ | _ | _ | _ | _ | _ | k
  · cases hk
    obtain ⟨_, _, _, he⟩ := initContainerWorkerspace_outcome env args st
    rw [he]
    exact ⟨rfl, rfl⟩
  · cases hk
    obtain ⟨_, ⟨_, _, rfl, -⟩, he⟩ := volumeStage_outcome env args st
    rw [he]
    exact ⟨rfl, rfl⟩
  · exact absurd rfl hne
  · cases hk
    obtain ⟨_, he⟩ := pipeStage_outcome env st
    rw [he]
    exact ⟨rfl, rfl⟩
  · cases hk
    obtain ⟨_, _, _, he⟩ := cloneStage_outcome env st
    rw [he]
    exact ⟨rfl, rfl⟩
  · cases hk
    obtain ⟨_, he⟩ := cgroupApply_outcome env args st
    rw [he]
    exact ⟨rfl, rfl⟩
  · cases hk
    obtain ⟨_, _, ⟨_, _, _, rfl⟩, he⟩ := connectStage_outcome env args st
    rw [he]
    exact ⟨rfl, rfl⟩
  · cases hk
    obtain ⟨_, ⟨_, rfl⟩, he, -⟩ := portStage_outcome env args st
    rw [he]
    exact ⟨rfl, rfl⟩
  · cases hk
    obtain ⟨_, ⟨_, rfl⟩, he⟩ := metadataStage_outcome env args st
    rw [he]
    exact ⟨rfl, rfl⟩
  · cases hk
    obtain ⟨_, he⟩ := releaseStage_outcome env st
    rw [he]
    exact ⟨rfl, rfl⟩
  · cases hk

/-- The stages up to the third start no process and connect nothing. -/
theorem stage_early {k : Nat} {stage : Stage RunState} (hk : (runStages env args)[k]? = some stage)
    (hle : k ≤ 2) (st : RunState) : (outcome (stage st)).childPid = st.childPid ∧
      (outcome (stage st)).ipAddr = st.ipAddr := by
  rcases k with _ | _ | _ | k
  · cases hk
    obtain ⟨_, _, _, he⟩ := initContainerWorkerspace_outcome env args st
    rw [he]
    exact ⟨rfl, rfl⟩
  · cases hk
    obtain ⟨_, -, he⟩ := volumeStage_outcome env args st
    rw [he]
    exact ⟨rfl, rfl⟩
  · cases hk
    obtain ⟨_, _, he⟩ := cgroupPrepare_outcome env args st
    rw [he]
    exact ⟨rfl, rfl⟩
  · exact absurd hle (by omega)

/-- The third stage creates the cgroup, which must not be there. -/
theorem cgroupPrepare_ok (h : cgroupPrepare env args st = .ok st') : args.name ∉ st.host.cgroups ∧
    st'.host.cgroups = args.name :: st.host.cgroups ∧ st'.cgroupCreated = true := by
  unfold cgroupPrepare at h
  split at h
  · cases h
  rename_i hfree
  simp only at h
  split at h
  · cases h
  · cases h
    exact ⟨(not_or.1 hfree).2, rfl, rfl⟩

/-- After a failure it is as before, or this call has created it and could not remove it. -/
theorem cgroupPrepare_error (h : cgroupPrepare env args st = .error st') :
    (st'.host.cgroups = st.host.cgroups ∧ (st'.cgroupCreated = true → st.cgroupCreated = true)) ∨
      (args.name ∉ st.host.cgroups ∧ st'.host.cgroups = args.name :: st.host.cgroups) := by
  unfold cgroupPrepare at h
  split at h
  · cases h
    exact Or.inl ⟨rfl, id⟩
  rename_i hfree
  simp only at h
  split at h
  · cases h
    unfold rmdirCgroup
    simp only [List.mem_cons, true_or, not_true_eq_false, if_false]
    split
    · exact Or.inr ⟨(not_or.1 hfree).2, rfl⟩
    · exact Or.inl ⟨List.erase_cons_head .., nofun⟩
  · cases h

end Stages

/-! ## The cleanup -/

section Cleanup

variable {env : Env} {args : RunArguments} {st : RunState}

/-- The unmounts of the cleanup are not refused, and the record can be removed. -/
def Clears (env : Env) (args : RunArguments) (st : RunState) : Prop :=
  (dropMounts env args st.mountpointSet (dropNetwork env args.name st.ipAddr (killChild st))).2 = true ∧
    env.fails .unlinkInfo = false

/-- The host after the unmounts and the removal of the workspace. -/
theorem cleared_workspace (env : Env) (args : RunArguments) (st : RunState) : ∃ space workspace log,
    (removeWorkspace env args.name
      (dropMounts env args st.mountpointSet (dropNetwork env args.name st.ipAddr (killChild st))).2
      (dropMounts env args st.mountpointSet (dropNetwork env args.name st.ipAddr (killChild st))).1).1 =
      { dropNetwork env args.name st.ipAddr (killChild st) with
        space := space, workspace := workspace, log := log } := by
  generalize dropNetwork env args.name st.ipAddr (killChild st) = g
  obtain ⟨space, extra, hm, -⟩ := dropMounts_only env args st.mountpointSet g
  obtain ⟨workspace, extra', hw⟩ := removeWorkspace_only env args.name
    (dropMounts env args st.mountpointSet g).2 (dropMounts env args st.mountpointSet g).1
  rw [hw, hm]
  exact ⟨space, workspace, _, rfl⟩

theorem dropped_cgroups (env : Env) (args : RunArguments) (st : RunState) :
    (dropNetwork env args.name st.ipAddr (killChild st)).cgroups = st.host.cgroups := by
  obtain ⟨_, hk⟩ := killChild_only st
  obtain ⟨_, _, _, _, hn⟩ := dropNetwork_only env args.name st.ipAddr (killChild st)
  rw [hn, hk]

/-- The cleanup removes no cgroup but its own, and none that this call has not created. -/
theorem cleanup_cgroups {n : Text} (hn : n ≠ args.name ∨ st.cgroupCreated = false) (hmem : n ∈ st.host.cgroups) :
    n ∈ (cleanupRunFailure env args st).cgroups := by
  have hinfo : ∀ h : Host, (removeStatusInfo env args.name h).1.cgroups = h.cgroups := by
    intro h
    obtain ⟨_, he, -⟩ := removeStatusInfo_status env args.name h
    rw [he]
    rfl
  obtain ⟨space, workspace, log, hw⟩ := cleared_workspace env args st
  rw [← dropped_cgroups env args st] at hmem
  have hcleaned : n ∈ (cgroupCleanup env args.name st.cgroupCreated { dropNetwork env args.name st.ipAddr
      (killChild st) with space := space, workspace := workspace, log := log }).cgroups := by
    unfold cgroupCleanup
    split
    · rename_i hcreated
      have hne : n ≠ args.name := hn.resolve_right (by rw [hcreated]; decide)
      exact (rmdirCgroup_marks env .cgroupRmdir hne _).cgroup.2 hmem
    · exact hmem
  unfold cleanupRunFailure
  simp only
  rw [hw]
  split
  · rw [hinfo]
    exact hcleaned
  · exact hcleaned

/-- A cleanup whose unmounts are not refused removes the record, whoever has written it. -/
theorem cleanup_forgets (hclears : Clears env args st) :
    (cleanupRunFailure env args st).info args.name = none := by
  obtain ⟨hmounts, hunlink⟩ := hclears
  unfold cleanupRunFailure
  simp only
  rw [if_pos hmounts]
  unfold removeStatusInfo
  split
  · assumption
  · rw [if_neg (by rw [hunlink]; decide)]
    exact Host.setInfo_self ..

/-- The cleanup of a call that has created no cgroup, started no process and connected nothing. -/
theorem cleanup_bare (hcreated : st.cgroupCreated = false) (hchild : st.childPid = none) (hip : st.ipAddr = []) :
    ∃ space workspace info log, cleanupRunFailure env args st =
      { st.host with space := space, workspace := workspace, info := info, log := log } := by
  have hdrop : dropNetwork env args.name st.ipAddr (killChild st) = st.host := by
    unfold killChild dropNetwork
    rw [hchild, hip]
    rfl
  obtain ⟨space, workspace, log, hw⟩ := cleared_workspace env args st
  rw [hdrop] at hw
  unfold cleanupRunFailure cgroupCleanup
  simp only [hcreated]
  rw [hdrop, hw]
  split
  · obtain ⟨_, he, -⟩ := removeStatusInfo_status env args.name
      { st.host with space := space, workspace := workspace, log := log }
    exact ⟨space, workspace, _, log, he⟩
  · exact ⟨space, workspace, st.host.info, log, rfl⟩

end Cleanup

/-! ## The invariant -/

/-- The call has created the cgroup of its name and has not cleaned up. -/
def RunCall.Holds (c : RunCall) : Prop := c.locals.cgroupCreated = true ∧ c.phase ≠ .returned (-1)

/-- Without a cgroup of its own a call has no child and no address. -/
def RunState.Bare (st : RunState) : Prop := st.cgroupCreated = false → st.childPid = none ∧ st.ipAddr = []

/-- How far a call is says whether it has created the cgroup. -/
def RunCall.Progress (c : RunCall) : Prop :=
  match c.phase with
  | .checking => c.locals.cgroupCreated = false
  | .running done => (done ≤ 2 → c.locals.cgroupCreated = false) ∧
      (2 < done → c.locals.cgroupCreated = true) ∧ c.locals.Bare
  | .failing => c.locals.Bare
  | .returned result => result = 0 → c.locals.cgroupCreated = true

/-- What one step of a call does. -/
structure StepSpec (c : RunCall) (h : Host) (c' : RunCall) (h' : Host) : Prop where
  args : c'.args = c.args
  env : c'.env = c.env
  progress : c'.Progress
  held : c'.Holds → c.args.name ∈ h'.cgroups
  created : c'.Holds → c.Holds ∨ c.args.name ∉ h.cgroups
  kept : ∀ n ∈ h.cgroups, n ∈ h'.cgroups ∨ (n = c.args.name ∧ c.Holds)

section Step

variable {c : RunCall} {h : Host}

/-- A stage other than the third. -/
theorem stage_spec {k : Nat} {stage : Stage RunState} (hphase : c.phase = .running k)
    (hk : (runStages c.env c.args)[k]? = some stage) (hne : k ≠ 2) (hp : c.Progress)
    (hheld : c.Holds → c.args.name ∈ h.cgroups) :
    StepSpec c h (c.step h).2 (c.step h).1 := by
  obtain ⟨hbefore, hafter, hbare⟩ : (k ≤ 2 → c.locals.cgroupCreated = false) ∧
      (2 < k → c.locals.cgroupCreated = true) ∧ c.locals.Bare := by
    unfold RunCall.Progress at hp
    rw [hphase] at hp
    exact hp
  obtain ⟨hcgroups, hcreated⟩ := stage_cgroups hk hne { c.locals with host := h }
  have hearly : (outcome (stage { c.locals with host := h })).Bare := by
    intro hnone
    have hnone : c.locals.cgroupCreated = false := hcreated.symm.trans hnone
    have hle : k ≤ 2 := by
      by_contra hlate
      rw [hafter (by omega)] at hnone
      cases hnone
    obtain ⟨hchild, hip⟩ := stage_early hk hle { c.locals with host := h }
    exact ⟨hchild.trans (hbare hnone).1, hip.trans (hbare hnone).2⟩
  have hholds : c.locals.cgroupCreated = true → c.Holds := fun hc => ⟨hc, by rw [hphase]; nofun⟩
  unfold RunCall.step
  rw [hphase]
  simp only [hk]
  cases hst : stage { c.locals with host := h } with
  | ok st =>
    rw [hst] at hcgroups hcreated hearly
    have hcgroups : st.host.cgroups = h.cgroups := hcgroups
    have hcreated : st.cgroupCreated = c.locals.cgroupCreated := hcreated
    refine ⟨rfl, rfl, ⟨fun hle => ?_, fun hlt => ?_, hearly⟩, fun hh => ?_, fun hh => ?_, fun n hn => ?_⟩
    · exact hcreated.trans (hbefore (by omega))
    · exact hcreated.trans (hafter (by omega))
    · exact hcgroups ▸ hheld (hholds (hcreated.symm.trans hh.1))
    · exact Or.inl (hholds (hcreated.symm.trans hh.1))
    · exact Or.inl (hcgroups ▸ hn)
  | error st =>
    rw [hst] at hcgroups hcreated hearly
    have hcgroups : st.host.cgroups = h.cgroups := hcgroups
    have hcreated : st.cgroupCreated = c.locals.cgroupCreated := hcreated
    refine ⟨rfl, rfl, hearly, fun hh => ?_, fun hh => ?_, fun n hn => ?_⟩
    · exact hcgroups ▸ hheld (hholds (hcreated.symm.trans hh.1))
    · exact Or.inl (hholds (hcreated.symm.trans hh.1))
    · exact Or.inl (hcgroups ▸ hn)

/-- The third stage. -/
theorem cgroupPrepare_spec (hphase : c.phase = .running 2) (hp : c.Progress) :
    StepSpec c h (c.step h).2 (c.step h).1 := by
  obtain ⟨hbefore, -, hbare⟩ : (2 ≤ 2 → c.locals.cgroupCreated = false) ∧
      (2 < 2 → c.locals.cgroupCreated = true) ∧ c.locals.Bare := by
    unfold RunCall.Progress at hp
    rw [hphase] at hp
    exact hp
  have hnone : c.locals.cgroupCreated = false := hbefore (Nat.le_refl 2)
  have hearly : (outcome (cgroupPrepare c.env c.args { c.locals with host := h })).Bare := by
    obtain ⟨hchild, hip⟩ := stage_early
      (show (runStages c.env c.args)[2]? = some (cgroupPrepare c.env c.args) from rfl) (Nat.le_refl 2)
      { c.locals with host := h }
    exact fun _ => ⟨hchild.trans (hbare hnone).1, hip.trans (hbare hnone).2⟩
  unfold RunCall.step
  rw [hphase]
  simp only [runStages, List.getElem?_cons_succ, List.getElem?_cons_zero]
  cases hst : cgroupPrepare c.env c.args { c.locals with host := h } with
  | ok st =>
    rw [hst] at hearly
    obtain ⟨hfree, hcgroups, hcreated⟩ := cgroupPrepare_ok hst
    have hcgroups : st.host.cgroups = c.args.name :: h.cgroups := hcgroups
    refine ⟨rfl, rfl, ⟨fun hle => absurd hle (by decide), fun _ => hcreated, hearly⟩, fun _ => ?_,
      fun _ => Or.inr hfree, fun n hn => Or.inl ?_⟩
    · exact hcgroups ▸ List.mem_cons_self
    · exact hcgroups ▸ List.mem_cons_of_mem _ hn
  | error st =>
    rw [hst] at hearly
    rcases cgroupPrepare_error hst with ⟨hcgroups, hcreated⟩ | ⟨hfree, hcgroups⟩
    · have hcgroups : st.host.cgroups = h.cgroups := hcgroups
      have hno : ∀ {p : Prop}, st.cgroupCreated = true → p := by
        intro p hc
        have hc : c.locals.cgroupCreated = true := hcreated hc
        rw [hnone] at hc
        cases hc
      exact ⟨rfl, rfl, hearly, fun hh => hno hh.1, fun hh => hno hh.1, fun n hn => Or.inl (hcgroups ▸ hn)⟩
    · have hcgroups : st.host.cgroups = c.args.name :: h.cgroups := hcgroups
      exact ⟨rfl, rfl, hearly, fun _ => hcgroups ▸ List.mem_cons_self, fun _ => Or.inr hfree,
        fun n hn => Or.inl (hcgroups ▸ List.mem_cons_of_mem _ hn)⟩

theorem RunCall.step_spec (hp : c.Progress) (hheld : c.Holds → c.args.name ∈ h.cgroups) :
    StepSpec c h (c.step h).2 (c.step h).1 := by
  cases hphase : c.phase with
  | checking =>
    have hnone : c.locals.cgroupCreated = false := by
      unfold RunCall.Progress at hp
      rw [hphase] at hp
      exact hp
    unfold RunCall.step
    rw [hphase]
    simp only
    split
    · exact ⟨rfl, rfl, nofun, fun hh => absurd rfl hh.2, fun hh => absurd rfl hh.2, fun _ hn => Or.inl hn⟩
    · exact ⟨rfl, rfl, ⟨fun _ => rfl, nofun, fun _ => ⟨rfl, rfl⟩⟩, fun hh => (by cases hh.1),
        fun hh => (by cases hh.1), fun _ hn => Or.inl hn⟩
  | running k =>
    by_cases hne : k = 2
    · subst hne
      exact cgroupPrepare_spec hphase hp
    cases hk : (runStages c.env c.args)[k]? with
    | some stage => exact stage_spec hphase hk hne hp hheld
    | none =>
      have hlast : 10 ≤ k := List.getElem?_eq_none_iff.1 hk
      have hcreated : c.locals.cgroupCreated = true := by
        unfold RunCall.Progress at hp
        rw [hphase] at hp
        exact hp.2.1 (by omega)
      have hholds : c.Holds := ⟨hcreated, by rw [hphase]; nofun⟩
      unfold RunCall.step
      rw [hphase]
      simp only [hk]
      exact ⟨rfl, rfl, fun _ => hcreated, fun _ => hheld hholds, fun _ => Or.inl hholds, fun _ hn => Or.inl hn⟩
  | failing =>
    unfold RunCall.step
    rw [hphase]
    refine ⟨rfl, rfl, nofun, fun hh => absurd rfl hh.2, fun hh => absurd rfl hh.2, fun n hn => ?_⟩
    by_cases hcreated : c.locals.cgroupCreated = false
    · exact Or.inl (@cleanup_cgroups c.env c.args { c.locals with host := h } n (Or.inr hcreated) hn)
    · by_cases hne : n = c.args.name
      · exact Or.inr ⟨hne, eq_true_of_ne_false hcreated, by rw [hphase]; nofun⟩
      · exact Or.inl (@cleanup_cgroups c.env c.args { c.locals with host := h } n (Or.inl hne) hn)
  | returned result =>
    unfold RunCall.step
    rw [hphase]
    exact ⟨rfl, rfl, hp, hheld, Or.inl, fun _ hn => Or.inl hn⟩

end Step

/-- Every call that holds a cgroup has it, and for each name there is one at most. -/
structure Race.Ok (r : Race) : Prop where
  progress : ∀ i, (r.calls i).Progress
  held : ∀ i, (r.calls i).Holds → (r.calls i).args.name ∈ r.host.cgroups
  alone : ∀ i j, (r.calls i).Holds → (r.calls j).Holds → (r.calls i).args.name = (r.calls j).args.name → i = j

theorem Race.Ok.step {r : Race} (hr : r.Ok) (i : Nat) : (r.step i).Ok := by
  have hspec := RunCall.step_spec (h := r.host) (hr.progress i) (hr.held i)
  have hself : (r.step i).calls i = ((r.calls i).step r.host).2 := Function.update_self ..
  have hother : ∀ j, j ≠ i → (r.step i).calls j = r.calls j := fun j hj => Function.update_of_ne hj ..
  -- another call keeps its cgroup
  have hkept : ∀ j, j ≠ i → (r.calls j).Holds → (r.calls j).args.name ∈ (r.step i).host.cgroups := by
    intro j hj hh
    rcases hspec.kept _ (hr.held j hh) with hk | ⟨hname, hi⟩
    · exact hk
    · exact absurd (hr.alone j i hh hi hname) hj
  -- a new cgroup was not there
  have hnew : ∀ j, j ≠ i → ((r.step i).calls i).Holds → (r.calls j).Holds →
      (r.calls i).args.name ≠ (r.calls j).args.name := by
    intro j hj hi hh hname
    rw [hself] at hi
    rcases hspec.created hi with hi | hfree
    · exact hj (hr.alone j i hh hi hname.symm)
    · exact hfree (hname ▸ hr.held j hh)
  refine ⟨fun j => ?_, fun j hh => ?_, fun j k hj hk hname => ?_⟩
  · by_cases hji : j = i
    · rw [hji, hself]
      exact hspec.progress
    · rw [hother j hji]
      exact hr.progress j
  · by_cases hji : j = i
    · rw [hji, hself] at hh ⊢
      rw [hspec.args]
      exact hspec.held hh
    · rw [hother j hji] at hh ⊢
      exact hkept j hji hh
  · by_cases hji : j = i
    · by_cases hki : k = i
      · rw [hji, hki]
      · rw [hother k hki] at hk hname
        rw [hji] at hj hname
        rw [hself, hspec.args] at hname
        exact absurd hname (hnew k hki hj hk)
    · rw [hother j hji] at hj hname
      by_cases hki : k = i
      · rw [hki] at hk hname
        rw [hself, hspec.args] at hname
        exact absurd hname.symm (hnew j hji hk hj)
      · rw [hother k hki] at hk hname
        exact hr.alone j k hj hk hname

theorem Race.start_ok (h : Host) (runs : Nat → Env × RunArguments) : (Race.start h runs).Ok :=
  ⟨fun _ => rfl, fun _ hh => (by cases hh.1), fun _ _ hh => (by cases hh.1)⟩

/-! ## The race -/

/-- A container that no command reaches: the record is gone, and the cgroup keeps the name taken. -/
structure Lost (n : Text) (h : Host) : Prop where
  record : h.info n = none
  stop : ∀ env time, stopContainer env time n h = (h, false)
  rm : ∀ env, rmContainer env n h = (h, false)
  run : ∀ env args, args.name = n → dockerRun env args h = (h, -1)

theorem lost_of_cgroup {n : Text} {h : Host} (hinfo : h.info n = none) (hcgroup : n ∈ h.cgroups) : Lost n h := by
  have hexists : containerExists n h = true := by
    unfold containerExists
    rw [List.contains_iff_mem.2 hcgroup, Bool.true_or, Bool.true_or, Bool.or_true]
  refine ⟨hinfo, fun env time => ?_, fun env => ?_, fun env args hname => ?_⟩
  · unfold stopContainer
    rw [hinfo]
  · unfold rmContainer
    rw [if_neg (by rw [hexists]; decide), hinfo]
  · unfold dockerRun
    rw [hname, if_pos hexists]

/-- The processes, the networks and the cgroups are as before. -/
structure KeepsRunning (h h' : Host) : Prop where
  procs : h'.procs = h.procs
  cgroups : h'.cgroups = h.cgroups
  networks : h'.networks = h.networks
  nat : h'.nat = h.nat
  links : h'.links = h.links

/-- **Calls of `docker run` for one name**, any number of them and of other names, one stage at a time in any
order.  One at most succeeds.  But a call that passed the check before the first directory of the winner was
there, and failed, takes the record of the winner away when its unmounts are not refused: the container runs on,
and can be neither stopped nor removed. -/
theorem racing_runs (h : Host) (runs : Nat → Env × RunArguments) (schedule : List Nat) (r : Race)
    (hr : r = Runs.run Race.step (Race.start h runs) schedule) (i j : Nat)
    (hname : (r.calls i).args.name = (r.calls j).args.name) (hi : (r.calls i).phase = .returned 0) :
    ((r.calls j).phase = .returned 0 → i = j) ∧
      ((r.calls j).phase = .failing →
        Clears (r.calls j).env (r.calls j).args { (r.calls j).locals with host := r.host } →
          Lost (r.calls i).args.name (r.step j).host ∧ KeepsRunning r.host (r.step j).host) := by
  have hok : r.Ok := by
    rw [hr]
    exact Runs.run_keeps (I := Race.Ok) (fun _ k hok => Race.Ok.step hok k) (Race.start_ok h runs)
  have hholds : ∀ {k}, (r.calls k).phase = .returned 0 → (r.calls k).Holds := by
    intro k hk
    have hp := hok.progress k
    unfold RunCall.Progress at hp
    rw [hk] at hp
    exact ⟨hp rfl, by rw [hk]; decide⟩
  refine ⟨fun hj => hok.alone i j (hholds hi) (hholds hj) hname, fun hj hclears => ?_⟩
  have hne : i ≠ j := by
    intro he
    rw [he, hj] at hi
    cases hi
  -- the winner has the cgroup, so the other call has created nothing but mounts and a workspace
  have hbare : (r.calls j).locals.cgroupCreated = false := by
    by_contra hcreated
    exact hne (hok.alone i j (hholds hi) ⟨eq_true_of_ne_false hcreated, by rw [hj]; nofun⟩ hname)
  have hrest : (r.calls j).locals.Bare := by
    have hp := hok.progress j
    unfold RunCall.Progress at hp
    rw [hj] at hp
    exact hp
  have hhost : (r.step j).host =
      cleanupRunFailure (r.calls j).env (r.calls j).args { (r.calls j).locals with host := r.host } := by
    unfold Race.step RunCall.step
    rw [hj]
  have hforgets := cleanup_forgets hclears
  obtain ⟨space, workspace, info, log, hcleaned⟩ := @cleanup_bare (r.calls j).env
    (r.calls j).args { (r.calls j).locals with host := r.host } hbare (hrest hbare).1
    (hrest hbare).2
  rw [hhost]
  refine ⟨lost_of_cgroup ?_ ?_, ?_⟩
  · rw [hname]
    exact hforgets
  · rw [hcleaned]
    exact hok.held i (hholds hi)
  · rw [hcleaned]
    exact ⟨rfl, rfl, rfl, rfl, rfl⟩

/-- Two calls of `docker run -d --name web001`. -/
def twoRuns : Nat → Env × RunArguments :=
  fun i => (.quiet [ "img".toList] (20 + i), shellArgs "web001".toList true)

/-- Both check the name; one succeeds; the other meets its cgroup. -/
def sameName : Race :=
  Runs.run Race.step (Race.start Host.bare twoRuns) ([0, 1] ++ (List.replicate 11 0 ++ List.replicate 3 1))

/-- The cleanup of the second has also run over the file system of the first. -/
theorem second_run_hides_first : Lost "web001".toList (sameName.step 1).host ∧
    (sameName.step 1).host.log.any (fun c => match c with
      | .removeDir _ mounts => decide (mounts ≠ [])
      | _ => false) = true := by
  have hname : (sameName.calls 0).args.name = (sameName.calls 1).args.name := by decide +kernel
  have hzero : (sameName.calls 0).phase = .returned 0 := by decide +kernel
  have hone : (sameName.calls 1).phase = .failing := by decide +kernel
  have hclears : Clears (sameName.calls 1).env (sameName.calls 1).args
      { (sameName.calls 1).locals with host := sameName.host } := by
    refine ⟨?_, ?_⟩
    · decide +kernel
    · decide +kernel
  have hweb : (sameName.calls 0).args.name = "web001".toList := by decide +kernel
  obtain ⟨-, hlost⟩ := racing_runs Host.bare twoRuns _ sameName rfl 0 1 hname hzero
  rw [hweb] at hlost
  exact ⟨(hlost hone hclears).1, by decide +kernel⟩

/-! ## A call alone -/

/-- Steps of one call. -/
def RunCall.solo : Nat → Host → RunCall → Host × RunCall
  | 0, h, c => (h, c)
  | n + 1, h, c => RunCall.solo n (c.step h).1 (c.step h).2

theorem solo_returned {c : RunCall} {result : Int} (hc : c.phase = .returned result) (h : Host) :
    ∀ n, c.solo n h = (h, c)
  | 0 => rfl
  | n + 1 => by
    have hstep : c.step h = (h, c) := by
      unfold RunCall.step
      rw [hc]
    unfold RunCall.solo
    rw [hstep]
    exact solo_returned hc h n

/-- The stages that are left, and the return or the cleanup. -/
theorem solo_running {todo : List (Stage RunState)} : ∀ {k n : Nat} {c : RunCall} {h : Host},
    c.phase = .running k → (runStages c.env c.args).drop k = todo → todo.length < n →
    (c.solo n h).1 = (match runAll todo { c.locals with host := h } with
      | .ok st => st.host
      | .error st => cleanupRunFailure c.env c.args st) ∧
    (c.solo n h).2.phase = .returned (match runAll todo { c.locals with host := h } with
      | .ok _ => 0
      | .error _ => -1) := by
  induction todo with
  | nil =>
    intro k n c h hphase htodo hn
    obtain ⟨n, rfl⟩ := Nat.exists_eq_succ_of_ne_zero (Nat.ne_of_gt hn)
    have hk : (runStages c.env c.args)[k]? = none := List.getElem?_eq_none (List.drop_eq_nil_iff.1 htodo)
    have hstep : c.step h = (h, { c with phase := .returned 0 }) := by
      unfold RunCall.step
      rw [hphase]
      simp only [hk]
    rw [Nat.succ_eq_add_one, RunCall.solo, hstep, @solo_returned _ 0 rfl]
    exact ⟨rfl, rfl⟩
  | cons stage rest ih =>
    intro k n c h hphase htodo hn
    obtain ⟨n, rfl⟩ := Nat.exists_eq_succ_of_ne_zero (Nat.ne_of_gt (Nat.lt_of_le_of_lt (Nat.zero_le _) hn))
    have hk : (runStages c.env c.args)[k]? = some stage := by
      rw [← List.head?_drop, htodo, List.head?_cons]
    have hrest : (runStages c.env c.args).drop (k + 1) = rest := by
      rw [← List.tail_drop, htodo, List.tail_cons]
    have hn : rest.length < n := by
      rw [List.length_cons] at hn
      omega
    rw [Nat.succ_eq_add_one, RunCall.solo]
    unfold runAll
    cases hst : stage { c.locals with host := h } with
    | ok st =>
      have hstep : c.step h = (st.host, { c with locals := st, phase := .running (k + 1) }) := by
        unfold RunCall.step
        rw [hphase]
        simp only [hk, hst]
      rw [hstep]
      exact ih (c := { c with locals := st, phase := .running (k + 1) }) rfl hrest hn
    | error st =>
      obtain ⟨n, rfl⟩ := Nat.exists_eq_succ_of_ne_zero (Nat.ne_of_gt (Nat.lt_of_le_of_lt (Nat.zero_le _) hn))
      have hstep : c.step h = (st.host, { c with locals := st, phase := .failing }) := by
        unfold RunCall.step
        rw [hphase]
        simp only [hk, hst]
      rw [hstep, Nat.succ_eq_add_one, RunCall.solo]
      unfold RunCall.step
      simp only
      rw [@solo_returned _ (-1) rfl]
      exact ⟨rfl, rfl⟩

theorem run_replicate (i : Nat) : ∀ (n : Nat) (r : Race),
    (Runs.run Race.step r (List.replicate n i)).host = ((r.calls i).solo n r.host).1 ∧
      (Runs.run Race.step r (List.replicate n i)).calls i = ((r.calls i).solo n r.host).2
  | 0, r => ⟨rfl, rfl⟩
  | n + 1, r => by
    have hself : (r.step i).calls i = ((r.calls i).step r.host).2 := Function.update_self ..
    have hrest := run_replicate i n (r.step i)
    rw [hself] at hrest
    exact hrest

/-- **A call that nothing interrupts is `dockerRun`.** -/
theorem alone_is_dockerRun (r : Race) (i : Nat) (hphase : (r.calls i).phase = .checking) :
    (Runs.run Race.step r (List.replicate 12 i)).host =
        (dockerRun (r.calls i).env (r.calls i).args r.host).1 ∧
      ((Runs.run Race.step r (List.replicate 12 i)).calls i).phase =
        .returned (dockerRun (r.calls i).env (r.calls i).args r.host).2 := by
  obtain ⟨hhost, hcall⟩ := run_replicate i 12 r
  rw [hhost, hcall, RunCall.solo]
  unfold dockerRun
  by_cases hrefused : containerExists (r.calls i).args.name r.host ∨ (r.calls i).env.fails .mountpointAlloc = true
  · have hstep : (r.calls i).step r.host = (r.host, { r.calls i with phase := .returned (-1) }) := by
      unfold RunCall.step
      rw [hphase]
      simp only [if_pos hrefused]
    rw [hstep, @solo_returned _ (-1) rfl]
    split
    · exact ⟨rfl, rfl⟩
    · rename_i hnew
      rw [if_pos (hrefused.resolve_left hnew)]
      exact ⟨rfl, rfl⟩
  · have hstep : (r.calls i).step r.host =
        (r.host, { r.calls i with locals := RunState.start r.host, phase := .running 0 }) := by
      unfold RunCall.step
      rw [hphase]
      simp only [if_neg hrefused]
    rw [not_or] at hrefused
    rw [hstep, if_neg hrefused.1, if_neg hrefused.2]
    obtain ⟨hend, hreturned⟩ := solo_running (k := 0) (n := 11) (h := r.host)
      (c := { r.calls i with locals := RunState.start r.host, phase := .running 0 }) rfl List.drop_zero (Nat.lt_succ_self 10)
    rw [hend, hreturned]
    have hstart : ({ RunState.start r.host with host := r.host } : RunState) = RunState.start r.host := rfl
    simp only [hstart]
    cases runAll (runStages (r.calls i).env (r.calls i).args) (RunState.start r.host) with
    | ok st => exact ⟨rfl, rfl⟩
    | error st => exact ⟨rfl, rfl⟩

end TinyDocker
