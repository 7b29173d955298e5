import TinyDocker.Docker.Identity

/-!
# How the process table evolves

`Later` relates two states of the host: the processes of the later one that were born before the earlier
one's clock are processes of the earlier one, in the same cgroup, perhaps dead by now.  Every command
leads to a later state, so that a process found twice under one pid and start time is the same process
all the time in between.

Principal results: `Later.step` — every command, and with it every run, leads to a later state;
`stop_empties`, `rm_empties` — a `docker stop` or `docker rm` that reports success leaves no live process in
the cgroup of the container.
-/

set_option autoImplicit false

namespace TinyDocker

open CText Staged

/-- The process itself, or the process after its end. -/
def Proc.Same (p p' : Proc) : Prop := p' = p ∨ p' = { p with zombie := true }

theorem Proc.Same.refl (p : Proc) : p.Same p := Or.inl rfl

theorem Proc.Same.trans {p q r : Proc} (h : p.Same q) (h' : q.Same r) : p.Same r := by
  rcases h with rfl | rfl
  · exact h'
  · rcases h' with rfl | rfl
    · exact Or.inr rfl
    · exact Or.inr rfl

theorem Proc.Same.pid {p p' : Proc} (h : p.Same p') : p'.pid = p.pid := by
  rcases h with rfl | rfl
  · rfl
  · rfl

theorem Proc.Same.start {p p' : Proc} (h : p.Same p') : p'.start = p.start := by
  rcases h with rfl | rfl
  · rfl
  · rfl

theorem Proc.Same.cgroup {p p' : Proc} (h : p.Same p') : p'.cgroup = p.cgroup := by
  rcases h with rfl | rfl
  · rfl
  · rfl

structure Later (h h' : Host) : Prop where
  clock : h.clock ≤ h'.clock
  old : ∀ p' ∈ h'.procs, p'.start < h.clock → ∃ p ∈ h.procs, p.Same p'

theorem Later.refl (h : Host) : Later h h :=
  ⟨Nat.le_refl _, fun p hp _ => ⟨p, hp, Proc.Same.refl p⟩⟩

/-- A process table entry under that pid and start time. -/
def Entry (pid start : Nat) (p : Proc) : Prop := p.pid = pid ∧ p.start = start

theorem Later.entry {h h' : Host} (hl : Later h h') {pid start : Nat} (hborn : start < h.clock) {p' : Proc}
    (hp' : p' ∈ h'.procs) (he : Entry pid start p') : ∃ p ∈ h.procs, p.Same p' ∧ Entry pid start p := by
  obtain ⟨p, hp, hsame⟩ := hl.old p' hp' (he.2 ▸ hborn)
  exact ⟨p, hp, hsame, hsame.pid ▸ he.1, hsame.start ▸ he.2⟩

/-- Only processes and clock count. -/
theorem Later.congr {a b c : Host} (h : Later a b) (hprocs : c.procs = b.procs) (hclock : c.clock = b.clock) :
    Later a c :=
  ⟨hclock ▸ h.clock, hprocs ▸ h.old⟩

theorem Later.mounts {a b c : Host} (h : Later a b) (ho : OnlyMounts b c) : Later a c := by
  obtain ⟨_, _, rfl, -⟩ := ho
  exact h.congr rfl rfl

theorem Later.net {a b c : Host} (h : Later a b) (ho : OnlyNet b c) : Later a c := by
  obtain ⟨_, _, _, _, rfl⟩ := ho
  exact h.congr rfl rfl

theorem Later.info {a b c : Host} (h : Later a b) (ho : OnlyInfo b c) : Later a c := by
  obtain ⟨_, rfl⟩ := ho
  exact h.congr rfl rfl

theorem Later.status {a b c : Host} {name : Text} (h : Later a b) (ho : OnlyStatus name b c) : Later a c := by
  obtain ⟨_, rfl, -⟩ := ho
  exact h.congr rfl rfl

/-- Processes disappear. -/
theorem Later.filter {a b : Host} (h : Later a b) (f : Proc → Bool) :
    Later a { b with procs := b.procs.filter f } :=
  ⟨h.clock, fun p hp hold => h.old p (List.mem_filter.1 hp).1 hold⟩

/-- Processes end. -/
theorem Later.zombies {a b : Host} (h : Later a b) (f : Proc → Bool) :
    Later a { b with procs := b.procs.map fun p => if f p then { p with zombie := true } else p } := by
  refine ⟨h.clock, fun p' hp' hold => ?_⟩
  obtain ⟨p, hp, rfl⟩ := List.mem_map.1 hp'
  have hsame : p.Same (if f p then { p with zombie := true } else p) := by
    split
    · exact Or.inr rfl
    · exact Or.inl rfl
  obtain ⟨q, hq, hqp⟩ := h.old p hp (hsame.start ▸ hold)
  exact ⟨q, hq, hqp.trans hsame⟩

/-- A process appears. -/
theorem Later.push {a b : Host} (h : Later a b) (pid : Nat) (cgroup : Option Text) :
    Later a { b with procs := b.procs ++ [⟨pid, b.clock, cgroup, false⟩], clock := b.clock + 1 } := by
  refine ⟨Nat.le_succ_of_le h.clock, fun p hp hold => ?_⟩
  rcases List.mem_append.1 hp with hp | hp
  · exact h.old p hp hold
  · rw [List.mem_singleton.1 hp] at hold
    exact absurd (Nat.lt_of_lt_of_le hold h.clock) (Nat.lt_irrefl _)

theorem Later.addProcess {a b : Host} (h : Later a b) (pid : Nat) (cgroup : Option Text) :
    Later a (addProcess pid cgroup b) := by
  unfold TinyDocker.addProcess
  split
  · exact h
  · exact h.push pid cgroup

/-- A process that is new moves to a cgroup. -/
theorem Later.joinCgroup {a b : Host} (h : Later a b) {pid : Nat} (name : Text)
    (hnew : ∀ p ∈ b.procs, p.pid = pid → a.clock ≤ p.start) : Later a (joinCgroup pid name b) := by
  refine ⟨h.clock, fun p' hp' hold => ?_⟩
  obtain ⟨p, hp, rfl⟩ := List.mem_map.1 hp'
  by_cases hpid : p.pid = pid
  · rw [if_pos hpid] at hold
    exact absurd (Nat.lt_of_lt_of_le hold (hnew p hp hpid)) (Nat.lt_irrefl _)
  · rw [if_neg hpid] at hold ⊢
    exact h.old p hp hold

theorem Later.endProcess {a b : Host} (h : Later a b) (pid : Nat) : Later a (endProcess pid b) := by
  have hends := h.zombies fun p => decide (p.pid = pid)
  simpa only [TinyDocker.endProcess, decide_eq_true_eq] using hends

/-- What moving a process does to the table. -/
theorem mem_joinCgroup {pid : Nat} {name : Text} {h : Host} {p' : Proc}
    (hp' : p' ∈ (joinCgroup pid name h).procs) : ∃ p ∈ h.procs, p'.pid = p.pid ∧ p'.start = p.start ∧
      p'.zombie = p.zombie ∧ (p.pid = pid ∧ p'.cgroup = some name ∨ p.pid ≠ pid ∧ p' = p) := by
  obtain ⟨p, hp, rfl⟩ := List.mem_map.1 hp'
  refine ⟨p, hp, ?_⟩
  split
  · rename_i hpid
    exact ⟨rfl, rfl, rfl, Or.inl ⟨hpid, rfl⟩⟩
  · rename_i hpid
    exact ⟨rfl, rfl, rfl, Or.inr ⟨hpid, rfl⟩⟩

/-- A pid belongs to one process. -/
theorem Identity.unique {h : Host} (hI : Identity h) {p q : Proc} (hp : p ∈ h.procs) (hq : q ∈ h.procs)
    (hpid : p.pid = q.pid) : p = q :=
  List.inj_on_of_nodup_map hI.pids hp hq hpid

/-- A process outside every cgroup may move to one: no record names it. -/
theorem Identity.joinOutside {h : Host} (hI : Identity h) {pid : Nat} {name : Text} (hmem : name ∈ h.cgroups)
    (hout : ∀ p ∈ h.procs, p.pid = pid → p.cgroup = none) : Identity (TinyDocker.joinCgroup pid name h) := by
  refine ⟨?_, fun p' hp' => ?_, fun p' hp' hz n hn => ?_, hI.recorded, fun n i hi p' hp' h1 h2 hz => ?_,
    hI.teardowns⟩
  · have hsame : (TinyDocker.joinCgroup pid name h).procs.map (·.pid) = h.procs.map (·.pid) := by
      unfold TinyDocker.joinCgroup
      rw [List.map_map]
      refine List.map_congr_left fun p _ => ?_
      simp only [Function.comp]
      split <;> rfl
    rw [hsame]
    exact hI.pids
  all_goals obtain ⟨p, hp, hpid, hstart, hzombie, hcase⟩ := mem_joinCgroup hp'
  · rw [hstart]
    exact hI.starts p hp
  · rcases hcase with ⟨-, hcg⟩ | ⟨-, rfl⟩
    · rw [hcg] at hn
      cases hn
      exact hmem
    · exact hI.homes p' hp hz n hn
  · have hlive := hI.live n i hi p hp (hpid ▸ h1) (hstart ▸ h2) (hzombie ▸ hz)
    rcases hcase with ⟨hmoved, -⟩ | ⟨-, rfl⟩
    · rw [hout p hp hmoved] at hlive
      cases hlive.2
    · exact hlive

/-! ## `docker stop` and `docker rm` -/

theorem Later.poll {a : Host} (env : Env) (name : Text) : ∀ (n k : Nat) (count : Int) {b : Host},
    Later a b → Later a (pollUntilEmpty env name n k count b).1
  | 0, _, _, _, h => h
  | n + 1, k, count, b, h => by
    unfold pollUntilEmpty
    split
    · exact Later.poll env name n (k + 1) _ (h.zombies fun p => env.dies k p.pid)
    · exact h

theorem Later.stopContainer {a b : Host} (h : Later a b) (env : Env) (time : Nat) (name : Text) :
    Later a (stopContainer env time name b).1 := by
  unfold TinyDocker.stopContainer
  split
  · exact h
  rename_i i hi
  have href := h.status (refresh_status env hi)
  split
  · rename_i h₁ he
    rw [he] at href
    exact href
  rename_i h₁ j he
  rw [he] at href
  split
  · exact href
  split
  · exact href
  simp only
  have helapse : Later a (elapse env 0 h₁) := href.zombies fun p => env.dies 0 p.pid
  have hp := Later.poll env name (time * 10) 1
    (containerProcessCount env (.countProcs 0) name (elapse env 0 h₁)) helapse
  generalize pollUntilEmpty env name (time * 10) 1
    (containerProcessCount env (.countProcs 0) name (elapse env 0 h₁)) (elapse env 0 h₁) = p at hp ⊢
  split
  · exact hp
  have hq : Later a (if 0 < p.2 then pollUntilEmpty env name 20 (time * 10 + 1) p.2 p.1 else p).1 := by
    split
    · exact Later.poll env name 20 _ _ hp
    · exact hp
  generalize (if 0 < p.2 then pollUntilEmpty env name 20 (time * 10 + 1) p.2 p.1 else p) = q at hq ⊢
  split
  · exact hq
  · exact hq.status (updateContainerStatus_status env name (by decide) q.1)

theorem Later.dockerStop {a : Host} (time : Nat) : ∀ (targets : List (Text × Env)) {b : Host},
    Later a b → Later a (dockerStop time targets b).1
  | [], _, h => h
  | (name, env) :: rest, _, h => Later.dockerStop time rest (h.stopContainer env time name)

theorem Later.cleanContainerRuntime {a b : Host} (h : Later a b) (env : Env) (name : Text)
    (info : ContainerInfo) : Later a (cleanContainerRuntime env name info b).1 := by
  rcases cleanContainerRuntime_cases env name info b with he | ⟨m, n, d, c, rfl, rfl, rfl, rfl, hlast⟩
  · rw [he]; exact h
  have hn := (h.mounts (umountAll_only env name (info.volumes.map parseVolumeConfig) b)).net
    (cleanNetwork_only env name info.ipAddr _)
  obtain ⟨_, _, hd⟩ := removeWorkspace_only env name
    (umountAll env name (info.volumes.map parseVolumeConfig) b).2
    (cleanNetwork env name info.ipAddr (umountAll env name (info.volumes.map parseVolumeConfig) b).1).1
  obtain ⟨_, hc⟩ := rmdirCgroup_only env .cgroupRmdir name (removeWorkspace env name
    (umountAll env name (info.volumes.map parseVolumeConfig) b).2
    (cleanNetwork env name info.ipAddr (umountAll env name (info.volumes.map parseVolumeConfig) b).1).1).1
  have hrest := hn.congr (c := (rmdirCgroup env .cgroupRmdir name (removeWorkspace env name
    (umountAll env name (info.volumes.map parseVolumeConfig) b).2
    (cleanNetwork env name info.ipAddr (umountAll env name (info.volumes.map parseVolumeConfig) b).1).1).1).1)
    (by rw [hc, hd]) (by rw [hc, hd])
  rcases hlast with he | ⟨-, -, -, -, he⟩
  · rw [he]; exact hrest
  · rw [he]
    obtain ⟨_, hi, -⟩ := removeStatusInfo_status env name (rmdirCgroup env .cgroupRmdir name
      (removeWorkspace env name (umountAll env name (info.volumes.map parseVolumeConfig) b).2
      (cleanNetwork env name info.ipAddr (umountAll env name (info.volumes.map parseVolumeConfig) b).1).1).1).1
    rw [hi]
    exact hrest.congr rfl rfl

theorem Later.rmContainer {a b : Host} (h : Later a b) (env : Env) (name : Text) :
    Later a (rmContainer env name b).1 := by
  rcases rmContainer_cases env name b with he | ⟨i, h', o, hi, href, hcase⟩
  · rw [he]; exact h
  have hr := h.status (refresh_status env hi)
  rw [href] at hr
  rcases hcase with he | ⟨j, -, -, he⟩
  · rw [he]; exact hr
  · rw [he]
    have hlog : Later a (h'.record (.teardown name (initAlive j h'))) := hr.congr rfl rfl
    exact hlog.cleanContainerRuntime env name j

theorem Later.dockerRm {a : Host} : ∀ (targets : List (Text × Env)) {b : Host},
    Later a b → Later a (dockerRm targets b).1
  | [], _, h => h
  | (name, env) :: rest, _, h => Later.dockerRm rest (h.rmContainer env name)

/-! ## `docker run` -/

/-- From `clone` on: whoever has the pid of the child is new. -/
def ChildNew (env : Env) (h : Host) (st : RunState) : Prop :=
  Later h st.host ∧ ∀ p ∈ st.host.procs, p.pid = env.pid → h.clock ≤ p.start

theorem cloneStage_later (env : Env) (h : Host) :
    Triple (fun st => Later h st.host) (cloneStage env) (ChildNew env h) (fun st => Later h st.host) := by
  intro st hl
  refine ⟨fun st' h' => ?_, fun e he => ?_⟩
  · unfold cloneStage at h'
    split at h'
    · cases h'
    rename_i hok
    simp only [not_or, Bool.not_eq_true] at hok
    cases h'
    refine ⟨hl.push env.pid none, fun p hp hpid => ?_⟩
    rcases List.mem_append.1 hp with hp | hp
    · exact absurd hpid (pid_free hok.2.2 p hp)
    · rw [List.mem_singleton.1 hp]
      exact hl.clock
  · unfold cloneStage at he
    split at he
    · cases he
      exact hl
    · cases he

theorem cgroupApply_later (env : Env) (args : RunArguments) (h : Host) :
    Triple (ChildNew env h) (cgroupApply env args) (fun st => Later h st.host) (fun st => Later h st.host) := by
  intro st ⟨hl, hnew⟩
  refine ⟨fun st' h' => ?_, fun e he => ?_⟩
  · unfold cgroupApply at h'
    split at h'
    · cases h'
    · cases h'
      exact hl.joinCgroup args.name hnew
  · unfold cgroupApply at he
    split at he
    · cases he
      exact hl
    · cases he

theorem runStages_later (env : Env) (args : RunArguments) (h : Host) :
    TripleAll (fun st => Later h st.host) (runStages env args) (fun st => Later h st.host)
      (fun st => Later h st.host) := by
  refine .cons (Q := fun st => Later h st.host) (.keep (fun st hl => ?_) fun _ hl => hl) <|
    .cons (Q := fun st => Later h st.host) (.keep (fun st hl => ?_) fun _ hl => hl) <|
    .cons (Q := fun st => Later h st.host) (.keep (fun st hl => ?_) fun _ hl => hl) <|
    .cons (Q := fun st => Later h st.host) (.keep (fun st hl => ?_) fun _ hl => hl) <|
    .cons (cloneStage_later env h) <|
    .cons (cgroupApply_later env args h) <|
    .cons (Q := fun st => Later h st.host) (.keep (fun st hl => ?_) fun _ hl => hl) <|
    .cons (Q := fun st => Later h st.host) (.keep (fun st hl => ?_) fun _ hl => hl) <|
    .cons (Q := fun st => Later h st.host) (.keep (fun st hl => ?_) fun _ hl => hl) <|
    .cons (Q := fun st => Later h st.host) (.keep (fun st hl => ?_) fun _ hl => hl) .nil
  · obtain ⟨_, _, _, he⟩ := initContainerWorkerspace_outcome env args st
    rw [he]
    exact hl.congr rfl rfl
  · obtain ⟨g, ho, he⟩ := volumeStage_outcome env args st
    rw [he]
    exact hl.mounts ho
  · obtain ⟨_, _, he⟩ := cgroupPrepare_outcome env args st
    rw [he]
    exact hl.congr rfl rfl
  · obtain ⟨_, he⟩ := pipeStage_outcome env st
    rw [he]
    exact hl
  · obtain ⟨g, ip, ho, he⟩ := connectStage_outcome env args st
    rw [he]
    exact hl.net ho.net
  · obtain ⟨g, ho, he, -⟩ := portStage_outcome env args st
    rw [he]
    exact hl.net ho.net
  · obtain ⟨g, ho, he⟩ := metadataStage_outcome env args st
    rw [he]
    exact hl.info ho
  · obtain ⟨_, he⟩ := releaseStage_outcome env st
    rw [he]
    exact hl

theorem Later.cleanupRunFailure {a : Host} {st : RunState} (h : Later a st.host) (env : Env)
    (args : RunArguments) : Later a (cleanupRunFailure env args st) := by
  have hkill : Later a (killChild st) := by
    unfold killChild
    split
    · exact h
    · exact h.filter _
  have hmounts := (hkill.net (dropNetwork_only env args.name st.ipAddr _)).mounts
    (dropMounts_only env args st.mountpointSet _)
  obtain ⟨_, _, _, _, he⟩ := cleanupRunFailure_rest env args st rfl
  rw [he]
  exact hmounts.congr rfl rfl

theorem Later.dockerRun {a b : Host} (h : Later a b) (env : Env) (args : RunArguments) :
    Later a (dockerRun env args b).1 := by
  have hrun := runStages_later env args a (RunState.start b) h
  exact dockerRun_rule h (fun st _ hst => hrun.1 st hst) fun st _ hst =>
    Later.cleanupRunFailure (hrun.2 st hst) env args

/-! ## Commands and runs -/

/-- **Every command leads to a later state.** -/
theorem Later.step {a : Host} {w : World} (h : Later a w.host) (c : Command) : Later a (w.step c).host := by
  cases c with
  | run env args => exact h.dockerRun env args
  | reap env k =>
    simp only [World.step]
    split
    · exact h
    · split
      · exact (h.filter _).status (updateContainerStatus_status env _ (by decide) _)
      · exact h
  | stop time targets => exact Later.dockerStop time targets h
  | rm targets => exact Later.dockerRm targets h
  | refresh name env =>
    simp only [World.step]
    split
    · exact h
    · rename_i i hi
      exact h.status (refresh_status env hi)
  | exit pid => exact h.endProcess pid
  | collect pid =>
    simp only [World.step]
    split
    · exact h
    · exact h.filter _
  | fork parent pid =>
    simp only [World.step]
    split
    · exact h
    · exact h.addProcess pid _
  | spawn pid => exact h.addProcess pid none
  | edit obj => exact h.congr rfl rfl

/-! ## What success leaves behind -/

/-- Nobody in that cgroup is alive. -/
def Emptied (name : Text) (h : Host) : Prop := ∀ p ∈ h.procs, p.cgroup = some name → p.zombie = true

theorem Emptied.congr {name : Text} {h h' : Host} (he : Emptied name h) (hprocs : h'.procs = h.procs) :
    Emptied name h' := by
  unfold Emptied
  rw [hprocs]
  exact he

theorem Identity.emptied {h : Host} (hI : Identity h) {env : Env} {site : Site} {name : Text}
    (hc : containerProcessCount env site name h = 0) : Emptied name h := by
  intro p hp hcg
  by_contra hz
  exact hI.empty_of_count hc p hp (Bool.eq_false_iff.2 hz) hcg

/-- **A successful `docker stop`** of a container that is running. -/
theorem stop_empties {h : Host} (hI : Identity h) {env : Env} {time : Nat} {name : Text} {i j : ContainerInfo}
    {h₁ : Host} (hi : h.info name = some i)
    (href : refreshContainerStatusIfNeeded env name i h = (h₁, some j)) (hrunning : j.status = .running)
    (hok : (stopContainer env time name h).2 = true) : Emptied name (stopContainer env time name h).1 := by
  have hI₁ := (hI.refresh env hi).1
  rw [href] at hI₁
  unfold stopContainer at hok ⊢
  rw [hi] at hok ⊢
  simp only [href, hrunning, ne_eq, not_true_eq_false, ↓reduceIte] at hok ⊢
  split at hok
  · cases hok
  rename_i hsignal
  rw [if_neg hsignal]
  have hI₂ := hI₁.elapse env 0
  have hI₃ := hI₂.poll env name (time * 10) 1
    (containerProcessCount env (.countProcs 0) name (elapse env 0 h₁))
  have hc₃ := poll_count env name (time * 10) 1
    (containerProcessCount env (.countProcs 0) name (elapse env 0 h₁)) _ ⟨_, rfl⟩
  generalize pollUntilEmpty env name (time * 10) 1
    (containerProcessCount env (.countProcs 0) name (elapse env 0 h₁)) (elapse env 0 h₁) = p at hI₃ hc₃ hok ⊢
  split at hok
  · cases hok
  rename_i hkill
  rw [if_neg hkill]
  have hI₄ : Identity (if 0 < p.2 then pollUntilEmpty env name 20 (time * 10 + 1) p.2 p.1 else p).1 := by
    split
    · exact hI₃.poll env name 20 _ _
    · exact hI₃
  have hc₄ : ∃ site, (if 0 < p.2 then pollUntilEmpty env name 20 (time * 10 + 1) p.2 p.1 else p).2 =
      containerProcessCount env site name
        (if 0 < p.2 then pollUntilEmpty env name 20 (time * 10 + 1) p.2 p.1 else p).1 := by
    split
    · exact poll_count env name 20 _ _ _ hc₃
    · exact hc₃
  generalize (if 0 < p.2 then pollUntilEmpty env name 20 (time * 10 + 1) p.2 p.1 else p) = q at hI₄ hc₄ hok ⊢
  split at hok
  · cases hok
  rename_i hzero
  rw [if_neg hzero]
  obtain ⟨site, hsite⟩ := hc₄
  have hempty := hI₄.emptied (hsite.symm.trans (not_not.1 hzero))
  obtain ⟨_, he, -⟩ := @updateContainerStatus_status env name .stopped (by decide) q.1
  rw [he]
  exact hempty.congr rfl

/-- A cgroup that is gone has nobody in it. -/
theorem Homes.emptied {h : Host} (hh : Homes h) {name : Text} (hgone : name ∉ h.cgroups) : Emptied name h := by
  intro p hp hcg
  by_contra hz
  exact hgone (hh p hp (Bool.eq_false_iff.2 hz) name hcg)

theorem rmdirCgroup_empties {h : Host} (hh : Homes h) {env : Env} {site : Site} {name : Text}
    (hok : (rmdirCgroup env site name h).2 = true) : Emptied name (rmdirCgroup env site name h).1 := by
  unfold rmdirCgroup at hok ⊢
  split at hok
  · rename_i hgone
    rw [if_pos hgone]
    exact hh.emptied hgone
  · rename_i hthere
    rw [if_neg hthere]
    split at hok
    · cases hok
    · rename_i hempty
      rw [if_neg hempty]
      simp only [not_or, not_not] at hempty
      intro p hp hcg
      by_contra hz
      have hmem : p ∈ cgroupProcs name h :=
        List.mem_filter.2 ⟨hp, by simp [hcg, Bool.eq_false_iff.2 hz]⟩
      rw [hempty.2] at hmem
      cases hmem

theorem cleanContainerRuntime_empties {h : Host} (hI : Identity h) {env : Env} {name : Text}
    {info : ContainerInfo} (hok : (cleanContainerRuntime env name info h).2 = true) :
    Emptied name (cleanContainerRuntime env name info h).1 := by
  rcases cleanContainerRuntime_cases env name info h with he | ⟨m, n, d, c, rfl, rfl, rfl, rfl, hlast⟩
  · rw [he] at hok
    cases hok
  have hm := hI.mounts (umountAll_only env name (info.volumes.map parseVolumeConfig) h)
  have hn := hm.net (cleanNetwork_only env name info.ipAddr _)
  have hd := hn.removeWorkspace env name (umountAll env name (info.volumes.map parseVolumeConfig) h).2
  rcases hlast with he | ⟨-, -, -, hc, he⟩
  · rw [he] at hok
    cases hok
  · rw [he]
    obtain ⟨_, hi, -⟩ := removeStatusInfo_status env name (rmdirCgroup env .cgroupRmdir name
      (removeWorkspace env name (umountAll env name (info.volumes.map parseVolumeConfig) h).2
      (cleanNetwork env name info.ipAddr (umountAll env name (info.volumes.map parseVolumeConfig) h).1).1).1).1
    rw [hi]
    exact (rmdirCgroup_empties hd.homes hc).congr rfl

/-- **A successful `docker rm`.** -/
theorem rm_empties {h : Host} (hI : Identity h) {env : Env} {name : Text}
    (hok : (rmContainer env name h).2 = true) : Emptied name (rmContainer env name h).1 := by
  unfold rmContainer at hok ⊢
  split at hok
  · rename_i hexists
    rw [if_pos hexists]
    refine hI.homes.emptied fun hmem => ?_
    simp [containerExists, hmem] at hexists
  rename_i hexists
  rw [if_neg hexists]
  split at hok
  · cases hok
  rename_i i hi
  split at hok
  · cases hok
  rename_i h' j href
  obtain ⟨hI', hdead⟩ := hI.refresh env hi
  rw [href] at hI' hdead
  split at hok
  · cases hok
  rename_i hstatus
  simp only [if_neg hstatus]
  refine cleanContainerRuntime_empties ?_ hok
  refine ⟨hI'.pids, hI'.starts, hI'.homes, hI'.recorded, hI'.live, fun n alive hm => ?_⟩
  rcases List.mem_append.1 hm with hm | hm
  · exact hI'.teardowns n alive hm
  · cases List.mem_singleton.1 hm
    exact hdead j rfl hstatus

end TinyDocker
