import TinyDocker.Core.ProcStat
import TinyDocker.Docker.System

/-!
# Which process a record names

A metadata record names its init process by pid and start time.  `Identity` is the invariant that
links records and processes: a live process that a record names makes the record `RUNNING` and is in
the cgroup of that container.  Every command keeps it, with one exception: the status a foreground
`docker run` writes when its child has ended goes to whatever record then has the name.

Principal result: `container_identity` — in every run in which each such late write finds the record
of the reaped child, or none, a `STOPPED` or `EXITED` record never names a live process, and
`docker rm` tears no container down whose init process is alive.
-/

set_option autoImplicit false

namespace TinyDocker

open CText MountSpace Staged

structure Identity (h : Host) : Prop where
  pids : (h.procs.map (·.pid)).Nodup
  starts : ∀ p ∈ h.procs, p.start < h.clock
  homes : Homes h
  recorded : ∀ name i, h.info name = some i → i.pidStartTime < h.clock
  live : ∀ name i, h.info name = some i → ∀ p ∈ h.procs, p.pid = i.pid →
    p.start = i.pidStartTime → p.zombie = false → i.status = .running ∧ p.cgroup = some name
  teardowns : ∀ name alive, Call.teardown name alive ∈ h.log → alive = false

theorem initAlive_eq_false {i : ContainerInfo} {h : Host} :
    initAlive i h = false ↔
      ∀ p ∈ h.procs, p.pid = i.pid → p.start = i.pidStartTime → p.zombie = true := by
  simp only [initAlive, List.any_eq_false, Bool.and_eq_true, decide_eq_true_eq, Bool.not_eq_true',
    not_and, Bool.not_eq_false]
  exact ⟨fun h p hp h1 h2 => h p hp ⟨h1, h2⟩, fun h p hp hc => h p hp hc.1 hc.2⟩

theorem Identity.not_alive {h : Host} (hI : Identity h) {name : Text} {i : ContainerInfo}
    (hi : h.info name = some i) (hs : i.status ≠ .running) : initAlive i h = false := by
  rw [initAlive_eq_false]
  intro p hp h1 h2
  by_contra hz
  exact hs (hI.live name i hi p hp h1 h2 (Bool.eq_false_iff.2 hz)).1

/-- The log has gained no teardown. -/
def NoTeardown (h h' : Host) : Prop :=
  ∀ name alive, Call.teardown name alive ∈ h'.log → Call.teardown name alive ∈ h.log

theorem OnlyMounts.noTeardown {h h' : Host} (ho : OnlyMounts h h') : NoTeardown h h' := by
  obtain ⟨_, extra, rfl, hextra⟩ := ho
  intro name alive hm
  rcases List.mem_append.1 hm with hm | hm
  · exact hm
  · obtain ⟨_, _, he⟩ := hextra _ hm
    cases he

theorem removeDir_noTeardown (env : Env) (name : Text) (h : Host) :
    NoTeardown h (removeDir env name h).1 := by
  obtain ⟨_, he⟩ := removeDir_eq env name h
  intro n alive hm
  rw [he] at hm
  rcases List.mem_append.1 hm with hm | hm
  · exact hm
  · cases List.mem_singleton.1 hm

/-! ## Commands that touch neither processes nor records -/

/-- The invariant depends on processes, clock, records, cgroups and teardowns only. -/
theorem Identity.congr {h h' : Host} (hI : Identity h) (hprocs : h'.procs = h.procs)
    (hclock : h'.clock = h.clock) (hinfo : h'.info = h.info) (hcg : h'.cgroups = h.cgroups)
    (hlog : NoTeardown h h') : Identity h' := by
  refine ⟨?_, ?_, ?_, ?_, ?_, fun n a hm => hI.teardowns n a (hlog n a hm)⟩
  · rw [hprocs]; exact hI.pids
  · rw [hprocs, hclock]; exact hI.starts
  · unfold Homes; rw [hprocs, hcg]; exact hI.homes
  · rw [hinfo, hclock]; exact hI.recorded
  · rw [hinfo, hprocs]; exact hI.live

theorem Identity.mounts {h h' : Host} (hI : Identity h) (ho : OnlyMounts h h') : Identity h' := by
  have hlog := ho.noTeardown
  obtain ⟨_, _, rfl, -⟩ := ho
  exact hI.congr rfl rfl rfl rfl hlog

theorem Identity.net {h h' : Host} (hI : Identity h) (ho : OnlyNet h h') : Identity h' := by
  obtain ⟨_, _, _, _, rfl⟩ := ho
  exact hI.congr rfl rfl rfl rfl fun _ _ hm => hm

theorem Identity.removeDir {h : Host} (hI : Identity h) (env : Env) (name : Text) :
    Identity (removeDir env name h).1 := by
  have hlog := removeDir_noTeardown env name h
  obtain ⟨_, he⟩ := removeDir_eq env name h
  rw [he] at hlog ⊢
  exact hI.congr rfl rfl rfl rfl hlog

theorem rmdirCgroup_homes {h : Host} (hh : Homes h) (env : Env) (site : Site) (name : Text) :
    Homes (rmdirCgroup env site name h).1 := by
  unfold rmdirCgroup
  split
  · exact hh
  split
  · exact hh
  · rename_i hne
    simp only [not_or, not_not] at hne
    -- a populated cgroup is not removed, so no live process loses its home
    intro p hp hz n hn
    have hmem : n ∈ h.cgroups := hh p hp hz n hn
    refine (List.mem_erase_of_ne ?_).2 hmem
    rintro rfl
    have : p ∈ cgroupProcs n h := List.mem_filter.2 ⟨hp, by simp [hn, hz]⟩
    rw [hne.2] at this
    cases this

theorem Identity.rmdirCgroup {h : Host} (hI : Identity h) (env : Env) (site : Site) (name : Text) :
    Identity (rmdirCgroup env site name h).1 := by
  have hh := rmdirCgroup_homes hI.homes env site name
  unfold TinyDocker.rmdirCgroup at hh ⊢
  split
  · exact hI
  split
  · exact hI
  · rename_i h1 h2
    rw [if_neg h1, if_neg h2] at hh
    exact ⟨hI.pids, hI.starts, hh, hI.recorded, hI.live, hI.teardowns⟩

/-! ## Records -/

/-- A record may be written if it is the old one with a status that fits, or names nobody. -/
theorem Identity.setInfo {h : Host} (hI : Identity h) {name : Text} {o : Option ContainerInfo}
    (hrec : ∀ i, o = some i → i.pidStartTime < h.clock)
    (hlive : ∀ i, o = some i → ∀ p ∈ h.procs, p.pid = i.pid → p.start = i.pidStartTime →
      p.zombie = false → i.status = .running ∧ p.cgroup = some name) :
    Identity (h.setInfo name o) := by
  refine ⟨hI.pids, hI.starts, hI.homes, fun n i hi => ?_, fun n i hi => ?_, hI.teardowns⟩
  · by_cases hn : n = name
    · subst hn
      rw [Host.setInfo_self] at hi
      exact hrec i hi
    · rw [Host.setInfo_of_ne h hn] at hi
      exact hI.recorded n i hi
  · by_cases hn : n = name
    · subst hn
      rw [Host.setInfo_self] at hi
      exact hlive i hi
    · rw [Host.setInfo_of_ne h hn] at hi
      exact hI.live n i hi

theorem Identity.writeInfo {h : Host} (hI : Identity h) (env : Env) {name : Text}
    {i : ContainerInfo} (hrec : i.pidStartTime < h.clock)
    (hlive : ∀ p ∈ h.procs, p.pid = i.pid → p.start = i.pidStartTime → p.zombie = false →
      i.status = .running ∧ p.cgroup = some name) :
    Identity (writeContainerInfo env name i h).1 := by
  rcases writeContainerInfo_cases env name i h with he | he
  · rw [he]; exact hI
  · rw [he]
    refine hI.setInfo (fun j hj => ?_) (fun j hj => ?_)
    · cases hj; exact hrec
    · cases hj; exact hlive

theorem Identity.removeStatusInfo {h : Host} (hI : Identity h) (env : Env) (name : Text) :
    Identity (removeStatusInfo env name h).1 := by
  unfold TinyDocker.removeStatusInfo
  split
  · exact hI
  split
  · exact hI
  · exact hI.setInfo (fun i hi => by cases hi) (fun i hi => by cases hi)

/-- The process `/proc` shows for a pid is the only one with that pid. -/
theorem Identity.find_start {h : Host} (hI : Identity h) {p : Proc} (hp : p ∈ h.procs) :
    readProcessStartTime p.pid h = some p.start := by
  have key : ∀ l : List Proc, (l.map (·.pid)).Nodup → p ∈ l →
      l.find? (fun q => decide (q.pid = p.pid)) = some p := by
    intro l
    induction l with
    | nil => intro _ hm; cases hm
    | cons q l ih =>
      intro hnd hm
      simp only [List.map_cons, List.nodup_cons] at hnd
      rcases List.mem_cons.1 hm with rfl | hm
      · simp
      · have hne : q.pid ≠ p.pid := fun he => hnd.1 (he ▸ List.mem_map_of_mem hm)
        simp [hne, ih hnd.2 hm]
  simp [readProcessStartTime, key h.procs hI.pids hp]

/-- What `/proc/PID/stat` holds: a line that fits the buffer, with the start time as its twentieth field behind the
name of the command. -/
def ProcFiles (h : Host) (stat : Nat → Option Text) : Prop :=
  ∀ pid, match h.procs.find? fun p => decide (p.pid = pid) with
    | none => stat pid = none
    | some p => ∃ command fields, stat pid = some (statLine pid command fields ['\n']) ∧ '\n' ∉ command ∧
        (∀ f ∈ fields, IsField f) ∧ (statLine pid command fields ['\n']).length < 4096 ∧
        fields[19]? = some (Nat.toDigits 10 p.start) ∧ p.start < 2 ^ 64

/-- **The start time of the host is the one that the code reads**, whatever the commands are called. -/
theorem readStartTime_host {h : Host} {stat : Nat → Option Text} (hstat : ProcFiles h stat) {pid : Nat}
    (hpid : 0 < pid) (out : Nat) : readStartTime pid (stat pid) out =
      match readProcessStartTime pid h with
      | none => (-1, out)
      | some start => (0, start) := by
  have hfile := hstat pid
  unfold readProcessStartTime
  split at hfile
  · rename_i hnone
    rw [hnone, hfile]
    unfold readStartTime
    rw [if_neg (by omega)]
    rfl
  · rename_i p hp
    obtain ⟨command, fields, hline, hclean, hfields, hlen, hfield, hlt⟩ := hfile
    rw [hp, hline]
    exact readStartTime_line hpid hclean hfields hlen hfield (fun c hc => isDigit_toDigits hc)
      (Nat.ofDigitChars_toDigits (by decide) (by decide)) hlt

/-- **A refresh keeps the invariant**, and a record it returns as not running names nobody alive. -/
theorem Identity.refresh {h : Host} (hI : Identity h) (env : Env) {name : Text} {i : ContainerInfo}
    (hi : h.info name = some i) :
    Identity (refreshContainerStatusIfNeeded env name i h).1 ∧
      ∀ j, (refreshContainerStatusIfNeeded env name i h).2 = some j → j.status ≠ .running →
        initAlive j (refreshContainerStatusIfNeeded env name i h).1 = false := by
  unfold refreshContainerStatusIfNeeded
  split
  · exact ⟨hI, fun j hj hs => by cases hj; exact hI.not_alive hi hs⟩
  split
  · exact ⟨hI, fun j hj _ => by cases hj⟩
  simp only
  have hwrite : (∀ p ∈ h.procs, p.pid = i.pid → p.start = i.pidStartTime → False) →
      Identity (writeContainerInfo env name { i with status := .exited } h).1 ∧
        ∀ j, (if (writeContainerInfo env name { i with status := .exited } h).2 = true then
            some { i with status := .exited } else none) = some j → j.status ≠ .running →
          initAlive j (writeContainerInfo env name { i with status := .exited } h).1 = false := by
    intro hnone
    refine ⟨hI.writeInfo env (hI.recorded name i hi) fun p hp h1 h2 => absurd (hnone p hp h1 h2) id,
      fun j hj _ => ?_⟩
    split at hj
    · cases hj
      obtain ⟨info', he⟩ := writeContainerInfo_only env name { i with status := .exited } h
      rw [he, initAlive_eq_false]
      exact fun p hp h1 h2 => absurd (hnone p hp h1 h2) id
    · cases hj
  split
  · rename_i start hstart
    split
    · rename_i hrun _ hsame
      refine ⟨hI, fun j hj hs => ?_⟩
      cases hj
      exact hI.not_alive hi hs
    · rename_i hdiff
      refine hwrite fun p hp h1 h2 => ?_
      have := hI.find_start hp
      rw [h1, hstart] at this
      exact hdiff (Or.inr ((Option.some.inj this).trans h2))
  · rename_i hstart
    refine hwrite fun p hp h1 _ => ?_
    have := hI.find_start hp
    rw [h1, hstart] at this
    cases this

/-! ## Processes -/

/-- Processes may end and disappear. -/
theorem Identity.shrink {h : Host} (hI : Identity h) {procs : List Proc}
    (hpids : (procs.map (·.pid)).Nodup) (hstarts : ∀ p ∈ procs, p.start < h.clock)
    (hlive : ∀ p ∈ procs, p.zombie = false → p ∈ h.procs) : Identity { h with procs := procs } :=
  ⟨hpids, hstarts, fun p hp hz n hn => hI.homes p (hlive p hp hz) hz n hn, hI.recorded,
    fun name i hi p hp h1 h2 hz => hI.live name i hi p (hlive p hp hz) h1 h2 hz, hI.teardowns⟩

theorem Identity.filter {h : Host} (hI : Identity h) (f : Proc → Bool) :
    Identity { h with procs := h.procs.filter f } :=
  hI.shrink ((List.filter_sublist.map _).nodup hI.pids)
    (fun p hp => hI.starts p (List.mem_filter.1 hp).1) fun _ hp _ => (List.mem_filter.1 hp).1

/-- Some processes become zombies. -/
theorem Identity.zombies {h : Host} (hI : Identity h) (f : Proc → Bool) :
    Identity { h with procs := h.procs.map fun p => if f p then { p with zombie := true } else p } := by
  have hmem : ∀ p' ∈ h.procs.map (fun p => if f p then { p with zombie := true } else p),
      ∃ p ∈ h.procs, p'.start = p.start ∧ (p'.zombie = false → p' = p) := by
    intro p' hp'
    obtain ⟨p, hp, rfl⟩ := List.mem_map.1 hp'
    refine ⟨p, hp, ?_, ?_⟩
    · split <;> rfl
    · split
      · intro hz; cases hz
      · exact fun _ => rfl
  refine hI.shrink ?_ (fun p' hp' => ?_) fun p' hp' hz => ?_
  · have hsame : (h.procs.map fun p => if f p then { p with zombie := true } else p).map (·.pid) =
        h.procs.map (·.pid) := by
      rw [List.map_map]
      refine List.map_congr_left fun p _ => ?_
      simp only [Function.comp]
      split <;> rfl
    rw [hsame]; exact hI.pids
  · obtain ⟨p, hp, hs, -⟩ := hmem p' hp'
    rw [hs]; exact hI.starts p hp
  · obtain ⟨p, hp, -, he⟩ := hmem p' hp'
    rw [he hz]; exact hp

theorem Identity.elapse {h : Host} (hI : Identity h) (env : Env) (k : Nat) :
    Identity (elapse env k h) := hI.zombies fun p => env.dies k p.pid

theorem Identity.endProcess {h : Host} (hI : Identity h) (pid : Nat) :
    Identity (endProcess pid h) := by
  have := hI.zombies fun p => decide (p.pid = pid)
  simpa only [TinyDocker.endProcess, decide_eq_true_eq] using this

/-- A new process has a start time that no record names. -/
theorem Identity.push {h : Host} (hI : Identity h) {pid : Nat} {cgroup : Option Text}
    (hfree : ∀ p ∈ h.procs, p.pid ≠ pid) (hhome : ∀ n, cgroup = some n → n ∈ h.cgroups) :
    Identity { h with procs := h.procs ++ [⟨pid, h.clock, cgroup, false⟩], clock := h.clock + 1 } := by
  refine ⟨?_, fun p hp => ?_, fun p hp hz n hn => ?_, fun n i hi => ?_, fun n i hi p hp h1 h2 hz => ?_,
    hI.teardowns⟩
  · simp only [List.map_append, List.map_cons, List.map_nil]
    refine List.nodup_append.2 ⟨hI.pids, by simp, fun a ha b hb hab => ?_⟩
    obtain ⟨p, hp, rfl⟩ := List.mem_map.1 ha
    exact hfree p hp (hab.trans (List.mem_singleton.1 hb))
  · rcases List.mem_append.1 hp with hp | hp
    · exact Nat.lt_succ_of_lt (hI.starts p hp)
    · rw [List.mem_singleton.1 hp]; exact Nat.lt_succ_self _
  · rcases List.mem_append.1 hp with hp | hp
    · exact hI.homes p hp hz n hn
    · rw [List.mem_singleton.1 hp] at hn; exact hhome n hn
  · exact Nat.lt_succ_of_lt (hI.recorded n i hi)
  · rcases List.mem_append.1 hp with hp | hp
    · exact hI.live n i hi p hp h1 h2 hz
    · have hlt := hI.recorded n i hi
      rw [List.mem_singleton.1 hp] at h2
      exact absurd (h2 ▸ hlt) (Nat.lt_irrefl _)

theorem Identity.addProcess {h : Host} (hI : Identity h) (pid : Nat) {cgroup : Option Text}
    (hhome : ∀ n, cgroup = some n → n ∈ h.cgroups) : Identity (addProcess pid cgroup h) := by
  unfold TinyDocker.addProcess
  split
  · exact hI
  · rename_i hn
    exact hI.push (pid_free (Bool.eq_false_iff.2 hn)) hhome

/-! ## `docker stop` -/

theorem Identity.poll (env : Env) (name : Text) : ∀ (n k : Nat) (count : Int) {h : Host},
    Identity h → Identity (pollUntilEmpty env name n k count h).1
  | 0, _, _, _, hI => hI
  | n + 1, k, count, h, hI => by
    unfold pollUntilEmpty
    split
    · exact Identity.poll env name n (k + 1) _ (hI.elapse env k)
    · exact hI

/-- The count that polling ends with is the count of the state it ends in. -/
theorem poll_count (env : Env) (name : Text) : ∀ (n k : Nat) (count : Int) (h : Host),
    (∃ site, count = containerProcessCount env site name h) →
      ∃ site, (pollUntilEmpty env name n k count h).2 =
        containerProcessCount env site name (pollUntilEmpty env name n k count h).1
  | 0, _, _, _, hc => hc
  | n + 1, k, count, h, hc => by
    unfold pollUntilEmpty
    split
    · exact poll_count env name n (k + 1) _ _ ⟨_, rfl⟩
    · exact hc

/-- A count of zero means that no live process is in the cgroup. -/
theorem Identity.empty_of_count {h : Host} (hI : Identity h) {env : Env} {site : Site} {name : Text}
    (hc : containerProcessCount env site name h = 0) :
    ∀ p ∈ h.procs, p.zombie = false → p.cgroup ≠ some name := by
  intro p hp hz hcg
  have hmem : p ∈ cgroupProcs name h := List.mem_filter.2 ⟨hp, by simp [hcg, hz]⟩
  unfold containerProcessCount at hc
  split at hc
  · rename_i hno
    exact hno (hI.homes p hp hz name hcg)
  split at hc
  · cases hc
  · have : (cgroupProcs name h).length = 0 := by exact_mod_cast hc
    rw [List.length_eq_zero_iff.1 this] at hmem
    cases hmem

theorem Identity.updateStatus {h : Host} (hI : Identity h) (env : Env) {name : Text}
    {status : ContainerStatus}
    (hdead : ∀ i, h.info name = some i → ∀ p ∈ h.procs, p.pid = i.pid → p.start = i.pidStartTime →
      p.zombie = true) : Identity (updateContainerStatus env name status h).1 := by
  unfold updateContainerStatus
  split
  · exact hI
  · rename_i i hi
    refine hI.writeInfo env (hI.recorded name i hi) fun p hp h1 h2 hz => ?_
    rw [hdead i hi p hp h1 h2] at hz
    cases hz

theorem Identity.stopContainer {h : Host} (hI : Identity h) (env : Env) (time : Nat) (name : Text) :
    Identity (stopContainer env time name h).1 := by
  unfold TinyDocker.stopContainer
  split
  · exact hI
  rename_i i hi
  have href := (hI.refresh env hi).1
  split
  · rename_i h₁ he
    rw [he] at href
    exact href
  rename_i h₁ j he
  rw [he] at href
  split
  · exact href
  split
  · exact href
  simp only
  have hI₂ := href.elapse env 0
  have hI₃ := hI₂.poll env name (time * 10) 1
    (containerProcessCount env (.countProcs 0) name (TinyDocker.elapse env 0 h₁))
  have hc₃ := poll_count env name (time * 10) 1
    (containerProcessCount env (.countProcs 0) name (TinyDocker.elapse env 0 h₁)) _ ⟨_, rfl⟩
  generalize pollUntilEmpty env name (time * 10) 1
    (containerProcessCount env (.countProcs 0) name (TinyDocker.elapse env 0 h₁))
    (TinyDocker.elapse env 0 h₁) = p at hI₃ hc₃ ⊢
  split
  · exact hI₃
  -- after the second polling phase, if there was one
  have hI₄ : Identity (if 0 < p.2 then pollUntilEmpty env name 20 (time * 10 + 1) p.2 p.1 else p).1 := by
    split
    · exact hI₃.poll env name 20 _ _
    · exact hI₃
  have hc₄ : ∃ site, (if 0 < p.2 then pollUntilEmpty env name 20 (time * 10 + 1) p.2 p.1 else p).2 =
      containerProcessCount env site name
        (if 0 < p.2 then pollUntilEmpty env name 20 (time * 10 + 1) p.2 p.1 else p).1 := by
    split
    · exact poll_count env name 20 _ _ _ hc₃
    · exact hc₃
  generalize (if 0 < p.2 then pollUntilEmpty env name 20 (time * 10 + 1) p.2 p.1 else p) = q at hI₄ hc₄ ⊢
  split
  · exact hI₄
  rename_i hzero
  obtain ⟨site, hsite⟩ := hc₄
  have hempty := hI₄.empty_of_count (hsite.symm.trans (not_not.1 hzero))
  refine hI₄.updateStatus env fun i' hi' x hx h1 h2 => ?_
  by_contra hz
  have hz := Bool.eq_false_iff.2 hz
  exact hempty x hx hz (hI₄.live name i' hi' x hx h1 h2 hz).2

theorem Identity.dockerStop (time : Nat) : ∀ (targets : List (Text × Env)) {h : Host}, Identity h →
    Identity (dockerStop time targets h).1
  | [], _, hI => hI
  | (name, env) :: rest, _, hI => Identity.dockerStop time rest (hI.stopContainer env time name)

/-! ## `docker rm` -/

theorem Identity.removeWorkspace {h : Host} (hI : Identity h) (env : Env) (name : Text) (b : Bool) :
    Identity (removeWorkspace env name b h).1 := by
  unfold TinyDocker.removeWorkspace
  split
  · exact hI.removeDir env name
  · exact hI

theorem Identity.cleanContainerRuntime {h : Host} (hI : Identity h) (env : Env) (name : Text)
    (info : ContainerInfo) : Identity (cleanContainerRuntime env name info h).1 := by
  rcases cleanContainerRuntime_cases env name info h with he | ⟨m, n, d, c, rfl, rfl, rfl, rfl, hlast⟩
  · rw [he]; exact hI
  have hm := hI.mounts (umountAll_only env name (info.volumes.map parseVolumeConfig) h)
  have hn := hm.net (cleanNetwork_only env name info.ipAddr _)
  have hd := hn.removeWorkspace env name
    (umountAll env name (info.volumes.map parseVolumeConfig) h).2
  have hc := hd.rmdirCgroup env .cgroupRmdir name
  rcases hlast with he | ⟨-, -, -, -, he⟩
  · rw [he]; exact hc
  · rw [he]; exact hc.removeStatusInfo env name

theorem Identity.rmContainer {h : Host} (hI : Identity h) (env : Env) (name : Text) :
    Identity (rmContainer env name h).1 := by
  rcases rmContainer_cases env name h with he | ⟨i, h', o, hi, href, hcase⟩
  · rw [he]; exact hI
  obtain ⟨hI', hdead⟩ := hI.refresh env hi
  rw [href] at hI' hdead
  rcases hcase with he | ⟨j, rfl, hs, he⟩
  · rw [he]; exact hI'
  rw [he]
  -- the record is not running, so the teardown that is logged finds no live process
  refine Identity.cleanContainerRuntime ?_ env name j
  refine ⟨hI'.pids, hI'.starts, hI'.homes, hI'.recorded, hI'.live, fun n alive hm => ?_⟩
  rcases List.mem_append.1 hm with hm | hm
  · exact hI'.teardowns n alive hm
  · cases List.mem_singleton.1 hm
    exact hdead j rfl hs

theorem Identity.dockerRm : ∀ (targets : List (Text × Env)) {h : Host}, Identity h →
    Identity (dockerRm targets h).1
  | [], _, hI => hI
  | (name, env) :: rest, _, hI => Identity.dockerRm rest (hI.rmContainer env name)

/-! ## `docker run` -/

section Run

variable {env : Env} {args : RunArguments}

/-- After the stage that creates the cgroup. -/
def CgroupReady (args : RunArguments) (st : RunState) : Prop :=
  Identity st.host ∧ args.name ∈ st.host.cgroups

/-- After `clone`: the child is younger than every record. -/
def ChildFresh (env : Env) (args : RunArguments) (st : RunState) : Prop :=
  CgroupReady args st ∧ ∀ p ∈ st.host.procs, p.pid = env.pid →
    ∀ n i, st.host.info n = some i → i.pidStartTime < p.start

/-- After `cgroup_apply`. -/
def ChildJoined (env : Env) (args : RunArguments) (st : RunState) : Prop :=
  Identity st.host ∧ ∀ p ∈ st.host.procs, p.pid = env.pid → p.cgroup = some args.name

theorem cgroupPrepare_identity :
    Triple (fun st => Identity st.host) (cgroupPrepare env args) (CgroupReady args)
      (fun st => Identity st.host) := by
  intro st hI
  have hI' : Identity { st.host with cgroups := args.name :: st.host.cgroups } :=
    ⟨hI.pids, hI.starts, fun p hp hz n hn => List.mem_cons_of_mem _ (hI.homes p hp hz n hn),
      hI.recorded, hI.live, hI.teardowns⟩
  refine ⟨fun st' h' => ?_, fun e he => ?_⟩
  · unfold cgroupPrepare at h'
    split at h'
    · cases h'
    simp only at h'
    split at h'
    · cases h'
    · cases h'
      exact ⟨hI', List.mem_cons_self⟩
  · unfold cgroupPrepare at he
    split at he
    · cases he; exact hI
    simp only at he
    split at he
    · cases he
      exact hI'.rmdirCgroup env .cgroupRollback args.name
    · cases he

theorem cloneStage_identity :
    Triple (CgroupReady args) (cloneStage env) (ChildFresh env args) (fun st => Identity st.host) := by
  intro st ⟨hI, hmem⟩
  refine ⟨fun st' h' => ?_, fun e he => ?_⟩
  · unfold cloneStage at h'
    split at h'
    · cases h'
    rename_i hok
    simp only [not_or, Bool.not_eq_true] at hok
    have hfree := pid_free hok.2.2
    cases h'
    refine ⟨⟨hI.push hfree fun n hn => (by cases hn), hmem⟩, fun p hp hpid n i hi => ?_⟩
    rcases List.mem_append.1 hp with hp | hp
    · exact absurd hpid (hfree p hp)
    · rw [List.mem_singleton.1 hp]
      exact hI.recorded n i hi
  · unfold cloneStage at he
    split at he
    · cases he; exact hI
    · cases he

/-- A process that no record names may move to another cgroup. -/
theorem Identity.joinCgroup {h : Host} (hI : Identity h) {pid : Nat} {name : Text}
    (hmem : name ∈ h.cgroups)
    (hfresh : ∀ p ∈ h.procs, p.pid = pid → ∀ n i, h.info n = some i → i.pidStartTime < p.start) :
    Identity (joinCgroup pid name h) := by
  refine ⟨?_, fun p' hp' => ?_, fun p' hp' hz n hn => ?_, hI.recorded,
    fun n i hi p' hp' h1 h2 hz => ?_, hI.teardowns⟩
  · have hsame : (h.procs.map fun p => if p.pid = pid then { p with cgroup := some name } else p).map
        (·.pid) = h.procs.map (·.pid) := by
      rw [List.map_map]
      refine List.map_congr_left fun p _ => ?_
      simp only [Function.comp]
      split <;> rfl
    simp only [TinyDocker.joinCgroup, hsame]
    exact hI.pids
  all_goals obtain ⟨p, hp, rfl⟩ := List.mem_map.1 hp'
  · split
    · exact hI.starts p hp
    · exact hI.starts p hp
  · split at hn
    · cases hn; exact hmem
    · rename_i hne
      rw [if_neg hne] at hz
      exact hI.homes p hp hz n hn
  · by_cases hpid : p.pid = pid
    · rw [if_pos hpid] at h2
      exact absurd h2 (Nat.ne_of_gt (hfresh p hp hpid n i hi))
    · rw [if_neg hpid] at h1 h2 hz ⊢
      exact hI.live n i hi p hp h1 h2 hz

theorem cgroupApply_identity :
    Triple (ChildFresh env args) (cgroupApply env args) (ChildJoined env args)
      (fun st => Identity st.host) := by
  intro st ⟨⟨hI, hmem⟩, hfresh⟩
  refine ⟨fun st' h' => ?_, fun e he => ?_⟩
  · unfold cgroupApply at h'
    split at h'
    · cases h'
    cases h'
    refine ⟨hI.joinCgroup hmem hfresh, fun p' hp' hpid => ?_⟩
    obtain ⟨p, -, rfl⟩ := List.mem_map.1 hp'
    by_cases hp : p.pid = env.pid
    · rw [if_pos hp]
    · rw [if_neg hp] at hpid
      exact absurd hpid hp
  · unfold cgroupApply at he
    split at he
    · cases he; exact hI
    · cases he

theorem ChildJoined.net {st : RunState} {h : Host} (hj : ChildJoined env args st)
    (ho : OnlyNet st.host h) (ip : Text) : ChildJoined env args { st with host := h, ipAddr := ip } := by
  refine ⟨hj.1.net ho, ?_⟩
  obtain ⟨_, _, _, _, rfl⟩ := ho
  exact hj.2

theorem metadataStage_identity :
    Triple (ChildJoined env args) (metadataStage env args) (fun st => Identity st.host)
      (fun st => Identity st.host) := by
  intro st ⟨hI, hjoin⟩
  have hwrite : ∀ info, createContainerInfo args env.pid
      (if env.fails .startTime then none else readProcessStartTime env.pid st.host)
      .running st.ipAddr env.timestamp env.created = some info →
      Identity (writeContainerInfo env args.name info st.host).1 := by
    intro info hinfo
    obtain ⟨hpid, hstart, hstatus, -, -, -⟩ := createContainerInfo_ok hinfo
    split at hstart
    · cases hstart
    simp only [readProcessStartTime, Option.map_eq_some_iff] at hstart
    obtain ⟨p, hp, hs⟩ := hstart
    refine hI.writeInfo env ?_ fun q hq h1 _ _ => ⟨hstatus, hjoin q hq (h1.trans hpid)⟩
    rw [← hs]
    exact hI.starts p (List.mem_of_find?_eq_some hp)
  refine ⟨fun st' h' => ?_, fun e he => ?_⟩
  · unfold metadataStage at h'
    split at h'
    · cases h'
    · rename_i info hinfo
      have hw := hwrite info hinfo
      split at h'
      · rename_i h hh
        cases h'
        rw [hh] at hw
        exact hw
      · cases h'
  · unfold metadataStage at he
    split at he
    · cases he; exact hI
    · rename_i info hinfo
      have hw := hwrite info hinfo
      split at he
      · cases he
      · rename_i h hh
        cases he
        rw [hh] at hw
        exact hw

/-- Every stage keeps the invariant at both exits. -/
theorem runStages_identity :
    TripleAll (fun st => Identity st.host) (runStages env args) (fun st => Identity st.host)
      (fun st => Identity st.host) := by
  refine .cons (Q := fun st => Identity st.host) (.keep (fun st hI => ?_) fun _ h => h) <|
    .cons (Q := fun st => Identity st.host) (.keep (fun st hI => ?_) fun _ h => h) <|
    .cons cgroupPrepare_identity <|
    .cons (Q := CgroupReady args) (.keep (fun st hI => ?_) fun _ h => h.1) <|
    .cons cloneStage_identity <|
    .cons cgroupApply_identity <|
    .cons (Q := ChildJoined env args) (.keep (fun st hI => ?_) fun _ h => h.1) <|
    .cons (Q := ChildJoined env args) (.keep (fun st hI => ?_) fun _ h => h.1) <|
    .cons metadataStage_identity <|
    .cons (Q := fun st => Identity st.host) (.keep (fun st hI => ?_) fun _ h => h) .nil
  · obtain ⟨_, _, _, he⟩ := initContainerWorkerspace_outcome env args st
    rw [he]
    exact hI.congr rfl rfl rfl rfl fun _ _ hm => hm
  · obtain ⟨h, ho, he⟩ := volumeStage_outcome env args st
    rw [he]
    exact hI.mounts ho
  · obtain ⟨_, he⟩ := pipeStage_outcome env st
    rw [he]
    exact hI
  · obtain ⟨h, ip, ho, he⟩ := connectStage_outcome env args st
    rw [he]
    exact hI.net ho.net ip
  · obtain ⟨h, ho, he, -⟩ := portStage_outcome env args st
    rw [he]
    exact hI.net ho.net st.ipAddr
  · obtain ⟨_, he⟩ := releaseStage_outcome env st
    rw [he]
    exact hI

/-- The cleanup keeps the invariant from wherever it starts. -/
theorem Identity.cleanupRunFailure {st : RunState} (hI : Identity st.host) :
    Identity (cleanupRunFailure env args st) := by
  have hkill : Identity (killChild st) := by
    unfold killChild
    split
    · exact hI
    · exact hI.filter _
  have hnet := hkill.net (dropNetwork_only env args.name st.ipAddr (killChild st))
  have hmounts := hnet.mounts (dropMounts_only env args st.mountpointSet _)
  have hdir := hmounts.removeWorkspace env args.name
    (dropMounts env args st.mountpointSet (dropNetwork env args.name st.ipAddr (killChild st))).2
  have hcg := fun b : Bool => (show Identity (cgroupCleanup env args.name b _) by
    unfold cgroupCleanup
    split
    · exact hdir.rmdirCgroup env .cgroupRmdir args.name
    · exact hdir)
  unfold TinyDocker.cleanupRunFailure
  simp only
  split
  · exact (hcg st.cgroupCreated).removeStatusInfo env args.name
  · exact hcg st.cgroupCreated

theorem Identity.dockerRun {h : Host} (hI : Identity h) : Identity (dockerRun env args h).1 := by
  have hrun := @runStages_identity env args (RunState.start h) hI
  exact dockerRun_rule hI (fun st _ hst => hrun.1 st hst) fun st _ hst => (hrun.2 st hst).cleanupRunFailure

end Run

/-! ## Whole runs -/

/-- When a foreground `docker run` reaps its child, the name does not meanwhile belong to another
container that is alive. -/
def lateWriteOk (w : World) : Command → Bool
  | .reap _ k =>
    match w.foreground[k]? with
    | none => true
    | some e =>
      match w.host.info e.name with
      | none => true
      | some i => decide (i.pid = e.pid ∧ i.pidStartTime = e.start) || !initAlive i w.host
  | _ => true

theorem lateWriteOk_reap {w : World} {env : Env} {k : Nat} (h : lateWriteOk w (.reap env k) = true)
    {e : Waiting} (he : w.foreground[k]? = some e) {i : ContainerInfo}
    (hi : w.host.info e.name = some i) (hother : ¬ (i.pid = e.pid ∧ i.pidStartTime = e.start)) :
    initAlive i w.host = false := by
  simpa [lateWriteOk, he, hi, hother] using h

theorem Identity.reapForeground {h : Host} (hI : Identity h) (env : Env) {name : Text} {pid start : Nat}
    (hlate : ∀ i, h.info name = some i → ¬ (i.pid = pid ∧ i.pidStartTime = start) →
      initAlive i h = false) : Identity (reapForeground env name pid start h) := by
  refine (hI.filter _).updateStatus env fun i hi p hp h1 h2 => ?_
  obtain ⟨hp, hne⟩ := List.mem_filter.1 hp
  have hne := of_decide_eq_true hne
  -- the reaped child is gone, so the record that is rewritten names someone else
  have hother : ¬ (i.pid = pid ∧ i.pidStartTime = start) :=
    fun hc => hne ⟨h1.trans hc.1, h2.trans hc.2⟩
  exact initAlive_eq_false.1 (hlate i hi hother) p hp h1 h2

/-- **One command keeps the invariant**, a late write under the condition. -/
theorem Identity.step {w : World} {c : Command} (hI : Identity w.host) (hc : lateWriteOk w c = true) :
    Identity (w.step c).host := by
  cases c with
  | run env args => exact hI.dockerRun
  | reap env k =>
    simp only [World.step]
    split
    · exact hI
    · rename_i e he
      split
      · exact hI.reapForeground env fun i hi hother => lateWriteOk_reap hc he hi hother
      · exact hI
  | stop time targets => exact Identity.dockerStop time targets hI
  | rm targets => exact Identity.dockerRm targets hI
  | refresh name env =>
    simp only [World.step]
    split
    · exact hI
    · rename_i i hi
      exact (hI.refresh env hi).1
  | exit pid => exact hI.endProcess pid
  | collect pid =>
    simp only [World.step]
    split
    · exact hI
    · exact hI.filter _
  | fork parent pid =>
    simp only [World.step]
    split
    · exact hI
    · rename_i p hp
      refine hI.addProcess pid fun n hn => ?_
      have hz := List.find?_some hp
      simp only [Bool.and_eq_true, Bool.not_eq_true'] at hz
      exact hI.homes p (List.mem_of_find?_eq_some hp) hz.2 n hn
  | spawn pid => exact hI.addProcess pid fun n hn => by cases hn
  | edit obj => exact hI.congr rfl rfl rfl rfl fun _ _ hm => hm

theorem World.Booted.identity {w : World} (hb : w.Booted) : Identity w.host := by
  refine ⟨hb.pids, hb.starts, fun p hp _ n hn => ?_, fun n i hi => ?_, fun n i hi => ?_,
    fun n alive hm => ?_⟩
  · rw [hb.outside p hp] at hn; cases hn
  · rw [hb.noInfo n] at hi; cases hi
  · rw [hb.noInfo n] at hi; cases hi
  · rw [hb.noCalls] at hm; cases hm

/-- A `STOPPED` or `EXITED` record names no live process, and no container was torn down whose init
process was alive. -/
def IdentityHolds (h : Host) : Prop :=
  (∀ name i, h.info name = some i → i.status = .stopped ∨ i.status = .exited →
      ∀ p ∈ h.procs, p.pid = i.pid → p.start = i.pidStartTime → p.zombie = true) ∧
    ∀ name alive, Call.teardown name alive ∈ h.log → alive = false

theorem Identity.holds {h : Host} (hI : Identity h) : IdentityHolds h := by
  refine ⟨fun name i hi hs => initAlive_eq_false.1 (hI.not_alive hi ?_), hI.teardowns⟩
  rcases hs with hs | hs
  · rw [hs]; decide
  · rw [hs]; decide

/-- **Container identity.**  In every run in which no late status write of a foreground `docker run`
finds another, live container under its name. -/
theorem container_identity (w : World) (cs : List Command) (hboot : w.Booted)
    (hlate : w.Meets (fun w c => lateWriteOk w c = true) cs) : IdentityHolds (w.run cs).host :=
  Identity.holds (Runs.run_inv (I := fun w => Identity w.host)
    (fun _ _ hI hc => Identity.step hI hc) hboot.identity hlate)

/-- The child ends and its `docker run` takes note of it before the name is used again. -/
def timelyReap : List Command :=
  [.run (.quiet [] 20) (shellArgs "web001".toList false), .exit 20, .reap (.quiet [] 0) 0,
    .rm [("web001".toList, .quiet [] 0)], .run (.quiet [] 21) (shellArgs "web001".toList true)]

theorem timelyReap_identity :
    ((World.bare.run timelyReap).host.info "web001".toList).isSome = true ∧
      IdentityHolds (World.bare.run timelyReap).host :=
  ⟨by decide +kernel,
    container_identity World.bare timelyReap World.bare_booted (by decide +kernel)⟩

/-- The child has ended, `docker stop` and `docker rm` remove the container, a new one gets the
name, and only then does the first `docker run` reap its child. -/
def reusedName : List Command :=
  [.run (.quiet [] 20) (shellArgs "web001".toList false), .exit 20,
    .stop 1 [("web001".toList, .quiet [] 0)], .rm [("web001".toList, .quiet [] 0)],
    .run (.quiet [] 21) (shellArgs "web001".toList true), .reap (.quiet [] 0) 0,
    .rm [("web001".toList, .quiet [] 0)]]

/-- The late write marks the new, live container as `EXITED`, and `docker rm` tears it down. -/
theorem late_write_marks_live_container :
    World.bare.Booted ∧ ¬ IdentityHolds (World.bare.run (reusedName.take 6)).host ∧
      Call.teardown "web001".toList true ∈ (World.bare.run reusedName).host.log := by
  refine ⟨World.bare_booted, fun h => ?_, by decide +kernel⟩
  have hinfo : ∃ i, (World.bare.run (reusedName.take 6)).host.info "web001".toList = some i ∧
      i.status = .exited ∧ i.pid = 21 ∧ i.pidStartTime = 2 := ⟨_, rfl, rfl, rfl, rfl⟩
  have hproc : ∃ p ∈ (World.bare.run (reusedName.take 6)).host.procs,
      p.pid = 21 ∧ p.start = 2 ∧ p.zombie = false := by decide +kernel
  obtain ⟨i, hi, hs, hpid, hstart⟩ := hinfo
  obtain ⟨p, hp, h1, h2, hz⟩ := hproc
  have := h.1 _ i hi (Or.inr hs) p hp (h1.trans hpid.symm) (h2.trans hstart.symm)
  rw [hz] at this
  cases this

end TinyDocker
