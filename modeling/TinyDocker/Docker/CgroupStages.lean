import TinyDocker.Docker.Container
import TinyDocker.Docker.RuntimePaths

/-!
# The cgroup of a container (`docker/cgroup.c` in `docker/container.c`)

The stages of `docker run` keep only which containers have a cgroup.  `Cgroup` follows the same calls with the
paths, the `cgroup_state` and the interleaving of the code.  On a valid name each stage is the call of `Cgroup`
with answers that fit, on directories that are the cgroups of the host.

Principal results: `cgroupPrepare_refines`, `cgroupApply_refines`, `cgroupCleanup_refines` — the two models
succeed together and stay in step; `cgroupPrepare_run` — a `docker run` that nothing interrupts is a run of an
attempt among the others.
-/

set_option autoImplicit false

namespace TinyDocker

open CText

/-- The directories are the cgroups of the containers. -/
structure ShowsCgroups (h : Host) (g : Cgroup.Host) : Prop where
  nodup : h.cgroups.Nodup
  dirs : ∀ name, (g.dirs (cgroupPath name)).isSome = true ↔ name ∈ h.cgroups

/-- The `cgroup_state` and the directories say what the local variables of `docker_run` and the host do. -/
structure InStep (name : Text) (st : RunState) (s : Cgroup.State) (g : Cgroup.Host) : Prop where
  shows : ShowsCgroups st.host g
  created : s.created = st.cgroupCreated
  path : s.created = true → s.path = cgroupPath name

/-- The same answers to the calls of both models; `rmdir` also refuses a cgroup with a live process. -/
structure SameAnswers (env : Env) (site : Site) (name : Text) (h : Host) (e : Cgroup.Env) : Prop where
  mkdir : (e .controllers = true ∨ e .parent = true ∨ e .mkdir = true) ↔ env.fails .cgroupMkdir = true
  memoryMax : e .memoryMax = env.fails .memoryMax
  cpuMax : e .cpuMax = env.fails .cpuMax
  procs : e .procs = env.fails .cgroupProcs
  rmdir : e .rmdir = true ↔ env.fails site = true ∨ cgroupProcs name h ≠ []

variable {env : Env} {args : RunArguments} {name : Text} {h : Host} {g : Cgroup.Host} {e : Cgroup.Env} {site : Site}

theorem cgroupPath_injective {name name' : Text} (h : cgroupPath name = cgroupPath name') : name = name' :=
  List.append_cancel_left (List.append_cancel_left h)

/-! ## Directories -/

theorem ShowsCgroups.same (hg : ShowsCgroups h g) {h' : Host} {g' : Cgroup.Host} (hh : h'.cgroups = h.cgroups)
    (hdirs : g'.dirs = g.dirs) : ShowsCgroups h' g' := by
  refine ⟨hh ▸ hg.nodup, fun n => ?_⟩
  rw [hdirs, hh]
  exact hg.dirs n

theorem ShowsCgroups.make (hg : ShowsCgroups h g) (hname : name ∉ h.cgroups) (m : Cgroup.Maker) {h' : Host}
    {g' : Cgroup.Host} (hh : h'.cgroups = name :: h.cgroups)
    (hdirs : g'.dirs = Function.update g.dirs (cgroupPath name) (some m)) : ShowsCgroups h' g' := by
  refine ⟨hh ▸ List.nodup_cons.2 ⟨hname, hg.nodup⟩, fun n => ?_⟩
  rw [hdirs, hh, List.mem_cons]
  by_cases hn : n = name
  · rw [hn, Function.update_self]
    simp
  · rw [Function.update_of_ne fun hp => hn (cgroupPath_injective hp), hg.dirs n]
    simp [hn]

theorem ShowsCgroups.remove (hg : ShowsCgroups h g) {h' : Host} {g' : Cgroup.Host}
    (hh : h'.cgroups = h.cgroups.erase name)
    (hdirs : g'.dirs = Function.update g.dirs (cgroupPath name) none) : ShowsCgroups h' g' := by
  refine ⟨hh ▸ hg.nodup.erase name, fun n => ?_⟩
  rw [hdirs, hh, hg.nodup.mem_erase_iff]
  by_cases hn : n = name
  · rw [hn, Function.update_self]
    simp
  · rw [Function.update_of_ne fun hp => hn (cgroupPath_injective hp), hg.dirs n]
    simp [hn]

/-- **`rmdir`** of the cgroup: both models remove it, or neither does. -/
theorem rmdir_refines (hg : ShowsCgroups h g) (he : SameAnswers env site name h e) (i : Nat) :
    (Cgroup.rmdir (e .rmdir) i (cgroupPath name) g).2 = (rmdirCgroup env site name h).2 ∧
      ShowsCgroups (rmdirCgroup env site name h).1 (Cgroup.rmdir (e .rmdir) i (cgroupPath name) g).1 := by
  have hshown := hg.dirs name
  unfold Cgroup.rmdir rmdirCgroup
  cases hdir : g.dirs (cgroupPath name) with
  | none =>
    have hno : name ∉ h.cgroups := fun hin => by
      rw [hdir] at hshown
      exact absurd (hshown.2 hin) (by decide)
    rw [if_pos hno]
    exact ⟨rfl, hg.same rfl rfl⟩
  | some m =>
    have hin : name ∈ h.cgroups := hshown.1 (by rw [hdir]; rfl)
    rw [if_neg (not_not.2 hin)]
    simp only
    by_cases hfail : e .rmdir = true
    · rw [if_pos hfail, if_pos (he.rmdir.1 hfail)]
      exact ⟨rfl, hg.same rfl rfl⟩
    · rw [if_neg hfail, if_neg fun hf => hfail (he.rmdir.2 hf)]
      exact ⟨rfl, hg.remove rfl rfl⟩

/-- **`cgroup_cleanup`** of a state that has made the cgroup. -/
theorem cleanup_created (hg : ShowsCgroups h g) (he : SameAnswers env site name h e) (i : Nat) :
    (Cgroup.cgroupCleanup e i ⟨cgroupPath name, true⟩ g).2 =
        (if (rmdirCgroup env site name h).2 = true then (⟨[], false⟩, 0) else (⟨cgroupPath name, true⟩, -1)) ∧
      ShowsCgroups (rmdirCgroup env site name h).1 (Cgroup.cgroupCleanup e i ⟨cgroupPath name, true⟩ g).1 := by
  obtain ⟨hanswer, hshows⟩ := rmdir_refines hg he i
  have hne : cgroupPath name ≠ [] := List.append_ne_nil_of_left_ne_nil (by decide) _
  unfold Cgroup.cgroupCleanup
  rw [if_neg (by simp), if_neg hne]
  rcases hcall : Cgroup.rmdir (e .rmdir) i (cgroupPath name) g with ⟨g', removed⟩
  rw [hcall] at hanswer hshows
  have hanswer : removed = (rmdirCgroup env site name h).2 := hanswer
  rw [← hanswer]
  cases removed with
  | true => exact ⟨rfl, hshows⟩
  | false => exact ⟨rfl, hshows⟩

/-! ## The stages -/

/-- `init_cgroup` of a valid name makes the directory exactly when the stage does. -/
theorem initCgroup_refines (hname : tdValidateName name 127 = .ok ()) (hg : ShowsCgroups h g)
    (he : SameAnswers env site name h e) (i : Nat) :
    if env.fails .cgroupMkdir = true ∨ name ∈ h.cgroups then
      ∃ g', Cgroup.initCgroup e i name g = (g', false) ∧ g'.dirs = g.dirs
    else ∃ g', Cgroup.initCgroup e i name g = (g', true) ∧
      g'.dirs = Function.update g.dirs (cgroupPath name) (some (.attempt i)) := by
  have hshown := hg.dirs name
  unfold Cgroup.initCgroup Cgroup.mkdir
  rw [getContainerCgroupPath_valid hname (by decide)]
  simp only
  split
  · rename_i hfail
    by_cases hearly : e .controllers = true ∨ e .parent = true
    · rw [if_pos hearly]
      exact ⟨g, rfl, rfl⟩
    · rw [if_neg hearly, if_pos]
      · exact ⟨_, rfl, rfl⟩
      rcases hfail with hfail | hin
      · rcases he.mkdir.2 hfail with hc | hp | hm
        · exact absurd (Or.inl hc) hearly
        · exact absurd (Or.inr hp) hearly
        · exact Or.inl hm
      · exact Or.inr (hshown.2 hin)
  · rename_i hfine
    rw [not_or] at hfine
    rw [if_neg fun hearly => hfine.1 (he.mkdir.1 (hearly.imp_right Or.inl)), if_neg]
    · exact ⟨_, rfl, rfl⟩
    rintro (hm | hin)
    · exact hfine.1 (he.mkdir.1 (Or.inr (Or.inr hm)))
    · exact hfine.2 (hshown.1 hin)

theorem setLimit_answer (hname : tdValidateName name 127 = .ok ()) {file : Text} (hfile : file.length ≤ 11)
    (fails : Bool) (i : Nat) (value : Text) (g : Cgroup.Host) :
    (Cgroup.setLimit fails i name file value g).2 = !fails := by
  have hbound := (tdValidateName_ok hname).2.1
  have hbase : Cgroup.CGROUP_BASE.length = 27 ∧ "/tinydocker-".toList.length = 12 := by decide
  have hpath : Cgroup.getContainerCgroupFilePath name file =
      some (Cgroup.CGROUP_BASE ++ ("/tinydocker-".toList ++ (name ++ '/' :: file))) := by
    unfold Cgroup.getContainerCgroupFilePath
    simp only
    rw [if_neg]
    rw [List.length_append, List.length_append, List.length_append, List.length_cons, hbase.1, hbase.2]
    omega
  unfold Cgroup.setLimit
  rw [hpath]
  rfl

/-- `set_cgroup_limits` without a CPU set. -/
theorem setCgroupLimits_answer (hname : tdValidateName args.name 127 = .ok ())
    (he : SameAnswers env site name h e) (i : Nat) (g : Cgroup.Host) :
    (Cgroup.setCgroupLimits e i args.name ⟨args.cpu, args.memory, none⟩ g).2 = !limitsFail env args := by
  have hmem : (if 0 < args.memory then Cgroup.setMemLimit e i args.name args.memory g else (g, true)).2 =
      !(decide (0 < args.memory) && env.fails .memoryMax) := by
    split
    · rename_i hpos
      unfold Cgroup.setMemLimit
      rw [if_neg (by omega), setLimit_answer hname (by decide), he.memoryMax, decide_eq_true hpos, Bool.true_and]
    · rename_i hpos
      rw [decide_eq_false hpos]
      rfl
  have hcpu : ∀ g', (if 1000 ≤ args.cpu then Cgroup.setCpuLimit e i args.name args.cpu g' else (g', true)).2 =
      !(decide (1000 ≤ args.cpu) && env.fails .cpuMax) := by
    intro g'
    split
    · rename_i hle
      unfold Cgroup.setCpuLimit
      rw [if_neg (by omega), setLimit_answer hname (by decide), he.cpuMax, decide_eq_true hle, Bool.true_and]
    · rename_i hle
      rw [decide_eq_false hle]
      rfl
  unfold Cgroup.setCgroupLimits limitsFail
  simp only
  generalize (if 0 < args.memory then Cgroup.setMemLimit e i args.name args.memory g else (g, true)) = m at hmem ⊢
  have hcpu := hcpu m.1
  generalize (if 1000 ≤ args.cpu then Cgroup.setCpuLimit e i args.name args.cpu m.1 else (m.1, true)) = c at hcpu ⊢
  generalize (decide (0 < args.memory) && env.fails .memoryMax) = memoryFails at hmem ⊢
  generalize (decide (1000 ≤ args.cpu) && env.fails .cpuMax) = cpuFails at hcpu ⊢
  cases memoryFails with
  | true =>
    have hmem : m.2 = false := hmem
    rw [if_pos hmem]
    exact hmem
  | false =>
    rw [if_neg (by simp [hmem])]
    cases cpuFails with
    | true =>
      have hcpu : c.2 = false := hcpu
      rw [if_pos hcpu]
      exact hcpu
    | false =>
      rw [if_neg (by simp [hcpu])]
      rfl

/-- **`cgroup_prepare`.** -/
theorem cgroupPrepare_refines {st : RunState} (hname : tdValidateName args.name 127 = .ok ())
    (hst : st.cgroupCreated = false) (hg : ShowsCgroups st.host g)
    (he : SameAnswers env .cgroupRollback args.name st.host e) (i : Nat) :
    let c := Cgroup.cgroupPrepare e i (some args.name) (some ⟨args.cpu, args.memory, none⟩) .zero g
    match cgroupPrepare env args st with
    | .ok st' => c.2.2 = 0 ∧ InStep args.name st' c.2.1 c.1
    | .error st' => c.2.2 = -1 ∧ InStep args.name st' c.2.1 c.1 := by
  have hinit := initCgroup_refines hname hg he i
  simp only [Cgroup.cgroupPrepare, Cgroup.prepareDirectory, Cgroup.State.zero, Bool.false_eq_true, if_false,
    getContainerCgroupPath_valid hname (show 1024 ≤ Cgroup.PATH_MAX by decide), cgroupPrepare]
  split at hinit
  · rename_i hfail
    obtain ⟨g', hinit, hdirs⟩ := hinit
    rw [if_pos hfail, hinit]
    refine ⟨rfl, hg.same rfl hdirs, hst.symm, fun hc => ?_⟩
    have hc : false = true := hc
    cases hc
  · rename_i hfine
    obtain ⟨g', hinit, hdirs⟩ := hinit
    have hmade : ShowsCgroups { st.host with cgroups := args.name :: st.host.cgroups } g' :=
      hg.make (not_or.1 hfine).2 (.attempt i) rfl hdirs
    have hlimits := setCgroupLimits_answer hname he i g'
    have hwrote := (Cgroup.setCgroupLimits_wrote e i args.name ⟨args.cpu, args.memory, none⟩ g').dirs
    rw [if_neg hfine, hinit]
    simp only
    rcases hcall : Cgroup.setCgroupLimits e i args.name ⟨args.cpu, args.memory, none⟩ g' with ⟨g'', done⟩
    rw [hcall] at hlimits hwrote
    have hlimits : done = !limitsFail env args := hlimits
    cases hfails : limitsFail env args with
    | false =>
      rw [hfails, Bool.not_false] at hlimits
      subst hlimits
      exact ⟨rfl, hmade.same rfl hwrote, rfl, fun _ => rfl⟩
    | true =>
      rw [hfails, Bool.not_true] at hlimits
      subst hlimits
      have hmade' : ShowsCgroups { st.host with cgroups := args.name :: st.host.cgroups } g'' :=
        hmade.same rfl hwrote
      obtain ⟨hstate, hshows⟩ := cleanup_created hmade' ⟨he.mkdir, he.memoryMax, he.cpuMax, he.procs, he.rmdir⟩ i
      rcases hcall : rmdirCgroup env .cgroupRollback args.name
        { st.host with cgroups := args.name :: st.host.cgroups } with ⟨h', removed⟩
      rw [hcall] at hstate hshows
      have hstate : (Cgroup.cgroupCleanup e i ⟨cgroupPath args.name, true⟩ g'').2.1 =
          if removed = true then ⟨[], false⟩ else ⟨cgroupPath args.name, true⟩ := by
        rw [hstate]
        split <;> rfl
      refine ⟨rfl, hshows, ?_, fun hc => ?_⟩
      · show (Cgroup.cgroupCleanup e i ⟨cgroupPath args.name, true⟩ g'').2.1.created = !removed
        rw [hstate]
        cases removed <;> rfl
      · have hc : (Cgroup.cgroupCleanup e i ⟨cgroupPath args.name, true⟩ g'').2.1.created = true := hc
        show (Cgroup.cgroupCleanup e i ⟨cgroupPath args.name, true⟩ g'').2.1.path = cgroupPath args.name
        rw [hstate] at hc ⊢
        cases removed with
        | true => cases hc
        | false => rfl

/-- **`cgroup_apply`** to the cloned child. -/
theorem cgroupApply_refines {st : RunState} {s : Cgroup.State} (hname : tdValidateName args.name 127 = .ok ())
    (hpid : 0 < env.pid) (hst : st.cgroupCreated = true) (hs : InStep args.name st s g)
    (hprocs : e .procs = env.fails .cgroupProcs) (i : Nat) :
    let c := Cgroup.cgroupApply e i env.pid s g
    match cgroupApply env args st with
    | .ok st' => c.2 = 0 ∧ InStep args.name st' s c.1
    | .error st' => c.2 = -1 ∧ InStep args.name st' s c.1 := by
  have hcreated : s.created = true := hs.created.trans hst
  have hpath := hs.path hcreated
  have hbound := (tdValidateName_ok hname).2.1
  have hbase : Cgroup.CGROUP_BASE.length = 27 ∧ "/tinydocker-".toList.length = 12 ∧
      "/cgroup.procs".toList.length = 13 := by decide
  have hlen : ¬ Cgroup.PATH_MAX ≤ (s.path ++ "/cgroup.procs".toList).length := by
    rw [hpath, cgroupPath, List.length_append, List.length_append, List.length_append, hbase.1, hbase.2.1, hbase.2.2,
      Cgroup.PATH_MAX]
    omega
  have hgood : ¬ (s.created = false ∨ s.path = [] ∨ (env.pid : Int) ≤ 0) := by
    rw [hcreated, hpath]
    rintro (hc | hc | hc)
    · cases hc
    · exact absurd hc (List.append_ne_nil_of_left_ne_nil (by decide) _)
    · omega
  simp only [Cgroup.cgroupApply, if_neg hgood, if_neg hlen, Cgroup.writeFile, hprocs, cgroupApply]
  cases env.fails .cgroupProcs with
  | true => exact ⟨rfl, hs.shows.same rfl rfl, hs.created, hs.path⟩
  | false => exact ⟨rfl, hs.shows.same rfl rfl, hs.created, hs.path⟩

/-- **`cgroup_cleanup`** of a start that fails. -/
theorem cgroupCleanup_refines {st : RunState} {s : Cgroup.State} (hs : InStep name st s g)
    (he : SameAnswers env .cgroupRmdir name st.host e) (i : Nat) :
    ShowsCgroups (cgroupCleanup env name st.cgroupCreated st.host) (Cgroup.cgroupCleanup e i s g).1 ∧
      ((Cgroup.cgroupCleanup e i s g).2.2 = 0 ↔
        st.cgroupCreated = true → (rmdirCgroup env .cgroupRmdir name st.host).2 = true) := by
  obtain ⟨hshows, hcreated, hpath⟩ := hs
  unfold cgroupCleanup
  rw [← hcreated]
  by_cases hc : s.created = true
  · obtain rfl : s = ⟨cgroupPath name, true⟩ := by rw [← hpath hc, ← hc]
    obtain ⟨hstate, hshows'⟩ := cleanup_created hshows he i
    refine ⟨hshows', ?_⟩
    rw [hstate]
    split
    · rename_i hgone
      simp [hgone]
    · rename_i hleft
      simp [hleft]
  · have hfalse : s.created = false := by simpa using hc
    rw [if_neg hc, Cgroup.cgroupCleanup_of_not_created hfalse]
    exact ⟨hshows, by simp [hfalse]⟩

/-! ## The attempt -/

/-- **A `docker run` is an attempt**: where its `cgroup_prepare` is not interrupted, the steps of an attempt that
has not begun lead to the result of the stage. -/
theorem cgroupPrepare_run {st : RunState} {w : Cgroup.World} {i : Nat} (hname : tdValidateName args.name 127 = .ok ())
    (hst : st.cgroupCreated = false) (hw : ShowsCgroups st.host w.host)
    (hidle : (w.attempts i).phase = .idle ∧ (w.attempts i).state = .zero)
    (he : SameAnswers env .cgroupRollback args.name st.host e) :
    let w' := w.run [⟨e, i, .prepare (some args.name) (some ⟨args.cpu, args.memory, none⟩)⟩, ⟨e, i, .limits⟩,
      ⟨e, i, .rollback⟩]
    match cgroupPrepare env args st with
    | .ok st' => InStep args.name st' (w'.attempts i).state w'.host
    | .error st' => InStep args.name st' (w'.attempts i).state w'.host := by
  have hsteps := Cgroup.prepare_steps e i (some args.name) (some ⟨args.cpu, args.memory, none⟩) (w.attempts i) w.host
    hidle.1
  have hprepare := cgroupPrepare_refines hname hst hw he i
  rw [hidle.2] at hsteps
  intro w'
  have hworld : w'.host = (Cgroup.cgroupPrepare e i (some args.name) (some ⟨args.cpu, args.memory, none⟩) .zero
      w.host).1 ∧ (w'.attempts i).state = (Cgroup.cgroupPrepare e i (some args.name)
        (some ⟨args.cpu, args.memory, none⟩) .zero w.host).2.1 := by
    simp only [w', Cgroup.World.run, Runs.run, List.foldl_cons, List.foldl_nil, Cgroup.World.step,
      Function.update_self]
    simp only at hsteps
    rw [hsteps]
    exact ⟨rfl, rfl⟩
  rw [hworld.1, hworld.2]
  simp only at hprepare
  split at hprepare
  · exact hprepare.2
  · exact hprepare.2

end TinyDocker
