import Mathlib.Logic.Function.Basic
import TinyDocker.Core.Safety
import TinyDocker.Lib.Runs

/-!
# Cgroup ownership (`docker/cgroup.c`)

Any number of startup attempts, each with its own `cgroup_state`, share the cgroup directories of the
host.  The calls of different attempts interleave between system calls: `cgroupPrepare` has a step up
to its `mkdir`, one for the limits and one for the rollback.

A directory carries the attempt whose `mkdir` made it; the log keeps every system call, the latest
first.

Principal results:

* `run_owned` — in every run `created` says exactly which directories an attempt has made;
* `cgroup_ownership` — one owner for a path, no `rmdir` of a path that the state did not create, and
  what a failed call leaves behind.
-/

set_option autoImplicit false

namespace TinyDocker

open CText

namespace Cgroup

/-- `struct cgroup_config`. -/
structure Config where
  cpu : Int
  memory : Int
  cpuset : Option Text

/-- `struct cgroup_state`. -/
structure State where
  path : Text
  created : Bool
  deriving DecidableEq, Repr

def State.zero : State := ⟨[], false⟩

inductive Maker where
  | foreign
  | attempt (i : Nat)
  deriving DecidableEq, Repr

inductive Syscall where
  | mkdir (path : Text)
  | rmdir (path : Text)
  | write (file value : Text)
  deriving DecidableEq, Repr

structure Entry where
  attempt : Nat
  call : Syscall
  ok : Bool
  deriving DecidableEq, Repr

/-- What the attempts share. -/
structure Host where
  dirs : Text → Option Maker
  log : List Entry

/-- A call that may fail. -/
inductive Site where
  | controllers
  | parent
  | mkdir
  | memoryMax
  | cpuMax
  | cpusetCpus
  | procs
  | rmdir
  deriving DecidableEq, Repr

abbrev Env : Type := Site → Bool

/-! ## System calls -/

/-- `mkdir` is exclusive. -/
def mkdir (fails : Bool) (i : Nat) (path : Text) (h : Host) : Host × Bool :=
  if fails ∨ (h.dirs path).isSome then (⟨h.dirs, ⟨i, .mkdir path, false⟩ :: h.log⟩, false)
  else (⟨Function.update h.dirs path (some (.attempt i)), ⟨i, .mkdir path, true⟩ :: h.log⟩, true)

/-- `rmdir`; the flag says that the directory is gone, so that `ENOENT` counts. -/
def rmdir (fails : Bool) (i : Nat) (path : Text) (h : Host) : Host × Bool :=
  match h.dirs path with
  | none => (⟨h.dirs, ⟨i, .rmdir path, false⟩ :: h.log⟩, true)
  | some _ =>
    if fails then (⟨h.dirs, ⟨i, .rmdir path, false⟩ :: h.log⟩, false)
    else (⟨Function.update h.dirs path none, ⟨i, .rmdir path, true⟩ :: h.log⟩, true)

/-- `write_file`. -/
def writeFile (fails : Bool) (i : Nat) (file value : Text) (h : Host) : Host × Bool :=
  (⟨h.dirs, ⟨i, .write file value, !fails⟩ :: h.log⟩, !fails)

/-! ## The code -/

def PATH_MAX : Nat := 4096

def CGROUP_BASE : Text := "/sys/fs/cgroup/system.slice".toList

/-- `get_container_cgroup_path` into a buffer of that size. -/
def getContainerCgroupPath (name : Text) (size : Nat) : Option Text :=
  if tdValidateName name 127 ≠ .ok () then none
  else
    let path := CGROUP_BASE ++ ("/tinydocker-".toList ++ name)
    if size ≤ path.length then none else some path

/-- `get_container_cgroup_file_path` into a buffer of 256 bytes. -/
def getContainerCgroupFilePath (name file : Text) : Option Text :=
  let path := CGROUP_BASE ++ ("/tinydocker-".toList ++ (name ++ '/' :: file))
  if 256 ≤ path.length then none else some path

def decimalText (n : Int) : Text := (toString n).toList

/-- `init_cgroup`. -/
def initCgroup (env : Env) (i : Nat) (name : Text) (h : Host) : Host × Bool :=
  if env .controllers ∨ env .parent then (h, false)
  else match getContainerCgroupPath name 1024 with
    | none => (h, false)
    | some path => mkdir (env .mkdir) i path h

/-- `set_mem_limit`, `set_cpu_limit` and `set_cpuset_limit` differ in the file, its value and the check of
the value. -/
def setLimit (fails : Bool) (i : Nat) (name file value : Text) (h : Host) : Host × Bool :=
  match getContainerCgroupFilePath name file with
  | none => (h, false)
  | some path => writeFile fails i path value h

def setMemLimit (env : Env) (i : Nat) (name : Text) (memMax : Int) (h : Host) : Host × Bool :=
  if memMax ≤ 0 then (h, false)
  else setLimit (env .memoryMax) i name "memory.max".toList (decimalText memMax) h

def setCpuLimit (env : Env) (i : Nat) (name : Text) (cpuTime : Int) (h : Host) : Host × Bool :=
  if cpuTime < 1000 then (h, false)
  else setLimit (env .cpuMax) i name "cpu.max".toList (decimalText cpuTime ++ " 100000".toList) h

def setCpusetLimit (env : Env) (i : Nat) (name cpus : Text) (h : Host) : Host × Bool :=
  setLimit (env .cpusetCpus) i name "cpuset.cpus".toList cpus h

/-- `set_cgroup_limits`: the first failure ends it. -/
def setCgroupLimits (env : Env) (i : Nat) (name : Text) (config : Config) (h : Host) : Host × Bool :=
  let m := if 0 < config.memory then setMemLimit env i name config.memory h else (h, true)
  if m.2 = false then m
  else
    let c := if 1000 ≤ config.cpu then setCpuLimit env i name config.cpu m.1 else (m.1, true)
    if c.2 = false then c
    else match config.cpuset with
      | none => (c.1, true)
      | some cpus => setCpusetLimit env i name cpus c.1

/-- `cgroup_cleanup`. -/
def cgroupCleanup (env : Env) (i : Nat) (st : State) (h : Host) : Host × State × Int :=
  if st.created = false then (h, st, 0)
  else if st.path = [] then (h, st, -1)
  else match rmdir (env .rmdir) i st.path h with
    | (h, false) => (h, st, -1)
    | (h, true) => (h, ⟨[], false⟩, 0)

/-- `cgroup_prepare` up to its `mkdir`; the flag says that it goes on to the limits. -/
def prepareDirectory (env : Env) (i : Nat) (name : Option Text) (config : Option Config) (st : State)
    (h : Host) : Host × State × Bool :=
  match name, config with
  | some name, some _ =>
    if st.created then (h, st, false)
    else match getContainerCgroupPath name PATH_MAX with
      | none => (h, .zero, false)
      | some path =>
        match initCgroup env i name h with
        | (h, false) => (h, ⟨path, false⟩, false)
        | (h, true) => (h, ⟨path, true⟩, true)
  | _, _ => (h, st, false)

/-- `cgroup_prepare`; the parts of it that the interleaving keeps apart. -/
def cgroupPrepare (env : Env) (i : Nat) (name : Option Text) (config : Option Config) (st : State)
    (h : Host) : Host × State × Int :=
  match prepareDirectory env i name config st h, name, config with
  | (h, st, true), some name, some config =>
    match setCgroupLimits env i name config h with
    | (h, true) => (h, st, 0)
    | (h, false) =>
      let c := cgroupCleanup env i st h
      (c.1, c.2.1, -1)
  | (h, st, _), _, _ => (h, st, -1)

/-- `cgroup_apply`. -/
def cgroupApply (env : Env) (i : Nat) (pid : Int) (st : State) (h : Host) : Host × Int :=
  if st.created = false ∨ st.path = [] ∨ pid ≤ 0 then (h, -1)
  else
    let procs := st.path ++ "/cgroup.procs".toList
    if PATH_MAX ≤ procs.length then (h, -1)
    else match writeFile (env .procs) i procs (decimalText pid ++ ['\n']) h with
      | (h, true) => (h, 0)
      | (h, false) => (h, -1)

/-! ## Interleaved attempts -/

/-- Where an attempt is: between calls, or inside `cgroup_prepare`, called on the state `entry`. -/
inductive Phase where
  | idle
  | limits (name : Text) (config : Config) (entry : State)
  | rollback (name : Text) (config : Config) (entry : State)

/-- The last call that returned, with the state it was called on. -/
inductive Returned where
  | prepare (name : Option Text) (config : Option Config) (entry : State) (result : Int)
  | apply (result : Int)
  | cleanup (entry : State) (result : Int)

structure Attempt where
  state : State
  phase : Phase
  returned : Option Returned

inductive Action where
  | prepare (name : Option Text) (config : Option Config)
  | limits
  | rollback
  | apply (pid : Int)
  | cleanup

/-- One step of attempt `i`; an action that does not fit its phase does nothing. -/
def Attempt.step (env : Env) (i : Nat) (a : Attempt) (h : Host) : Action → Host × Attempt
  | .prepare name config =>
    match a.phase with
    | .idle =>
      match prepareDirectory env i name config a.state h, name, config with
      | (h, st, true), some name, some config => (h, ⟨st, .limits name config a.state, none⟩)
      | (h, st, _), _, _ => (h, ⟨st, .idle, some (.prepare name config a.state (-1))⟩)
    | _ => (h, a)
  | .limits =>
    match a.phase with
    | .limits name config entry =>
      match setCgroupLimits env i name config h with
      | (h, true) => (h, ⟨a.state, .idle, some (.prepare (some name) (some config) entry 0)⟩)
      | (h, false) => (h, ⟨a.state, .rollback name config entry, none⟩)
    | _ => (h, a)
  | .rollback =>
    match a.phase with
    | .rollback name config entry =>
      let c := cgroupCleanup env i a.state h
      (c.1, ⟨c.2.1, .idle, some (.prepare (some name) (some config) entry (-1))⟩)
    | _ => (h, a)
  | .apply pid =>
    match a.phase with
    | .idle =>
      let r := cgroupApply env i pid a.state h
      (r.1, ⟨a.state, .idle, some (.apply r.2)⟩)
    | _ => (h, a)
  | .cleanup =>
    match a.phase with
    | .idle =>
      let c := cgroupCleanup env i a.state h
      (c.1, ⟨c.2.1, .idle, some (.cleanup a.state c.2.2)⟩)
    | _ => (h, a)

structure World where
  host : Host
  attempts : Nat → Attempt

/-- Zero-initialised attempts on a host with some directories. -/
def World.start (present : Text → Bool) : World :=
  ⟨⟨fun p => if present p then some .foreign else none, []⟩, fun _ => ⟨.zero, .idle, none⟩⟩

structure Step where
  env : Env
  attempt : Nat
  action : Action

def World.step (w : World) (s : Step) : World :=
  let r := (w.attempts s.attempt).step s.env s.attempt w.host s.action
  ⟨r.1, Function.update w.attempts s.attempt r.2⟩

def World.run (w : World) (steps : List Step) : World := Runs.run World.step w steps

/-! ## The log -/

/-- The path of the last successful `mkdir` of an attempt. -/
def lastMkdir (i : Nat) : List Entry → Option Text
  | [] => none
  | ⟨j, .mkdir path, ok⟩ :: rest => if j = i ∧ ok then some path else lastMkdir i rest
  | _ :: rest => lastMkdir i rest

/-- The last system call of an attempt. -/
def lastCall (i : Nat) (log : List Entry) : Option (Syscall × Bool) :=
  (log.find? fun e => decide (e.attempt = i)).map fun e => (e.call, e.ok)

/-- Every `rmdir` is of the path that the last `mkdir` before it has made. -/
def RmdirsOwn : List Entry → Prop
  | [] => True
  | e :: rest => (∀ path, e.call = .rmdir path → lastMkdir e.attempt rest = some path) ∧ RmdirsOwn rest

theorem RmdirsOwn.split : ∀ {after before : List Entry} {e : Entry} {path : Text},
    RmdirsOwn (after ++ e :: before) → e.call = .rmdir path → lastMkdir e.attempt before = some path
  | [], _, _, path, h, he => h.1 path he
  | _ :: after, _, _, _, h, he => @RmdirsOwn.split after _ _ _ h.2 he

theorem lastMkdir_of_ne {i j : Nat} (hij : j ≠ i) : ∀ {entries : List Entry} (log : List Entry),
    (∀ e ∈ entries, e.attempt = i) → lastMkdir j (entries ++ log) = lastMkdir j log
  | [], _, _ => rfl
  | e :: entries, log, h => by
    have ih := lastMkdir_of_ne hij log fun x hx => h x (List.mem_cons_of_mem _ hx)
    have he := h e List.mem_cons_self
    obtain ⟨k, call, ok⟩ := e
    have hk : k ≠ j := fun hkj => hij (hkj.symm.trans he)
    cases call with
    | mkdir path => simp only [List.cons_append, lastMkdir, hk, false_and, if_false, ih]
    | rmdir path => exact ih
    | write file value => exact ih

theorem lastCall_of_ne {i j : Nat} (hij : j ≠ i) : ∀ {entries : List Entry} (log : List Entry),
    (∀ e ∈ entries, e.attempt = i) → lastCall j (entries ++ log) = lastCall j log
  | [], _, _ => rfl
  | e :: entries, log, h => by
    have ih := lastCall_of_ne hij log fun x hx => h x (List.mem_cons_of_mem _ hx)
    have he : ¬ e.attempt = j := fun hej => hij (hej.symm.trans (h e List.mem_cons_self))
    simp only [lastCall, List.cons_append, List.find?_cons, he, decide_false] at ih ⊢
    exact ih

/-! ## What the system calls do -/

/-- What attempt `i` may do to the shared state: make directories and remove its own. -/
structure Acted (i : Nat) (h h' : Host) : Prop where
  dirs : ∀ p, h'.dirs p = h.dirs p ∨ (h.dirs p = none ∧ h'.dirs p = some (.attempt i)) ∨
    (h.dirs p = some (.attempt i) ∧ h'.dirs p = none)
  log : ∃ entries, h'.log = entries ++ h.log ∧ ∀ e ∈ entries, e.attempt = i

theorem Acted.refl (i : Nat) (h : Host) : Acted i h h :=
  ⟨fun _ => Or.inl rfl, [], rfl, fun _ he => (by cases he)⟩

/-- Writes to cgroup files: no directory changes. -/
structure Wrote (i : Nat) (h h' : Host) : Prop where
  dirs : h'.dirs = h.dirs
  log : ∃ entries, h'.log = entries ++ h.log ∧ ∀ e ∈ entries, e.attempt = i ∧ ∃ file value,
    e.call = .write file value

theorem Wrote.refl (i : Nat) (h : Host) : Wrote i h h := ⟨rfl, [], rfl, fun _ he => (by cases he)⟩

theorem Wrote.trans {i : Nat} {h₁ h₂ h₃ : Host} (h : Wrote i h₁ h₂) (h' : Wrote i h₂ h₃) :
    Wrote i h₁ h₃ := by
  obtain ⟨es, hlog, hes⟩ := h.log
  obtain ⟨es', hlog', hes'⟩ := h'.log
  refine ⟨h'.dirs.trans h.dirs, es' ++ es, by rw [hlog', hlog, List.append_assoc], fun e he => ?_⟩
  exact (List.mem_append.1 he).elim (hes' e) (hes e)

theorem Wrote.acted {i : Nat} {h h' : Host} (hw : Wrote i h h') : Acted i h h' := by
  obtain ⟨es, hlog, hes⟩ := hw.log
  exact ⟨fun p => Or.inl (by rw [hw.dirs]), es, hlog, fun e he => (hes e he).1⟩

theorem lastMkdir_writes (i : Nat) : ∀ {entries : List Entry} (log : List Entry),
    (∀ e ∈ entries, ∃ file value, e.call = .write file value) →
      lastMkdir i (entries ++ log) = lastMkdir i log ∧ (RmdirsOwn log → RmdirsOwn (entries ++ log))
  | [], _, _ => ⟨rfl, id⟩
  | ⟨j, call, ok⟩ :: entries, log, h => by
    obtain ⟨hlast, hown⟩ := lastMkdir_writes i log fun x hx => h x (List.mem_cons_of_mem _ hx)
    obtain ⟨file, value, rfl⟩ : ∃ file value, call = .write file value := h _ List.mem_cons_self
    exact ⟨hlast, fun hlog => ⟨fun path he => (by cases he), hown hlog⟩⟩

theorem setLimit_wrote (fails : Bool) (i : Nat) (name file value : Text) (h : Host) :
    Wrote i h (setLimit fails i name file value h).1 := by
  unfold setLimit
  split
  · exact .refl i h
  · refine ⟨rfl, [_], rfl, fun e he => ?_⟩
    rw [List.mem_singleton.1 he]
    exact ⟨rfl, _, _, rfl⟩

theorem setCgroupLimits_wrote (env : Env) (i : Nat) (name : Text) (config : Config) (h : Host) :
    Wrote i h (setCgroupLimits env i name config h).1 := by
  have hmem : Wrote i h (if 0 < config.memory then setMemLimit env i name config.memory h else (h, true)).1 := by
    split
    · unfold setMemLimit
      split
      · exact .refl i h
      · exact setLimit_wrote ..
    · exact .refl i h
  have hcpu : ∀ g, Wrote i g
      (if 1000 ≤ config.cpu then setCpuLimit env i name config.cpu g else (g, true)).1 := by
    intro g
    split
    · unfold setCpuLimit
      split
      · exact .refl i g
      · exact setLimit_wrote ..
    · exact .refl i g
  unfold setCgroupLimits
  simp only
  generalize (if 0 < config.memory then setMemLimit env i name config.memory h else (h, true)) = m at hmem ⊢
  have hcpu := hcpu m.1
  generalize (if 1000 ≤ config.cpu then setCpuLimit env i name config.cpu m.1 else (m.1, true)) = c at hcpu ⊢
  split
  · exact hmem
  split
  · exact hmem.trans hcpu
  split
  · exact hmem.trans hcpu
  · exact (hmem.trans hcpu).trans (setLimit_wrote ..)

theorem cgroupApply_wrote (env : Env) (i : Nat) (pid : Int) (st : State) (h : Host) :
    Wrote i h (cgroupApply env i pid st h).1 := by
  have hwrite : ∀ file value, Wrote i h (writeFile (env .procs) i file value h).1 := by
    intro file value
    refine ⟨rfl, [_], rfl, fun e he => ?_⟩
    rw [List.mem_singleton.1 he]
    exact ⟨rfl, _, _, rfl⟩
  unfold cgroupApply
  split
  · exact .refl i h
  simp only
  split
  · exact .refl i h
  split
  · rename_i hw
    have := hwrite (st.path ++ "/cgroup.procs".toList) (decimalText pid ++ ['\n'])
    rwa [hw] at this
  · rename_i hw
    have := hwrite (st.path ++ "/cgroup.procs".toList) (decimalText pid ++ ['\n'])
    rwa [hw] at this

/-! ## Ownership -/

/-- The state of attempt `i` says exactly which directory it has made. -/
structure Owns (i : Nat) (st : State) (h : Host) : Prop where
  held : st.created = true →
    h.dirs st.path = some (.attempt i) ∧ st.path ≠ [] ∧ lastMkdir i h.log = some st.path
  only : ∀ p, h.dirs p = some (.attempt i) → st.created = true ∧ st.path = p

theorem Owns.wrote {i : Nat} {st : State} {h h' : Host} (ho : Owns i st h) (hw : Wrote i h h') :
    Owns i st h' := by
  obtain ⟨es, hlog, hes⟩ := hw.log
  have hlast := (lastMkdir_writes i h.log fun e he => (hes e he).2).1
  refine ⟨fun hc => ?_, fun p hp => ho.only p (hw.dirs ▸ hp)⟩
  rw [hw.dirs, hlog, hlast]
  exact ho.held hc

theorem Wrote.rmdirsOwn {i : Nat} {h h' : Host} (hw : Wrote i h h') (hr : RmdirsOwn h.log) :
    RmdirsOwn h'.log := by
  obtain ⟨es, hlog, hes⟩ := hw.log
  rw [hlog]
  exact (lastMkdir_writes i h.log fun e he => (hes e he).2).2 hr

/-- Another attempt's action does not touch what `j` owns. -/
theorem Owns.others {i j : Nat} {st : State} {h h' : Host} (ho : Owns j st h) (ha : Acted i h h')
    (hij : j ≠ i) : Owns j st h' := by
  obtain ⟨es, hlog, hes⟩ := ha.log
  have hmaker : ∀ p, h'.dirs p = some (.attempt j) ↔ h.dirs p = some (.attempt j) := by
    intro p
    rcases ha.dirs p with hd | ⟨hd, hd'⟩ | ⟨hd, hd'⟩
    · rw [hd]
    · rw [hd, hd']
      simp [Ne.symm hij]
    · rw [hd, hd']
      simp [Ne.symm hij]
  refine ⟨fun hc => ?_, fun p hp => ho.only p ((hmaker p).1 hp)⟩
  obtain ⟨hdir, hne, hlast⟩ := ho.held hc
  refine ⟨(hmaker _).2 hdir, hne, ?_⟩
  rw [hlog, lastMkdir_of_ne hij h.log hes]
  exact hlast

/-- What `cgroup_cleanup` does on a state that is in step with the host. -/
theorem cgroupCleanup_spec (env : Env) {i : Nat} {st : State} {h : Host} (ho : Owns i st h)
    (hr : RmdirsOwn h.log) {h' : Host} {st' : State} {r : Int}
    (he : cgroupCleanup env i st h = (h', st', r)) :
    Owns i st' h' ∧ Acted i h h' ∧ RmdirsOwn h'.log ∧
      ((r = 0 ∧ st'.created = false) ∨
        (r = -1 ∧ st' = st ∧ st.created = true ∧ lastCall i h'.log = some (.rmdir st.path, false))) := by
  unfold cgroupCleanup at he
  split at he
  · rename_i hc
    cases he
    exact ⟨ho, .refl i h, hr, Or.inl ⟨rfl, hc⟩⟩
  rename_i hc
  have hc : st.created = true := by simpa using hc
  obtain ⟨hdir, hne, hlast⟩ := ho.held hc
  rw [if_neg hne] at he
  simp only [rmdir, hdir] at he
  have hrm : ∀ ok, RmdirsOwn (⟨i, .rmdir st.path, ok⟩ :: h.log) := by
    intro ok
    refine ⟨fun path hp => ?_, hr⟩
    cases hp
    exact hlast
  cases hf : env .rmdir with
  | true =>
    simp only [hf, if_true] at he
    cases he
    refine ⟨⟨fun _ => ⟨hdir, hne, hlast⟩, ho.only⟩, ⟨fun p => Or.inl rfl, [_], rfl, fun e he => ?_⟩, hrm _,
      Or.inr ⟨rfl, rfl, hc, ?_⟩⟩
    · rw [List.mem_singleton.1 he]
    · simp [lastCall]
  | false =>
    simp only [hf, Bool.false_eq_true, if_false] at he
    cases he
    refine ⟨⟨fun hf => (by cases hf), fun p hp => ?_⟩, ⟨fun p => ?_, [_], rfl, fun e he => ?_⟩, hrm _,
      Or.inl ⟨rfl, rfl⟩⟩
    · -- the one directory of `i` is gone
      exfalso
      simp only [Function.update_apply] at hp
      split at hp
      · cases hp
      · rename_i hne'
        exact hne' (ho.only p hp).2.symm
    · by_cases hp : p = st.path
      · rw [hp]
        exact Or.inr (Or.inr ⟨hdir, by simp⟩)
      · exact Or.inl (by simp [hp])
    · rw [List.mem_singleton.1 he]

theorem getContainerCgroupPath_eq {name path : Text} {size : Nat}
    (h : getContainerCgroupPath name size = some path) :
    path = CGROUP_BASE ++ ("/tinydocker-".toList ++ name) := by
  unfold getContainerCgroupPath at h
  split at h
  · cases h
  simp only at h
  split at h
  · cases h
  · cases h
    rfl

/-- `init_cgroup` makes the directory, fails without a call, or fails in its `mkdir`. -/
theorem initCgroup_cases (env : Env) (i : Nat) (name : Text) {path : Text} {size : Nat}
    (hp : getContainerCgroupPath name size = some path) (h : Host) :
    initCgroup env i name h = (h, false) ∨
      initCgroup env i name h = (⟨h.dirs, ⟨i, .mkdir path, false⟩ :: h.log⟩, false) ∨
      (h.dirs path = none ∧ initCgroup env i name h =
        (⟨Function.update h.dirs path (some (.attempt i)), ⟨i, .mkdir path, true⟩ :: h.log⟩, true)) := by
  unfold initCgroup
  split
  · exact Or.inl rfl
  split
  · exact Or.inl rfl
  rename_i path' hp'
  rw [getContainerCgroupPath_eq hp', ← getContainerCgroupPath_eq hp]
  unfold mkdir
  split
  · exact Or.inr (Or.inl rfl)
  · rename_i hno
    simp only [not_or, Option.not_isSome_iff_eq_none] at hno
    exact Or.inr (Or.inr ⟨hno.2, rfl⟩)

/-- The part of `cgroup_prepare` up to its `mkdir`. -/
theorem prepareDirectory_spec (env : Env) {i : Nat} (name : Option Text) (config : Option Config)
    {st : State} {h : Host} (ho : Owns i st h) (hr : RmdirsOwn h.log) {h' : Host} {st' : State} {goOn : Bool}
    (he : prepareDirectory env i name config st h = (h', st', goOn)) :
    Owns i st' h' ∧ Acted i h h' ∧ RmdirsOwn h'.log ∧
      (goOn = true → (∃ n c, name = some n ∧ config = some c) ∧ st'.created = true ∧ st.created = false) ∧
      (goOn = false → (st.created = true → st' = st) ∧ (st.created = false → st'.created = false)) := by
  have hkeep : Owns i st h ∧ Acted i h h ∧ RmdirsOwn h.log ∧
      (false = true → (∃ n c, name = some n ∧ config = some c) ∧ st.created = true ∧ st.created = false) ∧
      (false = false → (st.created = true → st = st) ∧ (st.created = false → st.created = false)) :=
    ⟨ho, .refl i h, hr, fun hc => (by cases hc), fun _ => ⟨fun _ => rfl, id⟩⟩
  unfold prepareDirectory at he
  split at he
  · rename_i name _
    split at he
    · cases he
      exact hkeep
    rename_i hc
    have hc : st.created = false := by simpa using hc
    -- a state that owns nothing stays so under any path
    have hnone : ∀ path, Owns i ⟨path, false⟩ h := fun path =>
      ⟨fun hf => (by cases hf), fun p hp => by
        have := (ho.only p hp).1
        rw [hc] at this
        cases this⟩
    split at he
    · cases he
      exact ⟨hnone [], .refl i h, hr, fun hf => (by cases hf), fun _ => ⟨fun hf => (by simp [hc] at hf),
        fun _ => rfl⟩⟩
    rename_i path hpath
    have hne : path ≠ [] := by
      rw [getContainerCgroupPath_eq hpath]
      exact List.append_ne_nil_of_left_ne_nil (by decide) _
    rcases initCgroup_cases env i name hpath h with hi | hi | ⟨hfree, hi⟩
    · rw [hi] at he
      cases he
      exact ⟨hnone path, .refl i h, hr, fun hf => (by cases hf), fun _ => ⟨fun hf => (by simp [hc] at hf),
        fun _ => rfl⟩⟩
    · rw [hi] at he
      cases he
      refine ⟨⟨fun hf => (by cases hf), fun p hp => ((hnone path).only p hp)⟩,
        ⟨fun p => Or.inl rfl, [_], rfl, fun e he => ?_⟩, ⟨fun p hf => (by cases hf), hr⟩,
        fun hf => (by cases hf), fun _ => ⟨fun hf => (by simp [hc] at hf), fun _ => rfl⟩⟩
      rw [List.mem_singleton.1 he]
    · rw [hi] at he
      cases he
      refine ⟨⟨fun _ => ⟨by simp, hne, by simp [lastMkdir]⟩, fun p hp => ⟨rfl, ?_⟩⟩,
        ⟨fun p => ?_, [_], rfl, fun e he => ?_⟩, ⟨fun p hf => (by cases hf), hr⟩, fun _ => ⟨⟨_, _, rfl, rfl⟩, rfl, hc⟩,
        fun hf => (by cases hf)⟩
      · simp only [Function.update_apply] at hp
        split at hp
        · rename_i heq
          exact heq.symm
        · cases ((hnone path).only p hp).1
      · by_cases hp : p = path
        · rw [hp]
          exact Or.inr (Or.inl ⟨hfree, by simp⟩)
        · exact Or.inl (by simp [hp])
      · rw [List.mem_singleton.1 he]
  · cases he
    exact hkeep

/-! ## Runs -/

/-- What the result of the last call says about the state. -/
def ReturnOk (i : Nat) (st : State) (h : Host) : Option Returned → Prop
  | none => True
  | some (.prepare _ _ entry result) =>
    (entry.created = true → result = -1 ∧ st = entry) ∧
    (entry.created = false → result = 0 ∨ st.created = false ∨
      (st.created = true ∧ lastCall i h.log = some (.rmdir st.path, false)))
  | some (.apply _) => True
  | some (.cleanup _ result) => result = 0 → st.created = false

/-- Inside `cgroup_prepare` the directory is made. -/
def PhaseOk (st : State) : Phase → Prop
  | .idle => True
  | .limits _ _ entry => st.created = true ∧ entry.created = false
  | .rollback _ _ entry => st.created = true ∧ entry.created = false

structure AttemptOk (i : Nat) (a : Attempt) (h : Host) : Prop where
  owns : Owns i a.state h
  phase : PhaseOk a.state a.phase
  returned : ReturnOk i a.state h a.returned
  between : a.returned ≠ none → a.phase = .idle

theorem ReturnOk.others {i j : Nat} {st : State} {h h' : Host} {r : Option Returned}
    (hr : ReturnOk j st h r) (ha : Acted i h h') (hij : j ≠ i) : ReturnOk j st h' r := by
  obtain ⟨es, hlog, hes⟩ := ha.log
  have hlast : lastCall j h'.log = lastCall j h.log := by
    rw [hlog, lastCall_of_ne hij h.log hes]
  match r, hr with
  | none, _ => trivial
  | some (.prepare _ _ _ _), hr => exact ⟨hr.1, fun hc => hlast ▸ hr.2 hc⟩
  | some (.apply _), _ => trivial
  | some (.cleanup _ _), hr => exact hr

/-- **One step of an attempt.** -/
theorem step_attempt (env : Env) {i : Nat} {a : Attempt} {h : Host} (hok : AttemptOk i a h)
    (hr : RmdirsOwn h.log) (act : Action) :
    AttemptOk i (a.step env i h act).2 (a.step env i h act).1 ∧ Acted i h (a.step env i h act).1 ∧
      RmdirsOwn (a.step env i h act).1.log := by
  have hidle : AttemptOk i a h ∧ Acted i h h ∧ RmdirsOwn h.log := ⟨hok, .refl i h, hr⟩
  cases act with
  | prepare name config =>
    simp only [Attempt.step]
    split
    · split
      · rename_i st name config hp
        obtain ⟨ho, ha, hr', hgo, -⟩ := prepareDirectory_spec env _ _ hok.owns hr hp
        exact ⟨⟨ho, (hgo rfl).2, trivial, fun hc => absurd rfl hc⟩, ha, hr'⟩
      · rename_i h' st goOn hlast hp
        obtain ⟨ho, ha, hr', hgo, hstop⟩ := prepareDirectory_spec env _ _ hok.owns hr hp
        have hfalse : goOn = false := by
          by_contra hne
          have htrue : goOn = true := by simpa using hne
          obtain ⟨⟨n, c, rfl, rfl⟩, -⟩ := hgo htrue
          exact hlast n c rfl rfl htrue
        obtain ⟨howned, hfree⟩ := hstop hfalse
        refine ⟨⟨ho, trivial, ⟨fun hc => ⟨rfl, howned hc⟩, fun hc => ?_⟩, fun _ => rfl⟩, ha, hr'⟩
        exact Or.inr (Or.inl (hfree hc))
    · exact hidle
  | limits =>
    simp only [Attempt.step]
    split
    · rename_i name config entry hphase
      have hph : a.state.created = true ∧ entry.created = false := by
        have := hok.phase
        rwa [hphase] at this
      have hw := setCgroupLimits_wrote env i name config h
      split
      · rename_i h' hs
        rw [hs] at hw
        refine ⟨⟨hok.owns.wrote hw, trivial, ⟨fun hc => ?_, fun _ => Or.inl rfl⟩, fun _ => rfl⟩, hw.acted,
          hw.rmdirsOwn hr⟩
        rw [hph.2] at hc
        cases hc
      · rename_i h' hs
        rw [hs] at hw
        exact ⟨⟨hok.owns.wrote hw, hph, trivial, fun hc => absurd rfl hc⟩, hw.acted, hw.rmdirsOwn hr⟩
    · exact hidle
  | rollback =>
    simp only [Attempt.step]
    split
    · rename_i name config entry hphase
      have hph : a.state.created = true ∧ entry.created = false := by
        have := hok.phase
        rwa [hphase] at this
      rcases hcl : cgroupCleanup env i a.state h with ⟨h', st', r⟩
      obtain ⟨ho, ha, hr', hres⟩ := cgroupCleanup_spec env hok.owns hr hcl
      refine ⟨⟨ho, trivial, ⟨fun hc => ?_, fun _ => ?_⟩, fun _ => rfl⟩, ha, hr'⟩
      · rw [hph.2] at hc
        cases hc
      · rcases hres with ⟨-, hc⟩ | ⟨-, rfl, hc, hlast⟩
        · exact Or.inr (Or.inl hc)
        · exact Or.inr (Or.inr ⟨hc, hlast⟩)
    · exact hidle
  | apply pid =>
    simp only [Attempt.step]
    split
    · have hw := cgroupApply_wrote env i pid a.state h
      exact ⟨⟨hok.owns.wrote hw, trivial, trivial, fun _ => rfl⟩, hw.acted, hw.rmdirsOwn hr⟩
    · exact hidle
  | cleanup =>
    simp only [Attempt.step]
    split
    · rcases hcl : cgroupCleanup env i a.state h with ⟨h', st', r⟩
      obtain ⟨ho, ha, hr', hres⟩ := cgroupCleanup_spec env hok.owns hr hcl
      refine ⟨⟨ho, trivial, fun hz => ?_, fun _ => rfl⟩, ha, hr'⟩
      rcases hres with ⟨-, hc⟩ | ⟨hm, -⟩
      · exact hc
      · have hz : r = 0 := hz
        omega
    · exact hidle

/-- The steps of a `cgroup_prepare` that nothing interrupts are the call. -/
theorem prepare_steps (env : Env) (i : Nat) (name : Option Text) (config : Option Config) (a : Attempt)
    (h : Host) (hidle : a.phase = .idle) :
    let s₁ := a.step env i h (.prepare name config)
    let s₂ := s₁.2.step env i s₁.1 .limits
    let s₃ := s₂.2.step env i s₂.1 .rollback
    let c := cgroupPrepare env i name config a.state h
    s₃ = (c.1, ⟨c.2.1, .idle, some (.prepare name config a.state c.2.2)⟩) := by
  simp only [Attempt.step, hidle, cgroupPrepare]
  rcases prepareDirectory env i name config a.state h with ⟨h₁, st₁, goOn⟩
  cases goOn with
  | false => simp
  | true =>
    cases name with
    | none => simp
    | some n =>
      cases config with
      | none => simp
      | some c =>
        simp only
        rcases setCgroupLimits env i n c h₁ with ⟨h₂, limits⟩
        cases limits <;> simp

/-- In step with the host: every attempt, and the log. -/
structure Owned (w : World) : Prop where
  attempts : ∀ i, AttemptOk i (w.attempts i) w.host
  log : RmdirsOwn w.host.log

theorem start_owned (present : Text → Bool) : Owned (World.start present) := by
  refine ⟨fun i => ⟨⟨fun hc => (by cases hc), fun p hp => ?_⟩, trivial, trivial, fun _ => rfl⟩, trivial⟩
  simp only [World.start] at hp
  split at hp <;> cases hp

theorem step_owned {w : World} (hw : Owned w) (s : Step) : Owned (w.step s) := by
  obtain ⟨hok, ha, hr⟩ := step_attempt s.env (hw.attempts s.attempt) hw.log s.action
  refine ⟨fun j => ?_, hr⟩
  simp only [World.step]
  by_cases hj : j = s.attempt
  · rw [hj, Function.update_self]
    exact hok
  · rw [Function.update_of_ne hj]
    have hold := hw.attempts j
    exact ⟨hold.owns.others ha hj, hold.phase, hold.returned.others ha hj, hold.between⟩

theorem run_owned (steps : List Step) {w : World} (hw : Owned w) : Owned (w.run steps) :=
  Runs.run_keeps (I := Owned) (fun _ s h => step_owned h s) hw

/-- A cleanup of a state that owns nothing does nothing. -/
theorem cgroupCleanup_of_not_created {env : Env} {i : Nat} {st : State} {h : Host}
    (hc : st.created = false) : cgroupCleanup env i st h = (h, st, 0) := by
  unfold cgroupCleanup
  rw [if_pos hc]

/-- A cleanup whose `rmdir` works releases what the state owns. -/
theorem cgroupCleanup_releases {env : Env} {i : Nat} {st : State} {h : Host} (ho : Owns i st h)
    (hc : st.created = true) (hf : env .rmdir = false) :
    (cgroupCleanup env i st h).2 = (⟨[], false⟩, 0) ∧ (cgroupCleanup env i st h).1.dirs st.path = none := by
  obtain ⟨hdir, hne, -⟩ := ho.held hc
  unfold cgroupCleanup
  rw [if_neg (by simp [hc]), if_neg hne]
  simp [rmdir, hdir, hf]

/-- **Cgroup ownership.**  In every interleaving of the calls of any number of attempts, whatever
fails: a path has at most one owner; a state removes only the path of its own last `mkdir`; a failed
`cgroup_prepare` leaves no directory of its own, or an owned one whose `rmdir` failed and which a later
cleanup can remove; on an owning state it changes nothing; and a repeated cleanup does nothing. -/
theorem cgroup_ownership (present : Text → Bool) (steps : List Step) :
    let w := (World.start present).run steps
    (∀ i j, (w.attempts i).state.created = true → (w.attempts j).state.created = true →
      (w.attempts i).state.path = (w.attempts j).state.path → i = j) ∧
    (∀ i path ok after before, w.host.log = after ++ ⟨i, .rmdir path, ok⟩ :: before →
      lastMkdir i before = some path) ∧
    (∀ i name config entry result, (w.attempts i).returned = some (.prepare name config entry result) →
      entry.created = false → result ≠ 0 →
        ((w.attempts i).state.created = false ∧ ∀ p, w.host.dirs p ≠ some (.attempt i)) ∨
        ((w.attempts i).state.created = true ∧
          w.host.dirs (w.attempts i).state.path = some (.attempt i) ∧
          lastCall i w.host.log = some (.rmdir (w.attempts i).state.path, false) ∧
          ∀ env, env .rmdir = false →
            ((w.step ⟨env, i, .cleanup⟩).attempts i).state.created = false ∧
            (w.step ⟨env, i, .cleanup⟩).host.dirs (w.attempts i).state.path = none)) ∧
    (∀ i name config entry result, (w.attempts i).returned = some (.prepare name config entry result) →
      entry.created = true → result = -1 ∧ (w.attempts i).state = entry) ∧
    (∀ i entry, (w.attempts i).returned = some (.cleanup entry 0) → ∀ env,
      (w.step ⟨env, i, .cleanup⟩).host = w.host ∧
      ((w.step ⟨env, i, .cleanup⟩).attempts i).state = (w.attempts i).state ∧
      ((w.step ⟨env, i, .cleanup⟩).attempts i).returned = some (.cleanup (w.attempts i).state 0)) := by
  intro w
  have hw : Owned w := run_owned steps (start_owned present)
  refine ⟨fun i j hi hj hp => ?_, fun i path ok after before hlog => ?_,
    fun i name config entry result hret hentry hres => ?_, fun i name config entry result hret hentry => ?_,
    fun i entry hret env => ?_⟩
  · have hdir := ((hw.attempts i).owns.held hi).1
    rw [hp, ((hw.attempts j).owns.held hj).1] at hdir
    cases hdir
    rfl
  · have hown := hw.log
    rw [hlog] at hown
    exact hown.split rfl
  · have hok := hw.attempts i
    have hr := hok.returned
    rw [hret] at hr
    have hidle : (w.attempts i).phase = .idle := hok.between (by rw [hret]; simp)
    rcases hr.2 hentry with hz | hc | ⟨hc, hlast⟩
    · exact absurd hz hres
    · refine Or.inl ⟨hc, fun p hp => ?_⟩
      rw [(hok.owns.only p hp).1] at hc
      cases hc
    · refine Or.inr ⟨hc, (hok.owns.held hc).1, hlast, fun env hf => ?_⟩
      obtain ⟨hst, hdir⟩ := @cgroupCleanup_releases env _ _ _ hok.owns hc hf
      simp only [World.step, Attempt.step, hidle, Function.update_self, hst]
      exact ⟨trivial, hdir⟩
  · have hr := (hw.attempts i).returned
    rw [hret] at hr
    exact hr.1 hentry
  · have hok := hw.attempts i
    have hr := hok.returned
    rw [hret] at hr
    have hidle : (w.attempts i).phase = .idle := hok.between (by rw [hret]; simp)
    simp only [World.step, Attempt.step, hidle, Function.update_self, cgroupCleanup_of_not_created (hr rfl)]
    exact ⟨trivial, trivial, trivial⟩

end Cgroup

end TinyDocker
