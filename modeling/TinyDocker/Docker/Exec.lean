import TinyDocker.Lib.Runs
import TinyDocker.Docker.ProcessTable
import TinyDocker.Docker.ProcessEnv

/-!
# `docker exec` (`docker_exec` in `docker/container.c`)

Three processes: the caller, which checks the container, forks the namespace worker and waits for it; the
worker, which moves itself into the cgroup of the container, opens the five namespace files of the init
process, joins them in order, changes to `/` and forks again; and the command, which calls `execve`.  Any
number of such sessions run beside each other and beside the commands of `World.step`, one call at a time,
so that a process may end, be reaped and have its pid reused between any two calls.

Principal results:

* `exec_runs_inside` — a command that runs is in the cgroup of its container and in all five namespaces,
  those of the init process unless that process ended while they were opened;
* `exec_keeps_identity` — `docker exec` leaves what records say about processes true;
* `exec_ends_with_container` — nothing it started outlives a successful `docker stop` or `docker rm`;
* `exec_zero` — it returns 0 only for a command that was executed, or left alone with `-d`.
-/

set_option autoImplicit false

namespace TinyDocker

open CText

namespace Exec

/-- `struct docker_exec_arguments`. -/
structure ExecArguments where
  containerName : Text
  detach : Bool
  env : List (Text × Text)
  containerArgv : List Text
  deriving DecidableEq, Repr

inductive Namespace where
  | ipc
  | uts
  | net
  | mnt
  | pid
  deriving DecidableEq, Repr

def namespaceTypes : List Namespace := [.ipc, .uts, .net, .mnt, .pid]

/-- An open file below `/proc/PID/ns`: its kind, and whose it is. -/
structure NsFile where
  type : Namespace
  pid : Nat
  start : Nat
  deriving DecidableEq, Repr

/-- How a process ends: `WEXITSTATUS` or `WTERMSIG`. -/
inductive Ending where
  | exited (status : Nat)
  | signalled (signal : Nat)
  deriving DecidableEq, Repr

/-- The exit code that stands for it. -/
def Ending.code : Ending → Nat
  | .exited status => status
  | .signalled signal => 128 + signal

structure Worker where
  pid : Nat
  start : Nat
  info : ContainerInfo
  envs : List Text
  inCgroup : Bool
  /-- `namespace_fds`. -/
  files : List NsFile
  joined : List NsFile
  atRoot : Bool
  exit : Option Ending
  deriving DecidableEq, Repr

inductive CommandState where
  | forked
  | executed
  | failed
  deriving DecidableEq, Repr

structure CommandProc where
  pid : Nat
  start : Nat
  state : CommandState
  deriving DecidableEq, Repr

/-- Where the caller is. -/
inductive Caller where
  | start
  | running (info : ContainerInfo)
  | checked (info : ContainerInfo)
  | loaded (info : ContainerInfo) (envs : List Text)
  | waiting
  | returned (code : Int)
  deriving DecidableEq, Repr

structure Session where
  args : ExecArguments
  caller : Caller
  worker : Option Worker
  command : Option CommandProc
  deriving DecidableEq, Repr

/-- What one call is answered; `pid` and `signal` are those of a child, `ending` how the command ends. -/
structure ExecAnswers where
  env : Env
  fails : Bool
  pid : Nat
  signal : Nat
  ending : Ending
  envHost : EnvHost
  envAnswers : EnvAnswers

def isAlive (pid start : Nat) (h : Host) : Bool :=
  h.procs.any fun p => decide (p.pid = pid ∧ p.start = start) && !p.zombie

def hasEnded (pid start : Nat) (h : Host) : Bool :=
  h.procs.any fun p => decide (p.pid = pid ∧ p.start = start) && p.zombie

def findLive (pid : Nat) (h : Host) : Option Proc :=
  h.procs.find? fun p => decide (p.pid = pid) && !p.zombie

/-- `waitpid` for a child that has ended. -/
def reapProcess (pid start : Nat) (h : Host) : Host :=
  { h with procs := h.procs.filter fun p => decide (¬ (p.pid = pid ∧ p.start = start)) }

/-- `get_container_processes_id` with room for 4096 pids. -/
def processList (fails : Bool) (name : Text) (h : Host) : Option (List Nat) :=
  if fails ∨ name ∉ h.cgroups ∨ 4096 < (cgroupProcs name h).length then none
  else some ((cgroupProcs name h).map (·.pid))

def forkFails (a : ExecAnswers) (h : Host) : Prop :=
  a.fails = true ∨ a.pid = 0 ∨ (readProcessStartTime a.pid h).isSome = true

instance (a : ExecAnswers) (h : Host) : Decidable (forkFails a h) :=
  inferInstanceAs (Decidable (_ ∨ _ ∨ _))

def Session.return (s : Session) (code : Int) : Session := { s with caller := .returned code }

/-- The next call of the caller. -/
def Session.callerStep (a : ExecAnswers) (h : Host) (s : Session) : Host × Session :=
  match s.caller with
  | .start =>
    match h.info s.args.containerName with
    | none => (h, s.return (-1))
    | some info =>
      if a.fails then (h, s.return (-1))
      else match refreshContainerStatusIfNeeded a.env s.args.containerName info h with
        | (h, none) => (h, s.return (-1))
        | (h, some info) =>
          (h, if info.status = .running then { s with caller := .running info } else s.return (-1))
  | .running info =>
    match processList a.fails s.args.containerName h with
    | none => (h, s.return (-1))
    | some pids =>
      (h, if pids = [] ∨ info.pid ∉ pids then s.return (-1) else { s with caller := .checked info })
  | .checked info =>
    match loadProcessEnv a.envHost a.envAnswers info.pid (some (s.args.env.map KeyValPair.of))
        s.args.env.length with
    | none => (h, s.return (-1))
    | some envs => (h, { s with caller := .loaded info envs })
  | .loaded info envs =>
    if forkFails a h then (h, s.return (-1))
    else (addProcess a.pid none h, { s with
      caller := .waiting
      worker := some ⟨a.pid, h.clock, info, envs, false, [], [], false, none⟩ })
  | .waiting =>
    match s.worker with
    | none => (h, s)
    | some w =>
      if a.fails then (h, s.return (-1))
      else if hasEnded w.pid w.start h then
        (reapProcess w.pid w.start h, s.return ((w.exit.getD (.signalled a.signal)).code : Int))
      else (h, s)
  | .returned _ => (h, s)

/-- `_exit` of the worker. -/
def Session.exitWorker (s : Session) (w : Worker) (status : Nat) (h : Host) : Host × Session :=
  (endProcess w.pid h, { s with worker := some { w with exit := some (.exited status) } })

/-- How the command has ended, for the worker that waits. -/
def CommandProc.ending (c : CommandProc) (a : ExecAnswers) : Ending :=
  match c.state with
  | .forked => .signalled a.signal
  | .failed => .exited 127
  | .executed => a.ending

/-- The next call of a worker that is alive. -/
def Session.workerCall (a : ExecAnswers) (h : Host) (s : Session) (w : Worker) : Host × Session :=
  if w.inCgroup = false then
    if a.fails ∨ s.args.containerName ∉ h.cgroups then s.exitWorker w 125 h
    else (joinCgroup w.pid s.args.containerName h, { s with worker := some { w with inCgroup := true } })
  else match namespaceTypes[w.files.length]? with
    | some type =>
      match findLive w.info.pid h with
      | none => s.exitWorker w 125 h
      | some p =>
        if a.fails then s.exitWorker w 125 h
        else (h, { s with worker := some { w with files := w.files ++ [⟨type, p.pid, p.start⟩] } })
    | none =>
      -- all five are open before the first is joined
      match w.files[w.joined.length]? with
      | some file =>
        if a.fails then s.exitWorker w 125 h
        else (h, { s with worker := some { w with joined := w.joined ++ [file] } })
      | none =>
        if w.atRoot = false then
          if a.fails then s.exitWorker w 125 h
          else (h, { s with worker := some { w with atRoot := true } })
        else match s.command with
          | none =>
            if forkFails a h then s.exitWorker w 125 h
            -- a child is born into the cgroup of its parent
            else (addProcess a.pid ((findLive w.pid h).bind (·.cgroup)) h,
              { s with command := some ⟨a.pid, h.clock, .forked⟩ })
          | some c =>
            if s.args.detach then s.exitWorker w 0 h
            else if a.fails then s.exitWorker w 125 h
            else if hasEnded c.pid c.start h then
              s.exitWorker w (c.ending a).code (reapProcess c.pid c.start h)
            else (h, s)

def Session.workerStep (a : ExecAnswers) (h : Host) (s : Session) : Host × Session :=
  match s.worker with
  | none => (h, s)
  | some w => if isAlive w.pid w.start h ∧ w.exit = none then s.workerCall a h w else (h, s)

/-- `execve`, or `_exit(127)`. -/
def Session.commandStep (a : ExecAnswers) (h : Host) (s : Session) : Host × Session :=
  match s.command with
  | none => (h, s)
  | some c =>
    if isAlive c.pid c.start h ∧ c.state = .forked then
      if a.fails then (endProcess c.pid h, { s with command := some { c with state := .failed } })
      else (h, { s with command := some { c with state := .executed } })
    else (h, s)

/-! ## Sessions beside commands -/

structure ExecWorld where
  world : World
  sessions : Nat → Option Session

inductive ExecAction where
  | command (c : Command)
  | begin (k : Nat) (args : ExecArguments)
  | caller (k : Nat) (a : ExecAnswers)
  | worker (k : Nat) (a : ExecAnswers)
  | exec (k : Nat) (a : ExecAnswers)

def ExecWorld.act (x : ExecWorld) (k : Nat) (f : Host → Session → Host × Session) : ExecWorld :=
  match x.sessions k with
  | none => x
  | some s => ⟨{ x.world with host := (f x.world.host s).1 },
      Function.update x.sessions k (some (f x.world.host s).2)⟩

def ExecWorld.step (x : ExecWorld) : ExecAction → ExecWorld
  | .command c => { x with world := x.world.step c }
  | .begin k args =>
    if x.sessions k = none then
      { x with sessions := Function.update x.sessions k (some ⟨args, .start, none, none⟩) }
    else x
  | .caller k a => x.act k (Session.callerStep a)
  | .worker k a => x.act k (Session.workerStep a)
  | .exec k a => x.act k (Session.commandStep a)

/-- A host on which no `docker exec` has been started. -/
def ExecWorld.start (w : World) : ExecWorld := ⟨w, fun _ => none⟩

/-- No late status write finds another, live container under its name. -/
def execLateOk (x : ExecWorld) : ExecAction → Prop
  | .command c => lateWriteOk x.world c = true
  | _ => True

instance (x : ExecWorld) (act : ExecAction) : Decidable (execLateOk x act) := by
  unfold execLateOk
  split
  · infer_instance
  · infer_instance

/-! ## What a session has done so far -/

structure Worker.Ok (h : Host) (name : Text) (w : Worker) : Prop where
  born : w.start < h.clock
  recorded : w.info.pidStartTime < h.clock
  outside : w.inCgroup = false → ∀ p ∈ h.procs, Entry w.pid w.start p → p.cgroup = none
  inside : w.inCgroup = true → ∀ p ∈ h.procs, Entry w.pid w.start p → p.cgroup = some name
  types : w.files.map (·.type) = namespaceTypes.take w.files.length
  pids : ∀ f ∈ w.files, f.pid = w.info.pid
  /-- While the init process is there, the files are those of the init process. -/
  init : ∀ p ∈ h.procs, Entry w.info.pid w.info.pidStartTime p →
    ∀ f ∈ w.files, f.start = w.info.pidStartTime
  opened : w.files ≠ [] → w.inCgroup = true
  joined : w.joined <+: w.files
  complete : w.joined ≠ [] → w.files.length = 5
  root : w.atRoot = true → w.joined = w.files ∧ w.files.length = 5

structure CommandProc.Ok (h : Host) (name : Text) (w : Worker) (c : CommandProc) : Prop where
  born : c.start < h.clock
  ready : w.atRoot = true
  inside : ∀ p ∈ h.procs, Entry c.pid c.start p → p.cgroup = some name

/-- The record that the caller has read, until it forks. -/
def Caller.info : Caller → Option ContainerInfo
  | .running info => some info
  | .checked info => some info
  | .loaded info _ => some info
  | _ => none

/-- After the first fork. -/
def Caller.forked : Caller → Bool
  | .waiting => true
  | .returned _ => true
  | _ => false

structure Session.Ok (h : Host) (s : Session) : Prop where
  unforked : s.caller.forked = false → s.worker = none
  recorded : ∀ i, s.caller.info = some i → i.pidStartTime < h.clock
  worker : ∀ w, s.worker = some w → w.Ok h s.args.containerName
  command : ∀ c, s.command = some c → ∃ w, s.worker = some w ∧ c.Ok h s.args.containerName w
  success : ∀ w, s.worker = some w → w.exit = some (.exited 0) →
    ∃ c, s.command = some c ∧ (s.args.detach = false → c.state = .executed)
  result : s.caller = .returned 0 → ∃ w, s.worker = some w ∧ w.exit = some (.exited 0)

theorem Worker.Ok.later {h h' : Host} {name : Text} {w : Worker} (hw : w.Ok h name) (hl : Later h h') :
    w.Ok h' name := by
  refine { hw with born := Nat.lt_of_lt_of_le hw.born hl.clock
                   recorded := Nat.lt_of_lt_of_le hw.recorded hl.clock
                   outside := fun ho p' hp' he => ?_
                   inside := fun hi p' hp' he => ?_
                   init := fun p' hp' he => ?_ }
  · obtain ⟨p, hp, hsame, he⟩ := hl.entry hw.born hp' he
    rw [hsame.cgroup, hw.outside ho p hp he]
  · obtain ⟨p, hp, hsame, he⟩ := hl.entry hw.born hp' he
    rw [hsame.cgroup, hw.inside hi p hp he]
  · obtain ⟨p, hp, -, he⟩ := hl.entry hw.recorded hp' he
    exact hw.init p hp he

theorem CommandProc.Ok.later {h h' : Host} {name : Text} {w : Worker} {c : CommandProc} (hc : c.Ok h name w)
    (hl : Later h h') : c.Ok h' name w := by
  refine ⟨Nat.lt_of_lt_of_le hc.born hl.clock, hc.ready, fun p' hp' he => ?_⟩
  obtain ⟨p, hp, hsame, he⟩ := hl.entry hc.born hp' he
  rw [hsame.cgroup, hc.inside p hp he]

theorem Session.Ok.later {h h' : Host} {s : Session} (hs : s.Ok h) (hl : Later h h') : s.Ok h' := by
  refine ⟨hs.unforked, fun i hi => Nat.lt_of_lt_of_le (hs.recorded i hi) hl.clock, fun w hw => (hs.worker w hw).later hl,
    fun c hc => ?_, hs.success, hs.result⟩
  obtain ⟨w, hw, hok⟩ := hs.command c hc
  exact ⟨w, hw, hok.later hl⟩

/-! ## One call -/

/-- What a call of a session does: it keeps the records true, its own session and every session with
another worker. -/
structure Moved (h : Host) (s : Session) (r : Host × Session) : Prop where
  identity : Identity r.1
  own : r.2.Ok r.1
  others : ∀ t : Session, t.Ok h →
    (∀ v w, s.worker = some v → t.worker = some w → v.start ≠ w.start) → t.Ok r.1
  clock : h.clock ≤ r.1.clock
  worker : ∀ w, r.2.worker = some w → (∃ v, s.worker = some v ∧ w.start = v.start) ∨ w.start = h.clock

theorem Moved.later {h h' : Host} {s s' : Session} (hI : Identity h') (hl : Later h h') (hown : s'.Ok h')
    (hworker : ∀ w, s'.worker = some w → (∃ v, s.worker = some v ∧ w.start = v.start) ∨ w.start = h.clock) :
    Moved h s (h', s') :=
  ⟨hI, hown, fun _ ht _ => ht.later hl, hl.clock, hworker⟩

/-- A call that leaves the worker as it is. -/
theorem Moved.idle {h h' : Host} {s s' : Session} (hI : Identity h') (hl : Later h h') (hown : s'.Ok h')
    (hsame : s'.worker = s.worker) : Moved h s (h', s') :=
  .later hI hl hown fun w hw => Or.inl ⟨w, hsame ▸ hw, rfl⟩

theorem Session.Ok.return {h : Host} {s : Session} (hs : s.Ok h) {code : Int}
    (hcode : code = 0 → ∃ w, s.worker = some w ∧ w.exit = some (.exited 0)) : (s.return code).Ok h := by
  refine ⟨fun hf => (by cases hf), fun i hi => (by cases hi), hs.worker, hs.command, hs.success, fun hr => ?_⟩
  cases hr
  exact hcode rfl

theorem Session.Ok.failed {h : Host} {s : Session} (hs : s.Ok h) : (s.return (-1)).Ok h :=
  hs.return fun h0 => by cases h0

/-- The caller goes on with a record that is there. -/
theorem Session.Ok.proceed {h : Host} {s : Session} (hs : s.Ok h) {caller : Caller} {info : ContainerInfo}
    (hbefore : s.caller.forked = false) (hinfo : caller.info = some info)
    (hrec : info.pidStartTime < h.clock) : { s with caller := caller }.Ok h := by
  refine ⟨fun _ => hs.unforked hbefore, fun i hi => ?_, hs.worker, hs.command, hs.success, fun hr => ?_⟩
  · have heq : some info = some i := hinfo.symm.trans hi
    cases heq
    exact hrec
  · have hret : caller = .returned 0 := hr
    rw [hret] at hinfo
    cases hinfo

theorem Ending.code_eq_zero {e : Ending} : e.code = 0 ↔ e = .exited 0 := by
  cases e with
  | exited n => simp [Ending.code]
  | signalled n => simp [Ending.code]

/-- The new worker. -/
theorem Worker.Ok.fork {h : Host} (hI : Identity h) {pid : Nat}
    (hfree : (readProcessStartTime pid h).isSome ≠ true) (name : Text) {info : ContainerInfo}
    (hrec : info.pidStartTime < h.clock) (envs : List Text) :
    Worker.Ok (addProcess pid none h) name ⟨pid, h.clock, info, envs, false, [], [], false, none⟩ := by
  rw [addProcess, if_neg hfree]
  refine ⟨Nat.lt_succ_self _, Nat.lt_succ_of_lt hrec, fun _ p hp he => ?_, fun hin => (by cases hin), rfl,
    fun f hf => (by cases hf), fun _ _ _ f hf => (by cases hf), fun hne => absurd rfl hne, List.nil_prefix,
    fun hne => absurd rfl hne, fun hr => (by cases hr)⟩
  rcases List.mem_append.1 hp with hp | hp
  · exact absurd he.2 (Nat.ne_of_lt (hI.starts p hp))
  · rw [List.mem_singleton.1 hp]

theorem callerStep_moved {h : Host} {s : Session} (hI : Identity h) (hs : s.Ok h) (a : ExecAnswers) :
    Moved h s (s.callerStep a h) := by
  have hrefl := Later.refl h
  have hfailed : Moved h s (h, s.return (-1)) := .idle hI hrefl hs.failed rfl
  unfold Session.callerStep
  split
  · rename_i hcaller
    split
    · exact hfailed
    rename_i i hi
    split
    · exact hfailed
    obtain ⟨hI', -⟩ := hI.refresh a.env hi
    have hl := hrefl.status (refresh_status a.env hi)
    split
    · rename_i h' he
      rw [he] at hI' hl
      exact .idle hI' hl (hs.later hl).failed rfl
    · rename_i h' j he
      obtain ⟨hj, -, -⟩ := refresh_info hi he
      rw [he] at hI' hl
      split
      · exact .idle hI' hl ((hs.later hl).proceed (by rw [hcaller]; rfl) rfl (hI'.recorded _ _ hj)) rfl
      · exact .idle hI' hl (hs.later hl).failed rfl
  · rename_i info hcaller
    split
    · exact hfailed
    split
    · exact hfailed
    · exact .idle hI hrefl (hs.proceed (by rw [hcaller]; rfl) rfl
        (hs.recorded info (by rw [hcaller]; rfl))) rfl
  · rename_i info hcaller
    split
    · exact hfailed
    · exact .idle hI hrefl (hs.proceed (by rw [hcaller]; rfl) rfl
        (hs.recorded info (by rw [hcaller]; rfl))) rfl
  · rename_i info envs hcaller
    split
    · exact hfailed
    · rename_i hfork
      simp only [forkFails, not_or] at hfork
      have hnone := hs.unforked (by rw [hcaller]; rfl)
      have hrec := hs.recorded info (by rw [hcaller]; rfl)
      have hl := hrefl.addProcess a.pid none
      have hworker := Worker.Ok.fork hI hfork.2.2 s.args.containerName hrec envs
      refine .later (hI.addProcess a.pid fun n hn => (by cases hn)) hl
        ⟨fun hf => (by cases hf), fun i hi => (by cases hi), fun w hw => ?_, fun c hc => ?_, fun w hw he => ?_,
          fun hr => (by cases hr)⟩ fun w hw => ?_
      · cases hw
        exact hworker
      · -- there is no command without a worker
        obtain ⟨w, hw, -⟩ := hs.command c hc
        rw [hnone] at hw
        cases hw
      · cases hw
        cases he
      · cases hw
        exact Or.inr rfl
  · split
    · rename_i hnone
      exact .idle hI hrefl hs rfl
    rename_i w hw
    split
    · exact hfailed
    split
    · have hl := hrefl.filter fun p => decide (¬ (p.pid = w.pid ∧ p.start = w.start))
      refine .idle (hI.filter _) hl ((hs.later hl).return fun h0 => ⟨w, hw, ?_⟩) rfl
      have hcode : (w.exit.getD (.signalled a.signal)).code = 0 := Int.natCast_eq_zero.1 h0
      rw [Ending.code_eq_zero] at hcode
      cases hexit : w.exit with
      | none =>
        rw [hexit] at hcode
        cases hcode
      | some e =>
        rw [hexit] at hcode
        exact congrArg some hcode
    · exact .idle hI hrefl hs rfl
  · exact .idle hI hrefl hs rfl

/-- The worker goes on. -/
theorem Session.Ok.update {h : Host} {s : Session} {w w' : Worker} (hs : s.Ok h) (hw : s.worker = some w)
    (hrunning : w.exit = none) (hok : w'.Ok h s.args.containerName) (hexit : w'.exit = none)
    (hroot : w.atRoot = true → w'.atRoot = true) : { s with worker := some w' }.Ok h := by
  refine ⟨fun hf => ?_, hs.recorded, fun v hv => ?_, fun c hc => ?_, fun v hv he => ?_, fun hr => ?_⟩
  · have hnone := hs.unforked hf
    rw [hw] at hnone
    cases hnone
  · cases hv
    exact hok
  · obtain ⟨v, hv, hc⟩ := hs.command c hc
    rw [hw] at hv
    cases hv
    exact ⟨w', rfl, hc.born, hroot hc.ready, hc.inside⟩
  · cases hv
    rw [hexit] at he
    cases he
  · obtain ⟨v, hv, he⟩ := hs.result hr
    rw [hw] at hv
    cases hv
    rw [hrunning] at he
    cases he

/-- `_exit` of the worker, in the state that its last call has left. -/
theorem exitWorker_moved {h h' : Host} {s : Session} {w : Worker} (hI : Identity h') (hl : Later h h')
    (hs : s.Ok h) (hw : s.worker = some w) (hrunning : w.exit = none) {status : Nat}
    (hzero : status = 0 → ∃ c, s.command = some c ∧ (s.args.detach = false → c.state = .executed)) :
    Moved h s (s.exitWorker w status h') := by
  have hends : Later h (endProcess w.pid h') := hl.endProcess w.pid
  have hs' := hs.later hends
  have hok := hs'.worker w hw
  refine .later (hI.endProcess w.pid) hends ⟨fun hf => ?_, hs'.recorded, fun v hv => ?_, fun c hc => ?_,
    fun v hv he => ?_, fun hr => ?_⟩ fun v hv => ?_
  · have hnone := hs.unforked hf
    rw [hw] at hnone
    cases hnone
  · cases hv
    exact { hok with }
  · obtain ⟨v, hv, hc⟩ := hs'.command c hc
    rw [hw] at hv
    cases hv
    exact ⟨_, rfl, hc.born, hc.ready, hc.inside⟩
  · cases hv
    cases he
    exact hzero rfl
  · obtain ⟨v, hv, he⟩ := hs.result hr
    rw [hw] at hv
    cases hv
    rw [hrunning] at he
    cases he
  · cases hv
    exact Or.inl ⟨w, hw, rfl⟩

/-- The worker enters the cgroup of the container. -/
theorem join_moved {h : Host} {s : Session} {w : Worker} (hI : Identity h) (hs : s.Ok h)
    (hw : s.worker = some w) (hrunning : w.exit = none) (hout : w.inCgroup = false)
    (halive : isAlive w.pid w.start h = true) (hmem : s.args.containerName ∈ h.cgroups) :
    Moved h s (joinCgroup w.pid s.args.containerName h,
      { s with worker := some { w with inCgroup := true } }) := by
  have hok := hs.worker w hw
  obtain ⟨p, hp, hlive⟩ := List.any_eq_true.1 halive
  simp only [Bool.and_eq_true, decide_eq_true_eq] at hlive
  have hentry : Entry w.pid w.start p := hlive.1
  have hsole : ∀ q ∈ h.procs, q.pid = w.pid → q = p := fun q hq hpid => hI.unique hq hp (hpid.trans hentry.1.symm)
  have hcgroup : p.cgroup = none := hok.outside hout p hp hentry
  -- nothing is open yet
  have hfiles : w.files = [] := by
    by_contra hne
    rw [hok.opened hne] at hout
    cases hout
  have hI' : Identity (joinCgroup w.pid s.args.containerName h) :=
    hI.joinOutside hmem fun q hq hpid => by rw [hsole q hq hpid, hcgroup]
  refine ⟨hI', ?_, fun t ht hdistinct => ?_, Nat.le_refl _, fun v hv => ?_⟩
  · have hown : Worker.Ok (joinCgroup w.pid s.args.containerName h) s.args.containerName
        { w with inCgroup := true } := by
      refine { hok with born := hok.born
                        outside := fun ho => (by cases ho)
                        inside := fun _ q' hq' he => ?_
                        init := fun _ _ _ f hf => ?_
                        opened := fun _ => rfl }
      · obtain ⟨q, hq, hpid, -, -, hcase⟩ := mem_joinCgroup hq'
        rcases hcase with ⟨-, hcg⟩ | ⟨hne, rfl⟩
        · exact hcg
        · exact absurd he.1 hne
      · rw [hfiles] at hf
        cases hf
    refine ⟨fun hf => ?_, hs.recorded, fun v hv => ?_, fun c hc => ?_, fun v hv he => ?_, fun hr => ?_⟩
    · have hnone := hs.unforked hf
      rw [hw] at hnone
      cases hnone
    · cases hv
      exact hown
    · obtain ⟨v, hv, hc⟩ := hs.command c hc
      rw [hw] at hv
      cases hv
      have hlen := (hok.root hc.ready).2
      rw [hfiles] at hlen
      cases hlen
    · cases hv
      have hexit : w.exit = some (.exited 0) := he
      rw [hrunning] at hexit
      cases hexit
    · obtain ⟨v, hv, he⟩ := hs.result hr
      rw [hw] at hv
      cases hv
      rw [hrunning] at he
      cases he
  · -- another session knows this process neither as its worker nor as its command
    refine ⟨ht.unforked, ht.recorded, fun v hv => ?_, fun c hc => ?_, ht.success, ht.result⟩
    · have hv' := ht.worker v hv
      have hother : ∀ q' ∈ (joinCgroup w.pid s.args.containerName h).procs, Entry v.pid v.start q' →
          q' ∈ h.procs := by
        intro q' hq' he
        obtain ⟨q, hq, -, hstart, -, hcase⟩ := mem_joinCgroup hq'
        rcases hcase with ⟨hpid, -⟩ | ⟨-, rfl⟩
        · rw [hsole q hq hpid, hentry.2, he.2] at hstart
          exact absurd hstart.symm (hdistinct w v hw hv)
        · exact hq
      refine { hv' with outside := fun ho q' hq' he => hv'.outside ho q' (hother q' hq' he) he
                        inside := fun hi q' hq' he => hv'.inside hi q' (hother q' hq' he) he
                        init := fun q' hq' he => ?_ }
      obtain ⟨q, hq, hpid, hstart, -, -⟩ := mem_joinCgroup hq'
      exact hv'.init q hq ⟨hpid ▸ he.1, hstart ▸ he.2⟩
    · obtain ⟨v, hv, hc⟩ := ht.command c hc
      refine ⟨v, hv, hc.born, hc.ready, fun q' hq' he => ?_⟩
      obtain ⟨q, hq, hpid, hstart, -, hcase⟩ := mem_joinCgroup hq'
      rcases hcase with ⟨hmoved, -⟩ | ⟨-, rfl⟩
      · have hin := hc.inside q hq ⟨hpid ▸ he.1, hstart ▸ he.2⟩
        rw [hsole q hq hmoved, hcgroup] at hin
        cases hin
      · exact hc.inside q' hq he
  · cases hv
    exact Or.inl ⟨w, hw, rfl⟩

theorem findLive_some {pid : Nat} {h : Host} {p : Proc} (hp : findLive pid h = some p) :
    p ∈ h.procs ∧ p.pid = pid ∧ p.zombie = false := by
  have hlive := List.find?_some hp
  simp only [Bool.and_eq_true, decide_eq_true_eq, Bool.not_eq_true'] at hlive
  exact ⟨List.mem_of_find?_eq_some hp, hlive⟩

theorem isAlive_iff {pid start : Nat} {h : Host} :
    isAlive pid start h = true ↔ ∃ p ∈ h.procs, Entry pid start p ∧ p.zombie = false := by
  simp [isAlive, Entry]

/-- A process that is alive is the one found under its pid. -/
theorem findLive_alive {h : Host} (hI : Identity h) {pid start : Nat} (halive : isAlive pid start h = true) :
    ∃ p, findLive pid h = some p ∧ p ∈ h.procs ∧ Entry pid start p ∧ p.zombie = false := by
  obtain ⟨p, hp, hentry, hz⟩ := isAlive_iff.1 halive
  cases hfind : findLive pid h with
  | none =>
    have hno := List.find?_eq_none.1 hfind p hp
    simp [hentry.1, hz] at hno
  | some q =>
    obtain ⟨hq, hpid, hqz⟩ := findLive_some hfind
    have heq : q = p := hI.unique hq hp (hpid.trans hentry.1.symm)
    exact ⟨q, rfl, hq, heq ▸ hentry, hqz⟩

theorem Worker.Ok.length_le {h : Host} {name : Text} {w : Worker} (hw : w.Ok h name) : w.files.length ≤ 5 := by
  have hlen := congrArg List.length hw.types
  rw [List.length_map, List.length_take] at hlen
  have hfive : namespaceTypes.length = 5 := rfl
  omega

/-- One more namespace file. -/
theorem Worker.Ok.open {h : Host} {name : Text} {w : Worker} (hI : Identity h) (hw : w.Ok h name)
    (hin : w.inCgroup = true) {type : Namespace} (htype : namespaceTypes[w.files.length]? = some type) {p : Proc}
    (hp : findLive w.info.pid h = some p) :
    Worker.Ok h name { w with files := w.files ++ [⟨type, p.pid, p.start⟩] } := by
  obtain ⟨hmem, hpid, -⟩ := findLive_some hp
  have hlt : w.files.length < 5 := (List.getElem?_eq_some_iff.1 htype).1
  refine { hw with types := ?_
                   pids := fun f hf => ?_
                   init := fun q hq he f hf => ?_
                   opened := fun _ => hin
                   joined := hw.joined.trans (List.prefix_append _ _)
                   complete := fun hne => ?_
                   root := fun hr => ?_ }
  · rw [List.map_append, hw.types, List.length_append, List.length_singleton, List.take_add_one, htype]
    rfl
  · rcases List.mem_append.1 hf with hf | hf
    · exact hw.pids f hf
    · rw [List.mem_singleton.1 hf]
      exact hpid
  · rcases List.mem_append.1 hf with hf | hf
    · exact hw.init q hq he f hf
    · -- the process found is the init process
      rw [List.mem_singleton.1 hf, ← hI.unique hq hmem (he.1.trans hpid.symm)]
      exact he.2
  · have := hw.complete hne
    omega
  · have := (hw.root hr).2
    omega

/-- One more namespace. -/
theorem Worker.Ok.join {h : Host} {name : Text} {w : Worker} (hw : w.Ok h name)
    (hall : namespaceTypes[w.files.length]? = none) {file : NsFile}
    (hfile : w.files[w.joined.length]? = some file) :
    Worker.Ok h name { w with joined := w.joined ++ [file] } := by
  have hfive : w.files.length = 5 :=
    Nat.le_antisymm hw.length_le (List.getElem?_eq_none_iff.1 hall)
  obtain ⟨rest, hrest⟩ := hw.joined
  rw [← hrest, List.getElem?_append_right (Nat.le_refl _), Nat.sub_self] at hfile
  refine { hw with joined := ?_
                   complete := fun _ => hfive
                   root := fun hr => ?_ }
  · cases rest with
    | nil => cases hfile
    | cons first rest =>
      cases hfile
      exact ⟨rest, by rw [← hrest, List.append_assoc, List.singleton_append]⟩
  · -- `chdir` comes after the last one
    have hsame := (hw.root hr).1
    rw [hsame, List.append_right_eq_self] at hrest
    rw [hrest] at hfile
    cases hfile

theorem workerCall_moved {h : Host} {s : Session} {w : Worker} (hI : Identity h) (hs : s.Ok h)
    (hw : s.worker = some w) (hrunning : w.exit = none) (halive : isAlive w.pid w.start h = true)
    (a : ExecAnswers) : Moved h s (s.workerCall a h w) := by
  have hok := hs.worker w hw
  have hrefl := Later.refl h
  have hgone : Moved h s (s.exitWorker w 125 h) := exitWorker_moved hI hrefl hs hw hrunning fun h0 => (by cases h0)
  have hgoes : ∀ w' : Worker, w'.Ok h s.args.containerName → w'.exit = none → w'.start = w.start →
      (w.atRoot = true → w'.atRoot = true) → Moved h s (h, { s with worker := some w' }) := by
    intro w' hok' hexit hstart hroot
    refine .later hI hrefl (hs.update hw hrunning hok' hexit hroot) fun v hv => ?_
    cases hv
    exact Or.inl ⟨w, hw, hstart⟩
  unfold Session.workerCall
  split
  · rename_i hout
    split
    · exact hgone
    · rename_i hjoin
      simp only [not_or, not_not] at hjoin
      exact join_moved hI hs hw hrunning hout halive hjoin.2
  rename_i hin
  have hin := Bool.of_not_eq_false hin
  split
  · rename_i type htype
    split
    · exact hgone
    rename_i p hp
    split
    · exact hgone
    · exact hgoes _ (hok.open hI hin htype hp) hrunning rfl id
  rename_i hall
  split
  · rename_i file hfile
    split
    · exact hgone
    · exact hgoes _ (hok.join hall hfile) hrunning rfl id
  rename_i hdone
  split
  · split
    · exact hgone
    · have hfive := Nat.le_antisymm hok.length_le (List.getElem?_eq_none_iff.1 hall)
      have hjoined : w.joined = w.files := hok.joined.eq_of_length_le (List.getElem?_eq_none_iff.1 hdone)
      exact hgoes _ { hok with root := fun _ => ⟨hjoined, hfive⟩ } hrunning rfl fun _ => rfl
  rename_i hroot
  have hroot := Bool.of_not_eq_false hroot
  split
  · rename_i hcommand
    split
    · exact hgone
    rename_i hfork
    simp only [forkFails, not_or] at hfork
    obtain ⟨p, hfind, hp, hentry, hz⟩ := findLive_alive hI halive
    have hcgroup : p.cgroup = some s.args.containerName := hok.inside hin p hp hentry
    rw [hfind, Option.bind_some, hcgroup]
    have hl := hrefl.addProcess a.pid (some s.args.containerName)
    have hs' := hs.later hl
    refine .idle (hI.addProcess a.pid fun n hn => ?_) hl ⟨hs'.unforked, hs'.recorded, hs'.worker, fun c hc => ?_,
      fun v hv he => ?_, hs'.result⟩ rfl
    · exact hI.homes p hp hz n (hcgroup.trans hn)
    · cases hc
      refine ⟨w, hw, ?_, hroot, fun q hq he => ?_⟩
      · rw [addProcess, if_neg hfork.2.2]
        exact Nat.lt_succ_self _
      · rw [addProcess, if_neg hfork.2.2] at hq
        rcases List.mem_append.1 hq with hq | hq
        · exact absurd he.2 (Nat.ne_of_lt (hI.starts q hq))
        · rw [List.mem_singleton.1 hq]
    · have hv' : some w = some v := hw.symm.trans hv
      cases hv'
      rw [hrunning] at he
      cases he
  · rename_i c hc
    split
    · rename_i hdetach
      exact exitWorker_moved hI hrefl hs hw hrunning fun _ => ⟨c, hc, fun hno => by rw [hno] at hdetach; cases hdetach⟩
    split
    · exact hgone
    split
    · refine exitWorker_moved (hI.filter _) (hrefl.filter _) hs hw hrunning fun h0 => ⟨c, hc, fun _ => ?_⟩
      rw [Ending.code_eq_zero] at h0
      cases hstate : c.state with
      | executed => rfl
      | forked => simp [CommandProc.ending, hstate] at h0
      | failed => simp [CommandProc.ending, hstate] at h0
    · exact .idle hI hrefl hs rfl

theorem workerStep_moved {h : Host} {s : Session} (hI : Identity h) (hs : s.Ok h) (a : ExecAnswers) :
    Moved h s (s.workerStep a h) := by
  have hrefl := Later.refl h
  unfold Session.workerStep
  split
  · exact .idle hI hrefl hs rfl
  · rename_i w hw
    split
    · rename_i hlive
      exact workerCall_moved hI hs hw hlive.2 hlive.1 a
    · exact .idle hI hrefl hs rfl

theorem commandStep_moved {h : Host} {s : Session} (hI : Identity h) (hs : s.Ok h) (a : ExecAnswers) :
    Moved h s (s.commandStep a h) := by
  have hrefl := Later.refl h
  have hset : ∀ {h' : Host} {c c' : CommandProc}, s.command = some c → s.Ok h' → c'.pid = c.pid →
      c'.start = c.start → c.state = .forked → { s with command := some c' }.Ok h' := by
    intro h' c c' hc hs' hpid hstart hforked
    refine ⟨hs'.unforked, hs'.recorded, hs'.worker, fun d hd => ?_, fun w hw he => ⟨c', rfl, fun hattached => ?_⟩,
      hs'.result⟩
    · cases hd
      obtain ⟨w, hw, hok⟩ := hs'.command c hc
      exact ⟨w, hw, hstart ▸ hok.born, hok.ready, hpid ▸ hstart ▸ hok.inside⟩
    · -- the worker has not waited for it yet
      obtain ⟨d, hd, hexec⟩ := hs'.success w hw he
      rw [hc] at hd
      cases hd
      have := hexec hattached
      rw [hforked] at this
      cases this
  unfold Session.commandStep
  split
  · exact .idle hI hrefl hs rfl
  rename_i c hc
  split
  · rename_i hlive
    split
    · have hl := hrefl.endProcess c.pid
      exact .idle (hI.endProcess c.pid) hl (hset hc (hs.later hl) rfl rfl hlive.2) rfl
    · exact .idle hI hrefl (hset hc hs rfl rfl hlive.2) rfl
  · exact .idle hI hrefl hs rfl

/-! ## Whole runs -/

structure ExecWorld.Ok (x : ExecWorld) : Prop where
  identity : Identity x.world.host
  sessions : ∀ k s, x.sessions k = some s → s.Ok x.world.host
  /-- No two sessions have the same worker. -/
  distinct : ∀ j k s t v w, x.sessions j = some s → x.sessions k = some t → s.worker = some v →
    t.worker = some w → v.start = w.start → j = k

theorem ExecWorld.Ok.start {w : World} (hb : w.Booted) : (ExecWorld.start w).Ok :=
  ⟨hb.identity, fun _ _ hs => (by cases hs), fun _ _ _ _ _ _ hs => (by cases hs)⟩

/-- **One call of one session.** -/
theorem ExecWorld.Ok.act {x : ExecWorld} (hx : x.Ok) (k : Nat) {f : Host → Session → Host × Session}
    (hf : ∀ s, x.sessions k = some s → Moved x.world.host s (f x.world.host s)) : (x.act k f).Ok := by
  unfold ExecWorld.act
  split
  · exact hx
  rename_i s hs
  have hm := hf s hs
  generalize f x.world.host s = r at hm ⊢
  have hat : ∀ {j : Nat} {t : Session}, Function.update x.sessions k (some r.2) j = some t →
      (j = k ∧ t = r.2) ∨ (j ≠ k ∧ x.sessions j = some t) := by
    intro j t ht
    by_cases hj : j = k
    · subst hj
      rw [Function.update_self] at ht
      cases ht
      exact Or.inl ⟨rfl, rfl⟩
    · rw [Function.update_of_ne hj] at ht
      exact Or.inr ⟨hj, ht⟩
  -- a worker of another session is not the worker of this one, before and after the call
  have hother : ∀ {j : Nat} {t : Session} {v w : Worker}, j ≠ k → x.sessions j = some t →
      r.2.worker = some v → t.worker = some w → v.start ≠ w.start := by
    intro j t v w hj ht hv hw heq
    rcases hm.worker v hv with ⟨u, hu, hstart⟩ | hnew
    · exact hj (hx.distinct k j s t u w hs ht hu hw (hstart ▸ heq)).symm
    · have := ((hx.sessions j t ht).worker w hw).born
      omega
  refine ⟨hm.identity, fun j t ht => ?_, fun i j s' t v w hs' ht hv hw heq => ?_⟩
  · rcases hat ht with ⟨-, rfl⟩ | ⟨hj, hold⟩
    · exact hm.own
    · exact hm.others t (hx.sessions j t hold) fun v w hv hw heq =>
        hj (hx.distinct k j s t v w hs hold hv hw heq).symm
  · rcases hat hs' with ⟨rfl, rfl⟩ | ⟨hi, hiold⟩
    · rcases hat ht with ⟨rfl, rfl⟩ | ⟨hj, hjold⟩
      · rfl
      · exact absurd heq (hother hj hjold hv hw)
    · rcases hat ht with ⟨rfl, rfl⟩ | ⟨hj, hjold⟩
      · exact absurd heq.symm (hother hi hiold hw hv)
      · exact hx.distinct i j s' t v w hiold hjold hv hw heq

/-- **Every step keeps the invariant**, a late status write under the condition. -/
theorem ExecWorld.Ok.step {x : ExecWorld} {act : ExecAction} (hx : x.Ok) (hlate : execLateOk x act) :
    (x.step act).Ok := by
  cases act with
  | command c =>
    have hl := (Later.refl x.world.host).step c
    exact ⟨Identity.step hx.identity hlate, fun k s hs => (hx.sessions k s hs).later hl, hx.distinct⟩
  | begin k args =>
    simp only [ExecWorld.step]
    split
    · have hat : ∀ {j : Nat} {t : Session},
          Function.update x.sessions k (some ⟨args, .start, none, none⟩) j = some t →
          t = ⟨args, .start, none, none⟩ ∨ x.sessions j = some t := by
        intro j t ht
        by_cases hj : j = k
        · subst hj
          rw [Function.update_self] at ht
          cases ht
          exact Or.inl rfl
        · rw [Function.update_of_ne hj] at ht
          exact Or.inr ht
      refine ⟨hx.identity, fun j t ht => ?_, fun i j s t v w hs ht hv hw heq => ?_⟩
      · rcases hat ht with rfl | hold
        · exact ⟨fun _ => rfl, fun _ hi => (by cases hi), fun _ hw => (by cases hw), fun _ hc => (by cases hc),
            fun _ hw => (by cases hw), fun hr => (by cases hr)⟩
        · exact hx.sessions j t hold
      · rcases hat hs with rfl | hiold
        · cases hv
        · rcases hat ht with rfl | hjold
          · cases hw
          · exact hx.distinct i j s t v w hiold hjold hv hw heq
    · exact hx
  | caller k a => exact hx.act k fun s hs => callerStep_moved hx.identity (hx.sessions k s hs) a
  | worker k a => exact hx.act k fun s hs => workerStep_moved hx.identity (hx.sessions k s hs) a
  | exec k a => exact hx.act k fun s hs => commandStep_moved hx.identity (hx.sessions k s hs) a

theorem ExecWorld.Ok.run {w : World} (hboot : w.Booted) {acts : List ExecAction}
    (hlate : Runs.Meets ExecWorld.step execLateOk (ExecWorld.start w) acts) :
    (Runs.run ExecWorld.step (ExecWorld.start w) acts).Ok :=
  Runs.run_inv (fun _ _ hx hok => hx.step hok) (.start hboot) hlate

/-- What a worker and its command have done when the command runs. -/
structure RunsInside (h : Host) (name : Text) (w : Worker) (c : CommandProc) : Prop where
  inOrder : w.joined.map (·.type) = namespaceTypes
  ofInit : ∀ f ∈ w.joined, f.pid = w.info.pid
  atRoot : w.atRoot = true
  sameProcess : ∀ p ∈ h.procs, Entry w.info.pid w.info.pidStartTime p →
    ∀ f ∈ w.joined, f.start = w.info.pidStartTime
  cgroup : ∀ p ∈ h.procs, Entry c.pid c.start p → p.cgroup = some name ∧ (p.zombie = false → name ∈ h.cgroups)

theorem Session.Ok.runsInside {h : Host} {s : Session} {w : Worker} {c : CommandProc} (hI : Identity h)
    (hs : s.Ok h) (hw : s.worker = some w) (hc : s.command = some c) :
    RunsInside h s.args.containerName w c := by
  have hok := hs.worker w hw
  obtain ⟨v, hv, hcommand⟩ := hs.command c hc
  rw [hw] at hv
  cases hv
  obtain ⟨hjoined, hfive⟩ := hok.root hcommand.ready
  refine ⟨?_, hjoined ▸ hok.pids, hcommand.ready, hjoined ▸ hok.init, fun p hp he => ?_⟩
  · rw [hjoined, hok.types, hfive]
    rfl
  · have hcgroup := hcommand.inside p hp he
    exact ⟨hcgroup, fun hz => hI.homes p hp hz _ hcgroup⟩

/-- **A command runs inside its container.**  In every run of commands and sessions in which each late status write
finds no other live container under its name, as in the three results below: when a session has forked its command,
its worker has joined the five namespaces in order and changed to `/`; they are the namespaces of the recorded init
process as long as that process is there; and the command is in the cgroup of the container, which stays in place
while the command is alive. -/
theorem exec_runs_inside (w : World) (acts : List ExecAction) (hboot : w.Booted)
    (hlate : Runs.Meets ExecWorld.step execLateOk (ExecWorld.start w) acts) (k : Nat) (s : Session)
    (hs : (Runs.run ExecWorld.step (ExecWorld.start w) acts).sessions k = some s) (c : CommandProc)
    (hc : s.command = some c) :
    ∃ v, s.worker = some v ∧
      RunsInside (Runs.run ExecWorld.step (ExecWorld.start w) acts).world.host s.args.containerName v c := by
  have hx := ExecWorld.Ok.run hboot hlate
  obtain ⟨v, hv, -⟩ := (hx.sessions k s hs).command c hc
  exact ⟨v, hv, (hx.sessions k s hs).runsInside hx.identity hv hc⟩

/-- Nothing fails; a child gets that pid, and the environment of the init process is empty. -/
def ExecAnswers.quiet (pid : Nat) : ExecAnswers :=
  ⟨.quiet [] 0, false, pid, 9, .exited 0, ⟨1, [], fun _ => some []⟩,
    ⟨true, true, [⟨true, .count 1⟩], fun _ => true⟩⟩

/-- `docker exec` in container `web001` up to the fork of the worker, which gets pid 30. -/
def forkedWorker : List ExecAction :=
  [.command (.run (.quiet [] 20) (shellArgs "web001".toList true)),
    .begin 0 ⟨"web001".toList, false, [], [ "/bin/ls".toList]⟩] ++ List.replicate 4 (.caller 0 (.quiet 30))

/-- The calls of the worker, which forks pid 31, and `execve`. -/
def startedCommand : List ExecAction := List.replicate 13 (.worker 0 (.quiet 31)) ++ [.exec 0 (.quiet 0)]

def finishedExec : List ExecAction :=
  forkedWorker ++ startedCommand ++ [.command (.exit 31), .worker 0 (.quiet 0), .caller 0 (.quiet 0)]

theorem command_runs_inside : ∃ s c v,
    (Runs.run ExecWorld.step (ExecWorld.start World.bare) (forkedWorker ++ startedCommand)).sessions 0 = some s ∧
      s.command = some c ∧ c.state = .executed ∧ s.worker = some v ∧
      RunsInside (Runs.run ExecWorld.step (ExecWorld.start World.bare) (forkedWorker ++ startedCommand)).world.host
        s.args.containerName v c := by
  have hstate : (((Runs.run ExecWorld.step (ExecWorld.start World.bare)
      (forkedWorker ++ startedCommand)).sessions 0).bind fun s => s.command.map (·.state)) = some .executed := by
    decide +kernel
  obtain ⟨s, hs, hcommand⟩ := Option.bind_eq_some_iff.1 hstate
  obtain ⟨c, hc, hexecuted⟩ := Option.map_eq_some_iff.1 hcommand
  obtain ⟨v, hv, hinside⟩ := exec_runs_inside World.bare (forkedWorker ++ startedCommand) World.bare_booted
    (by decide +kernel) 0 s hs c hc
  exact ⟨s, c, v, hs, hc, hexecuted, hv, hinside⟩

/-- The init process ends after the check, is reaped, and its pid is given to a process of the host. -/
def reusedPid : List ExecAction :=
  forkedWorker ++ [.worker 0 (.quiet 0), .command (.exit 20), .command (.collect 20), .command (.spawn 20)] ++
    startedCommand

/-- The worker then joins the namespaces of that process, which is younger than the one recorded. -/
theorem reused_pid_joined :
    ((Runs.run ExecWorld.step (ExecWorld.start World.bare) reusedPid).sessions 0).any (fun s =>
      s.worker.any fun v => v.joined.length = 5 && v.joined.all fun f => v.info.pidStartTime < f.start) = true := by
  decide +kernel

/-- **Records stay true beside `docker exec`.** -/
theorem exec_keeps_identity (w : World) (acts : List ExecAction) (hboot : w.Booted)
    (hlate : Runs.Meets ExecWorld.step execLateOk (ExecWorld.start w) acts) :
    IdentityHolds (Runs.run ExecWorld.step (ExecWorld.start w) acts).world.host :=
  (ExecWorld.Ok.run hboot hlate).identity.holds

theorem command_keeps_identity :
    ((Runs.run ExecWorld.step (ExecWorld.start World.bare) finishedExec).world.host.info
        "web001".toList).isSome = true ∧
      IdentityHolds (Runs.run ExecWorld.step (ExecWorld.start World.bare) finishedExec).world.host :=
  ⟨by decide +kernel, exec_keeps_identity World.bare finishedExec World.bare_booted (by decide +kernel)⟩

/-- **What 0 means**: the command was executed, unless it was left alone with `-d`. -/
theorem exec_zero (w : World) (acts : List ExecAction) (hboot : w.Booted)
    (hlate : Runs.Meets ExecWorld.step execLateOk (ExecWorld.start w) acts) (k : Nat) (s : Session)
    (hs : (Runs.run ExecWorld.step (ExecWorld.start w) acts).sessions k = some s)
    (hreturned : s.caller = .returned 0) :
    ∃ c, s.command = some c ∧ (s.args.detach = false → c.state = .executed) := by
  have hok := (ExecWorld.Ok.run hboot hlate).sessions k s hs
  obtain ⟨v, hv, hexit⟩ := hok.result hreturned
  exact hok.success v hv hexit

theorem command_returned_zero : ∃ s,
    (Runs.run ExecWorld.step (ExecWorld.start World.bare) finishedExec).sessions 0 = some s ∧
      s.caller = .returned 0 ∧ ∃ c, s.command = some c ∧ (s.args.detach = false → c.state = .executed) := by
  have hcaller : (((Runs.run ExecWorld.step (ExecWorld.start World.bare) finishedExec).sessions 0).map
      fun s => s.caller) = some (.returned 0) := by
    decide +kernel
  obtain ⟨s, hs, hreturned⟩ := Option.map_eq_some_iff.1 hcaller
  exact ⟨s, hs, hreturned, exec_zero World.bare finishedExec World.bare_booted (by decide +kernel) 0 s hs hreturned⟩

/-- What is left of a session in a state that is later than one it was in. -/
theorem Session.Ok.emptied {h h' : Host} {s : Session} (hs : s.Ok h) (hl : Later h h')
    (hempty : Emptied s.args.containerName h') :
    (∀ w, s.worker = some w → w.inCgroup = true → isAlive w.pid w.start h' = false) ∧
      ∀ c, s.command = some c → isAlive c.pid c.start h' = false := by
  have hs' := hs.later hl
  refine ⟨fun w hw hin => ?_, fun c hc => ?_⟩
  · refine Bool.eq_false_iff.2 fun halive => ?_
    obtain ⟨p, hp, hentry, hz⟩ := isAlive_iff.1 halive
    rw [hempty p hp ((hs'.worker w hw).inside hin p hp hentry)] at hz
    cases hz
  · refine Bool.eq_false_iff.2 fun halive => ?_
    obtain ⟨p, hp, hentry, hz⟩ := isAlive_iff.1 halive
    obtain ⟨w, -, hok⟩ := hs'.command c hc
    rw [hempty p hp (hok.inside p hp hentry)] at hz
    cases hz

/-- **Nothing that `docker exec` has started outlives its container.**  In every reachable state: after a
`docker stop` of a running container, or a `docker rm`, that reports success, no worker that had entered the
cgroup and no command of a session of that container is alive. -/
theorem exec_ends_with_container (w : World) (acts : List ExecAction) (hboot : w.Booted)
    (hlate : Runs.Meets ExecWorld.step execLateOk (ExecWorld.start w) acts) (k : Nat) (s : Session)
    (hs : (Runs.run ExecWorld.step (ExecWorld.start w) acts).sessions k = some s) (h h' : Host) (env : Env)
    (hh : h = (Runs.run ExecWorld.step (ExecWorld.start w) acts).world.host)
    (hend : (∃ time i j h₁, h.info s.args.containerName = some i ∧
        refreshContainerStatusIfNeeded env s.args.containerName i h = (h₁, some j) ∧ j.status = .running ∧
        stopContainer env time s.args.containerName h = (h', true)) ∨
      rmContainer env s.args.containerName h = (h', true)) :
    (∀ v, s.worker = some v → v.inCgroup = true → isAlive v.pid v.start h' = false) ∧
      ∀ c, s.command = some c → isAlive c.pid c.start h' = false := by
  have hx := ExecWorld.Ok.run hboot hlate
  have hI := hx.identity
  have hok := hx.sessions k s hs
  rw [← hh] at hI hok
  rcases hend with ⟨time, i, j, h₁, hi, href, hrunning, hstop⟩ | hrm
  · have hl := (Later.refl h).stopContainer env time s.args.containerName
    have hempty := @stop_empties h hI env time s.args.containerName i j h₁ hi href hrunning (by rw [hstop])
    rw [hstop] at hl hempty
    exact hok.emptied hl hempty
  · have hl := (Later.refl h).rmContainer env s.args.containerName
    have hempty := @rm_empties h hI env s.args.containerName (by rw [hrm])
    rw [hrm] at hl hempty
    exact hok.emptied hl hempty

/-- `docker stop -t 1`, whose `SIGTERM` ends every process of the container. -/
def stopEnv : Env := { Env.quiet [] 0 with dies := fun _ pid => decide (20 ≤ pid) }

theorem command_ends_with_container : ∃ s c,
    (Runs.run ExecWorld.step (ExecWorld.start World.bare) (forkedWorker ++ startedCommand)).sessions 0 = some s ∧
      s.command = some c ∧ isAlive c.pid c.start (stopContainer stopEnv 1 s.args.containerName
        (Runs.run ExecWorld.step (ExecWorld.start World.bare)
          (forkedWorker ++ startedCommand)).world.host).1 = false := by
  have hstop : (((Runs.run ExecWorld.step (ExecWorld.start World.bare)
      (forkedWorker ++ startedCommand)).sessions 0).bind fun s => s.command.map fun _ => s.args.containerName) =
        some "web001".toList := by
    decide +kernel
  obtain ⟨s, hs, hcommand⟩ := Option.bind_eq_some_iff.1 hstop
  obtain ⟨c, hc, hname⟩ := Option.map_eq_some_iff.1 hcommand
  have hrefresh : (((Runs.run ExecWorld.step (ExecWorld.start World.bare)
      (forkedWorker ++ startedCommand)).world.host.info "web001".toList).bind fun i =>
        (refreshContainerStatusIfNeeded stopEnv "web001".toList i (Runs.run ExecWorld.step
          (ExecWorld.start World.bare) (forkedWorker ++ startedCommand)).world.host).2.map (·.status)) =
        some .running := by
    decide +kernel
  obtain ⟨i, hi, hrunning⟩ := Option.bind_eq_some_iff.1 hrefresh
  obtain ⟨j, hj, hstatus⟩ := Option.map_eq_some_iff.1 hrunning
  have hok : (stopContainer stopEnv 1 "web001".toList (Runs.run ExecWorld.step (ExecWorld.start World.bare)
      (forkedWorker ++ startedCommand)).world.host).2 = true := by
    decide +kernel
  refine ⟨s, c, hs, hc, (exec_ends_with_container World.bare (forkedWorker ++ startedCommand) World.bare_booted
    (by decide +kernel) 0 s hs _ _ stopEnv rfl (Or.inl ⟨1, i, j, _, ?_, Prod.ext rfl ?_, hstatus, ?_⟩)).2 c hc⟩
  · rw [hname]
    exact hi
  · rw [hname]
    exact hj
  · rw [hname]
    exact Prod.ext rfl hok

end Exec

end TinyDocker
