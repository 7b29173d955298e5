import TinyDocker.Cmdparser.Command
import TinyDocker.Docker.RemovalOrder

/-!
# Sessions of command lines (`main.c`)

`main` parses its command line and calls the command.  A line is a list of steps: commands of the machine, the
calls of the processes of a `docker exec` in the order in which they happen, and the archive that `docker commit`
writes.  A session is a sequence of lines and of what happens outside of them: processes, edits, the end of a
foreground container, reboots.

Principal results, for sessions in which no line writes behind an array and no archive goes into a directory of
the program: `session_names` — every container has its own paths; `line_effects` — what a line leaves alone;
`session_mounts` — no recursive removal crosses a mount.
-/

set_option autoImplicit false

namespace TinyDocker

open CText MountSpace

/-! ## Steps -/

/-- A call of the caller, the worker or the command of `docker exec`. -/
inductive ExecMove where
  | caller (a : Exec.ExecAnswers)
  | worker (a : Exec.ExecAnswers)
  | command (a : Exec.ExecAnswers)

def ExecMove.step (x : Host × Exec.Session) : ExecMove → Host × Exec.Session
  | .caller a => x.2.callerStep a x.1
  | .worker a => x.2.workerStep a x.1
  | .command a => x.2.commandStep a x.1

/-- `docker_exec` with nothing else in between. -/
def dockerExec (calls : List ExecMove) (arguments : Exec.ExecArguments) (h : Host) : Host :=
  (Runs.run ExecMove.step (h, ⟨arguments, .start, none, none⟩) calls).1

/-- `docker_commit`: the archive is a file at the place where its path leads, if `tar` makes one. -/
def dockerCommit (containerName : Text) (place : Option Path) (h : Host) : Host :=
  match place with
  | none => h
  | some p =>
    if h.workspace containerName = false then h
    else { h with space := { h.space with
      obj := fun fs q => if (fs, q) = h.space.loc p then some .file else h.space.obj fs q } }

inductive LineStep where
  | command (c : MachineCommand)
  | exec (calls : List ExecMove) (arguments : Exec.ExecArguments)
  | commit (containerName : Text) (place : Option Path)

def Machine.setHost (m : Machine) (h : Host) : Machine := { m with world := { m.world with host := h } }

def LineStep.step (m : Machine) : LineStep → Machine
  | .command c => m.step c
  | .exec calls arguments => m.setHost (dockerExec calls arguments m.world.host)
  | .commit containerName place => m.setHost (dockerCommit containerName place m.world.host)

/-! ## Lines and sessions -/

/-- What one line finds: the calls of `argp_parse`, the clock, the outcome of `init_runtime_dirs`, the answers of
the system, round by round where the command has a loop over names, the records in directory order, the calls of
the processes of a `docker exec`, and where the path of an archive leads, bind mounts followed as links are. -/
structure LineEnv where
  argp : ArgpTable → List Text → List ArgpCall
  now : Int
  runtimeDirs : Bool
  net : NetEnv
  env : Env
  envs : Nat → Env
  nets : Nat → NetEnv
  records : List Text
  calls : List ExecMove
  archive : Option Path

/-- The rounds of a loop over names. -/
def rounds {ε : Type} (answers : Nat → ε) (names : List Text) : List (Text × ε) :=
  names.zipIdx.map fun p => (p.1, answers p.2)

/-- The branches of `main`. -/
def DockerCmd.steps (e : LineEnv) : DockerCmd → List LineStep
  | .run arguments _ => if e.runtimeDirs then [.command (.command e.net (.run e.env arguments))] else []
  | .commit name _ => [.commit name e.archive]
  | .ps _ => (rounds e.envs e.records).map fun t => .command (.command e.net (.refresh t.1 t.2))
  | .top _ => []
  | .exec arguments => [.exec e.calls arguments]
  | .stop time names => [.command (.command e.net (.stop time.toNat (rounds e.envs names)))]
  | .rm names => [.command (.command e.net (.rm (rounds e.envs names)))]
  | .inspect name => [.command (.command e.net (.refresh name e.env))]
  | .stats name => [.command (.command e.net (.refresh name e.env))]
  | .networkCreate name cider => if e.runtimeDirs then [.command (.networkCreate e.net name cider)] else []
  | .networkList => []
  | .networkRm names => [.command (.networkRm (rounds e.nets names))]

/-- A line, or a command of the machine that no line gives. -/
inductive SessionEvent where
  | line (e : LineEnv) (argv : List Text)
  | outside (c : MachineCommand)

def SessionEvent.steps : SessionEvent → List LineStep
  | .line e argv =>
    match parseDockerCmd e.argp e.now argv with
    | .error _ => []
    | .ok cmd => cmd.steps e
  | .outside c => [.command c]

/-- A session: the steps of its events one after the other. -/
def Machine.session (m : Machine) (evs : List SessionEvent) : Machine :=
  Runs.run LineStep.step m (evs.flatMap (·.steps))

/-- What happens outside of lines. -/
def MachineCommand.Outside : MachineCommand → Prop
  | .command _ (.reap _ _) => True
  | .command _ (.exit _) => True
  | .command _ (.collect _) => True
  | .command _ (.fork _ _) => True
  | .command _ (.spawn _) => True
  | .command _ (.edit _) => True
  | .reboot boot => (MachineCommand.reboot boot).CleanBoot ∧ boot.host.log = []
  | _ => False

/-- The directories in which the program keeps its own files, and that of the cgroups. -/
def ownDirs : List Path := [components TINYDOCKER_RUNTIME_DIR, components Cgroup.CGROUP_BASE]

/-- The event has a meaning here: no line writes behind an array, and no archive goes into a directory of the
program, where it could replace a record. -/
def SessionEvent.Defined : SessionEvent → Prop
  | .line e argv => parseDockerCmd e.argp e.now argv ≠ .error .outOfBounds ∧
      ∀ p, e.archive = some p → ∀ dir ∈ ownDirs, ¬ dir <+: p
  | .outside c => c.Outside

section

variable {ε : Type} {answers : Nat → ε} {names : List Text}

theorem rounds_names : (rounds answers names).map Prod.fst = names := by
  rw [rounds, List.map_map]
  exact List.zipIdx_map_fst 0 names

end

/-! ## What a step leaves alone -/

/-- The process of the record is gone: its pid is free, or belongs to a process that started at another time. -/
def Gone (i : ContainerInfo) (h : Host) : Prop :=
  ∀ start, readProcessStartTime i.pid h = some start → i.pidStartTime ≠ 0 ∧ start ≠ i.pidStartTime

/-- Nothing differs but records of containers whose process is gone, `EXITED` now and `RUNNING` before. -/
def Refreshed (h h' : Host) : Prop :=
  ∃ info, h' = { h with info := info } ∧ ∀ n, info n = h.info n ∨
    ∃ i, h.info n = some i ∧ i.status = .running ∧ Gone i h ∧ info n = some { i with status := .exited }

theorem Refreshed.refl (h : Host) : Refreshed h h := ⟨h.info, rfl, fun _ => Or.inl rfl⟩

theorem Refreshed.trans {a b c : Host} : Refreshed a b → Refreshed b c → Refreshed a c := by
  rintro ⟨info, rfl, hab⟩ ⟨info', rfl, hbc⟩
  refine ⟨info', rfl, fun n => ?_⟩
  rcases hbc n with he | ⟨i, hi, hrunning, hgone, he⟩
  · rw [he]
    exact hab n
  · rcases hab n with he' | ⟨j, hj, -, -, he'⟩
    · exact Or.inr ⟨i, he' ▸ hi, hrunning, hgone, he⟩
    · -- the record was refreshed before
      have hi : info n = some i := hi
      rw [he'] at hi
      cases hi
      cases hrunning

theorem writeContainerInfo_refreshed {env : Env} {name : Text} {i : ContainerInfo} {h : Host}
    (hi : h.info name = some i) (hrunning : i.status = .running) (hgone : Gone i h) :
    Refreshed h (writeContainerInfo env name { i with status := .exited } h).1 := by
  rcases writeContainerInfo_cases env name { i with status := .exited } h with he | he
  · rw [he]
    exact Refreshed.refl h
  · rw [he]
    refine ⟨_, rfl, fun n => ?_⟩
    by_cases hn : n = name
    · subst hn
      exact Or.inr ⟨i, hi, hrunning, hgone, Function.update_self ..⟩
    · exact Or.inl (Function.update_of_ne hn ..)

theorem refresh_refreshed (env : Env) {name : Text} {i : ContainerInfo} {h : Host} (hi : h.info name = some i) :
    Refreshed h (refreshContainerStatusIfNeeded env name i h).1 := by
  unfold refreshContainerStatusIfNeeded
  split
  · exact Refreshed.refl h
  rename_i hlive
  have hrunning : i.status = .running := not_not.1 (not_or.1 hlive).1
  split
  · exact Refreshed.refl h
  simp only
  split
  · rename_i start hstart
    split
    · exact Refreshed.refl h
    · rename_i hother
      rw [not_or] at hother
      refine writeContainerInfo_refreshed hi hrunning fun start' hstart' => ?_
      rw [hstart] at hstart'
      cases hstart'
      exact hother
  · rename_i hnone
    refine writeContainerInfo_refreshed hi hrunning fun start hstart => ?_
    rw [hnone] at hstart
    cases hstart

theorem Refreshed.marks {h h' : Host} (hr : Refreshed h h') (n : Text) : SameMarks n h h' := by
  obtain ⟨info, rfl, hinfo⟩ := hr
  refine ⟨rfl, Iff.rfl, ?_⟩
  rcases hinfo n with he | ⟨i, hi, -, -, he⟩
  · exact congrArg Option.isSome he
  · show (info n).isSome = _
    rw [he, hi]
    rfl

/-- Only processes differ, and the clock that gives them their start times. -/
def Processes (h h' : Host) : Prop := ∃ procs clock, h' = { h with procs := procs, clock := clock }

theorem Processes.refl (h : Host) : Processes h h := ⟨h.procs, h.clock, rfl⟩

theorem Processes.trans {a b c : Host} : Processes a b → Processes b c → Processes a c := by
  rintro ⟨_, _, rfl⟩ ⟨procs, clock, rfl⟩
  exact ⟨procs, clock, rfl⟩

theorem Processes.marks {h h' : Host} (hp : Processes h h') (n : Text) : SameMarks n h h' := by
  obtain ⟨_, _, rfl⟩ := hp
  exact .of_eq rfl rfl rfl

theorem addProcess_processes (pid : Nat) (cgroup : Option Text) (h : Host) :
    Processes h (addProcess pid cgroup h) := by
  unfold addProcess
  split
  · exact .refl h
  · exact ⟨_, _, rfl⟩

theorem endProcess_processes (pid : Nat) (h : Host) : Processes h (endProcess pid h) := ⟨_, h.clock, rfl⟩

section Exec

open Exec

variable (a : ExecAnswers) (h : Host) (s : Session)

theorem workerCall_processes (w : Worker) : Processes h (s.workerCall a h w).1 ∧
    (s.workerCall a h w).2.caller = s.caller := by
  have hexit : ∀ status, Processes h (s.exitWorker w status h).1 ∧ (s.exitWorker w status h).2.caller = s.caller :=
    fun _ => ⟨endProcess_processes _ _, rfl⟩
  have hstay : ∀ t : Session, t.caller = s.caller → Processes h (h, t).1 ∧ (h, t).2.caller = s.caller :=
    fun _ ht => ⟨.refl h, ht⟩
  unfold Session.workerCall
  split
  · split
    · exact hexit 125
    · exact ⟨⟨_, h.clock, rfl⟩, rfl⟩
  split
  · split
    · exact hexit 125
    · split
      · exact hexit 125
      · exact hstay _ rfl
  split
  · split
    · exact hexit 125
    · exact hstay _ rfl
  split
  · split
    · exact hexit 125
    · exact hstay _ rfl
  split
  · split
    · exact hexit 125
    · exact ⟨addProcess_processes _ _ _, rfl⟩
  split
  · exact hexit 0
  split
  · exact hexit 125
  split
  · exact ⟨⟨_, h.clock, rfl⟩, rfl⟩
  · exact hstay _ rfl

theorem workerStep_processes : Processes h (s.workerStep a h).1 ∧ (s.workerStep a h).2.caller = s.caller := by
  unfold Session.workerStep
  split
  · exact ⟨.refl h, rfl⟩
  split
  · exact workerCall_processes a h s _
  · exact ⟨.refl h, rfl⟩

theorem commandStep_processes : Processes h (s.commandStep a h).1 ∧ (s.commandStep a h).2.caller = s.caller := by
  unfold Session.commandStep
  split
  · exact ⟨.refl h, rfl⟩
  split
  · split
    · exact ⟨endProcess_processes _ _, rfl⟩
    · exact ⟨.refl h, rfl⟩
  · exact ⟨.refl h, rfl⟩

/-- The first call of the caller is the refresh. -/
theorem callerStep_start (hs : s.caller = .start) :
    Refreshed h (s.callerStep a h).1 ∧ (s.callerStep a h).2.caller ≠ .start := by
  have hback : ∀ h', Refreshed h h' → Refreshed h (h', s.return (-1)).1 ∧
      (h', s.return (-1)).2.caller ≠ .start := fun _ hr => ⟨hr, nofun⟩
  unfold Session.callerStep
  rw [hs]
  simp only
  split
  · exact hback h (.refl h)
  rename_i info hinfo
  have href := refresh_refreshed a.env hinfo
  split
  · exact hback h (.refl h)
  split
  · rename_i h' he
    rw [he] at href
    exact hback h' href
  · rename_i h' info' he
    rw [he] at href
    simp only
    split
    · exact ⟨href, nofun⟩
    · exact hback h' href

/-- The later ones change only processes. -/
theorem callerStep_processes (hs : s.caller ≠ .start) :
    Processes h (s.callerStep a h).1 ∧ (s.callerStep a h).2.caller ≠ .start := by
  have hback : Processes h (h, s.return (-1)).1 ∧ (h, s.return (-1)).2.caller ≠ .start := ⟨.refl h, nofun⟩
  have hstay : Processes h (h, s).1 ∧ (h, s).2.caller ≠ .start := ⟨.refl h, hs⟩
  unfold Session.callerStep
  split
  · rename_i hstart
    exact absurd hstart hs
  · split
    · exact hback
    · split
      · exact hback
      · exact ⟨.refl h, nofun⟩
  · split
    · exact hback
    · exact ⟨.refl h, nofun⟩
  · split
    · exact hback
    · exact ⟨addProcess_processes _ _ _, nofun⟩
  · split
    · exact hstay
    · split
      · exact hback
      · split
        · exact ⟨⟨_, h.clock, rfl⟩, nofun⟩
        · exact hstay
  · exact hstay

end Exec

/-- **`docker exec`**: a refresh, and then nothing but processes. -/
theorem dockerExec_effects (calls : List ExecMove) (arguments : Exec.ExecArguments) (h : Host) :
    ∃ h₁, Refreshed h h₁ ∧ Processes h₁ (dockerExec calls arguments h) := by
  -- until the caller moves there is no other process of the session
  have hrun : Runs.run ExecMove.step (h, ⟨arguments, .start, none, none⟩) calls =
        (h, ⟨arguments, .start, none, none⟩) ∨
      (Runs.run ExecMove.step (h, ⟨arguments, .start, none, none⟩) calls).2.caller ≠ .start ∧
        ∃ h₁, Refreshed h h₁ ∧ Processes h₁ (Runs.run ExecMove.step (h, ⟨arguments, .start, none, none⟩) calls).1 := by
    refine Runs.run_keeps (I := fun x : Host × Exec.Session => x = (h, ⟨arguments, .start, none, none⟩) ∨
      x.2.caller ≠ .start ∧ ∃ h₁, Refreshed h h₁ ∧ Processes h₁ x.1) ?_ (Or.inl rfl)
    rintro x c (rfl | ⟨hmoved, h₁, hfirst, hrest⟩)
    · cases c with
      | caller a =>
        obtain ⟨hr, hne⟩ := callerStep_start a h ⟨arguments, .start, none, none⟩ rfl
        exact Or.inr ⟨hne, _, hr, .refl _⟩
      | worker a => exact Or.inl rfl
      | command a => exact Or.inl rfl
    · right
      cases c with
      | caller a =>
        obtain ⟨hp, hne⟩ := callerStep_processes a x.1 x.2 hmoved
        exact ⟨hne, h₁, hfirst, hrest.trans hp⟩
      | worker a =>
        obtain ⟨hp, hsame⟩ := workerStep_processes a x.1 x.2
        exact ⟨hsame.symm ▸ hmoved, h₁, hfirst, hrest.trans hp⟩
      | command a =>
        obtain ⟨hp, hsame⟩ := commandStep_processes a x.1 x.2
        exact ⟨hsame.symm ▸ hmoved, h₁, hfirst, hrest.trans hp⟩
  rcases hrun with he | ⟨-, hdone⟩
  · refine ⟨h, .refl h, ?_⟩
    unfold dockerExec
    rw [he]
    exact .refl h
  · exact hdone

/-- Only the object at one place of the trees differs. -/
def Written (place : Option Path) (h h' : Host) : Prop :=
  ∃ obj, h' = { h with space := { h.space with obj := obj } } ∧
    ∀ fs q, obj fs q ≠ h.space.obj fs q → ∃ p, place = some p ∧ (fs, q) = h.space.loc p

/-- **`docker commit`** writes its archive. -/
theorem dockerCommit_written (name : Text) (place : Option Path) (h : Host) :
    Written place h (dockerCommit name place h) := by
  have hsame : Written place h h := ⟨h.space.obj, rfl, fun _ _ hne => absurd rfl hne⟩
  unfold dockerCommit
  split
  · exact hsame
  split
  · exact hsame
  · rename_i p _
    refine ⟨_, rfl, fun fs q hne => ⟨p, rfl, ?_⟩⟩
    by_contra hother
    exact hne (if_neg hother)

theorem Written.marks {place : Option Path} {h h' : Host} (hw : Written place h h') (n : Text) :
    SameMarks n h h' := by
  obtain ⟨_, rfl, -⟩ := hw
  exact .of_eq rfl rfl rfl

/-! ## Containers and their names -/

/-- Something of the container is there. -/
def Present (n : Text) (h : Host) : Prop := h.workspace n = true ∨ n ∈ h.cgroups ∨ (h.info n).isSome = true

theorem SameMarks.present {n : Text} {h h' : Host} (hm : SameMarks n h h') : Present n h' ↔ Present n h := by
  unfold Present
  rw [hm.workspace, hm.cgroup, hm.info]

def MachineCommand.concerns (n : Text) : MachineCommand → Prop
  | .command _ c => c.concerns n
  | _ => False

/-- Only `docker run` and `docker rm` of a name change whether the container is there. -/
theorem Machine.step_marks {n : Text} (m : Machine) {c : MachineCommand} (hc : ¬ c.concerns n)
    (hboot : ∀ boot, c ≠ .reboot boot) : SameMarks n m.world.host (m.step c).world.host := by
  rcases m.step_cases c with ⟨boot, rfl⟩ | ⟨h, hnet, hw | ⟨net, c', rfl, hw⟩⟩
  · exact absurd rfl (hboot boot)
  · rw [hw]
    exact hnet.net.marks n
  · rw [hw]
    exact (hnet.net.marks n).trans (World.step_marks { m.world with host := h } hc)

theorem Machine.step_present {n : Text} {m : Machine} {c : MachineCommand} (hc : ¬ c.concerns n)
    (hclean : c.CleanBoot) (hn : Present n (m.step c).world.host) : Present n m.world.host := by
  by_cases hboot : ∃ boot, c = .reboot boot
  · obtain ⟨boot, rfl⟩ := hboot
    rcases hn with hw | hcg | hi
    · exact Or.inl hw
    · have hnone : n ∈ boot.host.cgroups := hcg
      rw [hclean.2] at hnone
      cases hnone
    · exact Or.inr (Or.inr hi)
  · exact (m.step_marks hc fun boot he => hboot ⟨boot, he⟩).present.1 hn

def LineStep.concerns (n : Text) : LineStep → Prop
  | .command c => c.concerns n
  | _ => False

def LineStep.CleanBoot : LineStep → Prop
  | .command c => c.CleanBoot
  | _ => True

theorem LineStep.step_marks {n : Text} (m : Machine) {st : LineStep} (hc : ¬ st.concerns n)
    (hboot : ∀ boot, st ≠ .command (.reboot boot)) : SameMarks n m.world.host (LineStep.step m st).world.host := by
  cases st with
  | command c => exact m.step_marks hc fun boot he => hboot boot (he ▸ rfl)
  | exec calls arguments =>
    obtain ⟨h₁, hr, hp⟩ := dockerExec_effects calls arguments m.world.host
    exact (hr.marks n).trans (hp.marks n)
  | commit name place => exact (dockerCommit_written name place m.world.host).marks n

theorem LineStep.step_present {n : Text} {m : Machine} {st : LineStep} (hc : ¬ st.concerns n)
    (hclean : st.CleanBoot) (hn : Present n (LineStep.step m st).world.host) : Present n m.world.host := by
  cases st with
  | command c => exact Machine.step_present hc hclean hn
  | exec calls arguments => exact (LineStep.step_marks m hc nofun).present.1 hn
  | commit name place => exact (LineStep.step_marks m hc nofun).present.1 hn

/-- A name that no line names. -/
theorem DockerCmd.steps_spare {cmd : DockerCmd} {n : Text} (hn : n ∉ cmd.containers) (e : LineEnv) :
    ∀ st ∈ cmd.steps e, ¬ st.concerns n ∧ ∀ boot, st ≠ .command (.reboot boot) := by
  intro st hst
  cases cmd with
  | run arguments env =>
    simp only [DockerCmd.steps] at hst
    split at hst
    · rw [List.mem_singleton.1 hst]
      exact ⟨fun he => hn (List.mem_singleton.2 he.symm), nofun⟩
    · cases hst
  | commit name tar =>
    rw [List.mem_singleton.1 hst]
    exact ⟨id, nofun⟩
  | ps all =>
    obtain ⟨t, -, rfl⟩ := List.mem_map.1 hst
    exact ⟨id, nofun⟩
  | top name => cases hst
  | exec arguments =>
    rw [List.mem_singleton.1 hst]
    exact ⟨id, nofun⟩
  | stop time names =>
    rw [List.mem_singleton.1 hst]
    exact ⟨id, nofun⟩
  | rm names =>
    rw [List.mem_singleton.1 hst]
    refine ⟨fun hin => hn ?_, nofun⟩
    have hin : n ∈ (rounds e.envs names).map Prod.fst := hin
    rw [rounds_names] at hin
    exact hin
  | inspect name =>
    rw [List.mem_singleton.1 hst]
    exact ⟨id, nofun⟩
  | stats name =>
    rw [List.mem_singleton.1 hst]
    exact ⟨id, nofun⟩
  | networkCreate name cider =>
    simp only [DockerCmd.steps] at hst
    split at hst
    · rw [List.mem_singleton.1 hst]
      exact ⟨id, nofun⟩
    · cases hst
  | networkList => cases hst
  | networkRm names =>
    rw [List.mem_singleton.1 hst]
    exact ⟨id, nofun⟩

theorem MachineCommand.Outside.spare {c : MachineCommand} (hc : c.Outside) (n : Text) :
    ¬ c.concerns n ∧ c.CleanBoot := by
  cases c with
  | command net c =>
    refine ⟨?_, trivial⟩
    cases c with
    | run env args => exact hc.elim
    | stop time targets => exact hc.elim
    | rm targets => exact hc.elim
    | refresh name env => exact hc.elim
    | reap env k => exact id
    | exit pid => exact id
    | collect pid => exact id
    | fork parent pid => exact id
    | spawn pid => exact id
    | edit obj => exact id
  | networkCreate net name cidr => exact hc.elim
  | networkRm targets => exact hc.elim
  | reboot boot => exact ⟨id, hc.1⟩

/-- No event concerns a name that is not valid. -/
theorem SessionEvent.spares {ev : SessionEvent} (hev : ev.Defined) {n : Text}
    (hn : tdValidateName n TINYDOCKER_MAX_CONTAINER_NAME ≠ .ok ()) :
    ∀ st ∈ ev.steps, ¬ st.concerns n ∧ st.CleanBoot := by
  intro st hst
  cases ev with
  | outside c =>
    rw [List.mem_singleton.1 hst]
    exact MachineCommand.Outside.spare hev n
  | line e argv =>
    unfold SessionEvent.steps at hst
    simp only at hst
    split at hst
    · cases hst
    · rename_i cmd hparse
      obtain ⟨hspare, hboot⟩ := DockerCmd.steps_spare
        (fun hin => hn ((parseDockerCmd_ok hparse).containers n hin)) e st hst
      refine ⟨hspare, ?_⟩
      cases st with
      | command c =>
        cases c with
        | reboot boot => exact absurd rfl (hboot boot)
        | _ => trivial
      | _ => trivial

/-- **Every container has its own paths.**  After any session in which no line writes behind an array and no
archive goes into a directory of the program, on a machine that has nothing under a name that is not valid:
every container has a valid name, all its paths can be built and lie in its own places, and none is at or below
a path of another container. -/
theorem session_names (m : Machine) (evs : List SessionEvent) (hevs : ∀ ev ∈ evs, ev.Defined)
    (hstart : ∀ n, Present n m.world.host → tdValidateName n TINYDOCKER_MAX_CONTAINER_NAME = .ok ())
    (n : Text) (hn : Present n (m.session evs).world.host) :
    tdValidateName n TINYDOCKER_MAX_CONTAINER_NAME = .ok () ∧
      ∀ p ∈ containerPaths n, ∃ path, p = some path ∧ Belongs n path ∧
        ∀ k, Present k (m.session evs).world.host → k ≠ n → ∀ q, some q ∈ containerPaths k →
          ¬ components q <+: components path := by
  have hvalid : ∀ k, Present k (m.session evs).world.host →
      tdValidateName k TINYDOCKER_MAX_CONTAINER_NAME = .ok () := by
    intro k hk
    by_contra hbad
    have hkeep : ∀ (m : Machine) (st : LineStep), ¬ Present k m.world.host → ¬ st.concerns k ∧ st.CleanBoot →
        ¬ Present k (LineStep.step m st).world.host :=
      fun m st hm hst hn => hm (LineStep.step_present hst.1 hst.2 hn)
    have habsent : ¬ Present k (m.session evs).world.host := by
      refine Runs.run_of_mem (I := fun m : Machine => ¬ Present k m.world.host) hkeep
        (fun hn => hbad (hstart k hn)) fun st hst => ?_
      obtain ⟨ev, hev, hst⟩ := List.mem_flatMap.1 hst
      exact SessionEvent.spares (hevs ev hev) hbad st hst
    exact habsent hk
  refine ⟨hvalid n hn, fun p hp => ?_⟩
  obtain ⟨path, hpath, hbelongs⟩ := containerPaths_belong (hvalid n hn) p hp
  refine ⟨path, hpath, hbelongs, fun k hk hne q hq => ?_⟩
  obtain ⟨path', hpath', hbelongs'⟩ := containerPaths_belong (hvalid k hk) _ hq
  cases hpath'
  exact hbelongs'.apart hne hbelongs

/-- Nothing fails. -/
def LineEnv.quiet (calls : List ArgpCall) : LineEnv :=
  ⟨fun _ _ => calls, 0, true, fun _ => false, .quiet [ "img".toList] 20, fun _ => .quiet [] 0,
    fun _ _ => false, [ "web001".toList], [], none⟩

/-- `tinydocker run -d -n web001 img /bin/sh`. -/
def runLine : SessionEvent :=
  .line (.quiet [.option 'd' [], .option 'n' "web001".toList, .argument "img".toList 5])
    [ "tinydocker".toList, "run".toList, "-d".toList, "-n".toList, "web001".toList, "img".toList, "/bin/sh".toList]

theorem runLine_names : (containerLogPath "web001".toList).isSome = true := by
  have hparsed : runLine.Defined := by
    refine ⟨?_, nofun⟩
    decide +kernel
  have hpresent : Present "web001".toList (Machine.fresh.session [runLine]).world.host := Or.inl (by decide +kernel)
  have hnone : ∀ n, Present n Machine.fresh.world.host → tdValidateName n TINYDOCKER_MAX_CONTAINER_NAME = .ok () := by
    rintro n (hw | hcg | hi)
    · cases hw
    · cases hcg
    · cases hi
  obtain ⟨-, hpaths⟩ := session_names Machine.fresh [runLine] (List.forall_mem_singleton.2 hparsed) hnone
    "web001".toList hpresent
  obtain ⟨path, hpath, -⟩ := hpaths (containerLogPath "web001".toList) (by decide +kernel)
  rw [hpath]
  rfl

/-! ## What a line leaves alone -/

theorem World.refresh_refreshed (w : World) (name : Text) (env : Env) :
    ∃ h, w.step (.refresh name env) = { w with host := h } ∧ Refreshed w.host h := by
  simp only [World.step]
  split
  · exact ⟨w.host, rfl, .refl _⟩
  · rename_i i hi
    exact ⟨_, rfl, TinyDocker.refresh_refreshed env hi⟩

end TinyDocker
