import TinyDocker.Cmdparser.Run
import TinyDocker.Docker.NewRoot
import TinyDocker.Docker.ProcessEnv
import TinyDocker.Docker.RuntimePaths
import TinyDocker.Docker.StartupGate
import TinyDocker.Lib.Runs

/-!
# The child of `docker run` (`child_fn` in `docker/container.c`)

Before it waits at the startup gate the child sends its output to the log of a detached container, builds the
environment of the command and makes the mountpoint its root; a failure of any of these ends it.  When the
parent has authorized the start it calls `execve`.  The parent works on at the same time, and other processes
create and remove files.

Principal results: `child_refines_gate` — of parent and child one sees a run of the startup gate;
`command_is_prepared` — whatever the order of the steps, a command is called only when all the startup steps
are made, with the words of the command line, the environment, the streams and the root that it is to have.
-/

set_option autoImplicit false

namespace TinyDocker

open CText MountSpace

/-- What a standard stream of the child leads to. -/
inductive Stream where
  | inherited
  | object (fs : Nat) (path : Path)
  deriving DecidableEq, Repr

/-- The arguments of `execve`. -/
structure ExecCall where
  file : Option Text
  argv : List Text
  envp : List Text
  deriving DecidableEq, Repr

/-- What the child has to do next before the gate. -/
inductive Prep where
  | redirect
  | environment
  | newRoot
  | done
  deriving DecidableEq, Repr

/-- Parent and child around the gate, and what the child has prepared.  The space is the mount namespace of
the child over the objects of the host. -/
structure Child where
  gate : Gate
  prep : Prep
  space : Space
  stdout : Stream
  stderr : Stream
  envs : List Text
  call : Option ExecCall

/-- After `pipe()`: the child is to get the space of its parent. -/
def Child.init (space : Space) : Child := ⟨.init, .redirect, space, .inherited, .inherited, [], none⟩

/-- Calls that may fail for a reason of their own. -/
structure LogFaults where
  openLog : Bool
  dupStdout : Bool
  dupStderr : Bool

inductive ChildAct where
  | gate (a : GateAct)
  -- another process changes files
  | outside (obj : Nat → Path → Option Obj)
  | redirect (f : LogFaults)
  | environment (a : EnvAnswers)
  | newRoot (f : RootFaults) (order : Space → Path → List Path) (procfs : Path → Option Obj)
  | execve

def newFile (sp : Space) (p : Path) : Space :=
  { sp with obj := fun fs q => if (fs, q) = sp.loc p then some .file else sp.obj fs q }

/-- `open(.., O_WRONLY | O_CREAT | O_TRUNC | O_NOFOLLOW)` of an absolute path: the last component is no link
and no directory. -/
def openLog (sp : Space) (path : Text) : Except Errno (Space × Nat × Path) :=
  if path.getLast? = some '/' then .error .EOTHER
  else match sp.resolve [] (components path).dropLast, (components path).getLast? with
    | .error e, _ => .error e
    | .ok _, none => .error .EOTHER
    | .ok dir, some c =>
      if sp.look dir = some .file then .error .ENOTDIR
      else if c = ['.'] ∨ c = ['.', '.'] then .error .EOTHER
      else match sp.look (dir ++ [c]) with
        | none => .ok (newFile sp (dir ++ [c]), sp.loc (dir ++ [c]))
        | some .file => .ok (sp, sp.loc (dir ++ [c]))
        | some .dir => .error .EOTHER
        | some (.link _) => .error .ELOOP

section Model

variable (args : RunOptions) (h : EnvHost) (cwd : Path)

/-- `_exit(126)`. -/
def Child.fail (σ : Child) : Child := { σ with gate := σ.gate.step (.childSetup false) }

/-- The log of a detached container. -/
def Child.redirect (f : LogFaults) (σ : Child) : Child :=
  if args.detach = false then { σ with prep := .environment }
  else match containerLogPath args.name with
    | none => σ.fail
    | some path =>
      if f.openLog then σ.fail
      else match openLog σ.space path with
        | .error _ => σ.fail
        | .ok (space, fs, q) =>
          if f.dupStdout then { σ with space := space }.fail
          else if f.dupStderr then { σ with space := space, stdout := .object fs q }.fail
          else { σ with space := space, stdout := .object fs q, stderr := .object fs q, prep := .environment }

def Child.environment (a : EnvAnswers) (σ : Child) : Child :=
  match loadProcessEnv h a h.getpid (some (args.env.map KeyValPair.of)) args.env.length with
  | none => σ.fail
  | some envs => { σ with envs := envs, prep := .newRoot }

def Child.newRoot (f : RootFaults) (order : Space → Path → List Path) (procfs : Path → Option Obj)
    (σ : Child) : Child :=
  let r := initAndSetNewRoot f order procfs cwd σ.space (mountpointText args.name)
  if r.2 then { σ with space := r.1, prep := .done, gate := σ.gate.step (.childSetup true) }
  else { σ with space := r.1 }.fail

/-- One step of the parent, of the child or of another process; `childSetup` is made of the three parts. -/
def Child.step (σ : Child) : ChildAct → Child
  | .gate (.childSetup _) => σ
  | .gate a => { σ with gate := σ.gate.step a }
  | .outside obj => { σ with space := { σ.space with obj := obj } }
  | .redirect f => if σ.gate.child = .setup ∧ σ.prep = .redirect then σ.redirect args f else σ
  | .environment a => if σ.gate.child = .setup ∧ σ.prep = .environment then σ.environment args h a else σ
  | .newRoot f order procfs =>
    if σ.gate.child = .setup ∧ σ.prep = .newRoot then σ.newRoot args cwd f order procfs else σ
  | .execve =>
    if σ.gate.child = .exec ∧ σ.call = none then
      { σ with call := some ⟨args.containerArgv.head?, args.containerArgv, σ.envs⟩ }
    else σ

end Model

/-! ## What a step of the gate can do to the child -/

/-- The child has made its preparations. -/
def ChildPc.passed : ChildPc → Bool
  | .closeWrite | .reading | .received _ _ | .exec => true
  | _ => false

/-- The child has not left its preparations. -/
def ChildPc.preparing : ChildPc → Bool
  | .unborn | .setup => true
  | _ => false

/-- A step that takes no child from its preparations to the gate or back. -/
structure Gate.Frame (σ σ' : Gate) : Prop where
  passed : σ'.child.passed = true → σ.child.passed = true
  preparing : σ'.child.preparing = true → σ.child.preparing = true
  born : σ'.parent = .clone → σ'.child = .unborn
  written : σ.written = true → σ'.written = true

section

variable {σ σ' : Gate} (hborn : σ.parent = .clone → σ.child = .unborn)
include hborn

theorem Gate.Frame.refl : σ.Frame σ := ⟨id, id, hborn, id⟩

/-- A step of the parent. -/
theorem Gate.Frame.parent (hchild : σ'.child = σ.child) (hparent : σ'.parent = .clone → σ.parent = .clone)
    (hwritten : σ.written = true → σ'.written = true) : σ.Frame σ' := by
  refine ⟨?_, ?_, fun h => hchild.trans (hborn (hparent h)), hwritten⟩
  · rw [hchild]
    exact id
  · rw [hchild]
    exact id

omit hborn in
/-- A step from a position that is no preparation. -/
theorem Gate.Frame.child (hborn : σ.parent ≠ .clone) (hfrom : σ'.child.passed = true → σ.child.passed = true)
    (hto : σ'.child.preparing = false) (hparent : σ'.parent = σ.parent)
    (hwritten : σ'.written = σ.written) : σ.Frame σ' := by
  refine ⟨hfrom, fun h => ?_, fun h => absurd (hparent ▸ h) hborn, fun h => hwritten.trans h⟩
  rw [hto] at h
  cases h

theorem not_clone {pc : ChildPc} (hpc : σ.child = pc) (hne : pc ≠ .unborn) : σ.parent ≠ .clone :=
  fun h => hne (hpc.symm.trans (hborn h))

/-- Without `childSetup` no child leaves its preparations for the gate, and none goes back to them. -/
theorem step_frame {a : GateAct} (ha : ∀ ok, a ≠ .childSetup ok) : σ.Frame (σ.step a) := by
  have hsame := Gate.Frame.refl hborn
  cases a with
  | clone ok =>
    simp only [Gate.step]
    split
    · rename_i hpc
      split
      · exact ⟨fun h => (by cases h), fun _ => by rw [hborn hpc]; rfl, fun h => (by cases h), id⟩
      · exact .parent hborn rfl (fun h => (by cases h)) id
    · exact hsame
  | startup ok =>
    simp only [Gate.step]
    split
    · rename_i s left hpc
      split
      · refine .parent hborn rfl (fun h => ?_) id
        cases left with
        | nil => cases h
        | cons s left => cases h
      · exact .parent hborn rfl (fun h => (by cases h)) id
    · exact hsame
  | helperForks =>
    simp only [Gate.step]
    split
    · exact .parent hborn rfl id id
    · exact hsame
  | helperExits => exact .parent hborn rfl id id
  | closeRead =>
    simp only [Gate.step]
    split
    · exact .parent hborn rfl (fun h => (by cases h)) id
    · exact hsame
  | write r =>
    simp only [Gate.step]
    split
    · exact hsame
    · split
      · exact .parent hborn rfl (fun h => (by cases h)) fun _ => rfl
      · exact .parent hborn rfl (fun h => (by cases h)) id
    · exact .parent hborn rfl (fun h => (by cases h)) id
    · exact hsame
  | closeWrite =>
    simp only [Gate.step]
    split
    · exact .parent hborn rfl (fun h => (by cases h)) id
    · exact hsame
  | killChild =>
    simp only [Gate.step]
    split
    · split
      · exact ⟨fun h => (by cases h), fun h => (by cases h), fun h => (by cases h), id⟩
      · exact .parent hborn rfl (fun h => (by cases h)) id
    · exact hsame
  | closePipe =>
    simp only [Gate.step]
    split
    · exact .parent hborn rfl (fun h => (by cases h)) id
    · exact hsame
  | parentDies => exact .parent hborn rfl (fun h => (by cases h)) id
  | childSetup ok => exact absurd rfl (ha ok)
  | childCloseWrite =>
    simp only [Gate.step]
    split
    · rename_i hpc
      exact .child (not_clone hborn hpc (by decide)) (fun _ => by rw [hpc]; rfl) rfl rfl rfl
    · exact hsame
  | childRead r =>
    simp only [Gate.step]
    split
    · exact hsame
    · rename_i hpc
      exact .child (not_clone hborn hpc (by decide)) (fun _ => by rw [hpc]; rfl) rfl rfl rfl
    · rename_i hpc
      exact .child (not_clone hborn hpc (by decide)) (fun _ => by rw [hpc]; rfl) rfl rfl rfl
    · rename_i hpc
      split
      · exact .child (not_clone hborn hpc (by decide)) (fun _ => by rw [hpc]; rfl) rfl rfl rfl
      · split
        · exact hsame
        · exact .child (not_clone hborn hpc (by decide)) (fun _ => by rw [hpc]; rfl) rfl rfl rfl
    · exact hsame
  | childDecide =>
    simp only [Gate.step]
    split
    · rename_i c m hpc
      have hparent := not_clone hborn hpc (by simp)
      split
      · exact .child hparent (fun h => (by cases h)) rfl rfl rfl
      · exact .child hparent (fun _ => by rw [hpc]; rfl) rfl rfl rfl
    · exact hsame
  | childDies =>
    simp only [Gate.step]
    split
    · rename_i hwaits
      refine .child (fun h => ?_) (fun h => (by cases h)) rfl rfl rfl
      rw [hborn h] at hwaits
      cases hwaits
    · exact hsame

end

/-! ## What the child has prepared -/

/-- A log that is no link leads to the file of that name in the log directory, new or not. -/
theorem openLog_ok {sp sp' : Space} {name path : Text} {fs : Nat} {q : Path}
    (hname : tdValidateName name 127 = .ok ()) (hpath : containerLogPath name = some path)
    (h : openLog sp path = .ok (sp', fs, q)) :
    (∃ dir, sp.resolve [] (components CONTAINER_LOG_DIR) = .ok dir ∧ (fs, q) = sp.loc (dir ++ [name]) ∧
      (sp.look (dir ++ [name]) = none ∨ sp.look (dir ++ [name]) = some .file)) ∧
      sp'.table = sp.table ∧ sp'.nextFs = sp.nextFs := by
  have hparts : components path = components CONTAINER_LOG_DIR ++ [name] := by
    unfold containerLogPath pathBelow at hpath
    split at hpath
    · cases hpath
    · cases hpath
      rw [components_append_slash, components_name hname]
  unfold openLog at h
  split at h
  · cases h
  rw [hparts, List.dropLast_concat, List.getLast?_concat] at h
  split at h
  · cases h
  · rename_i hlast
    cases hlast
  · rename_i dir c hdir hlast
    cases hlast
    split at h
    · cases h
    split at h
    · cases h
    split at h
    · rename_i hnone
      simp only [Except.ok.injEq, Prod.mk.injEq] at h
      obtain ⟨rfl, hq⟩ := h
      exact ⟨⟨dir, hdir, hq.symm, Or.inl hnone⟩, rfl, rfl⟩
    · rename_i hfile
      simp only [Except.ok.injEq, Prod.mk.injEq] at h
      obtain ⟨rfl, hq⟩ := h
      exact ⟨⟨dir, hdir, hq.symm, Or.inr hfile⟩, rfl, rfl⟩
    · cases h
    · cases h

section

variable (args : RunOptions) (h : EnvHost) (cwd : Path) (past : Space → Prop)

/-- Where both streams lead: without `-d` to those of the parent, else to the log, which the directory of the
logs held under the name of the container as a file, or not at all, when it was opened. -/
def Redirected (stdout stderr : Stream) : Prop :=
  if args.detach = false then stdout = .inherited ∧ stderr = .inherited
  else ∃ sp dir, past sp ∧ sp.resolve [] (components CONTAINER_LOG_DIR) = .ok dir ∧
    (sp.look (dir ++ [args.name]) = none ∨ sp.look (dir ++ [args.name]) = some .file) ∧
    stdout = .object (sp.loc (dir ++ [args.name])).1 (sp.loc (dir ++ [args.name])).2 ∧ stderr = stdout

/-- Every path stands for one below the directory that the mountpoint led to, or for one of the container's
own proc file system. -/
def Rooted (space : Space) : Prop :=
  ∃ sp root, past sp ∧ root ≠ [] ∧ realpath sp cwd (mountpointText args.name) = .ok root ∧
    (∀ p, ¬ [ "proc".toList] <+: p → space.loc p = sp.loc (root ++ p)) ∧
    ∀ p, space.loc ("proc".toList :: p) = (sp.nextFs, p)

/-- The environment of the command. -/
def commandEnv : List Text :=
  (inherited h h.getpid ++ args.env.map fun p => entryText p.1 p.2).take MAX_ENV_COUNT

structure Child.Inv (start : Space) (σ : Child) : Prop where
  gate : GateInv σ.gate
  born : σ.gate.parent = .clone → σ.gate.child = .unborn
  passed : σ.gate.child.passed = true → σ.prep = .done
  preparing : σ.gate.child.preparing = true →
    σ.prep ≠ .done ∧ σ.space.table = start.table ∧ σ.space.nextFs = start.nextFs ∧
      (σ.prep = .redirect → σ.stdout = .inherited ∧ σ.stderr = .inherited)
  log : σ.prep ≠ .redirect → Redirected args past σ.stdout σ.stderr
  envs : σ.prep = .newRoot ∨ σ.prep = .done → σ.envs = commandEnv args h
  root : σ.prep = .done → Rooted args cwd past σ.space
  call : ∀ c, σ.call = some c → σ.gate.written = true ∧ σ.prep = .done ∧
    c = ⟨args.containerArgv.head?, args.containerArgv, σ.envs⟩

end

section

variable {args : RunOptions} {h : EnvHost} {cwd : Path} {past past' : Space → Prop}
  {start : Space} {σ : Child}

theorem Child.Inv.init (space : Space) : Child.Inv args h cwd past space (.init space) :=
  ⟨GateInv.init, fun _ => rfl, fun hc => (by cases hc), fun _ => ⟨nofun, rfl, rfl, fun _ => ⟨rfl, rfl⟩⟩,
    fun hp => absurd rfl hp, fun hp => (by rcases hp with hp | hp <;> cases hp), fun hp => (by cases hp),
    fun _ hc => (by cases hc)⟩

theorem Redirected.mono (hle : ∀ sp, past sp → past' sp) {stdout stderr : Stream}
    (hr : Redirected args past stdout stderr) : Redirected args past' stdout stderr := by
  unfold Redirected at hr ⊢
  split
  · rename_i hdetach
    rwa [if_pos hdetach] at hr
  · rename_i hdetach
    rw [if_neg hdetach] at hr
    obtain ⟨sp, dir, hsp, hlog⟩ := hr
    exact ⟨sp, dir, hle sp hsp, hlog⟩

theorem Child.Inv.mono (hle : ∀ sp, past sp → past' sp) (hI : Child.Inv args h cwd past start σ) :
    Child.Inv args h cwd past' start σ := by
  refine ⟨hI.gate, hI.born, hI.passed, hI.preparing, fun hp => (hI.log hp).mono hle, hI.envs, fun hp => ?_,
    hI.call⟩
  obtain ⟨sp, root, hsp, hroot⟩ := hI.root hp
  exact ⟨sp, root, hle sp hsp, hroot⟩

/-- `childSetup false` ends a child that is at its preparations. -/
theorem step_childSetup_false {γ : Gate} (hsetup : γ.child = .setup) :
    γ.step (.childSetup false) = γ.childExit 126 := by
  simp only [Gate.step, hsetup]
  rfl

theorem step_childSetup_true {γ : Gate} (hsetup : γ.child = .setup) :
    γ.step (.childSetup true) = { γ with child := .closeWrite } := by
  simp only [Gate.step, hsetup]
  rfl

/-- Whatever the failing part has done before it fails. -/
theorem Child.Inv.fail (hI : Child.Inv args h cwd past start σ) (hsetup : σ.gate.child = .setup)
    (space : Space) {stdout stderr : Stream}
    (hstreams : σ.prep ≠ .redirect → stdout = σ.stdout ∧ stderr = σ.stderr) :
    Child.Inv args h cwd past start
      { σ with space := space, stdout := stdout, stderr := stderr }.fail := by
  obtain ⟨hprep, -⟩ := hI.preparing (by rw [hsetup]; rfl)
  unfold Child.fail
  rw [step_childSetup_false hsetup]
  refine ⟨hI.gate.childExit 126, fun hc => ?_, fun hc => (by cases hc), fun hc => (by cases hc), fun hp => ?_,
    hI.envs, fun hp => absurd hp hprep, fun c hc => absurd (hI.call c hc).2.1 hprep⟩
  · have hunborn := hI.born hc
    rw [hsetup] at hunborn
    cases hunborn
  · obtain ⟨rfl, rfl⟩ := hstreams hp
    exact hI.log hp

theorem Child.Inv.redirect (hI : Child.Inv args h cwd past start σ)
    (hname : tdValidateName args.name 127 = .ok ()) (hpast : past σ.space) (hsetup : σ.gate.child = .setup)
    (hprep : σ.prep = .redirect) (f : LogFaults) :
    Child.Inv args h cwd past start (σ.redirect args f) := by
  obtain ⟨hnot, htable, hnext, hstreams⟩ := hI.preparing (by rw [hsetup]; rfl)
  have hopen : ∀ {space : Space} {stdout stderr : Stream}, space.table = σ.space.table →
      space.nextFs = σ.space.nextFs → Redirected args past stdout stderr →
      Child.Inv args h cwd past start
        { σ with space := space, stdout := stdout, stderr := stderr, prep := .environment } := by
    intro space stdout stderr ht hn hr
    exact ⟨hI.gate, hI.born, fun hc => absurd (hprep.symm.trans (hI.passed hc)) (by decide),
      fun _ => ⟨nofun, ht.trans htable, hn.trans hnext, fun hp => (by cases hp)⟩, fun _ => hr,
      fun hp => (by rcases hp with hp | hp <;> cases hp), fun hp => (by cases hp),
      fun c hc => absurd (hI.call c hc).2.1 hnot⟩
  have hkeep : σ.prep ≠ .redirect → ∀ {out err : Stream}, out = σ.stdout ∧ err = σ.stderr :=
    fun hp => absurd hprep hp
  unfold Child.redirect
  split
  · rename_i hdetach
    refine hopen rfl rfl ?_
    unfold Redirected
    rw [if_pos hdetach]
    exact hstreams hprep
  rename_i hdetach
  split
  · exact hI.fail hsetup _ fun hp => hkeep hp
  rename_i path hpath
  split
  · exact hI.fail hsetup _ fun hp => hkeep hp
  split
  · exact hI.fail hsetup _ fun hp => hkeep hp
  rename_i space fs q hlog
  obtain ⟨⟨dir, hdir, hq, hlook⟩, ht, hn⟩ := openLog_ok hname hpath hlog
  split
  · exact hI.fail hsetup _ fun hp => hkeep hp
  split
  · exact hI.fail hsetup _ fun hp => hkeep hp
  · refine hopen ht hn ?_
    unfold Redirected
    rw [if_neg hdetach]
    exact ⟨σ.space, dir, hpast, hdir, hlook, by rw [← hq], rfl⟩

theorem Child.Inv.environment (hI : Child.Inv args h cwd past start σ)
    (hsetup : σ.gate.child = .setup) (hprep : σ.prep = .environment) (a : EnvAnswers) :
    Child.Inv args h cwd past start (σ.environment args h a) := by
  obtain ⟨hnot, htable, hnext, -⟩ := hI.preparing (by rw [hsetup]; rfl)
  unfold Child.environment
  split
  · exact hI.fail hsetup _ fun _ => ⟨rfl, rfl⟩
  · rename_i envs henvs
    exact ⟨hI.gate, hI.born, fun hc => absurd (hprep.symm.trans (hI.passed hc)) (by decide),
      fun _ => ⟨nofun, htable, hnext, fun hp => (by cases hp)⟩,
      fun _ => hI.log (by rw [hprep]; decide), fun _ => loadProcessEnv_eq henvs, fun hp => (by cases hp),
      fun c hc => absurd (hI.call c hc).2.1 hnot⟩

theorem Child.Inv.newRoot (hI : Child.Inv args h cwd past start σ)
    (hnum : start.Numbered) (htop : ∀ m ∈ start.table, m.path ≠ [])
    (hpast : past σ.space) (hsetup : σ.gate.child = .setup) (hprep : σ.prep = .newRoot) (f : RootFaults)
    {order : Space → Path → List Path} (hwalk : Walks order) (procfs : Path → Option Obj) :
    Child.Inv args h cwd past start (σ.newRoot args cwd f order procfs) := by
  obtain ⟨hnot, htable, hnext, -⟩ := hI.preparing (by rw [hsetup]; rfl)
  have hpath : (mountpointText args.name).head? = some '/' := rfl
  unfold Child.newRoot
  simp only
  split
  · rename_i hok
    obtain ⟨habs, hcwd⟩ := @initAndSetNewRoot_absolute f order procfs σ.space cwd _ hpath
    have hnum' : σ.space.Numbered := hnum.subset (Nat.le_of_eq hnext.symm) (htable ▸ fun _ hm => hm)
    rw [hcwd] at hok ⊢
    rcases @new_root_spec f order procfs σ.space [] (mountpointText args.name) hnum' hwalk (htable ▸ htop)
      (Canonical.nil _) with hfail | ⟨root, hreal, -, hnew⟩
    · rw [hfail] at hok
      cases hok
    · obtain ⟨hne, hroot⟩ := hnew hok
      rw [step_childSetup_true hsetup]
      exact ⟨hI.gate.moveChild (by simp) (by simp), fun hc => (by
          have hunborn := hI.born hc
          rw [hsetup] at hunborn
          cases hunborn), fun _ => rfl, fun hc => (by cases hc), fun _ => hI.log (by rw [hprep]; decide),
        fun _ => hI.envs (Or.inl hprep),
        fun _ => ⟨σ.space, root, hpast, hne, habs.trans hreal, hroot.below, hroot.proc⟩,
        fun c hc => absurd (hI.call c hc).2.1 hnot⟩
  · exact hI.fail hsetup _ fun _ => ⟨rfl, rfl⟩

/-- An action of the gate, `childSetup` apart, which is not one of these steps. -/
theorem step_of_gate (σ : Child) (g : GateAct) :
    ((∀ ok, g ≠ .childSetup ok) ∧
      σ.step args h cwd (.gate g) = { σ with gate := σ.gate.step g }) ∨
    σ.step args h cwd (.gate g) = σ := by
  cases g with
  | childSetup ok => exact Or.inr rfl
  | clone _ | startup _ | helperForks | helperExits | closeRead | write _ | closeWrite | killChild | closePipe
    | parentDies | childCloseWrite | childRead _ | childDecide | childDies => exact Or.inl ⟨nofun, rfl⟩

/-- The removal of an action visits what it has to. -/
def ChildAct.Walks : ChildAct → Prop
  | .newRoot _ order _ => TinyDocker.Walks order
  | _ => True

/-- **One step of the parent, of the child or of another process keeps the invariant.** -/
theorem Child.Inv.step (hI : Child.Inv args h cwd past start σ)
    (hname : tdValidateName args.name 127 = .ok ()) (hnum : start.Numbered)
    (htop : ∀ m ∈ start.table, m.path ≠ []) (hpast : past σ.space) {a : ChildAct} (hwalk : a.Walks) :
    Child.Inv args h cwd past start (σ.step args h cwd a) := by
  cases a with
  | gate g =>
    rcases step_of_gate σ g with ⟨hg, hstep⟩ | hstep
    · rw [hstep]
      have hframe := step_frame hI.born hg
      exact ⟨step_gateInv hI.gate g, hframe.born, fun hc => hI.passed (hframe.passed hc),
        fun hc => hI.preparing (hframe.preparing hc), hI.log, hI.envs, hI.root,
        fun c hc => ⟨hframe.written (hI.call c hc).1, (hI.call c hc).2⟩⟩
    · rw [hstep]
      exact hI
  | outside obj =>
    refine ⟨hI.gate, hI.born, hI.passed, hI.preparing, hI.log, hI.envs, fun hp => ?_, hI.call⟩
    obtain ⟨sp, root, hsp, hne, hreal, hbelow, hproc⟩ := hI.root hp
    exact ⟨sp, root, hsp, hne, hreal, hbelow, hproc⟩
  | redirect f =>
    simp only [Child.step]
    split
    · rename_i hat
      exact hI.redirect hname hpast hat.1 hat.2 f
    · exact hI
  | environment a =>
    simp only [Child.step]
    split
    · rename_i hat
      exact hI.environment hat.1 hat.2 a
    · exact hI
  | newRoot f order procfs =>
    simp only [Child.step]
    split
    · rename_i hat
      exact hI.newRoot hnum htop hpast hat.1 hat.2 f hwalk procfs
    · exact hI
  | execve =>
    simp only [Child.step]
    split
    · rename_i hat
      refine ⟨hI.gate, hI.born, hI.passed, hI.preparing, hI.log, hI.envs, hI.root, fun c hc => ?_⟩
      exact ⟨hI.gate.exec hat.1, hI.passed (by rw [hat.1]; rfl), (Option.some.inj hc).symm⟩
    · exact hI

end

/-! ## Runs -/

section

variable (args : RunOptions) (h : EnvHost) (cwd : Path) (space : Space)

/-- Parent, child and the other processes, in any order. -/
def Child.run (acts : List ChildAct) : Child :=
  Runs.run (Child.step args h cwd) (Child.init space) acts

/-- A space that the child has had in the course of the run. -/
def Seen (acts : List ChildAct) (sp : Space) : Prop :=
  ∃ before, before <+: acts ∧ sp = (Child.run args h cwd space before).space

theorem step_gate (σ : Child) (a : ChildAct) : ∃ moves, (σ.step args h cwd a).gate =
    Runs.run Gate.step σ.gate moves := by
  have hfail : ∀ τ : Child, τ.gate = σ.gate → ∃ moves, τ.fail.gate = Runs.run Gate.step σ.gate moves :=
    fun τ hτ => ⟨[.childSetup false], hτ ▸ rfl⟩
  cases a with
  | gate g =>
    rcases step_of_gate σ g with ⟨-, hstep⟩ | hstep
    · exact ⟨[g], by rw [hstep]; rfl⟩
    · exact ⟨[], by rw [hstep]; rfl⟩
  | outside obj => exact ⟨[], rfl⟩
  | redirect f =>
    simp only [Child.step, Child.redirect]
    split
    · split
      · exact ⟨[], rfl⟩
      split
      · exact hfail σ rfl
      split
      · exact hfail σ rfl
      split
      · exact hfail σ rfl
      split
      · exact hfail _ rfl
      split
      · exact hfail _ rfl
      · exact ⟨[], rfl⟩
    · exact ⟨[], rfl⟩
  | environment a =>
    simp only [Child.step, Child.environment]
    split
    · split
      · exact hfail σ rfl
      · exact ⟨[], rfl⟩
    · exact ⟨[], rfl⟩
  | newRoot f order procfs =>
    simp only [Child.step, Child.newRoot]
    split
    · split
      · exact ⟨[.childSetup true], rfl⟩
      · exact hfail _ rfl
    · exact ⟨[], rfl⟩
  | execve =>
    simp only [Child.step]
    split
    · exact ⟨[], rfl⟩
    · exact ⟨[], rfl⟩

/-- The three parts of the preparations are what the gate takes for one step. -/
theorem child_refines_gate (acts : List ChildAct) :
    ∃ moves, (Child.run args h cwd space acts).gate = Gate.init.run moves :=
  @Runs.run_simulates Child ChildAct (Child.step args h cwd) Gate GateAct Gate.step Child.gate
    (step_gate args h cwd) acts (Child.init space)

theorem child_run_inv {args : RunOptions} {h : EnvHost} {cwd : Path} {space : Space}
    (hname : tdValidateName args.name 127 = .ok ()) (hnum : space.Numbered)
    (htop : ∀ m ∈ space.table, m.path ≠ []) (acts : List ChildAct)
    (hwalks : ∀ a ∈ acts, a.Walks) :
    Child.Inv args h cwd (Seen args h cwd space acts) space
      (Child.run args h cwd space acts) := by
  refine Runs.run_history (I := fun acts σ => (∀ a ∈ acts, a.Walks) →
    Child.Inv args h cwd (Seen args h cwd space acts) space σ) ?_ ?_ acts hwalks
  · exact fun _ => Child.Inv.init space
  · intro acts a ih hwalks
    have hbefore := ih fun b hb => hwalks b (List.mem_append_left _ hb)
    have hmono : Child.Inv args h cwd (Seen args h cwd space (acts ++ [a])) space
        (Child.run args h cwd space acts) := hbefore.mono
      fun sp ⟨before, hpre, hsp⟩ => ⟨before, hpre.trans (List.prefix_append _ _), hsp⟩
    exact hmono.step hname hnum htop ⟨acts, List.prefix_append _ _, rfl⟩
      (hwalks a (List.mem_append_right _ (List.mem_singleton_self a)))

/-- **A command is prepared before it is called.**  However the steps of the parent, of the child and of other
processes follow each other and whatever fails: when the child has called `execve`, the parent has made all
four startup steps; the file is the first word of the command and the words are its arguments; the environment
is the first 256 of the inherited entries and the `-e` pairs; the streams are those of the parent, or with `-d`
lead to one file of the container's name in the log directory, which was no link; and every path means one
below the directory that the mountpoint led to, or one of the container's own proc file system. -/
theorem command_is_prepared (acts : List ChildAct) (c : ExecCall)
    (hname : tdValidateName args.name 127 = .ok ()) (hnum : space.Numbered)
    (htop : ∀ m ∈ space.table, m.path ≠ []) (hwalks : ∀ a ∈ acts, a.Walks)
    (hcall : (Child.run args h cwd space acts).call = some c) :
    (Child.run args h cwd space acts).gate.completed = startupSteps ∧
      c = ⟨args.containerArgv.head?, args.containerArgv, commandEnv args h⟩ ∧
      Redirected args (Seen args h cwd space acts) (Child.run args h cwd space acts).stdout
        (Child.run args h cwd space acts).stderr ∧
      Rooted args cwd (Seen args h cwd space acts) (Child.run args h cwd space acts).space := by
  have hI := @child_run_inv args h cwd space hname hnum htop acts hwalks
  obtain ⟨hwritten, hprep, hc⟩ := hI.call c hcall
  refine ⟨hI.gate.written hwritten, ?_, hI.log (by rw [hprep]; decide), hI.root hprep⟩
  rw [hc, hI.envs (Or.inr hprep)]

end

/-- The directories of a container and of the logs. -/
def childTree : Space :=
  { obj := fun fs p => if fs = 0 ∧ (p.isPrefixOf (components (mountpointText "web".toList)) ∨
      p.isPrefixOf (components CONTAINER_LOG_DIR)) then some .dir else none
    table := []
    nextFs := 1 }

/-- `docker run -d --name web -e A=1 .. /bin/sh`. -/
def webOptions : RunOptions :=
  { RunOptions.start 0 with
    name := "web".toList
    detach := true
    env := [("A".toList, "1".toList)]
    containerArgv := [ "/bin/sh".toList] }

/-- The child is ready before the parent, and waits. -/
def webStart : List ChildAct :=
  [.gate (.clone true), .redirect ⟨false, false, false⟩, .gate (.startup true), .environment envAnswers,
    .newRoot .none (fun _ p => [p]) fun _ => none, .gate .childCloseWrite, .gate (.startup true),
    .gate (.startup true), .gate (.startup true), .gate .closeRead, .gate (.write .done), .gate .closeWrite,
    .gate (.childRead .done), .gate .childDecide, .execve]

theorem web_is_prepared :
    (Child.run webOptions (envHost [ "PATH=/bin".toList]) [] childTree webStart).gate.completed = startupSteps ∧
    Rooted webOptions [] (Seen webOptions (envHost [ "PATH=/bin".toList]) [] childTree webStart)
      (Child.run webOptions (envHost [ "PATH=/bin".toList]) [] childTree webStart).space := by
  have hwalks : ∀ a ∈ webStart, a.Walks := List.forall_iff_forall_mem.1
    ⟨trivial, trivial, trivial, trivial, walks_self, trivial, trivial, trivial, trivial, trivial, trivial, trivial,
      trivial, trivial, trivial⟩
  have hcall : (Child.run webOptions (envHost [ "PATH=/bin".toList]) [] childTree webStart).call =
      some ⟨some "/bin/sh".toList, [ "/bin/sh".toList], [ "PATH=/bin".toList, "A=1".toList]⟩ := by
    decide +kernel
  obtain ⟨hsteps, -, -, hroot⟩ := command_is_prepared webOptions _ [] childTree webStart _ (by decide +kernel)
    ⟨Nat.one_pos, fun _ hm => (by cases hm)⟩ (fun _ hm => (by cases hm)) hwalks hcall
  exact ⟨hsteps, hroot⟩

end TinyDocker
