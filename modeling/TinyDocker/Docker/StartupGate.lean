import Mathlib.Data.List.Basic
import TinyDocker.Lib.Runs

/-!
# The startup gate of `docker run` (`docker/container.c`)

From `pipe()` on, `docker_run` and the cloned `child_fn` are two processes that share one pipe.  The
child prepares its root, closes its own write end and blocks in `read`; the parent makes the four
startup steps and then writes the byte `'1'`.  Either of them may die at any point, any parent step
may fail, `read` and `write` may be interrupted, and the commands the parent runs inherit both ends
of the pipe.

A schedule is an arbitrary list of actions; an action that is not enabled does nothing.

Principal results: `startup_gate` — the child reaches `execve` only after all four steps, and never
once the parent failed or died without having written the byte; `orphan_child_exits` — a child
whose parent is gone without a word does not block for ever.
-/

set_option autoImplicit false

namespace TinyDocker

/-- The steps the parent makes for the child before it may run. -/
inductive StartupStep where
  | cgroupApply
  | connectContainer
  | setContainerPortMap
  | writeContainerInfo
  deriving DecidableEq, Repr

def startupSteps : List StartupStep :=
  [.cgroupApply, .connectContainer, .setContainerPortMap, .writeContainerInfo]

/-- Where the parent is in `docker_run`; `killChild` and `closePipe` are the first two parts of
`cleanup_run_failure`, with the value of `pipe_created`. -/
inductive ParentPc where
  | clone
  | startup (left : List StartupStep)
  | closeRead
  | writeByte
  | closeWrite
  | released
  | killChild (pipeCreated : Bool)
  | closePipe (pipeCreated : Bool)
  | failed
  | dead
  deriving DecidableEq, Repr

/-- Where the child is in `child_fn`; `received` holds `read_count` and `start_message`. -/
inductive ChildPc where
  | unborn
  | setup
  | closeWrite
  | reading
  | received (readCount : Int) (startMessage : Char)
  | exec
  | exited (code : Nat)
  deriving DecidableEq, Repr

/-- The pipe descriptors a process has open. -/
structure Ends where
  read : Bool
  write : Bool
  deriving DecidableEq, Repr

structure Gate where
  parent : ParentPc
  child : ChildPc
  parentEnds : Ends
  childEnds : Ends
  helpers : Nat
  pipe : List Char
  completed : List StartupStep
  written : Bool
  deriving DecidableEq, Repr

/-- After `pipe()`. -/
def Gate.init : Gate := ⟨.clone, .unborn, ⟨true, true⟩, ⟨false, false⟩, 0, [], [], false⟩

inductive IoResult where
  | done
  | interrupted
  | failed
  | short
  deriving DecidableEq, Repr

inductive GateAct where
  | clone (ok : Bool)
  | startup (ok : Bool)
  | helperForks
  | helperExits
  | closeRead
  | write (r : IoResult)
  | closeWrite
  | killChild
  | closePipe
  | parentDies
  | childSetup (ok : Bool)
  | childCloseWrite
  | childRead (r : IoResult)
  | childDecide
  | childDies
  deriving DecidableEq, Repr

def Gate.readerOpen (σ : Gate) : Bool :=
  σ.parentEnds.read || σ.childEnds.read || decide (0 < σ.helpers)

def Gate.writerOpen (σ : Gate) : Bool :=
  σ.parentEnds.write || σ.childEnds.write || decide (0 < σ.helpers)

/-- Process death closes its descriptors. -/
def Gate.childExit (σ : Gate) (code : Nat) : Gate :=
  { σ with child := .exited code, childEnds := ⟨false, false⟩ }

/-- Whether the child is a process that has not reached `execve`. -/
def ChildPc.waiting : ChildPc → Bool
  | .unborn | .exec | .exited _ => false
  | _ => true

/-- The pc after a startup step. -/
def nextStartup : List StartupStep → ParentPc
  | [] => .closeRead
  | left => .startup left

def Gate.step (σ : Gate) : GateAct → Gate
  | .clone ok =>
    match σ.parent with
    | .clone =>
      if ok then
        { σ with parent := nextStartup startupSteps, child := .setup, childEnds := σ.parentEnds }
      else { σ with parent := .killChild true }
    | _ => σ
  | .startup ok =>
    match σ.parent with
    | .startup (s :: left) =>
      if ok then { σ with parent := nextStartup left, completed := σ.completed ++ [s] }
      else { σ with parent := .killChild true }
    | _ => σ
  -- `td_run_command` forks while a startup step is under way
  | .helperForks =>
    match σ.parent with
    | .startup _ => { σ with helpers := σ.helpers + 1 }
    | _ => σ
  | .helperExits => { σ with helpers := σ.helpers - 1 }
  | .closeRead =>
    match σ.parent with
    | .closeRead => { σ with parent := .writeByte, parentEnds := { σ.parentEnds with read := false } }
    | _ => σ
  | .write r =>
    match σ.parent, r with
    | .writeByte, .interrupted => σ
    | .writeByte, .done =>
      if σ.readerOpen then
        { σ with parent := .closeWrite, pipe := σ.pipe ++ ['1'], written := true }
      -- no reader left: `SIGPIPE`
      else { σ with parent := .dead, parentEnds := ⟨false, false⟩ }
    | .writeByte, _ =>
      { σ with parent := .killChild false, parentEnds := { σ.parentEnds with write := false } }
    | _, _ => σ
  | .closeWrite =>
    match σ.parent with
    | .closeWrite => { σ with parent := .released, parentEnds := { σ.parentEnds with write := false } }
    | _ => σ
  | .killChild =>
    match σ.parent with
    | .killChild pipeCreated =>
      let σ := { σ with parent := .closePipe pipeCreated }
      if σ.child.waiting then σ.childExit 137 else σ
    | _ => σ
  | .closePipe =>
    match σ.parent with
    | .closePipe pipeCreated =>
      { σ with parent := .failed, parentEnds := if pipeCreated then ⟨false, false⟩ else σ.parentEnds }
    | _ => σ
  | .parentDies => { σ with parent := .dead, parentEnds := ⟨false, false⟩ }
  | .childSetup ok =>
    match σ.child with
    | .setup => if ok then { σ with child := .closeWrite } else σ.childExit 126
    | _ => σ
  | .childCloseWrite =>
    match σ.child with
    | .closeWrite => { σ with child := .reading, childEnds := { σ.childEnds with write := false } }
    | _ => σ
  | .childRead r =>
    match σ.child, r with
    | .reading, .interrupted => σ
    | .reading, .failed => { σ with child := .received (-1) '\x00' }
    | .reading, .short => { σ with child := .received 0 '\x00' }
    | .reading, .done =>
      match σ.pipe with
      | c :: rest => { σ with child := .received 1 c, pipe := rest }
      -- an empty pipe blocks as long as a write end is open, then gives end of file
      | [] => if σ.writerOpen then σ else { σ with child := .received 0 '\x00' }
    | _, _ => σ
  | .childDecide =>
    match σ.child with
    | .received readCount startMessage =>
      if readCount ≠ 1 ∨ startMessage ≠ '1' then σ.childExit 125
      else { σ with child := .exec, childEnds := ⟨false, false⟩ }
    | _ => σ
  | .childDies => if σ.child.waiting then σ.childExit 137 else σ

def Gate.run (σ : Gate) (acts : List GateAct) : Gate := Runs.run Gate.step σ acts

/-! ## The invariant -/

/-- What the parent's position says about the steps it has made and about the byte. -/
def ParentOk (σ : Gate) : Prop :=
  match σ.parent with
  | .clone => σ.completed = [] ∧ σ.written = false
  | .startup left => σ.completed ++ left = startupSteps ∧ σ.written = false
  | .closeRead | .writeByte => σ.completed = startupSteps ∧ σ.written = false
  | .closeWrite | .released | .dead => True
  | .killChild _ | .closePipe _ | .failed => σ.written = false

structure GateInv (σ : Gate) : Prop where
  parent : ParentOk σ
  written : σ.written = true → σ.completed = startupSteps
  pipe : ∀ c ∈ σ.pipe, σ.written = true
  received : ∀ c m, σ.child = .received c m → c = 1 → σ.written = true
  exec : σ.child = .exec → σ.written = true

theorem GateInv.init : GateInv Gate.init :=
  ⟨⟨rfl, rfl⟩, by simp [Gate.init], by simp [Gate.init], by simp [Gate.init], by simp [Gate.init]⟩

/-- A parent step that neither writes nor completes a startup step. -/
theorem GateInv.moveParent {σ : Gate} (h : GateInv σ) {pc : ParentPc} {ends : Ends}
    (hpc : ParentOk { σ with parent := pc, parentEnds := ends }) :
    GateInv { σ with parent := pc, parentEnds := ends } :=
  ⟨hpc, h.written, h.pipe, h.received, h.exec⟩

/-- A child step that consumes nothing from the pipe and ends before `execve`. -/
theorem GateInv.moveChild {σ : Gate} (h : GateInv σ) {pc : ChildPc} {ends : Ends}
    (hreceived : ∀ c m, pc = .received c m → c = 1 → σ.written = true)
    (hexec : pc = .exec → σ.written = true) :
    GateInv { σ with child := pc, childEnds := ends } :=
  ⟨h.parent, h.written, h.pipe, hreceived, hexec⟩

theorem GateInv.childExit {σ : Gate} (h : GateInv σ) (code : Nat) : GateInv (σ.childExit code) :=
  h.moveChild (by simp) (by simp)

theorem parentOk_nextStartup (σ : Gate) {left : List StartupStep}
    (hdone : σ.completed ++ left = startupSteps) (hw : σ.written = false) :
    ParentOk { σ with parent := nextStartup left } := by
  cases left with
  | nil => exact ⟨by simpa using hdone, hw⟩
  | cons s left => exact ⟨hdone, hw⟩

/-- **One step of either process keeps the invariant.** -/
theorem step_gateInv {σ : Gate} (h : GateInv σ) (a : GateAct) : GateInv (σ.step a) := by
  have hp := h.parent
  unfold ParentOk at hp
  cases a with
  | clone ok =>
    simp only [Gate.step]
    split
    · rename_i hpc
      rw [hpc] at hp
      split
      · have hall : σ.completed ++ startupSteps = startupSteps := by rw [hp.1]; rfl
        exact ⟨parentOk_nextStartup σ hall hp.2, h.written, h.pipe, by simp, by simp⟩
      · exact h.moveParent hp.2
    · exact h
  | startup ok =>
    simp only [Gate.step]
    split
    · rename_i s left hpc
      rw [hpc] at hp
      split
      · have hnext := parentOk_nextStartup { σ with completed := σ.completed ++ [s] }
          (by simpa using hp.1) hp.2
        refine ⟨hnext, fun hw => ?_, h.pipe, h.received, h.exec⟩
        rw [hp.2] at hw
        cases hw
      · exact h.moveParent hp.2
    · exact h
  | helperForks =>
    simp only [Gate.step]
    split
    · exact ⟨h.parent, h.written, h.pipe, h.received, h.exec⟩
    · exact h
  | helperExits => exact ⟨h.parent, h.written, h.pipe, h.received, h.exec⟩
  | closeRead =>
    simp only [Gate.step]
    split
    · rename_i hpc
      rw [hpc] at hp
      exact h.moveParent hp
    · exact h
  | write r =>
    simp only [Gate.step]
    split
    · exact h
    · rename_i hpc
      rw [hpc] at hp
      split
      · -- the only place where the byte enters the pipe: all four steps are done
        exact ⟨trivial, fun _ => hp.1, fun _ _ => rfl, fun _ _ _ _ => rfl, fun _ => rfl⟩
      · exact h.moveParent trivial
    · rename_i hpc _ _
      rw [hpc] at hp
      exact h.moveParent hp.2
    · exact h
  | closeWrite =>
    simp only [Gate.step]
    split
    · exact h.moveParent trivial
    · exact h
  | killChild =>
    simp only [Gate.step]
    split
    · rename_i pipeCreated hpc
      rw [hpc] at hp
      have hmoved : GateInv { σ with parent := .closePipe pipeCreated } :=
        ⟨hp, h.written, h.pipe, h.received, h.exec⟩
      split
      · exact hmoved.childExit 137
      · exact hmoved
    · exact h
  | closePipe =>
    simp only [Gate.step]
    split
    · rename_i pipeCreated hpc
      rw [hpc] at hp
      exact h.moveParent hp
    · exact h
  | parentDies => exact h.moveParent trivial
  | childSetup ok =>
    simp only [Gate.step]
    split
    · split
      · exact ⟨h.parent, h.written, h.pipe, by simp, by simp⟩
      · exact h.childExit 126
    · exact h
  | childCloseWrite =>
    simp only [Gate.step]
    split
    · exact h.moveChild (by simp) (by simp)
    · exact h
  | childRead r =>
    simp only [Gate.step]
    split
    · exact h
    · exact ⟨h.parent, h.written, h.pipe, by simp, by simp⟩
    · exact ⟨h.parent, h.written, h.pipe, by simp, by simp⟩
    · split
      · rename_i c rest hpipe
        have hw : σ.written = true := h.pipe c (by rw [hpipe]; simp)
        exact ⟨h.parent, h.written, fun _ _ => hw, fun _ _ _ _ => hw, by simp⟩
      · split
        · exact h
        · exact ⟨h.parent, h.written, h.pipe, by simp, by simp⟩
    · exact h
  | childDecide =>
    simp only [Gate.step]
    split
    · rename_i c m hc
      split
      · exact h.childExit 125
      · rename_i hok
        simp only [not_or, not_not] at hok
        exact h.moveChild (by simp) fun _ => h.received c m hc hok.1
    · exact h
  | childDies =>
    simp only [Gate.step]
    split
    · exact h.childExit 137
    · exact h

theorem run_gateInv (acts : List GateAct) {σ : Gate} (h : GateInv σ) : GateInv (σ.run acts) :=
  Runs.run_keeps (I := GateInv) (fun _ a h => step_gateInv h a) h

/-! ## A parent that is gone -/

/-- The parent has failed or died. -/
def ParentPc.gone : ParentPc → Bool
  | .killChild _ | .closePipe _ | .failed | .dead => true
  | _ => false

/-- A parent that is gone makes no further step, so it never writes the byte. -/
theorem step_gone {σ : Gate} (h : σ.parent.gone = true) (a : GateAct) :
    (σ.step a).parent.gone = true ∧ (σ.step a).written = σ.written := by
  cases a with
  | clone ok => simp only [Gate.step]; split <;> simp_all [ParentPc.gone]
  | startup ok => simp only [Gate.step]; split <;> simp_all [ParentPc.gone]
  | helperForks => simp only [Gate.step]; split <;> simp_all [ParentPc.gone]
  | helperExits => exact ⟨h, rfl⟩
  | closeRead => simp only [Gate.step]; split <;> simp_all [ParentPc.gone]
  | write r => simp only [Gate.step]; split <;> simp_all [ParentPc.gone]
  | closeWrite => simp only [Gate.step]; split <;> simp_all [ParentPc.gone]
  | killChild =>
    simp only [Gate.step]
    split
    · split <;> exact ⟨rfl, rfl⟩
    · exact ⟨h, rfl⟩
  | closePipe =>
    simp only [Gate.step]
    split
    · exact ⟨rfl, rfl⟩
    · exact ⟨h, rfl⟩
  | parentDies => exact ⟨rfl, rfl⟩
  | childSetup ok =>
    simp only [Gate.step]
    split
    · split <;> exact ⟨h, rfl⟩
    · exact ⟨h, rfl⟩
  | childCloseWrite => simp only [Gate.step]; split <;> exact ⟨h, rfl⟩
  | childRead r =>
    simp only [Gate.step]
    split
    · exact ⟨h, rfl⟩
    · exact ⟨h, rfl⟩
    · exact ⟨h, rfl⟩
    · split
      · exact ⟨h, rfl⟩
      · split <;> exact ⟨h, rfl⟩
    · exact ⟨h, rfl⟩
  | childDecide =>
    simp only [Gate.step]
    split
    · split <;> exact ⟨h, rfl⟩
    · exact ⟨h, rfl⟩
  | childDies => simp only [Gate.step]; split <;> exact ⟨h, rfl⟩

theorem run_gone (acts : List GateAct) {σ : Gate} (h : σ.parent.gone = true) :
    (σ.run acts).written = σ.written := by
  have hkeep : ∀ (τ : Gate) (a : GateAct), τ.parent.gone = true ∧ τ.written = σ.written →
      (τ.step a).parent.gone = true ∧ (τ.step a).written = σ.written := by
    rintro τ a ⟨hgone, hw⟩
    obtain ⟨hgone', hw'⟩ := step_gone hgone a
    exact ⟨hgone', hw'.trans hw⟩
  exact (Runs.run_keeps (I := fun τ : Gate => τ.parent.gone = true ∧ τ.written = σ.written) hkeep ⟨h, rfl⟩).2

/-- **The startup gate.**  In every schedule the child is at `execve` only if the parent has made
all four startup steps, and it never gets there when the parent failed or died at some point
without having written the byte. -/
theorem startup_gate (acts : List GateAct) :
    ((Gate.init.run acts).child = .exec → (Gate.init.run acts).completed = startupSteps) ∧
    ∀ before after, acts = before ++ after → (Gate.init.run before).parent.gone = true →
      (Gate.init.run before).written = false → (Gate.init.run acts).child ≠ .exec := by
  have hinv := run_gateInv acts GateInv.init
  refine ⟨fun hexec => hinv.written (hinv.exec hexec), ?_⟩
  intro before after hacts hgone hw hexec
  have hsplit : Gate.init.run acts = (Gate.init.run before).run after := by
    rw [hacts]
    exact Runs.run_append before after Gate.init
  have hfinal := hinv.exec hexec
  rw [hsplit, run_gone after hgone, hw] at hfinal
  cases hfinal

/-- A child that waits at the gate after its parent died silently, and after the commands of the
parent have ended, gets end of file and exits. -/
theorem orphan_child_exits {σ : Gate} (h : GateInv σ) (hchild : σ.child = .reading)
    (hw : σ.written = false) (hparent : σ.parentEnds.write = false)
    (hself : σ.childEnds.write = false) (hhelpers : σ.helpers = 0) :
    ((σ.step (.childRead .done)).step .childDecide).child = .exited 125 := by
  have hpipe : σ.pipe = [] := by
    cases hp : σ.pipe with
    | nil => rfl
    | cons c rest =>
      have := h.pipe c (by rw [hp]; simp)
      rw [hw] at this
      cases this
  have hread : σ.step (.childRead .done) = { σ with child := .received 0 '\x00' } := by
    simp [Gate.step, hchild, hpipe, Gate.writerOpen, hparent, hself, hhelpers]
  rw [hread]
  rfl

end TinyDocker
