import TinyDocker.Lib.CText
import TinyDocker.Lib.ReadLoop

/-!
# Running commands (`core/process.c`)

`tdCaptureCommand` reads the standard output of a child into a buffer that doubles from 4096 bytes up
to 1 MiB, with one byte kept for the terminator.  The answers of the operating system are its
arguments: whether `pipe`, `fork` and `malloc` succeed, the turns of the read loop, and how the child
ends.

Principal result: `capture_chunks` — what is returned depends on the output of the child alone,
however `read` splits it.
-/

set_option autoImplicit false

namespace TinyDocker

open CText ReadLoop

/-- How a child ends, as `waitpid` tells. -/
inductive ChildEnd where
  | exited (status : Nat)
  | signalled
  | waitFailed
  deriving DecidableEq, Repr

/-- `wait_for_child`. -/
def waitForChild : ChildEnd → Int
  | .exited status => status
  | .signalled => -1
  | .waitFailed => -1

/-- The values of `errno` that the function sets itself. -/
inductive CaptureErrno where
  | einval
  | eoverflow
  deriving DecidableEq, Repr

/-- What `td_capture_command` returns: the result, `errno` where it sets it, `*output` and
`*output_size`. -/
structure Captured where
  result : Int
  errno : Option CaptureErrno
  output : Option Text
  outputSize : Nat
  deriving DecidableEq, Repr

structure CaptureAnswers where
  pipe : Bool
  fork : Bool
  malloc : Bool
  turns : List Turn
  child : ChildEnd

def INITIAL_CAPACITY : Nat := 4096

def MAX_CAPTURE_SIZE : Nat := 1024 * 1024

/-- One byte of the buffer is kept for the terminator. -/
def captureParams : Params := ⟨1, MAX_CAPTURE_SIZE⟩

/-- `*output` is `NULL` and `*output_size` 0. -/
def Captured.failed (errno : Option CaptureErrno) : Captured := ⟨-1, errno, none, 0⟩

/-- `td_capture_command` over a child that prints `stdout`; `none` when the answers end before the read
loop does. -/
def tdCaptureCommand (arguments : List Text) (a : CaptureAnswers) (stdout : Text) : Option Captured :=
  if arguments = [] then some (.failed (some .einval))
  else if a.pipe = false ∨ a.fork = false ∨ a.malloc = false then some (.failed none)
  else match run captureParams (State.start INITIAL_CAPACITY stdout) a.turns with
    | .reading _ => none
    | .overflow => some (.failed (some .eoverflow))
    | .noMemory => some (.failed none)
    | .readError => some (.failed none)
    | .done s => some ⟨waitForChild a.child, none, some s.buffer, s.buffer.length⟩

theorem capture_start (stdout : Text) :
    Fits captureParams stdout (State.start INITIAL_CAPACITY stdout) :=
  start_fits (by decide) (by decide) ⟨8, by decide⟩ stdout

section

variable {arguments : List Text} {a : CaptureAnswers} {stdout : Text}

/-- Once the child is started, the end of the read loop decides. -/
theorem tdCaptureCommand_started (hargs : arguments ≠ []) (hstart : a.pipe = true ∧ a.fork = true ∧ a.malloc = true) :
    tdCaptureCommand arguments a stdout =
      match run captureParams (State.start INITIAL_CAPACITY stdout) a.turns with
      | .reading _ => none
      | .overflow => some (.failed (some .eoverflow))
      | .noMemory => some (.failed none)
      | .readError => some (.failed none)
      | .done s => some ⟨waitForChild a.child, none, some s.buffer, s.buffer.length⟩ := by
  unfold tdCaptureCommand
  rw [if_neg hargs, if_neg (by simp [hstart])]

/-- What a capture that ends returns. -/
theorem tdCaptureCommand_result (hargs : arguments ≠ [])
    (hstart : a.pipe = true ∧ a.fork = true ∧ a.malloc = true) (hworks : ∀ t ∈ a.turns, t.Works) {c : Captured}
    (hc : tdCaptureCommand arguments a stdout = some c) : c =
      if stdout.length ≤ MAX_CAPTURE_SIZE - 2 then ⟨waitForChild a.child, none, some stdout, stdout.length⟩
      else ⟨-1, some .eoverflow, none, 0⟩ := by
  have hmax : captureParams.maximum = MAX_CAPTURE_SIZE := rfl
  have hone : captureParams.reserve = 1 := rfl
  have hlarge : 2 ≤ MAX_CAPTURE_SIZE := by decide
  rw [tdCaptureCommand_started hargs hstart] at hc
  have hreading : ∀ s', run captureParams (State.start INITIAL_CAPACITY stdout) a.turns ≠ .reading s' := by
    intro s' hs'
    rw [hs'] at hc
    cases hc
  rcases run_result (capture_start stdout) hworks hreading with ⟨hlen, s', hs', hbuffer⟩ | ⟨hlen, hover⟩
  · rw [hs'] at hc
    rw [if_pos (by omega), ← Option.some.inj hc, hbuffer]
  · rw [hover] at hc
    rw [if_neg (by omega), ← Option.some.inj hc]
    rfl

end

/-- **Capture is independent of chunking.**  Over all ways in which `read` splits the output and is
interrupted, the buffer stays within its capacity and the capacity within 1 MiB; a capture that ends
returns the whole output, or `EOVERFLOW` and no output when it has more than `2 ^ 20 - 2` bytes; and it ends
when `read` returns more often than there are bytes. -/
theorem capture_chunks (arguments : List Text) (a : CaptureAnswers) (stdout : Text)
    (hargs : arguments ≠ []) (hstart : a.pipe = true ∧ a.fork = true ∧ a.malloc = true)
    (hworks : ∀ t ∈ a.turns, t.Works) :
    (∀ seen s, run captureParams (State.start INITIAL_CAPACITY stdout) seen = .reading s →
      s.buffer.length < s.capacity ∧ s.capacity ≤ 2 ^ 20) ∧
    (∀ c, tdCaptureCommand arguments a stdout = some c →
      c = if stdout.length ≤ 2 ^ 20 - 2 then
        ⟨waitForChild a.child, none, some stdout, stdout.length⟩
      else ⟨-1, some .eoverflow, none, 0⟩) ∧
    (stdout.length < deliveries a.turns → (tdCaptureCommand arguments a stdout).isSome) := by
  have hfits := capture_start stdout
  have hmax : captureParams.maximum = 2 ^ 20 := rfl
  have hone : captureParams.reserve = 1 := rfl
  refine ⟨fun seen s hs => ?_, fun c hc => tdCaptureCommand_result hargs hstart hworks hc, fun hcount => ?_⟩
  · have h := run_fits hfits hs
    have hroom := h.room
    have hle := h.capacity_le
    omega
  · have hreading := run_finishes hfits hcount
    rw [tdCaptureCommand_started hargs hstart]
    cases hs : run captureParams (State.start INITIAL_CAPACITY stdout) a.turns with
    | reading s => exact absurd hs (hreading s)
    | _ => rfl

/-- Three bytes at a time, with an interruption in front. -/
def slowReads : CaptureAnswers :=
  ⟨true, true, true, ⟨true, .interrupted⟩ :: List.replicate 9 ⟨true, .count 3⟩, .exited 0⟩

theorem captured_slowly : tdCaptureCommand [ "printf".toList] slowReads "captured".toList =
    some ⟨0, none, some "captured".toList, 8⟩ := by
  obtain ⟨-, hresult, hends⟩ := capture_chunks [ "printf".toList] slowReads "captured".toList (by decide)
    (by decide) (by unfold slowReads Turn.Works; decide)
  obtain ⟨c, hc⟩ := Option.isSome_iff_exists.1 (hends (by decide))
  rw [hc, hresult c hc]
  decide

end TinyDocker
