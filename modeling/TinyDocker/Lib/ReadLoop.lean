import Mathlib.Algebra.Group.Nat.Defs
import Mathlib.Data.List.Basic

/-!
# Reading to the end into a doubling buffer

The loop

    for (;;) {
        if (used + reserve == capacity) { double capacity, or give up above maximum }
        count = read(fd, buffer + used, capacity - used - reserve);
        ...
    }

over an input of any length.  A `Turn` is what the operating system answers in one turn: whether
`realloc` succeeds, and whether `read` is interrupted, fails or delivers bytes.  A `count n` is taken
as a number of bytes between 1 and what was requested, and as 0 at the end of the input.

Principal results: `run_fits` — the buffer never overflows and nothing is lost; `run_done`,
`run_overflow` — how a run ends depends on the length of the input alone; `run_finishes` — it ends
after as many deliveries as there are bytes, plus one; `readFixed_result` — the same for a buffer that does
not grow.
-/

set_option autoImplicit false

namespace ReadLoop

structure Params where
  reserve : Nat
  maximum : Nat

/-- `buffer` holds the `used` bytes; `input` is what has not been read. -/
structure State (α : Type) where
  buffer : List α
  capacity : Nat
  input : List α
  deriving DecidableEq, Repr

inductive Reply where
  | interrupted
  | failed
  | count (n : Nat)
  deriving DecidableEq, Repr

/-- `read` returns without an error. -/
def Reply.returns : Reply → Bool
  | .count _ => true
  | _ => false

structure Turn where
  grows : Bool
  reply : Reply
  deriving DecidableEq, Repr

inductive Outcome (α : Type) where
  | reading (s : State α)
  | done (s : State α)
  | overflow
  | noMemory
  | readError
  deriving DecidableEq, Repr

/-- The answer of the operating system is no failure. -/
def Turn.Works (t : Turn) : Prop := t.grows = true ∧ t.reply ≠ .failed

variable {α : Type}

/-- The bytes one call of `read` is asked for. -/
def State.request (p : Params) (s : State α) : Nat := s.capacity - s.buffer.length - p.reserve

/-- `read` and what the loop does with its result. -/
def readTurn (p : Params) (s : State α) : Reply → Outcome α
  | .interrupted => .reading s
  | .failed => .readError
  | .count n =>
    if s.input = [] then .done s
    else
      let k := min (max 1 n) (s.request p)
      .reading { s with buffer := s.buffer ++ s.input.take k, input := s.input.drop k }

/-- One turn of the loop. -/
def turn (p : Params) (s : State α) (t : Turn) : Outcome α :=
  if s.buffer.length + p.reserve = s.capacity then
    if p.maximum < s.capacity * 2 then .overflow
    else if t.grows = false then .noMemory
    else readTurn p { s with capacity := s.capacity * 2 } t.reply
  else readTurn p s t.reply

def run (p : Params) : State α → List Turn → Outcome α
  | s, [] => .reading s
  | s, t :: ts =>
    match turn p s t with
    | .reading s' => run p s' ts
    | o => o

/-! ## The invariant -/

/-- What holds at the head of the loop: the bytes read and those to come are the whole input, the
buffer has room for the reserve, and doubling its capacity leads to the maximum. -/
structure Fits (p : Params) (whole : List α) (s : State α) : Prop where
  whole : s.buffer ++ s.input = whole
  room : s.buffer.length + p.reserve ≤ s.capacity
  grows : ∃ j, s.capacity * 2 ^ j = p.maximum
  pos : 0 < s.capacity

/-- The same behind the check for growth, where one byte more fits. -/
structure HasRoom (p : Params) (whole : List α) (s : State α) : Prop extends Fits p whole s where
  free : s.buffer.length + p.reserve < s.capacity

theorem Fits.capacity_le {p : Params} {whole : List α} {s : State α} (h : Fits p whole s) :
    s.capacity ≤ p.maximum := by
  obtain ⟨j, hj⟩ := h.grows
  calc s.capacity = s.capacity * 1 := (Nat.mul_one _).symm
    _ ≤ s.capacity * 2 ^ j := Nat.mul_le_mul_left _ (Nat.one_le_two_pow)
    _ = p.maximum := hj

/-- A buffer that cannot be doubled has the maximal capacity. -/
theorem Fits.capacity_eq {p : Params} {whole : List α} {s : State α} (h : Fits p whole s)
    (hmax : p.maximum < s.capacity * 2) : s.capacity = p.maximum := by
  obtain ⟨j, hj⟩ := h.grows
  cases j with
  | zero => rw [← hj, Nat.pow_zero, Nat.mul_one]
  | succ j =>
    have hle : s.capacity * 2 ≤ s.capacity * 2 ^ (j + 1) :=
      Nat.mul_le_mul_left _ (by rw [Nat.pow_succ]; have := Nat.one_le_two_pow (n := j); omega)
    omega

theorem Fits.double {p : Params} {whole : List α} {s : State α} (h : Fits p whole s)
    (hmax : ¬ p.maximum < s.capacity * 2) (hfull : s.buffer.length + p.reserve = s.capacity) :
    HasRoom p whole { s with capacity := s.capacity * 2 } := by
  have hpos := h.pos
  obtain ⟨j, hj⟩ := h.grows
  have hgrows : ∃ j, s.capacity * 2 * 2 ^ j = p.maximum := by
    cases j with
    | zero =>
      rw [Nat.pow_zero, Nat.mul_one] at hj
      omega
    | succ j => exact ⟨j, by rw [← hj, Nat.pow_succ, Nat.mul_assoc, Nat.mul_comm 2]⟩
  have hfree : s.buffer.length + p.reserve < s.capacity * 2 := by omega
  exact ⟨⟨h.whole, Nat.le_of_lt hfree, hgrows, by simp only; omega⟩, hfree⟩

/-- What `read` makes of a state with room. -/
inductive Reads (p : Params) (whole : List α) (s : State α) : Reply → Outcome α → Prop where
  | interrupted : Reads p whole s .interrupted (.reading s)
  | failed : Reads p whole s .failed .readError
  | ended (n : Nat) (hend : s.buffer = whole) : Reads p whole s (.count n) (.done s)
  | delivered (n : Nat) (s' : State α) (hfits : Fits p whole s')
      (hless : s'.input.length < s.input.length) : Reads p whole s (.count n) (.reading s')

theorem readTurn_reads {p : Params} {whole : List α} {s : State α} (h : HasRoom p whole s) (r : Reply) :
    Reads p whole s r (readTurn p s r) := by
  cases r with
  | interrupted => exact .interrupted
  | failed => exact .failed
  | count n =>
    rw [readTurn]
    split
    · rename_i hend
      have hwhole := h.whole
      rw [hend, List.append_nil] at hwhole
      exact .ended n hwhole
    · rename_i hne
      have hfree := h.free
      have hlen : 0 < s.input.length := List.length_pos_iff.2 hne
      have hreq : 1 ≤ s.request p := by
        unfold State.request
        omega
      refine .delivered n _ ⟨?_, ?_, h.grows, h.pos⟩ ?_
      · rw [List.append_assoc, List.take_append_drop]
        exact h.whole
      · simp only [List.length_append, List.length_take]
        unfold State.request
        omega
      · simp only [List.length_drop]
        omega

/-- What one turn can do, with every condition on it. -/
inductive Turns (p : Params) (whole : List α) (s : State α) (t : Turn) : Outcome α → Prop where
  | overflow (hfull : p.maximum ≤ whole.length + p.reserve) : Turns p whole s t .overflow
  | noMemory (hgrows : t.grows = false) : Turns p whole s t .noMemory
  | readError (hreply : t.reply = .failed) : Turns p whole s t .readError
  | done (s' : State α) (hroom : HasRoom p whole s') (hend : s'.buffer = whole) :
      Turns p whole s t (.done s')
  | reading (s' : State α) (hfits : Fits p whole s') (hle : s'.input.length ≤ s.input.length)
      (hless : t.reply.returns = true → s'.input.length < s.input.length) :
      Turns p whole s t (.reading s')

theorem turn_turns {p : Params} {whole : List α} {s : State α} (h : Fits p whole s) (t : Turn) :
    Turns p whole s t (turn p s t) := by
  have hread : ∀ s' : State α, HasRoom p whole s' → s'.input = s.input →
      Turns p whole s t (readTurn p s' t.reply) := by
    intro s' hs' hinput
    have hreads := readTurn_reads hs' t.reply
    generalize hr : t.reply = r at hreads
    generalize readTurn p s' r = o at hreads ⊢
    cases hreads with
    | interrupted =>
      refine .reading s' hs'.toFits (Nat.le_of_eq (congrArg List.length hinput)) fun hreturns => ?_
      rw [hr] at hreturns
      cases hreturns
    | failed => exact .readError hr
    | ended n hend => exact .done s' hs' hend
    | delivered n s'' hfits hless =>
      rw [hinput] at hless
      exact .reading s'' hfits (Nat.le_of_lt hless) fun _ => hless
  unfold turn
  split
  · rename_i hfull
    split
    · rename_i hmax
      refine .overflow ?_
      have hlen := congrArg List.length h.whole
      rw [List.length_append] at hlen
      have hcap := h.capacity_eq hmax
      omega
    · rename_i hmax
      split
      · rename_i hgrows
        exact .noMemory hgrows
      · exact hread _ (h.double hmax hfull) rfl
  · rename_i hroom
    exact hread s ⟨h, Nat.lt_of_le_of_ne h.room hroom⟩ rfl

/-! ## Runs -/

/-- What a run can come to. -/
inductive Ends (p : Params) (whole : List α) : Outcome α → Prop where
  | overflow (hfull : p.maximum ≤ whole.length + p.reserve) : Ends p whole .overflow
  | noMemory : Ends p whole .noMemory
  | readError : Ends p whole .readError
  | done (s : State α) (hroom : HasRoom p whole s) (hend : s.buffer = whole) : Ends p whole (.done s)
  | reading (s : State α) (hfits : Fits p whole s) : Ends p whole (.reading s)

/-- **Every run keeps the invariant**, and says on ending why it ended. -/
theorem run_ends_with {p : Params} {whole : List α} : ∀ {ts : List Turn} {s : State α},
    Fits p whole s → Ends p whole (run p s ts)
  | [], s, h => .reading s h
  | t :: ts, s, h => by
    have hturn := turn_turns h t
    unfold run
    generalize turn p s t = o at hturn ⊢
    cases hturn with
    | overflow hfull => exact .overflow hfull
    | noMemory hgrows => exact .noMemory
    | readError hreply => exact .readError
    | done s' hroom hend => exact .done s' hroom hend
    | reading s' hfits hle hless => exact run_ends_with hfits

/-- The buffer never overflows, at any point of any run. -/
theorem run_fits {p : Params} {whole : List α} {s s' : State α} {ts : List Turn} (h : Fits p whole s)
    (hrun : run p s ts = .reading s') : Fits p whole s' := by
  have hends : Ends p whole (run p s ts) := run_ends_with h
  rw [hrun] at hends
  cases hends with
  | reading s hfits => exact hfits

/-- **What was read is the whole input**, and it left room below the maximum. -/
theorem run_done {p : Params} {whole : List α} {s s' : State α} {ts : List Turn} (h : Fits p whole s)
    (hrun : run p s ts = .done s') :
    s'.buffer = whole ∧ whole.length + p.reserve < s'.capacity ∧ s'.capacity ≤ p.maximum := by
  have hends : Ends p whole (run p s ts) := run_ends_with h
  rw [hrun] at hends
  cases hends with
  | done s hroom hend => exact ⟨hend, hend ▸ hroom.free, hroom.toFits.capacity_le⟩

theorem run_overflow {p : Params} {whole : List α} {s : State α} {ts : List Turn} (h : Fits p whole s)
    (hrun : run p s ts = .overflow) : p.maximum ≤ whole.length + p.reserve := by
  have hends : Ends p whole (run p s ts) := run_ends_with h
  rw [hrun] at hends
  cases hends with
  | overflow hfull => exact hfull

/-- The turns in which `read` returns. -/
def deliveries (ts : List Turn) : Nat := ts.countP fun t => t.reply.returns

theorem run_works {p : Params} {whole : List α} : ∀ {ts : List Turn} {s : State α}, Fits p whole s →
    (∀ t ∈ ts, t.Works) → run p s ts ≠ .noMemory ∧ run p s ts ≠ .readError
  | [], s, _, _ => ⟨nofun, nofun⟩
  | t :: ts, s, h, hworks => by
    have hturn := turn_turns h t
    obtain ⟨hgrows, hreply⟩ := hworks t List.mem_cons_self
    unfold run
    generalize turn p s t = o at hturn ⊢
    cases hturn with
    | overflow hfull => exact ⟨nofun, nofun⟩
    | noMemory hno => exact absurd hgrows (by rw [hno]; decide)
    | readError hno => exact absurd hno hreply
    | done s' hroom hend => exact ⟨nofun, nofun⟩
    | reading s' hfits hle hless =>
      exact run_works hfits fun t ht => hworks t (List.mem_cons_of_mem _ ht)

/-- **The loop ends**: every call of `read` that returns takes a byte or finds the end. -/
theorem run_finishes {p : Params} {whole : List α} : ∀ {ts : List Turn} {s : State α}, Fits p whole s →
    s.input.length < deliveries ts → ∀ s', run p s ts ≠ .reading s'
  | [], s, _, hcount => by
    exact absurd hcount (Nat.not_lt_zero _)
  | t :: ts, s, h, hcount => by
    intro s'
    have hturn := turn_turns h t
    unfold run
    generalize turn p s t = o at hturn ⊢
    cases hturn with
    | overflow hfull => exact nofun
    | noMemory hgrows => exact nofun
    | readError hreply => exact nofun
    | done s' hroom hend => exact nofun
    | reading next hfits hle hless =>
      refine run_finishes hfits ?_ s'
      rw [deliveries, List.countP_cons] at hcount
      by_cases hreply : t.reply.returns = true
      · have hnext := hless hreply
        rw [if_pos hreply] at hcount
        unfold deliveries
        omega
      · rw [if_neg hreply] at hcount
        unfold deliveries
        omega

/-- **How a run ends is decided by the input alone**, when nothing fails. -/
theorem run_result {p : Params} {whole : List α} {s : State α} {ts : List Turn} (h : Fits p whole s)
    (hworks : ∀ t ∈ ts, t.Works) (hreading : ∀ s', run p s ts ≠ .reading s') :
    (whole.length + p.reserve < p.maximum ∧ ∃ s', run p s ts = .done s' ∧ s'.buffer = whole) ∨
      (p.maximum ≤ whole.length + p.reserve ∧ run p s ts = .overflow) := by
  obtain ⟨hmemory, herror⟩ := run_works h hworks
  cases hrun : run p s ts with
  | reading s' => exact absurd hrun (hreading s')
  | noMemory => exact absurd hrun hmemory
  | readError => exact absurd hrun herror
  | done s' =>
    obtain ⟨hend, hroom, hle⟩ := run_done h hrun
    exact Or.inl ⟨Nat.lt_of_lt_of_le hroom hle, s', rfl, hend⟩
  | overflow => exact Or.inr ⟨run_overflow h hrun, rfl⟩

/-- A new buffer. -/
def State.start (capacity : Nat) (input : List α) : State α := ⟨[], capacity, input⟩

theorem start_fits {p : Params} {capacity : Nat} (hroom : p.reserve ≤ capacity) (hpos : 0 < capacity)
    (hgrows : ∃ j, capacity * 2 ^ j = p.maximum) (input : List α) :
    Fits p input (State.start capacity input) :=
  ⟨rfl, by simpa [State.start] using hroom, hgrows, hpos⟩

/-! ## Reading to the end into a buffer of fixed size -/

inductive FixedOutcome (α : Type) where
  | reading
  | done (buffer : List α)
  | tooLong
  | readError
  deriving DecidableEq, Repr

/-- `read(fd, buffer + used, limit - used)` while there is room; behind a full buffer one byte more is asked for,
which must not be there.  The replies are as above. -/
def readFixed (limit : Nat) : List α → List α → List Reply → FixedOutcome α
  | _, _, [] => .reading
  | buffer, input, r :: rs =>
    if buffer.length < limit then
      match r with
      | .interrupted => readFixed limit buffer input rs
      | .failed => .readError
      | .count n =>
        if input = [] then .done buffer
        else
          let k := min (max 1 n) (limit - buffer.length)
          readFixed limit (buffer ++ input.take k) (input.drop k) rs
    else
      match r with
      | .interrupted => readFixed limit buffer input rs
      | .failed => .tooLong
      | .count _ => if input = [] then .done buffer else .tooLong

/-- A run that ends without an error has read everything, and all of it fits. -/
theorem readFixed_done {limit : Nat} : ∀ {rs : List Reply} {buffer input b : List α}, buffer.length ≤ limit →
    readFixed limit buffer input rs = .done b → b = buffer ++ input ∧ (buffer ++ input).length ≤ limit
  | [], _, _, _, _, h => by cases h
  | r :: rs, buffer, input, b, hroom, h => by
    unfold readFixed at h
    split at h
    · split at h
      · exact readFixed_done hroom h
      · cases h
      · rename_i n
        split at h
        · rename_i hend
          cases h
          rw [hend, List.append_nil]
          exact ⟨rfl, hroom⟩
        · have hnext : (buffer ++ input.take (min (max 1 n) (limit - buffer.length))).length ≤ limit := by
            rw [List.length_append, List.length_take]
            omega
          obtain ⟨hb, hle⟩ := readFixed_done hnext h
          rw [List.append_assoc, List.take_append_drop] at hb hle
          exact ⟨hb, hle⟩
    · split at h
      · exact readFixed_done hroom h
      · cases h
      · split at h
        · rename_i hend
          cases h
          rw [hend, List.append_nil]
          exact ⟨rfl, hroom⟩
        · cases h

/-- A run without an error whose reads return often enough ends, in the way that the length decides. -/
theorem readFixed_result {limit : Nat} : ∀ {rs : List Reply} {buffer input : List α}, buffer.length ≤ limit →
    (∀ r ∈ rs, r ≠ .failed) → input.length < rs.countP Reply.returns →
    readFixed limit buffer input rs = if (buffer ++ input).length ≤ limit then .done (buffer ++ input) else .tooLong
  | [], _, _, _, _, h => by cases h
  | r :: rs, buffer, input, hroom, hworks, h => by
    have ih := fun buffer input hroom => @readFixed_result limit rs buffer input hroom
      fun r hr => hworks r (List.mem_cons_of_mem _ hr)
    unfold readFixed
    split
    · rename_i hfree
      split
      · exact ih buffer input hroom (by simpa [Reply.returns] using h)
      · exact absurd rfl (hworks _ List.mem_cons_self)
      · rename_i n
        rw [List.countP_cons_of_pos rfl] at h
        split
        · rename_i hend
          rw [hend, List.append_nil, if_pos hroom]
        · rename_i hmore
          have hpos := List.length_pos_iff.2 hmore
          have hk : 1 ≤ min (max 1 n) (limit - buffer.length) := by omega
          simp only
          rw [ih, List.append_assoc, List.take_append_drop]
          · rw [List.length_append, List.length_take]
            omega
          · rw [List.length_drop]
            omega
    · rename_i hfull
      split
      · exact ih buffer input hroom (by simpa [Reply.returns] using h)
      · exact absurd rfl (hworks _ List.mem_cons_self)
      · split
        · rename_i hend
          rw [hend, List.append_nil, if_pos hroom]
        · rename_i hmore
          have hpos := List.length_pos_iff.2 hmore
          rw [if_neg]
          rw [List.length_append]
          omega

end ReadLoop
