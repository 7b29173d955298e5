/-!
# Staged computations

A procedure that acquires its resources stage by stage and jumps to a common cleanup at the first
failure.  A stage returns `ok` with the new state or `error` with the state at the jump.

`Triple P s Q E` is the Hoare triple of a stage with a postcondition for either exit, `TripleAll`
the same for a sequence of stages; `TripleAll.cons` chains them.
-/

set_option autoImplicit false

namespace Staged

variable {σ : Type}

abbrev Stage (σ : Type) := σ → Except σ σ

/-- The stages one after the other, up to the first that fails. -/
def runAll : List (Stage σ) → Stage σ
  | [], st => .ok st
  | stage :: rest, st =>
    match stage st with
    | .ok st' => runAll rest st'
    | .error e => .error e

/-- What a test says of the state in which a run fails, if it does. -/
def onError (test : σ → Bool) : Except σ σ → Bool
  | .ok _ => true
  | .error st => test st

theorem of_onError {test : σ → Bool} {run : Except σ σ} {st : σ} (h : onError test run = true) (hrun : run = .error st) :
    test st = true := by
  subst hrun
  exact h

theorem runAll_append (st : σ) : ∀ (first second : List (Stage σ)),
    runAll (first ++ second) st = match runAll first st with
      | .ok st' => runAll second st'
      | .error e => .error e := by
  intro first
  induction first generalizing st with
  | nil => intro second; rfl
  | cons stage rest ih =>
    intro second
    simp only [List.cons_append, runAll]
    cases stage st with
    | ok st' => exact ih st' second
    | error e => rfl

/-- A sequence that succeeds: its first stage does, and the others do after it. -/
theorem runAll_cons_ok {stage : Stage σ} {rest : List (Stage σ)} {st st' : σ} :
    runAll (stage :: rest) st = .ok st' ↔ ∃ mid, stage st = .ok mid ∧ runAll rest mid = .ok st' := by
  rw [runAll]
  cases stage st with
  | ok mid =>
    refine ⟨fun h => ⟨mid, rfl, h⟩, fun ⟨mid', he, h⟩ => ?_⟩
    cases he
    exact h
  | error e => exact ⟨fun h => (by cases h), fun ⟨_, he, _⟩ => (by cases he)⟩

/-- The state at either exit. -/
def outcome : Except σ σ → σ
  | .ok st => st
  | .error st => st

/-- From `P`, the stage ends normally in `Q` or jumps in `E`. -/
def Triple (P : σ → Prop) (stage : Stage σ) (Q E : σ → Prop) : Prop :=
  ∀ st, P st → (∀ st', stage st = .ok st' → Q st') ∧ ∀ e, stage st = .error e → E e

def TripleAll (P : σ → Prop) (stages : List (Stage σ)) (Q E : σ → Prop) : Prop :=
  Triple P (runAll stages) Q E

theorem TripleAll.nil {P E : σ → Prop} : TripleAll P [] P E := by
  intro st h
  refine ⟨fun st' h' => ?_, fun e he => ?_⟩
  · cases h'; exact h
  · cases he

theorem TripleAll.cons {P Q R E : σ → Prop} {stage : Stage σ} {rest : List (Stage σ)}
    (hs : Triple P stage Q E) (hr : TripleAll Q rest R E) : TripleAll P (stage :: rest) R E := by
  intro st h
  obtain ⟨hok, herr⟩ := hs st h
  refine ⟨fun st' h' => ?_, fun e he => ?_⟩
  · unfold runAll at h'
    split at h'
    · rename_i mid hmid
      exact (hr mid (hok mid hmid)).1 st' h'
    · cases h'
  · unfold runAll at he
    split at he
    · rename_i mid hmid
      exact (hr mid (hok mid hmid)).2 e he
    · rename_i he'
      cases he
      exact herr _ he'

theorem Triple.weaken {P Q E E' : σ → Prop} {stage : Stage σ} (h : Triple P stage Q E) (hE : ∀ st, E st → E' st) :
    Triple P stage Q E' := fun st hp => ⟨(h st hp).1, fun e he => hE e ((h st hp).2 e he)⟩

/-- A condition that a stage keeps at both exits. -/
theorem Triple.keep {P E : σ → Prop} {stage : Stage σ} (h : ∀ st, P st → P (outcome (stage st)))
    (hE : ∀ st, P st → E st) : Triple P stage P E := by
  intro st hp
  have hout := h st hp
  refine ⟨fun st' h' => ?_, fun e he => ?_⟩
  · rw [h'] at hout; exact hout
  · rw [he] at hout; exact hE e hout

/-- A condition that every stage keeps at both exits. -/
theorem TripleAll.keep {P : σ → Prop} : ∀ {stages : List (Stage σ)},
    (∀ stage ∈ stages, ∀ st, P st → P (outcome (stage st))) → TripleAll P stages P P
  | [], _ => .nil
  | stage :: _, h =>
    .cons (.keep (h stage List.mem_cons_self) fun _ hp => hp)
      (.keep fun s hs => h s (List.mem_cons_of_mem _ hs))

end Staged
