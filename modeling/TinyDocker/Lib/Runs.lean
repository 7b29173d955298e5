/-!
# Runs of a state machine

A machine is a step function, a run a list of actions.  `Meets` says of a run that every action meets a
condition in the state it finds; `run_inv` is the invariant rule.
-/

set_option autoImplicit false

namespace Runs

variable {σ α : Type} {step : σ → α → σ} {Ok : σ → α → Prop}

def run (step : σ → α → σ) (s : σ) (acts : List α) : σ := acts.foldl step s

def Meets (step : σ → α → σ) (Ok : σ → α → Prop) : σ → List α → Prop
  | _, [] => True
  | s, a :: acts => Ok s a ∧ Meets step Ok (step s a) acts

instance decidableMeets [∀ s a, Decidable (Ok s a)] :
    ∀ (s : σ) (acts : List α), Decidable (Meets step Ok s acts)
  | _, [] => isTrue trivial
  | s, a :: acts =>
    have := decidableMeets (step s a) acts
    inferInstanceAs (Decidable (Ok s a ∧ Meets step Ok (step s a) acts))

/-- **The invariant rule**: what every action keeps under a condition holds at the end of every run whose
actions meet it. -/
theorem run_inv {I : σ → Prop} (hstep : ∀ s a, I s → Ok s a → I (step s a)) :
    ∀ {acts : List α} {s : σ}, I s → Meets step Ok s acts → I (run step s acts)
  | [], _, h, _ => h
  | a :: acts, s, h, hok => by
    have hnext : I (step s a) := hstep s a h hok.1
    show I (run step (step s a) acts)
    exact run_inv hstep hnext hok.2

/-- A condition on the actions alone. -/
theorem meets_of_mem {Ok : α → Prop} : ∀ {acts : List α} {s : σ}, (∀ a ∈ acts, Ok a) →
    Meets step (fun _ a => Ok a) s acts
  | [], _, _ => trivial
  | a :: _, _, h => ⟨h a (List.mem_cons_self ..), meets_of_mem fun b hb => h b (List.mem_cons_of_mem a hb)⟩

/-- What every action that meets a condition of its own keeps. -/
theorem run_of_mem {I : σ → Prop} {Ok : α → Prop} (hstep : ∀ s a, I s → Ok a → I (step s a)) {acts : List α}
    {s : σ} (hs : I s) (hacts : ∀ a ∈ acts, Ok a) : I (run step s acts) :=
  run_inv hstep hs (meets_of_mem hacts)

/-- What every action keeps. -/
theorem run_keeps {I : σ → Prop} (hstep : ∀ s a, I s → I (step s a)) {acts : List α} {s : σ} (hs : I s) :
    I (run step s acts) :=
  run_of_mem (fun s a h (_ : True) => hstep s a h) hs fun _ _ => trivial

theorem run_append (before after : List α) (s : σ) :
    run step s (before ++ after) = run step (run step s before) after :=
  List.foldl_append

theorem run_snoc (acts : List α) (s : σ) (a : α) : run step s (acts ++ [a]) = step (run step s acts) a :=
  run_append acts [a] s

/-- What a run keeps that looks back on it: a relation between the actions so far and the state. -/
theorem run_history {I : List α → σ → Prop} {s : σ} (hstart : I [] s)
    (hstep : ∀ acts a, I acts (run step s acts) → I (acts ++ [a]) (step (run step s acts) a))
    (acts : List α) : I acts (run step s acts) := by
  have hgo : ∀ after before, I before (run step s before) →
      I (before ++ after) (run step s (before ++ after)) := by
    intro after
    induction after with
    | nil => exact fun before h => (List.append_nil before).symm ▸ h
    | cons a after ih =>
      intro before h
      have hnext : I (before ++ [a]) (run step s (before ++ [a])) := by
        rw [run_snoc]
        exact hstep before a h
      rw [← List.singleton_append, ← List.append_assoc]
      exact ih (before ++ [a]) hnext
  exact hgo acts [] hstart

/-- **Simulation**: when each action amounts to some actions of another machine, so does each run. -/
theorem run_simulates {τ β : Type} {next : τ → β → τ} {f : σ → τ}
    (hstep : ∀ s a, ∃ moves, f (step s a) = run next (f s) moves) :
    ∀ (acts : List α) (s : σ), ∃ moves, f (run step s acts) = run next (f s) moves
  | [], _ => ⟨[], rfl⟩
  | a :: acts, s => by
    obtain ⟨first, hfirst⟩ := hstep s a
    obtain ⟨rest, hrest⟩ := run_simulates hstep acts (step s a)
    refine ⟨first ++ rest, ?_⟩
    rw [run_append, ← hfirst, ← hrest]
    rfl

/-! ## Runs that may end with an error -/

section

variable {ε : Type} {next : σ → α → Except ε σ}

theorem foldlM_cons_ok {a : α} {acts : List α} {s s' : σ} :
    (a :: acts).foldlM next s = .ok s' ↔ ∃ mid, next s a = .ok mid ∧ acts.foldlM next mid = .ok s' := by
  rw [List.foldlM_cons]
  cases next s a with
  | error e => exact ⟨fun h => (by cases h), fun ⟨_, h, _⟩ => (by cases h)⟩
  | ok mid =>
    refine ⟨fun h => ⟨mid, rfl, h⟩, fun ⟨mid', h, hrest⟩ => ?_⟩
    cases h
    exact hrest

/-- What every action keeps when it succeeds. -/
theorem foldlM_keeps {I : σ → Prop} (hstep : ∀ s a s', I s → next s a = .ok s' → I s') :
    ∀ {acts : List α} {s s' : σ}, I s → acts.foldlM next s = .ok s' → I s'
  | [], s, s', hs, h => by
    cases h
    exact hs
  | a :: acts, s, s', hs, h => by
    obtain ⟨mid, hmid, hrest⟩ := foldlM_cons_ok.1 h
    exact foldlM_keeps hstep (hstep s a mid hs hmid) hrest

/-- A run fails at one action, the actions before it having succeeded. -/
theorem foldlM_error_iff {e : ε} : ∀ {acts : List α} {s : σ}, acts.foldlM next s = .error e ↔
    ∃ before a after mid, acts = before ++ a :: after ∧ before.foldlM next s = .ok mid ∧ next mid a = .error e
  | [], s => ⟨fun h => (by cases h), fun ⟨before, a, after, mid, h, _⟩ => by simp at h⟩
  | a :: acts, s => by
    rw [List.foldlM_cons]
    cases hmid : next s a with
    | error e' =>
      constructor
      · intro h
        cases h
        exact ⟨[], a, acts, s, rfl, rfl, hmid⟩
      · rintro ⟨before, b, after, last, hacts, hbefore, hb⟩
        cases before with
        | nil =>
          cases hacts
          cases hbefore
          rw [hmid] at hb
          exact hb
        | cons c before =>
          cases hacts
          obtain ⟨mid, hfirst, -⟩ := foldlM_cons_ok.1 hbefore
          rw [hmid] at hfirst
          cases hfirst
    | ok mid =>
      show acts.foldlM next mid = .error e ↔ _
      rw [foldlM_error_iff]
      constructor
      · rintro ⟨before, b, after, last, rfl, hbefore, hb⟩
        exact ⟨a :: before, b, after, last, rfl, foldlM_cons_ok.2 ⟨mid, hmid, hbefore⟩, hb⟩
      · rintro ⟨before, b, after, last, hacts, hbefore, hb⟩
        cases before with
        | nil =>
          cases hacts
          cases hbefore
          rw [hmid] at hb
          cases hb
        | cons c before =>
          cases hacts
          obtain ⟨mid', hfirst, hrest⟩ := foldlM_cons_ok.1 hbefore
          rw [hmid] at hfirst
          cases hfirst
          exact ⟨before, b, after, last, rfl, hrest, hb⟩

end

end Runs
