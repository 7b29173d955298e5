import Mathlib.Logic.Function.Basic
import Mathlib.Data.List.Induction
import TinyDocker.Lib.Runs

/-!
# Read-modify-write of one file under an advisory lock

A state file is shared by independent processes.  Each operation takes an exclusive lock, loads
the file, computes the new state, writes it to a private temporary file, renames that file over
the shared one and closes the lock.  Any step may fail, and a process may crash at any point
(which drops its lock and leaves its temporary files behind).

The scheduler is an arbitrary list of `(process, action)` pairs; an action that is not enabled
does nothing.  Every operation carries a ticket, and `history` records the tickets in the order
of their renames.

Principal result: `run_inv` — along every schedule the file decodes to the replay of `history`
from the initial state, an operation that returned a result is in `history` with that result, and
an operation that returned failure is not.  `step_file` — only a rename changes the file.
-/

set_option autoImplicit false

namespace LockedFile

variable {C S Op R : Type}

/-- What the operations mean: `C` is a file content, `S` the state it stands for.  `admits` is the
argument check made before the lock is taken. -/
structure Spec (C S Op R : Type) where
  decode : Option C → Option S
  encode : S → Option C
  admits : Op → Bool
  apply : Op → S → Option (S × R)

inductive Phase (S Op R : Type) where
  | idle
  | waiting (t : Nat) (op : Op)
  | locked (t : Nat) (op : Op)
  | loaded (t : Nat) (op : Op) (s : S)
  | computed (t : Nat) (op : Op) (s : S) (r : R)
  | written (t : Nat) (op : Op) (s : S) (r : R) (slot : Nat)
  | renamed (t : Nat) (op : Op) (r : R)
  | failing (t : Nat) (op : Op)
  | returned (t : Nat) (op : Op) (res : Option R)

/-- The phases between taking and closing the lock. -/
def Phase.holds : Phase S Op R → Bool
  | .idle | .waiting .. | .returned .. => false
  | _ => true

def Phase.ticket : Phase S Op R → Option Nat
  | .idle => none
  | .waiting t _ | .locked t _ | .loaded t _ _ | .computed t _ _ _ | .written t _ _ _ _
  | .renamed t _ _ | .failing t _ | .returned t _ _ => some t

/-- One committed operation. -/
structure Entry (Op R : Type) where
  ticket : Nat
  op : Op
  result : R

structure Sys (C S Op R : Type) where
  file : Option C
  lock : Option Nat
  temp : Nat → Nat → Option C
  proc : Nat → Phase S Op R
  next : Nat
  history : List (Entry Op R)

def init (file : Option C) : Sys C S Op R := ⟨file, none, fun _ _ => none, fun _ => .idle, 0, []⟩

inductive Act (C Op : Type) where
  | start (op : Op)
  | lock
  | lockFail
  | load
  | loadFail
  | compute
  | write
  | writeFail
  | tornWrite (c : C)
  | rename
  | renameFail
  | close
  | crash

/-- First unused temporary name of process `p` among its `n` next attempts (`O_EXCL`). -/
def freeSlot (temp : Nat → Option C) : Nat → Nat → Option Nat
  | 0, _ => none
  | n + 1, k => if (temp k).isNone then some k else freeSlot temp n (k + 1)

def Sys.setProc (σ : Sys C S Op R) (p : Nat) (ph : Phase S Op R) : Sys C S Op R :=
  { σ with proc := Function.update σ.proc p ph }

def Sys.setTemp (σ : Sys C S Op R) (p k : Nat) (c : Option C) : Sys C S Op R :=
  { σ with temp := Function.update σ.temp p (Function.update (σ.temp p) k c) }

/-- Closing the lock descriptor, by `close` or by process death. -/
def Sys.unlock (σ : Sys C S Op R) (p : Nat) : Sys C S Op R :=
  { σ with lock := if σ.lock = some p then none else σ.lock }

/-- A new operation of process `p`. -/
def Sys.begin (spec : Spec C S Op R) (σ : Sys C S Op R) (p : Nat) (op : Op) : Sys C S Op R :=
  { σ.setProc p (if spec.admits op then .waiting σ.next op else .returned σ.next op none) with
    next := σ.next + 1 }

/-- The number of temporary names tried before giving up. -/
def attempts : Nat := 100

def step (spec : Spec C S Op R) (σ : Sys C S Op R) (p : Nat) (a : Act C Op) : Sys C S Op R :=
  match a, σ.proc p with
  | .start op, .idle => σ.begin spec p op
  | .start op, .returned .. => σ.begin spec p op
  | .lock, .waiting t op =>
    if σ.lock = none then { σ.setProc p (.locked t op) with lock := some p } else σ
  | .lockFail, .waiting t op => σ.setProc p (.returned t op none)
  | .load, .locked t op =>
    match spec.decode σ.file with
    | some s => σ.setProc p (.loaded t op s)
    | none => σ.setProc p (.failing t op)
  | .loadFail, .locked t op => σ.setProc p (.failing t op)
  | .compute, .loaded t op s =>
    match spec.apply op s with
    | some (s', r) => σ.setProc p (.computed t op s' r)
    | none => σ.setProc p (.failing t op)
  | .write, .computed t op s r =>
    match spec.encode s, freeSlot (σ.temp p) attempts 0 with
    | some c, some k => (σ.setTemp p k (some c)).setProc p (.written t op s r k)
    | _, _ => σ.setProc p (.failing t op)
  | .writeFail, .computed t op _ _ => σ.setProc p (.failing t op)
  -- the process dies after a part of the temporary file was written
  | .tornWrite c, .computed .. =>
    match freeSlot (σ.temp p) attempts 0 with
    | some k => ((σ.setTemp p k (some c)).setProc p .idle).unlock p
    | none => σ
  | .rename, .written t op _ r k =>
    { (σ.setTemp p k none).setProc p (.renamed t op r) with
      file := σ.temp p k, history := σ.history ++ [⟨t, op, r⟩] }
  | .renameFail, .written t op _ _ k => (σ.setTemp p k none).setProc p (.failing t op)
  | .close, .renamed t op r => (σ.setProc p (.returned t op (some r))).unlock p
  | .close, .failing t op => (σ.setProc p (.returned t op none)).unlock p
  | .crash, _ => (σ.setProc p .idle).unlock p
  | _, _ => σ

def run (spec : Spec C S Op R) (σ : Sys C S Op R) (acts : List (Nat × Act C Op)) : Sys C S Op R :=
  Runs.run (fun σ a => step spec σ a.1 a.2) σ acts

/-- Sequential execution of a list of committed operations. -/
inductive Replays (spec : Spec C S Op R) (s₀ : S) : List (Entry Op R) → S → Prop
  | nil : Replays spec s₀ [] s₀
  | snoc {h : List (Entry Op R)} {s s' : S} {e : Entry Op R} :
      Replays spec s₀ h s → spec.apply e.op s = some (s', e.result) →
      Replays spec s₀ (h ++ [e]) s'

/-! ## The invariant -/

/-- `decode` inverts `encode` on what an operation computes from a decoded state. -/
def Spec.RoundTrip (spec : Spec C S Op R) : Prop :=
  ∀ f s op s' r c, spec.decode f = some s → spec.apply op s = some (s', r) →
    spec.encode s' = some c → spec.decode (some c) = some s'

/-- What the memory of a process says about the shared file. -/
def PhaseOk (spec : Spec C S Op R) (σ : Sys C S Op R) (p : Nat) : Phase S Op R → Prop
  | .loaded _ _ s => spec.decode σ.file = some s
  | .computed _ op s' r => ∃ s, spec.decode σ.file = some s ∧ spec.apply op s = some (s', r)
  | .written _ op s' r k => (∃ s, spec.decode σ.file = some s ∧ spec.apply op s = some (s', r)) ∧
      ∃ c, spec.encode s' = some c ∧ σ.temp p k = some c
  | _ => True

/-- How the ticket of a process stands to the committed history. -/
def TicketOk (σ : Sys C S Op R) : Phase S Op R → Prop
  | .idle => True
  | .renamed t op r | .returned t op (some r) => t < σ.next ∧ ⟨t, op, r⟩ ∈ σ.history
  | .waiting t _ | .locked t _ | .loaded t _ _ | .computed t _ _ _ | .written t _ _ _ _
  | .failing t _ | .returned t _ none => t < σ.next ∧ ∀ e ∈ σ.history, e.ticket ≠ t

structure Inv (spec : Spec C S Op R) (s₀ : S) (σ : Sys C S Op R) : Prop where
  file : ∃ s, spec.decode σ.file = some s ∧ Replays spec s₀ σ.history s
  excl : ∀ p, (σ.proc p).holds = true → σ.lock = some p
  phase : ∀ p, PhaseOk spec σ p (σ.proc p)
  tickets : ∀ p, TicketOk σ (σ.proc p)
  uniq : ∀ p q t, (σ.proc p).ticket = some t → (σ.proc q).ticket = some t → p = q
  fresh : ∀ e ∈ σ.history, e.ticket < σ.next

theorem init_inv {spec : Spec C S Op R} {file : Option C} {s₀ : S}
    (h : spec.decode file = some s₀) : Inv spec s₀ (init file) :=
  ⟨⟨s₀, h, .nil⟩, by simp [init, Phase.holds], fun _ => trivial, fun _ => trivial,
    by simp [init, Phase.ticket], by simp [init]⟩

section StepLemmas

variable {spec : Spec C S Op R} {s₀ : S} {σ : Sys C S Op R}

theorem Inv.ticket_lt (h : Inv spec s₀ σ) {p t : Nat} (ht : (σ.proc p).ticket = some t) :
    t < σ.next := by
  have hp := h.tickets p
  cases hph : σ.proc p with
  | idle => rw [hph] at ht; cases ht
  | returned t' op res =>
    rw [hph] at ht hp; cases ht
    cases res with
    | none => exact hp.1
    | some r => exact hp.1
  | _ => rw [hph] at ht hp; cases ht; exact hp.1

/-- A process that keeps its ticket, its lock and the file may change phase freely as long as its
own data and ticket conditions hold. -/
theorem Inv.move (h : Inv spec s₀ σ) {p : Nat} {ph : Phase S Op R}
    (hticket : ph.ticket = (σ.proc p).ticket ∨ ph.ticket = none)
    (hholds : ph.holds = true → σ.lock = some p)
    (hphase : PhaseOk spec σ p ph) (hok : TicketOk σ ph) : Inv spec s₀ (σ.setProc p ph) := by
  refine ⟨h.file, ?_, ?_, ?_, ?_, h.fresh⟩
  · intro q hq
    by_cases hqp : q = p
    · subst hqp
      simp only [Sys.setProc, Function.update_self] at hq ⊢
      exact hholds hq
    · simp only [Sys.setProc, Function.update_of_ne hqp] at hq ⊢
      exact h.excl q hq
  · intro q
    by_cases hqp : q = p
    · subst hqp; simp only [Sys.setProc, Function.update_self]; exact hphase
    · simp only [Sys.setProc, Function.update_of_ne hqp]; exact h.phase q
  · intro q
    by_cases hqp : q = p
    · subst hqp; simp only [Sys.setProc, Function.update_self]; exact hok
    · simp only [Sys.setProc, Function.update_of_ne hqp]; exact h.tickets q
  · -- two processes with one ticket would already have shared it before
    have back : ∀ q t, ((σ.setProc p ph).proc q).ticket = some t → (σ.proc q).ticket = some t := by
      intro q t hq
      by_cases hqp : q = p
      · subst hqp
        simp only [Sys.setProc, Function.update_self] at hq
        rcases hticket with ht | ht
        · rw [← ht]; exact hq
        · rw [ht] at hq; cases hq
      · simpa only [Sys.setProc, Function.update_of_ne hqp] using hq
    exact fun a b t ha hb => h.uniq a b t (back a t ha) (back b t hb)

theorem Inv.unlock (h : Inv spec s₀ σ) {p : Nat} (hp : (σ.proc p).holds = false) :
    Inv spec s₀ (σ.unlock p) := by
  refine ⟨h.file, ?_, h.phase, h.tickets, h.uniq, h.fresh⟩
  intro q hq
  have hl := h.excl q hq
  have hne : q ≠ p := by
    rintro rfl
    rw [show (σ.unlock q).proc q = σ.proc q from rfl, hp] at hq
    cases hq
  simp only [Sys.unlock, hl]
  rw [if_neg (by simpa using hne)]

/-- Temporary files of `p` matter to `p` only, and only in the `written` phase. -/
theorem Inv.setTemp (h : Inv spec s₀ σ) {p k : Nat} {c : Option C}
    (hp : ∀ t op s r k', σ.proc p = .written t op s r k' → k' ≠ k) : Inv spec s₀ (σ.setTemp p k c) := by
  refine ⟨h.file, h.excl, ?_, h.tickets, h.uniq, h.fresh⟩
  intro q
  have hq := h.phase q
  show PhaseOk spec (σ.setTemp p k c) q (σ.proc q)
  cases hph : σ.proc q with
  | written t op s r k' =>
    rw [hph] at hq
    refine ⟨hq.1, ?_⟩
    obtain ⟨d, hd, ht⟩ := hq.2
    refine ⟨d, hd, ?_⟩
    by_cases hqp : q = p
    · subst hqp
      have hk := hp t op s r k' hph
      simp only [Sys.setTemp, Function.update_self, Function.update_of_ne hk]
      exact ht
    · simp only [Sys.setTemp, Function.update_of_ne hqp]
      exact ht
  | _ => rw [hph] at hq; exact hq

theorem Inv.begin (h : Inv spec s₀ σ) (p : Nat) (op : Op) : Inv spec s₀ (σ.begin spec p op) := by
  have hnew : ∀ e ∈ σ.history, e.ticket ≠ σ.next := fun e he => Nat.ne_of_lt (h.fresh e he)
  have hlift : ∀ ph : Phase S Op R, TicketOk σ ph → TicketOk (σ.begin spec p op) ph := by
    intro ph hok
    cases ph with
    | idle => trivial
    | returned t o res =>
      cases res with
      | none => exact ⟨Nat.lt_succ_of_lt hok.1, hok.2⟩
      | some r => exact ⟨Nat.lt_succ_of_lt hok.1, hok.2⟩
    | _ => exact ⟨Nat.lt_succ_of_lt hok.1, hok.2⟩
  refine ⟨h.file, ?_, ?_, ?_, ?_, fun e he => Nat.lt_succ_of_lt (h.fresh e he)⟩
  · intro q hq
    by_cases hqp : q = p
    · subst hqp
      simp only [Sys.begin, Sys.setProc, Function.update_self] at hq
      split at hq <;> cases hq
    · simp only [Sys.begin, Sys.setProc, Function.update_of_ne hqp] at hq ⊢
      exact h.excl q hq
  · intro q
    by_cases hqp : q = p
    · subst hqp
      simp only [Sys.begin, Sys.setProc, Function.update_self]
      split <;> trivial
    · simp only [Sys.begin, Sys.setProc, Function.update_of_ne hqp]
      exact h.phase q
  · intro q
    by_cases hqp : q = p
    · subst hqp
      have hn : σ.next < (σ.begin spec q op).next := Nat.lt_succ_self _
      show TicketOk (σ.begin spec q op) ((σ.begin spec q op).proc q)
      simp only [Sys.begin, Sys.setProc, Function.update_self]
      split
      · exact ⟨hn, hnew⟩
      · exact ⟨hn, hnew⟩
    · have hq := hlift _ (h.tickets q)
      simp only [Sys.begin, Sys.setProc, Function.update_of_ne hqp] at hq ⊢
      exact hq
  · -- the new ticket is `next`, above every ticket in use
    have hself : ∀ t, ((σ.begin spec p op).proc p).ticket = some t → t = σ.next := by
      intro t ht
      simp only [Sys.begin, Sys.setProc, Function.update_self] at ht
      split at ht <;> cases ht <;> rfl
    have hother : ∀ q t, q ≠ p → ((σ.begin spec p op).proc q).ticket = some t →
        (σ.proc q).ticket = some t := by
      intro q t hqp ht
      simpa only [Sys.begin, Sys.setProc, Function.update_of_ne hqp] using ht
    intro a b t ha hb
    by_cases hap : a = p <;> by_cases hbp : b = p
    · rw [hap, hbp]
    · subst hap
      have := h.ticket_lt (hother b t hbp hb)
      rw [hself t ha] at this
      exact absurd this (Nat.lt_irrefl _)
    · subst hbp
      have := h.ticket_lt (hother a t hap ha)
      rw [hself t hb] at this
      exact absurd this (Nat.lt_irrefl _)
    · exact h.uniq a b t (hother a t hap ha) (hother b t hbp hb)

/-- Taking the free lock. -/
theorem Inv.lock (h : Inv spec s₀ σ) {p t : Nat} {op : Op} (hp : σ.proc p = .waiting t op)
    (hl : σ.lock = none) :
    Inv spec s₀ { σ.setProc p (.locked t op) with lock := some p } := by
  have hnone : ∀ q, (σ.proc q).holds = false := by
    intro q
    cases hq : (σ.proc q).holds with
    | false => rfl
    | true => rw [h.excl q hq] at hl; cases hl
  have htick := h.tickets p
  rw [hp] at htick
  have hmove : Inv spec s₀ (σ.setProc p (.waiting t op)) :=
    h.move (Or.inl (by rw [hp])) (by simp [Phase.holds]) trivial htick
  refine ⟨h.file, ?_, ?_, ?_, ?_, h.fresh⟩
  · intro q hq
    by_cases hqp : q = p
    · rw [hqp]
    · simp only [Sys.setProc, Function.update_of_ne hqp] at hq
      rw [hnone q] at hq; cases hq
  · intro q
    by_cases hqp : q = p
    · subst hqp; simp only [Sys.setProc, Function.update_self]; trivial
    · simp only [Sys.setProc, Function.update_of_ne hqp]; exact h.phase q
  · intro q
    by_cases hqp : q = p
    · subst hqp; simp only [Sys.setProc, Function.update_self]; exact htick
    · simp only [Sys.setProc, Function.update_of_ne hqp]; exact h.tickets q
  · have hsame : ∀ q, (Function.update σ.proc p (.locked t op) q).ticket =
        ((σ.setProc p (.waiting t op)).proc q).ticket := by
      intro q
      by_cases hqp : q = p
      · subst hqp; simp [Sys.setProc, Phase.ticket]
      · simp [Sys.setProc, Function.update_of_ne hqp]
    intro a b t' ha hb
    simp only [Sys.setProc, hsame] at ha hb
    exact hmove.uniq a b t' ha hb

/-- **The commit point.**  The renamed file is the encoding of the computed state, and nobody else
holds the lock, so no other process has loaded the file that is being replaced. -/
theorem Inv.rename (h : Inv spec s₀ σ) (hrt : spec.RoundTrip) {p t k : Nat} {op : Op} {s' : S} {r : R} (hp : σ.proc p = .written t op s' r k) :
    Inv spec s₀ { (σ.setTemp p k none).setProc p (.renamed t op r) with
      file := σ.temp p k, history := σ.history ++ [⟨t, op, r⟩] } := by
  have hph := h.phase p
  rw [hp] at hph
  obtain ⟨⟨s, hs, happ⟩, c, henc, htemp⟩ := hph
  have htick := h.tickets p
  rw [hp] at htick
  obtain ⟨s₁, hs₁, hrep⟩ := h.file
  have hss : s₁ = s := by rw [hs] at hs₁; exact (Option.some.inj hs₁).symm
  subst hss
  have hother : ∀ q, q ≠ p → (σ.proc q).holds = false := by
    intro q hqp
    cases hq : (σ.proc q).holds with
    | false => rfl
    | true =>
      have h1 := h.excl q hq
      have h2 := h.excl p (by rw [hp]; rfl)
      rw [h1] at h2
      exact absurd (Option.some.inj h2) hqp
  have hne : ∀ q t', q ≠ p → (σ.proc q).ticket = some t' → t' ≠ t := by
    intro q t' hqp ht' he
    subst he
    exact hqp (h.uniq q p t' ht' (by rw [hp]; rfl))
  refine ⟨⟨s', ?_, ?_⟩, ?_, ?_, ?_, ?_, ?_⟩
  · show spec.decode (σ.temp p k) = some s'
    rw [htemp]
    exact hrt σ.file s₁ op s' r c hs happ henc
  · exact .snoc hrep happ
  · intro q hq
    by_cases hqp : q = p
    · rw [hqp]; exact h.excl p (by rw [hp]; rfl)
    · simp only [Sys.setProc, Sys.setTemp, Function.update_of_ne hqp] at hq
      rw [hother q hqp] at hq; cases hq
  · intro q
    by_cases hqp : q = p
    · subst hqp; simp only [Sys.setProc, Function.update_self]; trivial
    · have hh := hother q hqp
      simp only [Sys.setProc, Sys.setTemp, Function.update_of_ne hqp]
      cases hq : σ.proc q with
      | loaded => rw [hq] at hh; cases hh
      | computed => rw [hq] at hh; cases hh
      | written => rw [hq] at hh; cases hh
      | _ => trivial
  · intro q
    by_cases hqp : q = p
    · subst hqp
      simp only [Sys.setProc, Function.update_self]
      exact ⟨htick.1, List.mem_append_right _ (List.mem_singleton.2 rfl)⟩
    · simp only [Sys.setProc, Sys.setTemp, Function.update_of_ne hqp]
      have hq := h.tickets q
      have hh := hother q hqp
      have hq' := hne q
      cases hph : σ.proc q with
      | idle => trivial
      | waiting t' op' =>
        rw [hph] at hq hq'
        refine ⟨hq.1, fun e he => ?_⟩
        rcases List.mem_append.1 he with he | he
        · exact hq.2 e he
        · rw [List.mem_singleton.1 he]
          exact Ne.symm (hq' t' hqp rfl)
      | returned t' op' res =>
        rw [hph] at hq hq'
        cases res with
        | none =>
          refine ⟨hq.1, fun e he => ?_⟩
          rcases List.mem_append.1 he with he | he
          · exact hq.2 e he
          · rw [List.mem_singleton.1 he]
            exact Ne.symm (hq' t' hqp rfl)
        | some r' => exact ⟨hq.1, List.mem_append_left _ hq.2⟩
      | _ => rw [hph] at hh; cases hh
  · have hsame : ∀ q, (Function.update σ.proc p (.renamed t op r) q).ticket = (σ.proc q).ticket := by
      intro q
      by_cases hqp : q = p
      · subst hqp; rw [hp]; simp [Phase.ticket]
      · simp [Function.update_of_ne hqp]
    intro a b t' ha hb
    simp only [Sys.setProc, Sys.setTemp, hsame] at ha hb
    exact h.uniq a b t' ha hb
  · intro e he
    rcases List.mem_append.1 he with he | he
    · exact h.fresh e he
    · rw [List.mem_singleton.1 he]; exact htick.1

/-- A process that holds the lock gives up. -/
theorem Inv.fail (h : Inv spec s₀ σ) {p t : Nat} {op : Op} (hh : (σ.proc p).holds = true)
    (ht : (σ.proc p).ticket = some t) (hok : t < σ.next ∧ ∀ e ∈ σ.history, e.ticket ≠ t) :
    Inv spec s₀ (σ.setProc p (.failing t op)) :=
  h.move (Or.inl ht.symm) (fun _ => h.excl p hh) trivial hok

/-- A process that crashes, or whose operation returned, drops the lock. -/
theorem Inv.leave (h : Inv spec s₀ σ) {p : Nat} {ph : Phase S Op R} (hholds : ph.holds = false)
    (hticket : ph.ticket = (σ.proc p).ticket ∨ ph.ticket = none) (hphase : PhaseOk spec σ p ph)
    (hok : TicketOk σ ph) : Inv spec s₀ ((σ.setProc p ph).unlock p) := by
  refine (h.move hticket (fun hp => ?_) hphase hok).unlock ?_
  · rw [hholds] at hp; cases hp
  · simp only [Sys.setProc, Function.update_self]; exact hholds

/-- **One step keeps the invariant.** -/
theorem step_inv (hrt : spec.RoundTrip) (h : Inv spec s₀ σ) (p : Nat) (a : Act C Op) :
    Inv spec s₀ (step spec σ p a) := by
  have hph := h.phase p
  have htick := h.tickets p
  unfold step
  split
  · exact h.begin p _
  · exact h.begin p _
  · -- lock
    rename_i t op hp
    split
    · rename_i hl; exact h.lock hp hl
    · exact h
  · -- lockFail
    rename_i t op hp
    rw [hp] at htick
    exact h.move (Or.inl (by rw [hp]; rfl)) (by simp [Phase.holds]) trivial htick
  · -- load: the lock is held, so the file stays as it is read
    rename_i t op hp
    rw [hp] at htick
    split
    · rename_i s hs
      exact h.move (Or.inl (by rw [hp]; rfl)) (fun _ => h.excl p (by rw [hp]; rfl)) hs htick
    · exact h.fail (by rw [hp]; rfl) (by rw [hp]; rfl) htick
  · rename_i t op hp
    rw [hp] at htick
    exact h.fail (by rw [hp]; rfl) (by rw [hp]; rfl) htick
  · -- compute
    rename_i t op s hp
    rw [hp] at htick hph
    split
    · rename_i s' r hs
      exact h.move (Or.inl (by rw [hp]; rfl)) (fun _ => h.excl p (by rw [hp]; rfl)) ⟨s, hph, hs⟩ htick
    · exact h.fail (by rw [hp]; rfl) (by rw [hp]; rfl) htick
  · -- write
    rename_i t op s r hp
    rw [hp] at htick hph
    split
    · rename_i c k hc _
      have h' : Inv spec s₀ (σ.setTemp p k (some c)) := h.setTemp (by simp [hp])
      refine h'.move (Or.inl ?_) (fun _ => h.excl p (by rw [hp]; rfl)) ⟨hph, c, hc, ?_⟩ htick
      · simp only [Sys.setTemp]; rw [hp]; rfl
      · simp [Sys.setTemp]
    · exact h.fail (by rw [hp]; rfl) (by rw [hp]; rfl) htick
  · rename_i t op s r hp
    rw [hp] at htick
    exact h.fail (by rw [hp]; rfl) (by rw [hp]; rfl) htick
  · -- a torn temporary file is never renamed: its owner is gone
    rename_i c t op s r hp
    split
    · rename_i k _
      have h' : Inv spec s₀ (σ.setTemp p k (some c)) := h.setTemp (by simp [hp])
      exact h'.leave rfl (Or.inr rfl) trivial trivial
    · exact h
  · rename_i t op s r k hp
    exact h.rename hrt hp
  · -- renameFail
    rename_i t op s r k hp
    rw [hp] at htick
    have h' : Inv spec s₀ (σ.setProc p (.failing t op)) :=
      h.fail (by rw [hp]; rfl) (by rw [hp]; rfl) htick
    have h'' : Inv spec s₀ ((σ.setProc p (.failing t op)).setTemp p k none) :=
      h'.setTemp (by simp [Sys.setProc])
    exact h''
  · rename_i t op r hp
    rw [hp] at htick
    exact h.leave rfl (Or.inl (by rw [hp]; rfl)) trivial htick
  · rename_i t op hp
    rw [hp] at htick
    exact h.leave rfl (Or.inl (by rw [hp]; rfl)) trivial htick
  · exact h.leave rfl (Or.inr rfl) trivial trivial
  · exact h

/-- **Every schedule keeps the invariant.** -/
theorem run_inv (hrt : spec.RoundTrip) (acts : List (Nat × Act C Op)) (h : Inv spec s₀ σ) :
    Inv spec s₀ (run spec σ acts) :=
  Runs.run_keeps (I := Inv spec s₀) (fun _ a h => step_inv hrt h a.1 a.2) h

/-- **Only a rename changes the file**, and it adds exactly the renamed operation to the history. -/
theorem step_file (spec : Spec C S Op R) (σ : Sys C S Op R) (p : Nat) (a : Act C Op) :
    ((step spec σ p a).file = σ.file ∧ (step spec σ p a).history = σ.history) ∨
      ∃ t op s r k, σ.proc p = .written t op s r k ∧ (step spec σ p a).file = σ.temp p k ∧
        (step spec σ p a).history = σ.history ++ [⟨t, op, r⟩] := by
  unfold step
  split
  case h_11 t op s r k hp => exact Or.inr ⟨t, op, s, r, k, hp, rfl, rfl⟩
  all_goals first | exact Or.inl ⟨rfl, rfl⟩ | (split <;> exact Or.inl ⟨rfl, rfl⟩)

/-- The history only grows. -/
theorem step_history (spec : Spec C S Op R) (σ : Sys C S Op R) (p : Nat) (a : Act C Op) :
    ∃ h, (step spec σ p a).history = σ.history ++ h := by
  rcases step_file spec σ p a with ⟨-, hh⟩ | ⟨t, op, s, r, k, -, -, hh⟩
  · exact ⟨[], by rw [hh, List.append_nil]⟩
  · exact ⟨_, hh⟩

theorem run_history (spec : Spec C S Op R) (acts : List (Nat × Act C Op)) (σ : Sys C S Op R) :
    ∃ h, (run spec σ acts).history = σ.history ++ h := by
  refine Runs.run_keeps (I := fun τ : Sys C S Op R => ∃ h, τ.history = σ.history ++ h) ?_
    ⟨[], (List.append_nil _).symm⟩
  rintro τ a ⟨h₁, hh₁⟩
  obtain ⟨h₂, hh₂⟩ := step_history spec τ a.1 a.2
  exact ⟨h₁ ++ h₂, by rw [hh₂, hh₁, List.append_assoc]⟩

/-- **A failed operation never changed the file**, at any step of the schedule. -/
theorem failed_file (hrt : spec.RoundTrip) (h : Inv spec s₀ σ)
    (before after : List (Nat × Act C Op)) (a : Nat × Act C Op) {p t : Nat} {op : Op}
    (hfail : (run spec σ (before ++ a :: after)).proc p = .returned t op none)
    (hticket : ((run spec σ before).proc a.1).ticket = some t) :
    (step spec (run spec σ before) a.1 a.2).file = (run spec σ before).file := by
  rcases step_file spec (run spec σ before) a.1 a.2 with
    ⟨hf, -⟩ | ⟨t', op', s, r, k, hp, -, hh⟩
  · exact hf
  · -- the rename of this ticket would still be in the final history
    exfalso
    have hend := (run_inv hrt (before ++ a :: after) h).tickets p
    rw [hfail] at hend
    rw [hp] at hticket
    cases hticket
    obtain ⟨h₂, hh₂⟩ := run_history spec after (step spec (run spec σ before) a.1 a.2)
    have hsplit : run spec σ (before ++ a :: after) =
        run spec (step spec (run spec σ before) a.1 a.2) after :=
      Runs.run_append before (a :: after) σ
    refine hend.2 ⟨t, op', r⟩ ?_ rfl
    rw [hsplit, hh₂, hh]
    simp

end StepLemmas

/-! ## Sequential replay -/

section Replay

variable {spec : Spec C S Op R} {s₀ s : S}

/-- A replay passes through the state before and after each of its entries. -/
theorem Replays.split {h₁ : List (Entry Op R)} {e : Entry Op R} : ∀ {h₂ : List (Entry Op R)} {s : S},
    Replays spec s₀ (h₁ ++ e :: h₂) s →
      ∃ s₁ s₂, Replays spec s₀ h₁ s₁ ∧ spec.apply e.op s₁ = some (s₂, e.result) ∧
        Replays spec s₂ h₂ s := by
  intro h₂
  induction h₂ using List.reverseRecOn with
  | nil =>
    intro s hr
    generalize hl : h₁ ++ [e] = l at hr
    cases hr with
    | nil => simp at hl
    | snoc hr happ =>
      obtain ⟨rfl, he⟩ := List.append_inj' hl rfl
      cases he
      exact ⟨_, s, hr, happ, .nil⟩
  | append_singleton h₂ x ih =>
    intro s hr
    generalize hl : h₁ ++ e :: (h₂ ++ [x]) = l at hr
    cases hr with
    | nil => simp at hl
    | snoc hr happ =>
      rw [← List.cons_append, ← List.append_assoc] at hl
      obtain ⟨rfl, hx⟩ := List.append_inj' hl rfl
      cases hx
      obtain ⟨s₁, s₂, h1, h2, h3⟩ := ih hr
      exact ⟨s₁, s₂, h1, h2, .snoc h3 happ⟩

/-- What every entry of a given kind keeps, the replay keeps. -/
theorem Replays.preserves {P : S → Prop} {Q : Entry Op R → Prop}
    (hstep : ∀ e s s', Q e → P s → spec.apply e.op s = some (s', e.result) → P s')
    {h : List (Entry Op R)} (hr : Replays spec s₀ h s) (hQ : ∀ e ∈ h, Q e) (h₀ : P s₀) : P s := by
  induction hr with
  | nil => exact h₀
  | snoc hr happ ih =>
    rename_i e
    have hrest := ih fun x hx => hQ x (List.mem_append_left _ hx)
    exact hstep e _ _ (hQ e (by simp)) hrest happ

end Replay

end LockedFile
