import TinyDocker.Docker.Exec

/-!
# Waiting for a container (`docker_run` and `forward_signal_to_container` in `docker/container.c`)

A foreground `docker run` installs a handler for three signals, publishes the pid of the child, waits,
withdraws the pid and puts the old handlers back, one call after the other; signals, the end of the child
and, once it has been reaped, the reuse of its pid come between any two calls.

Principal result: `forwarding_run` — in every run what the handler sends goes to the pid of the child, in
the order of the signals, and to the container itself except between the return of `waitpid` and the next
assignment; when `docker run` returns, the old handlers are back.
-/

set_option autoImplicit false

namespace TinyDocker

namespace Foreground

inductive Signal where
  | SIGINT
  | SIGTERM
  | SIGHUP
  deriving DecidableEq, Repr

def forwardedSignals : List Signal := [.SIGINT, .SIGTERM, .SIGHUP]

/-- What a signal does: end the process, nothing, or call `forward_signal_to_container`. -/
inductive Disposition where
  | default
  | ignore
  | forward
  deriving DecidableEq, Repr

/-- Where `docker_run` is; after `waitpid` it carries how the child ended, or `none` for an error. -/
inductive Point where
  | install (k : Nat)
  | assign
  | wait
  | reset (waited : Option Exec.Ending)
  | restore (k : Nat) (waited : Option Exec.Ending)
  | returned (code : Int)
  | killed (signal : Signal)
  deriving DecidableEq, Repr

/-- The child is published. -/
def Point.published : Point → Bool
  | .wait | .reset _ => true
  | _ => false

inductive Child where
  | running
  | ended (ending : Exec.Ending)
  | reaped (ending : Exec.Ending)
  | reused (ending : Exec.Ending)
  deriving DecidableEq, Repr

/-- Who has the pid of the child. -/
inductive Receiver where
  | container
  | nobody
  | stranger
  deriving DecidableEq, Repr

def Child.receiver : Child → Receiver
  | .running | .ended _ => .container
  | .reaped _ => .nobody
  | .reused _ => .stranger

/-- A call of `kill`, and where `docker_run` was. -/
structure Sent where
  signal : Signal
  pid : Int
  receiver : Receiver
  point : Point
  deriving DecidableEq, Repr

structure State where
  point : Point
  action : Signal → Disposition
  /-- `previous_actions`, where `action_installed` is set. -/
  previous : Signal → Option Disposition
  foregroundChildPid : Int
  child : Child
  sent : List Sent
  /-- The signals that the handler was called for. -/
  caught : List (Signal × Point)

def State.start (initial : Signal → Disposition) : State :=
  ⟨.install 0, initial, fun _ => none, -1, .running, [], []⟩

inductive Action where
  | call (fails : Bool)
  | signal (signal : Signal)
  | childEnds (ending : Exec.Ending)
  | pidReused
  deriving DecidableEq, Repr

def setAt {α : Type} (f : Signal → α) (s : Signal) (a : α) : Signal → α := fun x => if x = s then a else f x

/-- `forward_signal_to_container`. -/
def forwardSignalToContainer (signal : Signal) (s : State) : State :=
  let s := { s with caught := s.caught ++ [(signal, s.point)] }
  if 0 < s.foregroundChildPid then
    { s with sent := s.sent ++ [⟨signal, s.foregroundChildPid, s.child.receiver, s.point⟩] }
  else s

/-- The value of `docker_run`. -/
def returnCode : Option Exec.Ending → Int
  | none => -1
  | some e => e.code

/-- The next call of `docker_run`. -/
def State.call (pid : Nat) (fails : Bool) (s : State) : State :=
  match s.point with
  | .install k =>
    match forwardedSignals[k]? with
    | none => { s with point := .assign }
    | some g =>
      if fails then { s with point := .install (k + 1) }
      else { s with
        point := .install (k + 1)
        action := setAt s.action g .forward
        previous := setAt s.previous g (some (s.action g)) }
  | .assign => { s with point := .wait, foregroundChildPid := pid }
  | .wait =>
    if fails then { s with point := .reset none }
    else match s.child with
      | .ended e => { s with point := .reset (some e), child := .reaped e }
      | _ => s
  | .reset waited => { s with point := .restore 0 waited, foregroundChildPid := -1 }
  | .restore k waited =>
    match forwardedSignals[k]? with
    | none => { s with point := .returned (returnCode waited) }
    | some g =>
      match s.previous g with
      | none => { s with point := .restore (k + 1) waited }
      -- what was there before can be put back
      | some d => { s with point := .restore (k + 1) waited, action := setAt s.action g d }
  | .returned _ => s
  | .killed _ => s

def State.over (s : State) : Bool :=
  match s.point with
  | .returned _ | .killed _ => true
  | _ => false

def State.step (pid : Nat) (s : State) : Action → State
  | .call fails => s.call pid fails
  | .signal g =>
    if s.over then s
    else match s.action g with
      | .default => { s with point := .killed g }
      | .ignore => s
      -- a `waitpid` that is interrupted is called again
      | .forward => forwardSignalToContainer g s
  | .childEnds e =>
    match s.child with
    | .running => { s with child := .ended e }
    | _ => s
  | .pidReused =>
    match s.child with
    | .reaped e => { s with child := .reused e }
    | _ => s

/-! ## The invariant -/

section

variable {pid : Nat} {initial : Signal → Disposition} {s : State}

/-- The position of a signal in `forwarded_signals`. -/
def Signal.index : Signal → Nat
  | .SIGINT => 0
  | .SIGTERM => 1
  | .SIGHUP => 2

theorem forwardedSignals_get {k : Nat} {g : Signal} (h : forwardedSignals[k]? = some g) : g.index = k := by
  match k with
  | 0 => cases h; rfl
  | 1 => cases h; rfl
  | 2 => cases h; rfl
  | k + 3 => cases h

theorem forwardedSignals_end {k : Nat} (h : forwardedSignals[k]? = none) (g : Signal) : g.index < k := by
  have hk : 3 ≤ k := List.getElem?_eq_none_iff.1 h
  cases g with
  | SIGINT => exact Nat.lt_of_lt_of_le (by decide) hk
  | SIGTERM => exact Nat.lt_of_lt_of_le (by decide) hk
  | SIGHUP => exact Nat.lt_of_lt_of_le (by decide) hk

/-- The handler of a signal has been put in place, or `sigaction` has failed for it. -/
def Handled (initial : Signal → Disposition) (s : State) (g : Signal) : Prop :=
  (s.previous g = none ∧ s.action g = initial g) ∨ (s.previous g = some (initial g) ∧ s.action g = .forward)

/-- The dispositions at each point. -/
def Installed (initial : Signal → Disposition) (s : State) : Prop :=
  match s.point with
  | .install k => ∀ g, if g.index < k then Handled initial s g else s.previous g = none ∧ s.action g = initial g
  | .assign | .wait | .reset _ => ∀ g, Handled initial s g
  | .restore k _ => ∀ g, if g.index < k then s.action g = initial g else Handled initial s g
  | .returned _ => s.action = initial
  | .killed g => s.action g = .default

/-- The child at each point. -/
def Attended (s : State) : Prop :=
  match s.point with
  | .install _ | .assign | .wait => s.child.receiver = .container
  | .reset (some e) | .restore _ (some e) => s.child = .reaped e ∨ s.child = .reused e
  | .returned code => code = -1 ∨ ∃ e : Exec.Ending, code = e.code ∧ (s.child = .reaped e ∨ s.child = .reused e)
  | _ => True

/-- Where the pid is published. -/
def Published (pid : Nat) (s : State) : Prop :=
  s.over = false → s.foregroundChildPid = if s.point.published then (pid : Int) else -1

theorem setAt_self {α : Type} (f : Signal → α) (g : Signal) (a : α) : setAt f g a g = a := if_pos rfl

theorem setAt_ne {α : Type} (f : Signal → α) {g x : Signal} (a : α) (h : x ≠ g) : setAt f g a x = f x := if_neg h

theorem index_inj {g x : Signal} (h : x.index = g.index) : x = g := by
  cases g with
  | SIGINT => cases x <;> first | rfl | cases h
  | SIGTERM => cases x <;> first | rfl | cases h
  | SIGHUP => cases x <;> first | rfl | cases h

/-- One signal further: what holds before the position holds of the next one too. -/
theorem forall_index_succ {P Q P' Q' : Signal → Prop} {k : Nat} {g : Signal} (hg : g.index = k)
    (h : ∀ x, if x.index < k then P x else Q x) (hself : Q g → P' g) (hP : ∀ x, x ≠ g → P x → P' x)
    (hQ : ∀ x, x ≠ g → Q x → Q' x) (x : Signal) : if x.index < k + 1 then P' x else Q' x := by
  by_cases hx : x = g
  · subst hx
    have hq := h x
    rw [if_neg (by omega)] at hq
    rw [if_pos (by omega)]
    exact hself hq
  · have hne : x.index ≠ k := fun heq => hx (index_inj (heq.trans hg.symm))
    have hother := h x
    by_cases hlt : x.index < k
    · rw [if_pos hlt] at hother
      rw [if_pos (by omega)]
      exact hP x hx hother
    · rw [if_neg hlt] at hother
      rw [if_neg (by omega)]
      exact hQ x hx hother

theorem Handled.congr {s s' : State} {g : Signal} (h : Handled initial s g) (hprev : s'.previous g = s.previous g)
    (hact : s'.action g = s.action g) : Handled initial s' g := by
  unfold Handled
  rw [hprev, hact]
  exact h

/-- `sigaction` for one of the three signals. -/
theorem Installed.install {k : Nat} (hpoint : s.point = .install k) (h : Installed initial s) (fails : Bool) :
    Installed initial (s.call pid fails) := by
  simp only [Installed, hpoint] at h
  unfold State.call
  rw [hpoint]
  simp only
  split
  · rename_i hend
    intro g
    have hg := h g
    rwa [if_pos (forwardedSignals_end hend g)] at hg
  rename_i g hg
  have hk := forwardedSignals_get hg
  split
  · exact forall_index_succ hk h Or.inl (fun _ _ hx => hx) fun _ _ hx => hx
  · refine forall_index_succ hk h (fun hq => Or.inr ⟨?_, setAt_self _ _ _⟩) (fun x hx hh => ?_) fun x hx hq => ?_
    · simp only [setAt_self, hq.2]
    · exact hh.congr (setAt_ne _ _ hx) (setAt_ne _ _ hx)
    · simp only [setAt_ne _ _ hx]
      exact hq

/-- Putting one handler back. -/
theorem Installed.restore {k : Nat} {waited : Option Exec.Ending} (hpoint : s.point = .restore k waited)
    (h : Installed initial s) (fails : Bool) : Installed initial (s.call pid fails) := by
  simp only [Installed, hpoint] at h
  unfold State.call
  rw [hpoint]
  simp only
  split
  · rename_i hend
    funext g
    have hg := h g
    rwa [if_pos (forwardedSignals_end hend g)] at hg
  rename_i g hg
  have hk := forwardedSignals_get hg
  split
  · rename_i hprev
    refine forall_index_succ hk h (fun hq => ?_) (fun _ _ hx => hx) fun _ _ hx => hx
    rcases hq with ⟨-, hact⟩ | ⟨hsome, -⟩
    · exact hact
    · rw [hprev] at hsome
      cases hsome
  · rename_i d hprev
    refine forall_index_succ hk h (fun hq => ?_) (fun x hx hact => ?_) fun x hx hh => ?_
    · rcases hq with ⟨hnone, -⟩ | ⟨hsome, -⟩
      · rw [hprev] at hnone
        cases hnone
      · rw [hprev] at hsome
        rw [← Option.some.inj hsome]
        exact setAt_self _ _ _
    · exact (setAt_ne _ _ hx).trans hact
    · exact hh.congr rfl (setAt_ne _ _ hx)

theorem Installed.call (h : Installed initial s) (fails : Bool) : Installed initial (s.call pid fails) := by
  cases hpoint : s.point with
  | install k => exact h.install hpoint fails
  | restore k waited => exact h.restore hpoint fails
  | assign =>
    simp only [Installed, hpoint] at h
    simp only [State.call, hpoint]
    exact h
  | wait =>
    simp only [Installed, hpoint] at h
    simp only [State.call, hpoint]
    split
    · exact h
    · split
      · exact h
      · simp only [Installed, hpoint]
        exact h
  | reset waited =>
    simp only [Installed, hpoint] at h
    simp only [State.call, hpoint]
    intro g
    rw [if_neg (Nat.not_lt_zero _)]
    exact h g
  | returned code =>
    simp only [State.call, hpoint]
    exact h
  | killed g =>
    simp only [State.call, hpoint]
    exact h

theorem Attended.call (h : Attended s) (fails : Bool) : Attended (s.call pid fails) := by
  unfold State.call
  split
  · rename_i k hpoint
    simp only [Attended, hpoint] at h
    split
    · exact h
    · split
      · exact h
      · exact h
  · rename_i hpoint
    simp only [Attended, hpoint] at h
    exact h
  · rename_i hpoint
    split
    · trivial
    · split
      · exact Or.inl rfl
      · exact h
  · rename_i waited hpoint
    simp only [Attended, hpoint] at h
    cases waited with
    | none => trivial
    | some e => exact h
  · rename_i k waited hpoint
    simp only [Attended, hpoint] at h
    have hcarried : Attended { s with point := .restore (k + 1) waited } := by
      cases waited with
      | none => trivial
      | some e => exact h
    split
    · cases waited with
      | none => exact Or.inl rfl
      | some e => exact Or.inr ⟨e, rfl, h⟩
    · split
      · exact hcarried
      · cases waited with
        | none => trivial
        | some e => exact h
  · exact h
  · exact h

theorem Published.call (h : Published pid s) (fails : Bool) : Published pid (s.call pid fails) := by
  unfold State.call
  split
  · rename_i k hpoint
    simp only [Published, State.over, hpoint, Point.published] at h
    split
    · exact fun _ => h trivial
    · split
      · exact fun _ => h trivial
      · exact fun _ => h trivial
  · exact fun _ => rfl
  · rename_i hpoint
    split
    · simp only [Published, State.over, hpoint, Point.published] at h
      exact fun _ => h trivial
    · split
      · simp only [Published, State.over, hpoint, Point.published] at h
        exact fun _ => h trivial
      · exact h
  · exact fun _ => rfl
  · rename_i k waited hpoint
    simp only [Published, State.over, hpoint, Point.published] at h
    split
    · exact fun hover => (by cases hover)
    · split
      · exact fun _ => h trivial
      · exact fun _ => h trivial
  · exact h
  · exact h

theorem call_records (s : State) (fails : Bool) :
    (s.call pid fails).sent = s.sent ∧ (s.call pid fails).caught = s.caught := by
  unfold State.call
  split
  · split
    · exact ⟨rfl, rfl⟩
    · split
      · exact ⟨rfl, rfl⟩
      · exact ⟨rfl, rfl⟩
  · exact ⟨rfl, rfl⟩
  · split
    · exact ⟨rfl, rfl⟩
    · split
      · exact ⟨rfl, rfl⟩
      · exact ⟨rfl, rfl⟩
  · exact ⟨rfl, rfl⟩
  · split
    · exact ⟨rfl, rfl⟩
    · split
      · exact ⟨rfl, rfl⟩
      · exact ⟨rfl, rfl⟩
  · exact ⟨rfl, rfl⟩
  · exact ⟨rfl, rfl⟩

structure Forwarding (pid : Nat) (initial : Signal → Disposition) (s : State) : Prop where
  installed : Installed initial s
  attended : Attended s
  published : Published pid s
  caught : s.sent.map (fun e => (e.signal, e.point)) = s.caught.filter fun t => t.2.published
  sent : ∀ e ∈ s.sent, e.pid = pid ∧ (e.point = .wait → e.receiver = .container)

theorem Forwarding.start (pid : Nat) (initial : Signal → Disposition) :
    Forwarding pid initial (State.start initial) :=
  ⟨fun _ => ⟨rfl, rfl⟩, rfl, fun _ => rfl, rfl, fun _ h => (by cases h)⟩

theorem Forwarding.call (h : Forwarding pid initial s) (fails : Bool) :
    Forwarding pid initial (s.call pid fails) := by
  obtain ⟨hsent, hcaught⟩ := @call_records pid s fails
  refine ⟨h.installed.call fails, h.attended.call fails, h.published.call fails, ?_, ?_⟩
  · rw [hsent, hcaught]
    exact h.caught
  · rw [hsent]
    exact h.sent

/-- The handler sends exactly where the pid is published. -/
theorem Forwarding.forward (hpid : 0 < pid) (h : Forwarding pid initial s) (hover : s.over = false) (g : Signal) :
    Forwarding pid initial (forwardSignalToContainer g s) := by
  have hpub := h.published hover
  unfold forwardSignalToContainer
  simp only
  cases hp : s.point.published with
  | true =>
    rw [hp, if_pos rfl] at hpub
    rw [if_pos (by rw [hpub]; exact Int.natCast_pos.2 hpid)]
    refine ⟨h.installed, h.attended, h.published, ?_, fun e he => ?_⟩
    · rw [List.map_append, List.filter_append, h.caught]
      simp [hp]
    · rcases List.mem_append.1 he with he | he
      · exact h.sent e he
      · rw [List.mem_singleton.1 he]
        refine ⟨hpub, fun hwait => ?_⟩
        have hatt := h.attended
        simp only at hwait
        simp only [Attended, hwait] at hatt
        exact hatt
  | false =>
    rw [hp, if_neg Bool.false_ne_true] at hpub
    rw [if_neg (by rw [hpub]; decide)]
    refine ⟨h.installed, h.attended, h.published, ?_, h.sent⟩
    rw [List.filter_append, h.caught]
    simp [hp]

/-- The child ends, or its pid goes to another process. -/
theorem Forwarding.withChild {c : Child} (h : Forwarding pid initial s)
    (hkept : s.child.receiver = .container → c.receiver = .container)
    (hended : ∀ e, s.child = .reaped e ∨ s.child = .reused e → c = .reaped e ∨ c = .reused e) :
    Forwarding pid initial { s with child := c } := by
  refine ⟨h.installed, ?_, h.published, h.caught, h.sent⟩
  have hatt := h.attended
  cases hpoint : s.point with
  | install k =>
    simp only [Attended, hpoint] at hatt ⊢
    exact hkept hatt
  | assign =>
    simp only [Attended, hpoint] at hatt ⊢
    exact hkept hatt
  | wait =>
    simp only [Attended, hpoint] at hatt ⊢
    exact hkept hatt
  | reset waited =>
    cases waited with
    | none => trivial
    | some e =>
      simp only [Attended, hpoint] at hatt ⊢
      exact hended e hatt
  | restore k waited =>
    cases waited with
    | none => trivial
    | some e =>
      simp only [Attended, hpoint] at hatt ⊢
      exact hended e hatt
  | returned code =>
    simp only [Attended, hpoint] at hatt ⊢
    rcases hatt with hcode | ⟨e, hcode, he⟩
    · exact Or.inl hcode
    · exact Or.inr ⟨e, hcode, hended e he⟩
  | killed g => trivial

/-- **One step.** -/
theorem Forwarding.step (hpid : 0 < pid) (h : Forwarding pid initial s) (a : Action) :
    Forwarding pid initial (s.step pid a) := by
  cases a with
  | call fails => exact h.call fails
  | signal g =>
    simp only [State.step]
    split
    · exact h
    rename_i hover
    have hover := Bool.of_not_eq_true hover
    split
    · rename_i hact
      exact ⟨hact, trivial, fun hk => (by cases hk), h.caught, h.sent⟩
    · exact h
    · exact h.forward hpid hover g
  | childEnds e =>
    simp only [State.step]
    split
    · rename_i hc
      refine h.withChild (fun _ => rfl) fun e' he' => ?_
      rw [hc] at he'
      rcases he' with he' | he'
      · cases he'
      · cases he'
    · exact h
  | pidReused =>
    simp only [State.step]
    split
    · rename_i e hc
      refine h.withChild (fun hr => ?_) fun e' he' => ?_
      · rw [hc] at hr
        cases hr
      · rw [hc] at he'
        rcases he' with he' | he'
        · cases he'
          exact Or.inr rfl
        · cases he'
    · exact h

/-- **Signals of a foreground `docker run`.**  In every run: the handler has sent one signal to the child for
every signal that it was called for from the publication of the pid to its withdrawal, in their order, and
none for those before and after; what it sends while `waitpid` has not returned reaches the container; while
the pid is published every forwarded signal is caught, unless `sigaction` has failed for it; and when
`docker run` returns, the dispositions are those of the start, and its value is the exit code of the child,
reaped by then, or -1. -/
theorem forwarding_run (pid : Nat) (initial : Signal → Disposition) (acts : List Action) (hpid : 0 < pid) :
    let s := Runs.run (State.step pid) (State.start initial) acts
    s.sent.map (fun e => (e.signal, e.point)) = s.caught.filter (fun t => t.2.published) ∧
      (∀ e ∈ s.sent, e.pid = pid ∧ (e.point = .wait → e.receiver = .container)) ∧
      (s.point.published = true → ∀ g, s.action g = .forward ∨ s.previous g = none ∧ s.action g = initial g) ∧
      ∀ code, s.point = .returned code → s.action = initial ∧
        (code = -1 ∨ ∃ e : Exec.Ending, code = e.code ∧ (s.child = .reaped e ∨ s.child = .reused e)) := by
  have h : Forwarding pid initial (Runs.run (State.step pid) (State.start initial) acts) :=
    Runs.run_keeps (fun _ a hs => hs.step hpid a) (Forwarding.start pid initial)
  generalize Runs.run (State.step pid) (State.start initial) acts = s at h
  refine ⟨h.caught, h.sent, fun hp g => ?_, fun code hcode => ?_⟩
  · have hinst := h.installed
    unfold Installed at hinst
    unfold Point.published at hp
    split at hp
    · rename_i hpoint
      rw [hpoint] at hinst
      rcases hinst g with hfailed | hset
      · exact Or.inr hfailed
      · exact Or.inl hset.2
    · rename_i waited hpoint
      rw [hpoint] at hinst
      rcases hinst g with hfailed | hset
      · exact Or.inr hfailed
      · exact Or.inl hset.2
    · cases hp
  · have hinst := h.installed
    have hatt := h.attended
    simp only [Installed, Attended, hcode] at hinst hatt
    exact ⟨hinst, hatt⟩

/-- A run of which the child gets two signals, one of them again while it waits, and ends by one. -/
def interrupted : List Action :=
  [.call false, .call false, .signal .SIGINT, .call false, .call false, .call false, .signal .SIGINT, .call false,
    .signal .SIGTERM, .childEnds (.signalled 15), .call false, .call false, .call false, .call false, .call false,
    .call false]

theorem interrupted_run : let s := Runs.run (State.step 7) (State.start fun _ => .default) interrupted
    s.sent.map (fun e => (e.signal, e.point)) = s.caught.filter (fun t => t.2.published) ∧
      s.caught.length = 3 ∧ s.sent.map (·.signal) = [.SIGINT, .SIGTERM] ∧ s.point = .returned 143 :=
  ⟨(forwarding_run 7 (fun _ => .default) interrupted (by decide)).1, by decide, by decide, by decide⟩

/-- After `waitpid` has returned, the pid may already be that of another process. -/
theorem stranger_gets_signal :
    let s := Runs.run (State.step 7) (State.start fun _ => .default)
      [.call false, .call false, .call false, .call false, .call false, .childEnds (.exited 0), .call false,
        .pidReused, .signal .SIGTERM]
    s.sent = [⟨.SIGTERM, 7, .stranger, .reset (some (.exited 0))⟩] := by
  decide

end

end Foreground

end TinyDocker
