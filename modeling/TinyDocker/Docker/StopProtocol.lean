import TinyDocker.Docker.Effects
import TinyDocker.Docker.StatusFile

/-!
# The protocol of `docker stop` (`docker/container.c`)

`Stop.stopContainer` is one turn of the loop of `docker_stop` as a function of what the operating
system answers: the metadata file and the `/proc` lookup of the refresh, the PIDs each signalling
round lists with the result of each `kill`, and every process count that is polled, errors included.
It returns the file, the result and the trace of what was done.

Principal results: `dockerStop_protocol` — the order and the bounds of the signals, the polls and the
write, for every container of every list; `stopContainer_simulates` — `TinyDocker.stopContainer` on
the host is a run of it.
-/

set_option autoImplicit false

namespace TinyDocker.Stop

open CText

/-! ## One container -/

inductive Signal where
  | term
  | kill
  deriving DecidableEq, Repr

/-- How `kill` ends: with 0, with `ESRCH`, or with another errno. -/
inductive KillResult where
  | delivered
  | gone
  | refused
  deriving DecidableEq, Repr

/-- The answers during one signalling round: the PIDs `container_process_count` lists, `none` for its
error, and the result of each `kill` by index. -/
structure Round where
  pids : Option (List Int)
  results : Nat → KillResult

/-- The loop of `signal_container_processes`: the PIDs that were signalled and the result. -/
def signalPids (results : Nat → KillResult) : Nat → List Int → List Int × Int
  | _, [] => ([], 0)
  | i, pid :: rest =>
    let later := signalPids results (i + 1) rest
    if pid ≤ 0 then (later.1, -1)
    else (pid :: later.1, if results i = .refused then -1 else later.2)

def signalContainerProcesses (r : Round) : List Int × Int :=
  match r.pids with
  | none => ([], -1)
  | some pids => signalPids r.results 0 pids

/-- What `docker_stop` is answered for one container; `counts k` is the result of its `k`th call of
`container_process_count`. -/
structure Answers where
  readable : Bool
  lookup : StatusFile.ProcessLookup
  refreshIo : Bool
  term : Round
  kill : Round
  counts : Nat → Int
  updateIo : Bool

/-- What `docker_stop` does for one container: a signalling round, a poll, or the attempt to write
`STOPPED`. -/
inductive Event where
  | signal (s : Signal) (pids : List Int) (ok : Bool)
  | poll (count : Int)
  | writeStopped (ok : Bool)
  deriving DecidableEq, Repr

/-- A polling loop of at most `n` turns, entered with `count`; the next call of
`container_process_count` is number `k`.  The counts it polled, and the last one. -/
def pollLoop (counts : Nat → Int) : Nat → Nat → Int → List Int × Int
  | 0, _, count => ([], count)
  | n + 1, k, count =>
    if 0 < count then
      let later := pollLoop counts n (k + 1) (counts k)
      (counts k :: later.1, later.2)
    else ([], count)

/-- From `SIGTERM` to the last poll; the flag says that `pid_count` is 0 in the end. -/
def stopProcesses (time : Nat) (a : Answers) : List Event × Bool :=
  let term := signalContainerProcesses a.term
  if term.2 ≠ 0 then ([.signal .term term.1 false], false)
  else
    let first := pollLoop a.counts (time * 10) 1 (a.counts 0)
    let polled := .signal .term term.1 true :: (a.counts 0 :: first.1).map .poll
    if 0 < first.2 then
      let kill := signalContainerProcesses a.kill
      if kill.2 ≠ 0 then (polled ++ [.signal .kill kill.1 false], false)
      else
        let second := pollLoop a.counts 20 (1 + first.1.length) first.2
        (polled ++ .signal .kill kill.1 true :: second.1.map .poll, decide (second.2 = 0))
    else (polled, decide (first.2 = 0))

/-- One turn of the loop of `docker_stop`: the metadata file, what was done, and -1 where
`overall_result` is set to -1. -/
def stopContainer (time : Nat) (name : Text) (a : Answers) (file : Option Text) :
    Option Text × List Event × Int :=
  match if a.readable then StatusFile.readContainerInfo name file else none with
  | none => (file, [], -1)
  | some info =>
    let refreshed := StatusFile.refreshContainerStatusIfNeeded a.refreshIo a.lookup name info file
    if refreshed.2 < 0 then (refreshed.1, [], -1)
    -- a refresh that returns 1 has set the status to `EXITED`
    else if refreshed.2 = 1 ∨ info.status ≠ StatusFile.strStatus .running then (refreshed.1, [], 0)
    else
      let s := stopProcesses time a
      if s.2 then
        let update := StatusFile.updateContainerStatus a.updateIo name .stopped refreshed.1
        (update.1, s.1 ++ [.writeStopped update.2], if update.2 then 0 else -1)
      else (refreshed.1, s.1, -1)

/-- The metadata directory: the file of each container. -/
abbrev Files := Text → Option Text

/-- `docker_stop`: the files, what was done for each container, and `overall_result`. -/
def dockerStop (time : Nat) : List (Text × Answers) → Files → Files × List (List Event) × Int
  | [], files => (files, [], 0)
  | (name, a) :: rest, files =>
    let this := stopContainer time name a (files name)
    let others := dockerStop time rest (Function.update files name this.1)
    (others.1, this.2.1 :: others.2.1, if this.2.2 = 0 then others.2.2 else -1)

/-! ## The polling loops -/

/-- The `n` answers from number `k` on. -/
def answersFrom (counts : Nat → Int) (k n : Nat) : List Int := (List.range n).map fun j => counts (k + j)

theorem answersFrom_succ (counts : Nat → Int) (k n : Nat) :
    answersFrom counts k (n + 1) = counts k :: answersFrom counts (k + 1) n := by
  have hstep : ∀ j, counts (k + (j + 1)) = counts (k + 1 + j) := by
    intro j
    rw [Nat.add_right_comm k 1 j, Nat.add_assoc]
  rw [answersFrom, List.range_succ_eq_map, List.map_cons, List.map_map]
  simp only [Function.comp_def, Nat.succ_eq_add_one, hstep]
  rfl

theorem answersFrom_append (counts : Nat → Int) (m : Nat) : ∀ n k : Nat,
    answersFrom counts k n ++ answersFrom counts (k + n) m = answersFrom counts k (n + m)
  | 0, k => by rw [Nat.zero_add, Nat.add_zero]; rfl
  | n + 1, k => by
    have ih := answersFrom_append counts m n (k + 1)
    rw [answersFrom_succ, List.cons_append, Nat.add_right_comm n 1 m, answersFrom_succ, ← ih,
      Nat.add_right_comm k 1 n, Nat.add_assoc k n 1]

/-- What a polling loop has done: it polled the next answers, at most `n`; a positive count at the end
means that all were positive and that no turn was left. -/
structure Polled (counts : Nat → Int) (n k : Nat) (count : Int) (r : List Int × Int) : Prop where
  answers : r.1 = answersFrom counts k r.1.length
  bound : r.1.length ≤ n
  last : (count :: r.1).getLast? = some r.2
  positive : 0 < r.2 → r.1.length = n ∧ ∀ c ∈ count :: r.1, 0 < c

theorem pollLoop_polled (counts : Nat → Int) : ∀ (n k : Nat) (count : Int),
    Polled counts n k count (pollLoop counts n k count)
  | 0, k, count => ⟨rfl, Nat.le_refl _, rfl, fun h => ⟨rfl, by simpa [pollLoop] using h⟩⟩
  | n + 1, k, count => by
    unfold pollLoop
    split
    · rename_i hpos
      have ih := pollLoop_polled counts n (k + 1) (counts k)
      refine ⟨?_, Nat.succ_le_succ ih.bound, ?_, fun hlast => ?_⟩
      · rw [List.length_cons, answersFrom_succ, ← ih.answers]
      · rw [List.getLast?_cons_cons]
        exact ih.last
      · obtain ⟨hlen, hall⟩ := ih.positive hlast
        refine ⟨congrArg Nat.succ hlen, fun c hc => ?_⟩
        rcases List.mem_cons.1 hc with rfl | hc
        · exact hpos
        · exact hall c hc
    · rename_i hpos
      exact ⟨rfl, Nat.zero_le _, rfl, fun h => absurd h hpos⟩

/-! ## The signals -/

/-- The counts that were polled. -/
def polled (events : List Event) : List Int :=
  events.filterMap fun
    | .poll count => some count
    | _ => none

@[simp] theorem polled_append (t u : List Event) : polled (t ++ u) = polled t ++ polled u :=
  List.filterMap_append

@[simp] theorem polled_signal (s : Signal) (pids : List Int) (ok : Bool) (t : List Event) :
    polled (.signal s pids ok :: t) = polled t := rfl

@[simp] theorem polled_polls (counts : List Int) : polled (counts.map .poll) = counts := by
  rw [polled, List.filterMap_map]
  exact List.filterMap_some

/-- The rounds of a container. -/
def Answers.round (a : Answers) : Signal → Round
  | .term => a.term
  | .kill => a.kill

/-- Whether `signal_container_processes` returns 0. -/
def Round.ok (r : Round) : Bool := decide ((signalContainerProcesses r).2 = 0)

/-- The signalling round as it stands in the trace. -/
def Answers.signalled (a : Answers) (s : Signal) : Event :=
  .signal s (signalContainerProcesses (a.round s)).1 (a.round s).ok

/-- The four ways from `SIGTERM` to the last poll. -/
inductive Stops (time : Nat) (a : Answers) : List Event × Bool → Prop where
  | termFailed (hterm : a.term.ok = false) : Stops time a ([a.signalled .term], false)
  | emptied (m : Nat) (last : Int) (hterm : a.term.ok = true) (hm : m ≤ time * 10)
      (hlast : (answersFrom a.counts 0 (1 + m)).getLast? = some last) (hpos : ¬ 0 < last) :
      Stops time a (a.signalled .term :: (answersFrom a.counts 0 (1 + m)).map .poll, decide (last = 0))
  | killFailed (hterm : a.term.ok = true) (hkill : a.kill.ok = false)
      (hall : ∀ c ∈ answersFrom a.counts 0 (1 + time * 10), 0 < c) :
      Stops time a (a.signalled .term :: (answersFrom a.counts 0 (1 + time * 10)).map .poll ++
        [a.signalled .kill], false)
  | killed (m : Nat) (last : Int) (hterm : a.term.ok = true) (hkill : a.kill.ok = true)
      (hall : ∀ c ∈ answersFrom a.counts 0 (1 + time * 10), 0 < c) (hm : m ≤ 20)
      (hlast : (answersFrom a.counts 0 (1 + time * 10 + m)).getLast? = some last) :
      Stops time a (a.signalled .term :: (answersFrom a.counts 0 (1 + time * 10)).map .poll ++
        a.signalled .kill :: (answersFrom a.counts (1 + time * 10) m).map .poll, decide (last = 0))

theorem answersFrom_zero (counts : Nat → Int) (m : Nat) :
    counts 0 :: answersFrom counts 1 m = answersFrom counts 0 (1 + m) := by
  rw [Nat.add_comm, answersFrom_succ]

theorem stopProcesses_stops (time : Nat) (a : Answers) : Stops time a (stopProcesses time a) := by
  have hround : ∀ s, a.signalled s =
      .signal s (signalContainerProcesses (a.round s)).1 (a.round s).ok := fun _ => rfl
  unfold stopProcesses
  simp only
  split
  · rename_i hterm
    have hok : a.term.ok = false := decide_eq_false hterm
    have hevent : a.signalled .term = .signal .term (signalContainerProcesses a.term).1 false :=
      (hround .term).trans (by rw [← hok]; rfl)
    rw [← hevent]
    exact .termFailed hok
  rename_i hterm
  have htok : a.term.ok = true := decide_eq_true (not_not.1 hterm)
  have htevent : a.signalled .term = .signal .term (signalContainerProcesses a.term).1 true :=
    (hround .term).trans (by rw [← htok]; rfl)
  have hfirst := pollLoop_polled a.counts (time * 10) 1 (a.counts 0)
  rw [← htevent]
  generalize pollLoop a.counts (time * 10) 1 (a.counts 0) = first at hfirst ⊢
  have hpolls : a.counts 0 :: first.1 = answersFrom a.counts 0 (1 + first.1.length) := by
    rw [← answersFrom_zero, ← hfirst.answers]
  have hlast := hfirst.last
  rw [hpolls] at hlast ⊢
  split
  · rename_i hpos
    obtain ⟨hlen, hall⟩ := hfirst.positive hpos
    rw [hpolls, hlen] at hall
    rw [hlen] at hlast ⊢
    split
    · rename_i hkill
      have hok : a.kill.ok = false := decide_eq_false hkill
      have hevent : a.signalled .kill = .signal .kill (signalContainerProcesses a.kill).1 false :=
        (hround .kill).trans (by rw [← hok]; rfl)
      rw [← hevent]
      exact .killFailed htok hok hall
    · rename_i hkill
      have hok : a.kill.ok = true := decide_eq_true (not_not.1 hkill)
      have hevent : a.signalled .kill = .signal .kill (signalContainerProcesses a.kill).1 true :=
        (hround .kill).trans (by rw [← hok]; rfl)
      have hsecond := pollLoop_polled a.counts 20 (1 + time * 10) first.2
      rw [← hevent]
      generalize pollLoop a.counts 20 (1 + time * 10) first.2 = second at hsecond ⊢
      -- the second loop goes on with the count the first one ended with
      have hend : (answersFrom a.counts 0 (1 + time * 10 + second.1.length)).getLast? = some second.2 := by
        rw [← answersFrom_append, Nat.zero_add, ← hsecond.answers, ← hsecond.last,
          List.getLast?_append, List.getLast?_cons, hlast]
        cases second.1.getLast? <;> rfl
      rw [hsecond.answers]
      exact .killed _ _ htok hok hall hsecond.bound hend
  · rename_i hpos
    exact .emptied _ _ htok hfirst.bound hlast hpos

/-! ## The protocol -/

/-- The metadata says `RUNNING`, and still does after the refresh. -/
def RunningAfterRefresh (name : Text) (a : Answers) (file : Option Text) : Prop :=
  a.readable = true ∧ ∃ info, StatusFile.readContainerInfo name file = some info ∧
    info.status = StatusFile.strStatus .running ∧
    (StatusFile.refreshContainerStatusIfNeeded a.refreshIo a.lookup name info file).2 = 0

/-- What `docker_stop` keeps to for one running container; `out` is the file, the trace and the
result. -/
structure Follows (time : Nat) (name : Text) (a : Answers) (file : Option Text)
    (out : Option Text × List Event × Int) : Prop where
  /-- `SIGTERM` comes first, and once. -/
  term_first : ∃ rest, out.2.1 = a.signalled .term :: rest ∧
    ∀ e ∈ rest, ∀ pids ok, e ≠ .signal .term pids ok
  /-- `SIGKILL` comes after the first poll and the `10 * time` following ones, all positive. -/
  kill_after : ∀ before pids ok after, out.2.1 = before ++ .signal .kill pids ok :: after →
    polled before = answersFrom a.counts 0 (1 + 10 * time) ∧ ∀ c ∈ polled before, 0 < c
  rounds : ∀ s pids ok, .signal s pids ok ∈ out.2.1 → .signal s pids ok = a.signalled s
  polls : polled out.2.1 = answersFrom a.counts 0 (polled out.2.1).length ∧
    (polled out.2.1).length ≤ 1 + 10 * time + 20
  /-- `STOPPED` is written exactly when every round succeeded and the last count is 0. -/
  write_iff : (∃ ok, .writeStopped ok ∈ out.2.1) ↔
    (∀ s pids ok, .signal s pids ok ∈ out.2.1 → ok = true) ∧ (polled out.2.1).getLast? = some 0
  written : ∀ ok, .writeStopped ok ∈ out.2.1 →
    (out.1, ok) = StatusFile.updateContainerStatus a.updateIo name .stopped file ∧
    out.2.2 = if ok then 0 else -1
  untouched : (∀ ok, .writeStopped ok ∉ out.2.1) → out.1 = file ∧ out.2.2 = -1

theorem refresh_zero {io : Bool} {lookup : StatusFile.ProcessLookup} {name : Text} {r : StatusRecord}
    {file : Option Text}
    (h : (StatusFile.refreshContainerStatusIfNeeded io lookup name r file).2 = 0) :
    (StatusFile.refreshContainerStatusIfNeeded io lookup name r file).1 = file := by
  have hexited : ∀ b : Bool, (if b then (1 : Int) else -1) ≠ 0 := by decide
  unfold StatusFile.refreshContainerStatusIfNeeded at h ⊢
  simp only at h ⊢
  split at h
  · cases h
  rename_i hname
  rw [if_neg hname]
  split
  · rfl
  rename_i hrun
  rw [if_neg hrun] at h
  split
  · rfl
  rename_i hpid
  rw [if_neg hpid] at h
  cases lookup with
  | found startTime =>
    simp only at h ⊢
    split
    · rfl
    · rename_i hother
      rw [if_neg hother] at h
      exact absurd h (hexited _)
  | gone => exact absurd h (hexited _)
  | failed => cases h

/-- What `stopContainer` is for a running container. -/
theorem stopContainer_running {time : Nat} {name : Text} {a : Answers} {file : Option Text}
    (h : RunningAfterRefresh name a file) :
    stopContainer time name a file =
      if (stopProcesses time a).2 then
        ((StatusFile.updateContainerStatus a.updateIo name .stopped file).1,
          (stopProcesses time a).1 ++
            [.writeStopped (StatusFile.updateContainerStatus a.updateIo name .stopped file).2],
          if (StatusFile.updateContainerStatus a.updateIo name .stopped file).2 then 0 else -1)
      else (file, (stopProcesses time a).1, -1) := by
  obtain ⟨hread, info, hinfo, hstatus, hzero⟩ := h
  unfold stopContainer
  rw [if_pos hread, hinfo]
  simp only
  rw [if_neg (by rw [hzero]; decide), if_neg (by rw [hzero, hstatus]; decide), refresh_zero hzero]

/-- A list has one place for an element that no other of its elements is like. -/
theorem before_unique {α : Type} {p : α → Prop} {k k' : α} : ∀ {first second before after : List α},
    first ++ k :: second = before ++ k' :: after → (∀ e ∈ first, ¬ p e) → (∀ e ∈ second, ¬ p e) →
    p k → p k' → before = first
  | [], second, [], after, _, _, _, _, _ => rfl
  | [], second, e :: before, after, h, _, hsecond, _, hk' => by
    rw [List.nil_append, List.cons_append, List.cons.injEq] at h
    exact absurd hk' (hsecond k' (h.2 ▸ List.mem_append_right _ List.mem_cons_self))
  | x :: first, second, [], after, h, hfirst, _, _, hk' => by
    rw [List.nil_append, List.cons_append, List.cons.injEq] at h
    exact absurd (h.1 ▸ hk') (hfirst x List.mem_cons_self)
  | x :: first, second, e :: before, after, h, hfirst, hsecond, hk, hk' => by
    rw [List.cons_append, List.cons_append, List.cons.injEq] at h
    rw [h.1, before_unique h.2 (fun y hy => hfirst y (List.mem_cons_of_mem _ hy)) hsecond hk hk']

/-- Nothing but a poll. -/
def Event.isPoll : Event → Prop
  | .poll _ => True
  | _ => False

theorem isPoll_of_mem {counts : List Int} {e : Event} (h : e ∈ counts.map Event.poll) : e.isPoll := by
  obtain ⟨c, -, rfl⟩ := List.mem_map.1 h
  trivial

theorem signalled_ne (a : Answers) {s s' : Signal} (h : s ≠ s') (pids : List Int) (ok : Bool) :
    a.signalled s ≠ .signal s' pids ok := by
  intro he
  exact h (Event.signal.inj he).1

theorem round_of_signalled {a : Answers} {s s' : Signal} {pids : List Int} {ok : Bool}
    (h : .signal s pids ok = a.signalled s') : .signal s pids ok = a.signalled s ∧ ok = (a.round s).ok := by
  obtain ⟨rfl, -, hok⟩ := Event.signal.inj h
  exact ⟨h, hok⟩

/-- What a trace from `SIGTERM` to the last poll looks like. -/
structure Stopped (time : Nat) (a : Answers) (t : List Event) (ended : Bool) : Prop where
  term_first : ∃ rest, t = a.signalled .term :: rest ∧ ∀ e ∈ rest, ∀ pids ok, e ≠ .signal .term pids ok
  kill_after : ∀ before pids ok after, t = before ++ .signal .kill pids ok :: after →
    polled before = answersFrom a.counts 0 (1 + time * 10) ∧ ∀ c ∈ polled before, 0 < c
  events : ∀ e ∈ t, e.isPoll ∨ ∃ s, e = a.signalled s
  polls : polled t = answersFrom a.counts 0 (polled t).length ∧ (polled t).length ≤ 1 + time * 10 + 20
  ended_iff : ended = true ↔
    (∀ s pids ok, .signal s pids ok ∈ t → ok = true) ∧ (polled t).getLast? = some 0

theorem length_answersFrom (counts : Nat → Int) (k n : Nat) : (answersFrom counts k n).length = n := by
  rw [answersFrom, List.length_map, List.length_range]

/-- A trace with only polls behind `SIGTERM`. -/
theorem stopped_of_polls {time m : Nat} {a : Answers} {ended : Bool} (hm : m ≤ 1 + time * 10)
    (hended : ended = true ↔ a.term.ok = true ∧ (answersFrom a.counts 0 m).getLast? = some 0) :
    Stopped time a (a.signalled .term :: (answersFrom a.counts 0 m).map .poll) ended := by
  have hpolled : polled (a.signalled .term :: (answersFrom a.counts 0 m).map .poll) =
      answersFrom a.counts 0 m := by
    rw [Answers.signalled, polled_signal, polled_polls]
  have hpolls : ∀ e ∈ (answersFrom a.counts 0 m).map Event.poll, ∀ s pids ok,
      e ≠ .signal s pids ok := by
    rintro e he s pids ok rfl
    exact isPoll_of_mem he
  refine ⟨⟨_, rfl, fun e he => hpolls e he .term⟩, fun before pids ok after h => ?_, fun e he => ?_, ?_, ?_⟩
  · have hmem : Event.signal .kill pids ok ∈ a.signalled .term :: (answersFrom a.counts 0 m).map .poll := by
      rw [h]
      simp
    rcases List.mem_cons.1 hmem with he | he
    · exact absurd he.symm (signalled_ne a (by decide) pids ok)
    · exact absurd rfl (hpolls _ he .kill pids ok)
  · rcases List.mem_cons.1 he with rfl | he
    · exact Or.inr ⟨.term, rfl⟩
    · exact Or.inl (isPoll_of_mem he)
  · rw [hpolled, length_answersFrom]
    exact ⟨rfl, by omega⟩
  · rw [hended, hpolled]
    refine and_congr_left fun _ => ⟨fun hok s pids ok he => ?_, fun hall => hall _ _ _ List.mem_cons_self⟩
    rcases List.mem_cons.1 he with he | he
    · obtain ⟨rfl, -, rfl⟩ := Event.signal.inj he
      exact hok
    · exact absurd rfl (hpolls _ he s pids ok)

/-- A trace with `SIGKILL` and polls behind it. -/
theorem stopped_of_kill {time m : Nat} {a : Answers} {ended : Bool} (hterm : a.term.ok = true)
    (hall : ∀ c ∈ answersFrom a.counts 0 (1 + time * 10), 0 < c) (hm : m ≤ 20)
    (hended : ended = true ↔
      a.kill.ok = true ∧ (answersFrom a.counts 0 (1 + time * 10 + m)).getLast? = some 0) :
    Stopped time a (a.signalled .term :: (answersFrom a.counts 0 (1 + time * 10)).map .poll ++
      a.signalled .kill :: (answersFrom a.counts (1 + time * 10) m).map .poll) ended := by
  have hpolls : ∀ k n, ∀ e ∈ (answersFrom a.counts k n).map Event.poll, ∀ s pids ok,
      e ≠ .signal s pids ok := by
    rintro k n e he s pids ok rfl
    exact isPoll_of_mem he
  have hbefore : polled (a.signalled .term :: (answersFrom a.counts 0 (1 + time * 10)).map .poll) =
      answersFrom a.counts 0 (1 + time * 10) := by
    rw [Answers.signalled, polled_signal, polled_polls]
  have hpolled : polled (a.signalled .term :: (answersFrom a.counts 0 (1 + time * 10)).map .poll ++
      a.signalled .kill :: (answersFrom a.counts (1 + time * 10) m).map .poll) =
      answersFrom a.counts 0 (1 + time * 10 + m) := by
    have happend := answersFrom_append a.counts m (1 + time * 10) 0
    rw [Nat.zero_add] at happend
    rw [polled_append, hbefore, Answers.signalled, polled_signal, polled_polls, happend]
  refine ⟨⟨_, rfl, fun e he pids ok => ?_⟩, fun before pids ok after h => ?_, fun e he => ?_, ?_, ?_⟩
  · rcases List.mem_append.1 he with he | he
    · exact hpolls _ _ e he .term pids ok
    rcases List.mem_cons.1 he with rfl | he
    · exact signalled_ne a (by decide) pids ok
    · exact hpolls _ _ e he .term pids ok
  · have heq : before = a.signalled .term :: (answersFrom a.counts 0 (1 + time * 10)).map .poll := by
      refine before_unique (p := fun e => ∃ pids ok, e = Event.signal .kill pids ok) h ?_ ?_ ⟨_, _, rfl⟩
        ⟨_, _, rfl⟩
      · rintro e he ⟨pids, ok, rfl⟩
        rcases List.mem_cons.1 he with he | he
        · exact signalled_ne a (by decide) pids ok he.symm
        · exact hpolls _ _ _ he .kill pids ok rfl
      · rintro e he ⟨pids, ok, rfl⟩
        exact hpolls _ _ _ he .kill pids ok rfl
    rw [heq, hbefore]
    exact ⟨rfl, hall⟩
  · rcases List.mem_append.1 he with he | he
    · rcases List.mem_cons.1 he with rfl | he
      · exact Or.inr ⟨.term, rfl⟩
      · exact Or.inl (isPoll_of_mem he)
    · rcases List.mem_cons.1 he with rfl | he
      · exact Or.inr ⟨.kill, rfl⟩
      · exact Or.inl (isPoll_of_mem he)
  · rw [hpolled, length_answersFrom]
    exact ⟨rfl, by omega⟩
  · rw [hended, hpolled]
    refine and_congr_left fun _ => ⟨fun hok s pids ok he => ?_, fun hoks => ?_⟩
    · have hsignal : ∃ s', Event.signal s pids ok = a.signalled s' := by
        rcases List.mem_append.1 he with he | he
        · rcases List.mem_cons.1 he with he | he
          · exact ⟨.term, he⟩
          · exact absurd rfl (hpolls _ _ _ he s pids ok)
        · rcases List.mem_cons.1 he with he | he
          · exact ⟨.kill, he⟩
          · exact absurd rfl (hpolls _ _ _ he s pids ok)
      obtain ⟨s', hs'⟩ := hsignal
      rw [(round_of_signalled hs').2]
      cases s
      · exact hterm
      · exact hok
    · exact hoks .kill _ _ (List.mem_append_right _ List.mem_cons_self)

theorem stopProcesses_stopped (time : Nat) (a : Answers) :
    Stopped time a (stopProcesses time a).1 (stopProcesses time a).2 := by
  have h := stopProcesses_stops time a
  generalize stopProcesses time a = r at h ⊢
  cases h with
  | termFailed hterm =>
    refine stopped_of_polls (m := 0) (Nat.zero_le _) ⟨fun h => absurd h Bool.false_ne_true, fun h => ?_⟩
    rw [hterm] at h
    exact absurd h.1 Bool.false_ne_true
  | emptied m last hterm hm hlast hpos =>
    refine stopped_of_polls (by omega) ?_
    rw [decide_eq_true_eq, and_iff_right hterm, hlast, Option.some.injEq]
  | killFailed hterm hkill hall =>
    refine stopped_of_kill (m := 0) hterm hall (Nat.zero_le _) ⟨fun h => absurd h Bool.false_ne_true, fun h => ?_⟩
    rw [hkill] at h
    exact absurd h.1 Bool.false_ne_true
  | killed m last hterm hkill hall hm hlast =>
    refine stopped_of_kill hterm hall hm ?_
    rw [decide_eq_true_eq, and_iff_right hkill, hlast, Option.some.injEq]

/-- An element that is not the last one stands in front of it. -/
theorem split_before_last {α : Type} {l before after : List α} {x y : α} (hne : x ≠ y)
    (h : l ++ [x] = before ++ y :: after) : ∃ later, l = before ++ y :: later := by
  rcases List.append_eq_append_iff.1 h with ⟨u, -, hu⟩ | ⟨u, hl, hu⟩
  · cases u with
    | nil => exact absurd (List.cons.inj hu).1 hne
    | cons z u =>
      rw [List.cons_append, List.cons.injEq] at hu
      exact absurd hu.2.symm (by simp)
  · cases u with
    | nil => exact absurd (List.cons.inj hu).1.symm hne
    | cons z u =>
      rw [List.cons_append, List.cons.injEq] at hu
      exact ⟨u, by rw [hl, hu.1]⟩

/-- **One running container.** -/
theorem stopContainer_follows {time : Nat} {name : Text} {a : Answers} {file : Option Text}
    (h : RunningAfterRefresh name a file) :
    Follows time name a file (stopContainer time name a file) := by
  have hs := stopProcesses_stopped time a
  have hnone : ∀ ok, Event.writeStopped ok ∉ (stopProcesses time a).1 := by
    intro ok hmem
    rcases hs.events _ hmem with he | ⟨s, he⟩
    · exact he
    · cases he
  have hround : ∀ s pids ok, Event.signal s pids ok ∈ (stopProcesses time a).1 →
      Event.signal s pids ok = a.signalled s := by
    intro s pids ok hmem
    rcases hs.events _ hmem with he | ⟨s', he⟩
    · exact he.elim
    · exact (round_of_signalled he).1
  rw [stopContainer_running h]
  generalize stopProcesses time a = r at hs hnone hround ⊢
  split
  · rename_i hended
    have hmem : ∀ s pids ok ok', .signal s pids ok ∈ r.1 ++ [Event.writeStopped ok'] →
        .signal s pids ok ∈ r.1 := by
      intro s pids ok ok' he
      rcases List.mem_append.1 he with he | he
      · exact he
      · cases List.mem_singleton.1 he
    have hpolled : ∀ ok, polled (r.1 ++ [.writeStopped ok]) = polled r.1 := by
      intro ok
      rw [polled_append]
      exact List.append_nil _
    obtain ⟨rest, hrest, hterm⟩ := hs.term_first
    refine ⟨⟨rest ++ [_], by rw [hrest, List.cons_append], fun e he pids ok => ?_⟩,
      fun before pids ok after he => ?_, fun s pids ok he => hround s pids ok (hmem _ _ _ _ he), ?_, ?_,
      fun ok he => ?_, fun hno => absurd (List.mem_append_right _ List.mem_cons_self) (hno _)⟩
    · rcases List.mem_append.1 he with he | he
      · exact hterm e he pids ok
      · rw [List.mem_singleton.1 he]
        exact Event.noConfusion
    · -- the write is the last event, so the signal stands in front of it
      rw [Nat.mul_comm]
      obtain ⟨later, hlater⟩ : ∃ later, r.1 = before ++ .signal .kill pids ok :: later :=
        split_before_last Event.noConfusion he
      exact hs.kill_after before pids ok later hlater
    · rw [hpolled, Nat.mul_comm]
      exact hs.polls
    · rw [hpolled]
      refine ⟨fun _ => ?_, fun _ => ⟨_, List.mem_append_right _ List.mem_cons_self⟩⟩
      obtain ⟨hoks, hlast⟩ := hs.ended_iff.1 hended
      exact ⟨fun s pids ok he => hoks s pids ok (hmem _ _ _ _ he), hlast⟩
    · rcases List.mem_append.1 he with he | he
      · exact absurd he (hnone ok)
      · obtain rfl := Event.writeStopped.inj (List.mem_singleton.1 he)
        exact ⟨rfl, rfl⟩
  · rename_i hended
    refine ⟨hs.term_first, fun before pids ok after he => ?_, hround, ?_, ?_,
      fun ok he => absurd he (hnone ok), fun _ => ⟨rfl, rfl⟩⟩
    · rw [Nat.mul_comm]
      exact hs.kill_after before pids ok after he
    · rw [Nat.mul_comm]
      exact hs.polls
    · refine ⟨fun ⟨ok, he⟩ => absurd he (hnone ok), fun hok => ?_⟩
      exact absurd (hs.ended_iff.2 hok) hended

/-! ## A list of containers -/

/-- **A run over two lists is a run over the first and then over the second**, whatever the first one
came to; `overall_result` keeps a -1. -/
theorem dockerStop_append (time : Nat) (after : List (Text × Answers)) :
    ∀ (before : List (Text × Answers)) (files : Files),
      dockerStop time (before ++ after) files =
        ((dockerStop time after (dockerStop time before files).1).1,
          (dockerStop time before files).2.1 ++
            (dockerStop time after (dockerStop time before files).1).2.1,
          if (dockerStop time before files).2.2 = 0 then
            (dockerStop time after (dockerStop time before files).1).2.2
          else -1)
  | [], files => rfl
  | (name, a) :: before, files => by
    have ih := dockerStop_append time after before
      (Function.update files name (stopContainer time name a (files name)).1)
    simp only [List.cons_append, dockerStop, ih]
    by_cases hthis : (stopContainer time name a (files name)).2.2 = 0
    · simp only [if_pos hthis]
    · simp only [if_neg hthis, show ¬ (-1 : Int) = 0 by decide, if_false]

/-- **The protocol of `docker stop`.**  Every container of the list has its turn, with the files as the
turns before left them; one that is still running after the refresh is stopped by the protocol; and
a turn that ends with -1 makes the overall result -1. -/
theorem dockerStop_protocol (time : Nat) (before after : List (Text × Answers)) (name : Text)
    (a : Answers) (files : Files)
    (hrunning : RunningAfterRefresh name a ((dockerStop time before files).1 name)) :
    Follows time name a ((dockerStop time before files).1 name)
      (stopContainer time name a ((dockerStop time before files).1 name)) ∧
    (dockerStop time (before ++ (name, a) :: after) files).1 =
      (dockerStop time after (Function.update (dockerStop time before files).1 name
        (stopContainer time name a ((dockerStop time before files).1 name)).1)).1 ∧
    (dockerStop time (before ++ (name, a) :: after) files).2.1 =
      (dockerStop time before files).2.1 ++
        (stopContainer time name a ((dockerStop time before files).1 name)).2.1 ::
        (dockerStop time after (Function.update (dockerStop time before files).1 name
          (stopContainer time name a ((dockerStop time before files).1 name)).1)).2.1 ∧
    ((stopContainer time name a ((dockerStop time before files).1 name)).2.2 = -1 →
      (dockerStop time (before ++ (name, a) :: after) files).2.2 = -1) := by
  refine ⟨stopContainer_follows hrunning, ?_⟩
  rw [dockerStop_append]
  generalize dockerStop time before files = b
  refine ⟨rfl, rfl, fun hfailed => ?_⟩
  simp only [dockerStop]
  rw [if_neg (show (stopContainer time name a (b.1 name)).2.2 ≠ 0 by rw [hfailed]; decide)]
  split <;> rfl

/-- A container with one process that outlives `SIGTERM`, and no metadata for the other name. -/
def stubborn : Answers where
  readable := true
  lookup := .found 100
  refreshIo := true
  term := ⟨some [42], fun _ => .delivered⟩
  kill := ⟨some [42], fun _ => .delivered⟩
  counts := fun k => if k < 11 then 1 else 0
  updateIo := true

def oneFile : Files := fun n => if n = "c".toList then some (crlfFile "/bin/sh".toList) else none

theorem stubborn_protocol :
    RunningAfterRefresh "c".toList stubborn ((dockerStop 1 [( "x".toList, stubborn)] oneFile).1 "c".toList) ∧
    ((stopContainer 1 "c".toList stubborn
        ((dockerStop 1 [( "x".toList, stubborn)] oneFile).1 "c".toList)).2.2 = -1 →
      (dockerStop 1 ([( "x".toList, stubborn)] ++ ( "c".toList, stubborn) :: []) oneFile).2.2 = -1) := by
  have hfile : (dockerStop 1 [( "x".toList, stubborn)] oneFile).1 "c".toList =
      some (crlfFile "/bin/sh".toList) := rfl
  have hrunning : RunningAfterRefresh "c".toList stubborn
      ((dockerStop 1 [( "x".toList, stubborn)] oneFile).1 "c".toList) := by
    rw [hfile]
    exact ⟨rfl, _, crlfFile_read, by decide, by decide⟩
  exact ⟨hrunning,
    (dockerStop_protocol 1 [( "x".toList, stubborn)] [] "c".toList stubborn oneFile hrunning).2.2.2⟩

/-! ## The host model follows the protocol -/

/-- The host after the processes have had `k + 1` polls' time to end. -/
def hostAt (env : Env) (h : Host) : Nat → Host
  | 0 => elapse env 0 h
  | k + 1 => elapse env (k + 1) (hostAt env h k)

/-- The `k`th process count on the host. -/
def hostCount (env : Env) (name : Text) (h : Host) (k : Nat) : Int :=
  containerProcessCount env (.countProcs k) name (hostAt env h k)

theorem hostAt_only (env : Env) (h : Host) : ∀ k, OnlyProcs h (hostAt env h k)
  | 0 => ⟨_, rfl⟩
  | k + 1 => (hostAt_only env h k).trans ⟨_, rfl⟩

theorem pollUntilEmpty_eq (env : Env) (name : Text) (h : Host) : ∀ (n k : Nat) (count : Int),
    pollUntilEmpty env name n (k + 1) count (hostAt env h k) =
      (hostAt env h (k + (pollLoop (hostCount env name h) n (k + 1) count).1.length),
        (pollLoop (hostCount env name h) n (k + 1) count).2)
  | 0, k, count => rfl
  | n + 1, k, count => by
    have ih := pollUntilEmpty_eq env name h n (k + 1) (hostCount env name h (k + 1))
    unfold pollUntilEmpty pollLoop
    split
    · simp only [List.length_cons]
      rw [show k + ((pollLoop (hostCount env name h) n (k + 1 + 1) (hostCount env name h (k + 1))).1.length +
        1) = k + 1 + (pollLoop (hostCount env name h) n (k + 1 + 1) (hostCount env name h (k + 1))).1.length by
          omega, ← ih]
      rfl
    · rfl

/-- **`TinyDocker.stopContainer` is a run of the protocol**: on a container that is running, with the
host's counts and results for the answers, it updates the status when the run does. -/
theorem stopContainer_simulates {env : Env} {time : Nat} {name : Text} {h h₁ : Host} {i j : ContainerInfo}
    {a : Answers} (hi : h.info name = some i)
    (hrefresh : TinyDocker.refreshContainerStatusIfNeeded env name i h = (h₁, some j))
    (hj : j.status = .running) (hcounts : a.counts = hostCount env name h₁)
    (hterm : a.term.ok = TinyDocker.signalContainerProcesses env 0 name h₁)
    (hkill : a.kill.ok = TinyDocker.signalContainerProcesses env 1 name (hostAt env h₁ (time * 10))) :
    ∃ h₂, OnlyProcs h₁ h₂ ∧ TinyDocker.stopContainer env time name h =
      if (stopProcesses time a).2 then TinyDocker.updateContainerStatus env name .stopped h₂
      else (h₂, false) := by
  have hok : ∀ r : Round, ((signalContainerProcesses r).2 ≠ 0) = (r.ok = false) := by
    intro r
    rw [Round.ok, decide_eq_false_iff_not]
  have hend : ∀ (h₂ : Host) (c : Int),
      (if c ≠ 0 then (h₂, false) else TinyDocker.updateContainerStatus env name .stopped h₂) =
        if decide (c = 0) then TinyDocker.updateContainerStatus env name .stopped h₂ else (h₂, false) := by
    intro h₂ c
    by_cases hc : c = 0
    · simp only [hc, ne_eq, not_true_eq_false, if_false, decide_true, if_true]
    · simp only [hc, ne_eq, not_false_eq_true, if_true, decide_false, Bool.false_eq_true, if_false]
  unfold TinyDocker.stopContainer stopProcesses
  rw [hi]
  simp only [hrefresh, hj, ne_eq, not_true_eq_false, if_false]
  simp only [← ne_eq, hok]
  rw [hterm, hkill]
  split
  · exact ⟨h₁, OnlyProcs.refl h₁, rfl⟩
  have hfirst := pollUntilEmpty_eq env name h₁ (time * 10) 0 (hostCount env name h₁ 0)
  have hzero : containerProcessCount env (.countProcs 0) name (elapse env 0 h₁) =
    hostCount env name h₁ 0 := rfl
  rw [hzero, show elapse env 0 h₁ = hostAt env h₁ 0 from rfl, hfirst, hcounts, Nat.zero_add, Nat.zero_add]
  have hpolled := pollLoop_polled (hostCount env name h₁) (time * 10) 1 (hostCount env name h₁ 0)
  generalize pollLoop (hostCount env name h₁) (time * 10) 1 (hostCount env name h₁ 0) = first at hpolled ⊢
  by_cases hpos : 0 < first.2
  · obtain ⟨hlen, -⟩ := hpolled.positive hpos
    simp only [hlen, hpos, true_and, if_true]
    split
    · exact ⟨_, hostAt_only env h₁ (time * 10), rfl⟩
    · have hsecond := pollUntilEmpty_eq env name h₁ 20 (time * 10) first.2
      rw [hsecond, Nat.add_comm 1 (time * 10)]
      exact ⟨_, hostAt_only env h₁ _, hend _ _⟩
  · simp only [hpos, false_and, if_false]
    exact ⟨_, hostAt_only env h₁ _, hend _ _⟩

end TinyDocker.Stop
