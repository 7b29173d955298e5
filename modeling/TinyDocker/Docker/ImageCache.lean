import Mathlib.Logic.Function.Basic
import TinyDocker.Lib.Runs
import TinyDocker.Core.Safety

/-!
# The image cache (`docker/workspace.c`)

`create_readonly_layer` extracts an archive into a directory of its own process and renames that to
`images/HASH`, unless the directory is there already.  Any number of processes do so at the same time, each
action of a process being a step of the run; a process may fail or die at any of them.

What `tar` makes of an archive is a parameter.  A rename over a directory that is not empty fails with
`EEXIST` or with `ENOTEMPTY`; the source looks for the first only.

Principal result: `image_cache_runs` — the directory is a complete extraction in every run; a call that has
extracted the archive or found the directory returns 0 unless its rename was answered `ENOTEMPTY`.
-/

set_option autoImplicit false

namespace TinyDocker

open CText

namespace ImageCache

variable {Tree Entry : Type}

/-- An archive: what `tar -tf` lists, the entries, and what `tar -xf` makes of each of them. -/
structure Archive (Tree Entry : Type) where
  listing : Text
  entries : List Entry
  empty : Tree
  extract : Tree → Entry → Tree

def Archive.complete (a : Archive Tree Entry) : Tree := a.entries.foldl a.extract a.empty

/-- The check of `extract_tar` on the listing. -/
def Archive.safe (a : Archive Tree Entry) : Bool := (tokens (· == '\n') a.listing).all tdArchiveEntryIsSafe

/-- Where a call of `create_readonly_layer` stands. -/
inductive Phase (Entry : Type) where
  | check
  | prepare
  | list
  | extract (rest : List Entry)
  | rename
  | recheck
  | discard (result : Int)
  | returned (result : Int)
  | dead
  deriving DecidableEq, Repr

/-- A call, with what has happened to it: the directory was there, `extract_tar` succeeded, the rename was
answered `ENOTEMPTY`. -/
structure Call (Entry : Type) where
  phase : Phase Entry
  found : Bool
  extracted : Bool
  refused : Bool
  deriving DecidableEq, Repr

/-- `images/HASH`, the directories `images/HASH.tmp.PID`, and the calls by process. -/
structure Cache (Tree Entry : Type) where
  image : Option Tree
  temporary : Nat → Option Tree
  calls : Nat → Option (Call Entry)

inductive RenameErrno where
  | EEXIST
  | ENOTEMPTY
  deriving DecidableEq, Repr

/-- The flags say that the system calls of the step fail. -/
inductive Act where
  | begin
  | check (fails : Bool)
  | prepare (fails : Bool)
  | list (fails : Bool)
  | extract (fails : Bool)
  | rename (errno : RenameErrno)
  | recheck
  | discard (fails : Bool)
  | die
  deriving DecidableEq, Repr

def Cache.setCall (c : Cache Tree Entry) (pid : Nat) (call : Call Entry) : Cache Tree Entry :=
  { c with calls := Function.update c.calls pid (some call) }

def Cache.setTemporary (c : Cache Tree Entry) (pid : Nat) (tree : Option Tree) : Cache Tree Entry :=
  { c with temporary := Function.update c.temporary pid tree }

section Step

variable [DecidableEq Tree]

/-- `rename(temporary_dir, readonly_dir)`: an empty directory is replaced. -/
def Cache.renameStep (a : Archive Tree Entry) (c : Cache Tree Entry) (pid : Nat) (call : Call Entry)
    (errno : RenameErrno) : Cache Tree Entry :=
  if c.image = none ∨ c.image = some a.empty then
    { (c.setTemporary pid none).setCall pid { call with phase := .returned 0 } with image := c.temporary pid }
  else match errno with
    | .EEXIST => c.setCall pid { call with phase := .recheck }
    | .ENOTEMPTY => c.setCall pid { call with phase := .discard (-1), refused := true }

/-- The next step of a call.  A process begins another one only when the last has ended. -/
def Cache.callStep (a : Archive Tree Entry) (c : Cache Tree Entry) (pid : Nat) (call : Call Entry) (act : Act) :
    Cache Tree Entry :=
  match act, call.phase with
  | .begin, .returned _ => c.setCall pid ⟨.check, false, false, false⟩
  | .begin, .dead => c.setCall pid ⟨.check, false, false, false⟩
  | .check fails, .check =>
    if fails then c.setCall pid { call with phase := .returned (-1) }
    else if c.image = none then c.setCall pid { call with phase := .prepare }
    else c.setCall pid { call with phase := .returned 0, found := true }
  | .prepare fails, .prepare =>
    if fails then c.setCall pid { call with phase := .returned (-1) }
    else (c.setTemporary pid (some a.empty)).setCall pid { call with phase := .list }
  | .list fails, .list =>
    if fails ∨ a.safe = false then c.setCall pid { call with phase := .discard (-1) }
    else c.setCall pid { call with phase := .extract a.entries }
  | .extract fails, .extract [] =>
    if fails then c.setCall pid { call with phase := .discard (-1) }
    else c.setCall pid { call with phase := .rename, extracted := true }
  | .extract fails, .extract (e :: rest) =>
    if fails then c.setCall pid { call with phase := .discard (-1) }
    else (c.setTemporary pid ((c.temporary pid).map (a.extract · e))).setCall pid
      { call with phase := .extract rest }
  | .rename errno, .rename => c.renameStep a pid call errno
  | .recheck, .recheck =>
    c.setCall pid { call with phase := .discard (if c.image = none then -1 else 0) }
  | .discard fails, .discard result =>
    (c.setTemporary pid (if fails then c.temporary pid else none)).setCall pid
      { call with phase := .returned result }
  | .die, .returned _ => c
  | .die, _ => c.setCall pid { call with phase := .dead }
  | _, _ => c

def Cache.step (a : Archive Tree Entry) (c : Cache Tree Entry) (act : Nat × Act) : Cache Tree Entry :=
  match c.calls act.1 with
  | none => if act.2 = .begin then c.setCall act.1 ⟨.check, false, false, false⟩ else c
  | some call => c.callStep a act.1 call act.2

/-- No image directory yet; earlier processes may have left temporary ones. -/
def Cache.start (temporary : Nat → Option Tree) : Cache Tree Entry := ⟨none, temporary, fun _ => none⟩

end Step

/-! ## The invariant -/

/-- What a call knows at each point. -/
def CallOk (a : Archive Tree Entry) (c : Cache Tree Entry) (pid : Nat) (call : Call Entry) : Prop :=
  match call.phase with
  | .check | .prepare => call.found = false ∧ call.extracted = false ∧ call.refused = false
  | .list => (call.found = false ∧ call.extracted = false ∧ call.refused = false) ∧
      c.temporary pid = some a.empty
  | .extract rest => (call.found = false ∧ call.extracted = false ∧ call.refused = false) ∧
      ∃ done, a.entries = done ++ rest ∧ c.temporary pid = some (done.foldl a.extract a.empty)
  | .rename => (call.found = false ∧ call.extracted = true ∧ call.refused = false) ∧
      c.temporary pid = some a.complete
  | .recheck => (call.found = false ∧ call.extracted = true ∧ call.refused = false) ∧ c.image ≠ none
  | .discard result => call.found = false ∧ (call.extracted = true → (result = 0 ↔ call.refused = false))
  | .returned result =>
    call.found = true ∨ call.extracted = true → (result = 0 ↔ call.refused = false)
  | .dead => True

/-- The image is complete, and every call is where it thinks it is. -/
structure CacheOk (a : Archive Tree Entry) (c : Cache Tree Entry) : Prop where
  image : ∀ t, c.image = some t → t = a.complete
  calls : ∀ pid call, c.calls pid = some call → CallOk a c pid call

section Invariant

variable {a : Archive Tree Entry} {c : Cache Tree Entry} {pid : Nat} {call : Call Entry}

theorem CacheOk.start (a : Archive Tree Entry) (temporary : Nat → Option Tree) :
    CacheOk a (Cache.start temporary) :=
  ⟨fun t h => (by cases h), fun pid call h => by cases h⟩

/-- What a call knows is its own directory and that the image is there. -/
theorem CallOk.frame {c' : Cache Tree Entry} (h : CallOk a c pid call)
    (htemp : c'.temporary pid = c.temporary pid) (himage : c.image ≠ none → c'.image ≠ none) :
    CallOk a c' pid call := by
  unfold CallOk at h ⊢
  split <;> simp_all

/-- **One step of one process**: the image stays complete, the other calls do not notice. -/
theorem CacheOk.move {c' : Cache Tree Entry} (h : CacheOk a c)
    (hcalls : c'.calls = Function.update c.calls pid (some call))
    (htemp : ∀ p, p ≠ pid → c'.temporary p = c.temporary p)
    (himage : c'.image = c.image ∨ c'.image = some a.complete) (hcall : CallOk a c' pid call) :
    CacheOk a c' := by
  have hthere : c.image ≠ none → c'.image ≠ none := by
    intro hne
    rcases himage with he | he
    · rwa [he]
    · rw [he]
      exact Option.some_ne_none _
  refine ⟨fun t ht => ?_, fun p q hq => ?_⟩
  · rcases himage with he | he
    · exact h.image t (he ▸ ht)
    · rw [he] at ht
      exact (Option.some.inj ht).symm
  · rw [hcalls] at hq
    by_cases hp : p = pid
    · subst hp
      rw [Function.update_self] at hq
      cases hq
      exact hcall
    · rw [Function.update_of_ne hp] at hq
      exact (h.calls p q hq).frame (htemp p hp) hthere

/-- A step that touches neither directory. -/
theorem CacheOk.setCall (h : CacheOk a c) (hcall : CallOk a c pid call) : CacheOk a (c.setCall pid call) :=
  h.move rfl (fun _ _ => rfl) (Or.inl rfl) (hcall.frame rfl id)

/-- A step that touches its own temporary directory. -/
theorem CacheOk.setTemporary (h : CacheOk a c) {tree : Option Tree}
    (hcall : CallOk a (c.setTemporary pid tree) pid call) :
    CacheOk a ((c.setTemporary pid tree).setCall pid call) :=
  h.move rfl (fun _ hp => Function.update_of_ne hp _ _) (Or.inl rfl) (hcall.frame rfl id)

/-- A call that gives up before it has found or extracted anything. -/
theorem CallOk.givesUp (hfound : call.found = false) (hextracted : call.extracted = false) (result : Int) :
    CallOk a c pid { call with phase := .returned result } := by
  intro hserved
  rw [hfound, hextracted] at hserved
  simp at hserved

/-- The same with a temporary directory to remove. -/
theorem CallOk.givesUpLate (hfound : call.found = false) (hextracted : call.extracted = false) (result : Int) :
    CallOk a c pid { call with phase := .discard result } := by
  refine ⟨hfound, fun hx => ?_⟩
  rw [hextracted] at hx
  cases hx

variable [DecidableEq Tree]

theorem CacheOk.renameStep (h : CacheOk a c) {errno : RenameErrno} (hphase : call.phase = .rename)
    (hcall : CallOk a c pid call) : CacheOk a (c.renameStep a pid call errno) := by
  unfold CallOk at hcall
  rw [hphase] at hcall
  obtain ⟨⟨hfound, hextracted, hrefused⟩, htemp⟩ := hcall
  unfold Cache.renameStep
  split
  · refine h.move rfl (fun _ hp => Function.update_of_ne hp _ _) (Or.inr htemp) fun _ => ?_
    exact ⟨fun _ => hrefused, fun _ => rfl⟩
  · rename_i hthere
    rw [not_or] at hthere
    cases errno with
    | EEXIST => exact h.setCall ⟨⟨hfound, hextracted, hrefused⟩, hthere.1⟩
    | ENOTEMPTY => exact h.setCall ⟨hfound, fun _ => ⟨fun h0 => (by cases h0), fun h0 => by cases h0⟩⟩

theorem CacheOk.callStep (h : CacheOk a c) (hcalls : c.calls pid = some call) (act : Act) :
    CacheOk a (c.callStep a pid call act) := by
  have hcall := h.calls pid call hcalls
  unfold Cache.callStep
  split
  -- begin
  · exact h.setCall ⟨rfl, rfl, rfl⟩
  · exact h.setCall ⟨rfl, rfl, rfl⟩
  -- check
  · rename_i hphase
    unfold CallOk at hcall
    rw [hphase] at hcall
    obtain ⟨hfound, hextracted, hrefused⟩ := hcall
    split
    · exact h.setCall (.givesUp hfound hextracted (-1))
    split
    · exact h.setCall ⟨hfound, hextracted, hrefused⟩
    · exact h.setCall fun _ => ⟨fun _ => hrefused, fun _ => rfl⟩
  -- prepare
  · rename_i hphase
    unfold CallOk at hcall
    rw [hphase] at hcall
    obtain ⟨hfound, hextracted, hrefused⟩ := hcall
    split
    · exact h.setCall (.givesUp hfound hextracted (-1))
    · exact h.setTemporary ⟨⟨hfound, hextracted, hrefused⟩, Function.update_self ..⟩
  -- list
  · rename_i hphase
    unfold CallOk at hcall
    rw [hphase] at hcall
    obtain ⟨⟨hfound, hextracted, hrefused⟩, htemp⟩ := hcall
    split
    · exact h.setCall (.givesUpLate hfound hextracted (-1))
    · exact h.setCall ⟨⟨hfound, hextracted, hrefused⟩, [], rfl, htemp⟩
  -- the end of the extraction
  · rename_i hphase
    unfold CallOk at hcall
    rw [hphase] at hcall
    obtain ⟨⟨hfound, hextracted, hrefused⟩, done, hdone, htemp⟩ := hcall
    rw [List.append_nil] at hdone
    split
    · exact h.setCall (.givesUpLate hfound hextracted (-1))
    · exact h.setCall ⟨⟨hfound, rfl, hrefused⟩, by rw [htemp, ← hdone]; rfl⟩
  -- one entry
  · rename_i e rest hphase
    unfold CallOk at hcall
    rw [hphase] at hcall
    obtain ⟨⟨hfound, hextracted, hrefused⟩, done, hdone, htemp⟩ := hcall
    split
    · exact h.setCall (.givesUpLate hfound hextracted (-1))
    · refine h.setTemporary ⟨⟨hfound, hextracted, hrefused⟩, done ++ [e], ?_, ?_⟩
      · rw [hdone, List.append_assoc, List.singleton_append]
      · rw [List.foldl_append, htemp]
        exact Function.update_self ..
  -- rename
  · rename_i hphase
    exact h.renameStep hphase hcall
  -- recheck
  · rename_i hphase
    unfold CallOk at hcall
    rw [hphase] at hcall
    obtain ⟨⟨hfound, hextracted, hrefused⟩, himage⟩ := hcall
    rw [if_neg himage]
    exact h.setCall ⟨hfound, fun _ => ⟨fun _ => hrefused, fun _ => rfl⟩⟩
  -- discard
  · rename_i hphase
    unfold CallOk at hcall
    rw [hphase] at hcall
    refine h.setTemporary fun hserved => hcall.2 (hserved.resolve_left ?_)
    rw [hcall.1]
    simp
  -- die
  · exact h
  · exact h.setCall trivial
  · exact h

/-- **The step lemma.** -/
theorem CacheOk.step (h : CacheOk a c) (act : Nat × Act) : CacheOk a (c.step a act) := by
  unfold Cache.step
  split
  · split
    · exact h.setCall ⟨rfl, rfl, rfl⟩
    · exact h
  · rename_i call hcalls
    exact h.callStep hcalls act.2

end Invariant

/-! ## Refused renames -/

/-- The process is about to rename onto a directory that is not empty. -/
def Collides (a : Archive Tree Entry) (c : Cache Tree Entry) (pid : Nat) : Prop :=
  ∃ call, c.calls pid = some call ∧ call.phase = .rename ∧ c.image ≠ none ∧ c.image ≠ some a.empty

/-- A rename onto a directory that is not empty is answered `EEXIST`. -/
def AnswersExist (a : Archive Tree Entry) (c : Cache Tree Entry) (act : Nat × Act) : Prop :=
  act.2 = .rename .ENOTEMPTY → ¬ Collides a c act.1

def NoneRefused (c : Cache Tree Entry) : Prop := ∀ pid call, c.calls pid = some call → call.refused = false

section Refused

variable {a : Archive Tree Entry} {c : Cache Tree Entry} {pid : Nat} {call : Call Entry}

theorem NoneRefused.setCall (h : NoneRefused c) (hcall : call.refused = false) :
    NoneRefused (c.setCall pid call) := by
  intro p q hq
  simp only [Cache.setCall] at hq
  by_cases hp : p = pid
  · subst hp
    rw [Function.update_self] at hq
    cases hq
    exact hcall
  · rw [Function.update_of_ne hp] at hq
    exact h p q hq

variable [DecidableEq Tree]

theorem NoneRefused.renameStep (h : NoneRefused c) {errno : RenameErrno} (hcall : call.refused = false)
    (hok : errno = .ENOTEMPTY → c.image = none ∨ c.image = some a.empty) :
    NoneRefused (c.renameStep a pid call errno) := by
  unfold Cache.renameStep
  split
  · exact h.setCall hcall
  · rename_i hthere
    cases errno with
    | EEXIST => exact h.setCall hcall
    | ENOTEMPTY => exact absurd (hok rfl) hthere

theorem NoneRefused.step (h : NoneRefused c) {act : Nat × Act} (hok : AnswersExist a c act) :
    NoneRefused (c.step a act) := by
  unfold Cache.step
  split
  · split
    · exact h.setCall rfl
    · exact h
  rename_i call hcalls
  have hcall := h act.1 call hcalls
  have htemp : ∀ tree, NoneRefused (c.setTemporary act.1 tree) := fun _ => h
  unfold Cache.callStep
  split
  -- begin
  · exact h.setCall rfl
  · exact h.setCall rfl
  -- check
  · split
    · exact h.setCall hcall
    · split <;> exact h.setCall hcall
  -- prepare
  · split
    · exact h.setCall hcall
    · exact (htemp _).setCall hcall
  -- list
  · split <;> exact h.setCall hcall
  -- extract
  · split <;> exact h.setCall hcall
  · split
    · exact h.setCall hcall
    · exact (htemp _).setCall hcall
  -- rename
  · rename_i errno hact hphase
    refine h.renameStep hcall fun he => ?_
    have hno := hok (by rw [hact, he])
    by_contra hthere
    rw [not_or] at hthere
    exact hno ⟨call, hcalls, hphase, hthere⟩
  · exact h.setCall hcall
  · exact (htemp _).setCall hcall
  -- die
  · exact h
  · exact h.setCall hcall
  · exact h

end Refused

/-! ## All runs -/

/-- Every call that has extracted the archive or found the directory has returned 0. -/
def Served (c : Cache Tree Entry) : Prop :=
  ∀ pid call result, c.calls pid = some call → call.phase = .returned result →
    call.found = true ∨ call.extracted = true → result = 0

section Runs

variable [DecidableEq Tree]

/-- **The image cache.**  In every run of any number of processes the image directory, whenever it exists, is
the complete extraction.  A call that has extracted the archive or found the directory returns 0 if and only
if its rename was not answered `ENOTEMPTY`; so all of them do in a run in which every rename onto the
directory is answered `EEXIST`. -/
theorem image_cache_runs (a : Archive Tree Entry) (temporary : Nat → Option Tree) (acts : List (Nat × Act)) :
    (∀ t, (Runs.run (Cache.step a) (Cache.start temporary) acts).image = some t → t = a.complete) ∧
    (∀ pid call result, (Runs.run (Cache.step a) (Cache.start temporary) acts).calls pid = some call →
      call.phase = .returned result → call.found = true ∨ call.extracted = true →
        (result = 0 ↔ call.refused = false)) ∧
    (Runs.Meets (Cache.step a) (AnswersExist a) (Cache.start temporary) acts →
      Served (Runs.run (Cache.step a) (Cache.start temporary) acts)) := by
  have hok : CacheOk a (Runs.run (Cache.step a) (Cache.start temporary) acts) :=
    Runs.run_keeps (fun _ act h => h.step act) (CacheOk.start a temporary)
  have hserved : ∀ pid call result,
      (Runs.run (Cache.step a) (Cache.start temporary) acts).calls pid = some call →
        call.phase = .returned result → call.found = true ∨ call.extracted = true →
          (result = 0 ↔ call.refused = false) := by
    intro pid call result hcall hphase
    have h := hok.calls pid call hcall
    unfold CallOk at h
    rwa [hphase] at h
  refine ⟨hok.image, hserved, fun hmeets pid call result hcall hphase hs => ?_⟩
  have hnone : NoneRefused (Runs.run (Cache.step a) (Cache.start temporary) acts) :=
    Runs.run_inv (fun _ _ h hok => h.step hok) (fun _ _ h => by cases h) hmeets
  exact (hserved pid call result hcall hphase hs).2 (hnone pid call hcall)

end Runs

/-- An archive with one entry; a tree is the list of its names. -/
def shellArchive : Archive (List Text) Text :=
  ⟨"./bin/sh\n".toList, ["./bin/sh".toList], [], fun tree e => tree ++ [e]⟩

/-- Two processes extract the archive; the second one to rename gets `errno`. -/
def raceSchedule (errno : RenameErrno) : List (Nat × Act) :=
  [(1, .begin), (2, .begin), (1, .check false), (2, .check false), (1, .prepare false), (2, .prepare false),
    (1, .list false), (2, .list false), (1, .extract false), (2, .extract false), (1, .extract false),
    (2, .extract false), (1, .rename errno), (2, .rename errno), (2, .recheck), (2, .discard false)]

/-- Answered `EEXIST`, the loser of the race returns 0 too. -/
theorem race_eexist_served :
    (Runs.run (Cache.step shellArchive) (Cache.start fun _ => none) (raceSchedule .EEXIST)).calls 2 =
        some ⟨.returned 0, false, true, false⟩ ∧
      Served (Runs.run (Cache.step shellArchive) (Cache.start fun _ => none) (raceSchedule .EEXIST)) := by
  refine ⟨by decide +kernel, (image_cache_runs shellArchive (fun _ => none) (raceSchedule .EEXIST)).2.2 ?_⟩
  simp only [raceSchedule, Runs.Meets, AnswersExist]
  simp

/-- Answered `ENOTEMPTY`, it returns -1 and has extracted the archive in vain. -/
theorem race_enotempty_fails :
    (Runs.run (Cache.step shellArchive) (Cache.start fun _ => none) (raceSchedule .ENOTEMPTY)).image =
        some shellArchive.complete ∧
      ¬ Served (Runs.run (Cache.step shellArchive) (Cache.start fun _ => none) (raceSchedule .ENOTEMPTY)) := by
  have hloser : (Runs.run (Cache.step shellArchive) (Cache.start fun _ => none)
      (raceSchedule .ENOTEMPTY)).calls 2 = some ⟨.returned (-1), false, true, true⟩ := by decide +kernel
  refine ⟨by decide +kernel, fun h => ?_⟩
  exact absurd (h 2 _ (-1) hloser rfl (Or.inr rfl)) (by decide)

end ImageCache

end TinyDocker
