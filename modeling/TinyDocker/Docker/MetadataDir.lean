import TinyDocker.Lib.Staged
import TinyDocker.Docker.StatusFile

/-!
# Publishing a metadata file (`docker/status_info.c`)

`write_container_info` on the directory of the metadata files: it creates a temporary file under one of a
hundred names, fills it and renames it over the old file; every failure jumps to one cleanup, which unlinks
the name that was tried last, whether this call has created that file or not.

Principal results:

* `writeContainerInfo_file` — what becomes of the metadata file itself is what `StatusFile` says;
* `atomic_write_iff` — when the directory is otherwise left alone.
-/

set_option autoImplicit false

namespace TinyDocker

open CText Staged

namespace StatusDir

inductive Entry where
  | file (data : Text)
  | link (target : Text)
  | directory
  deriving DecidableEq, Repr

abbrev Directory := Text → Option Entry

/-- Calls that fail for a reason of their own; `written` is what a failing write leaves in the file. -/
structure WriteFaults where
  /-- Creating or opening the directory. -/
  openDirectory : Bool
  /-- An errno other than `EEXIST` at that attempt. -/
  openat : Nat → Bool
  fdopen : Bool
  fprintf : Bool
  fflush : Bool
  fsync : Bool
  fclose : Bool
  renameat : Bool
  written : Text

def temporaryName (name : Text) (pid attempt : Nat) : Text :=
  '.' :: (name ++ (".tmp.".toList ++ (Nat.toDigits 10 pid ++ '.' :: Nat.toDigits 10 attempt)))

/-- `unlinkat` without flags: not for a directory. -/
def unlinkat (name : Text) (dir : Directory) : Directory :=
  if dir name = some .directory then dir else Function.update dir name none

/-- `renameat` of a file: a directory is not replaced. -/
def renameat (fails : Bool) (oldName newName : Text) (dir : Directory) : Option Directory :=
  if fails ∨ dir newName = some .directory then none
  else some (Function.update (Function.update dir oldName none) newName (dir oldName))

/-- The directory, and `temporary_name`. -/
structure WriteState where
  dir : Directory
  temporaryName : Text

/-- What stands in the temporary file. -/
def WriteState.fill (st : WriteState) (data : Text) : WriteState :=
  { st with dir := Function.update st.dir st.temporaryName (some (.file data)) }

/-- The loop over the temporary names, from `attempt` on; a name that does not fit is cut. -/
def openTemporary (f : WriteFaults) (name : Text) (pid : Nat) : Nat → Nat → Stage WriteState
  | 0, _, st => .error st
  | n + 1, attempt, st =>
    let text := temporaryName name pid attempt
    if 256 ≤ text.length then .error ⟨st.dir, text.take 255⟩
    else if f.openat attempt then .error ⟨st.dir, text⟩
    else if st.dir text = none then .ok (WriteState.fill ⟨st.dir, text⟩ [])
    else openTemporary f name pid n (attempt + 1) ⟨st.dir, text⟩

def openStream (f : WriteFaults) : Stage WriteState := fun st => if f.fdopen then .error st else .ok st

def writeStream (f : WriteFaults) (r : StatusRecord) : Stage WriteState := fun st =>
  match tdWriteContainerInfo r with
  | .error _ => .error (st.fill f.written)
  | .ok data => if f.fprintf ∨ f.fflush ∨ f.fsync then .error (st.fill f.written) else .ok (st.fill data)

def closeStream (f : WriteFaults) : Stage WriteState := fun st => if f.fclose then .error st else .ok st

def publish (f : WriteFaults) (name : Text) : Stage WriteState := fun st =>
  match renameat f.renameat st.temporaryName name st.dir with
  | none => .error st
  | some dir => .ok { st with dir := dir }

def streamStages (f : WriteFaults) (name : Text) (r : StatusRecord) : List (Stage WriteState) :=
  [openStream f, writeStream f r, closeStream f, publish f name]

/-- The cleanup block of a failed write. -/
def WriteState.cleanup (st : WriteState) : Directory :=
  if st.temporaryName = [] then st.dir else unlinkat st.temporaryName st.dir

def writeContainerInfo (f : WriteFaults) (pid : Nat) (name : Text) (r : StatusRecord) (dir : Directory) :
    Directory × Int :=
  if tdValidateName name TINYDOCKER_MAX_CONTAINER_NAME ≠ .ok () ∨ name ≠ r.name then (dir, -1)
  else if f.openDirectory then (dir, -1)
  else match runAll (openTemporary f name pid 100 0 :: streamStages f name r) ⟨dir, []⟩ with
    | .ok st => (st.dir, 0)
    | .error st => (st.cleanup, -1)

/-! ## Temporary names -/

theorem temporaryName_ne_nil (name : Text) (pid attempt : Nat) : temporaryName name pid attempt ≠ [] :=
  List.cons_ne_nil _ _

theorem temporaryName_ne (name : Text) (pid attempt : Nat) : temporaryName name pid attempt ≠ name := by
  intro h
  have hlen := congrArg List.length h
  simp only [temporaryName, List.length_cons, List.length_append] at hlen
  omega

/-- The name of any process fits the buffer. -/
theorem temporaryName_length {name : Text} (hname : name.length ≤ 127) {pid attempt : Nat}
    (hpid : pid < 2 ^ 31) (hattempt : attempt < 100) : (temporaryName name pid attempt).length < 256 := by
  have hp : (Nat.toDigits 10 pid).length ≤ 10 :=
    (Nat.length_toDigits_le_iff (by decide) (by decide)).2 (by omega)
  have ha : (Nat.toDigits 10 attempt).length ≤ 2 :=
    (Nat.length_toDigits_le_iff (by decide) (by decide)).2 (by omega)
  have htmp : ".tmp.".toList.length = 5 := rfl
  simp only [temporaryName, List.length_cons, List.length_append, htmp]
  omega

section Attempts

variable (f : WriteFaults) (name : Text) (pid : Nat) (dir : Directory)

/-- The attempt is answered `EEXIST`. -/
def Collides (attempt : Nat) : Prop :=
  dir (temporaryName name pid attempt) ≠ none ∧ f.openat attempt = false

/-- The first attempt that is not answered `EEXIST`, or the hundredth. -/
structure LastAttempt (attempt : Nat) : Prop where
  bound : attempt < 100
  before : ∀ i, i < attempt → Collides f name pid dir i
  stops : attempt = 99 ∨ ¬ Collides f name pid dir attempt

/-- The last name tried is not the name of a file or a link that was there before. -/
def TemporaryFree : Prop :=
  ∃ attempt, LastAttempt f name pid dir attempt ∧
    (dir (temporaryName name pid attempt) = none ∨ dir (temporaryName name pid attempt) = some .directory)

end Attempts

section Loop

variable {f : WriteFaults} {name : Text} {pid : Nat} {dir : Directory}

theorem LastAttempt.unique {i j : Nat} (hi : LastAttempt f name pid dir i)
    (hj : LastAttempt f name pid dir j) : i = j := by
  have hbi := hi.bound
  have hbj := hj.bound
  rcases Nat.lt_trichotomy i j with hlt | heq | hlt
  · rcases hi.stops with h99 | hno
    · omega
    · exact absurd (hj.before i hlt) hno
  · exact heq
  · rcases hj.stops with h99 | hno
    · omega
    · exact absurd (hi.before j hlt) hno

/-- **The loop** ends at the last attempt, with its file created or with nothing done. -/
theorem openTemporary_spec (hname : name.length ≤ 127) (hpid : pid < 2 ^ 31) :
    ∀ (n attempt : Nat) (tried : Text), attempt + n = 100 → (∀ i, i < attempt → Collides f name pid dir i) →
      (n = 0 → tried = temporaryName name pid 99) →
      ∃ j, LastAttempt f name pid dir j ∧
        ((dir (temporaryName name pid j) = none ∧ openTemporary f name pid n attempt ⟨dir, tried⟩ =
            .ok (WriteState.fill ⟨dir, temporaryName name pid j⟩ [])) ∨
          openTemporary f name pid n attempt ⟨dir, tried⟩ = .error ⟨dir, temporaryName name pid j⟩)
  | 0, attempt, tried, hsum, hbefore, htried => by
    refine ⟨99, ⟨by decide, fun i hi => hbefore i (by omega), Or.inl rfl⟩, Or.inr ?_⟩
    rw [openTemporary, htried rfl]
  | n + 1, attempt, tried, hsum, hbefore, htried => by
    have hfits := temporaryName_length hname hpid (show attempt < 100 by omega)
    unfold openTemporary
    simp only [if_neg (Nat.not_le.2 hfits)]
    by_cases hfail : f.openat attempt = true
    · have hno : ¬ Collides f name pid dir attempt := fun hc => by
        rw [hc.2] at hfail
        cases hfail
      rw [if_pos hfail]
      exact ⟨attempt, ⟨by omega, hbefore, Or.inr hno⟩, Or.inr rfl⟩
    rw [if_neg hfail]
    by_cases hfree : dir (temporaryName name pid attempt) = none
    · rw [if_pos hfree]
      exact ⟨attempt, ⟨by omega, hbefore, Or.inr fun hc => hc.1 hfree⟩, Or.inl ⟨hfree, rfl⟩⟩
    rw [if_neg hfree]
    refine openTemporary_spec hname hpid n (attempt + 1) _ (by omega) (fun i hi => ?_) fun hn => ?_
    · rcases Nat.lt_succ_iff_lt_or_eq.1 hi with hlt | rfl
      · exact hbefore i hlt
      · exact ⟨hfree, Bool.eq_false_iff.2 hfail⟩
    · rw [show attempt = 99 by omega]

end Loop

/-! ## The stages after the loop -/

section Stages

variable {f : WriteFaults} {name : Text} {r : StatusRecord} {dir : Directory}

/-- A new temporary file, and nothing else. -/
def Created (dir : Directory) (st : WriteState) : Prop :=
  dir st.temporaryName = none ∧ st.temporaryName ≠ [] ∧
    ∃ data, st.dir = Function.update dir st.temporaryName (some (.file data))

theorem Created.fill {st : WriteState} (h : Created dir st) (data : Text) : Created dir (st.fill data) := by
  obtain ⟨hfree, hne, old, hdir⟩ := h
  refine ⟨hfree, hne, data, ?_⟩
  simp only [WriteState.fill, hdir, Function.update_idem]

/-- The cleanup removes what the call has created. -/
theorem Created.cleanup {st : WriteState} (h : Created dir st) : st.cleanup = dir := by
  obtain ⟨hfree, hne, data, hdir⟩ := h
  unfold WriteState.cleanup unlinkat
  rw [if_neg hne, if_neg (by rw [hdir, Function.update_self]; simp), hdir, Function.update_idem, ← hfree,
    Function.update_eq_self]

/-- The record stands in the temporary file. -/
def Filled (r : StatusRecord) (dir : Directory) (st : WriteState) : Prop :=
  Created dir st ∧ ∃ data, tdWriteContainerInfo r = .ok data ∧
    st.dir = Function.update dir st.temporaryName (some (.file data))

/-- The record stands in the metadata file, and nothing else has changed. -/
def Published (name : Text) (r : StatusRecord) (dir : Directory) (st : WriteState) : Prop :=
  ∃ data, tdWriteContainerInfo r = .ok data ∧ st.dir = Function.update dir name (some (.file data))

theorem writeStream_triple : Triple (Created dir) (writeStream f r) (Filled r dir) (Created dir) := by
  intro st hst
  unfold writeStream
  split
  · exact ⟨fun st' h => (by cases h), fun e he => (by cases he; exact hst.fill _)⟩
  · rename_i data hdata
    split
    · exact ⟨fun st' h => (by cases h), fun e he => (by cases he; exact hst.fill _)⟩
    · refine ⟨fun st' h => ?_, fun e he => by cases he⟩
      cases h
      have hfill := hst.fill data
      obtain ⟨-, -, old, hdir⟩ := hst
      exact ⟨hfill, data, hdata, by simp only [WriteState.fill, hdir, Function.update_idem]⟩

theorem publish_triple : Triple (Filled r dir) (publish f name) (Published name r dir) (Created dir) := by
  intro st ⟨hst, data, hdata, hdir⟩
  unfold publish renameat
  split
  · exact ⟨fun st' h => (by cases h), fun e he => (by cases he; exact hst)⟩
  · rename_i dir' hren
    refine ⟨fun st' h => ?_, fun e he => by cases he⟩
    cases h
    split at hren
    · cases hren
    cases hren
    refine ⟨data, hdata, ?_⟩
    -- taking the temporary file away again leaves the old directory
    rw [hdir, Function.update_idem, Function.update_self, ← hst.1, Function.update_eq_self]

/-- **The stages after the loop** publish the record or leave only the temporary file. -/
theorem streamStages_triple :
    TripleAll (Created dir) (streamStages f name r) (Published name r dir) (Created dir) := by
  have hopen : Triple (Created dir) (openStream f) (Created dir) (Created dir) := by
    refine .keep (fun st hst => ?_) fun _ hst => hst
    unfold openStream
    split <;> exact hst
  have hclose : Triple (Filled r dir) (closeStream f) (Filled r dir) (Created dir) := by
    refine .keep (fun st hst => ?_) fun _ hst => hst.1
    unfold closeStream
    split <;> exact hst
  exact .cons hopen <| .cons writeStream_triple <| .cons hclose <| .cons publish_triple .nil

end Stages

/-! ## The whole call -/

section Call

variable {f : WriteFaults} {pid : Nat} {name : Text} {r : StatusRecord} {dir : Directory}

theorem unlinkat_eq_self {t : Text} : unlinkat t dir = dir ↔ dir t = none ∨ dir t = some .directory := by
  unfold unlinkat
  split
  · rename_i hdir
    exact ⟨fun _ => Or.inr hdir, fun _ => rfl⟩
  · rename_i hdir
    refine ⟨fun h => Or.inl ?_, fun h => ?_⟩
    · rw [← h, Function.update_self]
    · rw [← h.resolve_right hdir, Function.update_eq_self]

/-- Before the loop nothing is touched. -/
def ReturnsEarly (f : WriteFaults) (name : Text) (r : StatusRecord) : Prop :=
  tdValidateName name TINYDOCKER_MAX_CONTAINER_NAME ≠ .ok () ∨ name ≠ r.name ∨ f.openDirectory = true

theorem writeContainerInfo_early (h : ReturnsEarly f name r) :
    writeContainerInfo f pid name r dir = (dir, -1) := by
  unfold writeContainerInfo
  split
  · rfl
  · rename_i hno
    rw [not_or] at hno
    rw [if_pos ((h.resolve_left hno.1).resolve_left hno.2)]

/-- **What a call does** after its checks: the record is published; or it fails with the directory as it was;
or it fails without a file of its own, and the last name tried is unlinked. -/
theorem writeContainerInfo_cases (hpid : pid < 2 ^ 31) (h : ¬ ReturnsEarly f name r) :
    ∃ j, LastAttempt f name pid dir j ∧
      ((dir (temporaryName name pid j) = none ∧
          ((∃ data, tdWriteContainerInfo r = .ok data ∧
              writeContainerInfo f pid name r dir = (Function.update dir name (some (.file data)), 0)) ∨
            writeContainerInfo f pid name r dir = (dir, -1))) ∨
        writeContainerInfo f pid name r dir = (unlinkat (temporaryName name pid j) dir, -1)) := by
  simp only [ReturnsEarly, not_or, Bool.not_eq_true] at h
  obtain ⟨hvalid, hsame, hopen⟩ := h
  have hlen := (tdValidateName_ok (not_not.1 hvalid)).2.1
  obtain ⟨j, hlast, hloop⟩ := @openTemporary_spec f name pid dir hlen hpid 100 0 [] rfl
    (fun i hi => absurd hi (Nat.not_lt_zero i)) (fun h100 => by cases h100)
  refine ⟨j, hlast, ?_⟩
  unfold writeContainerInfo
  rw [if_neg (by rw [not_or]; exact ⟨hvalid, hsame⟩), hopen]
  simp only [Bool.false_eq_true, if_false]
  rcases hloop with ⟨hfree, hok⟩ | herr
  · have hcreated : Created dir (WriteState.fill ⟨dir, temporaryName name pid j⟩ []) :=
      ⟨hfree, temporaryName_ne_nil name pid j, [], rfl⟩
    obtain ⟨hpub, hfail⟩ := @streamStages_triple f name r dir _ hcreated
    refine Or.inl ⟨hfree, ?_⟩
    simp only [runAll, hok]
    cases hrun : runAll (streamStages f name r) (WriteState.fill ⟨dir, temporaryName name pid j⟩ []) with
    | ok st =>
      obtain ⟨data, hdata, hdir⟩ := hpub st hrun
      exact Or.inl ⟨data, hdata, by simp only [hdir]⟩
    | error st => exact Or.inr (by simp only [(hfail st hrun).cleanup])
  · refine Or.inr ?_
    simp only [runAll, herr, WriteState.cleanup, if_neg (temporaryName_ne_nil name pid j)]

/-- The text of a file, links and directories apart. -/
def contentOf (dir : Directory) (name : Text) : Option Text :=
  match dir name with
  | some (.file data) => some data
  | _ => none

theorem unlinkat_of_ne {t : Text} (h : name ≠ t) : unlinkat t dir name = dir name := by
  unfold unlinkat
  split
  · rfl
  · exact Function.update_of_ne h _ _

/-- **The metadata file itself** is replaced or stays, as in `StatusFile.writeContainerInfo`. -/
theorem writeContainerInfo_file (hpid : pid < 2 ^ 31) :
    contentOf (writeContainerInfo f pid name r dir).1 name =
      (StatusFile.writeContainerInfo (decide ((writeContainerInfo f pid name r dir).2 = 0)) name r
        (contentOf dir name)).1 := by
  have hkeep : ∀ dir' : Directory, dir' name = dir name → contentOf dir' name =
      (StatusFile.writeContainerInfo false name r (contentOf dir name)).1 := by
    intro dir' hdir
    unfold StatusFile.writeContainerInfo
    have hsame : contentOf dir' name = contentOf dir name := by
      unfold contentOf
      rw [hdir]
    split
    · exact hsame
    split <;> exact hsame
  by_cases hearly : ReturnsEarly f name r
  · rw [writeContainerInfo_early hearly]
    exact hkeep dir rfl
  obtain ⟨j, -, ⟨-, ⟨data, hdata, hcall⟩ | hcall⟩ | hcall⟩ := @writeContainerInfo_cases f pid name r dir hpid hearly
  · simp only [ReturnsEarly, not_or] at hearly
    rw [hcall]
    simp only [StatusFile.writeContainerInfo, if_neg (not_or.2 ⟨hearly.1, hearly.2.1⟩), hdata, decide_true,
      if_true, contentOf, Function.update_self]
  · rw [hcall]
    exact hkeep dir rfl
  · rw [hcall]
    exact hkeep _ (unlinkat_of_ne (temporaryName_ne name pid j).symm)

/-- The record is published and nothing else has changed, or the call fails and nothing has. -/
def AtomicWrite (f : WriteFaults) (pid : Nat) (name : Text) (r : StatusRecord) (dir : Directory) : Prop :=
  (∃ data, tdWriteContainerInfo r = .ok data ∧
    writeContainerInfo f pid name r dir = (Function.update dir name (some (.file data)), 0)) ∨
  writeContainerInfo f pid name r dir = (dir, -1)

/-- **Atomic writes.**  A call leaves the directory as its result says if and only if it returns before the
loop, or the last temporary name it tries is not the name of a file or a link that was there before: the
cleanup does not ask who has created it. -/
theorem atomic_write_iff (f : WriteFaults) (pid : Nat) (name : Text) (r : StatusRecord) (dir : Directory)
    (hpid : pid < 2 ^ 31) :
    AtomicWrite f pid name r dir ↔ ReturnsEarly f name r ∨ TemporaryFree f name pid dir := by
  by_cases hearly : ReturnsEarly f name r
  · exact ⟨fun _ => Or.inl hearly, fun _ => Or.inr (writeContainerInfo_early hearly)⟩
  obtain ⟨j, hlast, ⟨hfree, hcall⟩ | hcall⟩ := @writeContainerInfo_cases f pid name r dir hpid hearly
  · exact ⟨fun _ => Or.inr ⟨j, hlast, Or.inl hfree⟩, fun _ => hcall⟩
  · have hatomic : AtomicWrite f pid name r dir ↔ unlinkat (temporaryName name pid j) dir = dir := by
      unfold AtomicWrite
      rw [hcall]
      simp
    rw [hatomic, unlinkat_eq_self]
    refine ⟨fun h => Or.inr ⟨j, hlast, h⟩, fun h => ?_⟩
    obtain ⟨i, hi, hspared⟩ := h.resolve_left hearly
    rw [hi.unique hlast] at hspared
    exact hspared

end Call

/-- No call fails for a reason of its own. -/
def WriteFaults.none : WriteFaults := ⟨false, fun _ => false, false, false, false, false, false, false, []⟩

def shellRecord : StatusRecord :=
  ⟨20, 7, 1, "web".toList, "img".toList, "/bin/sh".toList, "2024-01-01 00:00:00".toList, "RUNNING".toList,
    "web".toList, "172.11.11.2".toList, []⟩

/-- `renameat` fails. -/
theorem failed_rename_atomic :
    AtomicWrite { WriteFaults.none with renameat := true } 7 "web".toList shellRecord fun _ => Option.none := by
  refine (atomic_write_iff _ _ _ _ _ (by decide)).2 (Or.inr ⟨0, ⟨by decide, fun i hi => ?_, Or.inr ?_⟩, Or.inl rfl⟩)
  · exact absurd hi (Nat.not_lt_zero i)
  · exact fun hc => hc.1 rfl

/-- The file that an earlier process has left under the first temporary name. -/
def leftoverDir : Directory := fun t =>
  if t = ".web.tmp.7.0".toList then some (.file "pid=7".toList) else Option.none

/-- `openat` fails with `EMFILE`: the cleanup unlinks a file this call has never created. -/
theorem failed_openat_unlinks_leftover :
    (writeContainerInfo { WriteFaults.none with openat := fun _ => true } 7 "web".toList shellRecord
        leftoverDir).2 = -1 ∧
      leftoverDir ".web.tmp.7.0".toList ≠ Option.none ∧
      (writeContainerInfo { WriteFaults.none with openat := fun _ => true } 7 "web".toList shellRecord
        leftoverDir).1 ".web.tmp.7.0".toList = Option.none ∧
      ¬ AtomicWrite { WriteFaults.none with openat := fun _ => true } 7 "web".toList shellRecord leftoverDir := by
  have hgone : (writeContainerInfo { WriteFaults.none with openat := fun _ => true } 7 "web".toList shellRecord
      leftoverDir).1 ".web.tmp.7.0".toList = Option.none := by decide +kernel
  have hfails : (writeContainerInfo { WriteFaults.none with openat := fun _ => true } 7 "web".toList shellRecord
      leftoverDir).2 = -1 := by decide +kernel
  have hthere : leftoverDir ".web.tmp.7.0".toList ≠ Option.none := by decide +kernel
  refine ⟨hfails, hthere, hgone, fun h => ?_⟩
  rcases h with ⟨data, -, h⟩ | h
  · rw [h] at hfails
    cases hfails
  · rw [h] at hgone
    exact hthere hgone

end StatusDir

end TinyDocker
