import Mathlib.Data.Nat.Find
import TinyDocker.Docker.MetadataDir
import TinyDocker.Docker.RuntimePaths

/-!
# Listing containers (`list_containers_info` in `docker/status_info.c`, `docker_ps` in `docker/container.c`)

The listing reads one file after the other, in the order of `readdir`, and refreshes every record, which may
rewrite its file, before it goes on.  `docker_ps` prints the records as a table.

Principal results:

* `list_containers_exact` — the list is that of the readable records, in that order and up to the capacity,
  although files are rewritten on the way; every record has the name of its file, and all that changes in
  the directory is that records of processes that are gone become `EXITED`;
* `ps_table` — the table has one line for each record it should show, and all columns are aligned.
-/

set_option autoImplicit false

namespace TinyDocker

open CText

namespace StatusDir

/-- The process of a running record is gone, or its pid is that of another process. -/
def Gone (lookup : StatusFile.ProcessLookup) (r : StatusRecord) : Prop :=
  r.status = StatusFile.strStatus .running ∧ 0 < r.pid ∧
    match lookup with
    | .gone => True
    | .found startTime => r.pidStartTime ≠ 0 ∧ startTime ≠ r.pidStartTime
    | .failed => False

instance (lookup : StatusFile.ProcessLookup) (r : StatusRecord) : Decidable (Gone lookup r) := by
  unfold Gone
  cases lookup with
  | gone => exact inferInstanceAs (Decidable (_ ∧ _ ∧ True))
  | found startTime => exact inferInstanceAs (Decidable (_ ∧ _ ∧ _ ∧ _))
  | failed => exact inferInstanceAs (Decidable (_ ∧ _ ∧ False))

/-- `refresh_container_status_if_needed` on the directory, with the record as it leaves it: the status is
replaced before the file is written. -/
def refreshContainerStatusIfNeeded (f : WriteFaults) (pid : Nat) (lookup : StatusFile.ProcessLookup) (name : Text)
    (r : StatusRecord) (dir : Directory) : Directory × StatusRecord × Int :=
  let exited := { r with status := StatusFile.strStatus .exited }
  let written := writeContainerInfo f pid name exited dir
  if name = [] then (dir, r, -1)
  else if r.status ≠ StatusFile.strStatus .running then (dir, r, 0)
  else if r.pid ≤ 0 then (dir, r, 0)
  else match lookup with
    | .failed => (dir, r, -1)
    | .gone => (written.1, exited, if written.2 = 0 then 1 else -1)
    | .found startTime =>
      if r.pidStartTime = 0 ∨ startTime = r.pidStartTime then (dir, r, 0)
      else (written.1, exited, if written.2 = 0 then 1 else -1)

/-- What the listing is answered, by file. -/
structure ListAnswers where
  lstatFails : Text → Bool
  readFails : Text → Bool
  lookup : Text → StatusFile.ProcessLookup
  faults : Text → WriteFaults

section Model

variable (e : ListAnswers) (pid capacity : Nat)

/-- The entry of a metadata file. -/
def metadataFile (dir : Directory) (name : Text) : Option Text :=
  if name = ['.'] ∨ name = ['.', '.'] then none
  else if tdValidateName name TINYDOCKER_MAX_CONTAINER_NAME ≠ .ok () then none
  else if Cgroup.PATH_MAX ≤ (CONTAINER_STATUS_INFO_DIR ++ '/' :: name).length then none
  else if e.lstatFails name then none
  else contentOf dir name

/-- The loop over what `readdir` returns. -/
def listLoop : Directory → List StatusRecord → List Text → Directory × List StatusRecord
  | dir, infos, [] => (dir, infos)
  | dir, infos, name :: rest =>
    match metadataFile e dir name with
    | none => listLoop dir infos rest
    | some data =>
      if capacity ≤ infos.length then (dir, infos)
      else match (if e.readFails name then none else StatusFile.readContainerInfo name (some data)) with
        | none => listLoop dir infos rest
        | some r =>
          let refreshed := refreshContainerStatusIfNeeded (e.faults name) pid (e.lookup name) name r dir
          listLoop refreshed.1 (infos ++ [refreshed.2.1]) rest

def listContainersInfo (openFails : Bool) (dir : Directory) (entries : List Text) :
    Directory × Option (List StatusRecord) :=
  if capacity = 0 ∨ openFails then (dir, none)
  else
    let r := listLoop e pid capacity dir [] entries
    (r.1, some r.2)

end Model

/-! ## One record -/

/-- A record as the listing shows it. -/
def shown (lookup : StatusFile.ProcessLookup) (r : StatusRecord) : StatusRecord :=
  if Gone lookup r then { r with status := StatusFile.strStatus .exited } else r

/-- The record that the listing shows for a file. -/
def listed (e : ListAnswers) (dir : Directory) (name : Text) : Option StatusRecord :=
  match metadataFile e dir name with
  | none => none
  | some data =>
    if e.readFails name then none
    else (StatusFile.readContainerInfo name (some data)).map (shown (e.lookup name))

section

variable {e : ListAnswers} {pid capacity : Nat} {dir dir' : Directory} {name : Text} {r : StatusRecord}

/-- Some temporary name of every file is free. -/
def Room (pid : Nat) (dir : Directory) : Prop := ∀ name, ∃ j, j < 100 ∧ dir (temporaryName name pid j) = none

/-- Then the first free one is tried last. -/
theorem Room.temporaryFree {f : WriteFaults} (h : Room pid dir) (hopen : ∀ i, f.openat i = false) (name : Text) :
    TemporaryFree f name pid dir := by
  obtain ⟨j, hj, hfree⟩ := h name
  have hex : ∃ j, j < 100 ∧ dir (temporaryName name pid j) = none := ⟨j, hj, hfree⟩
  have hfirst := Nat.find_spec hex
  refine ⟨Nat.find hex, ⟨hfirst.1, fun i hi => ⟨fun hnone => ?_, hopen i⟩, Or.inr fun hc => hc.1 hfirst.2⟩,
    Or.inl hfirst.2⟩
  exact Nat.find_min hex hi ⟨hi.trans hfirst.1, hnone⟩

/-- A record of a process that is gone is rewritten, or its file stays as it was. -/
def Rewritten (lookup : StatusFile.ProcessLookup) (name : Text) (dir dir' : Directory) : Prop :=
  dir' name = dir name ∨ ∃ data r data', dir name = some (.file data) ∧
    StatusFile.readContainerInfo name (some data) = some r ∧ Gone lookup r ∧
    tdWriteContainerInfo { r with status := StatusFile.strStatus .exited } = .ok data' ∧
    dir' name = some (.file data')

/-- **A refresh** shows what it should, and touches only the file of the record. -/
theorem refresh_spec {f : WriteFaults} (lookup : StatusFile.ProcessLookup) {data : Text} (hpid : pid < 2 ^ 31)
    (hroom : Room pid dir) (hopen : ∀ i, f.openat i = false) (hfile : dir name = some (.file data))
    (hread : StatusFile.readContainerInfo name (some data) = some r) :
    (refreshContainerStatusIfNeeded f pid lookup name r dir).2.1 = shown lookup r ∧
      (∀ n, n ≠ name → (refreshContainerStatusIfNeeded f pid lookup name r dir).1 n = dir n) ∧
      Rewritten lookup name dir (refreshContainerStatusIfNeeded f pid lookup name r dir).1 := by
  obtain ⟨hparsed, hname⟩ := parsed_of_read hread
  have hne : name ≠ [] := hname ▸ (tdValidateName_ok hparsed.name).1
  have hwrite : Gone lookup r →
      (∀ n, n ≠ name → (writeContainerInfo f pid name { r with status := StatusFile.strStatus .exited } dir).1 n =
        dir n) ∧
      Rewritten lookup name dir
        (writeContainerInfo f pid name { r with status := StatusFile.strStatus .exited } dir).1 := by
    intro hgone
    have hatomic := (atomic_write_iff f pid name { r with status := StatusFile.strStatus .exited } dir hpid).2
      (Or.inr (hroom.temporaryFree hopen name))
    rcases hatomic with ⟨data', hdata', hcall⟩ | hcall
    · rw [hcall]
      refine ⟨fun n hn => Function.update_of_ne hn _ _, Or.inr ⟨data, r, data', hfile, hread, hgone, hdata', ?_⟩⟩
      exact Function.update_self _ _ _
    · rw [hcall]
      exact ⟨fun _ _ => rfl, Or.inl rfl⟩
  unfold refreshContainerStatusIfNeeded shown
  simp only [if_neg hne]
  split
  · rename_i hstatus
    rw [if_neg fun hg => hstatus hg.1]
    exact ⟨rfl, fun _ _ => rfl, Or.inl rfl⟩
  rename_i hstatus
  split
  · rename_i hpos
    rw [if_neg fun hg => absurd hg.2.1 (Int.not_lt.2 hpos)]
    exact ⟨rfl, fun _ _ => rfl, Or.inl rfl⟩
  rename_i hpos
  cases lookup with
  | failed =>
    have hnot : ¬ Gone .failed r := fun hg => hg.2.2
    rw [if_neg hnot]
    exact ⟨rfl, fun _ _ => rfl, Or.inl rfl⟩
  | gone =>
    have hgone : Gone .gone r := ⟨not_not.1 hstatus, Int.not_le.1 hpos, trivial⟩
    rw [if_pos hgone]
    exact ⟨rfl, hwrite hgone⟩
  | found startTime =>
    simp only
    split
    · rename_i hsame
      rw [if_neg fun hg => hsame.elim hg.2.2.1 hg.2.2.2]
      exact ⟨rfl, fun _ _ => rfl, Or.inl rfl⟩
    · rename_i hother
      have hgone : Gone (.found startTime) r := ⟨not_not.1 hstatus, Int.not_le.1 hpos, not_or.1 hother⟩
      rw [if_pos hgone]
      exact ⟨rfl, hwrite hgone⟩

/-! ## The whole listing -/

theorem metadataFile_some {data : Text} (h : metadataFile e dir name = some data) :
    dir name = some (.file data) := by
  unfold metadataFile at h
  split at h
  · cases h
  split at h
  · cases h
  split at h
  · cases h
  split at h
  · cases h
  unfold contentOf at h
  split at h
  · rename_i data' hfile
    cases h
    exact hfile
  · cases h

theorem metadataFile_congr (h : dir' name = dir name) : metadataFile e dir' name = metadataFile e dir name := by
  unfold metadataFile contentOf
  rw [h]

theorem listed_congr (h : dir' name = dir name) : listed e dir' name = listed e dir name := by
  unfold listed
  rw [metadataFile_congr h]

/-- A listed record is that of its file. -/
theorem listed_some (h : listed e dir name = some r) : ∃ data r₀, dir name = some (.file data) ∧
    StatusFile.readContainerInfo name (some data) = some r₀ ∧ r = shown (e.lookup name) r₀ := by
  unfold listed at h
  split at h
  · cases h
  rename_i data hfile
  split at h
  · cases h
  obtain ⟨r₀, hread, rfl⟩ := Option.map_eq_some_iff.1 h
  exact ⟨data, r₀, metadataFile_some hfile, hread, rfl⟩

theorem shown_name (lookup : StatusFile.ProcessLookup) (r : StatusRecord) : (shown lookup r).name = r.name := by
  unfold shown
  split
  · rfl
  · rfl

theorem listed_name (h : listed e dir name = some r) : r.name = name := by
  obtain ⟨data, r₀, -, hread, rfl⟩ := listed_some h
  rw [shown_name]
  exact (parsed_of_read hread).2

/-- Files that are there stay there, so that the same temporary names are free. -/
theorem Room.keep (h : Room pid dir) {touched : Text} (hother : ∀ n, n ≠ touched → dir' n = dir n)
    (hfile : dir touched ≠ none) : Room pid dir' := by
  intro name
  obtain ⟨j, hj, hfree⟩ := h name
  refine ⟨j, hj, ?_⟩
  rw [hother _ fun heq => hfile (heq ▸ hfree)]
  exact hfree

/-- The loop from any point: the files of the names to come are still those of the start. -/
theorem listLoop_spec (hpid : pid < 2 ^ 31) (hopen : ∀ n i, (e.faults n).openat i = false) :
    ∀ {entries : List Text} {dir : Directory} {infos : List StatusRecord}, entries.Nodup → Room pid dir →
      infos.length ≤ capacity →
      (listLoop e pid capacity dir infos entries).2 = (infos ++ entries.filterMap (listed e dir)).take capacity ∧
        ∀ n, (n ∉ entries → (listLoop e pid capacity dir infos entries).1 n = dir n) ∧
          Rewritten (e.lookup n) n dir (listLoop e pid capacity dir infos entries).1
  | [], dir, infos, _, _, hcap => by
    refine ⟨?_, fun n => ⟨fun _ => rfl, Or.inl rfl⟩⟩
    rw [List.filterMap_nil, List.append_nil, List.take_of_length_le hcap]
    rfl
  | name :: rest, dir, infos, hnodup, hroom, hcap => by
    obtain ⟨hname, hrest⟩ := List.nodup_cons.1 hnodup
    have hskip : listed e dir name = none →
        (listLoop e pid capacity dir infos rest).2 =
            (infos ++ (name :: rest).filterMap (listed e dir)).take capacity ∧
          ∀ n, (n ∉ name :: rest → (listLoop e pid capacity dir infos rest).1 n = dir n) ∧
            Rewritten (e.lookup n) n dir (listLoop e pid capacity dir infos rest).1 := by
      intro hnone
      obtain ⟨hlist, hdir⟩ := @listLoop_spec hpid hopen rest dir infos hrest hroom hcap
      rw [List.filterMap_cons_none hnone]
      exact ⟨hlist, fun n => ⟨fun hn => (hdir n).1 fun h => hn (List.mem_cons_of_mem _ h), (hdir n).2⟩⟩
    unfold listLoop
    cases hfile : metadataFile e dir name with
    | none =>
      exact hskip (by rw [listed, hfile])
    | some data =>
      simp only
      split
      · rename_i hfull
        refine ⟨?_, fun n => ⟨fun _ => rfl, Or.inl rfl⟩⟩
        rw [List.take_append_of_le_length hfull, List.take_of_length_le hcap]
      rename_i hspace
      cases hread : (if e.readFails name then none else StatusFile.readContainerInfo name (some data)) with
      | none =>
        refine hskip ?_
        rw [listed, hfile]
        simp only
        split at hread
        · rw [if_pos ‹_›]
        · rw [if_neg ‹_›, hread]
          rfl
      | some r =>
        have hok : ¬ e.readFails name = true := fun hfails => by
          rw [if_pos hfails] at hread
          cases hread
        rw [if_neg hok] at hread
        have hthere := metadataFile_some hfile
        obtain ⟨hshown, hother, hself⟩ :=
          refresh_spec (e.lookup name) hpid hroom (hopen name) hthere hread
        simp only
        generalize refreshContainerStatusIfNeeded (e.faults name) pid (e.lookup name) name r dir = refreshed
          at hshown hother hself
        have hlisted : listed e dir name = some (shown (e.lookup name) r) := by
          rw [listed, hfile]
          simp only [if_neg hok, hread, Option.map_some]
        have hroom' := hroom.keep hother (by rw [hthere]; exact Option.some_ne_none _)
        have hcap' : (infos ++ [refreshed.2.1]).length ≤ capacity := by
          rw [List.length_append, List.length_singleton]
          exact Nat.lt_of_not_le hspace
        obtain ⟨hlist, hdir⟩ := @listLoop_spec hpid hopen rest refreshed.1 (infos ++ [refreshed.2.1]) hrest
          hroom' hcap'
        have hsame : rest.filterMap (listed e refreshed.1) = rest.filterMap (listed e dir) :=
          List.filterMap_congr fun n hn => listed_congr (hother n fun heq => hname (heq ▸ hn))
        refine ⟨?_, fun n => ⟨fun hn => ?_, ?_⟩⟩
        · rw [hlist, hsame, List.filterMap_cons_some hlisted, hshown, List.append_assoc, List.singleton_append]
        · rw [List.mem_cons, not_or] at hn
          rw [(hdir n).1 hn.2, hother n hn.1]
        · by_cases hn : n = name
          · subst hn
            unfold Rewritten
            rw [(hdir n).1 hname]
            exact hself
          · have hlater := (hdir n).2
            unfold Rewritten at hlater ⊢
            rwa [hother n hn] at hlater

/-- **What is listed.**  For every directory in which each name has a free temporary name, every order of its
entries and every failure of a call other than creating a temporary file: the list is that of the readable records,
shown as `EXITED` where the process of a running record is gone, up to the capacity; every record has the name of
its file, so that no container is listed twice and nothing that an interrupted write has left; and in the directory
nothing changes but that such records are rewritten as `EXITED`. -/
theorem list_containers_exact (e : ListAnswers) (pid capacity : Nat) (dir : Directory) (entries : List Text)
    (hpid : pid < 2 ^ 31) (hcap : 0 < capacity) (hnodup : entries.Nodup) (hroom : Room pid dir)
    (hopen : ∀ n i, (e.faults n).openat i = false) :
    (listContainersInfo e pid capacity false dir entries).2 =
        some ((entries.filterMap (listed e dir)).take capacity) ∧
      (((entries.filterMap (listed e dir)).take capacity).map (·.name)).Sublist entries ∧
      (∀ name r, listed e dir name = some r → ∃ data r₀, dir name = some (.file data) ∧
        StatusFile.readContainerInfo name (some data) = some r₀ ∧ r = shown (e.lookup name) r₀ ∧
          r.name = name) ∧
      ∀ n, Rewritten (e.lookup n) n dir (listContainersInfo e pid capacity false dir entries).1 := by
  obtain ⟨hlist, hdir⟩ := @listLoop_spec e pid capacity hpid hopen entries dir [] hnodup hroom (Nat.zero_le _)
  have hrun : listContainersInfo e pid capacity false dir entries =
      ((listLoop e pid capacity dir [] entries).1, some (listLoop e pid capacity dir [] entries).2) := by
    unfold listContainersInfo
    rw [if_neg (by simp; omega)]
  have hnames : ∀ names : List Text, ((names.filterMap (listed e dir)).map (·.name)).Sublist names := by
    intro names
    induction names with
    | nil => exact List.Sublist.refl _
    | cons name names ih =>
      cases hl : listed e dir name with
      | none =>
        rw [List.filterMap_cons_none hl]
        exact ih.cons name
      | some r =>
        rw [List.filterMap_cons_some hl, List.map_cons, listed_name hl]
        exact ih.cons_cons name
  refine ⟨?_, ?_, fun name r h => ?_, fun n => ?_⟩
  · rw [hrun, hlist, List.nil_append]
  · exact ((List.take_sublist _ _).map _).trans (hnames entries)
  · obtain ⟨data, r₀, hfile, hread, hr⟩ := listed_some h
    exact ⟨data, r₀, hfile, hread, hr, listed_name h⟩
  · rw [hrun]
    exact (hdir n).2

end

def shellText : Text :=
  match tdWriteContainerInfo shellRecord with
  | .ok data => data
  | .error _ => []

/-- The file of a container, and a copy of it that a write has left under a temporary name. -/
def copiedDir : Directory := fun n =>
  if n = "web".toList ∨ n = ".web.tmp.7.0".toList then some (.file shellText) else none

theorem copiedDir_room : Room 9 copiedDir := by
  intro name
  refine ⟨1, by decide, if_neg fun h => ?_⟩
  have hlast : (temporaryName name 9 1).getLast? = some '1' := by
    have hdigits : Nat.toDigits 10 9 = ['9'] ∧ Nat.toDigits 10 1 = ['1'] := by decide
    rw [temporaryName, hdigits.1, hdigits.2]
    simp [List.getLast?_cons, List.getLast?_append]
  rcases h with h | h
  · rw [h] at hlast
    revert hlast
    decide
  · rw [h] at hlast
    revert hlast
    decide

/-- The process of the container is gone. -/
def goneAnswers : ListAnswers := ⟨fun _ => false, fun _ => false, fun _ => .gone, fun _ => .none⟩

theorem copy_not_listed :
    (listContainersInfo goneAnswers 9 128 false copiedDir
      [['.'], ".web.tmp.7.0".toList, "web".toList, ['.', '.']]).2 =
        some [{ shellRecord with status := "EXITED".toList }] := by
  rw [(list_containers_exact goneAnswers 9 128 copiedDir [['.'], ".web.tmp.7.0".toList, "web".toList, ['.', '.']]
    (by decide) (by decide) (by decide) copiedDir_room fun _ _ => rfl).1]
  decide +kernel

end StatusDir

/-! ## The table of `docker ps` -/

/-- `%-*s`. -/
def padRight (span : Nat) (text : Text) : Text := text ++ List.replicate (span - text.length) ' '

def psTitles : List Text :=
  [ "CONTAINER_ID".toList, "IMAGE".toList, "COMMAND".toList, "CREATED".toList, "STATUS".toList, "NAMES".toList]

def psCells (r : StatusRecord) : List Text := [r.containerId, r.image, r.command, r.created, r.status, r.name]

/-- The spans after one more record: the time stamp and the status have fixed ones. -/
def widen (spans : List Nat) (r : StatusRecord) : List Nat :=
  match spans with
  | [id, image, command, _, _, name] =>
    [max id r.containerId.length, max image r.image.length, max command r.command.length, 19, 7,
      max name r.name.length]
  | _ => spans

/-- The records that the table shows. -/
def psRecords (listAll : Bool) (infos : List StatusRecord) : List StatusRecord :=
  infos.filter fun r => listAll || decide (r.status = StatusFile.strStatus .running)

def psSpans (records : List StatusRecord) : List Nat := records.foldl widen (psTitles.map (·.length))

/-- `docker_ps` after the listing. -/
def dockerPs (listAll : Bool) (infos : List StatusRecord) : Text :=
  let records := psRecords listAll infos
  let spans := psSpans records
  (List.zipWith padRight spans psTitles).flatMap (· ++ ['\t']) ++ '\n' ::
    records.flatMap fun r => ['\t'].intercalate (List.zipWith padRight spans (psCells r)) ++ ['\n']

theorem padRight_length {span : Nat} {text : Text} (h : text.length ≤ span) :
    (padRight span text).length = span := by
  rw [padRight, List.length_append, List.length_replicate]
  omega

theorem mem_padRight {span : Nat} {text : Text} {c : Char} (h : c ∈ padRight span text) : c ∈ text ∨ c = ' ' := by
  rcases List.mem_append.1 h with h | h
  · exact Or.inl h
  · exact Or.inr (List.eq_of_mem_replicate h)

/-- Every cell fits its column. -/
def Fit (spans : List Nat) (cells : List Text) : Prop := List.Forall₂ (fun w t => t.length ≤ w) spans cells

theorem Fit.lengths : ∀ {spans : List Nat} {cells : List Text}, Fit spans cells →
    (List.zipWith padRight spans cells).map (·.length) = spans
  | _, _, .nil => rfl
  | _, _, .cons h hrest => by
    rw [List.zipWith_cons_cons, List.map_cons, padRight_length h, Fit.lengths hrest]

theorem mem_zipWith_padRight : ∀ {spans : List Nat} {cells : List Text} {t : Text} {c : Char},
    t ∈ List.zipWith padRight spans cells → c ∈ t → (∃ u ∈ cells, c ∈ u) ∨ c = ' '
  | [], _, _, _, ht, _ => by cases ht
  | _ :: _, [], _, _, ht, _ => by cases ht
  | w :: spans, u :: cells, t, c, ht, hc => by
    rcases List.mem_cons.1 ht with rfl | ht
    · rcases mem_padRight hc with hc | hc
      · exact Or.inl ⟨u, List.mem_cons_self, hc⟩
      · exact Or.inr hc
    · rcases mem_zipWith_padRight ht hc with ⟨v, hv, hcv⟩ | hc
      · exact Or.inl ⟨v, List.mem_cons_of_mem _ hv, hcv⟩
      · exact Or.inr hc

theorem mem_intercalate {sep : Text} {c : Char} : ∀ {cells : List Text}, c ∈ sep.intercalate cells →
    c ∈ sep ∨ ∃ t ∈ cells, c ∈ t
  | [], h => by cases h
  | [t], h => by
    rw [List.intercalate_singleton] at h
    exact Or.inr ⟨t, List.mem_cons_self, h⟩
  | t :: u :: cells, h => by
    rw [List.intercalate_cons_cons, List.mem_append, List.mem_append] at h
    rcases h with (h | h) | h
    · exact Or.inr ⟨t, List.mem_cons_self, h⟩
    · exact Or.inl h
    · rcases mem_intercalate h with h | ⟨v, hv, hc⟩
      · exact Or.inl h
      · exact Or.inr ⟨v, List.mem_cons_of_mem _ hv, hc⟩

/-- A line of the table has no line break of its own. -/
theorem row_break {spans : List Nat} {cells : List Text} (h : ∀ t ∈ cells, '\n' ∉ t) :
    '\n' ∉ ['\t'].intercalate (List.zipWith padRight spans cells) := by
  intro hm
  rcases mem_intercalate hm with hm | ⟨t, ht, hc⟩
  · revert hm
    decide
  · rcases mem_zipWith_padRight ht hc with ⟨u, hu, hcu⟩ | hc
    · exact h u hu hcu
    · cases hc

theorem status_length {r : StatusRecord} (h : r.status ∈ statusWords) : r.status.length ≤ 7 := by
  simp only [statusWords, List.mem_cons, List.not_mem_nil, or_false] at h
  rcases h with h | h | h
  · rw [h]; decide
  · rw [h]; decide
  · rw [h]; decide

/-- The spans are six, and wide enough for the titles. -/
structure Wide (spans : List Nat) : Prop where
  six : ∃ a b c d e g, spans = [a, b, c, d, e, g]
  titles : Fit spans psTitles

/-- **Widening** makes room for the record, and keeps what fitted. -/
theorem widen_spec {spans : List Nat} {r : StatusRecord} (h : Wide spans) (hr : r.Parsed) :
    Wide (widen spans r) ∧ Fit (widen spans r) (psCells r) ∧
      ∀ r' : StatusRecord, r'.Parsed → Fit spans (psCells r') → Fit (widen spans r) (psCells r') := by
  obtain ⟨⟨a, b, c, d, e, g, rfl⟩, htitles⟩ := h
  have hfixed : ∀ r' : StatusRecord, r'.Parsed → r'.created.length ≤ 19 ∧ r'.status.length ≤ 7 :=
    fun r' hr' => ⟨Nat.lt_succ_iff.1 hr'.fits.created.1, status_length hr'.status⟩
  simp only [Fit, psTitles, List.forall₂_cons, List.forall₂_nil_right_iff, and_true] at htitles
  obtain ⟨ha, hb, hc, -, -, hg⟩ := htitles
  refine ⟨⟨⟨_, _, _, _, _, _, rfl⟩, ?_⟩, ?_, fun r' hr' hfit => ?_⟩
  · simp only [Fit, widen, psTitles, List.forall₂_cons, List.forall₂_nil_right_iff, and_true]
    exact ⟨ha.trans (le_max_left _ _), hb.trans (le_max_left _ _), hc.trans (le_max_left _ _), by decide, by decide,
      hg.trans (le_max_left _ _)⟩
  · simp only [Fit, widen, psCells, List.forall₂_cons, List.forall₂_nil_right_iff, and_true]
    exact ⟨le_max_right _ _, le_max_right _ _, le_max_right _ _, (hfixed r hr).1, (hfixed r hr).2,
      le_max_right _ _⟩
  · simp only [Fit, widen, psCells, List.forall₂_cons, List.forall₂_nil_right_iff, and_true] at hfit ⊢
    obtain ⟨ha', hb', hc', -, -, hg'⟩ := hfit
    exact ⟨ha'.trans (le_max_left _ _), hb'.trans (le_max_left _ _), hc'.trans (le_max_left _ _), (hfixed r' hr').1,
      (hfixed r' hr').2, hg'.trans (le_max_left _ _)⟩

/-- The spans at the end: wide enough for the titles and for every record. -/
theorem foldl_widen : ∀ {records : List StatusRecord} {spans : List Nat}, Wide spans →
    (∀ r ∈ records, r.Parsed) →
    Wide (records.foldl widen spans) ∧ (∀ r ∈ records, Fit (records.foldl widen spans) (psCells r)) ∧
      ∀ r' : StatusRecord, r'.Parsed → Fit spans (psCells r') → Fit (records.foldl widen spans) (psCells r')
  | [], _, h, _ => ⟨h, fun _ hr => (by cases hr), fun _ _ hfit => hfit⟩
  | r :: records, spans, h, hall => by
    obtain ⟨hwide, hself, hkeep⟩ := widen_spec h (hall r List.mem_cons_self)
    obtain ⟨hwide', hrest, hkeep'⟩ :=
      @foldl_widen records (widen spans r) hwide fun x hx => hall x (List.mem_cons_of_mem _ hx)
    refine ⟨hwide', fun x hx => ?_, fun r' hr' hfit => hkeep' r' hr' (hkeep r' hr' hfit)⟩
    rcases List.mem_cons.1 hx with rfl | hx
    · exact hkeep' x (hall x List.mem_cons_self) hself
    · exact hrest x hx

/-- **The table of `docker ps`.**  For all records that the reader can return, the output has a line of titles
and one line for each record that runs, or for each record with `-a`; and with the widths of the columns
found in the records, every cell of every line has the width of its column. -/
theorem ps_table (listAll : Bool) (infos : List StatusRecord) (h : ∀ r ∈ infos, r.Parsed) :
    ∃ spans, spans.length = 6 ∧
      pieces '\n' (dockerPs listAll infos) = (List.zipWith padRight spans psTitles).flatMap (· ++ ['\t']) ::
        (psRecords listAll infos).map (fun r => ['\t'].intercalate (List.zipWith padRight spans (psCells r))) ∧
      (List.zipWith padRight spans psTitles).map (·.length) = spans ∧
      ∀ r ∈ infos, (listAll = true ∨ r.status = StatusFile.strStatus .running) →
        r ∈ psRecords listAll infos ∧ (List.zipWith padRight spans (psCells r)).map (·.length) = spans := by
  have hparsed : ∀ r ∈ psRecords listAll infos, r.Parsed := fun r hr => h r (List.mem_filter.1 hr).1
  have hstart : Wide (psTitles.map (·.length)) := by
    refine ⟨⟨_, _, _, _, _, _, rfl⟩, ?_⟩
    simp only [Fit, psTitles, List.map_cons, List.map_nil, List.forall₂_cons, List.forall₂_nil_right_iff,
      le_refl, and_self]
  obtain ⟨hwide, hcells, -⟩ := foldl_widen hstart hparsed
  obtain ⟨⟨a, b, c, d, e, g, hsix⟩, htitles⟩ := hwide
  refine ⟨psSpans (psRecords listAll infos), ?_, ?_, htitles.lengths, fun r hr hshow => ?_⟩
  · rw [psSpans, hsix]
    rfl
  · have hlines : dockerPs listAll infos = ((List.zipWith padRight (psSpans (psRecords listAll infos))
        psTitles).flatMap (· ++ ['\t']) :: (psRecords listAll infos).map fun r => ['\t'].intercalate
          (List.zipWith padRight (psSpans (psRecords listAll infos)) (psCells r))).flatMap (· ++ ['\n']) := by
      rw [List.flatMap_cons, List.flatMap_map, List.append_assoc, List.singleton_append]
      rfl
    rw [hlines]
    refine pieces_flatMap fun l hl hm => ?_
    rcases List.mem_cons.1 hl with rfl | hl
    · obtain ⟨t, ht, hm⟩ := List.mem_flatMap.1 hm
      rcases List.mem_append.1 hm with hm | hm
      · rcases mem_zipWith_padRight ht hm with ⟨u, hu, hcu⟩ | hm
        · have hplain : ∀ u ∈ psTitles, '\n' ∉ u := by decide
          exact hplain u hu hcu
        · cases hm
      · revert hm
        decide
    · obtain ⟨r, hr, rfl⟩ := List.mem_map.1 hl
      refine row_break (fun t ht => (hparsed r hr).lines t ?_) hm
      simp only [psCells, StatusRecord.texts, List.mem_append, List.mem_cons, List.not_mem_nil, or_false] at ht ⊢
      tauto
  · have hmem : r ∈ psRecords listAll infos := by
      refine List.mem_filter.2 ⟨hr, ?_⟩
      rcases hshow with hall | hrun
      · simp [hall]
      · simp [hrun]
    exact ⟨hmem, (hcells r hmem).lengths⟩

theorem shellRecord_parsed : StatusDir.shellRecord.Parsed := by
  have hread : StatusFile.readContainerInfo "web".toList (some StatusDir.shellText) = some StatusDir.shellRecord := by
    decide +kernel
  exact (parsed_of_read hread).1

/-- A running container, without `-a`. -/
theorem shell_table : StatusDir.shellRecord ∈ psRecords false [StatusDir.shellRecord] ∧
    (pieces '\n' (dockerPs false [StatusDir.shellRecord])).length = 2 := by
  have hall : ∀ r ∈ [StatusDir.shellRecord], r.Parsed := fun r hr => List.mem_singleton.1 hr ▸ shellRecord_parsed
  obtain ⟨spans, -, hlines, -, hrows⟩ := ps_table false [StatusDir.shellRecord] hall
  refine ⟨(hrows _ List.mem_cons_self (Or.inr (by decide))).1, ?_⟩
  rw [hlines]
  rfl

end TinyDocker
