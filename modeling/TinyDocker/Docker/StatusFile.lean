import TinyDocker.Lib.Ipv4
import TinyDocker.Lib.Runs
import TinyDocker.Docker.StatusInfo

/-!
# Metadata files (`docker/status_info.c`)

`StatusFile.writeContainerInfo` and `StatusFile.readContainerInfo` work on the content of the file of
one container.  The file is replaced by `rename`, so that a failing write leaves the old content.

The writer checks fewer fields than the reader.

Principal results:

* `metadata_codec_iff` — a record that was written is read back unchanged if and only if its detach
  flag is 0 or 1, no unchecked field has a line break, and no volume is empty;
* `status_update_iff` — a status update keeps an accepted file readable, with only the status
  replaced, if and only if no carriage return is left in its values and no volume is empty;
* `metadata_life` — the file of a started container stays readable, only its status changes, and it
  is never `RUNNING` again.
-/

set_option autoImplicit false

namespace TinyDocker

open CText

namespace StatusFile

def MAX_METADATA_SIZE : Nat := 1024 * 1024

/-- `read_container_info` on a file that can be read. -/
def readContainerInfo (name : Text) : Option Text → Option StatusRecord
  | none => none
  | some data =>
    if tdValidateName name TINYDOCKER_MAX_CONTAINER_NAME ≠ .ok () then none
    else if MAX_METADATA_SIZE < data.length then none
    else match tdParseContainerInfo data name with
      | .error _ => none
      | .ok r => some r

/-- `write_container_info`; `io` says that the file can be written and renamed. -/
def writeContainerInfo (io : Bool) (name : Text) (r : StatusRecord) (file : Option Text) :
    Option Text × Bool :=
  if tdValidateName name TINYDOCKER_MAX_CONTAINER_NAME ≠ .ok () ∨ name ≠ r.name then (file, false)
  else match tdWriteContainerInfo r with
    | .error _ => (file, false)
    | .ok data => if io then (some data, true) else (file, false)

/-- `str_status`. -/
def strStatus : ContainerStatus → Text
  | .running => "RUNNING".toList
  | .stopped => "STOPPED".toList
  | .exited => "EXITED".toList

/-- `update_container_status`. -/
def updateContainerStatus (io : Bool) (name : Text) (status : ContainerStatus) (file : Option Text) :
    Option Text × Bool :=
  match readContainerInfo name file with
  | none => (file, false)
  | some r => writeContainerInfo io name { r with status := strStatus status } file

/-- `read_process_start_time`; `failed` is any other errno than `ENOENT` and `ESRCH`. -/
inductive ProcessLookup where
  | found (startTime : Nat)
  | gone
  | failed
  deriving DecidableEq, Repr

/-- `refresh_container_status_if_needed` on a record that was read, with its result. -/
def refreshContainerStatusIfNeeded (io : Bool) (lookup : ProcessLookup) (name : Text) (r : StatusRecord)
    (file : Option Text) : Option Text × Int :=
  let exited := writeContainerInfo io name { r with status := strStatus .exited } file
  if name = [] then (file, -1)
  else if r.status ≠ strStatus .running then (file, 0)
  else if r.pid ≤ 0 then (file, 0)
  else match lookup with
    | .failed => (file, -1)
    | .gone => (exited.1, if exited.2 then 1 else -1)
    | .found startTime =>
      if r.pidStartTime = 0 ∨ startTime = r.pidStartTime then (file, 0)
      else (exited.1, if exited.2 then 1 else -1)

end StatusFile

/-! ## Reading back what was written -/

/-- A value that survives its line. -/
def OneLine (value : Text) : Prop := '\n' ∉ value ∧ value.getLast? ≠ some '\r'

/-- What the reader needs beyond the checks of the writer. -/
structure StatusRecord.Readable (r : StatusRecord) : Prop where
  detach : r.detach = 0 ∨ r.detach = 1
  containerId : OneLine r.containerId
  created : OneLine r.created
  ipAddr : OneLine r.ipAddr
  volumes : ∀ v ∈ r.volumes, v ≠ []

theorem containsRecordSeparator_false {value : Text} (h : containsRecordSeparator value = false) :
    '\n' ∉ value ∧ '\r' ∉ value := by
  simpa [containsRecordSeparator] using h

/-- What the writer has checked. -/
structure StatusRecord.Writable (r : StatusRecord) : Prop where
  pid : 0 < r.pid
  count : r.volumes.length ≤ 32
  status : r.status ∈ statusWords
  image : '\n' ∉ r.image ∧ '\r' ∉ r.image
  command : '\n' ∉ r.command ∧ '\r' ∉ r.command
  name : '\n' ∉ r.name ∧ '\r' ∉ r.name
  volumes : ∀ v ∈ r.volumes, '\n' ∉ v ∧ '\r' ∉ v

theorem tdWriteContainerInfo_iff {r : StatusRecord} {data : Text} :
    tdWriteContainerInfo r = .ok data ↔
      r.Writable ∧ data = (headerLines r ++ r.volumes).flatMap (· ++ ['\n']) := by
  unfold tdWriteContainerInfo
  constructor
  · intro h
    split at h
    · cases h
    rename_i hvals
    split at h
    · cases h
    rename_i hvols
    cases h
    simp only [not_or, Bool.not_eq_true, Int.not_le, Nat.not_lt, not_not] at hvals
    obtain ⟨hpid, hcount, hstatus, himage, hcommand, hname⟩ := hvals
    simp only [List.any_eq_true, not_exists, not_and, Bool.not_eq_true] at hvols
    exact ⟨⟨hpid, hcount, hstatus, containsRecordSeparator_false himage,
      containsRecordSeparator_false hcommand, containsRecordSeparator_false hname,
      fun v hv => containsRecordSeparator_false (hvols v hv)⟩, rfl⟩
  · rintro ⟨hw, rfl⟩
    have hsep : ∀ {t : Text}, '\n' ∉ t ∧ '\r' ∉ t → containsRecordSeparator t = false := by
      intro t ht
      simpa [containsRecordSeparator] using ht
    rw [if_neg (by
        simp only [not_or, Bool.not_eq_true, Int.not_le, Nat.not_lt, not_not]
        exact ⟨hw.pid, hw.count, hw.status, hsep hw.image, hsep hw.command, hsep hw.name⟩),
      if_neg (by
        simp only [List.any_eq_true, not_exists, not_and, Bool.not_eq_true]
        exact fun v hv => hsep (hw.volumes v hv))]

theorem decimal_chars {n : Int} {c : Char} (h : c ∈ decimal n) : c = '-' ∨ c.isDigit = true := by
  unfold decimal at h
  split at h
  · rcases List.mem_cons.1 h with rfl | h
    · exact Or.inl rfl
    · exact Or.inr (isDigit_toDigits h)
  · exact Or.inr (isDigit_toDigits h)

theorem break_not_mem_decimal (n : Int) : '\n' ∉ decimal n ∧ '\r' ∉ decimal n := by
  refine ⟨fun h => ?_, fun h => ?_⟩
  all_goals rcases decimal_chars h with h | h <;> exact absurd h (by decide)

theorem break_not_mem_toDigits (n : Nat) : '\n' ∉ Nat.toDigits 10 n ∧ '\r' ∉ Nat.toDigits 10 n := by
  refine ⟨fun h => ?_, fun h => ?_⟩
  all_goals exact absurd (isDigit_toDigits h) (by decide)

theorem dropCr_of_last {t : Text} (h : t.getLast? ≠ some '\r') : dropCr t = t := by
  unfold dropCr
  rw [if_neg h]

theorem dropCr_of_not_mem {t : Text} (h : '\r' ∉ t) : dropCr t = t :=
  dropCr_of_last fun hl => h (List.mem_of_getLast? hl)

theorem last_of_dropCr {t : Text} (h : dropCr t = t) : t.getLast? ≠ some '\r' := by
  intro hl
  unfold dropCr at h
  rw [if_pos hl] at h
  have hlen := congrArg List.length h
  rw [List.length_dropLast] at hlen
  have hne : t ≠ [] := by
    rintro rfl
    cases hl
  have hpos := List.length_pos_iff.2 hne
  omega

/-- The carriage return of a header line belongs to its value. -/
theorem dropCr_headerLine (f : MetadataField) (v : Text) :
    dropCr (headerLine f v) = headerLine f (dropCr v) := by
  have hlast : (headerLine f v).getLast? = some '\r' ↔ v.getLast? = some '\r' := by
    unfold headerLine
    rw [List.getLast?_append]
    cases v with
    | nil => simp
    | cons c v => simp [List.getLast?_cons]
  unfold dropCr
  by_cases h : v.getLast? = some '\r'
  · have hne : v ≠ [] := by
      rintro rfl
      cases h
    rw [if_pos (hlast.2 h), if_pos h]
    unfold headerLine
    rw [List.dropLast_append_of_ne_nil (by simp), List.dropLast_cons_of_ne_nil hne]
  · rw [if_neg (fun hc => h (hlast.1 hc)), if_neg h]

theorem metadataLines_written {lines : List Text} (h : ∀ l ∈ lines, '\n' ∉ l) :
    metadataLines (lines.flatMap (· ++ ['\n'])) =
      (lines.filter fun l => decide (l ≠ [])).map dropCr := by
  unfold metadataLines
  rw [pieces_flatMap h]

/-- The header of a written file as the reader sees it. -/
def writtenFields (r : StatusRecord) : List (MetadataField × Text) :=
  [(.pid, decimal r.pid), (.pidStart, Nat.toDigits 10 r.pidStartTime), (.detach, decimal r.detach),
    (.id, dropCr r.containerId), (.image, r.image), (.command, r.command), (.created, dropCr r.created),
    (.status, r.status), (.ip, dropCr r.ipAddr), (.name, r.name)]

theorem writtenFields_keys (r : StatusRecord) : (writtenFields r).map (·.1) =
    [.pid, .pidStart, .detach, .id, .image, .command, .created, .status, .ip, .name] := rfl

section Written

variable {r : StatusRecord}

theorem status_plain (h : r.status ∈ statusWords) :
    '\n' ∉ r.status ∧ '\r' ∉ r.status ∧ '\x00' ∉ r.status := by
  simp only [statusWords, List.mem_cons, List.not_mem_nil, or_false] at h
  rcases h with h | h | h <;> rw [h] <;> decide

theorem headerLine_chars {f : MetadataField} {v : Text} {c : Char} (h : c ∈ headerLine f v)
    (hc : c = '\n' ∨ c = '\x00') : c ∈ v := by
  unfold headerLine at h
  rcases List.mem_append.1 h with h | h
  · exfalso
    rcases hc with rfl | rfl <;> revert h <;> cases f <;> decide
  · rcases List.mem_cons.1 h with h | h
    · exfalso
      rcases hc with rfl | rfl <;> revert h <;> decide
    · exact h

/-- A line break or a NUL of the header is one of a text field. -/
theorem headerLines_chars {l : Text} {c : Char} (hl : l ∈ headerLines r) (h : c ∈ l)
    (hc : c = '\n' ∨ c = '\x00') :
    c ∈ r.containerId ∨ c ∈ r.image ∨ c ∈ r.command ∨ c ∈ r.created ∨ c ∈ r.status ∨ c ∈ r.ipAddr ∨
      c ∈ r.name := by
  have hdig : ∀ n, c ∉ Nat.toDigits 10 n := by
    intro n hn
    have := isDigit_toDigits hn
    rcases hc with rfl | rfl <;> exact absurd this (by decide)
  have hdec : ∀ n, c ∉ decimal n := by
    intro n hn
    rcases decimal_chars hn with hn | hn
    · rcases hc with rfl | rfl <;> exact absurd hn (by decide)
    · rcases hc with rfl | rfl <;> exact absurd hn (by decide)
  simp only [headerLines, List.mem_cons, List.not_mem_nil, or_false] at hl
  rcases hl with rfl | rfl | rfl | rfl | rfl | rfl | rfl | rfl | rfl | rfl | rfl
  · exact absurd (headerLine_chars h hc) (hdec _)
  · exact absurd (headerLine_chars h hc) (hdig _)
  · exact absurd (headerLine_chars h hc) (hdec _)
  · simp [headerLine_chars h hc]
  · simp [headerLine_chars h hc]
  · simp [headerLine_chars h hc]
  · simp [headerLine_chars h hc]
  · simp [headerLine_chars h hc]
  · simp [headerLine_chars h hc]
  · simp [headerLine_chars h hc]
  · exact absurd (headerLine_chars h hc) (hdig _)

/-- The reader's view of a written file. -/
theorem metadataLines_record (hw : r.Writable) (hid : '\n' ∉ r.containerId) (hcreated : '\n' ∉ r.created)
    (hip : '\n' ∉ r.ipAddr) :
    metadataLines ((headerLines r ++ r.volumes).flatMap (· ++ ['\n'])) =
      (writtenFields r).map (fun p => headerLine p.1 p.2) ++
        headerLine .volumeCount (Nat.toDigits 10 r.volumes.length) ::
          r.volumes.filter fun l => decide (l ≠ []) := by
  have hdec := fun n => break_not_mem_decimal n
  have hdig := fun n => break_not_mem_toDigits n
  have hstatus := status_plain hw.status
  rw [metadataLines_written, List.filter_append, List.map_append]
  · have hne : ∀ (f : MetadataField) (v : Text), decide (headerLine f v ≠ []) = true := by
      intro f v
      simp [headerLine]
    have hvols : (r.volumes.filter fun l => decide (l ≠ [])).map dropCr =
        r.volumes.filter fun l => decide (l ≠ []) := by
      calc (r.volumes.filter fun l => decide (l ≠ [])).map dropCr
          = (r.volumes.filter fun l => decide (l ≠ [])).map id := List.map_congr_left fun v hv =>
            dropCr_of_not_mem (hw.volumes v (List.mem_filter.1 hv).1).2
        _ = _ := List.map_id _
    rw [hvols]
    simp only [headerLines, writtenFields, List.filter_cons, List.filter_nil, hne, if_true, List.map_cons,
      List.map_nil, dropCr_headerLine, dropCr_of_not_mem (hdec _).2, dropCr_of_not_mem (hdig _).2,
      dropCr_of_not_mem hw.image.2, dropCr_of_not_mem hw.command.2, dropCr_of_not_mem hw.name.2,
      dropCr_of_not_mem hstatus.2.1, List.cons_append, List.nil_append]
  · intro l hl
    rcases List.mem_append.1 hl with hl | hl
    · intro hm
      rcases headerLines_chars hl hm (Or.inl rfl) with h | h | h | h | h | h | h
      · exact hid h
      · exact hw.image.1 h
      · exact hw.command.1 h
      · exact hcreated h
      · exact hstatus.1 h
      · exact hip h
      · exact hw.name.1 h
    · exact (hw.volumes l hl).1

/-- A written file has no NUL. -/
theorem written_noNul (hfits : r.Fits) :
    '\x00' ∉ (headerLines r ++ r.volumes).flatMap (· ++ ['\n']) := by
  rw [List.mem_flatMap]
  rintro ⟨l, hl, hm⟩
  rcases List.mem_append.1 hm with hm | hm
  · rcases List.mem_append.1 hl with hl | hl
    · rcases headerLines_chars hl hm (Or.inr rfl) with h | h | h | h | h | h | h
      · exact hfits.containerId.2 h
      · exact hfits.image.2 h
      · exact hfits.command.2 h
      · exact hfits.created.2 h
      · exact hfits.status.2 h
      · exact hfits.ipAddr.2 h
      · exact hfits.name.2 h
    · exact (hfits.volumes l hl).2 hm
  · exact absurd (List.mem_singleton.1 hm) (by decide)

theorem decimal_of_nonneg {n : Int} (h : 0 ≤ n) : decimal n = Nat.toDigits 10 n.toNat := by
  unfold decimal
  rw [if_neg (by omega)]
  congr 1
  omega

/-- **Reading a written file** whose unchecked fields have no newline. -/
theorem tdParse_written_iff (hfits : r.Fits) (hw : r.Writable) (hid : '\n' ∉ r.containerId)
    (hcreated : '\n' ∉ r.created) (hip : '\n' ∉ r.ipAddr) (hname : tdValidateName r.name 127 = .ok ()) :
    tdParseContainerInfo ((headerLines r ++ r.volumes).flatMap (· ++ ['\n'])) r.name = .ok r ↔
      (r.detach = 0 ∨ r.detach = 1) ∧ dropCr r.containerId = r.containerId ∧
        dropCr r.created = r.created ∧ dropCr r.ipAddr = r.ipAddr ∧ ∀ v ∈ r.volumes, v ≠ [] := by
  have hlines := metadataLines_record hw hid hcreated hip
  have hfresh : .volumeCount ∉ (writtenFields r).map (·.1) := by
    rw [writtenFields_keys]
    decide
  rw [tdParseContainerInfo_iff]
  constructor
  · rintro ⟨fields, cnt, vols, hshape, hrec, -, -⟩
    obtain ⟨hfront, -, hvols⟩ := @split_unique _ (fun line => ∃ v, line = headerLine .volumeCount v) _ _ _ _
      _ _ (hshape.lines.symm.trans hlines)
      (fun line hl ⟨v, hv⟩ => by
        obtain ⟨p, hp, rfl⟩ := List.mem_map.1 hl
        exact hshape.fresh (List.mem_map.2 ⟨p, hp, (headerLine_injective hv).1⟩))
      (fun line hl ⟨v, hv⟩ => by
        obtain ⟨p, hp, rfl⟩ := List.mem_map.1 hl
        exact hfresh (List.mem_map.2 ⟨p, hp, (headerLine_injective hv).1⟩))
      ⟨_, rfl⟩ ⟨_, rfl⟩
    have hvalue : ∀ {f : MetadataField} {v : Text}, (f, v) ∈ writtenFields r → r.Holds vols.length f v := by
      intro f v hm
      have hmem : headerLine f v ∈ fields.map fun p => headerLine p.1 p.2 :=
        hfront ▸ List.mem_map_of_mem (f := fun p : MetadataField × Text => headerLine p.1 p.2) hm
      obtain ⟨p, hp, he⟩ := List.mem_map.1 hmem
      obtain ⟨rfl, rfl⟩ := headerLine_injective he
      exact hrec.values p hp
    have hdetach := tdParseLong_ok (hvalue (f := .detach) (v := decimal r.detach) (by simp [writtenFields]))
    have hall : r.volumes.filter (fun l => decide (l ≠ [])) = r.volumes :=
      hvols.symm.trans hrec.volumes.symm
    refine ⟨by omega, (hvalue (f := .id) (by simp [writtenFields])).2.symm,
      (hvalue (f := .created) (by simp [writtenFields])).2.symm,
      (hvalue (f := .ip) (by simp [writtenFields])).2.symm, fun v hv => ?_⟩
    exact of_decide_eq_true (List.filter_eq_self.1 hall v hv)
  · rintro ⟨hdetach, eid, ecreated, eip, hvols⟩
    have hall : r.volumes.filter (fun l => decide (l ≠ [])) = r.volumes :=
      List.filter_eq_self.2 fun v hv => decide_eq_true (hvols v hv)
    rw [hall] at hlines
    have hpid := hw.pid
    have hpid' := hfits.pid
    simp only [INT_MAX] at hpid'
    refine ⟨writtenFields r, Nat.toDigits 10 r.volumes.length, r.volumes,
      ⟨written_noNul hfits, hlines, hfresh, ?_, ?_, fun v hv => ?_⟩,
      ⟨fun p hp => ?_, ?_, fun hc => ?_, rfl⟩, hname, rfl⟩
    · rw [writtenFields_keys]
      decide
    · rw [writtenFields_keys]
      decide
    · exact Nat.le_of_lt_succ (hfits.volumes v hv).1
    · simp only [writtenFields, List.mem_cons, List.not_mem_nil, or_false] at hp
      rcases hp with rfl | rfl | rfl | rfl | rfl | rfl | rfl | rfl | rfl | rfl
      · show tdParseLong (decimal r.pid) 1 INT_MAX = .ok r.pid
        rw [decimal_of_nonneg (by omega), tdParseLong_toDigits (by omega) (by simp only [INT_MAX]; omega) (by omega)]
        rw [Int.toNat_of_nonneg (by omega)]
      · show strtoull (Nat.toDigits 10 r.pidStartTime) = some (r.pidStartTime, [])
        have hscan := @strtoull_toDigits r.pidStartTime hfits.pidStartTime [] (by simp)
        rwa [List.append_nil] at hscan
      · show tdParseLong (decimal r.detach) 0 1 = .ok r.detach
        rcases hdetach with h | h <;> rw [h] <;> decide
      · exact ⟨Nat.le_of_lt_succ (by rw [eid]; exact hfits.containerId.1), eid.symm⟩
      · exact ⟨Nat.le_of_lt_succ hfits.image.1, rfl⟩
      · exact ⟨Nat.le_of_lt_succ hfits.command.1, rfl⟩
      · exact ⟨Nat.le_of_lt_succ (by rw [ecreated]; exact hfits.created.1), ecreated.symm⟩
      · exact ⟨hw.status, rfl⟩
      · exact ⟨Nat.le_of_lt_succ (by rw [eip]; exact hfits.ipAddr.1), eip.symm⟩
      · exact ⟨Nat.le_of_lt_succ hfits.name.1, rfl⟩
    · have := hw.count
      exact tdParseLong_toDigits (by omega) (by omega) (by omega)
    · exact absurd (by simp [writtenFields]) hc

theorem headerLine_length (f : MetadataField) (v : Text) : (headerLine f v).length ≤ v.length + 15 := by
  have hkey : f.key.length ≤ 14 := by
    cases f <;> decide
  simp only [headerLine, List.length_append, List.length_cons]
  omega

theorem toDigits_length {n : Nat} (h : n < 2 ^ 64) : (Nat.toDigits 10 n).length ≤ 20 :=
  (Nat.length_toDigits_le_iff (by decide) (by decide)).2 (Nat.lt_trans h (by decide))

theorem flatMap_lines_length {m : Nat} : ∀ {ls : List Text}, (∀ l ∈ ls, l.length < m) →
    (ls.flatMap (· ++ ['\n'])).length ≤ m * ls.length
  | [], _ => by simp
  | l :: ls, h => by
    have hl := h l List.mem_cons_self
    have hls := flatMap_lines_length fun x hx => h x (List.mem_cons_of_mem _ hx)
    simp only [List.flatMap_cons, List.length_append, List.length_cons, List.length_nil, Nat.mul_add,
      Nat.mul_one]
    omega

/-- A written file is small enough for the reader. -/
theorem written_length (hfits : r.Fits) (hw : r.Writable) (hdetach : r.detach = 0 ∨ r.detach = 1) :
    ((headerLines r ++ r.volumes).flatMap (· ++ ['\n'])).length ≤ StatusFile.MAX_METADATA_SIZE := by
  have hpid := hw.pid
  have hpid' := hfits.pid
  simp only [INT_MAX] at hpid'
  have hcount := hw.count
  have hl1 : (decimal r.pid).length ≤ 20 := by
    rw [decimal_of_nonneg (by omega)]
    exact toDigits_length (by omega)
  have hl2 : (decimal r.detach).length ≤ 20 := by
    rw [decimal_of_nonneg (by omega)]
    exact toDigits_length (by omega)
  have hl3 := toDigits_length hfits.pidStartTime
  have hl4 : (Nat.toDigits 10 r.volumes.length).length ≤ 20 := toDigits_length (by omega)
  have hheader : ∀ l ∈ headerLines r, l.length < 600 := by
    have hlen : ∀ {f : MetadataField} {v : Text}, v.length < 512 → (headerLine f v).length < 600 :=
      fun {f v} hv => by have := headerLine_length f v; omega
    intro l hl
    simp only [headerLines, List.mem_cons, List.not_mem_nil, or_false] at hl
    rcases hl with rfl | rfl | rfl | rfl | rfl | rfl | rfl | rfl | rfl | rfl | rfl
    · exact hlen (by omega)
    · exact hlen (by omega)
    · exact hlen (by omega)
    · exact hlen (Nat.lt_of_lt_of_le hfits.containerId.1 (by decide))
    · exact hlen (Nat.lt_of_lt_of_le hfits.image.1 (by decide))
    · exact hlen hfits.command.1
    · exact hlen (Nat.lt_of_lt_of_le hfits.created.1 (by decide))
    · exact hlen (Nat.lt_of_lt_of_le hfits.status.1 (by decide))
    · exact hlen (Nat.lt_of_lt_of_le hfits.ipAddr.1 (by decide))
    · exact hlen (Nat.lt_of_lt_of_le hfits.name.1 (by decide))
    · exact hlen (by omega)
  have hall : ∀ l ∈ headerLines r ++ r.volumes, l.length < 600 := by
    intro l hl
    rcases List.mem_append.1 hl with hl | hl
    · exact hheader l hl
    · exact Nat.lt_of_lt_of_le (hfits.volumes l hl).1 (by decide)
  refine Nat.le_trans (flatMap_lines_length hall) ?_
  have hn : (headerLines r ++ r.volumes).length ≤ 43 := by
    rw [List.length_append]
    have : (headerLines r).length = 11 := rfl
    omega
  calc 600 * (headerLines r ++ r.volumes).length ≤ 600 * 43 := Nat.mul_le_mul_left _ hn
    _ ≤ StatusFile.MAX_METADATA_SIZE := by decide

end Written

/-! ## Records that were read -/

/-- The text fields. -/
def StatusRecord.texts (r : StatusRecord) : List Text :=
  [r.containerId, r.image, r.command, r.created, r.status, r.name, r.ipAddr] ++ r.volumes

/-- What every record has that the reader returns. -/
structure StatusRecord.Parsed (r : StatusRecord) : Prop where
  fits : r.Fits
  pid : 0 < r.pid
  detach : r.detach = 0 ∨ r.detach = 1
  status : r.status ∈ statusWords
  count : r.volumes.length ≤ 32
  lines : ∀ t ∈ r.texts, '\n' ∉ t
  name : tdValidateName r.name 127 = .ok ()

theorem mem_of_mem_dropCr {t : Text} {c : Char} (h : c ∈ dropCr t) : c ∈ t := by
  unfold dropCr at h
  split at h
  · exact List.dropLast_subset _ h
  · exact h

theorem metadataLines_chars {data line : Text} (h : line ∈ metadataLines data) {c : Char}
    (hc : c ∈ line) : c ∈ data ∧ c ≠ '\n' := by
  obtain ⟨l, hl, rfl⟩ := List.mem_map.1 h
  exact pieces_chars (List.mem_filter.1 hl).1 c (mem_of_mem_dropCr hc)

theorem strtoull_lt {s rest : Text} {n : Nat} (h : strtoull s = some (n, rest)) : n < 2 ^ 64 := by
  unfold strtoull at h
  split at h
  · cases h
  rename_i neg m rest' hscan
  split at h
  · cases h
  rename_i hm
  rw [Option.some.injEq, Prod.mk.injEq] at h
  obtain ⟨rfl, -⟩ := h
  split
  · exact Nat.mod_lt _ (by decide)
  · omega

theorem parsed_of_tdParse {data expected : Text} {r : StatusRecord}
    (h : tdParseContainerInfo data expected = .ok r) : r.Parsed := by
  obtain ⟨front, cnt, vols, hshape, hrec, hvalid, hname⟩ := tdParseContainerInfo_iff.1 h
  have hchars : ∀ {line t : Text}, line ∈ metadataLines data → (∀ c ∈ t, c ∈ line) →
      '\n' ∉ t ∧ '\x00' ∉ t := by
    intro line t hl ht
    refine ⟨fun hc => (metadataLines_chars hl (ht _ hc)).2 rfl, fun hc => ?_⟩
    exact hshape.noNul (metadataLines_chars hl (ht _ hc)).1
  -- the value of a required field, with the line it stands on
  have hfield : ∀ f ∈ requiredFields, f ≠ .volumeCount →
      ∃ v, r.Holds vols.length f v ∧ '\n' ∉ v ∧ '\x00' ∉ v := by
    intro f hf hne
    obtain ⟨p, hp, rfl⟩ := List.mem_map.1 (hshape.required f hf hne)
    have hline : headerLine p.1 p.2 ∈ metadataLines data := by
      rw [hshape.lines]
      exact List.mem_append_left _ (List.mem_map_of_mem hp)
    refine ⟨p.2, hrec.values p hp, hchars hline fun c hc => ?_⟩
    simp [headerLine, hc]
  obtain ⟨_, hpid, -⟩ := hfield .pid (by decide) (by decide)
  obtain ⟨_, hdetach, -⟩ := hfield .detach (by decide) (by decide)
  obtain ⟨_, ⟨lid, rfl⟩, nid⟩ := hfield .id (by decide) (by decide)
  obtain ⟨_, ⟨limage, rfl⟩, nimage⟩ := hfield .image (by decide) (by decide)
  obtain ⟨_, ⟨lcommand, rfl⟩, ncommand⟩ := hfield .command (by decide) (by decide)
  obtain ⟨_, ⟨lcreated, rfl⟩, ncreated⟩ := hfield .created (by decide) (by decide)
  obtain ⟨_, ⟨hstatus, rfl⟩, nstatus⟩ := hfield .status (by decide) (by decide)
  obtain ⟨_, ⟨lip, rfl⟩, nip⟩ := hfield .ip (by decide) (by decide)
  obtain ⟨_, ⟨lname, rfl⟩, nname⟩ := hfield .name (by decide) (by decide)
  have hpid := tdParseLong_ok hpid
  have hdetach := tdParseLong_ok hdetach
  have hcount := tdParseLong_ok hrec.count
  have hvols : ∀ v ∈ r.volumes, v.length ≤ 511 ∧ '\n' ∉ v ∧ '\x00' ∉ v := by
    rw [hrec.volumes]
    intro v hv
    have hline : v ∈ metadataLines data := by
      rw [hshape.lines]
      simp [hv]
    exact ⟨hshape.volumes v hv, hchars hline fun _ hc => hc⟩
  have hstart : r.pidStartTime < 2 ^ 64 := by
    by_cases hp : .pidStart ∈ front.map (·.1)
    · obtain ⟨⟨f, v⟩, hp, hf⟩ := List.mem_map.1 hp
      have hf : f = .pidStart := hf
      subst hf
      exact strtoull_lt (hrec.values _ hp)
    · rw [hrec.start hp]
      decide
  have hword : r.status.length < 10 := by
    simp only [statusWords, List.mem_cons, List.not_mem_nil, or_false] at hstatus
    rcases hstatus with hs | hs | hs <;> rw [hs] <;> decide
  refine ⟨⟨by omega, hstart, ⟨by omega, nid.2⟩, ⟨by omega, nimage.2⟩, ⟨by omega, ncommand.2⟩,
    ⟨by omega, ncreated.2⟩, ⟨hword, nstatus.2⟩, ⟨by omega, nname.2⟩, ⟨by omega, nip.2⟩,
    fun v hv => ⟨by have := (hvols v hv).1; omega, (hvols v hv).2.2⟩⟩, by omega, by omega, hstatus, ?_, ?_,
    hname ▸ hvalid⟩
  · rw [hrec.volumes]
    omega
  · intro t ht
    simp only [StatusRecord.texts, List.mem_append, List.mem_cons, List.not_mem_nil, or_false] at ht
    rcases ht with (rfl | rfl | rfl | rfl | rfl | rfl | rfl) | hv
    · exact nid.1
    · exact nimage.1
    · exact ncommand.1
    · exact ncreated.1
    · exact nstatus.1
    · exact nname.1
    · exact nip.1
    · exact (hvols t hv).2.1

theorem parsed_of_read {name : Text} {file : Option Text} {r : StatusRecord}
    (h : StatusFile.readContainerInfo name file = some r) :
    r.Parsed ∧ r.name = name := by
  unfold StatusFile.readContainerInfo at h
  split at h
  · cases h
  split at h
  · cases h
  split at h
  · cases h
  split at h
  · cases h
  rename_i hparse
  cases h
  obtain ⟨_, _, _, _, _, _, hname⟩ := tdParseContainerInfo_iff.1 hparse
  exact ⟨parsed_of_tdParse hparse, hname⟩

/-! ## Writing and reading back -/

theorem writeContainerInfo_iff {io : Bool} {name : Text} {r : StatusRecord} {file file' : Option Text} :
    StatusFile.writeContainerInfo io name r file = (file', true) ↔
      io = true ∧ tdValidateName name TINYDOCKER_MAX_CONTAINER_NAME = .ok () ∧ name = r.name ∧ r.Writable ∧
        file' = some ((headerLines r ++ r.volumes).flatMap (· ++ ['\n'])) := by
  unfold StatusFile.writeContainerInfo
  constructor
  · intro h
    split at h
    · cases h
    rename_i hname
    simp only [ne_eq, not_or, not_not] at hname
    split at h
    · cases h
    rename_i data hdata
    obtain ⟨hw, rfl⟩ := tdWriteContainerInfo_iff.1 hdata
    split at h
    · rename_i hio
      cases h
      exact ⟨hio, hname.1, hname.2, hw, rfl⟩
    · cases h
  · rintro ⟨rfl, hvalid, rfl, hw, rfl⟩
    rw [if_neg (by simp [hvalid]), tdWriteContainerInfo_iff.2 ⟨hw, rfl⟩]
    rfl

/-- A write that fails leaves the file as it was. -/
theorem writeContainerInfo_failed {io : Bool} {name : Text} {r : StatusRecord} {file file' : Option Text}
    (h : StatusFile.writeContainerInfo io name r file = (file', false)) : file' = file := by
  unfold StatusFile.writeContainerInfo at h
  split at h
  · cases h; rfl
  split at h
  · cases h; rfl
  split at h
  · cases h
  · cases h; rfl

theorem read_written_iff {io : Bool} {name : Text} {r : StatusRecord} {file file' : Option Text}
    (hfits : r.Fits) (h : StatusFile.writeContainerInfo io name r file = (file', true)) :
    StatusFile.readContainerInfo name file' = some r ↔ r.Readable := by
  obtain ⟨-, hvalid, rfl, hw, rfl⟩ := writeContainerInfo_iff.1 h
  constructor
  · intro hread
    have hparsed := parsed_of_read hread
    have hline : ∀ t ∈ r.texts, '\n' ∉ t := hparsed.1.lines
    have hid : '\n' ∉ r.containerId := hline _ (by simp [StatusRecord.texts])
    have hcreated : '\n' ∉ r.created := hline _ (by simp [StatusRecord.texts])
    have hip : '\n' ∉ r.ipAddr := hline _ (by simp [StatusRecord.texts])
    simp only [StatusFile.readContainerInfo] at hread
    split at hread
    · cases hread
    split at hread
    · cases hread
    split at hread
    · cases hread
    rename_i hparse
    cases hread
    obtain ⟨hdetach, eid, ecreated, eip, hvols⟩ :=
      (tdParse_written_iff hfits hw hid hcreated hip hvalid).1 hparse
    exact ⟨hdetach, ⟨hid, last_of_dropCr eid⟩, ⟨hcreated, last_of_dropCr ecreated⟩,
      ⟨hip, last_of_dropCr eip⟩, hvols⟩
  · intro hr
    have hparse := (tdParse_written_iff hfits hw hr.containerId.1 hr.created.1 hr.ipAddr.1 hvalid).2
      ⟨hr.detach, dropCr_of_last hr.containerId.2, dropCr_of_last hr.created.2, dropCr_of_last hr.ipAddr.2,
        hr.volumes⟩
    have hlen := written_length hfits hw hr.detach
    simp only [StatusFile.readContainerInfo]
    rw [if_neg (by simp [hvalid]), if_neg (by omega), hparse]

/-- **The metadata codec.**  A record that was written is read back unchanged if and only if the
reader's own requirements hold for it. -/
theorem metadata_codec_iff (io : Bool) (name : Text) (r : StatusRecord) (file file' : Option Text)
    (hfits : r.Fits) (h : StatusFile.writeContainerInfo io name r file = (file', true)) :
    StatusFile.readContainerInfo name file' = some r ↔ r.Readable :=
  read_written_iff hfits h

/-- `run -d -v /v:/d`, with the volumes as given. -/
def sampleRecord (volumes : List Text) : StatusRecord :=
  ⟨42, 100, 1, "1700000000".toList, "img".toList, "/bin/sh".toList, "2023-11-14 22:13:20".toList,
    "RUNNING".toList, "c".toList, "172.11.11.2".toList, volumes⟩

theorem sampleRecord_fits {volumes : List Text} (h : ∀ v ∈ volumes, InBuffer 512 v) :
    (sampleRecord volumes).Fits := by
  have hbase : (sampleRecord []).Fits :=
    ⟨by decide, by decide, ⟨by decide, by decide⟩, ⟨by decide, by decide⟩, ⟨by decide, by decide⟩,
      ⟨by decide, by decide⟩, ⟨by decide, by decide⟩, ⟨by decide, by decide⟩, ⟨by decide, by decide⟩,
      fun _ hv => (by cases hv)⟩
  exact { hbase with volumes := h }

theorem one_volume_read_back :
    ∃ file, StatusFile.writeContainerInfo true "c".toList (sampleRecord [ "/v:/d:rw".toList]) none =
        (file, true) ∧
      StatusFile.readContainerInfo "c".toList file = some (sampleRecord [ "/v:/d:rw".toList]) :=
  ⟨_, rfl, (metadata_codec_iff true "c".toList (sampleRecord [ "/v:/d:rw".toList]) none _
    (sampleRecord_fits (by intro v hv; rw [List.mem_singleton.1 hv]; exact ⟨by decide, by decide⟩)) rfl).2
    ⟨Or.inr rfl, ⟨by decide, by decide⟩, ⟨by decide, by decide⟩, ⟨by decide, by decide⟩, by decide⟩⟩

/-- An empty volume is written as an empty line, which the reader skips. -/
theorem empty_volume_unreadable :
    (sampleRecord [[]]).Fits ∧
      ∃ file, StatusFile.writeContainerInfo true "c".toList (sampleRecord [[]]) none = (file, true) ∧
        StatusFile.readContainerInfo "c".toList file = none :=
  ⟨sampleRecord_fits (by intro v hv; rw [List.mem_singleton.1 hv]; exact ⟨by decide, by decide⟩),
    _, rfl, by decide +kernel⟩

/-! ## Status updates -/

/-- What a record that was read must have to be written and read again. -/
structure StatusRecord.Rewritable (r : StatusRecord) : Prop where
  image : '\r' ∉ r.image
  command : '\r' ∉ r.command
  volumes : ∀ v ∈ r.volumes, v ≠ [] ∧ '\r' ∉ v
  containerId : r.containerId.getLast? ≠ some '\r'
  created : r.created.getLast? ≠ some '\r'
  ipAddr : r.ipAddr.getLast? ≠ some '\r'

theorem strStatus_mem (status : ContainerStatus) : StatusFile.strStatus status ∈ statusWords := by
  cases status <;> decide

theorem StatusRecord.Parsed.withStatus {r : StatusRecord} (h : r.Parsed) (status : ContainerStatus) :
    ({ r with status := StatusFile.strStatus status } : StatusRecord).Parsed := by
  have hword : InBuffer 10 (StatusFile.strStatus status) ∧ '\n' ∉ StatusFile.strStatus status := by
    cases status <;> exact ⟨⟨by decide, by decide⟩, by decide⟩
  refine ⟨{ h.fits with status := hword.1 }, h.pid, h.detach, strStatus_mem status, h.count, ?_, h.name⟩
  intro t ht
  simp only [StatusRecord.texts, List.mem_append, List.mem_cons, List.not_mem_nil, or_false] at ht
  rcases ht with (rfl | rfl | rfl | rfl | rfl | rfl | rfl) | hv
  · exact h.lines _ (by simp [StatusRecord.texts])
  · exact h.lines _ (by simp [StatusRecord.texts])
  · exact h.lines _ (by simp [StatusRecord.texts])
  · exact h.lines _ (by simp [StatusRecord.texts])
  · exact hword.2
  · exact h.lines _ (by simp [StatusRecord.texts])
  · exact h.lines _ (by simp [StatusRecord.texts])
  · exact h.lines _ (by simp [StatusRecord.texts, hv])

/-- A record that was read is written if no carriage return is left in its checked values. -/
theorem StatusRecord.Parsed.writable_iff {r : StatusRecord} (h : r.Parsed) :
    r.Writable ↔ '\r' ∉ r.image ∧ '\r' ∉ r.command ∧ ∀ v ∈ r.volumes, '\r' ∉ v := by
  have hline := h.lines
  simp only [StatusRecord.texts, List.mem_append, List.mem_cons, List.not_mem_nil, or_false] at hline
  have hname := (tdValidateName_ok h.name).2.2
  constructor
  · exact fun hw => ⟨hw.image.2, hw.command.2, fun v hv => (hw.volumes v hv).2⟩
  · rintro ⟨himage, hcommand, hvols⟩
    exact ⟨h.pid, h.count, h.status, ⟨hline _ (by simp), himage⟩, ⟨hline _ (by simp), hcommand⟩,
      ⟨hline _ (by simp), not_mem_of_nameChar hname (by decide)⟩,
      fun v hv => ⟨hline _ (Or.inr hv), hvols v hv⟩⟩

theorem StatusRecord.Parsed.readable_iff {r : StatusRecord} (h : r.Parsed) :
    r.Readable ↔ r.containerId.getLast? ≠ some '\r' ∧ r.created.getLast? ≠ some '\r' ∧
      r.ipAddr.getLast? ≠ some '\r' ∧ ∀ v ∈ r.volumes, v ≠ [] := by
  have hline := h.lines
  simp only [StatusRecord.texts, List.mem_append, List.mem_cons, List.not_mem_nil, or_false] at hline
  constructor
  · exact fun hr => ⟨hr.containerId.2, hr.created.2, hr.ipAddr.2, hr.volumes⟩
  · rintro ⟨hid, hcreated, hip, hvols⟩
    exact ⟨h.detach, ⟨hline _ (by simp), hid⟩, ⟨hline _ (by simp), hcreated⟩, ⟨hline _ (by simp), hip⟩, hvols⟩

/-- A record that was read is written and read again if and only if it is rewritable. -/
theorem rewrite_iff {name : Text} {r : StatusRecord} (file : Option Text) (h : r.Parsed)
    (hname : r.name = name) :
    (∃ file', StatusFile.writeContainerInfo true name r file = (file', true) ∧
      StatusFile.readContainerInfo name file' = some r) ↔ r.Rewritable := by
  constructor
  · rintro ⟨file', hwrite, hread⟩
    obtain ⟨-, -, -, hw, -⟩ := writeContainerInfo_iff.1 hwrite
    obtain ⟨himage, hcommand, hvols⟩ := h.writable_iff.1 hw
    obtain ⟨hid, hcreated, hip, hne⟩ :=
      h.readable_iff.1 ((read_written_iff h.fits hwrite).1 hread)
    exact ⟨himage, hcommand, fun v hv => ⟨hne v hv, hvols v hv⟩, hid, hcreated, hip⟩
  · intro hr
    have hw := h.writable_iff.2 ⟨hr.image, hr.command, fun v hv => (hr.volumes v hv).2⟩
    have hwrite := (@writeContainerInfo_iff true name r file _).2 ⟨rfl, hname ▸ h.name, hname.symm, hw, rfl⟩
    exact ⟨_, hwrite, (read_written_iff h.fits hwrite).2 (h.readable_iff.2
      ⟨hr.containerId, hr.created, hr.ipAddr, fun v hv => (hr.volumes v hv).1⟩)⟩

/-- **Status updates.**  On an accepted file the update succeeds, and the next read returns the
record with only its status replaced, if and only if the record is rewritable. -/
theorem status_update_iff (name : Text) (status : ContainerStatus) (data : Text) (r : StatusRecord)
    (h : StatusFile.readContainerInfo name (some data) = some r) :
    (∃ file, StatusFile.updateContainerStatus true name status (some data) = (file, true) ∧
        StatusFile.readContainerInfo name file = some { r with status := StatusFile.strStatus status }) ↔
      r.Rewritable := by
  obtain ⟨hparsed, hname⟩ := parsed_of_read h
  have hsame : ({ r with status := StatusFile.strStatus status } : StatusRecord).Rewritable ↔ r.Rewritable :=
    ⟨fun hr => ⟨hr.image, hr.command, hr.volumes, hr.containerId, hr.created, hr.ipAddr⟩,
      fun hr => ⟨hr.image, hr.command, hr.volumes, hr.containerId, hr.created, hr.ipAddr⟩⟩
  simp only [StatusFile.updateContainerStatus, h]
  rw [rewrite_iff (some data) (hparsed.withStatus status) hname, hsame]

/-- A file with CR LF line ends and without a start time. -/
def crlfFile (command : Text) : Text :=
  "pid=42\r\ndetach=1\r\ncontainer_id=1700000000\r\nimage=img\r\ncommand=".toList ++ command ++
    "\r\ncreated=2023-11-14 22:13:20\r\nstatus=RUNNING\r\nip_addr=172.11.11.2\r\nname=c\r\n".toList ++
    "volume_cnt=1\r\n/v:/d:rw\r\n".toList

theorem crlfFile_read : StatusFile.readContainerInfo "c".toList (some (crlfFile "/bin/sh".toList)) =
    some { sampleRecord [ "/v:/d:rw".toList] with pidStartTime := 0 } := by
  decide +kernel

theorem crlf_file_updated :
    ∃ file, StatusFile.updateContainerStatus true "c".toList .exited (some (crlfFile "/bin/sh".toList)) =
        (file, true) ∧
      StatusFile.readContainerInfo "c".toList file =
        some { sampleRecord [ "/v:/d:rw".toList] with pidStartTime := 0, status := "EXITED".toList } :=
  (status_update_iff "c".toList .exited (crlfFile "/bin/sh".toList) _ crlfFile_read).2
    ⟨by decide, by decide, by decide, by decide, by decide, by decide⟩

/-- A second carriage return stays in the value: the reader accepts the file, the writer refuses the
record, and the status cannot be updated. -/
theorem stray_cr_blocks_update :
    (StatusFile.readContainerInfo "c".toList (some (crlfFile "/bin/sh\r".toList))).isSome = true ∧
      StatusFile.updateContainerStatus true "c".toList .stopped (some (crlfFile "/bin/sh\r".toList)) =
        (some (crlfFile "/bin/sh\r".toList), false) := by
  decide +kernel

/-! ## The record of a started container -/

/-- `struct tm`, as far as it is printed; `localtime` decides it. -/
structure BrokenDownTime where
  year : Int
  month : Nat
  day : Nat
  hour : Nat
  minute : Nat
  second : Nat

def twoDigits (n : Nat) : Text := if n < 10 then '0' :: Nat.toDigits 10 n else Nat.toDigits 10 n

/-- `timestamp_to_string`: `%Y-%m-%d %H:%M:%S`. -/
def timestampToString (t : BrokenDownTime) : Text :=
  decimal t.year ++ '-' :: (twoDigits t.month ++ '-' :: (twoDigits t.day ++ ' ' :: (twoDigits t.hour ++
    ':' :: (twoDigits t.minute ++ ':' :: twoDigits t.second))))

/-- The record with the C values of its detach flag and its status. -/
def ContainerInfo.toRecord (i : ContainerInfo) : StatusRecord :=
  ⟨i.pid, i.pidStartTime, if i.detach then 1 else 0, i.containerId, i.image, i.command, i.created,
    StatusFile.strStatus i.status, i.name, i.ipAddr, i.volumes⟩

/-- The words of a command line are C strings. -/
structure RunArguments.CStrings (args : RunArguments) : Prop where
  image : '\x00' ∉ args.image
  words : ∀ w ∈ args.containerArgv, '\x00' ∉ w
  volumes : ∀ v ∈ args.volumes, '\x00' ∉ v.host ∧ '\x00' ∉ v.container

/-- Digits and the separators of dates and addresses. -/
def Plain (t : Text) : Prop := ∀ c ∈ t, c.isDigit = true ∨ c ∈ ['-', ':', ' ', '.']

theorem Plain.not_mem {t : Text} (h : Plain t) {c : Char} (hd : c.isDigit = false)
    (hc : c ∉ ['-', ':', ' ', '.']) : c ∉ t := by
  intro hm
  rcases h c hm with hd' | hc'
  · rw [hd] at hd'
    cases hd'
  · exact hc hc'

theorem Plain.oneLine {t : Text} (h : Plain t) : OneLine t :=
  ⟨h.not_mem (by decide) (by decide),
    fun hl => h.not_mem (c := '\r') (by decide) (by decide) (List.mem_of_getLast? hl)⟩

theorem Plain.noNul {t : Text} (h : Plain t) : '\x00' ∉ t := h.not_mem (by decide) (by decide)

theorem Plain.append {t u : Text} (ht : Plain t) (hu : Plain u) : Plain (t ++ u) := fun c hc =>
  (List.mem_append.1 hc).elim (ht c) (hu c)

theorem Plain.cons {c : Char} {t : Text} (hc : c ∈ ['-', ':', ' ', '.']) (h : Plain t) : Plain (c :: t) := by
  intro x hx
  rcases List.mem_cons.1 hx with rfl | hx
  · exact Or.inr hc
  · exact h x hx

theorem plain_toDigits (n : Nat) : Plain (Nat.toDigits 10 n) := fun _ hc => Or.inl (isDigit_toDigits hc)

theorem plain_decimal (n : Int) : Plain (decimal n) := by
  unfold decimal
  split
  · exact (plain_toDigits _).cons (by decide)
  · exact plain_toDigits _

theorem plain_twoDigits (n : Nat) : Plain (twoDigits n) := by
  unfold twoDigits
  split
  · intro c hc
    rcases List.mem_cons.1 hc with rfl | hc
    · exact Or.inl (by decide)
    · exact plain_toDigits n c hc
  · exact plain_toDigits n

theorem plain_timestampToString (t : BrokenDownTime) : Plain (timestampToString t) :=
  (plain_decimal _).append (((plain_twoDigits _).append (((plain_twoDigits _).append (((plain_twoDigits
    _).append (((plain_twoDigits _).append ((plain_twoDigits _).cons (by decide))).cons (by
    decide))).cons (by decide))).cons (by decide))).cons (by decide))

theorem plain_inetNtop (a : UInt32) : Plain (Ipv4.inetNtop a) := by
  intro c hc
  rcases Ipv4.inetPton_chars (Ipv4.inetPton_inetNtop a) c hc with h | h
  · exact Or.inr (by rw [h]; decide)
  · exact Or.inl h

theorem plain_toString (n : Int) : Plain (toString n).toList := by
  rw [toList_toString]
  exact plain_decimal n

theorem commandText_chars {c : Char} (hc : c ≠ ' ') : ∀ {words : List Text}, (∀ w ∈ words, c ∉ w) →
    c ∉ commandText words
  | [], _ => List.not_mem_nil
  | word :: rest, h => by
    intro hm
    rcases List.mem_append.1 hm with hm | hm
    · exact h word List.mem_cons_self hm
    · obtain ⟨w, hw, hm⟩ := List.mem_flatMap.1 hm
      rcases List.mem_cons.1 hm with rfl | hm
      · exact hc rfl
      · exact h w (List.mem_cons_of_mem _ hw) hm

theorem volumeText_chars {c : Char} (hc : c ∉ ":rwo".toList) {v : VolumeConfig} (hhost : c ∉ v.host)
    (hcontainer : c ∉ v.container) : c ∉ volumeText v := by
  have hsep : c ≠ ':' := fun h => hc (by rw [h]; decide)
  have hro : ∀ x ∈ "ro".toList, x ∈ ":rwo".toList := forall_mem_of_all (by decide)
  have hrw : ∀ x ∈ "rw".toList, x ∈ ":rwo".toList := forall_mem_of_all (by decide)
  have hmode : c ∉ modeWord v.ro := by
    intro hm
    unfold modeWord at hm
    split at hm
    · exact hc (hro c hm)
    · exact hc (hrw c hm)
  simp only [volumeText, List.mem_append, List.mem_cons, not_or]
  exact ⟨hhost, hsep, hcontainer, hsep, hmode⟩

/-- The shape `create_container_info` gives to its record. -/
theorem created_shape {args : RunArguments} {pid : Nat} {startTime : Option Nat} {status : ContainerStatus}
    {address : UInt32} {timestamp : Int} {time : BrokenDownTime} {info : ContainerInfo}
    (hargs : args.CStrings) (hpid : (pid : Int) ≤ INT_MAX) (hstart : ∀ t ∈ startTime, t < 2 ^ 64)
    (hvalid : tdValidateName info.name 127 = .ok ())
    (h : createContainerInfo args pid startTime status (Ipv4.inetNtop address) timestamp
      (timestampToString time) = some info) :
    info.toRecord.Fits ∧ info.toRecord.Readable := by
  obtain ⟨start, rfl, hargs', lid, hlen, lip, rfl⟩ := createContainerInfo_iff.1 h
  have hword : InBuffer 10 (StatusFile.strStatus status) := by
    cases status <;> exact ⟨by decide, by decide⟩
  have hname : '\x00' ∉ args.name := not_mem_of_nameChar (tdValidateName_ok hvalid).2.2 (by decide)
  have hcreated : (timestampToString time).length < 20 := by
    omega
  have hvolumes : ∀ t ∈ (args.volumes.take MAX_RECORDED_VOLUMES).map volumeText, InBuffer 512 t ∧ t ≠ [] := by
    intro t ht
    obtain ⟨v, hv, rfl⟩ := List.mem_map.1 ht
    obtain ⟨hhost, hcontainer⟩ := hargs.volumes v (List.mem_of_mem_take hv)
    exact ⟨⟨(hargs'.volumes v hv).2.2, volumeText_chars (by decide) hhost hcontainer⟩, by simp [volumeText]⟩
  refine ⟨⟨hpid, hstart start rfl, ⟨lid, (plain_toString _).noNul⟩, ⟨hargs'.image, hargs.image⟩,
    ⟨hargs'.command, commandText_chars (by decide) hargs.words⟩,
    ⟨hcreated, (plain_timestampToString time).noNul⟩, hword, ⟨hargs'.name, hname⟩,
    ⟨lip, (plain_inetNtop address).noNul⟩, fun v hv => (hvolumes v hv).1⟩, ⟨?_, (plain_toString _).oneLine,
    (plain_timestampToString time).oneLine, (plain_inetNtop address).oneLine, fun v hv => (hvolumes v hv).2⟩⟩
  cases hdetach : args.detach
  · exact Or.inl (by simp [ContainerInfo.toRecord, RunArguments.record, hdetach])
  · exact Or.inr (by simp [ContainerInfo.toRecord, RunArguments.record, hdetach])

/-! ## The life of a metadata file -/

/-- What happens to the metadata of a started container. -/
inductive StatusEvent where
  | update (io : Bool) (status : ContainerStatus)
  | refresh (io : Bool) (lookup : StatusFile.ProcessLookup)

/-- The callers of `update_container_status` pass `STOPPED` or `EXITED`. -/
def StatusEvent.FromCallers : StatusEvent → Prop
  | .update _ status => status ≠ .running
  | .refresh _ _ => True

namespace StatusFile

/-- The file after one event; a refresh works on a fresh read. -/
def step (name : Text) (file : Option Text) : StatusEvent → Option Text
  | .update io status => (updateContainerStatus io name status file).1
  | .refresh io lookup =>
    match readContainerInfo name file with
    | none => file
    | some r => (refreshContainerStatusIfNeeded io lookup name r file).1

def run (name : Text) (file : Option Text) (events : List StatusEvent) : Option Text :=
  Runs.run (step name) file events

end StatusFile

/-- The record with another status. -/
def StatusRecord.withStatus (r : StatusRecord) (status : ContainerStatus) : StatusRecord :=
  { r with status := StatusFile.strStatus status }

section Life

variable {name : Text} {base : StatusRecord} {file : Option Text} {s status : ContainerStatus}

/-- A rewrite with a new status either stores it or changes nothing. -/
theorem rewrite_outcome (hr : base.Rewritable) (io : Bool)
    (h : StatusFile.readContainerInfo name file = some (base.withStatus s)) (status : ContainerStatus) :
    StatusFile.readContainerInfo name
        (StatusFile.writeContainerInfo io name (base.withStatus status) file).1 =
          some (base.withStatus status) ∨
      (StatusFile.writeContainerInfo io name (base.withStatus status) file).1 = file := by
  obtain ⟨hparsed, hname⟩ := parsed_of_read h
  have hparsed : (base.withStatus status).Parsed := hparsed.withStatus status
  have hr : (base.withStatus status).Rewritable :=
    ⟨hr.image, hr.command, hr.volumes, hr.containerId, hr.created, hr.ipAddr⟩
  cases hw : StatusFile.writeContainerInfo io name (base.withStatus status) file with
  | mk file' ok =>
    cases ok with
    | false => exact Or.inr (writeContainerInfo_failed hw)
    | true =>
      refine Or.inl ((read_written_iff hparsed.fits hw).2 (hparsed.readable_iff.2 ?_))
      exact ⟨hr.containerId, hr.created, hr.ipAddr, fun v hv => (hr.volumes v hv).1⟩

/-- One event keeps the file readable; the status stays or leaves `RUNNING`. -/
theorem step_life (hr : base.Rewritable)
    (h : StatusFile.readContainerInfo name file = some (base.withStatus s)) (ev : StatusEvent)
    (hev : ev.FromCallers) :
    ∃ s', StatusFile.readContainerInfo name (StatusFile.step name file ev) = some (base.withStatus s') ∧
      (s' = s ∨ s' ≠ .running) := by
  cases ev with
  | update io status =>
    show ∃ s', StatusFile.readContainerInfo name (StatusFile.updateContainerStatus io name status file).1 =
      _ ∧ _
    simp only [StatusFile.updateContainerStatus, h]
    rcases rewrite_outcome hr io h status with hread | hsame
    · exact ⟨status, hread, Or.inr hev⟩
    · have hsame : (StatusFile.writeContainerInfo io name
          { base.withStatus s with status := StatusFile.strStatus status } file).1 = file := hsame
      rw [hsame]
      exact ⟨s, h, Or.inl rfl⟩
  | refresh io lookup =>
    simp only [StatusFile.step, h]
    have hkeep : ∃ s', StatusFile.readContainerInfo name file = some (base.withStatus s') ∧
        (s' = s ∨ s' ≠ .running) := ⟨s, h, Or.inl rfl⟩
    have hexit : ∃ s', StatusFile.readContainerInfo name (StatusFile.writeContainerInfo io name
        { base.withStatus s with status := StatusFile.strStatus .exited } file).1 =
          some (base.withStatus s') ∧ (s' = s ∨ s' ≠ .running) := by
      rcases rewrite_outcome hr io h .exited with hread | hsame
      · exact ⟨.exited, hread, Or.inr (by decide)⟩
      · have hsame : (StatusFile.writeContainerInfo io name
            { base.withStatus s with status := StatusFile.strStatus .exited } file).1 = file := hsame
        rw [hsame]
        exact hkeep
    unfold StatusFile.refreshContainerStatusIfNeeded
    simp only
    split
    · exact hkeep
    split
    · exact hkeep
    split
    · exact hkeep
    split
    · exact hkeep
    · exact hexit
    · split
      · exact hkeep
      · exact hexit

theorem run_life (hr : base.Rewritable) {events : List StatusEvent}
    (h : StatusFile.readContainerInfo name file = some (base.withStatus s))
    (hevents : ∀ ev ∈ events, ev.FromCallers) :
    ∃ s', StatusFile.readContainerInfo name (StatusFile.run name file events) =
      some (base.withStatus s') ∧ (s' = s ∨ s' ≠ .running) := by
  refine Runs.run_of_mem (I := fun file => ∃ s', StatusFile.readContainerInfo name file =
    some (base.withStatus s') ∧ (s' = s ∨ s' ≠ .running)) ?_ ⟨s, h, Or.inl rfl⟩ hevents
  rintro file ev ⟨s₁, h₁, hs₁⟩ hev
  obtain ⟨s₂, h₂, hs₂⟩ := step_life hr h₁ ev hev
  refine ⟨s₂, h₂, ?_⟩
  rcases hs₂ with rfl | hs₂
  · exact hs₁
  · exact Or.inr hs₂

end Life

/-- **The life of the metadata.**  After a first write of a created record, through any updates and
refreshes, every read succeeds and returns that record but for the status, and a status that has left
`RUNNING` never returns to it. -/
theorem metadata_life (args : RunArguments) (pid : Nat) (startTime : Option Nat) (address : UInt32)
    (timestamp : Int) (time : BrokenDownTime) (info : ContainerInfo) (io : Bool) (old file : Option Text)
    (before after : List StatusEvent) (hargs : args.CStrings) (hpid : (pid : Int) ≤ INT_MAX)
    (hstart : ∀ t ∈ startTime, t < 2 ^ 64)
    (hcreate : createContainerInfo args pid startTime .running (Ipv4.inetNtop address) timestamp
      (timestampToString time) = some info)
    (hwrite : StatusFile.writeContainerInfo io args.name info.toRecord old = (file, true))
    (hbefore : ∀ ev ∈ before, ev.FromCallers) (hafter : ∀ ev ∈ after, ev.FromCallers) :
    ∃ s₁ s₂ : ContainerStatus,
      StatusFile.readContainerInfo args.name (StatusFile.run args.name file before) =
        some (info.toRecord.withStatus s₁) ∧
      StatusFile.readContainerInfo args.name (StatusFile.run args.name file (before ++ after)) =
        some (info.toRecord.withStatus s₂) ∧
      (s₁ ≠ .running → s₂ ≠ .running) := by
  obtain ⟨-, hvalid, hname, hw, -⟩ := writeContainerInfo_iff.1 hwrite
  have hname : args.name = info.name := hname
  obtain ⟨hfits, hread⟩ := created_shape hargs hpid hstart (hname ▸ hvalid) hcreate
  have hr : info.toRecord.Rewritable :=
    ⟨hw.image.2, hw.command.2, fun v hv => ⟨hread.volumes v hv, (hw.volumes v hv).2⟩, hread.containerId.2,
      hread.created.2, hread.ipAddr.2⟩
  have hfirst : StatusFile.readContainerInfo args.name file = some (info.toRecord.withStatus .running) := by
    rw [(read_written_iff hfits hwrite).2 hread]
    obtain ⟨-, -, hstatus, -⟩ := createContainerInfo_ok hcreate
    simp only [StatusRecord.withStatus, ContainerInfo.toRecord, hstatus]
  obtain ⟨s₁, h₁, -⟩ := run_life hr hfirst hbefore
  obtain ⟨s₂, h₂, hs₂⟩ := run_life hr h₁ hafter
  refine ⟨s₁, s₂, h₁, ?_, fun hs => ?_⟩
  · rw [StatusFile.run, Runs.run_append]
    exact h₂
  · rcases hs₂ with rfl | hs₂
    · exact hs
    · exact hs₂

/-- The record of `run -d -v /v:/d -v /v:/d`. -/
def startedInfo : ContainerInfo :=
  ⟨7, 100, true, "1700000000".toList, "img".toList, "/bin/sh".toList, "2023-11-14 22:13:20".toList, .running,
    "c".toList, "172.11.11.2".toList, [ "/v:/d:rw".toList, "/v:/d:rw".toList]⟩

/-- A container is started, found dead, and then an update fails. -/
theorem metadata_of_dead_container :
    createContainerInfo (repeatedVolumes 2) 7 (some 100) .running (Ipv4.inetNtop 0xAC0B0B02) 1700000000
        (timestampToString ⟨2023, 11, 14, 22, 13, 20⟩) = some startedInfo ∧
      ∃ file, StatusFile.writeContainerInfo true "c".toList startedInfo.toRecord none = (file, true) ∧
        ∃ s₁ s₂ : ContainerStatus,
          StatusFile.readContainerInfo "c".toList (StatusFile.run "c".toList file [.refresh true .gone]) =
            some (startedInfo.toRecord.withStatus s₁) ∧
          StatusFile.readContainerInfo "c".toList
            (StatusFile.run "c".toList file ([.refresh true .gone] ++ [.update false .stopped])) =
              some (startedInfo.toRecord.withStatus s₂) ∧
          (s₁ ≠ .running → s₂ ≠ .running) :=
  ⟨by decide +kernel, _, rfl, metadata_life (repeatedVolumes 2) 7 (some 100) 0xAC0B0B02 1700000000
    ⟨2023, 11, 14, 22, 13, 20⟩ startedInfo true none _ [.refresh true .gone] [.update false .stopped]
    ⟨by decide, by decide, by decide⟩ (by decide) (by decide) (by decide +kernel) rfl
    (by simp [StatusEvent.FromCallers]) (by simp [StatusEvent.FromCallers])⟩

end TinyDocker
