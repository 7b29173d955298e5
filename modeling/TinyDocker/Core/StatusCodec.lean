import Mathlib.Data.List.Nodup
import Mathlib.Data.List.Perm.Basic
import TinyDocker.Core.Safety

/-!
# The metadata codec (`core/status_codec.c`)

`tdWriteContainerInfo` prints a record as eleven `key=value` lines and one line for each volume;
`tdParseContainerInfo` reads a metadata file: it skips empty lines, drops one carriage return at the
end of a line, and takes every line after `volume_cnt` as a volume.

`StatusRecord` is `struct container_info` with all the values its C types can hold; the other modules
work with `ContainerInfo`, whose status and detach flag are what the decoder can return.

Principal results:

* `tdParseContainerInfo_iff` — the files that are accepted and the record each of them stands for;
* `metadata_grammar` — the accepted language, and that the order of the header lines does not matter.
-/

set_option autoImplicit false

namespace TinyDocker

open CText

def INT_MAX : Int := 2 ^ 31 - 1

/-- `struct container_info`; `volume_cnt` is the length of `volumes`. -/
structure StatusRecord where
  pid : Int
  pidStartTime : Nat
  detach : Int
  containerId : Text
  image : Text
  command : Text
  created : Text
  status : Text
  name : Text
  ipAddr : Text
  volumes : List Text
  deriving DecidableEq, Repr

/-- `memset(info, 0, sizeof(*info))`. -/
def StatusRecord.zero : StatusRecord := ⟨0, 0, 0, [], [], [], [], [], [], [], []⟩

/-- A C string in a buffer of that size. -/
def InBuffer (size : Nat) (text : Text) : Prop := text.length < size ∧ '\x00' ∉ text

/-- What the C types guarantee. -/
structure StatusRecord.Fits (r : StatusRecord) : Prop where
  pid : r.pid ≤ INT_MAX
  pidStartTime : r.pidStartTime < 2 ^ 64
  containerId : InBuffer 128 r.containerId
  image : InBuffer 128 r.image
  command : InBuffer 512 r.command
  created : InBuffer 20 r.created
  status : InBuffer 10 r.status
  name : InBuffer 128 r.name
  ipAddr : InBuffer 16 r.ipAddr
  volumes : ∀ v ∈ r.volumes, InBuffer 512 v

inductive MetadataField where
  | pid
  | detach
  | id
  | image
  | command
  | created
  | status
  | ip
  | name
  | volumeCount
  | pidStart
  deriving DecidableEq, Repr

def MetadataField.key : MetadataField → Text
  | .pid => "pid".toList
  | .detach => "detach".toList
  | .id => "container_id".toList
  | .image => "image".toList
  | .command => "command".toList
  | .created => "created".toList
  | .status => "status".toList
  | .ip => "ip_addr".toList
  | .name => "name".toList
  | .volumeCount => "volume_cnt".toList
  | .pidStart => "pid_start_time".toList

/-- `required_fields`: all but the start time. -/
def requiredFields : List MetadataField :=
  [.pid, .detach, .id, .image, .command, .created, .status, .ip, .name, .volumeCount]

def allFields : List MetadataField := .pidStart :: requiredFields

/-- The comparisons of `parse_key_value`. -/
def fieldOf (key : Text) : Option MetadataField := allFields.find? fun f => decide (f.key = key)

def statusWords : List Text := [ "RUNNING".toList, "STOPPED".toList, "EXITED".toList]

/-! ## The reader -/

/-- `copy_field`. -/
def copyField (size : Nat) (value field : Text) : Except String Text :=
  if size ≤ value.length then .error ("metadata field is too long: " ++ String.ofList field)
  else .ok value

/-- `parse_unsigned_long_long`. -/
def parseUnsignedLongLong (text field : Text) : Except String Nat :=
  match strtoull text with
  | some (parsed, []) => .ok parsed
  | _ => .error ("invalid numeric metadata field: " ++ String.ofList field)

structure ParseState where
  info : StatusRecord
  volumeCnt : Int
  seen : List MetadataField

/-- The value of one field, after `claim_field`. -/
def storeField (field : MetadataField) (value : Text) (st : ParseState) : Except String ParseState :=
  match field with
  | .pid => (tdParseLong value 1 INT_MAX).map fun n => { st with info := { st.info with pid := n } }
  | .pidStart => (parseUnsignedLongLong value field.key).map fun n =>
      { st with info := { st.info with pidStartTime := n } }
  | .detach => (tdParseLong value 0 1).map fun n => { st with info := { st.info with detach := n } }
  | .id => (copyField 128 value field.key).map fun t =>
      { st with info := { st.info with containerId := t } }
  | .image => (copyField 128 value field.key).map fun t => { st with info := { st.info with image := t } }
  | .command => (copyField 512 value field.key).map fun t =>
      { st with info := { st.info with command := t } }
  | .created => (copyField 20 value field.key).map fun t =>
      { st with info := { st.info with created := t } }
  | .status =>
    if value ∈ statusWords then .ok { st with info := { st.info with status := value } }
    else .error ("invalid metadata status: " ++ String.ofList value)
  | .ip => (copyField 16 value field.key).map fun t => { st with info := { st.info with ipAddr := t } }
  | .name => (copyField 128 value field.key).map fun t => { st with info := { st.info with name := t } }
  | .volumeCount => (tdParseLong value 0 32).map fun n => { st with volumeCnt := n }

/-- `parse_key_value`. -/
def parseKeyValue (key value : Text) (st : ParseState) : Except String ParseState :=
  match fieldOf key with
  | none => .error ("unknown metadata field: " ++ String.ofList key)
  | some field =>
    if field ∈ st.seen then
      -- the status branch overwrites the message of `claim_field`
      .error (if field = .status then "invalid metadata status: " ++ String.ofList value
        else "duplicate metadata field: " ++ String.ofList key)
    else storeField field value { st with seen := field :: st.seen }

/-- A carriage return at the end of a line is dropped. -/
def dropCr (line : Text) : Text := if line.getLast? = some '\r' then line.dropLast else line

/-- One round of the line loop of `td_parse_container_info`, after `dropCr`. -/
def parseMetadataLine (st : ParseState) (line : Text) : Except String ParseState :=
  if .volumeCount ∈ st.seen then
    if st.volumeCnt ≤ st.info.volumes.length then .error "metadata has extra volume entries"
    else (copyField 512 line "volume".toList).map fun t =>
      { st with info := { st.info with volumes := st.info.volumes ++ [t] } }
  else match cut '=' line with
    | none => .error "malformed metadata line"
    | some (key, value) =>
      if key = [] then .error "malformed metadata line" else parseKeyValue key value st

def parseMetadataLines : ParseState → List Text → Except String ParseState
  | st, [] => .ok st
  | st, line :: rest =>
    match parseMetadataLine st line with
    | .error e => .error e
    | .ok st' => parseMetadataLines st' rest

/-- The checks after the line loop. -/
def finishMetadata (expectedName : Text) (st : ParseState) : Except String StatusRecord :=
  if requiredFields.all (st.seen.contains ·) = false then .error "metadata is missing required fields"
  else if (st.info.volumes.length : Int) ≠ st.volumeCnt then
    .error "metadata volume count does not match entries"
  else if tdValidateName st.info.name 127 ≠ .ok () ∨ st.info.name ≠ expectedName then
    .error "metadata name does not match file name"
  else .ok st.info

/-- `td_parse_container_info`. -/
def tdParseContainerInfo (data expectedName : Text) : Except String StatusRecord :=
  if '\x00' ∈ data then .error "metadata contains a NUL byte"
  else match parseMetadataLines ⟨.zero, 0, []⟩ ((tokens (· == '\n') data).map dropCr) with
    | .error e => .error e
    | .ok st => finishMetadata expectedName st

/-! ## The writer -/

/-- `contains_record_separator`. -/
def containsRecordSeparator (value : Text) : Bool := value.contains '\n' || value.contains '\r'

/-- `%d`. -/
def decimal (n : Int) : Text := if n < 0 then '-' :: Nat.toDigits 10 n.natAbs else Nat.toDigits 10 n.natAbs

def headerLine (field : MetadataField) (value : Text) : Text := field.key ++ '=' :: value

/-- The lines of the header, in the order of the format string. -/
def headerLines (r : StatusRecord) : List Text :=
  [headerLine .pid (decimal r.pid), headerLine .pidStart (Nat.toDigits 10 r.pidStartTime),
    headerLine .detach (decimal r.detach), headerLine .id r.containerId, headerLine .image r.image,
    headerLine .command r.command, headerLine .created r.created, headerLine .status r.status,
    headerLine .ip r.ipAddr, headerLine .name r.name,
    headerLine .volumeCount (Nat.toDigits 10 r.volumes.length)]

/-- `td_write_container_info`: every line ends in a newline. -/
def tdWriteContainerInfo (r : StatusRecord) : Except String Text :=
  if r.pid ≤ 0 ∨ 32 < r.volumes.length ∨ r.status ∉ statusWords ∨ containsRecordSeparator r.image ∨
      containsRecordSeparator r.command ∨ containsRecordSeparator r.name then
    .error "container metadata contains invalid values"
  else if r.volumes.any containsRecordSeparator then .error "failed to write metadata volume"
  else .ok ((headerLines r ++ r.volumes).flatMap (· ++ ['\n']))

/-! ## Fields -/

theorem fieldOf_key (f : MetadataField) : fieldOf f.key = some f := by
  cases f <;> decide

theorem key_of_fieldOf {key : Text} {f : MetadataField} (h : fieldOf key = some f) : f.key = key := by
  have hf := List.find?_some h
  exact of_decide_eq_true hf

theorem mem_allFields (f : MetadataField) : f ∈ allFields := by
  cases f <;> decide

theorem key_plain (f : MetadataField) : f.key ≠ [] ∧ '=' ∉ f.key := by
  cases f <;> decide

theorem key_injective {f g : MetadataField} (h : f.key = g.key) : f = g :=
  Option.some.inj ((fieldOf_key f).symm.trans (h ▸ fieldOf_key g))

theorem map_eq_ok {ε α β : Type} {x : Except ε α} {f : α → β} {b : β} (h : x.map f = .ok b) :
    ∃ a, x = .ok a ∧ b = f a := by
  cases x with
  | error e => cases h
  | ok a => cases h; exact ⟨a, rfl, rfl⟩

theorem copyField_ok {size : Nat} {value field t : Text} (h : copyField size value field = .ok t) :
    value.length < size ∧ t = value := by
  unfold copyField at h
  split at h
  · cases h
  · rename_i hlen
    cases h
    exact ⟨Nat.lt_of_not_le hlen, rfl⟩

theorem copyField_of_lt {size : Nat} {value : Text} (h : value.length < size) (field : Text) :
    copyField size value field = .ok value := by
  unfold copyField
  rw [if_neg (by omega)]

theorem parseUnsignedLongLong_ok {text field : Text} {n : Nat}
    (h : parseUnsignedLongLong text field = .ok n) : strtoull text = some (n, []) := by
  unfold parseUnsignedLongLong at h
  split at h
  · rename_i parsed hs
    cases h
    exact hs
  · cases h

/-- The constraint on the value of a field. -/
def MetadataField.accepts : MetadataField → Text → Prop
  | .pid, v => ∃ n, tdParseLong v 1 INT_MAX = .ok n
  | .pidStart, v => ∃ n, strtoull v = some (n, [])
  | .detach, v => ∃ n, tdParseLong v 0 1 = .ok n
  | .id, v => v.length ≤ 127
  | .image, v => v.length ≤ 127
  | .command, v => v.length ≤ 511
  | .created, v => v.length ≤ 19
  | .status, v => v ∈ statusWords
  | .ip, v => v.length ≤ 15
  | .name, v => v.length ≤ 127
  | .volumeCount, v => ∃ n, tdParseLong v 0 32 = .ok n

/-- What a value stands for; `cnt` is the number of volumes. -/
def StatusRecord.Holds (r : StatusRecord) (cnt : Int) : MetadataField → Text → Prop
  | .pid, v => tdParseLong v 1 INT_MAX = .ok r.pid
  | .pidStart, v => strtoull v = some (r.pidStartTime, [])
  | .detach, v => tdParseLong v 0 1 = .ok r.detach
  | .id, v => v.length ≤ 127 ∧ r.containerId = v
  | .image, v => v.length ≤ 127 ∧ r.image = v
  | .command, v => v.length ≤ 511 ∧ r.command = v
  | .created, v => v.length ≤ 19 ∧ r.created = v
  | .status, v => v ∈ statusWords ∧ r.status = v
  | .ip, v => v.length ≤ 15 ∧ r.ipAddr = v
  | .name, v => v.length ≤ 127 ∧ r.name = v
  | .volumeCount, v => tdParseLong v 0 32 = .ok cnt

theorem StatusRecord.Holds.accepts {r : StatusRecord} {cnt : Int} {f : MetadataField} {v : Text}
    (h : r.Holds cnt f v) : f.accepts v := by
  cases f with
  | pid | pidStart | detach | volumeCount => exact ⟨_, h⟩
  | id | image | command | created | status | ip | name => exact h.1

/-- What storing one field does to the others. -/
structure Stored (f : MetadataField) (st st' : ParseState) : Prop where
  seen : st'.seen = st.seen
  volumes : st'.info.volumes = st.info.volumes
  start : f ≠ .pidStart → st'.info.pidStartTime = st.info.pidStartTime
  others : ∀ g, g ≠ f → ∀ w, st.info.Holds st.volumeCnt g w → st'.info.Holds st'.volumeCnt g w

theorem storeField_ok {f : MetadataField} {v : Text} {st st' : ParseState}
    (h : storeField f v st = .ok st') : st'.info.Holds st'.volumeCnt f v ∧ Stored f st st' := by
  cases f with
  | pid | detach | volumeCount =>
    obtain ⟨n, hn, rfl⟩ := map_eq_ok h
    refine ⟨hn, rfl, rfl, fun _ => rfl, fun g hg w hw => ?_⟩
    cases g <;> first | exact hw | exact absurd rfl hg
  | pidStart =>
    obtain ⟨n, hn, rfl⟩ := map_eq_ok h
    refine ⟨parseUnsignedLongLong_ok hn, rfl, rfl, fun hc => absurd rfl hc, fun g hg w hw => ?_⟩
    cases g <;> first | exact hw | exact absurd rfl hg
  | status =>
    simp only [storeField] at h
    split at h
    · rename_i hword
      cases h
      refine ⟨⟨hword, rfl⟩, rfl, rfl, fun _ => rfl, fun g hg w hw => ?_⟩
      cases g <;> first | exact hw | exact absurd rfl hg
    · cases h
  | id | image | command | created | ip | name =>
    obtain ⟨t, ht, rfl⟩ := map_eq_ok h
    obtain ⟨hlen, rfl⟩ := copyField_ok ht
    refine ⟨⟨Nat.le_of_lt_succ hlen, rfl⟩, rfl, rfl, fun _ => rfl, fun g hg w hw => ?_⟩
    cases g <;> first | exact hw | exact absurd rfl hg

theorem storeField_of_accepts {f : MetadataField} {v : Text} (h : f.accepts v) (st : ParseState) :
    ∃ st', storeField f v st = .ok st' := by
  cases f with
  | pid | detach | volumeCount =>
    obtain ⟨n, hn⟩ := h
    simp only [storeField, hn]
    exact ⟨_, rfl⟩
  | pidStart =>
    obtain ⟨n, hn⟩ := h
    simp only [storeField, parseUnsignedLongLong, hn]
    exact ⟨_, rfl⟩
  | status =>
    have hword : v ∈ statusWords := h
    simp only [storeField, hword, if_true]
    exact ⟨_, rfl⟩
  | id | image | command | created | ip | name =>
    simp only [storeField, copyField_of_lt (Nat.lt_succ_of_le h)]
    exact ⟨_, rfl⟩

/-! ## The line loop -/

theorem cut_headerLine (f : MetadataField) (v : Text) : cut '=' (headerLine f v) = some (f.key, v) :=
  cut_append (key_plain f).2 v

/-- In the header, a line stores one field that was not seen before. -/
theorem parseMetadataLine_header {st st' : ParseState} {line : Text} (hmode : .volumeCount ∉ st.seen)
    (h : parseMetadataLine st line = .ok st') :
    ∃ f v, line = headerLine f v ∧ f ∉ st.seen ∧
      storeField f v { st with seen := f :: st.seen } = .ok st' := by
  unfold parseMetadataLine at h
  rw [if_neg hmode] at h
  split at h
  · cases h
  rename_i key value hcut
  split at h
  · cases h
  unfold parseKeyValue at h
  split at h
  · cases h
  rename_i f hf
  split at h
  · cases h
  · rename_i hnew
    refine ⟨f, value, ?_, hnew, h⟩
    rw [headerLine, key_of_fieldOf hf]
    exact (cut_eq_some hcut).1

theorem parseMetadataLine_of_header {st : ParseState} {f : MetadataField} (v : Text)
    (hmode : .volumeCount ∉ st.seen) (hnew : f ∉ st.seen) :
    parseMetadataLine st (headerLine f v) = storeField f v { st with seen := f :: st.seen } := by
  unfold parseMetadataLine parseKeyValue
  rw [if_neg hmode, cut_headerLine]
  simp only [(key_plain f).1, if_false, fieldOf_key, hnew]

def ParseState.addVolumes (st : ParseState) (vols : List Text) : ParseState :=
  { st with info := { st.info with volumes := st.info.volumes ++ vols } }

/-- After `volume_cnt` every line is a volume. -/
theorem parseMetadataLines_volumes : ∀ {vols : List Text} {st st' : ParseState},
    .volumeCount ∈ st.seen → (parseMetadataLines st vols = .ok st' ↔
      st' = st.addVolumes vols ∧ (∀ v ∈ vols, v.length ≤ 511) ∧
        (vols ≠ [] → (st.info.volumes.length + vols.length : Int) ≤ st.volumeCnt))
  | [], st, st', _ => by
    simp only [parseMetadataLines, Except.ok.injEq, ParseState.addVolumes, List.append_nil]
    exact ⟨fun h => ⟨h.symm, by simp, by simp⟩, fun h => h.1.symm⟩
  | v :: vols, st, st', hmode => by
    simp only [parseMetadataLines, parseMetadataLine, hmode, if_true]
    by_cases hfull : st.volumeCnt ≤ st.info.volumes.length
    · rw [if_pos hfull]
      refine ⟨fun h => (by cases h), fun ⟨_, _, hroom⟩ => ?_⟩
      have hle := hroom (by simp)
      simp only [List.length_cons] at hle
      omega
    rw [if_neg hfull]
    by_cases hlen : v.length ≤ 511
    · rw [copyField_of_lt (by omega)]
      show parseMetadataLines (st.addVolumes [v]) vols = .ok st' ↔ _
      rw [@parseMetadataLines_volumes vols (st.addVolumes [v]) st' hmode]
      simp only [ParseState.addVolumes, List.append_assoc, List.singleton_append, List.forall_mem_cons,
        hlen, true_and, List.length_append, List.length_cons, List.length_nil, ne_eq, reduceCtorEq,
        not_false_eq_true, forall_const]
      refine and_congr_right fun _ => and_congr_right fun _ => ?_
      cases vols with
      | nil =>
        refine ⟨fun _ => ?_, fun _ hc => absurd rfl hc⟩
        simp only [List.length_nil]
        omega
      | cons w vols =>
        simp only [List.length_cons, reduceCtorEq, not_false_eq_true, forall_const]
        omega
    · have hcopy : copyField 512 v "volume".toList =
          .error ("metadata field is too long: " ++ String.ofList "volume".toList) := by
        unfold copyField
        rw [if_pos (by omega)]
      rw [hcopy]
      refine ⟨fun h => (by cases h), fun ⟨_, hall, _⟩ => absurd (hall v List.mem_cons_self) hlen⟩

/-- Header lines other than `volume_cnt`, one field each, none of them seen before. -/
theorem parseMetadataLines_front : ∀ {front : List (MetadataField × Text)} {st : ParseState},
    .volumeCount ∉ st.seen → .volumeCount ∉ front.map (·.1) →
    (front.map (·.1)).Nodup → (∀ p ∈ front, p.1 ∉ st.seen) → (∀ p ∈ front, p.1.accepts p.2) →
    ∃ st', (∀ rest, parseMetadataLines st (front.map (fun p => headerLine p.1 p.2) ++ rest) =
        parseMetadataLines st' rest) ∧
      (∀ f, f ∈ st'.seen ↔ f ∈ st.seen ∨ f ∈ front.map (·.1)) ∧
      st'.info.volumes = st.info.volumes ∧
      (.pidStart ∉ front.map (·.1) → st'.info.pidStartTime = st.info.pidStartTime) ∧
      (∀ p ∈ front, st'.info.Holds st'.volumeCnt p.1 p.2) ∧
      ∀ f w, f ∉ front.map (·.1) → st.info.Holds st.volumeCnt f w → st'.info.Holds st'.volumeCnt f w
  | [], st, _, _, _, _, _ => ⟨st, fun _ => rfl, by simp, rfl, fun _ => rfl, by simp, fun _ _ _ h => h⟩
  | (f, v) :: front, st, hmode, hvol, hnodup, hnew, hacc => by
    simp only [List.map_cons, List.mem_cons, not_or] at hvol
    simp only [List.map_cons, List.nodup_cons] at hnodup
    have hfnew : f ∉ st.seen := hnew (f, v) List.mem_cons_self
    obtain ⟨st₁, h₁⟩ := storeField_of_accepts (hacc (f, v) List.mem_cons_self)
      { st with seen := f :: st.seen }
    obtain ⟨hholds, hseen, hvols, hstart, hothers⟩ := storeField_ok h₁
    have hmode₁ : .volumeCount ∉ st₁.seen := by
      rw [hseen]
      simp only [List.mem_cons, not_or]
      exact ⟨hvol.1, hmode⟩
    have hnew₁ : ∀ p ∈ front, p.1 ∉ st₁.seen := by
      intro p hp
      rw [hseen]
      simp only [List.mem_cons, not_or]
      refine ⟨fun he => hnodup.1 (he ▸ List.mem_map_of_mem hp), hnew p (List.mem_cons_of_mem _ hp)⟩
    obtain ⟨st', hrun, hseen', hvols', hstart', hheld, hkept⟩ := parseMetadataLines_front hmode₁
      hvol.2 hnodup.2 hnew₁ fun p hp => hacc p (List.mem_cons_of_mem _ hp)
    refine ⟨st', fun rest => ?_, fun g => ?_, hvols'.trans hvols, fun hno => ?_, fun p hp => ?_,
      fun g w hg hw => ?_⟩
    · rw [List.map_cons, List.cons_append, parseMetadataLines,
        parseMetadataLine_of_header v hmode hfnew, h₁]
      exact hrun rest
    · rw [hseen' g, hseen]
      simp only [List.map_cons, List.mem_cons]
      rw [or_assoc, or_left_comm]
    · simp only [List.map_cons, List.mem_cons, not_or] at hno
      rw [hstart' hno.2, hstart fun he => hno.1 he.symm]
    · rcases List.mem_cons.1 hp with rfl | hp
      · exact hkept f v hnodup.1 hholds
      · exact hheld p hp
    · simp only [List.map_cons, List.mem_cons, not_or] at hg
      exact hkept g w hg.2 (hothers g hg.1 w hw)

/-- What the loop has read when it ends after `volume_cnt`. -/
theorem parseMetadataLines_split : ∀ {lines : List Text} {st st' : ParseState},
    .volumeCount ∉ st.seen → parseMetadataLines st lines = .ok st' → .volumeCount ∈ st'.seen →
    ∃ (front : List (MetadataField × Text)) (cnt : Text) (vols : List Text),
      lines = front.map (fun p => headerLine p.1 p.2) ++ headerLine .volumeCount cnt :: vols ∧
      .volumeCount ∉ front.map (·.1) ∧ (front.map (·.1)).Nodup ∧ (∀ p ∈ front, p.1 ∉ st.seen) ∧
      (∀ p ∈ front, p.1.accepts p.2) ∧ MetadataField.volumeCount.accepts cnt
  | [], st, st', hmode, h, hend => by
    cases h
    exact absurd hend hmode
  | line :: lines, st, st', hmode, h, hend => by
    unfold parseMetadataLines at h
    split at h
    · cases h
    rename_i st₁ h₁
    obtain ⟨f, v, rfl, hfnew, hstore⟩ := parseMetadataLine_header hmode h₁
    obtain ⟨hholds, hseen, -⟩ := storeField_ok hstore
    by_cases hf : f = .volumeCount
    · subst hf
      exact ⟨[], v, lines, rfl, by simp, by simp, by simp, by simp, hholds.accepts⟩
    · have hmode₁ : .volumeCount ∉ st₁.seen := by
        rw [hseen]
        simp only [List.mem_cons, not_or]
        exact ⟨fun he => hf he.symm, hmode⟩
      obtain ⟨front, cnt, vols, rfl, hvol, hnodup, hnew, hacc, hcnt⟩ :=
        parseMetadataLines_split hmode₁ h hend
      refine ⟨(f, v) :: front, cnt, vols, rfl, ?_, ?_, fun p hp => ?_, fun p hp => ?_, hcnt⟩
      · simp only [List.map_cons, List.mem_cons, not_or]
        exact ⟨fun he => hf he.symm, hvol⟩
      · simp only [List.map_cons, List.nodup_cons]
        refine ⟨fun hm => ?_, hnodup⟩
        obtain ⟨p, hp, hpf⟩ := List.mem_map.1 hm
        have := hnew p hp
        rw [hseen, hpf] at this
        exact this List.mem_cons_self
      · rcases List.mem_cons.1 hp with rfl | hp
        · exact hfnew
        · have := hnew p hp
          rw [hseen] at this
          exact fun hm => this (List.mem_cons_of_mem _ hm)
      · rcases List.mem_cons.1 hp with rfl | hp
        · exact hholds.accepts
        · exact hacc p hp

/-! ## Accepted files -/

/-- The non-empty lines of a file, without their carriage returns. -/
def metadataLines (data : Text) : List Text :=
  ((pieces '\n' data).filter fun line => decide (line ≠ [])).map dropCr

/-- The shape of a file: header lines of distinct fields with all required ones, the last of them
`volume_cnt`, and then the volumes. -/
structure FileShape (data : Text) (front : List (MetadataField × Text)) (cnt : Text) (vols : List Text) :
    Prop where
  noNul : '\x00' ∉ data
  lines : metadataLines data =
    front.map (fun p => headerLine p.1 p.2) ++ headerLine .volumeCount cnt :: vols
  fresh : .volumeCount ∉ front.map (·.1)
  distinct : (front.map (·.1)).Nodup
  required : ∀ f ∈ requiredFields, f ≠ .volumeCount → f ∈ front.map (·.1)
  volumes : ∀ v ∈ vols, v.length ≤ 511

/-- The record a file of that shape stands for. -/
structure FileRecord (front : List (MetadataField × Text)) (cnt : Text) (vols : List Text)
    (r : StatusRecord) : Prop where
  values : ∀ p ∈ front, r.Holds vols.length p.1 p.2
  count : tdParseLong cnt 0 32 = .ok vols.length
  start : .pidStart ∉ front.map (·.1) → r.pidStartTime = 0
  volumes : r.volumes = vols

theorem finishMetadata_iff {expected : Text} {st : ParseState} {r : StatusRecord} :
    finishMetadata expected st = .ok r ↔ (∀ f ∈ requiredFields, f ∈ st.seen) ∧
      (st.info.volumes.length : Int) = st.volumeCnt ∧ tdValidateName expected 127 = .ok () ∧
      st.info.name = expected ∧ r = st.info := by
  have hall : requiredFields.all (st.seen.contains ·) = true ↔ ∀ f ∈ requiredFields, f ∈ st.seen := by
    simp only [List.all_eq_true, List.contains_iff_mem]
  unfold finishMetadata
  constructor
  · intro h
    split at h
    · cases h
    rename_i hreq
    split at h
    · cases h
    rename_i hcount
    split at h
    · cases h
    rename_i hname
    cases h
    simp only [not_or, not_not] at hname hcount
    exact ⟨hall.1 (by simpa using hreq), hcount, hname.2 ▸ hname.1, hname.2, rfl⟩
  · rintro ⟨hreq, hcount, hvalid, rfl, rfl⟩
    rw [if_neg (by rw [hall.2 hreq]; decide), if_neg (by simpa using hcount), if_neg (by simp [hvalid])]

/-- The state after the header of a file. -/
theorem parseMetadataLines_header {front : List (MetadataField × Text)} {cnt : Text}
    (hfresh : .volumeCount ∉ front.map (·.1)) (hdistinct : (front.map (·.1)).Nodup)
    (hacc : ∀ p ∈ front, p.1.accepts p.2) (hcnt : MetadataField.volumeCount.accepts cnt) :
    ∃ st : ParseState, (∀ vols, parseMetadataLines ⟨.zero, 0, []⟩
        (front.map (fun p => headerLine p.1 p.2) ++ headerLine .volumeCount cnt :: vols) =
        parseMetadataLines st vols) ∧
      (∀ f, f ∈ st.seen ↔ f = .volumeCount ∨ f ∈ front.map (·.1)) ∧ st.info.volumes = [] ∧
      (.pidStart ∉ front.map (·.1) → st.info.pidStartTime = 0) ∧
      (∀ p ∈ front, st.info.Holds st.volumeCnt p.1 p.2) ∧ tdParseLong cnt 0 32 = .ok st.volumeCnt := by
  obtain ⟨st₁, hrun, hseen, hvols, hstart, hheld, -⟩ := @parseMetadataLines_front front ⟨.zero, 0, []⟩
    (by simp) hfresh hdistinct (by simp) hacc
  have hnew : .volumeCount ∉ st₁.seen := by
    rw [hseen]
    simpa using hfresh
  obtain ⟨st₂, h₂⟩ := storeField_of_accepts hcnt { st₁ with seen := .volumeCount :: st₁.seen }
  obtain ⟨hholds, hseen₂, hvols₂, hstart₂, hothers⟩ := storeField_ok h₂
  refine ⟨st₂, fun vols => ?_, fun f => ?_, hvols₂.trans hvols, fun hno => ?_, fun p hp => ?_, hholds⟩
  · rw [hrun, parseMetadataLines, parseMetadataLine_of_header cnt hnew hnew, h₂]
  · rw [hseen₂]
    simp [hseen f]
  · rw [hstart₂ (by decide), hstart hno]
    rfl
  · refine hothers p.1 (fun he => hfresh ?_) p.2 (hheld p hp)
    exact he ▸ List.mem_map_of_mem hp

theorem StatusRecord.Holds.volumes {r : StatusRecord} {cnt : Int} {f : MetadataField} {v : Text}
    (h : r.Holds cnt f v) (vols : List Text) : StatusRecord.Holds { r with volumes := vols } cnt f v := by
  cases f <;> exact h

/-- The values of the required fields determine a record up to its volumes and start time. -/
theorem StatusRecord.eq_of_holds {r r' : StatusRecord} {cnt cnt' : Int}
    (h : ∀ f ∈ requiredFields, f ≠ .volumeCount → ∃ v, r.Holds cnt f v ∧ r'.Holds cnt' f v)
    (hstart : r.pidStartTime = r'.pidStartTime) (hvolumes : r.volumes = r'.volumes) : r = r' := by
  obtain ⟨_, hpid, hpid'⟩ := h .pid (by decide) (by decide)
  obtain ⟨_, hdetach, hdetach'⟩ := h .detach (by decide) (by decide)
  obtain ⟨_, hid, hid'⟩ := h .id (by decide) (by decide)
  obtain ⟨_, himage, himage'⟩ := h .image (by decide) (by decide)
  obtain ⟨_, hcommand, hcommand'⟩ := h .command (by decide) (by decide)
  obtain ⟨_, hcreated, hcreated'⟩ := h .created (by decide) (by decide)
  obtain ⟨_, hstatus, hstatus'⟩ := h .status (by decide) (by decide)
  obtain ⟨_, hip, hip'⟩ := h .ip (by decide) (by decide)
  obtain ⟨_, hname, hname'⟩ := h .name (by decide) (by decide)
  have epid : r.pid = r'.pid := Except.ok.inj (hpid.symm.trans hpid')
  have edetach : r.detach = r'.detach := Except.ok.inj (hdetach.symm.trans hdetach')
  cases r
  cases r'
  simp only [StatusRecord.mk.injEq]
  exact ⟨epid, hstart, edetach, hid.2.trans hid'.2.symm, himage.2.trans himage'.2.symm,
    hcommand.2.trans hcommand'.2.symm, hcreated.2.trans hcreated'.2.symm,
    hstatus.2.trans hstatus'.2.symm, hname.2.trans hname'.2.symm, hip.2.trans hip'.2.symm, hvolumes⟩

/-- **Accepted files and their records.** -/
theorem tdParseContainerInfo_iff {data expected : Text} {r : StatusRecord} :
    tdParseContainerInfo data expected = .ok r ↔ ∃ front cnt vols, FileShape data front cnt vols ∧
      FileRecord front cnt vols r ∧ tdValidateName expected 127 = .ok () ∧ r.name = expected := by
  have hlines : (tokens (· == '\n') data).map dropCr = metadataLines data := by
    rw [tokens_eq_pieces]
    rfl
  unfold tdParseContainerInfo
  rw [hlines]
  constructor
  · intro h
    split at h
    · cases h
    rename_i hnul
    split at h
    · cases h
    rename_i st hst
    obtain ⟨hreq, hcount, hvalid, hname, rfl⟩ := finishMetadata_iff.1 h
    obtain ⟨front, cnt, vols, hdata, hfresh, hdistinct, -, hacc, hcnt⟩ :=
      parseMetadataLines_split (by simp) hst (hreq .volumeCount (by decide))
    obtain ⟨st₂, hrun, hseen, hvols, hstart, hheld, hn⟩ :=
      parseMetadataLines_header hfresh hdistinct hacc hcnt
    rw [hdata, hrun, parseMetadataLines_volumes ((hseen _).2 (Or.inl rfl))] at hst
    obtain ⟨rfl, hlen, -⟩ := hst
    simp only [ParseState.addVolumes, hvols, List.nil_append] at hcount hname ⊢
    refine ⟨front, cnt, vols, ⟨hnul, hdata, hfresh, hdistinct, fun f hf hne => ?_, hlen⟩,
      ⟨fun p hp => ?_, hcount ▸ hn, hstart, rfl⟩, hvalid, hname⟩
    · exact ((hseen f).1 (hreq f hf)).resolve_left hne
    · rw [hcount]
      exact (hheld p hp).volumes vols
  · rintro ⟨front, cnt, vols, hshape, hrec, hvalid, hname⟩
    obtain ⟨st₂, hrun, hseen, hvols, hstart, hheld, hn⟩ := parseMetadataLines_header hshape.fresh
      hshape.distinct (fun p hp => (hrec.values p hp).accepts) ⟨_, hrec.count⟩
    have hcnt : st₂.volumeCnt = vols.length := Except.ok.inj (hn.symm.trans hrec.count)
    have hst : parseMetadataLines ⟨.zero, 0, []⟩ (metadataLines data) = .ok (st₂.addVolumes vols) := by
      rw [hshape.lines, hrun, parseMetadataLines_volumes ((hseen _).2 (Or.inl rfl))]
      refine ⟨rfl, hshape.volumes, fun _ => ?_⟩
      rw [hvols, hcnt]
      simp
    have hsame : r = (st₂.addVolumes vols).info := by
      refine @StatusRecord.eq_of_holds _ _ vols.length st₂.volumeCnt (fun f hf hne => ?_) ?_ ?_
      · obtain ⟨p, hp, rfl⟩ := List.mem_map.1 (hshape.required f hf hne)
        exact ⟨p.2, hrec.values p hp, (hheld p hp).volumes (st₂.info.volumes ++ vols)⟩
      · by_cases hp : .pidStart ∈ front.map (·.1)
        · obtain ⟨⟨f, v⟩, hp, hf⟩ := List.mem_map.1 hp
          have hf : f = .pidStart := hf
          subst hf
          have hv : some (r.pidStartTime, []) = some (st₂.info.pidStartTime, []) :=
            (hrec.values _ hp).symm.trans (hheld _ hp)
          exact (Prod.mk.inj (Option.some.inj hv)).1
        · rw [hrec.start hp]
          exact (hstart hp).symm
      · rw [hrec.volumes]
        simp [ParseState.addVolumes, hvols]
    rw [if_neg hshape.noNul, hst]
    refine finishMetadata_iff.2 ⟨fun f hf => (hseen f).2 ?_, ?_, hvalid, hsame ▸ hname, hsame⟩
    · by_cases hf' : f = .volumeCount
      · exact Or.inl hf'
      · exact Or.inr (hshape.required f hf hf')
    · simp [ParseState.addVolumes, hvols, hcnt]

/-! ## The grammar -/

/-- The accepted language: header lines with distinct known keys and admissible values, `volume_cnt`
last, and as many volume lines as it says. -/
def Grammatical (data expected : Text) : Prop :=
  '\x00' ∉ data ∧ ∃ (headers : List (Text × Text)) (count : Text) (vols : List Text),
    metadataLines data = headers.map (fun h => h.1 ++ '=' :: h.2) ++ vols ∧
    (∀ h ∈ headers, h.1 ≠ [] ∧ '=' ∉ h.1) ∧ (headers.map (·.1)).Nodup ∧
    (∀ h ∈ headers, h.1 ∈ allFields.map (·.key)) ∧
    (∀ f ∈ requiredFields, f.key ∈ headers.map (·.1)) ∧
    headers.getLast? = some ("volume_cnt".toList, count) ∧ tdParseLong count 0 32 = .ok vols.length ∧
    (∀ (f : MetadataField) v, (f.key, v) ∈ headers → f.accepts v) ∧ (∀ v ∈ vols, v.length ≤ 511) ∧
    tdValidateName expected 127 = .ok () ∧ ("name".toList, expected) ∈ headers

/-- The same file up to the order of the lines before `volume_cnt`. -/
def Reordered (data data' : Text) : Prop :=
  '\x00' ∉ data' ∧ ∃ (front front' : List Text) (count : Text) (vols : List Text), front.Perm front' ∧
    (∀ line ∈ front, ∀ v, line ≠ headerLine .volumeCount v) ∧
    metadataLines data = front ++ headerLine .volumeCount count :: vols ∧
    metadataLines data' = front' ++ headerLine .volumeCount count :: vols

/-- Fields under their keys. -/
def keyed (fields : List (MetadataField × Text)) : List (Text × Text) :=
  fields.map fun p => (p.1.key, p.2)

theorem known_headers : ∀ {headers : List (Text × Text)},
    (∀ h ∈ headers, h.1 ∈ allFields.map (·.key)) → ∃ fields, headers = keyed fields
  | [], _ => ⟨[], rfl⟩
  | (key, v) :: headers, h => by
    obtain ⟨f, -, hf⟩ := List.mem_map.1 (h (key, v) List.mem_cons_self)
    have hf : f.key = key := hf
    obtain ⟨fields, rfl⟩ := known_headers fun x hx => h x (List.mem_cons_of_mem _ hx)
    exact ⟨(f, v) :: fields, by rw [← hf]; rfl⟩

theorem keyed_keys (fields : List (MetadataField × Text)) :
    (keyed fields).map (·.1) = (fields.map (·.1)).map (·.key) := by
  simp [keyed, List.map_map, Function.comp_def]

theorem mem_keyed_keys {fields : List (MetadataField × Text)} {f : MetadataField} :
    f.key ∈ (keyed fields).map (·.1) ↔ f ∈ fields.map (·.1) := by
  rw [keyed_keys]
  exact List.mem_map_of_injective fun _ _ h => key_injective h

theorem nodup_keyed {fields : List (MetadataField × Text)} :
    ((keyed fields).map (·.1)).Nodup ↔ (fields.map (·.1)).Nodup := by
  rw [keyed_keys]
  exact List.nodup_map_iff fun _ _ h => key_injective h

theorem mem_keyed {fields : List (MetadataField × Text)} {f : MetadataField} {v : Text} :
    (f.key, v) ∈ keyed fields ↔ (f, v) ∈ fields := by
  simp only [keyed, List.mem_map, Prod.mk.injEq]
  constructor
  · rintro ⟨⟨g, w⟩, hp, he, hw⟩
    rw [← key_injective he, ← hw]
    exact hp
  · intro h
    exact ⟨(f, v), h, rfl, rfl⟩

theorem nodup_concat {l : List MetadataField} {f : MetadataField} :
    (l ++ [f]).Nodup ↔ f ∉ l ∧ l.Nodup := by
  rw [List.nodup_append]
  simp only [List.nodup_cons, List.not_mem_nil, not_false_eq_true, List.nodup_nil, and_self, true_and,
    List.mem_singleton, forall_eq, ne_eq]
  exact ⟨fun ⟨h1, h2⟩ => ⟨fun hm => h2 f hm rfl, h1⟩, fun ⟨h1, h2⟩ => ⟨h2, fun a ha he => h1 (he ▸ ha)⟩⟩

theorem grammatical_of_parse {data expected : Text} {r : StatusRecord}
    (h : tdParseContainerInfo data expected = .ok r) : Grammatical data expected := by
  obtain ⟨front, cnt, vols, hshape, hrec, hvalid, hname⟩ := tdParseContainerInfo_iff.1 h
  have hreq : ∀ f ∈ requiredFields, f ∈ (front ++ [(MetadataField.volumeCount, cnt)]).map (·.1) := by
    intro f hf
    by_cases hv : f = .volumeCount
    · simp [hv]
    · rw [List.map_append]
      exact List.mem_append_left _ (hshape.required f hf hv)
  refine ⟨hshape.noNul, keyed (front ++ [(MetadataField.volumeCount, cnt)]), cnt, vols, ?_, ?_,
    ?_, ?_, fun f hf => mem_keyed_keys.2 (hreq f hf), ?_, hrec.count, fun f v hm => ?_, hshape.volumes,
    hvalid, ?_⟩
  · rw [hshape.lines]
    simp [keyed, headerLine]
  · intro x hx
    obtain ⟨p, -, rfl⟩ := List.mem_map.1 hx
    exact key_plain p.1
  · rw [nodup_keyed, List.map_append]
    exact nodup_concat.2 ⟨hshape.fresh, hshape.distinct⟩
  · intro x hx
    obtain ⟨⟨f, v⟩, -, rfl⟩ := List.mem_map.1 hx
    exact List.mem_map_of_mem (mem_allFields f)
  · rw [keyed, List.map_append, List.map_singleton, List.getLast?_concat]
    rfl
  · rcases List.mem_append.1 (mem_keyed.1 hm) with hm | hm
    · exact (hrec.values _ hm).accepts
    · cases List.mem_singleton.1 hm
      exact ⟨_, hrec.count⟩
  · obtain ⟨⟨f, v⟩, hp, hf⟩ := List.mem_map.1 (hshape.required .name (by decide) (by decide))
    have hf : f = .name := hf
    subst hf
    have hv : r.name = v := (hrec.values _ hp).2
    have hm : (MetadataField.name, expected) ∈ front := by rw [← hname, hv]; exact hp
    exact (@mem_keyed _ .name expected).2 (List.mem_append_left _ hm)

theorem parse_of_grammatical {data expected : Text} (h : Grammatical data expected) :
    ∃ r, tdParseContainerInfo data expected = .ok r := by
  obtain ⟨hnul, headers, count, vols, hlines, -, hnodup, hknown, hreq, hlast, hcount, hacc, hvols, hvalid,
    hname⟩ := h
  obtain ⟨fields, rfl⟩ := known_headers hknown
  rw [nodup_keyed] at hnodup
  have hvol : ∃ front, fields = front ++ [(.volumeCount, count)] := by
    rcases List.eq_nil_or_concat fields with rfl | ⟨front, p, rfl⟩
    · cases hlast
    · rw [List.concat_eq_append] at hlast ⊢
      rw [keyed, List.map_append, List.map_singleton, List.getLast?_concat, Option.some.injEq,
        Prod.mk.injEq] at hlast
      obtain ⟨f, v⟩ := p
      have hf : f = .volumeCount := key_injective hlast.1
      have hv : v = count := hlast.2
      rw [hf, hv]
      exact ⟨front, rfl⟩
  obtain ⟨front, rfl⟩ := hvol
  rw [List.map_append] at hnodup
  obtain ⟨hfresh, hdistinct⟩ := nodup_concat.1 hnodup
  have hfront : ∀ p ∈ front, p.1.accepts p.2 := fun p hp =>
    hacc p.1 p.2 (mem_keyed.2 (List.mem_append_left _ hp))
  obtain ⟨st, -, -, -, hstart, hheld, hn⟩ := parseMetadataLines_header hfresh hdistinct hfront ⟨_, hcount⟩
  have hcnt : st.volumeCnt = vols.length := Except.ok.inj (hn.symm.trans hcount)
  have hnamed : (MetadataField.name, expected) ∈ front := by
    rcases List.mem_append.1 ((@mem_keyed _ .name expected).1 hname) with hm | hm
    · exact hm
    · cases List.mem_singleton.1 hm
  refine ⟨{ st.info with volumes := vols }, tdParseContainerInfo_iff.2 ⟨front, count, vols,
    ⟨hnul, ?_, hfresh, hdistinct, fun f hf hne => ?_, hvols⟩, ⟨fun p hp => ?_, hcount, hstart, rfl⟩,
    hvalid, (hheld _ hnamed).2⟩⟩
  · rw [hlines]
    simp [keyed, headerLine]
  · have hm := mem_keyed_keys.1 (hreq f hf)
    rw [List.map_append] at hm
    rcases List.mem_append.1 hm with hm | hm
    · exact hm
    · exact absurd (List.mem_singleton.1 hm) hne
  · rw [← hcnt]
    exact (hheld p hp).volumes vols

/-- A list splits in one way only at the first element with a property. -/
theorem split_unique {α : Type} {P : α → Prop} : ∀ {a a' b b' : List α} {x x' : α},
    a ++ x :: b = a' ++ x' :: b' → (∀ y ∈ a, ¬ P y) → (∀ y ∈ a', ¬ P y) → P x → P x' →
      a = a' ∧ x = x' ∧ b = b'
  | [], [], _, _, _, _, h, _, _, _, _ => ⟨rfl, (List.cons.inj h).1, (List.cons.inj h).2⟩
  | [], y :: a', _, _, _, _, h, _, ha', hx, _ => by
    rw [List.nil_append, List.cons_append, List.cons.injEq] at h
    exact absurd (h.1 ▸ hx) (ha' y List.mem_cons_self)
  | y :: a, [], _, _, _, _, h, ha, _, _, hx' => by
    rw [List.nil_append, List.cons_append, List.cons.injEq] at h
    exact absurd (h.1.symm ▸ hx') (ha y List.mem_cons_self)
  | y :: a, y' :: a', _, _, _, _, h, ha, ha', hx, hx' => by
    rw [List.cons_append, List.cons_append, List.cons.injEq] at h
    obtain ⟨rfl, rfl, rfl⟩ := split_unique h.2 (fun z hz => ha z (List.mem_cons_of_mem _ hz))
      (fun z hz => ha' z (List.mem_cons_of_mem _ hz)) hx hx'
    exact ⟨by rw [h.1], rfl, rfl⟩

theorem headerLine_injective {f g : MetadataField} {v w : Text} (h : headerLine f v = headerLine g w) :
    f = g ∧ v = w := by
  have hcut := congrArg (cut '=') h
  rw [cut_headerLine, cut_headerLine, Option.some.injEq, Prod.mk.injEq] at hcut
  exact ⟨key_injective hcut.1, hcut.2⟩

theorem fields_of_headerLines : ∀ {lines : List Text},
    (∀ l ∈ lines, ∃ p : MetadataField × Text, headerLine p.1 p.2 = l) →
      ∃ fields : List (MetadataField × Text), lines = fields.map fun p => headerLine p.1 p.2
  | [], _ => ⟨[], rfl⟩
  | l :: lines, hl => by
    obtain ⟨p, rfl⟩ := hl l List.mem_cons_self
    obtain ⟨fields, rfl⟩ := fields_of_headerLines fun x hx => hl x (List.mem_cons_of_mem _ hx)
    exact ⟨p :: fields, rfl⟩

/-- Lines that are header lines in another order come from the fields in another order. -/
theorem perm_headerLines {front : List (MetadataField × Text)} {lines : List Text}
    (h : (front.map fun p => headerLine p.1 p.2).Perm lines) :
    ∃ front', lines = front'.map (fun p => headerLine p.1 p.2) ∧ front.Perm front' := by
  obtain ⟨front', rfl⟩ := fields_of_headerLines fun l hl => by
    obtain ⟨p, -, hp⟩ := List.mem_map.1 (h.mem_iff.2 hl)
    exact ⟨p, hp⟩
  refine ⟨front', rfl, (List.map_perm_map_iff fun p q he => ?_).1 h⟩
  obtain ⟨hf, hv⟩ := headerLine_injective he
  exact Prod.ext hf hv

theorem parse_reordered {data data' expected : Text} {r : StatusRecord} (hre : Reordered data data')
    (h : tdParseContainerInfo data expected = .ok r) : tdParseContainerInfo data' expected = .ok r := by
  obtain ⟨hnul, front, front', count, vols, hperm, hfirst, hdata, hdata'⟩ := hre
  obtain ⟨fields, cnt, vols₀, hshape, hrec, hvalid, hname⟩ := tdParseContainerInfo_iff.1 h
  -- both splits are at the first line of `volume_cnt`
  have hsplit := hdata.symm.trans hshape.lines
  obtain ⟨rfl, hcount, rfl⟩ := @split_unique _ (fun line => ∃ v, line = headerLine .volumeCount v) _ _ _ _
    _ _ hsplit (fun line hl ⟨v, hv⟩ => hfirst line hl v hv) (fun line hl ⟨v, hv⟩ => by
      obtain ⟨p, hp, rfl⟩ := List.mem_map.1 hl
      exact hshape.fresh (List.mem_map.2 ⟨p, hp, (headerLine_injective hv).1⟩))
    ⟨count, rfl⟩ ⟨cnt, rfl⟩
  obtain ⟨-, rfl⟩ := headerLine_injective hcount
  obtain ⟨fields', rfl, hfields⟩ := perm_headerLines hperm
  have hkeys : (fields.map (·.1)).Perm (fields'.map (·.1)) := hfields.map _
  refine tdParseContainerInfo_iff.2 ⟨fields', count, vols, ⟨hnul, hdata', ?_, ?_, ?_, hshape.volumes⟩,
    ⟨?_, hrec.count, ?_, hrec.volumes⟩, hvalid, hname⟩
  · exact fun hm => hshape.fresh (hkeys.mem_iff.2 hm)
  · exact hkeys.nodup_iff.1 hshape.distinct
  · exact fun f hf hne => hkeys.mem_iff.1 (hshape.required f hf hne)
  · exact fun p hp => hrec.values p (hfields.mem_iff.2 hp)
  · exact fun hno => hrec.start fun hm => hno (hkeys.mem_iff.1 hm)

/-- **The metadata grammar.**  A file is accepted if and only if it is grammatical, and the order of
the lines before `volume_cnt` does not matter. -/
theorem metadata_grammar (data expected : Text) :
    ((∃ r, tdParseContainerInfo data expected = .ok r) ↔ Grammatical data expected) ∧
      ∀ data' r, Reordered data data' → tdParseContainerInfo data expected = .ok r →
        tdParseContainerInfo data' expected = .ok r :=
  ⟨⟨fun ⟨_, h⟩ => grammatical_of_parse h, parse_of_grammatical⟩, fun _ _ => parse_reordered⟩

end TinyDocker
