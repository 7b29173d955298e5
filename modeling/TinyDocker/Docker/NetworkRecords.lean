import TinyDocker.Core.NetworkState

/-!
# The networks file and the address allocator (`docker/network.c`)

`loadNetworkRecords` and `writeNetworkRecords` are the two directions of the networks file;
`allocNewIp`, `releaseUsedIp` and `deleteNetworkInfo` are the computations the three commands make
between them.

Principal results:

* `loadNetworkRecords_write` — what is written for a list of records the loader could have
  returned is loaded back unchanged;
* `allocNewIp_ok` — an allocated address is unused and is neither the network address, nor the
  gateway, nor the broadcast address;
* `usedIpsOf_allocNewIp`, `usedIpsOf_releaseUsedIp`, `usedIpsOf_deleteNetworkInfo` — the used list
  of any network after each operation;
* `networks_file_canonical` — load and write reach a fixed point after one round.
-/

set_option autoImplicit false

namespace TinyDocker

open CText

/-! ## The file -/

def MAX_NETWORK_STATE_SIZE : Nat := 1024 * 1024

/-- The record loop of `load_network_records`. -/
def parseRecordLines : List NetworkRecord → List Text → Option (List NetworkRecord)
  | records, [] => some records
  | records, line :: rest =>
    if line = [] ∨ 4096 ≤ line.length ∨ '\r' ∈ line then none
    else if TD_NETWORK_MAX_RECORDS ≤ records.length then none
    else match tdParseNetworkRecord line with
      | .error _ => none
      | .ok r => parseRecordLines (records ++ [r]) rest

/-- `td_network_record_names_are_unique`. -/
def namesAreUnique (records : List NetworkRecord) : Bool :=
  records.length ≤ TD_NETWORK_MAX_RECORDS && decide (records.map (·.name)).Nodup

/-- `load_network_records`; an absent file (`ENOENT`) is an empty list. -/
def loadNetworkRecords : Option Text → Option (List NetworkRecord)
  | none => some []
  | some data =>
    if MAX_NETWORK_STATE_SIZE < data.length ∨ '\x00' ∈ data then none
    else match parseRecordLines [] (pieces '\n' data) with
      | none => none
      | some records => if namesAreUnique records then some records else none

/-- The serialising loop of `write_network_records`. -/
def writeNetworkRecords : List NetworkRecord → Option Text
  | [] => some []
  | r :: rs =>
    match tdFormatNetworkRecord r 4096 with
    | .error _ => none
    | .ok serialized => (writeNetworkRecords rs).map fun rest => serialized ++ '\n' :: rest

/-- What the loader guarantees of a record list. -/
structure StoreOk (records : List NetworkRecord) : Prop where
  count : records.length ≤ TD_NETWORK_MAX_RECORDS
  names : (records.map (·.name)).Nodup
  record : ∀ r ∈ records, RecordOk r
  line : ∀ r ∈ records, '\n' ∉ r.cidr ∧ '\r' ∉ r.cidr

theorem parseRecordLines_ok : ∀ {lines : List Text} {acc records : List NetworkRecord},
    parseRecordLines acc lines = some records →
    (∀ r ∈ acc, RecordOk r ∧ '\n' ∉ r.cidr ∧ '\r' ∉ r.cidr) →
      ∀ r ∈ records, RecordOk r ∧ '\n' ∉ r.cidr ∧ '\r' ∉ r.cidr
  | [], _, _, h, hacc => by cases h; exact hacc
  | line :: lines, acc, records, h, hacc => by
    unfold parseRecordLines at h
    split at h
    · cases h
    split at h
    · cases h
    split at h
    · cases h
    rename_i r hr
    refine parseRecordLines_ok h fun x hx => ?_
    rcases List.mem_append.1 hx with hx | hx
    · exact hacc x hx
    · rw [List.mem_singleton.1 hx]
      exact tdParseNetworkRecord_recordOk hr

/-- **The loader returns only well-formed stores.** -/
theorem loadNetworkRecords_ok {file : Option Text} {records : List NetworkRecord}
    (h : loadNetworkRecords file = some records) : StoreOk records := by
  unfold loadNetworkRecords at h
  split at h
  · cases h
    exact ⟨by decide, by simp, by simp, by simp⟩
  split at h
  · cases h
  split at h
  · cases h
  rename_i parsed hp
  split at h
  · rename_i hu
    cases h
    simp only [namesAreUnique, Bool.and_eq_true, decide_eq_true_eq] at hu
    have hall := parseRecordLines_ok hp (by simp)
    exact ⟨hu.1, hu.2, fun r hr => (hall r hr).1, fun r hr => (hall r hr).2⟩
  · cases h

theorem writeNetworkRecords_ok : ∀ {records : List NetworkRecord} {data : Text},
    writeNetworkRecords records = some data →
      (∀ r ∈ records, RecordOk r) ∧ data = (records.map recordText).flatMap (· ++ ['\n'])
  | [], _, h => by cases h; simp
  | r :: rs, data, h => by
    unfold writeNetworkRecords at h
    split at h
    · cases h
    rename_i serialized hs
    obtain ⟨rest, hrest, rfl⟩ := Option.map_eq_some_iff.1 h
    obtain ⟨hok, rfl, -⟩ := tdFormatNetworkRecord_eq hs
    obtain ⟨hall, rfl⟩ := writeNetworkRecords_ok hrest
    refine ⟨fun x hx => ?_, by simp⟩
    rcases List.mem_cons.1 hx with rfl | hx
    · exact hok
    · exact hall x hx

/-- A well-formed store is always serialisable. -/
theorem writeNetworkRecords_of_ok : ∀ {records : List NetworkRecord}, (∀ r ∈ records, RecordOk r) →
    writeNetworkRecords records = some ((records.map recordText).flatMap (· ++ ['\n']))
  | [], _ => rfl
  | r :: rs, h => by
    have hrs := writeNetworkRecords_of_ok fun x hx => h x (List.mem_cons_of_mem _ hx)
    simp [writeNetworkRecords, tdFormatNetworkRecord_of_ok (h r (by simp)), hrs]

theorem parseRecordLines_text : ∀ {records acc : List NetworkRecord},
    acc.length + records.length ≤ TD_NETWORK_MAX_RECORDS → (∀ r ∈ records, RecordOk r) →
    (∀ r ∈ records, '\n' ∉ r.cidr ∧ '\r' ∉ r.cidr) →
      parseRecordLines acc (records.map recordText) = some (acc ++ records)
  | [], acc, _, _, _ => by simp [parseRecordLines]
  | r :: rs, acc, hlen, hok, hline => by
    have hr := hok r (by simp)
    have hrl := hline r (by simp)
    have hne : recordText r ≠ [] := by simp [recordText]
    have hsize := hr.text_length
    simp only [List.length_cons] at hlen
    simp only [List.map_cons, parseRecordLines]
    rw [if_neg (by
        simp only [not_or, Nat.not_le]
        exact ⟨hne, by omega, fun hm => hrl.2 (hr.line_sep (Or.inr rfl) hm)⟩),
      if_neg (by omega), tdParseNetworkRecord_format hr hrl]
    simp only
    rw [parseRecordLines_text (by simp; omega) (fun x hx => hok x (by simp [hx]))
      (fun x hx => hline x (by simp [hx]))]
    simp

theorem storeText_length {records : List NetworkRecord} (h : ∀ r ∈ records, RecordOk r) :
    ((records.map recordText).flatMap (· ++ ['\n'])).length ≤ 1500 * records.length := by
  induction records with
  | nil => simp
  | cons r rs ih =>
    have hr := (h r (by simp)).text_length
    have hrs := ih fun x hx => h x (by simp [hx])
    simp only [List.map_cons, List.flatMap_cons, List.length_append, List.length_cons,
      List.length_nil] at hrs ⊢
    omega

/-- **The networks file reads back** as the records that were written to it. -/
theorem loadNetworkRecords_write {records : List NetworkRecord} {data : Text} (h : StoreOk records)
    (hw : writeNetworkRecords records = some data) :
    loadNetworkRecords (some data) = some records := by
  obtain ⟨-, rfl⟩ := writeNetworkRecords_ok hw
  have hsize := storeText_length h.record
  have hcount := h.count
  simp only [TD_NETWORK_MAX_RECORDS] at hcount
  have hnul : '\x00' ∉ (records.map recordText).flatMap (· ++ ['\n']) := by
    simp only [List.mem_flatMap, List.mem_map, List.mem_append, List.mem_singleton, not_exists, not_and,
      not_or]
    rintro _ ⟨r, hr, rfl⟩
    exact ⟨(h.record r hr).no_nul, by decide⟩
  have hpieces : pieces '\n' ((records.map recordText).flatMap (· ++ ['\n'])) =
      records.map recordText := by
    apply pieces_flatMap
    intro l hl
    obtain ⟨r, hr, rfl⟩ := List.mem_map.1 hl
    exact fun hm => (h.line r hr).1 ((h.record r hr).line_sep (Or.inl rfl) hm)
  have hparse : parseRecordLines [] (records.map recordText) = some records :=
    parseRecordLines_text (by simpa using h.count) h.record h.line
  have hunique : namesAreUnique records = true := by
    simp [namesAreUnique, h.count, h.names]
  simp only [loadNetworkRecords]
  rw [if_neg (by simp only [not_or, Nat.not_lt, MAX_NETWORK_STATE_SIZE]; exact ⟨by omega, hnul⟩),
    hpieces, hparse]
  simp [hunique]

/-! ## What was written, read again -/

/-- What a command finds in the file that `write_network_records` has left for these records. -/
def rereadNetworkRecords (records : List NetworkRecord) : Option (List NetworkRecord) :=
  (writeNetworkRecords records).bind fun data => loadNetworkRecords (some data)

/-- A line that ends before the third colon. -/
theorem tdParseNetworkRecord_cut {name driver front : Text} (hname : ':' ∉ name) (hdriver : ':' ∉ driver)
    (hfront : ':' ∉ front) (r : NetworkRecord) :
    tdParseNetworkRecord (name ++ ':' :: (driver ++ ':' :: front)) ≠ .ok r := by
  intro h
  unfold tdParseNetworkRecord at h
  split at h
  · cases h
  rw [cut_append hname] at h
  simp only [cut_append hdriver] at h
  rw [cut_eq_none.2 hfront] at h
  cases h

/-- The first line of a stored record with a line break in its CIDR text. -/
theorem recordText_newline {r : NetworkRecord} (hr : RecordOk r) (hmem : '\n' ∈ r.cidr) :
    ∃ line rest, recordText r = line ++ '\n' :: rest ∧ '\n' ∉ line ∧
      ∀ r', tdParseNetworkRecord line ≠ .ok r' := by
  obtain ⟨network, width, hcidr, -⟩ := validateCidr_ok hr.cidr
  obtain ⟨front, rest, hsplit, hfront⟩ := List.eq_append_cons_of_mem hmem
  have hchars := (tdParseIpv4Cidr_chars hcidr).2.2
  have hcolon : ':' ∉ front := fun hm => absurd (hchars _ (hsplit ▸ List.mem_append_left _ hm)) (by decide)
  have hname := not_mem_of_nameChar (tdValidateName_ok hr.name).2.2 (c := ':') (by decide)
  have hname' := not_mem_of_nameChar (tdValidateName_ok hr.name).2.2 (c := '\n') (by decide)
  have hdriver : ':' ∉ r.driver ∧ '\n' ∉ r.driver := by
    rw [hr.driver]
    decide
  refine ⟨r.name ++ ':' :: (r.driver ++ ':' :: front), rest ++ ':' :: usedIpsText r.usedIps, ?_, ?_,
    tdParseNetworkRecord_cut hname hdriver.1 hcolon⟩
  · rw [recordText, hsplit]
    simp
  · simp [hname', hdriver.2, hfront]

/-- Stored lines that are read again are those of the records, and no CIDR text has a line break. -/
theorem parseRecordLines_stored : ∀ {records acc rs : List NetworkRecord}, (∀ r ∈ records, RecordOk r) →
    parseRecordLines acc (pieces '\n' ((records.map recordText).flatMap (· ++ ['\n']))) = some rs →
      rs = acc ++ records ∧ ∀ r ∈ records, '\n' ∉ r.cidr ∧ '\r' ∉ r.cidr
  | [], acc, rs, _, h => by
    cases h
    exact ⟨(List.append_nil _).symm, nofun⟩
  | r :: records, acc, rs, hok, h => by
    have hr := hok r List.mem_cons_self
    have htext : ((r :: records).map recordText).flatMap (· ++ ['\n']) =
        recordText r ++ '\n' :: (records.map recordText).flatMap (· ++ ['\n']) := by
      rw [List.map_cons, List.flatMap_cons, List.append_assoc, List.singleton_append]
    rw [htext] at h
    by_cases hmem : '\n' ∈ r.cidr
    · -- the line is cut, and its first part is no record
      obtain ⟨line, rest, hline, hnone, hbad⟩ := recordText_newline hr hmem
      rw [hline, List.append_assoc, List.cons_append, pieces_cons hnone] at h
      unfold parseRecordLines at h
      split at h
      · cases h
      split at h
      · cases h
      split at h
      · cases h
      · rename_i r' hr'
        exact absurd hr' (hbad r')
    · rw [pieces_cons fun hm => hmem (hr.line_sep (Or.inl rfl) hm)] at h
      unfold parseRecordLines at h
      split at h
      · cases h
      rename_i hshape
      simp only [not_or] at hshape
      have hcr : '\r' ∉ r.cidr := fun hm => hshape.2.2 (by simp [recordText, hm])
      rw [tdParseNetworkRecord_format hr ⟨hmem, hcr⟩] at h
      split at h
      · cases h
      obtain ⟨hrs, hlines⟩ := parseRecordLines_stored (fun x hx => hok x (List.mem_cons_of_mem _ hx)) h
      refine ⟨by rw [hrs, List.append_assoc, List.singleton_append], ?_⟩
      exact List.forall_mem_cons.2 ⟨⟨hmem, hcr⟩, hlines⟩

/-- **What is read again** is what was written, and it is read again exactly when the records are such as the
loader returns. -/
theorem rereadNetworkRecords_eq_some {records rs : List NetworkRecord} :
    rereadNetworkRecords records = some rs ↔ rs = records ∧ StoreOk records := by
  unfold rereadNetworkRecords
  constructor
  · intro h
    obtain ⟨data, hdata, hload⟩ := Option.bind_eq_some_iff.1 h
    have hstore := loadNetworkRecords_ok hload
    obtain ⟨hok, rfl⟩ := writeNetworkRecords_ok hdata
    simp only [loadNetworkRecords] at hload
    split at hload
    · cases hload
    split at hload
    · cases hload
    rename_i parsed hparsed
    split at hload
    · cases hload
      obtain ⟨rfl, -⟩ := parseRecordLines_stored hok hparsed
      exact ⟨rfl, hstore⟩
    · cases hload
  · rintro ⟨rfl, hstore⟩
    rw [writeNetworkRecords_of_ok hstore.record]
    exact loadNetworkRecords_write hstore (writeNetworkRecords_of_ok hstore.record)

/-! ## The allocator -/

/-- `str_ip_to_int`: 0 for a text that is no address. -/
def strIpToInt (ip : Text) : UInt32 := (Ipv4.inetPton ip).getD 0

/-- `get_cidr_range`: minimum, maximum and prefix length. -/
def getCidrRange (cidr : Text) : Option (UInt32 × UInt32 × Nat) :=
  match tdParseIpv4Cidr cidr with
  | .error _ => none
  | .ok (network, width) => some (network, network ||| ~~~(cidrMask width), width)

/-- The candidate loop of `alloc_new_ip`, over the addresses left; 0 when all are used. -/
def allocScan (used : List UInt32) : Nat → UInt32 → UInt32
  | 0, _ => 0
  | n + 1, candidate => if candidate ∈ used then allocScan used n (candidate + 1) else candidate

/-- Changing the used list of the first record of that name, in place. -/
def updateUsedIps (name : Text) (g : List UInt32 → List UInt32) :
    List NetworkRecord → List NetworkRecord
  | [] => []
  | r :: rs =>
    if r.name = name then { r with usedIps := g r.usedIps } :: rs
    else r :: updateUsedIps name g rs

/-- `alloc_new_ip` between load and write. -/
def allocNewIp (name : Text) (records : List NetworkRecord) :
    Option (List NetworkRecord × UInt32) :=
  match records.find? (fun r => decide (r.name = name)) with
  | none => none
  | some network =>
    if TD_NETWORK_MAX_USED_IPS ≤ network.usedIps.length then none
    else match getCidrRange network.cidr with
      | none => none
      | some (minimum, maximum, _) =>
        if maximum ≤ minimum + 2 then none
        else
          let allocated :=
            allocScan network.usedIps (maximum - (minimum + 2)).toNat (minimum + 2)
          if allocated = 0 then none
          else some (updateUsedIps name (· ++ [allocated]) records, allocated)

/-- `release_used_ip` between load and write. -/
def releaseUsedIp (name : Text) (address : UInt32) (records : List NetworkRecord) :
    Option (List NetworkRecord) :=
  if records.any (fun r => decide (r.name = name)) then
    some (updateUsedIps name (·.filter (fun a => decide (a ≠ address))) records)
  else none

/-- `delete_network_info` between load and write. -/
def deleteNetworkInfo (name : Text) (records : List NetworkRecord) : List NetworkRecord :=
  records.filter (fun r => decide (r.name ≠ name))

/-- The used list of a network, empty when there is no such network. -/
def usedIpsOf (name : Text) (records : List NetworkRecord) : List UInt32 :=
  match records.find? (fun r => decide (r.name = name)) with
  | none => []
  | some r => r.usedIps

section UpdateUsedIps

variable {name : Text} {g : List UInt32 → List UInt32}

/-- Every field but the used list is untouched. -/
theorem updateUsedIps_map {β : Type} (f : NetworkRecord → β)
    (hf : ∀ r used, f { r with usedIps := used } = f r) :
    ∀ records, (updateUsedIps name g records).map f = records.map f
  | [] => rfl
  | r :: rs => by
    unfold updateUsedIps
    split
    · simp [hf]
    · simp [updateUsedIps_map f hf rs]

theorem updateUsedIps_filter :
    ∀ records, (updateUsedIps name g records).filter (fun r => decide (r.name ≠ name)) =
      records.filter (fun r => decide (r.name ≠ name))
  | [] => rfl
  | r :: rs => by
    unfold updateUsedIps
    split
    · rename_i hr
      simp [hr]
    · simp only [List.filter_cons, updateUsedIps_filter rs]

theorem usedIpsOf_cons (other : Text) (r : NetworkRecord) (rs : List NetworkRecord) :
    usedIpsOf other (r :: rs) = if r.name = other then r.usedIps else usedIpsOf other rs := by
  by_cases h : r.name = other <;> simp [usedIpsOf, h]

theorem usedIpsOf_updateUsedIps_self :
    ∀ {records}, records.any (fun r => decide (r.name = name)) = true →
      usedIpsOf name (updateUsedIps name g records) = g (usedIpsOf name records)
  | [], h => by cases h
  | r :: rs, h => by
    unfold updateUsedIps
    split
    · rename_i hr
      simp [usedIpsOf_cons, hr]
    · rename_i hr
      simp only [List.any_cons, hr, decide_false, Bool.false_or] at h
      simp [usedIpsOf_cons, hr, usedIpsOf_updateUsedIps_self h]

theorem usedIpsOf_updateUsedIps_of_ne {other : Text} (hne : other ≠ name) :
    ∀ records, usedIpsOf other (updateUsedIps name g records) = usedIpsOf other records
  | [] => rfl
  | r :: rs => by
    unfold updateUsedIps
    split
    · rename_i hr
      have : ¬ name = other := Ne.symm hne
      simp [usedIpsOf_cons, hr, this]
    · simp [usedIpsOf_cons, usedIpsOf_updateUsedIps_of_ne hne rs]

theorem mem_updateUsedIps {r' : NetworkRecord} :
    ∀ {records}, r' ∈ updateUsedIps name g records → r' ∈ records ∨
      ∃ r, records.find? (fun r => decide (r.name = name)) = some r ∧
        r' = { r with usedIps := g r.usedIps }
  | [], h => by cases h
  | r :: rs, h => by
    unfold updateUsedIps at h
    split at h
    · rename_i hr
      rcases List.mem_cons.1 h with rfl | h
      · exact Or.inr ⟨r, by simp [hr], rfl⟩
      · exact Or.inl (List.mem_cons_of_mem _ h)
    · rename_i hr
      rcases List.mem_cons.1 h with rfl | h
      · exact Or.inl List.mem_cons_self
      · rcases mem_updateUsedIps h with hm | ⟨x, hx, rfl⟩
        · exact Or.inl (List.mem_cons_of_mem _ hm)
        · exact Or.inr ⟨x, by simp [hr, hx], rfl⟩

end UpdateUsedIps

/-- The scan returns 0 or an unused address it has reached. -/
theorem allocScan_spec (used : List UInt32) : ∀ (n : Nat) (c : UInt32), c.toNat + n < 2 ^ 32 →
    allocScan used n c = 0 ∨ (allocScan used n c ∉ used ∧ c.toNat ≤ (allocScan used n c).toNat ∧
      (allocScan used n c).toNat < c.toNat + n)
  | 0, _, _ => Or.inl rfl
  | n + 1, c, hb => by
    unfold allocScan
    split
    · have hc : (c + 1).toNat = c.toNat + 1 := by
        rw [UInt32.toNat_add, UInt32.toNat_one]
        omega
      rcases allocScan_spec used n (c + 1) (by omega) with h | ⟨h1, h2, h3⟩
      · exact Or.inl h
      · exact Or.inr ⟨h1, by omega, by omega⟩
    · rename_i hm
      exact Or.inr ⟨hm, by omega, by omega⟩

/-- What the scan passes over is in use. -/
theorem allocScan_skips (used : List UInt32) : ∀ (n : Nat) (c : UInt32), c.toNat + n < 2 ^ 32 →
    ∀ b : UInt32, c.toNat ≤ b.toNat → b.toNat < (allocScan used n c).toNat → b ∈ used
  | 0, _, _, _, _, hb => absurd hb (Nat.not_lt_zero _)
  | n + 1, c, hc, b, hcb, hb => by
    unfold allocScan at hb
    split at hb
    · rename_i hm
      have hnext : (c + 1).toNat = c.toNat + 1 := by
        rw [UInt32.toNat_add, UInt32.toNat_one]
        omega
      by_cases heq : b = c
      · rw [heq]; exact hm
      · have hne : b.toNat ≠ c.toNat := fun h => heq (UInt32.toNat_inj.1 h)
        exact allocScan_skips used n (c + 1) (by omega) b (by omega) hb
    · omega

/-- What a successful `alloc_new_ip` says about the address and the new records. -/
theorem allocNewIp_ok {name : Text} {records records' : List NetworkRecord} {a : UInt32}
    (hs : StoreOk records) (h : allocNewIp name records = some (records', a)) :
    records' = updateUsedIps name (· ++ [a]) records ∧ a ∉ usedIpsOf name records ∧
      ∃ r, records.find? (fun r => decide (r.name = name)) = some r ∧
        r.usedIps.length < TD_NETWORK_MAX_USED_IPS ∧ ∃ network width, tdParseIpv4Cidr r.cidr = .ok (network, width) ∧
        network.toNat + 1 < a.toNat ∧ a.toNat < (network ||| ~~~(cidrMask width)).toNat ∧
        ∀ b : UInt32, network.toNat + 1 < b.toNat → b.toNat < a.toNat → b ∈ r.usedIps := by
  unfold allocNewIp at h
  split at h
  · cases h
  rename_i r hfind
  split at h
  · cases h
  rename_i hcount
  split at h
  · cases h
  rename_i minimum maximum w hrange
  split at h
  · cases h
  rename_i hmax
  simp only at h
  split at h
  · cases h
  rename_i hne
  cases h
  unfold getCidrRange at hrange
  split at hrange
  · cases hrange
  rename_i hcidr
  cases hrange
  have hmem := List.mem_of_find?_eq_some hfind
  -- the network address is a multiple of four, so `minimum + 2` does not wrap
  obtain ⟨_, _, hcidr', hw⟩ :=
    validateCidr_ok (hs.record r hmem).cidr
  rw [hcidr] at hcidr'
  cases hcidr'
  have hmod := cidr_network_mod_four hcidr hw
  have hlt := minimum.toNat_lt
  have hmin : (minimum + 2).toNat = minimum.toNat + 2 := by
    rw [UInt32.toNat_add, show (2 : UInt32).toNat = 2 from rfl]
    omega
  rw [UInt32.not_le, UInt32.lt_iff_toNat_lt, hmin] at hmax
  have hmaxlt := (minimum ||| ~~~(cidrMask w)).toNat_lt
  have hspan : ((minimum ||| ~~~(cidrMask w)) - (minimum + 2)).toNat =
      (minimum ||| ~~~(cidrMask w)).toNat - (minimum.toNat + 2) := by
    rw [UInt32.toNat_sub_of_le _ _ (UInt32.le_iff_toNat_le.2 (by omega)), hmin]
  rcases allocScan_spec r.usedIps ((minimum ||| ~~~(cidrMask w)) - (minimum + 2)).toNat
    (minimum + 2) (by omega) with h0 | ⟨hnew, hlo, hhi⟩
  · exact absurd h0 hne
  · refine ⟨rfl, ?_, r, hfind, by omega, minimum, w, hcidr, by omega, by omega, fun b hlow hb => ?_⟩
    · simpa only [usedIpsOf, hfind] using hnew
    · exact allocScan_skips r.usedIps _ _ (by omega) b (by omega) hb

/-- The lowest address of a network that is not in use. -/
def LowestFree (name : Text) (records : List NetworkRecord) (a : UInt32) : Prop :=
  ∃ r, records.find? (fun r => decide (r.name = name)) = some r ∧ a ∉ r.usedIps ∧
    ∃ network width, tdParseIpv4Cidr r.cidr = .ok (network, width) ∧ network.toNat + 1 < a.toNat ∧
      ∀ b : UInt32, network.toNat + 1 < b.toNat → b.toNat < a.toNat → b ∈ r.usedIps

/-- `alloc_new_ip` hands out the lowest free address. -/
theorem allocNewIp_lowestFree {name : Text} {records records' : List NetworkRecord} {a : UInt32}
    (hs : StoreOk records) (h : allocNewIp name records = some (records', a)) :
    LowestFree name records a := by
  obtain ⟨-, hnew, r, hfind, -, network, width, hcidr, hlo, -, hbelow⟩ := allocNewIp_ok hs h
  refine ⟨r, hfind, ?_, network, width, hcidr, hlo, hbelow⟩
  simpa only [usedIpsOf, hfind] using hnew

theorem any_of_allocNewIp {name : Text} {records records' : List NetworkRecord} {a : UInt32}
    (h : allocNewIp name records = some (records', a)) :
    records.any (fun r => decide (r.name = name)) = true := by
  unfold allocNewIp at h
  split at h
  · cases h
  rename_i r hfind
  have hname : r.name = name := by simpa using List.find?_some hfind
  exact List.any_eq_true.2 ⟨r, List.mem_of_find?_eq_some hfind, by simp [hname]⟩

theorem usedIpsOf_allocNewIp {name : Text} {records records' : List NetworkRecord} {a : UInt32}
    (hs : StoreOk records) (h : allocNewIp name records = some (records', a)) (other : Text) :
    usedIpsOf other records' =
      if other = name then usedIpsOf name records ++ [a] else usedIpsOf other records := by
  rw [(allocNewIp_ok hs h).1]
  split
  · rename_i ho
    rw [ho, usedIpsOf_updateUsedIps_self (any_of_allocNewIp h)]
  · rename_i ho
    rw [usedIpsOf_updateUsedIps_of_ne ho]

theorem usedIpsOf_releaseUsedIp {name : Text} {address : UInt32}
    {records records' : List NetworkRecord} (h : releaseUsedIp name address records = some records')
    (other : Text) :
    usedIpsOf other records' =
      if other = name then (usedIpsOf name records).filter (fun a => decide (a ≠ address))
      else usedIpsOf other records := by
  unfold releaseUsedIp at h
  split at h
  · rename_i hany
    cases h
    split
    · rename_i ho
      rw [ho, usedIpsOf_updateUsedIps_self hany]
    · rename_i ho
      rw [usedIpsOf_updateUsedIps_of_ne ho]
  · cases h

theorem usedIpsOf_deleteNetworkInfo {name other : Text} (hne : other ≠ name) :
    ∀ records, usedIpsOf other (deleteNetworkInfo name records) = usedIpsOf other records
  | [] => rfl
  | r :: rs => by
    have ih := usedIpsOf_deleteNetworkInfo hne rs
    simp only [deleteNetworkInfo, ne_eq, decide_not] at ih ⊢
    by_cases hr : r.name = name
    · have hno : ¬ name = other := Ne.symm hne
      simp [usedIpsOf_cons, hr, hno, ih]
    · simp [usedIpsOf_cons, hr, ih]

theorem updateUsedIps_comp {name : Text} (f g : List UInt32 → List UInt32) :
    ∀ records, updateUsedIps name g (updateUsedIps name f records) =
      updateUsedIps name (fun used => g (f used)) records
  | [] => rfl
  | r :: rs => by
    by_cases hr : r.name = name
    · simp only [updateUsedIps, hr, if_true]
    · simp only [updateUsedIps, hr, if_false, updateUsedIps_comp f g rs]

theorem updateUsedIps_of_fixed {name : Text} {g : List UInt32 → List UInt32} :
    ∀ {records : List NetworkRecord}, g (usedIpsOf name records) = usedIpsOf name records →
      updateUsedIps name g records = records
  | [], _ => rfl
  | r :: rs, h => by
    rw [usedIpsOf_cons] at h
    unfold updateUsedIps
    split
    · rename_i hr
      rw [if_pos hr] at h
      rw [h]
    · rename_i hr
      rw [if_neg hr] at h
      rw [updateUsedIps_of_fixed h]

theorem allocNewIp_ne_zero {name : Text} {records records' : List NetworkRecord} {a : UInt32}
    (hs : StoreOk records) (h : allocNewIp name records = some (records', a)) : a ≠ 0 := by
  rintro rfl
  obtain ⟨-, -, r, -, -, network, width, -, hlo, -⟩ := allocNewIp_ok hs h
  exact absurd hlo (by simp)

/-- **A release undoes the allocation.** -/
theorem releaseUsedIp_allocNewIp {name : Text} {records records' : List NetworkRecord} {a : UInt32}
    (hs : StoreOk records) (h : allocNewIp name records = some (records', a)) :
    releaseUsedIp name a records' = some records := by
  obtain ⟨rfl, hnew, -⟩ := allocNewIp_ok hs h
  have hany : (updateUsedIps name (· ++ [a]) records).any (fun r => decide (r.name = name)) = true := by
    have hnames : (updateUsedIps name (· ++ [a]) records).map (·.name) = records.map (·.name) :=
      updateUsedIps_map (·.name) (fun _ _ => rfl) records
    have hold := any_of_allocNewIp h
    rw [List.any_eq_true] at hold ⊢
    obtain ⟨r, hr, hn⟩ := hold
    have hmem : r.name ∈ (updateUsedIps name (· ++ [a]) records).map (·.name) := by
      rw [hnames]
      exact List.mem_map_of_mem hr
    obtain ⟨r', hr', he⟩ := List.mem_map.1 hmem
    exact ⟨r', hr', by rw [he]; exact hn⟩
  unfold releaseUsedIp
  rw [if_pos hany, updateUsedIps_comp, updateUsedIps_of_fixed]
  -- the address was not in use before
  have hkeep : (usedIpsOf name records).filter (fun x => decide (x ≠ a)) = usedIpsOf name records :=
    List.filter_eq_self.2 fun x hx => by
      rw [decide_eq_true_eq]
      exact fun hxa => hnew (hxa ▸ hx)
  rw [List.filter_append, hkeep, List.filter_cons_of_neg (by simp), List.filter_nil, List.append_nil]

/-! ## The operations keep a store well-formed -/

theorem RecordOk.range {r : NetworkRecord} (h : RecordOk r) {network : UInt32} {width : Nat}
    (hcidr : tdParseIpv4Cidr r.cidr = .ok (network, width)) :
    ∀ a ∈ r.usedIps, network + 1 < a ∧ a < network ||| ~~~(cidrMask width) := by
  have ha := h.addresses
  simp only [validateAllocatedAddresses, hcidr] at ha
  exact fun a hm => ⟨((checkAddresses_ok ha).1 a hm).1, ((checkAddresses_ok ha).1 a hm).2.1⟩

/-- Another used list within the same bounds. -/
theorem RecordOk.withUsed {r : NetworkRecord} (h : RecordOk r) {used : List UInt32}
    (hcount : used.length ≤ TD_NETWORK_MAX_USED_IPS) (hnodup : used.Nodup)
    (hrange : ∀ network width, tdParseIpv4Cidr r.cidr = .ok (network, width) →
      ∀ a ∈ used, network + 1 < a ∧ a < network ||| ~~~(cidrMask width)) :
    RecordOk { r with usedIps := used } := by
  obtain ⟨network, width, hcidr, -⟩ := validateCidr_ok h.cidr
  have haddr : validateAllocatedAddresses { r with usedIps := used } = .ok () := by
    simp only [validateAllocatedAddresses, hcidr]
    refine checkAddresses_of_forall (fun a ha => ?_) hnodup
    have hr := hrange network width hcidr a ha
    exact ⟨hr.1, hr.2, by simp⟩
  exact ⟨hcount, h.name, h.driver, h.cidr, haddr, nonzero_of_addresses haddr⟩

/-- Changing one used list keeps the store well-formed if it keeps that record well-formed. -/
theorem StoreOk.update {name : Text} {g : List UInt32 → List UInt32} {records : List NetworkRecord}
    (h : StoreOk records)
    (hg : ∀ r, records.find? (fun r => decide (r.name = name)) = some r →
      RecordOk { r with usedIps := g r.usedIps }) :
    StoreOk (updateUsedIps name g records) := by
  have hnames : (updateUsedIps name g records).map (·.name) = records.map (·.name) :=
    updateUsedIps_map (·.name) (fun _ _ => rfl) records
  have hlen : (updateUsedIps name g records).length = records.length := by
    simpa using congrArg List.length hnames
  refine ⟨hlen ▸ h.count, hnames ▸ h.names, fun r' hr' => ?_, fun r' hr' => ?_⟩
  · rcases mem_updateUsedIps hr' with hm | ⟨r, hr, rfl⟩
    · exact h.record r' hm
    · exact hg r hr
  · rcases mem_updateUsedIps hr' with hm | ⟨r, hr, rfl⟩
    · exact h.line r' hm
    · exact h.line r (List.mem_of_find?_eq_some hr)

theorem StoreOk.alloc {name : Text} {records records' : List NetworkRecord} {a : UInt32}
    (h : StoreOk records) (ha : allocNewIp name records = some (records', a)) : StoreOk records' := by
  obtain ⟨rfl, hnew, r, hfind, hcount, network, width, hcidr, hlo, hhi, -⟩ := allocNewIp_ok h ha
  have hr := h.record r (List.mem_of_find?_eq_some hfind)
  refine h.update fun x hx => ?_
  rw [hfind] at hx
  cases hx
  have hold := hr.range hcidr
  refine hr.withUsed ?_ ?_ fun network' width' hcidr' => ?_
  · simp only [List.length_append, List.length_singleton]
    omega
  · refine List.nodup_append.2 ⟨hr.nodup, by simp, ?_⟩
    intro x hx y hy hxy
    rw [List.mem_singleton.1 hy] at hxy
    exact hnew (by simpa only [usedIpsOf, hfind] using hxy ▸ hx)
  · rw [hcidr] at hcidr'
    cases hcidr'
    intro x hx
    rcases List.mem_append.1 hx with hx | hx
    · exact hold x hx
    · rw [List.mem_singleton.1 hx]
      have hmod := network.toNat_lt
      have ha := a.toNat_lt
      refine ⟨UInt32.lt_iff_toNat_lt.2 ?_, UInt32.lt_iff_toNat_lt.2 hhi⟩
      rw [UInt32.toNat_add, UInt32.toNat_one]
      omega

theorem StoreOk.release {name : Text} {address : UInt32} {records records' : List NetworkRecord}
    (h : StoreOk records) (hr : releaseUsedIp name address records = some records') :
    StoreOk records' := by
  unfold releaseUsedIp at hr
  split at hr
  · cases hr
    refine h.update fun r hfind => ?_
    have hrec := h.record r (List.mem_of_find?_eq_some hfind)
    refine hrec.withUsed ?_ (hrec.nodup.filter _) fun network width hcidr a ha => ?_
    · exact le_trans (List.length_filter_le _ _) hrec.count
    · exact hrec.range hcidr a (List.mem_filter.1 ha).1
  · cases hr

theorem StoreOk.delete {name : Text} {records : List NetworkRecord} (h : StoreOk records) :
    StoreOk (deleteNetworkInfo name records) := by
  have hsub : List.Sublist (deleteNetworkInfo name records) records := List.filter_sublist
  refine ⟨le_trans hsub.length_le h.count, (hsub.map _).nodup h.names, fun r hr => ?_, fun r hr => ?_⟩
  · exact h.record r (hsub.subset hr)
  · exact h.line r (hsub.subset hr)

/-! ## Canonical files -/

/-- The addresses in use lie between the gateway and the broadcast address. -/
def UsableAddresses (r : NetworkRecord) : Prop :=
  ∃ network width, tdParseIpv4Cidr r.cidr = .ok (network, width) ∧
    ∀ a ∈ r.usedIps, network.toNat + 1 < a.toNat ∧ a.toNat < (network ||| ~~~(cidrMask width)).toNat

theorem RecordOk.usable {r : NetworkRecord} (h : RecordOk r) : UsableAddresses r := by
  obtain ⟨network, width, hcidr, hw⟩ := validateCidr_ok h.cidr
  -- the network address is a multiple of four, so adding 1 does not wrap
  have hmod := cidr_network_mod_four hcidr hw
  have hlt := network.toNat_lt
  have hnext : (network + 1).toNat = network.toNat + 1 := by
    rw [UInt32.toNat_add, UInt32.toNat_one]
    omega
  refine ⟨network, width, hcidr, fun a ha => ?_⟩
  obtain ⟨hlo, hhi⟩ := h.range hcidr a ha
  rw [UInt32.lt_iff_toNat_lt] at hlo hhi
  exact ⟨hnext ▸ hlo, hhi⟩

/-- **Canonical networks files.**  Whatever spelling the loader accepts, the records it returns can be
written, the written file is loaded as the same records, and writing these again gives the same file;
the records are within all limits. -/
theorem networks_file_canonical (file : Option Text) (rs : List NetworkRecord)
    (h : loadNetworkRecords file = some rs) :
    (∃ data, writeNetworkRecords rs = some data ∧ loadNetworkRecords (some data) = some rs ∧
      ∀ rs', loadNetworkRecords (some data) = some rs' → writeNetworkRecords rs' = some data) ∧
    rs.length ≤ 128 ∧ (rs.map (·.name)).Nodup ∧
    ∀ r ∈ rs, r.usedIps.length ≤ 128 ∧ r.usedIps.Nodup ∧ UsableAddresses r := by
  have hok := loadNetworkRecords_ok h
  have hwrite := writeNetworkRecords_of_ok hok.record
  have hload := loadNetworkRecords_write hok hwrite
  refine ⟨⟨_, hwrite, hload, fun rs' h' => ?_⟩, hok.count, hok.names, fun r hr => ?_⟩
  · rw [hload] at h'
    cases h'
    exact hwrite
  · have hrec := hok.record r hr
    exact ⟨hrec.count, hrec.nodup, hrec.usable⟩

/-- Padding, signs and a missing end: the loader accepts them. -/
def looseFile : Text := "lan:bridge:10.0.0.0/+24: 167772162;+167772163\ntinydocker-0:bridge:172.11.11.0/24:".toList

theorem looseFile_canonical :
    loadNetworkRecords (some looseFile) = some
      [⟨"lan".toList, "bridge".toList, "10.0.0.0/+24".toList, [167772162, 167772163]⟩,
        ⟨"tinydocker-0".toList, "bridge".toList, "172.11.11.0/24".toList, []⟩] ∧
    ∃ data, writeNetworkRecords
      [⟨"lan".toList, "bridge".toList, "10.0.0.0/+24".toList, [167772162, 167772163]⟩,
        ⟨"tinydocker-0".toList, "bridge".toList, "172.11.11.0/24".toList, []⟩] = some data ∧
      data ≠ looseFile := by
  have hload : loadNetworkRecords (some looseFile) = some
      [⟨"lan".toList, "bridge".toList, "10.0.0.0/+24".toList, [167772162, 167772163]⟩,
        ⟨"tinydocker-0".toList, "bridge".toList, "172.11.11.0/24".toList, []⟩] := by decide +kernel
  obtain ⟨⟨data, hwrite, -⟩, -⟩ := networks_file_canonical (some looseFile) _ hload
  refine ⟨hload, data, hwrite, fun he => ?_⟩
  have hdiff : writeNetworkRecords
      [⟨"lan".toList, "bridge".toList, "10.0.0.0/+24".toList, [167772162, 167772163]⟩,
        ⟨"tinydocker-0".toList, "bridge".toList, "172.11.11.0/24".toList, []⟩] ≠ some looseFile := by
    decide +kernel
  exact hdiff (he ▸ hwrite)

end TinyDocker
