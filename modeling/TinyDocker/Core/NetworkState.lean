import TinyDocker.Core.Safety

/-!
# The network record codec (`core/network_state.c`)

A network is stored as one line `name:driver:cidr:ip;ip;...;`.  `tdFormatNetworkRecord` writes
it, `tdParseNetworkRecord` reads it back; each validates on its own.

Principal results:

* `RecordOk` — the checks both sides make, and `tdFormatNetworkRecord_eq`,
  `tdParseNetworkRecord_recordOk` — the encoder accepts exactly such records and the decoder
  returns only such records;
* `tdParseNetworkRecord_format` — the decoder inverts the encoder for every such record whose
  CIDR text has no line separator in it.

The prefix length goes through `strtol`, which skips white space, so the encoder also accepts a
CIDR text with a newline before the prefix digits; `network_record_roundtrip_iff` is the exact
boundary.
-/

set_option autoImplicit false

namespace TinyDocker

open CText

def TD_NETWORK_MAX_RECORDS : Nat := 128
def TD_NETWORK_MAX_USED_IPS : Nat := 128
def TD_NETWORK_NAME_SIZE : Nat := 16
def TD_NETWORK_DRIVER_SIZE : Nat := 16
def TD_NETWORK_CIDR_SIZE : Nat := 32

/-- `struct td_network_record`; `used_ip_count` is the length of `usedIps`. -/
structure NetworkRecord where
  name : Text
  driver : Text
  cidr : Text
  usedIps : List UInt32
  deriving DecidableEq, Repr

/-! ## Validation -/

def validateCidr (cidr : Text) : Except String Unit :=
  match cut '/' cidr with
  -- `slash == NULL` leaves the error buffer as it was
  | none => .error ""
  | some (address, _) =>
    match tdParseIpv4Cidr cidr with
    | .error e => .error e
    | .ok (network, width) =>
      if 30 < width then
        .error "bridge CIDR needs room for gateway and container addresses"
      else if address = [] ∨ 16 ≤ address.length then .error "invalid network CIDR address"
      else if Ipv4.inetPton address ≠ some network then
        .error "CIDR address must be the network address"
      else .ok ()

/-- The loop of `validate_allocated_addresses`; `previous` are the addresses already seen. -/
def checkAddresses (network broadcast : UInt32) : List UInt32 → List UInt32 → Except String Unit
  | _, [] => .ok ()
  | previous, a :: rest =>
    if a ≤ network + 1 ∨ broadcast ≤ a then
      .error "allocated address is outside the usable CIDR range"
    else if a ∈ previous then .error "duplicate allocated network address"
    else checkAddresses network broadcast (previous ++ [a]) rest

def validateAllocatedAddresses (record : NetworkRecord) : Except String Unit :=
  match tdParseIpv4Cidr record.cidr with
  | .error e => .error e
  | .ok (network, width) =>
    checkAddresses network (network ||| ~~~(cidrMask width)) [] record.usedIps

theorem validateCidr_ok {cidr : Text} (h : validateCidr cidr = .ok ()) :
    ∃ network width, tdParseIpv4Cidr cidr = .ok (network, width) ∧ width ≤ 30 := by
  unfold validateCidr at h
  split at h
  · cases h
  split at h
  · cases h
  rename_i network width hparse
  split at h
  · cases h
  rename_i hw
  exact ⟨network, width, hparse, by omega⟩

theorem checkAddresses_ok {network broadcast : UInt32} :
    ∀ {l previous : List UInt32}, checkAddresses network broadcast previous l = .ok () →
      (∀ a ∈ l, network + 1 < a ∧ a < broadcast ∧ a ∉ previous) ∧ l.Nodup
  | [], _, _ => by simp
  | a :: l, previous, h => by
    unfold checkAddresses at h
    split at h
    · cases h
    rename_i hr
    split at h
    · cases h
    rename_i hm
    obtain ⟨hall, hnd⟩ := checkAddresses_ok h
    simp only [not_or, UInt32.not_le] at hr
    refine ⟨fun b hb => ?_, ?_⟩
    · rcases List.mem_cons.1 hb with rfl | hb
      · exact ⟨hr.1, hr.2, hm⟩
      · obtain ⟨h1, h2, h3⟩ := hall b hb
        exact ⟨h1, h2, fun hp => h3 (by simp [hp])⟩
    · exact List.nodup_cons.2 ⟨fun ha => (hall a ha).2.2 (by simp), hnd⟩

theorem checkAddresses_of_forall {network broadcast : UInt32} :
    ∀ {l previous : List UInt32},
      (∀ a ∈ l, network + 1 < a ∧ a < broadcast ∧ a ∉ previous) → l.Nodup →
      checkAddresses network broadcast previous l = .ok ()
  | [], _, _, _ => rfl
  | a :: l, previous, h, hnd => by
    obtain ⟨h1, h2, h3⟩ := h a (by simp)
    obtain ⟨hal, hnd'⟩ := List.nodup_cons.1 hnd
    unfold checkAddresses
    rw [if_neg (by simp [UInt32.not_le, h1, h2]), if_neg h3]
    refine checkAddresses_of_forall (fun b hb => ?_) hnd'
    obtain ⟨g1, g2, g3⟩ := h b (by simp [hb])
    refine ⟨g1, g2, ?_⟩
    simp only [List.mem_append, List.mem_singleton, not_or]
    exact ⟨g3, fun hba => hal (hba ▸ hb)⟩

/-- What the encoder checks of a record, and what the decoder guarantees of one. -/
structure RecordOk (r : NetworkRecord) : Prop where
  count : r.usedIps.length ≤ TD_NETWORK_MAX_USED_IPS
  name : tdValidateName r.name (TD_NETWORK_NAME_SIZE - 1) = .ok ()
  driver : r.driver = "bridge".toList
  cidr : validateCidr r.cidr = .ok ()
  addresses : validateAllocatedAddresses r = .ok ()
  nonzero : (0 : UInt32) ∉ r.usedIps

theorem RecordOk.nodup {r : NetworkRecord} (h : RecordOk r) : r.usedIps.Nodup := by
  have ha := h.addresses
  unfold validateAllocatedAddresses at ha
  split at ha
  · cases ha
  · exact (checkAddresses_ok ha).2

/-! ## Encoding -/

/-- The address loop of `td_format_network_record`, appending to `out`. -/
def formatUsedIps (outputSize : Nat) : Text → List UInt32 → Except String Text
  | out, [] => .ok out
  | out, a :: rest =>
    if a = 0 then .error "invalid allocated network address"
    else
      let out' := out ++ (Nat.toDigits 10 a.toNat ++ [';'])
      if outputSize ≤ out'.length then .error "network record output is too small"
      else formatUsedIps outputSize out' rest

def tdFormatNetworkRecord (record : NetworkRecord) (outputSize : Nat) : Except String Text :=
  if outputSize = 0 ∨ TD_NETWORK_MAX_USED_IPS < record.usedIps.length ∨
      tdValidateName record.name (TD_NETWORK_NAME_SIZE - 1) ≠ .ok () ∨
      record.driver ≠ "bridge".toList ∨ validateCidr record.cidr ≠ .ok () ∨
      validateAllocatedAddresses record ≠ .ok () then
    .error "invalid network record values"
  else
    let out := record.name ++ ':' :: (record.driver ++ ':' :: (record.cidr ++ [':']))
    if outputSize ≤ out.length then .error "network record output is too small"
    else formatUsedIps outputSize out record.usedIps

/-- The text of an address list. -/
def usedIpsText (l : List UInt32) : Text := (l.map fun a => Nat.toDigits 10 a.toNat).flatMap (· ++ [';'])

theorem usedIpsText_cons (a : UInt32) (l : List UInt32) :
    usedIpsText (a :: l) = Nat.toDigits 10 a.toNat ++ ';' :: usedIpsText l := by
  simp [usedIpsText]

/-- The text of a record. -/
def recordText (r : NetworkRecord) : Text :=
  r.name ++ ':' :: (r.driver ++ ':' :: (r.cidr ++ ':' :: usedIpsText r.usedIps))

theorem formatUsedIps_ok {size : Nat} : ∀ {l : List UInt32} {out res : Text},
    formatUsedIps size out l = .ok res → (0 : UInt32) ∉ l ∧ res = out ++ usedIpsText l ∧
      (out.length < size → res.length < size)
  | [], out, res, h => by
    cases h
    simp [usedIpsText]
  | a :: l, out, res, h => by
    simp only [formatUsedIps] at h
    split at h
    · cases h
    rename_i ha
    split at h
    · cases h
    rename_i hlen
    obtain ⟨h0, hres, hsz⟩ := formatUsedIps_ok h
    refine ⟨?_, ?_, fun _ => hsz (by omega)⟩
    · simp only [List.mem_cons, not_or]
      exact ⟨Ne.symm ha, h0⟩
    · rw [hres, usedIpsText_cons]
      simp

/-- The encoder accepts only records that pass `RecordOk`, and writes `recordText`. -/
theorem tdFormatNetworkRecord_eq {r : NetworkRecord} {size : Nat} {out : Text}
    (h : tdFormatNetworkRecord r size = .ok out) :
    RecordOk r ∧ out = recordText r ∧ out.length < size := by
  unfold tdFormatNetworkRecord at h
  split at h
  · cases h
  rename_i hc
  simp only [not_or, not_not, Nat.not_lt] at hc
  obtain ⟨-, hcount, hname, hdriver, hcidr, haddr⟩ := hc
  simp only at h
  split at h
  · cases h
  rename_i hlen
  obtain ⟨h0, hout, hsz⟩ := formatUsedIps_ok h
  refine ⟨⟨hcount, hname, hdriver, hcidr, haddr, h0⟩, ?_, hsz (by omega)⟩
  rw [hout, recordText]
  simp

theorem usedIpsText_length (l : List UInt32) : (usedIpsText l).length ≤ 11 * l.length := by
  induction l with
  | nil => simp [usedIpsText]
  | cons a l ih =>
    have hd : (Nat.toDigits 10 a.toNat).length ≤ 10 :=
      (Nat.length_toDigits_le_iff (by decide) (by decide)).2 (by have := a.toNat_lt; omega)
    rw [usedIpsText_cons]
    simp only [List.length_append, List.length_cons]
    omega

/-- A record that passes the checks always fits the 4096-byte buffer. -/
theorem RecordOk.text_length {r : NetworkRecord} (h : RecordOk r) :
    (recordText r).length < 1500 := by
  have h1 := (tdValidateName_ok h.name).2.1
  obtain ⟨network, width, hcidr, -⟩ := validateCidr_ok h.cidr
  have h2 := (tdParseIpv4Cidr_chars hcidr).1
  have h3 := usedIpsText_length r.usedIps
  have h4 := h.count
  have h5 : r.driver.length = 6 := by rw [h.driver]; decide
  simp only [TD_NETWORK_NAME_SIZE, TD_NETWORK_MAX_USED_IPS] at h1 h4
  simp only [recordText, List.length_append, List.length_cons]
  omega

theorem formatUsedIps_of_fits {size : Nat} : ∀ {l : List UInt32} {out : Text},
    (0 : UInt32) ∉ l → (out ++ usedIpsText l).length < size →
      formatUsedIps size out l = .ok (out ++ usedIpsText l)
  | [], out, _, _ => by simp [formatUsedIps, usedIpsText]
  | a :: l, out, h0, hlen => by
    simp only [List.mem_cons, not_or] at h0
    rw [usedIpsText_cons] at hlen ⊢
    simp only [List.length_append, List.length_cons] at hlen
    simp only [formatUsedIps, if_neg (Ne.symm h0.1)]
    rw [if_neg (by simp only [List.length_append, List.length_cons, List.length_nil]; omega),
      formatUsedIps_of_fits h0.2 (by simp; omega)]
    simp

theorem tdFormatNetworkRecord_of_ok {r : NetworkRecord} (h : RecordOk r) :
    tdFormatNetworkRecord r 4096 = .ok (recordText r) := by
  have hlen := h.text_length
  unfold tdFormatNetworkRecord
  rw [if_neg (by
    simp only [not_or, not_not, Nat.not_lt]
    exact ⟨by decide, h.count, h.name, h.driver, h.cidr, h.addresses⟩)]
  have hsplit : recordText r = (r.name ++ ':' :: (r.driver ++ ':' :: (r.cidr ++ [':']))) ++
      usedIpsText r.usedIps := by simp [recordText]
  rw [hsplit] at hlen ⊢
  simp only
  rw [if_neg (by simp only [List.length_append] at hlen ⊢; omega),
    formatUsedIps_of_fits h.nonzero (by omega)]

/-! ## Decoding -/

/-- `parse_used_ips` on the `;`-separated pieces; `acc` are the addresses already stored. -/
def parseUsedIps : List UInt32 → List Text → Except String (List UInt32)
  | acc, [] => .ok acc
  | acc, p :: ps =>
    if TD_NETWORK_MAX_USED_IPS ≤ acc.length then .error "too many allocated network addresses"
    else if p = [] then .error "empty allocated network address"
    else match strtoull p with
      | some (parsed, []) =>
        if parsed = 0 ∨ 0xFFFFFFFF < parsed then .error "invalid allocated network address"
        else if UInt32.ofNat parsed ∈ acc then .error "duplicate allocated network address"
        else parseUsedIps (acc ++ [UInt32.ofNat parsed]) ps
      | _ => .error "invalid allocated network address"

/-- `copy_value`. -/
def copyValue (size : Nat) (value : Text) (field : String) : Except String Text :=
  if value = [] ∨ size ≤ value.length then .error ("invalid network field length: " ++ field)
  else .ok value

/-- The field checks of `td_parse_network_record`, in the order of the source. -/
def parseNetworkFields (name driver cidr ips : Text) : Except String NetworkRecord :=
  match tdValidateName name (TD_NETWORK_NAME_SIZE - 1) with
  | .error e => .error e
  | .ok () =>
    if driver ≠ "bridge".toList then .error "unsupported network driver"
    else match copyValue TD_NETWORK_NAME_SIZE name "name",
        copyValue TD_NETWORK_DRIVER_SIZE driver "driver",
        copyValue TD_NETWORK_CIDR_SIZE cidr "cidr" with
      | .ok name, .ok driver, .ok cidr =>
        match validateCidr cidr, parseUsedIps [] (pieces ';' ips) with
        | .error e, _ => .error e
        | .ok (), .error e => .error e
        | .ok (), .ok used =>
          match validateAllocatedAddresses ⟨name, driver, cidr, used⟩ with
          | .error e => .error e
          | .ok () => .ok ⟨name, driver, cidr, used⟩
      | .error e, _, _ => .error e
      | _, .error e, _ => .error e
      | _, _, .error e => .error e

def tdParseNetworkRecord (line : Text) : Except String NetworkRecord :=
  if line = [] ∨ 4096 ≤ line.length ∨ '\n' ∈ line ∨ '\r' ∈ line then
    .error "invalid network record length"
  else match cut ':' line with
    | none => .error "network record is missing fields"
    | some (name, line) =>
      match cut ':' line with
      | none => .error "network record is missing fields"
      | some (driver, line) =>
        match cut ':' line with
        | none => .error "network record is missing fields"
        | some (cidr, ips) =>
          if ':' ∈ ips then .error "network record has extra fields"
          else match parseNetworkFields name driver cidr ips with
            | .ok r => .ok r
            -- a wrong driver is reported as such whatever else failed first
            | .error e => .error (if driver ≠ "bridge".toList then "unsupported network driver" else e)

theorem parseUsedIps_text {acc : List UInt32} : ∀ {l : List UInt32},
    acc.length + l.length ≤ TD_NETWORK_MAX_USED_IPS → (0 : UInt32) ∉ l → l.Nodup →
    (∀ a ∈ l, a ∉ acc) →
      parseUsedIps acc (l.map fun a => Nat.toDigits 10 a.toNat) = .ok (acc ++ l)
  | [], _, _, _, _ => by simp [parseUsedIps]
  | a :: l, hlen, h0, hnd, hacc => by
    have hlt := a.toNat_lt
    simp only [List.length_cons] at hlen
    simp only [List.mem_cons, not_or] at h0
    obtain ⟨hal, hnd'⟩ := List.nodup_cons.1 hnd
    have hne : a.toNat ≠ 0 := fun h => h0.1 (by rw [← UInt32.toNat_inj, h]; rfl)
    have hread : strtoull (Nat.toDigits 10 a.toNat) = some (a.toNat, []) := by
      have hlt' : a.toNat < 2 ^ 64 := by omega
      have hend : ∀ c ∈ ([] : Text).head?, c.isDigit = false := by simp
      simpa using strtoull_toDigits hlt' hend
    simp only [List.map_cons, parseUsedIps]
    rw [if_neg (by omega), if_neg Nat.toDigits_ne_nil, hread]
    simp only [UInt32.ofNat_toNat]
    rw [if_neg (by omega), if_neg (hacc a (by simp)),
      parseUsedIps_text (by simp; omega) h0.2 hnd' (fun b hb => ?_)]
    · simp
    · simp only [List.mem_append, List.mem_singleton, not_or]
      exact ⟨hacc b (by simp [hb]), fun h => hal (h ▸ hb)⟩

theorem sep_not_mem_toDigits (a : UInt32) : ';' ∉ Nat.toDigits 10 a.toNat := by
  intro h
  exact absurd (isDigit_toDigits h) (by decide)

theorem usedIpsText_chars {l : List UInt32} {c : Char} (h : c ∈ usedIpsText l) :
    c = ';' ∨ c.isDigit = true := by
  induction l with
  | nil => simp [usedIpsText] at h
  | cons a l ih =>
    rw [usedIpsText_cons] at h
    simp only [List.mem_append, List.mem_cons] at h
    rcases h with h | h | h
    · exact Or.inr (isDigit_toDigits h)
    · exact Or.inl h
    · exact ih h

theorem parseUsedIps_usedIpsText {r : NetworkRecord} (h : RecordOk r) :
    parseUsedIps [] (pieces ';' (usedIpsText r.usedIps)) = .ok r.usedIps := by
  have hp : pieces ';' (usedIpsText r.usedIps) = r.usedIps.map fun a => Nat.toDigits 10 a.toNat := by
    apply pieces_flatMap
    intro l hl
    obtain ⟨a, -, rfl⟩ := List.mem_map.1 hl
    exact sep_not_mem_toDigits a
  rw [hp, parseUsedIps_text (by simpa using h.count) h.nonzero h.nodup (by simp)]
  rfl

theorem parseNetworkFields_of_ok {r : NetworkRecord} (h : RecordOk r) :
    parseNetworkFields r.name r.driver r.cidr (usedIpsText r.usedIps) = .ok r := by
  obtain ⟨hne, hlen, -⟩ := tdValidateName_ok h.name
  obtain ⟨network, width, hcidr, -⟩ := validateCidr_ok h.cidr
  obtain ⟨hclen, hcne, -⟩ := tdParseIpv4Cidr_chars hcidr
  have hdriver : copyValue TD_NETWORK_DRIVER_SIZE r.driver "driver" = .ok r.driver := by
    rw [h.driver]; rfl
  simp only [TD_NETWORK_NAME_SIZE] at hlen
  unfold parseNetworkFields
  rw [h.name]
  simp only [h.driver, ne_eq, not_true_eq_false, ↓reduceIte]
  rw [← h.driver, hdriver, copyValue, if_neg (by simp [hne, TD_NETWORK_NAME_SIZE]; omega),
    copyValue, if_neg (by simp [hcne, TD_NETWORK_CIDR_SIZE]; omega)]
  simp only [h.cidr, parseUsedIps_usedIpsText h]
  rw [h.addresses]

/-- The separators of the line format occur in no field of an accepted record, the CIDR's line
separators apart. -/
theorem RecordOk.line_sep {r : NetworkRecord} (h : RecordOk r) {c : Char} (hc : c = '\n' ∨ c = '\r')
    (hm : c ∈ recordText r) : c ∈ r.cidr := by
  have hname := not_mem_of_nameChar (tdValidateName_ok h.name).2.2 (c := c)
    (by rcases hc with rfl | rfl <;> decide)
  have hdriver : c ∉ r.driver := by rw [h.driver]; rcases hc with rfl | rfl <;> decide
  have hcolon : c ≠ ':' := by rcases hc with rfl | rfl <;> decide
  simp only [recordText, List.mem_append, List.mem_cons] at hm
  rcases hm with hm | hm | hm | hm | hm | hm | hm
  · exact absurd hm hname
  · exact absurd hm hcolon
  · exact absurd hm hdriver
  · exact absurd hm hcolon
  · exact hm
  · exact absurd hm hcolon
  · rcases usedIpsText_chars hm with rfl | hd
    · exact absurd hc (by decide)
    · rcases hc with rfl | rfl <;> exact absurd hd (by decide)

/-- No accepted record has a NUL byte in its text. -/
theorem RecordOk.no_nul {r : NetworkRecord} (h : RecordOk r) : '\x00' ∉ recordText r := by
  have hname := not_mem_of_nameChar (tdValidateName_ok h.name).2.2 (c := '\x00') (by decide)
  have hdriver : '\x00' ∉ r.driver := by rw [h.driver]; decide
  obtain ⟨network, width, hcidr, -⟩ := validateCidr_ok h.cidr
  intro hm
  simp only [recordText, List.mem_append, List.mem_cons] at hm
  rcases hm with hm | hm | hm | hm | hm | hm | hm
  · exact hname hm
  · exact absurd hm (by decide)
  · exact hdriver hm
  · exact absurd hm (by decide)
  · exact absurd ((tdParseIpv4Cidr_chars hcidr).2.2 _ hm) (by decide)
  · exact absurd hm (by decide)
  · rcases usedIpsText_chars hm with hc | hc <;> exact absurd hc (by decide)

/-- **The decoder inverts the encoder** for records whose CIDR text is a single line. -/
theorem tdParseNetworkRecord_format {r : NetworkRecord} (h : RecordOk r)
    (hline : '\n' ∉ r.cidr ∧ '\r' ∉ r.cidr) : tdParseNetworkRecord (recordText r) = .ok r := by
  have hlen := h.text_length
  have hname := not_mem_of_nameChar (tdValidateName_ok h.name).2.2 (c := ':') (by decide)
  have hdriver : ':' ∉ r.driver := by rw [h.driver]; decide
  obtain ⟨network, width, hcidr, -⟩ := validateCidr_ok h.cidr
  have hcc : ':' ∉ r.cidr := fun hm =>
    absurd ((tdParseIpv4Cidr_chars hcidr).2.2 _ hm) (by decide)
  have hips : ':' ∉ usedIpsText r.usedIps := by
    intro hm
    rcases usedIpsText_chars hm with hc | hc <;> exact absurd hc (by decide)
  have hempty : recordText r ≠ [] := by simp [recordText]
  unfold tdParseNetworkRecord
  rw [if_neg (by
    simp only [not_or, Nat.not_le]
    exact ⟨hempty, by omega, fun hm => hline.1 (h.line_sep (Or.inl rfl) hm),
      fun hm => hline.2 (h.line_sep (Or.inr rfl) hm)⟩)]
  rw [recordText, cut_append hname]
  simp only [cut_append hdriver, cut_append hcc, if_neg hips, parseNetworkFields_of_ok h]

theorem parseUsedIps_length : ∀ {ps : List Text} {acc used : List UInt32},
    acc.length ≤ TD_NETWORK_MAX_USED_IPS → parseUsedIps acc ps = .ok used →
      used.length ≤ TD_NETWORK_MAX_USED_IPS
  | [], _, _, hacc, h => by cases h; exact hacc
  | p :: ps, acc, used, hacc, h => by
    unfold parseUsedIps at h
    split at h
    · cases h
    rename_i hlen
    split at h
    · cases h
    split at h
    · split at h
      · cases h
      split at h
      · cases h
      · refine parseUsedIps_length ?_ h
        simp only [List.length_append, List.length_singleton]
        omega
    · cases h

theorem nonzero_of_addresses {r : NetworkRecord} (h : validateAllocatedAddresses r = .ok ()) :
    (0 : UInt32) ∉ r.usedIps := by
  unfold validateAllocatedAddresses at h
  split at h
  · cases h
  · intro hm
    have hlt := ((checkAddresses_ok h).1 0 hm).1
    exact absurd (UInt32.lt_iff_toNat_lt.1 hlt) (Nat.not_lt_zero _)

theorem parseNetworkFields_recordOk {name driver cidr ips : Text} {r : NetworkRecord}
    (h : parseNetworkFields name driver cidr ips = .ok r) : RecordOk r ∧ r.cidr = cidr := by
  unfold parseNetworkFields at h
  split at h
  · cases h
  rename_i hname
  split at h
  · cases h
  rename_i hdriver
  split at h
  · rename_i name' driver' cidr' hn hd hc
    split at h
    · cases h
    · cases h
    rename_i used hcidr hips
    split at h
    · cases h
    rename_i haddr
    cases h
    have hcopy : ∀ {size : Nat} {value value' : Text} {field : String},
        copyValue size value field = .ok value' → value' = value := by
      intro size value value' field hv
      unfold copyValue at hv
      split at hv
      · cases hv
      · cases hv; rfl
    rw [hcopy hn] at haddr ⊢
    rw [hcopy hd] at haddr ⊢
    refine ⟨⟨?_, hname, not_not.1 hdriver, hcidr, haddr, nonzero_of_addresses haddr⟩, hcopy hc⟩
    exact parseUsedIps_length (by decide) hips
  · cases h
  · cases h
  · cases h

/-- The decoder returns only records that pass the encoder's checks, on a single line. -/
theorem tdParseNetworkRecord_recordOk {line : Text} {r : NetworkRecord}
    (h : tdParseNetworkRecord line = .ok r) : RecordOk r ∧ '\n' ∉ r.cidr ∧ '\r' ∉ r.cidr := by
  unfold tdParseNetworkRecord at h
  split at h
  · cases h
  rename_i hl
  simp only [not_or] at hl
  split at h
  · cases h
  rename_i name rest₁ hcut₁
  split at h
  · cases h
  rename_i driver rest₂ hcut₂
  split at h
  · cases h
  rename_i cidr ips hcut₃
  split at h
  · cases h
  split at h
  · rename_i r' hf
    cases h
    obtain ⟨hok, hcidr⟩ := parseNetworkFields_recordOk hf
    have hmem : ∀ c ∈ cidr, c ∈ line := by
      intro c hc
      rw [(cut_eq_some hcut₁).1, (cut_eq_some hcut₂).1, (cut_eq_some hcut₃).1]
      simp [hc]
    rw [hcidr]
    exact ⟨hok, fun hm => hl.2.2.1 (hmem _ hm), fun hm => hl.2.2.2 (hmem _ hm)⟩
  · cases h

/-- **When an accepted record reads back.**  The encoder's line is decoded to the same record if
and only if the CIDR text holds no newline and no carriage return. -/
theorem network_record_roundtrip_iff (r : NetworkRecord) (out : Text)
    (h : tdFormatNetworkRecord r 4096 = .ok out) :
    tdParseNetworkRecord out = .ok r ↔ '\n' ∉ r.cidr ∧ '\r' ∉ r.cidr := by
  obtain ⟨hok, rfl, -⟩ := tdFormatNetworkRecord_eq h
  constructor
  · intro hp
    unfold tdParseNetworkRecord at hp
    split at hp
    · cases hp
    rename_i hl
    simp only [not_or] at hl
    exact ⟨fun hm => hl.2.2.1 (by simp [recordText, hm]), fun hm => hl.2.2.2 (by simp [recordText, hm])⟩
  · exact tdParseNetworkRecord_format hok

/-- A record of the kind `network create` stores reads back. -/
theorem network_record_roundtrip_default :
    tdParseNetworkRecord "tinydocker-0:bridge:172.11.11.0/24:2886404866;".toList =
      .ok ⟨"tinydocker-0".toList, "bridge".toList, "172.11.11.0/24".toList, [2886404866]⟩ :=
  (network_record_roundtrip_iff
    ⟨"tinydocker-0".toList, "bridge".toList, "172.11.11.0/24".toList, [2886404866]⟩ _
    (by decide +kernel)).2 (by decide)

/-- The record of `network create lan $'10.0.0.0/\n24'`. -/
def newlineRecord : NetworkRecord :=
  ⟨"lan".toList, "bridge".toList, "10.0.0.0/\n24".toList, []⟩

/-- The encoder accepts it and the decoder rejects the line. -/
theorem newline_record_unreadable :
    ∃ out, tdFormatNetworkRecord newlineRecord 4096 = .ok out ∧
      tdParseNetworkRecord out ≠ .ok newlineRecord :=
  ⟨recordText newlineRecord, by decide +kernel, by decide +kernel⟩

end TinyDocker
