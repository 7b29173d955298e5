import TinyDocker.Docker.Allocator
import TinyDocker.Docker.Listing

/-!
# The table of networks (`list_network` in `docker/network.c`)

A line for each record: name, driver, CIDR and the addresses in use, with tabs between them.  The addresses of a
line are collected in a buffer of 4096 bytes; `list_network` gives up in the middle of a line if they do not fit.

Principal result: `network_table` — for every networks file that can be loaded the table is complete, and the
records can be read back from it.
-/

set_option autoImplicit false

namespace TinyDocker

open CText

/-! ## The function -/

/-- The loop over `used_ips`, from what `ips` holds. -/
def networkIps (ips : Text) : List UInt32 → Option Text
  | [] => some ips
  | a :: rest =>
    let written := (intToStrIp a 64).getD [] ++ [',']
    if 4096 - ips.length ≤ written.length then none else networkIps (ips ++ written) rest

/-- The columns before the addresses. -/
def networkCells (r : NetworkRecord) : Text := padRight 10 r.name ++ '\t' :: (r.driver ++ '\t' :: padRight 18 r.cidr)

/-- The loop over the records: what is printed, and the value returned. -/
def networkRows : List NetworkRecord → Text × Int
  | [] => ([], 0)
  | r :: rest =>
    match networkIps [] r.usedIps with
    | none => (networkCells r ++ ['\t'], -1)
    | some ips =>
      let below := networkRows rest
      (networkCells r ++ '\t' :: ((if ips = [] then "NULL".toList else ips) ++ '\n' :: below.1), below.2)

def networkTitles : Text :=
  padRight 10 "NAME".toList ++ '\t' :: ("DRIVER".toList ++ '\t' :: (padRight 18 "CIDR".toList ++ "\tALLOC_IPS\n".toList))

/-- `list_network`. -/
def listNetwork (file : Option Text) : Text × Int :=
  match loadNetworkRecords file with
  | none => ([], -1)
  | some records =>
    let rows := networkRows records
    (networkTitles ++ rows.1, rows.2)

/-! ## Reading a line back -/

def ipsText (used : List UInt32) : Text := used.flatMap fun a => Ipv4.inetNtop a ++ [',']

/-- The line of a record. -/
def networkRow (r : NetworkRecord) : Text :=
  networkCells r ++ '\t' :: (if r.usedIps = [] then "NULL".toList else ipsText r.usedIps)

/-- The text in front of the last tab and behind it. -/
def cutLast (s : Text) : Text × Text :=
  match cut '\t' s.reverse with
  | none => ([], s)
  | some (behind, front) => (front.reverse, behind.reverse)

def trimRight (s : Text) : Text := (s.reverse.dropWhile fun c => c == ' ').reverse

/-- A CIDR text may have tabs of its own, so its column ends at the last tab of the line. -/
def readRow (row : Text) : Option NetworkRecord :=
  match cut '\t' row with
  | none => none
  | some (name, rest) =>
    match cut '\t' rest with
    | none => none
    | some (driver, rest) =>
      let (cidr, ips) := cutLast rest
      some ⟨trimRight name, driver, trimRight cidr,
        if ips = "NULL".toList then [] else (tokens (· == ',') ips).filterMap Ipv4.inetPton⟩

section

theorem cutLast_append (front : Text) {behind : Text} (h : '\t' ∉ behind) :
    cutLast (front ++ '\t' :: behind) = (front, behind) := by
  have hrev : (front ++ '\t' :: behind).reverse = behind.reverse ++ '\t' :: front.reverse := by
    rw [List.reverse_append, List.reverse_cons, List.append_assoc]
    rfl
  unfold cutLast
  rw [hrev, cut_append (fun hm => h (List.mem_reverse.1 hm))]
  simp only [List.reverse_reverse]

/-- Padding is trimmed again, if the text does not end with a blank. -/
theorem trimRight_padRight {span : Nat} {text : Text} (h : text.getLast? ≠ some ' ') :
    trimRight (padRight span text) = text := by
  unfold trimRight padRight
  rw [List.reverse_append, List.reverse_replicate, List.dropWhile_append_of_pos]
  · cases hrev : text.reverse with
    | nil =>
      rw [List.reverse_eq_nil_iff.1 hrev]
      rfl
    | cons c rest =>
      have hlast : text.getLast? = some c := by
        rw [List.getLast?_eq_head?_reverse, hrev]
        rfl
      have hc : (c == ' ') = false := by
        rw [beq_eq_false_iff_ne]
        rintro rfl
        exact h hlast
      rw [List.dropWhile_cons_of_neg (by simp [hc]), ← hrev, List.reverse_reverse]
  · intro c hc
    rw [List.eq_of_mem_replicate hc]
    rfl

theorem tokens_ipsText : ∀ used : List UInt32,
    (tokens (· == ',') (ipsText used)).filterMap Ipv4.inetPton = used
  | [] => rfl
  | a :: rest => by
    have hplain : ∀ c ∈ Ipv4.inetNtop a, (c == ',') = false := by
      intro c hc
      rcases Ipv4.inetPton_chars (Ipv4.inetPton_inetNtop a) c hc with rfl | hd
      · rfl
      · rw [beq_eq_false_iff_ne]
        rintro rfl
        exact absurd hd (by decide)
    have htext : ipsText (a :: rest) = Ipv4.inetNtop a ++ ',' :: ipsText rest := by
      unfold ipsText
      rw [List.flatMap_cons, List.append_assoc]
      rfl
    rw [htext, tokens_append (d := (· == ',')) (by decide), tokens_word (Ipv4.inetNtop_ne_nil a) hplain,
      List.singleton_append, List.filterMap_cons_some (Ipv4.inetPton_inetNtop a), tokens_ipsText rest]

theorem ipsText_chars {used : List UInt32} {c : Char} (h : c ∈ ipsText used) :
    c.isDigit = true ∨ c = '.' ∨ c = ',' := by
  obtain ⟨a, -, hc⟩ := List.mem_flatMap.1 h
  rcases List.mem_append.1 hc with hc | hc
  · rcases Ipv4.inetPton_chars (Ipv4.inetPton_inetNtop a) c hc with rfl | hd
    · exact Or.inr (Or.inl rfl)
    · exact Or.inl hd
  · exact Or.inr (Or.inr (List.mem_singleton.1 hc))

/-- A CIDR text ends with a digit. -/
theorem tdParseIpv4Cidr_last {text : Text} {network : UInt32} {width : Nat}
    (h : tdParseIpv4Cidr text = .ok (network, width)) : ∃ c, text.getLast? = some c ∧ c.isDigit = true := by
  unfold tdParseIpv4Cidr at h
  split at h
  · cases h
  rename_i address widthText hcut
  split at h
  · cases h
  split at h
  · cases h
  split at h
  · cases h
  split at h
  · cases h
  rename_i w hlong
  obtain ⟨htext, -⟩ := cut_eq_some hcut
  have hnumber : ∃ neg n, NumberText neg widthText n := by
    unfold tdParseLong at hlong
    split at hlong
    · cases hlong
    split at hlong
    · rename_i parsed hs
      unfold strtol at hs
      split at hs
      · cases hs
      rename_i neg n rest hscan
      split at hs
      · cases hs
      simp only [Option.some.injEq, Prod.mk.injEq] at hs
      rw [hs.2] at hscan
      exact ⟨neg, n, numberText_of_scanInt hscan⟩
    · cases hlong
  obtain ⟨neg, n, space, sign, digits, rfl, -, -, hne, hdigits, -⟩ := hnumber
  refine ⟨digits.getLast hne, ?_, hdigits _ (List.getLast_mem hne)⟩
  rw [htext, List.getLast?_append_cons, ← List.append_assoc, ← List.cons_append,
    List.getLast?_append_of_ne_nil _ hne, List.getLast?_eq_some_getLast hne]

end

/-! ## The whole table -/

/-- The buffer is large enough for 128 addresses. -/
theorem networkIps_eq : ∀ {rest : List UInt32} {ips : Text}, ips.length + 16 * rest.length < 4096 →
    networkIps ips rest = some (ips ++ ipsText rest)
  | [], ips, _ => by
    unfold networkIps ipsText
    rw [List.flatMap_nil, List.append_nil]
  | a :: rest, ips, hroom => by
    have hlen := Ipv4.inetNtop_length a
    rw [List.length_cons] at hroom
    have hnext : (ips ++ (Ipv4.inetNtop a ++ [','])).length + 16 * rest.length < 4096 := by
      rw [List.length_append, List.length_append, List.length_singleton]
      omega
    unfold networkIps
    rw [intToStrIp_of_room a (by decide), Option.getD_some]
    simp only
    rw [if_neg (by rw [List.length_append, List.length_singleton]; omega), networkIps_eq hnext, List.append_assoc]
    rfl

theorem RecordOk.ips {r : NetworkRecord} (h : RecordOk r) : networkIps [] r.usedIps = some (ipsText r.usedIps) := by
  have hcount := h.count
  simp only [TD_NETWORK_MAX_USED_IPS] at hcount
  rw [networkIps_eq (by rw [List.length_nil]; omega), List.nil_append]

theorem ipsText_eq_nil {used : List UInt32} : ipsText used = [] ↔ used = [] := by
  cases used with
  | nil => exact ⟨fun _ => rfl, fun _ => rfl⟩
  | cons a rest =>
    refine ⟨fun h => ?_, fun h => (by cases h)⟩
    unfold ipsText at h
    rw [List.flatMap_cons, List.append_assoc, List.append_eq_nil_iff] at h
    exact absurd h.1 (Ipv4.inetNtop_ne_nil a)

theorem networkRows_eq : ∀ {records : List NetworkRecord}, (∀ r ∈ records, RecordOk r) →
    networkRows records = ((records.map networkRow).flatMap (· ++ ['\n']), 0)
  | [], _ => rfl
  | r :: rest, h => by
    have ih := networkRows_eq fun x hx => h x (List.mem_cons_of_mem _ hx)
    unfold networkRows
    rw [(h r List.mem_cons_self).ips]
    simp only [ih, ipsText_eq_nil, List.map_cons, List.flatMap_cons]
    unfold networkRow
    simp only [List.append_assoc, List.cons_append, List.nil_append]

/-- No column of a record that can be loaded has a line break, and only a CIDR can have a tab. -/
theorem RecordOk.columns {r : NetworkRecord} (h : RecordOk r) :
    '\t' ∉ padRight 10 r.name ∧ '\n' ∉ padRight 10 r.name ∧ r.name.getLast? ≠ some ' ' ∧
      r.cidr.getLast? ≠ some ' ' := by
  obtain ⟨-, -, hchars⟩ := tdValidateName_ok h.name
  obtain ⟨network, width, hcidr, -⟩ := validateCidr_ok h.cidr
  obtain ⟨c, hlast, hdigit⟩ := tdParseIpv4Cidr_last hcidr
  have hname : ∀ x, nameChar x = false → x ≠ ' ' → x ∉ padRight 10 r.name := by
    intro x hx hne hm
    rcases mem_padRight hm with hm | rfl
    · rw [hchars x hm] at hx
      cases hx
    · exact hne rfl
  refine ⟨hname _ (by decide) (by decide), hname _ (by decide) (by decide), fun hblank => ?_, fun hblank => ?_⟩
  · have hc := hchars ' ' (List.mem_of_getLast? hblank)
    exact absurd hc (by decide)
  · rw [hlast] at hblank
    cases hblank
    exact absurd hdigit (by decide)

theorem readRow_networkRow {r : NetworkRecord} (h : RecordOk r) : readRow (networkRow r) = some r := by
  obtain ⟨htab, -, hname, hcidr⟩ := h.columns
  have hdriver : '\t' ∉ r.driver := by
    rw [h.driver]
    decide
  have hips : '\t' ∉ (if r.usedIps = [] then "NULL".toList else ipsText r.usedIps) := by
    split
    · decide
    · intro hm
      rcases ipsText_chars hm with h | h | h
      · exact absurd h (by decide)
      · exact absurd h (by decide)
      · exact absurd h (by decide)
  have hread : (if (if r.usedIps = [] then "NULL".toList else ipsText r.usedIps) = "NULL".toList then []
      else (tokens (· == ',') (if r.usedIps = [] then "NULL".toList else ipsText r.usedIps)).filterMap
        Ipv4.inetPton) = r.usedIps := by
    by_cases hnil : r.usedIps = []
    · rw [if_pos hnil, if_pos rfl, hnil]
    · rw [if_neg hnil, if_neg, tokens_ipsText]
      intro heq
      have hn : 'N' ∈ ipsText r.usedIps := by
        rw [heq]
        decide
      rcases ipsText_chars hn with h | h | h
      · exact absurd h (by decide)
      · exact absurd h (by decide)
      · exact absurd h (by decide)
  have hrow : networkRow r = padRight 10 r.name ++ '\t' :: (r.driver ++ '\t' :: (padRight 18 r.cidr ++ '\t' ::
      (if r.usedIps = [] then "NULL".toList else ipsText r.usedIps))) := by
    unfold networkRow networkCells
    simp only [List.append_assoc, List.cons_append]
  unfold readRow
  rw [hrow, cut_append htab]
  simp only
  rw [cut_append hdriver]
  simp only
  rw [cutLast_append _ hips]
  simp only
  rw [hread, trimRight_padRight hname, trimRight_padRight hcidr]

theorem networkRow_break {r : NetworkRecord} (h : RecordOk r) (hcidr : '\n' ∉ r.cidr) : '\n' ∉ networkRow r := by
  obtain ⟨-, hname, -⟩ := h.columns
  intro hm
  unfold networkRow networkCells at hm
  simp only [List.mem_append, List.mem_cons] at hm
  rcases hm with (hm | hm | hm | hm | hm) | hm | hm
  · exact hname hm
  · cases hm
  · rw [h.driver] at hm
    revert hm
    decide
  · cases hm
  · rcases mem_padRight hm with hm | hm
    · exact hcidr hm
    · cases hm
  · cases hm
  · split at hm
    · revert hm
      decide
    · rcases ipsText_chars hm with h | h | h
      · exact absurd h (by decide)
      · exact absurd h (by decide)
      · exact absurd h (by decide)

/-- **The table of networks.**  For every networks file: if it cannot be loaded, nothing is printed and -1 is
returned; otherwise 0 is returned and the table has the line of titles and then one line for each record, in
the order of the file, from which the record can be read back with all its addresses. -/
theorem network_table (file : Option Text) :
    match loadNetworkRecords file with
    | none => listNetwork file = ([], -1)
    | some records => (listNetwork file).2 = 0 ∧ ∃ rows : List Text,
        pieces '\n' (listNetwork file).1 = networkTitles.dropLast :: rows ∧ rows.map readRow = records.map some := by
  split
  · rename_i hload
    unfold listNetwork
    rw [hload]
  rename_i records hload
  have hok := loadNetworkRecords_ok hload
  have hlist : listNetwork file = (networkTitles ++ (records.map networkRow).flatMap (· ++ ['\n']), 0) := by
    unfold listNetwork
    rw [hload]
    simp only
    rw [networkRows_eq hok.record]
  rw [hlist]
  refine ⟨rfl, records.map networkRow, ?_, ?_⟩
  · have htitles : networkTitles ++ (records.map networkRow).flatMap (· ++ ['\n']) =
        (networkTitles.dropLast :: records.map networkRow).flatMap (· ++ ['\n']) := by
      rw [List.flatMap_cons]
      rfl
    simp only
    rw [htitles]
    refine pieces_flatMap fun l hl => ?_
    rcases List.mem_cons.1 hl with rfl | hl
    · decide
    · obtain ⟨r, hr, rfl⟩ := List.mem_map.1 hl
      exact networkRow_break (hok.record r hr) (hok.line r hr).1
  · rw [List.map_map]
    exact List.map_congr_left fun r hr => readRow_networkRow (hok.record r hr)

/-- A tab in a CIDR, which `strtol` skips. -/
example : (readRow "lan       \tbridge\t10.0.0.0/\t24      \t10.0.0.2,".toList) =
    some ⟨"lan".toList, "bridge".toList, "10.0.0.0/\t24".toList, [167772162]⟩ := by decide +kernel

end TinyDocker
