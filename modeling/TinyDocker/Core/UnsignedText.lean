import TinyDocker.Core.NetworkState
import TinyDocker.Core.ProcStat
import TinyDocker.Core.CgroupParse

/-!
# The decoders around `strtoull`

Four decoders read an unsigned number: `parse_unsigned_long_long` of the metadata, the addresses of
`parse_used_ips`, the start time of `td_parse_proc_stat_start_time` and the value of
`td_parse_cgroup_stat`.  Each takes what `strtoull` reads to the end of the text, and `strtoull` takes a
minus sign.

Principal result: `unsigned_decoders_iff` — each returns the number written exactly on the texts that
are not a minus sign and digits within range.
-/

set_option autoImplicit false

namespace TinyDocker

open CText

/-- A text is the text of one number. -/
theorem numberText_unique {neg neg' : Bool} {s : Text} {n n' : Nat} (h : NumberText neg s n)
    (h' : NumberText neg' s n') : neg = neg' ∧ n = n' := by
  have hscan := scanInt_iff.2 h
  rw [scanInt_iff.2 h', Option.some.injEq, Prod.mk.injEq, Prod.mk.injEq] at hscan
  exact ⟨hscan.1.symm, hscan.2.1.symm⟩

/-- What `strtoull` reads is the number written, unless there is a minus sign. -/
theorem strtoull_written_iff (s : Text) :
    (∀ v, strtoull s = some (v, []) → NumberText false s v ∧ v < 2 ^ 64) ↔
      ¬ ∃ n, NumberText true s n ∧ n < 2 ^ 64 := by
  constructor
  · rintro h ⟨n, hn, hlt⟩
    have hwritten := (h _ (strtoull_iff.2 (Or.inr ⟨n, hn, hlt, rfl⟩))).1
    exact absurd (numberText_unique hn hwritten).1 (by decide)
  · intro h v hv
    rcases strtoull_iff.1 hv with hv | ⟨n, hn, hlt, -⟩
    · exact hv
    · exact absurd ⟨n, hn, hlt⟩ h

/-! ## Each decoder -/

theorem parseUnsignedLongLong_ok_iff {text field : Text} {v : Nat} :
    parseUnsignedLongLong text field = .ok v ↔ strtoull text = some (v, []) := by
  refine ⟨parseUnsignedLongLong_ok, fun h => ?_⟩
  unfold parseUnsignedLongLong
  rw [h]

/-- One address: it is not 0, fits 32 bits and is new, and there is room for it. -/
theorem parseUsedIps_one {used out : List UInt32} {text : Text} :
    parseUsedIps used [text] = .ok out ↔ used.length < TD_NETWORK_MAX_USED_IPS ∧
      ∃ v, strtoull text = some (v, []) ∧ 0 < v ∧ v < 2 ^ 32 ∧ UInt32.ofNat v ∉ used ∧
        out = used ++ [UInt32.ofNat v] := by
  have hnil : strtoull [] = none := rfl
  unfold parseUsedIps
  split
  · rename_i hfull
    exact ⟨fun h => (by cases h), fun h => absurd h.1 (by omega)⟩
  rename_i hroom
  split
  · rename_i hempty
    refine ⟨fun h => (by cases h), ?_⟩
    rintro ⟨-, v, hv, -⟩
    rw [hempty, hnil] at hv
    cases hv
  split
  · rename_i parsed hread
    rw [hread]
    split
    · rename_i hrange
      refine ⟨fun h => (by cases h), ?_⟩
      rintro ⟨-, v, hv, hpos, hlt, -⟩
      obtain rfl := (Prod.mk.inj (Option.some.inj hv)).1
      omega
    split
    · rename_i hdup
      refine ⟨fun h => (by cases h), ?_⟩
      rintro ⟨-, v, hv, -, -, hnew, -⟩
      obtain rfl := (Prod.mk.inj (Option.some.inj hv)).1
      exact absurd hdup hnew
    · rename_i hrange hnew
      rw [parseUsedIps, Except.ok.injEq]
      constructor
      · rintro rfl
        exact ⟨by omega, parsed, rfl, by omega, by omega, hnew, rfl⟩
      · rintro ⟨-, v, hv, -, -, -, rfl⟩
        rw [(Prod.mk.inj (Option.some.inj hv)).1]
  · rename_i hread
    refine ⟨fun h => (by cases h), ?_⟩
    rintro ⟨-, v, hv, -⟩
    exact absurd hv (hread v)

/-- The field the parser of `/proc/PID/stat` converts. -/
def startTimeField (statLine : Text) : Option Text :=
  (fieldsText statLine).bind fun fields => (tokens isFieldSeparator fields)[19]?

theorem tdParseProcStatStartTime_ok {statLine : Text} {out v : Nat} :
    tdParseProcStatStartTime statLine out = (.ok (), v) ↔
      ∃ field, startTimeField statLine = some field ∧ strtoull field = some (v, []) := by
  unfold tdParseProcStatStartTime startTimeField
  cases fieldsText statLine with
  | none => exact ⟨fun h => (by cases h), fun ⟨_, h, _⟩ => (by cases h)⟩
  | some fields =>
    simp only [Option.bind_some]
    cases (tokens isFieldSeparator fields)[19]? with
    | none => exact ⟨fun h => (by cases h), fun ⟨_, h, _⟩ => (by cases h)⟩
    | some token =>
      simp only [Option.some.injEq, exists_eq_left']
      split
      · rename_i parsed hread
        rw [hread, Prod.mk.injEq, and_iff_right rfl, Option.some.injEq, Prod.mk.injEq, and_iff_left rfl]
      · rename_i hread
        exact ⟨fun h => (by cases h), fun h => absurd h (hread v)⟩

/-- One address that is accepted is the number written, unless there is a minus sign. -/
theorem address_written {text : Text}
    (hminus : ¬ ∃ n, NumberText true text n ∧ 2 ^ 64 - 2 ^ 32 < n ∧ n < 2 ^ 64) {used out : List UInt32}
    (h : parseUsedIps used [text] = .ok out) :
    ∃ v, out = used ++ [UInt32.ofNat v] ∧ NumberText false text v ∧ v < 2 ^ 32 := by
  obtain ⟨-, v, hread, hpos, hlt, -, rfl⟩ := parseUsedIps_one.1 h
  refine ⟨v, rfl, ?_, hlt⟩
  rcases strtoull_iff.1 hread with hv | ⟨n, hn, hn64, hv⟩
  · exact hv.1
  · refine absurd ⟨n, hn, ?_, hn64⟩ hminus
    by_cases hzero : n = 0
    · rw [hzero, Nat.sub_zero, Nat.mod_self] at hv
      omega
    · rw [Nat.mod_eq_of_lt (by omega)] at hv
      omega

/-! ## The number written -/

/-- **Unsigned decoders return the number written** exactly when the text is not a minus sign and digits
below `2^64`; for an address, when it is not such a text with a number above `2^64 - 2^32`. -/
theorem unsigned_decoders_iff (text field statLine contents key : Text) (start size : Nat) :
    ((∀ v, parseUnsignedLongLong text field = .ok v → NumberText false text v ∧ v < 2 ^ 64) ↔
      ¬ ∃ n, NumberText true text n ∧ n < 2 ^ 64) ∧
    ((∀ used out, parseUsedIps used [text] = .ok out →
        ∃ v, out = used ++ [UInt32.ofNat v] ∧ NumberText false text v ∧ v < 2 ^ 32) ↔
      ¬ ∃ n, NumberText true text n ∧ 2 ^ 64 - 2 ^ 32 < n ∧ n < 2 ^ 64) ∧
    ((∀ v, tdParseProcStatStartTime statLine start = (.ok (), v) →
        ∃ f, startTimeField statLine = some f ∧ NumberText false f v ∧ v < 2 ^ 64) ↔
      ¬ ∃ f n, startTimeField statLine = some f ∧ NumberText true f n ∧ n < 2 ^ 64) ∧
    ((∀ value, tdParseCgroupStat contents key size = .ok value →
        ∃ n, NumberText false value n ∧ n < 2 ^ 64) ↔
      ¬ ∃ value n, key ≠ [] ∧ statField key (tokens (· == '\n') contents) = some value ∧
        value.length < size ∧ NumberText true value n ∧ n < 2 ^ 64) := by
  refine ⟨?_, ?_, ?_, ?_⟩
  · simp only [parseUnsignedLongLong_ok_iff]
    exact strtoull_written_iff text
  · constructor
    · rintro h ⟨n, hn, hlo, hlt⟩
      -- the address `2^64 - n` is stored
      have hread := strtoull_iff.2 (Or.inr ⟨n, hn, hlt, rfl⟩)
      rw [Nat.mod_eq_of_lt (by omega)] at hread
      obtain ⟨v, -, hv, -⟩ := h [] [UInt32.ofNat (2 ^ 64 - n)] (parseUsedIps_one.2
        ⟨by decide, _, hread, by omega, by omega, List.not_mem_nil, rfl⟩)
      exact absurd (numberText_unique hn hv).1 (by decide)
    · exact fun h used out hout => address_written h hout
  · simp only [tdParseProcStatStartTime_ok]
    constructor
    · rintro h ⟨field, n, hfield, hn, hlt⟩
      refine (strtoull_written_iff field).1 (fun v hv => ?_) ⟨n, hn, hlt⟩
      obtain ⟨field', hfield', hwritten⟩ := h v ⟨field, hfield, hv⟩
      rw [hfield, Option.some.injEq] at hfield'
      rw [hfield']
      exact hwritten
    · rintro h v ⟨field, hfield, hread⟩
      exact ⟨field, hfield, (strtoull_written_iff field).2
        (fun ⟨n, hn, hlt⟩ => h ⟨field, n, hfield, hn, hlt⟩) v hread⟩
  · simp only [tdParseCgroupStat_ok]
    constructor
    · rintro h ⟨value, n, hkey, hfield, hsize, hn, hlt⟩
      obtain ⟨m, hm, -⟩ := h value ⟨hkey, hfield, ⟨_, strtoull_iff.2 (Or.inr ⟨n, hn, hlt, rfl⟩)⟩, hsize⟩
      exact absurd (numberText_unique hn hm).1 (by decide)
    · rintro h value ⟨hkey, hfield, ⟨v, hread⟩, hsize⟩
      exact ⟨v, (strtoull_written_iff value).2
        (fun ⟨n, hn, hlt⟩ => h ⟨value, n, hkey, hfield, hsize, hn, hlt⟩) v hread⟩

/-- The metadata line `pid_start_time=-1` sets the start time to `2 ^ 64 - 1`, and the other decoders do the
same. -/
theorem minus_sign_accepted :
    parseUnsignedLongLong "-1".toList "pid_start_time".toList = .ok 18446744073709551615 ∧
    parseUsedIps [] [ "-18446744069414584321".toList] = .ok [4294967295] ∧
    tdParseProcStatStartTime "1 (a) - 2 3 4 5 6 7 8 9 10 11 12 13 14 15 16 17 18 19 -1".toList 0 =
      (.ok (), 18446744073709551615) ∧
    tdParseCgroupStat "usage_usec -1\n".toList "usage_usec".toList 32 = .ok "-1".toList ∧
    (∀ n, ¬ NumberText false "-1".toList n) ∧ ∀ n, ¬ NumberText false "-18446744069414584321".toList n := by
  have hone : scanInt "-1".toList = some (true, 1, []) := by decide +kernel
  have hmany : scanInt "-18446744069414584321".toList = some (true, 18446744069414584321, []) := by
    decide +kernel
  refine ⟨by decide +kernel, by decide +kernel, by decide +kernel, by decide +kernel, fun n hn => ?_,
    fun n hn => ?_⟩
  · exact absurd (numberText_unique (scanInt_iff.1 hone) hn).1 (by decide)
  · exact absurd (numberText_unique (scanInt_iff.1 hmany) hn).1 (by decide)

end TinyDocker
