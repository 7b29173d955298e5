import TinyDocker.Lib.CText

/-!
# Dotted-quad IPv4 text

`inetPton` and `inetNtop` follow `inet_pton(AF_INET, ..)` and `inet_ntop(AF_INET, ..)`, with the
address taken in host byte order.  The parser is the strict one: four decimal octets, no leading
zero, nothing after the last digit.

Principal results: `inetPton_inetNtop` — a printed address reads back; `inetNtop_inetPton` — there is
no other text for it; `inetPton_chars` — an accepted text holds only digits and dots.
-/

set_option autoImplicit false

namespace Ipv4

open CText

/-- One octet: digits only, no leading zero, at most 255. -/
def octet (s : Text) : Option Nat :=
  if s ≠ [] ∧ s.all Char.isDigit ∧ (s.length = 1 ∨ s.head? ≠ some '0') ∧
      Nat.ofDigitChars 10 s 0 ≤ 255 then
    some (Nat.ofDigitChars 10 s 0)
  else none

def inetPton (s : Text) : Option UInt32 :=
  match cut '.' s with
  | none => none
  | some (a, s) =>
    match cut '.' s with
    | none => none
    | some (b, s) =>
      match cut '.' s with
      | none => none
      | some (c, d) =>
        match octet a, octet b, octet c, octet d with
        | some a, some b, some c, some d => some (UInt32.ofNat (a * 2 ^ 24 + b * 2 ^ 16 + c * 2 ^ 8 + d))
        | _, _, _, _ => none

def inetNtop (x : UInt32) : Text :=
  Nat.toDigits 10 (x.toNat / 2 ^ 24) ++ '.' :: (Nat.toDigits 10 (x.toNat / 2 ^ 16 % 256) ++
    '.' :: (Nat.toDigits 10 (x.toNat / 2 ^ 8 % 256) ++ '.' :: Nat.toDigits 10 (x.toNat % 256)))

theorem octet_toDigits : ∀ n, n < 256 → octet (Nat.toDigits 10 n) = some n := by
  decide +kernel

theorem dot_not_mem_toDigits (n : Nat) : '.' ∉ Nat.toDigits 10 n := by
  intro h
  exact absurd (isDigit_toDigits h) (by decide)

/-- **A printed address reads back.** -/
theorem inetPton_inetNtop (x : UInt32) : inetPton (inetNtop x) = some x := by
  have hx := x.toNat_lt
  unfold inetPton inetNtop
  simp only [cut_append (dot_not_mem_toDigits _)]
  rw [octet_toDigits _ (by omega), octet_toDigits _ (by omega), octet_toDigits _ (by omega),
    octet_toDigits _ (by omega)]
  simp only [Option.some.injEq]
  rw [show x.toNat / 2 ^ 24 * 2 ^ 24 + x.toNat / 2 ^ 16 % 256 * 2 ^ 16 +
    x.toNat / 2 ^ 8 % 256 * 2 ^ 8 + x.toNat % 256 = x.toNat by omega]
  simp

theorem inetNtop_injective {x y : UInt32} (h : inetNtop x = inetNtop y) : x = y := by
  have hx := inetPton_inetNtop x
  rw [h, inetPton_inetNtop] at hx
  exact (Option.some.inj hx).symm

theorem inetNtop_ne_nil (x : UInt32) : inetNtop x ≠ [] := by
  simp [inetNtop]

theorem octet_chars {s : Text} {n : Nat} (h : octet s = some n) :
    ∀ c ∈ s, c.isDigit = true := by
  unfold octet at h
  split at h
  · rename_i hs; exact fun c hc => List.all_eq_true.1 hs.2.1 c hc
  · cases h

theorem inetPton_chars {s : Text} {x : UInt32} (h : inetPton s = some x) :
    ∀ ch ∈ s, ch = '.' ∨ ch.isDigit = true := by
  unfold inetPton at h
  split at h
  · cases h
  rename_i a s1 ha
  split at h
  · cases h
  rename_i b s2 hb
  split at h
  · cases h
  rename_i c d hc
  split at h
  · rename_i na nb nc nd hna hnb hnc hnd
    intro ch hch
    rw [(cut_eq_some ha).1, (cut_eq_some hb).1, (cut_eq_some hc).1] at hch
    simp only [List.mem_append, List.mem_cons] at hch
    rcases hch with hch | hch | hch | hch | hch | hch | hch
    · exact Or.inr (octet_chars hna ch hch)
    · exact Or.inl hch
    · exact Or.inr (octet_chars hnb ch hch)
    · exact Or.inl hch
    · exact Or.inr (octet_chars hnc ch hch)
    · exact Or.inl hch
    · exact Or.inr (octet_chars hnd ch hch)
  · cases h

/-- The octet a text reads as prints as that text. -/
theorem toDigits_octet {s : Text} {n : Nat} (h : octet s = some n) : n < 256 ∧ Nat.toDigits 10 n = s := by
  unfold octet at h
  split at h
  · rename_i hs
    obtain ⟨hne, hall, hhead, hle⟩ := hs
    cases h
    refine ⟨by omega, ?_⟩
    cases s with
    | nil => exact absurd rfl hne
    | cons c s =>
      have hall : ∀ x ∈ c :: s, x.isDigit = true := List.all_eq_true.1 hall
      obtain ⟨hlt, hc⟩ := digitChar_digit (hall c List.mem_cons_self)
      rw [Nat.ofDigitChars_cons, Nat.mul_zero, Nat.zero_add]
      rcases hhead with hlen | hzero
      · have hnil : s = [] := List.eq_nil_of_length_eq_zero (by rw [List.length_cons] at hlen; omega)
        rw [hnil, Nat.ofDigitChars_nil, Nat.toDigits_of_lt_base hlt, hc]
      · -- no leading zero, so the first digit starts the number
        have hpos : 0 < c.toNat - '0'.toNat := by
          rcases Nat.eq_zero_or_pos (c.toNat - '0'.toNat) with h0 | hpos
          · rw [h0] at hc
            exact absurd (congrArg some hc.symm) hzero
          · exact hpos
        rw [toDigits_ofDigitChars s hpos fun x hx => hall x (List.mem_cons_of_mem _ hx),
          Nat.toDigits_of_lt_base hlt, hc, List.singleton_append]
  · cases h

/-- **A text read as an address is the address printed.** -/
theorem inetNtop_inetPton {s : Text} {x : UInt32} (h : inetPton s = some x) : inetNtop x = s := by
  unfold inetPton at h
  split at h
  · cases h
  rename_i a s1 ha
  split at h
  · cases h
  rename_i b s2 hb
  split at h
  · cases h
  rename_i c d hc
  split at h
  · rename_i na nb nc nd hna hnb hnc hnd
    obtain ⟨hla, ha'⟩ := toDigits_octet hna
    obtain ⟨hlb, hb'⟩ := toDigits_octet hnb
    obtain ⟨hlc, hc'⟩ := toDigits_octet hnc
    obtain ⟨hld, hd'⟩ := toDigits_octet hnd
    have hx : x.toNat = na * 2 ^ 24 + nb * 2 ^ 16 + nc * 2 ^ 8 + nd := by
      rw [← Option.some.inj h, UInt32.toNat_ofNat']
      exact Nat.mod_eq_of_lt (by omega)
    have ea : x.toNat / 2 ^ 24 = na := by omega
    have eb : x.toNat / 2 ^ 16 % 256 = nb := by omega
    have ec : x.toNat / 2 ^ 8 % 256 = nc := by omega
    have ed : x.toNat % 256 = nd := by omega
    rw [inetNtop, ea, eb, ec, ed, ha', hb', hc', hd', (cut_eq_some ha).1, (cut_eq_some hb).1,
      (cut_eq_some hc).1]
  · cases h

theorem toDigits_octet_length : ∀ n, n < 256 → (Nat.toDigits 10 n).length ≤ 3 := by
  decide +kernel

/-- `INET_ADDRSTRLEN` is 16. -/
theorem inetNtop_length (x : UInt32) : (inetNtop x).length ≤ 15 := by
  have hx := x.toNat_lt
  have ha := toDigits_octet_length (x.toNat / 2 ^ 24) (by omega)
  have hb := toDigits_octet_length (x.toNat / 2 ^ 16 % 256) (by omega)
  have hc := toDigits_octet_length (x.toNat / 2 ^ 8 % 256) (by omega)
  have hd := toDigits_octet_length (x.toNat % 256) (by omega)
  simp only [inetNtop, List.length_append, List.length_cons]
  omega

example : inetPton "172.11.11.2".toList = some 2886404866 := by decide
example : inetPton "172.11.011.2".toList = none := by decide

end Ipv4
