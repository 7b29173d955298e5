import Mathlib.Algebra.Group.Nat.Defs
import Mathlib.Algebra.Group.Int.Defs
import Mathlib.Data.List.TakeWhile

/-!
# C strings as character lists

A C string is the list of its bytes before the terminating NUL, each byte written as a `Char`.
The module holds the few `<string.h>`/`<stdlib.h>` routines a text codec is made of:

* `cut` — `strchr` together with the split at the character found;
* `pieces` — the `memchr(.., d, ..)` record loop (the last record needs no terminator);
* `tokens` — repeated `strtok_r`;
* `scanInt`, `strtol`, `strtoull` — base-10 conversion with the ISO C conventions: leading white
  space is skipped, one sign is read, out-of-range values set `errno`.

Principal results: `cut_append`, `pieces_flatMap` — the split is inverse to joining;
`strtoull_toDigits`, `strtol_toDigits` — reading back a printed number.
-/

set_option autoImplicit false

namespace CText

abbrev Text := List Char

/-- Membership in lists of texts is decided with this instance. -/
instance lawfulText : LawfulBEq Text := inferInstance

/-- `isspace` in the C locale. -/
def isSpace (c : Char) : Bool :=
  c == ' ' || c == '\t' || c == '\n' || c == '\x0b' || c == '\x0c' || c == '\r'

/-! ## Splitting -/

/-- The text before and after the first `c`; `none` when `strchr` finds nothing. -/
def cut (c : Char) : Text → Option (Text × Text)
  | [] => none
  | x :: xs => if x = c then some ([], xs) else (cut c xs).map fun p => (x :: p.1, p.2)

theorem cut_append {c : Char} {a : Text} (h : c ∉ a) (b : Text) :
    cut c (a ++ c :: b) = some (a, b) := by
  induction a with
  | nil => simp [cut]
  | cons x a ih =>
    simp only [List.mem_cons, not_or] at h
    simp [cut, Ne.symm h.1, ih h.2]

theorem cut_eq_none {c : Char} {s : Text} : cut c s = none ↔ c ∉ s := by
  induction s with
  | nil => simp [cut]
  | cons x s ih =>
    by_cases hx : x = c
    · simp [cut, hx]
    · simp [cut, hx, ih, Ne.symm hx]

theorem cut_eq_some {c : Char} {s a b : Text} (h : cut c s = some (a, b)) :
    s = a ++ c :: b ∧ c ∉ a := by
  induction s generalizing a with
  | nil => simp [cut] at h
  | cons x s ih =>
    by_cases hx : x = c
    · simp only [cut, hx, ↓reduceIte, Option.some.injEq, Prod.mk.injEq] at h
      obtain ⟨rfl, rfl⟩ := h
      simp [hx]
    · simp only [cut, hx, ↓reduceIte, Option.map_eq_some_iff, Prod.mk.injEq, Prod.exists] at h
      obtain ⟨a', b', hc, rfl, rfl⟩ := h
      obtain ⟨rfl, hn⟩ := ih hc
      simp [hn, Ne.symm hx]

/-- The records of a file whose records end in `d`: the pieces between the `d`s, the last one with
or without its terminator. -/
def pieces (d : Char) : Text → List Text
  | [] => []
  | c :: cs =>
    if c = d then [] :: pieces d cs
    else match pieces d cs with
      | [] => [[c]]
      | l :: ls => (c :: l) :: ls

theorem pieces_cons {d : Char} {l : Text} (h : d ∉ l) (rest : Text) :
    pieces d (l ++ d :: rest) = l :: pieces d rest := by
  induction l with
  | nil => simp [pieces]
  | cons c l ih =>
    simp only [List.mem_cons, not_or] at h
    simp [pieces, Ne.symm h.1, ih h.2]

/-- Every record written with its terminator is read back. -/
theorem pieces_flatMap {d : Char} {ls : List Text} (h : ∀ l ∈ ls, d ∉ l) :
    pieces d (ls.flatMap (· ++ [d])) = ls := by
  induction ls with
  | nil => rfl
  | cons l ls ih =>
    have hl := pieces_cons (h l (by simp)) (ls.flatMap (· ++ [d]))
    simp only [List.flatMap_cons, List.append_assoc, List.cons_append, List.nil_append]
    rw [hl, ih fun x hx => h x (by simp [hx])]

theorem pieces_chars {d : Char} : ∀ {s l : Text}, l ∈ pieces d s → ∀ c ∈ l, c ∈ s ∧ c ≠ d
  | [], _, h => by cases h
  | x :: xs, l, h => by
    unfold pieces at h
    intro c hc
    split at h
    · rcases List.mem_cons.1 h with rfl | h
      · cases hc
      · exact ⟨List.mem_cons_of_mem _ (pieces_chars h c hc).1, (pieces_chars h c hc).2⟩
    · rename_i hx
      split at h
      · rw [List.mem_singleton.1 h] at hc
        rw [List.mem_singleton.1 hc]
        exact ⟨List.mem_cons_self, hx⟩
      · rename_i first rest hp
        rcases List.mem_cons.1 h with rfl | h
        · rcases List.mem_cons.1 hc with rfl | hc
          · exact ⟨List.mem_cons_self, hx⟩
          · have hc' := pieces_chars (hp ▸ List.mem_cons_self) c hc
            exact ⟨List.mem_cons_of_mem _ hc'.1, hc'.2⟩
        · have hc' := pieces_chars (hp ▸ List.mem_cons_of_mem _ h) c hc
          exact ⟨List.mem_cons_of_mem _ hc'.1, hc'.2⟩

/-- `strtok_r` with the delimiters `d`: the maximal non-empty pieces without a delimiter. -/
def tokens (d : Char → Bool) : Text → List Text
  | [] => []
  | c :: cs =>
    if d c then tokens d cs
    else if cs.head?.all d then [c] :: tokens d cs
    else match tokens d cs with
      | [] => [[c]]
      | t :: ts => (c :: t) :: ts

/-- The tokens are the non-empty pieces. -/
theorem tokens_eq_pieces (d : Char) : ∀ s : Text,
    tokens (· == d) s = (pieces d s).filter fun l => decide (l ≠ [])
  | [] => rfl
  | c :: cs => by
    have ih := tokens_eq_pieces d cs
    by_cases hc : c = d
    · simp [tokens, pieces, hc, ih]
    have hcd : (c == d) = false := by simpa using hc
    simp only [tokens, pieces, hcd, hc, Bool.false_eq_true, if_false, ih]
    cases cs with
    | nil => simp [pieces]
    | cons x xs =>
      by_cases hx : x = d
      · simp [pieces, hx]
      · have hxd : (x == d) = false := by simpa using hx
        simp only [List.head?_cons, Option.all_some, hxd, Bool.false_eq_true, if_false, pieces, hx]
        cases pieces d xs with
        | nil => simp
        | cons l ls => simp

theorem tokens_cons_of_delim {d : Char → Bool} {c : Char} (hc : d c = true) (s : Text) :
    tokens d (c :: s) = tokens d s := by
  rw [tokens, if_pos hc]

/-- A text has no token exactly when it holds delimiters only. -/
theorem tokens_eq_nil {d : Char → Bool} : ∀ {s : Text}, tokens d s = [] ↔ ∀ c ∈ s, d c = true
  | [] => by simp [tokens]
  | c :: s => by
    by_cases hc : d c = true
    · rw [tokens_cons_of_delim hc, tokens_eq_nil]
      simp [hc]
    · refine ⟨fun h => ?_, fun h => absurd (h c List.mem_cons_self) hc⟩
      rw [tokens, if_neg hc] at h
      split at h
      · cases h
      · split at h <;> cases h

/-- **Tokens split at a delimiter.** -/
theorem tokens_append {d : Char → Bool} {x : Char} (hx : d x = true) (b : Text) :
    ∀ a : Text, tokens d (a ++ x :: b) = tokens d a ++ tokens d b
  | [] => tokens_cons_of_delim hx b
  | c :: a => by
    have ih := tokens_append hx b a
    rw [List.cons_append]
    by_cases hc : d c = true
    · rw [tokens_cons_of_delim hc, tokens_cons_of_delim hc, ih]
    rw [tokens, tokens, if_neg hc, if_neg hc]
    cases a with
    | nil =>
      rw [List.nil_append] at ih ⊢
      rw [if_pos (by simpa using hx), if_pos (by simp), ih]
      rfl
    | cons e a =>
      rw [ih]
      by_cases he : d e = true
      · rw [if_pos (by simpa using he), if_pos (by simpa using he)]
        rfl
      · -- `c` joins the first token of `e :: a`, which there is
        rw [if_neg (by simpa using he), if_neg (by simpa using he)]
        cases ht : tokens d (e :: a) with
        | nil => exact absurd (tokens_eq_nil.1 ht e List.mem_cons_self) he
        | cons t ts => rfl

/-- What `strtok_r` returns is a non-empty part of the text without a delimiter. -/
theorem mem_tokens {d : Char → Bool} : ∀ {s t : Text}, t ∈ tokens d s →
    t ≠ [] ∧ ∀ c ∈ t, d c = false ∧ c ∈ s
  | [], _, h => by cases h
  | c :: s, t, h => by
    have htail : ∀ {u : Text}, u ∈ tokens d s → u ≠ [] ∧ ∀ x ∈ u, d x = false ∧ x ∈ c :: s := by
      intro u hu
      obtain ⟨hne, hu⟩ := mem_tokens hu
      exact ⟨hne, fun x hx => ⟨(hu x hx).1, List.mem_cons_of_mem _ (hu x hx).2⟩⟩
    by_cases hc : d c = true
    · rw [tokens_cons_of_delim hc] at h
      exact htail h
    have hc : d c = false := by simpa using hc
    have hhead : ∀ {u : Text}, (∀ x ∈ u, d x = false ∧ x ∈ c :: s) →
        c :: u ≠ [] ∧ ∀ x ∈ c :: u, d x = false ∧ x ∈ c :: s := by
      intro u hu
      refine ⟨by simp, fun x hx => ?_⟩
      rcases List.mem_cons.1 hx with rfl | hx
      · exact ⟨hc, List.mem_cons_self⟩
      · exact hu x hx
    rw [tokens, if_neg (by simp [hc])] at h
    split at h
    · rcases List.mem_cons.1 h with rfl | h
      · exact hhead (by simp)
      · exact htail h
    split at h
    · rw [List.mem_singleton.1 h]
      exact hhead (by simp)
    · rename_i first rest hrest
      rcases List.mem_cons.1 h with rfl | h
      · exact hhead (htail (hrest ▸ List.mem_cons_self)).2
      · exact htail (hrest ▸ List.mem_cons_of_mem _ h)

/-- A text without delimiters is one token. -/
theorem tokens_word {d : Char → Bool} : ∀ {w : Text}, w ≠ [] → (∀ c ∈ w, d c = false) →
    tokens d w = [w]
  | [], hne, _ => absurd rfl hne
  | [c], _, hw => by
    rw [tokens, if_neg (by simp [hw c])]
    rfl
  | c :: e :: w, _, hw => by
    have htail : tokens d (e :: w) = [e :: w] :=
      tokens_word (by simp) fun x hx => hw x (List.mem_cons_of_mem _ hx)
    have he : d e = false := hw e (by simp)
    rw [tokens, if_neg (by simp [hw c]), if_neg (by simp [he]), htail]

/-- **Words written with a delimiter between them are read back.** -/
theorem tokens_words {d : Char → Bool} {x : Char} (hx : d x = true) : ∀ {w : Text} {ws : List Text},
    (∀ u ∈ w :: ws, u ≠ [] ∧ ∀ c ∈ u, d c = false) →
    tokens d (w ++ ws.flatMap (x :: ·)) = w :: ws
  | w, [], h => by
    rw [List.flatMap_nil, List.append_nil]
    exact tokens_word (h w List.mem_cons_self).1 (h w List.mem_cons_self).2
  | w, v :: ws, h => by
    have ih : tokens d (v ++ ws.flatMap (x :: ·)) = v :: ws :=
      tokens_words hx fun u hu => h u (List.mem_cons_of_mem _ hu)
    rw [List.flatMap_cons, List.cons_append, tokens_append hx, ih,
      tokens_word (h w List.mem_cons_self).1 (h w List.mem_cons_self).2, List.singleton_append]

/-- A token in front of a delimiter or of the end. -/
theorem tokens_cons_of_word {d : Char → Bool} {c : Char} (hc : d c = false) : ∀ s : Text,
    tokens d (c :: s) =
      (c :: s).takeWhile (fun x => !d x) :: tokens d ((c :: s).dropWhile fun x => !d x)
  | [] => by simp [tokens, hc]
  | e :: s => by
    by_cases he : d e = true
    · rw [tokens, if_neg (by simp [hc]), if_pos (by simp [he])]
      simp [hc, he]
    · have he : d e = false := by simpa using he
      have ih := tokens_cons_of_word he s
      rw [tokens, if_neg (by simp [hc]), if_neg (by simp [he]), ih]
      simp [hc, he]

theorem tokens_dropWhile (d : Char → Bool) : ∀ s : Text, tokens d (s.dropWhile d) = tokens d s
  | [] => rfl
  | c :: s => by
    by_cases hc : d c = true
    · rw [List.dropWhile_cons_of_pos hc, tokens_cons_of_delim hc, tokens_dropWhile]
    · rw [List.dropWhile_cons_of_neg hc]

/-- `t` stands in `s` as a word of its own: non-empty, without a delimiter, and with a delimiter or an
end of `s` on both sides. -/
def IsToken (d : Char → Bool) (s t : Text) : Prop :=
  t ≠ [] ∧ (∀ c ∈ t, d c = false) ∧
    ∃ a b, s = a ++ t ++ b ∧ (∀ c ∈ a.getLast?, d c = true) ∧ ∀ c ∈ b.head?, d c = true

theorem IsToken.cons {d : Char → Bool} {s t : Text} {c : Char} (h : IsToken d s t) (hc : d c = true) :
    IsToken d (c :: s) t := by
  obtain ⟨hne, ht, a, b, rfl, ha, hb⟩ := h
  refine ⟨hne, ht, c :: a, b, rfl, fun x hx => ?_, hb⟩
  cases a with
  | nil =>
    simp only [List.getLast?_singleton, Option.mem_def, Option.some.injEq] at hx
    rw [← hx]
    exact hc
  | cons e a => exact ha x hx

theorem isToken_of_mem {d : Char → Bool} : ∀ (n : Nat) {s t : Text}, s.length ≤ n →
    t ∈ tokens d s → IsToken d s t
  | _, [], _, _, h => by cases h
  | 0, c :: s, _, hn, _ => absurd hn (Nat.not_succ_le_zero _)
  | n + 1, c :: s, t, hn, h => by
    by_cases hc : d c = true
    · rw [tokens_cons_of_delim hc] at h
      exact (isToken_of_mem n (Nat.le_of_succ_le_succ hn) h).cons hc
    have hc : d c = false := by simpa using hc
    have hsplit := List.takeWhile_append_dropWhile (p := fun x => !d x) (l := c :: s)
    have hrest : ∀ x ∈ ((c :: s).dropWhile fun x => !d x).head?, d x = true := by
      intro x hx
      have := List.head?_dropWhile_not (fun x => !d x) (c :: s)
      rw [Option.mem_def.1 hx] at this
      simpa using this
    have hword : ∀ x ∈ (c :: s).takeWhile fun x => !d x, d x = false := by
      intro x hx
      simpa using List.mem_takeWhile_imp hx
    have hne : (c :: s).takeWhile (fun x => !d x) ≠ [] := by simp [hc]
    rw [tokens_cons_of_word hc] at h
    rcases List.mem_cons.1 h with rfl | h
    · exact ⟨hne, hword, [], _, hsplit.symm, by simp, hrest⟩
    · -- the word that was cut off goes in front; the rest starts with a delimiter
      have hlen : ((c :: s).dropWhile fun x => !d x).length ≤ n := by
        have hpos := List.length_pos_iff.2 hne
        have hsum := congrArg List.length hsplit
        rw [List.length_append] at hsum
        omega
      obtain ⟨htne, ht, a, b, hab, ha, hb⟩ := isToken_of_mem n hlen h
      refine ⟨htne, ht, (c :: s).takeWhile (fun x => !d x) ++ a, b, ?_, fun x hx => ?_, hb⟩
      · rw [List.append_assoc, List.append_assoc, ← List.append_assoc a, ← hab, hsplit]
      · cases a with
        | nil =>
          obtain ⟨y, t, rfl⟩ := List.exists_cons_of_ne_nil htne
          have hy : d y = true := hrest y (by rw [hab]; rfl)
          rw [ht y List.mem_cons_self] at hy
          cases hy
        | cons e a =>
          rw [List.getLast?_append, List.getLast?_cons, Option.some_or, ← List.getLast?_cons] at hx
          exact ha x hx

/-- **The tokens are the words.** -/
theorem mem_tokens_iff {d : Char → Bool} {s t : Text} : t ∈ tokens d s ↔ IsToken d s t := by
  refine ⟨isToken_of_mem s.length (Nat.le_refl _), ?_⟩
  rintro ⟨hne, ht, a, b, rfl, ha, hb⟩
  have hback : t ∈ tokens d (t ++ b) := by
    cases b with
    | nil =>
      rw [List.append_nil, tokens_word hne ht]
      exact List.mem_cons_self
    | cons x b =>
      rw [tokens_append (hb x rfl), tokens_word hne ht]
      exact List.mem_append_left _ List.mem_cons_self
  rcases List.eq_nil_or_concat a with rfl | ⟨front, x, rfl⟩
  · rw [List.nil_append]
    exact hback
  · have hx : d x = true := ha x (by simp)
    rw [List.concat_eq_append, List.append_assoc, List.append_assoc, List.singleton_append,
      tokens_append hx]
    exact List.mem_append_right _ hback

/-! ## Base-10 conversion -/

/-- The optional sign: `true` for a minus. -/
def scanSign : Text → Bool × Text
  | '-' :: r => (true, r)
  | '+' :: r => (false, r)
  | r => (false, r)

/-- `strtol`-style scan: sign, value of the digits and the text after them; `none` when no digit
is found (`end == text`). -/
def scanInt (s : Text) : Option (Bool × Nat × Text) :=
  let (neg, s) := scanSign (s.dropWhile isSpace)
  let digits := s.takeWhile Char.isDigit
  if digits = [] then none
  else some (neg, Nat.ofDigitChars 10 digits 0, s.dropWhile Char.isDigit)

def signedValue (neg : Bool) (n : Nat) : Int := if neg then -(n : Int) else n

/-- `strtol(text, &end, 10)` on a 64-bit `long`: the value and the text at `end`; `none` when
there is no conversion or `errno` is set to `ERANGE`. -/
def strtol (s : Text) : Option (Int × Text) :=
  match scanInt s with
  | none => none
  | some (neg, n, rest) =>
    if signedValue neg n < -2 ^ 63 ∨ 2 ^ 63 - 1 < signedValue neg n then none
    else some (signedValue neg n, rest)

/-- `strtoull(text, &end, 10)`: a minus sign negates modulo `2^64`. -/
def strtoull (s : Text) : Option (Nat × Text) :=
  match scanInt s with
  | none => none
  | some (neg, n, rest) =>
    if 2 ^ 64 ≤ n then none
    else some (if neg then (2 ^ 64 - n) % 2 ^ 64 else n, rest)

theorem isDigit_toDigits {n : Nat} {c : Char} (h : c ∈ Nat.toDigits 10 n) : c.isDigit = true :=
  Nat.isDigit_of_mem_toDigits (by decide) (by decide) h

/-- What is checked character by character holds of the characters.  (`decide` alone would go through all
characters there are.) -/
theorem forall_mem_of_all {p : Char → Prop} [DecidablePred p] {s : Text}
    (h : s.all (fun c => decide (p c)) = true) : ∀ c ∈ s, p c :=
  fun c hc => of_decide_eq_true (List.all_eq_true.1 h c hc)

/-- What `%d` prints. -/
theorem toList_toString (n : Int) : (toString n).toList =
    if n < 0 then '-' :: Nat.toDigits 10 n.natAbs else Nat.toDigits 10 n.natAbs := by
  cases n with
  | ofNat m =>
    have hnonneg : ¬ Int.ofNat m < 0 := Int.not_lt.2 (Int.natCast_nonneg m)
    show (Nat.repr m).toList = _
    rw [Nat.repr_eq_ofList_toDigits, String.toList_ofList, if_neg hnonneg]
    rfl
  | negSucc m =>
    show ("-" ++ Nat.repr (m + 1)).toList = _
    rw [Nat.repr_eq_ofList_toDigits, String.toList_append, String.toList_ofList (l := Nat.toDigits 10 (m + 1)),
      if_pos (Int.negSucc_lt_zero m)]
    rfl

/-- The width of a printed integer. -/
theorem length_toString {n : Int} {k : Nat} (hk : 0 < k) (h : n.natAbs < 10 ^ k) :
    (toString n).toList.length ≤ k + 1 := by
  have hdigits : (Nat.toDigits 10 n.natAbs).length ≤ k := (Nat.length_toDigits_le_iff (by decide) hk).2 h
  rw [toList_toString]
  split
  · exact Nat.succ_le_succ hdigits
  · exact Nat.le_succ_of_le hdigits

theorem digitChar_digit {c : Char} (h : c.isDigit = true) :
    c.toNat - '0'.toNat < 10 ∧ Nat.digitChar (c.toNat - '0'.toNat) = c := by
  have hlo : 48 ≤ c.toNat := (Char.isDigit_iff_toNat.1 h).1
  have hhi : c.toNat ≤ 57 := (Char.isDigit_iff_toNat.1 h).2
  have hlt : c.toNat - 48 < 10 := by omega
  refine ⟨hlt, Char.toNat_inj.1 ?_⟩
  calc (Nat.digitChar (c.toNat - 48)).toNat = 48 + (c.toNat - 48) := Nat.toNat_digitChar_of_lt_ten hlt
    _ = c.toNat := by omega

/-- More digits behind a printed number print the number they make. -/
theorem toDigits_ofDigitChars : ∀ (s : Text) {n : Nat}, 0 < n → (∀ c ∈ s, c.isDigit = true) →
    Nat.toDigits 10 (Nat.ofDigitChars 10 s n) = Nat.toDigits 10 n ++ s
  | [], n, _, _ => by rw [Nat.ofDigitChars_nil, List.append_nil]
  | c :: s, n, hn, hs => by
    obtain ⟨hlt, hc⟩ := digitChar_digit (hs c (List.mem_cons_self))
    have hstep : Nat.toDigits 10 (10 * n + (c.toNat - '0'.toNat)) = Nat.toDigits 10 n ++ [c] := by
      rw [← Nat.toDigits_append_toDigits (by decide) hn hlt, Nat.toDigits_of_lt_base hlt, hc]
    rw [Nat.ofDigitChars_cons,
      toDigits_ofDigitChars s (by omega) (fun x hx => hs x (List.mem_cons_of_mem _ hx)), hstep,
      List.append_assoc, List.singleton_append]

theorem not_isSpace_of_isDigit {c : Char} (h : c.isDigit = true) : isSpace c = false := by
  simp only [isSpace, Bool.or_eq_false_iff, beq_eq_false_iff_ne]
  refine ⟨⟨⟨⟨⟨?_, ?_⟩, ?_⟩, ?_⟩, ?_⟩, ?_⟩ <;> rintro rfl <;> revert h <;> decide

theorem scanSign_digit {c : Char} (h : c.isDigit = true) (s : Text) :
    scanSign (c :: s) = (false, c :: s) := by
  unfold scanSign
  split
  · rename_i heq
    rw [(List.cons.inj heq).1] at h
    exact absurd h (by decide)
  · rename_i heq
    rw [(List.cons.inj heq).1] at h
    exact absurd h (by decide)
  · rfl

theorem scanInt_toDigits (n : Nat) {rest : Text} (hr : ∀ c ∈ rest.head?, c.isDigit = false) :
    scanInt (Nat.toDigits 10 n ++ rest) = some (false, n, rest) := by
  have hall : ∀ c ∈ Nat.toDigits 10 n, c.isDigit = true := fun c hc => isDigit_toDigits hc
  have htake : (Nat.toDigits 10 n ++ rest).takeWhile Char.isDigit = Nat.toDigits 10 n := by
    rw [List.takeWhile_append_of_pos hall]
    cases rest with
    | nil => simp
    | cons r rest => simp [List.takeWhile, hr r (by simp)]
  have hdrop : (Nat.toDigits 10 n ++ rest).dropWhile Char.isDigit = rest := by
    rw [List.dropWhile_append_of_pos hall]
    cases rest with
    | nil => simp
    | cons r rest => simp [List.dropWhile, hr r (by simp)]
  have hhead : scanSign ((Nat.toDigits 10 n ++ rest).dropWhile isSpace) =
      (false, Nat.toDigits 10 n ++ rest) := by
    cases hd : Nat.toDigits 10 n with
    | nil => exact absurd hd Nat.toDigits_ne_nil
    | cons d ds =>
      have hdig : d.isDigit = true := hall d (by rw [hd]; simp)
      rw [List.cons_append, List.dropWhile_cons, not_isSpace_of_isDigit hdig]
      exact scanSign_digit hdig _
  simp only [scanInt, hhead, htake, hdrop]
  simp

theorem strtoull_toDigits {n : Nat} (hn : n < 2 ^ 64) {rest : Text}
    (hr : ∀ c ∈ rest.head?, c.isDigit = false) :
    strtoull (Nat.toDigits 10 n ++ rest) = some (n, rest) := by
  simp only [strtoull, scanInt_toDigits n hr]
  rw [if_neg (Nat.not_le.2 hn)]
  rfl

theorem strtol_toDigits {n : Nat} (hn : n < 2 ^ 63) {rest : Text}
    (hr : ∀ c ∈ rest.head?, c.isDigit = false) :
    strtol (Nat.toDigits 10 n ++ rest) = some ((n : Int), rest) := by
  have hv : signedValue false n = (n : Int) := rfl
  simp only [strtol, scanInt_toDigits n hr, hv]
  rw [if_neg (by omega)]

theorem mem_scanSign {s : Text} {c : Char} (h : c ∈ s) :
    c = '-' ∨ c = '+' ∨ c ∈ (scanSign s).2 := by
  unfold scanSign
  split
  · rcases List.mem_cons.1 h with rfl | h
    · exact Or.inl rfl
    · exact Or.inr (Or.inr h)
  · rcases List.mem_cons.1 h with rfl | h
    · exact Or.inr (Or.inl rfl)
    · exact Or.inr (Or.inr h)
  · exact Or.inr (Or.inr h)

/-- A text that is read to its end as a number holds only white space, a sign and digits. -/
theorem scanInt_chars {s : Text} {neg : Bool} {n : Nat} (h : scanInt s = some (neg, n, [])) :
    ∀ c ∈ s, isSpace c = true ∨ c = '-' ∨ c = '+' ∨ c.isDigit = true := by
  intro c hc
  rw [← List.takeWhile_append_dropWhile (p := isSpace) (l := s), List.mem_append] at hc
  rcases hc with hc | hc
  · exact Or.inl (List.mem_takeWhile_imp hc)
  right
  simp only [scanInt] at h
  split at h
  · cases h
  simp only [Option.some.injEq, Prod.mk.injEq] at h
  rcases mem_scanSign hc with hc | hc | hc
  · exact Or.inl hc
  · exact Or.inr (Or.inl hc)
  · right; right
    rw [← List.takeWhile_append_dropWhile (p := Char.isDigit)
      (l := (scanSign (s.dropWhile isSpace)).2), h.2.2, List.append_nil] at hc
    exact List.mem_takeWhile_imp hc

theorem strtol_chars {s : Text} {v : Int} (h : strtol s = some (v, [])) :
    ∀ c ∈ s, isSpace c = true ∨ c = '-' ∨ c = '+' ∨ c.isDigit = true := by
  simp only [strtol] at h
  split at h
  · cases h
  rename_i neg n rest hscan
  split at h
  · cases h
  simp only [Option.some.injEq, Prod.mk.injEq] at h
  rw [h.2] at hscan
  exact scanInt_chars hscan

/-- The text of an integer: optional white space, a sign, and digits for `n`; `neg` for a minus, else a
plus or nothing. -/
def NumberText (neg : Bool) (s : Text) (n : Nat) : Prop :=
  ∃ space sign digits, s = space ++ (sign ++ digits) ∧ (∀ c ∈ space, isSpace c = true) ∧
    (if neg then sign = ['-'] else sign = [] ∨ sign = ['+']) ∧ digits ≠ [] ∧
    (∀ c ∈ digits, c.isDigit = true) ∧ Nat.ofDigitChars 10 digits 0 = n

theorem scanSign_text (s : Text) : ∃ sign, s = sign ++ (scanSign s).2 ∧
    if (scanSign s).1 then sign = ['-'] else sign = [] ∨ sign = ['+'] := by
  unfold scanSign
  split
  · exact ⟨['-'], rfl, rfl⟩
  · exact ⟨['+'], rfl, Or.inr rfl⟩
  · exact ⟨[], rfl, Or.inl rfl⟩

theorem numberText_of_scanInt {s : Text} {neg : Bool} {n : Nat} (h : scanInt s = some (neg, n, [])) :
    NumberText neg s n := by
  obtain ⟨sign, hsign, hneg⟩ := scanSign_text (s.dropWhile isSpace)
  simp only [scanInt] at h
  split at h
  · cases h
  rename_i hdigits
  simp only [Option.some.injEq, Prod.mk.injEq] at h
  obtain ⟨hn, hvalue, hrest⟩ := h
  have hall : (scanSign (s.dropWhile isSpace)).2.takeWhile Char.isDigit =
      (scanSign (s.dropWhile isSpace)).2 := by
    have hsplit := List.takeWhile_append_dropWhile (p := Char.isDigit)
      (l := (scanSign (s.dropWhile isSpace)).2)
    rw [hrest, List.append_nil] at hsplit
    exact hsplit
  rw [hall] at hdigits hvalue
  refine ⟨s.takeWhile isSpace, sign, (scanSign (s.dropWhile isSpace)).2, ?_,
    fun c hc => List.mem_takeWhile_imp hc, hn ▸ hneg, hdigits, fun c hc => ?_, hvalue⟩
  · rw [← hsign, List.takeWhile_append_dropWhile]
  · rw [← hall] at hc
    exact List.mem_takeWhile_imp hc

/-- **What is read to its end as a number.** -/
theorem scanInt_iff {s : Text} {neg : Bool} {n : Nat} :
    scanInt s = some (neg, n, []) ↔ NumberText neg s n := by
  refine ⟨numberText_of_scanInt, ?_⟩
  rintro ⟨space, sign, digits, rfl, hspace, hsign, hne, hdigits, rfl⟩
  obtain ⟨c, ds, rfl⟩ := List.exists_cons_of_ne_nil hne
  have hc : c.isDigit = true := hdigits c List.mem_cons_self
  have htake : (c :: ds).takeWhile Char.isDigit = c :: ds := List.takeWhile_eq_self_iff.2 hdigits
  have hdrop : (c :: ds).dropWhile Char.isDigit = [] := List.dropWhile_eq_nil_iff.2 hdigits
  have hscan : scanSign (sign ++ c :: ds) = (neg, c :: ds) := by
    cases neg with
    | true =>
      rw [show sign = ['-'] from hsign]
      rfl
    | false =>
      rcases (hsign : sign = [] ∨ sign = ['+']) with rfl | rfl
      · exact scanSign_digit hc ds
      · rfl
  have hhead : ∀ x ∈ (sign ++ c :: ds).head?, isSpace x = false := by
    intro x hx
    cases neg with
    | true =>
      rw [show sign = ['-'] from hsign, List.cons_append, List.head?_cons, Option.mem_def,
        Option.some.injEq] at hx
      rw [← hx]
      rfl
    | false =>
      rcases (hsign : sign = [] ∨ sign = ['+']) with rfl | rfl
      · rw [List.nil_append, List.head?_cons, Option.mem_def, Option.some.injEq] at hx
        rw [← hx]
        exact not_isSpace_of_isDigit hc
      · rw [List.cons_append, List.head?_cons, Option.mem_def, Option.some.injEq] at hx
        rw [← hx]
        rfl
  have hskip : (space ++ (sign ++ c :: ds)).dropWhile isSpace = sign ++ c :: ds := by
    rw [List.dropWhile_append_of_pos hspace]
    cases hs : sign ++ c :: ds with
    | nil => rfl
    | cons x xs =>
      rw [hs] at hhead
      exact List.dropWhile_cons_of_neg (by rw [hhead x rfl]; exact Bool.false_ne_true)
  simp only [scanInt, hskip, hscan, htake, hdrop]
  rw [if_neg (List.cons_ne_nil c ds)]

/-- **The texts `strtoull` reads to the end**: numbers below `2^64`, with a minus sign as well. -/
theorem strtoull_iff {s : Text} {v : Nat} : strtoull s = some (v, []) ↔
    (NumberText false s v ∧ v < 2 ^ 64) ∨
      ∃ n, NumberText true s n ∧ n < 2 ^ 64 ∧ v = (2 ^ 64 - n) % 2 ^ 64 := by
  simp only [← scanInt_iff]
  unfold strtoull
  constructor
  · intro h
    split at h
    · cases h
    rename_i neg n rest hscan
    split at h
    · cases h
    rename_i hlt
    simp only [Option.some.injEq, Prod.mk.injEq] at h
    obtain ⟨hv, rfl⟩ := h
    rw [hscan]
    cases neg with
    | false => exact Or.inl ⟨by rw [← hv]; rfl, by rw [← hv]; exact Nat.not_le.1 hlt⟩
    | true => exact Or.inr ⟨n, rfl, Nat.not_le.1 hlt, hv.symm⟩
  · rintro (⟨hscan, hlt⟩ | ⟨n, hscan, hlt, rfl⟩)
    · rw [hscan]
      simp only
      rw [if_neg (Nat.not_le.2 hlt)]
      rfl
    · rw [hscan]
      simp only
      rw [if_neg (Nat.not_le.2 hlt)]
      rfl

end CText
