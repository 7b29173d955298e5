import TinyDocker.Lib.MountSpace

/-!
# Canonical paths

Where resolution can end: at a path whose components are plain names and whose directories are real, or at
a file in such a directory.  The text of a canonical path resolves to the path itself.

Principal results: `walk_resolved` — every successful resolution ends at such a path; `walk_prefix` — the
first part of a path that resolves resolves; `tokens_pathText` — the text of a path splits into its names.
-/

set_option autoImplicit false

namespace MountSpace

open CText

/-- A word between slashes. -/
def Word (c : Text) : Prop := c ≠ [] ∧ '/' ∉ c

structure Canonical (sp : Space) (p : Path) : Prop where
  words : ∀ c ∈ p, Word c
  plain : PlainNames p
  real : RealDirs sp [] p

inductive Resolved (sp : Space) : Path → Prop where
  | directory {p : Path} (h : Canonical sp p) : Resolved sp p
  | file {p : Path} {c : Text} (h : Canonical sp p) (hword : Word c) (hplain : c ≠ ['.'] ∧ c ≠ ['.', '.'])
    (hfile : sp.look (p ++ [c]) = some .file) : Resolved sp (p ++ [c])

theorem realDirs_append {sp : Space} : ∀ {p q cur : Path},
    RealDirs sp cur (p ++ q) ↔ RealDirs sp cur p ∧ RealDirs sp (cur ++ p) q
  | [], q, cur => by simp [RealDirs]
  | c :: p, q, cur => by
    rw [List.cons_append, RealDirs, RealDirs, realDirs_append, List.append_assoc, List.singleton_append,
      and_assoc]

theorem Canonical.nil (sp : Space) : Canonical sp [] :=
  ⟨fun _ h => (by cases h), fun _ h => (by cases h), trivial⟩

theorem Canonical.dropLast {sp : Space} {p : Path} (h : Canonical sp p) : Canonical sp p.dropLast := by
  refine ⟨fun c hc => h.words c (List.dropLast_subset p hc), fun c hc => h.plain c (List.dropLast_subset p hc),
    ?_⟩
  rcases List.eq_nil_or_concat p with rfl | ⟨q, c, rfl⟩
  · trivial
  · have hreal := h.real
    rw [List.concat_eq_append, realDirs_append] at hreal
    rw [List.concat_eq_append, List.dropLast_concat]
    exact hreal.1

theorem Canonical.snoc {sp : Space} {p : Path} {c : Text} (h : Canonical sp p) (hword : Word c)
    (hplain : c ≠ ['.'] ∧ c ≠ ['.', '.']) (hdir : sp.look (p ++ [c]) = some .dir) :
    Canonical sp (p ++ [c]) := by
  refine ⟨fun x hx => ?_, fun x hx => ?_, realDirs_append.2 ⟨h.real, hdir, trivial⟩⟩
  · rcases List.mem_append.1 hx with hx | hx
    · exact h.words x hx
    · rw [List.mem_singleton.1 hx]
      exact hword
  · rcases List.mem_append.1 hx with hx | hx
    · exact h.plain x hx
    · rw [List.mem_singleton.1 hx]
      exact hplain

theorem word_of_mem_tokens {s c : Text} (h : c ∈ tokens (· == '/') s) : Word c := by
  obtain ⟨hne, hchars⟩ := mem_tokens h
  exact ⟨hne, fun hm => by simpa using (hchars '/' hm).1⟩

theorem walkFrom_resolved {sp : Space} {follow : Path → Path → Except Errno Path}
    (hfollow : ∀ cur rest r, Canonical sp cur → (∀ c ∈ rest, Word c) → follow cur rest = .ok r →
      Resolved sp r) :
    ∀ {rest cur r : Path}, Canonical sp cur → (∀ c ∈ rest, Word c) → walkFrom sp follow cur rest = .ok r →
      Resolved sp r
  | [], cur, r, hcur, _, h => by
    cases h
    exact .directory hcur
  | c :: rest, cur, r, hcur, hwords, h => by
    have hrest : ∀ x ∈ rest, Word x := fun x hx => hwords x (List.mem_cons_of_mem _ hx)
    unfold walkFrom at h
    split at h
    · exact walkFrom_resolved hfollow hcur hrest h
    rename_i hdot
    split at h
    · exact walkFrom_resolved hfollow hcur.dropLast hrest h
    rename_i hdots
    have hword := hwords c List.mem_cons_self
    split at h
    · cases h
    · rename_i hdir
      exact walkFrom_resolved hfollow (hcur.snoc hword ⟨hdot, hdots⟩ hdir) hrest h
    · rename_i hfile
      split at h
      · cases h
        exact .file hcur hword ⟨hdot, hdots⟩ hfile
      · cases h
    · rename_i target hlink
      refine hfollow _ _ _ ?_ (fun x hx => ?_) h
      · split
        · exact Canonical.nil sp
        · exact hcur
      · rcases List.mem_append.1 hx with hx | hx
        · exact word_of_mem_tokens hx
        · exact hrest x hx

/-- **Where resolution ends.** -/
theorem walk_resolved {sp : Space} : ∀ {links : Nat} {rest cur r : Path}, Canonical sp cur →
    (∀ c ∈ rest, Word c) → walk sp links cur rest = .ok r → Resolved sp r
  | 0, _, _, _, hcur, hwords, h => walkFrom_resolved (fun _ _ _ _ _ hf => by cases hf) hcur hwords h
  | _ + 1, _, _, _, hcur, hwords, h =>
    walkFrom_resolved (fun _ _ _ hc hw hf => walk_resolved hc hw hf) hcur hwords h

/-! ## The first part of a resolution -/

theorem Canonical.not_file {sp : Space} {p : Path} (hroot : sp.look [] ≠ some .file) (h : Canonical sp p) :
    sp.look p ≠ some .file := by
  rcases List.eq_nil_or_concat p with rfl | ⟨q, c, rfl⟩
  · exact hroot
  · have hreal := h.real
    rw [List.concat_eq_append, realDirs_append] at hreal
    rw [List.concat_eq_append]
    intro hfile
    have hdir := hreal.2.1
    rw [List.nil_append, hfile] at hdir
    cases hdir

theorem walkFrom_start {sp : Space} {follow : Path → Path → Except Errno Path} {more : Path}
    (hroot : sp.look [] ≠ some .file)
    (hfollow : ∀ cur rest r, Canonical sp cur → (∀ c ∈ rest, Word c) → follow cur (rest ++ more) = .ok r →
      ∃ r', follow cur rest = .ok r' ∧ (more ≠ [] → sp.look r' ≠ some .file)) :
    ∀ {rest cur r : Path}, Canonical sp cur → (∀ c ∈ rest, Word c) →
      walkFrom sp follow cur (rest ++ more) = .ok r →
      ∃ r', walkFrom sp follow cur rest = .ok r' ∧ (more ≠ [] → sp.look r' ≠ some .file)
  | [], cur, r, hcur, _, _ => ⟨cur, rfl, fun _ => hcur.not_file hroot⟩
  | c :: rest, cur, r, hcur, hwords, h => by
    have hrest : ∀ x ∈ rest, Word x := fun x hx => hwords x (List.mem_cons_of_mem _ hx)
    have ih := fun cur => @walkFrom_start sp follow more hroot hfollow rest cur r
    rw [List.cons_append] at h
    unfold walkFrom at h ⊢
    split
    · rename_i hdot
      rw [if_pos hdot] at h
      exact ih cur hcur hrest h
    rename_i hdot
    rw [if_neg hdot] at h
    split
    · rename_i hdots
      rw [if_pos hdots] at h
      exact ih _ hcur.dropLast hrest h
    rename_i hdots
    rw [if_neg hdots] at h
    have hword := hwords c List.mem_cons_self
    split
    · rename_i hl
      rw [hl] at h
      cases h
    · rename_i hl
      rw [hl] at h
      exact ih _ (hcur.snoc hword ⟨hdot, hdots⟩ hl) hrest h
    · rename_i hl
      rw [hl] at h
      simp only at h
      split at h
      · rename_i hnil
        obtain ⟨rfl, rfl⟩ := List.append_eq_nil_iff.1 hnil
        exact ⟨cur ++ [c], if_pos rfl, fun hmore => absurd rfl hmore⟩
      · cases h
    · rename_i target hl
      rw [hl] at h
      simp only at h
      rw [← List.append_assoc] at h
      refine hfollow _ _ r ?_ (fun x hx => ?_) h
      · split
        · exact Canonical.nil sp
        · exact hcur
      · rcases List.mem_append.1 hx with hx | hx
        · exact word_of_mem_tokens hx
        · exact hrest x hx

/-- **The first part of a path that resolves resolves**, to a directory if something follows. -/
theorem walk_prefix {sp : Space} {more : Path} (hroot : sp.look [] ≠ some .file) :
    ∀ {links : Nat} {rest cur r : Path}, Canonical sp cur → (∀ c ∈ rest, Word c) →
      walk sp links cur (rest ++ more) = .ok r →
      ∃ r', walk sp links cur rest = .ok r' ∧ (more ≠ [] → sp.look r' ≠ some .file)
  | 0, _, _, _, hcur, hwords, h => walkFrom_start hroot (fun _ _ _ _ _ hf => by cases hf) hcur hwords h
  | _ + 1, _, _, _, hcur, hwords, h =>
    walkFrom_start hroot (fun _ _ _ hc hw hf => walk_prefix hroot hc hw hf) hcur hwords h

/-- The text of a path. -/
def pathText (p : Path) : Text := if p = [] then ['/'] else p.flatMap ('/' :: ·)

theorem pathText_head (p : Path) : (pathText p).head? = some '/' := by
  cases p with
  | nil => rfl
  | cons c p => rfl

/-- Only the root ends in a slash. -/
theorem pathText_getLast {p : Path} (h : ∀ c ∈ p, Word c) (hne : p ≠ []) :
    (pathText p).getLast? ≠ some '/' := by
  rcases List.eq_nil_or_concat p with rfl | ⟨q, c, rfl⟩
  · exact absurd rfl hne
  · rw [List.concat_eq_append] at h ⊢
    obtain ⟨hword, hslash⟩ := h c (List.mem_append_right _ List.mem_cons_self)
    rw [pathText, if_neg (List.append_ne_nil_of_right_ne_nil _ (List.cons_ne_nil c [])), List.flatMap_append,
      List.flatMap_singleton, List.getLast?_append, List.getLast?_cons]
    cases hlast : c.getLast? with
    | none => exact absurd (List.getLast?_eq_none_iff.1 hlast) hword
    | some x =>
      rw [Option.getD_some, Option.some_or]
      rintro heq
      cases heq
      exact hslash (List.mem_of_getLast? hlast)

/-- **The text of a path splits into its names.** -/
theorem tokens_pathText {p : Path} (h : ∀ c ∈ p, Word c) : tokens (· == '/') (pathText p) = p := by
  cases p with
  | nil => rfl
  | cons c p =>
    rw [pathText, if_neg (List.cons_ne_nil c p), List.flatMap_cons, List.cons_append,
      tokens_cons_of_delim (d := (· == '/')) rfl]
    refine tokens_words (d := (· == '/')) rfl fun u hu => ⟨(h u hu).1, fun x hx => ?_⟩
    rw [beq_eq_false_iff_ne]
    rintro rfl
    exact (h u hu).2 hx

end MountSpace
