import TinyDocker.Core.Safety

/-!
# Entries of an archive (`core/safety.c`, `util/utils.c`)

`extract_tar` hands every line of `tar -tf` to `td_archive_entry_is_safe` before anything is
extracted.  The check drops leading `./` and looks for the components `.` and `..` behind them.

Principal results: `scanUnsafe_eq` — the scanning loop of the source finds what
`hasUnsafePathComponent` says; `archive_entry_check` — which entries are accepted, that the walk along an
accepted one stays below its directory, and that what `create_tar` prints is accepted.
-/

set_option autoImplicit false

namespace TinyDocker

open CText

/-! ## The scanning loop -/

def isSlash (c : Char) : Bool := c == '/'

theorem head_of_dropWhile {d : Char → Bool} {s r : Text} {c : Char} (h : s.dropWhile d = c :: r) :
    d c = false := by
  have hhead := List.head?_dropWhile_not d s
  rw [h] at hhead
  simpa using hhead

/-- The loop of `has_unsafe_path_component`: skip slashes, look at the component up to the next
slash. -/
def scanUnsafe (component : Text) : Bool :=
  let start := component.dropWhile isSlash
  if start = [] then false
  else
    let name := start.takeWhile fun c => !isSlash c
    if name = ['.'] ∨ name = ['.', '.'] then true
    else scanUnsafe (start.dropWhile fun c => !isSlash c)
termination_by component.length
decreasing_by
  rename_i hne _
  have hle : (component.dropWhile isSlash).length ≤ component.length :=
    (List.dropWhile_suffix isSlash).length_le
  obtain ⟨c, s, hs⟩ := List.exists_cons_of_ne_nil hne
  have hc : isSlash c = false := head_of_dropWhile hs
  have hrest : (s.dropWhile fun x => !isSlash x).length ≤ s.length :=
    (List.dropWhile_suffix _).length_le
  rw [show component.dropWhile isSlash = c :: s from hs] at hle ⊢
  rw [List.dropWhile_cons_of_pos (by simp [hc])]
  rw [List.length_cons] at hle
  omega

theorem components_eq (path : Text) : components path = tokens isSlash path := rfl

theorem scanUnsafe_eq (path : Text) : scanUnsafe path = hasUnsafePathComponent path := by
  induction path using scanUnsafe.induct with
  | case1 path start hend =>
    have hskip : tokens isSlash path = [] := by
      rw [← tokens_dropWhile, show path.dropWhile isSlash = [] from hend]
      rfl
    rw [scanUnsafe, if_pos hend, hasUnsafePathComponent, components_eq, hskip]
    rfl
  | case2 path start hne name hname =>
    obtain ⟨c, s, hs⟩ := List.exists_cons_of_ne_nil hne
    have htokens := tokens_cons_of_word (head_of_dropWhile hs) s
    rw [← hs, show tokens isSlash start = tokens isSlash path from tokens_dropWhile isSlash path] at htokens
    rw [scanUnsafe, if_neg hne, if_pos hname, hasUnsafePathComponent, components_eq, htokens,
      List.any_cons]
    rcases hname with hname | hname
    · rw [show start.takeWhile (fun x => !isSlash x) = ['.'] from hname]
      rfl
    · rw [show start.takeWhile (fun x => !isSlash x) = ['.', '.'] from hname]
      rfl
  | case3 path start hne name hname ih =>
    obtain ⟨c, s, hs⟩ := List.exists_cons_of_ne_nil hne
    have htokens := tokens_cons_of_word (head_of_dropWhile hs) s
    rw [← hs, show tokens isSlash start = tokens isSlash path from tokens_dropWhile isSlash path] at htokens
    have hplain : (name == ['.'] || name == ['.', '.']) = false := by simpa using hname
    rw [scanUnsafe, if_neg hne, if_neg hname, ih, hasUnsafePathComponent, hasUnsafePathComponent,
      components_eq, components_eq, htokens, List.any_cons,
      show start.takeWhile (fun x => !isSlash x) = name from rfl, hplain, Bool.false_or]

/-! ## What is accepted -/

theorem dropDotSlash_spec : ∀ entry : Text,
    ∃ k, entry = (List.replicate k ['.', '/']).flatten ++ dropDotSlash entry ∧
      ¬ ['.', '/'] <+: dropDotSlash entry := by
  intro entry
  induction entry using dropDotSlash.induct with
  | case1 rest ih =>
    obtain ⟨k, hk, hno⟩ := ih
    refine ⟨k + 1, ?_, hno⟩
    rw [dropDotSlash, List.replicate_succ, List.flatten_cons, List.append_assoc, ← hk]
    rfl
  | case2 entry hentry =>
    have hsame : dropDotSlash entry = entry := by
      rw [dropDotSlash]
      exact hentry
    rw [hsame]
    refine ⟨0, rfl, fun ⟨rest, hrest⟩ => hentry rest hrest.symm⟩

theorem dropDotSlash_replicate {rest : Text} (h : ¬ ['.', '/'] <+: rest) : ∀ k : Nat,
    dropDotSlash ((List.replicate k ['.', '/']).flatten ++ rest) = rest
  | 0 => by
    have hrest : ∀ tail, rest = '.' :: '/' :: tail → False := fun tail ht => h ⟨tail, ht.symm⟩
    rw [List.replicate_zero, List.flatten_nil, List.nil_append, dropDotSlash]
    exact hrest
  | k + 1 => by
    rw [List.replicate_succ, List.flatten_cons, List.append_assoc]
    exact dropDotSlash_replicate h k

theorem hasUnsafePathComponent_false {path : Text} : hasUnsafePathComponent path = false ↔
    ∀ c, IsToken isSlash path c → c ≠ ['.'] ∧ c ≠ ['.', '.'] := by
  rw [hasUnsafePathComponent, List.any_eq_false]
  simp only [components_eq, mem_tokens_iff, Bool.or_eq_true, beq_iff_eq, not_or]

/-- The check, with an empty rest no longer a case of its own. -/
theorem tdArchiveEntryIsSafe_eq (entry : Text) : tdArchiveEntryIsSafe entry = true ↔
    entry ≠ [] ∧ entry.head? ≠ some '/' ∧ '\n' ∉ entry ∧ '\r' ∉ entry ∧
      hasUnsafePathComponent (dropDotSlash entry) = false := by
  unfold tdArchiveEntryIsSafe
  split
  · rename_i hbad
    refine ⟨fun h => absurd h Bool.false_ne_true, fun h => ?_⟩
    rcases hbad with hbad | hbad | hbad | hbad
    · exact absurd hbad h.1
    · exact absurd hbad h.2.1
    · exact absurd hbad h.2.2.1
    · exact absurd hbad h.2.2.2.1
  · rename_i hgood
    simp only [not_or] at hgood
    have hempty : dropDotSlash entry = [] → hasUnsafePathComponent (dropDotSlash entry) = false := by
      intro h
      rw [h]
      rfl
    rw [Bool.or_eq_true, decide_eq_true_eq, Bool.not_eq_true', or_iff_right_of_imp hempty]
    exact ⟨fun h => ⟨hgood.1, hgood.2.1, hgood.2.2.1, hgood.2.2.2, h⟩, fun h => h.2.2.2.2⟩

/-- Which entries are accepted. -/
theorem tdArchiveEntryIsSafe_iff (entry : Text) : tdArchiveEntryIsSafe entry = true ↔
    entry ≠ [] ∧ entry.head? ≠ some '/' ∧ '\n' ∉ entry ∧ '\r' ∉ entry ∧
      ∃ k rest, entry = (List.replicate k ['.', '/']).flatten ++ rest ∧ ¬ ['.', '/'] <+: rest ∧
        ∀ c, IsToken isSlash rest c → c ≠ ['.'] ∧ c ≠ ['.', '.'] := by
  rw [tdArchiveEntryIsSafe_eq, hasUnsafePathComponent_false]
  refine and_congr_right fun _ => and_congr_right fun _ => and_congr_right fun _ =>
    and_congr_right fun _ => ⟨fun h => ?_, ?_⟩
  · obtain ⟨k, hk, hno⟩ := dropDotSlash_spec entry
    exact ⟨k, _, hk, hno, h⟩
  · rintro ⟨k, rest, hk, hno, h⟩
    rw [hk, dropDotSlash_replicate hno]
    exact h

/-! ## The walk along an entry -/

/-- One component, from a directory given by its names: `..` goes to the parent. -/
def entryStep (dir : List Text) (name : Text) : List Text :=
  if name = ['.'] then dir else if name = ['.', '.'] then dir.dropLast else dir ++ [name]

def extractAt (dir names : List Text) : List Text := names.foldl entryStep dir

/-- A walk without `..` only goes down. -/
theorem extract_below : ∀ {names dir : List Text}, (∀ c ∈ names, c ≠ ['.', '.']) → dir <+: extractAt dir names
  | [], dir, _ => List.prefix_rfl
  | name :: names, dir, h => by
    have hstep : dir <+: entryStep dir name := by
      unfold entryStep
      rw [if_neg (h name List.mem_cons_self)]
      split
      · exact List.prefix_rfl
      · exact List.prefix_append _ _
    exact hstep.trans (extract_below fun c hc => h c (List.mem_cons_of_mem _ hc))

/-- The components of `./././rest`. -/
theorem components_replicate (rest : Text) : ∀ k : Nat,
    components ((List.replicate k ['.', '/']).flatten ++ rest) =
      List.replicate k ['.'] ++ components rest
  | 0 => rfl
  | k + 1 => by
    calc components ((List.replicate (k + 1) ['.', '/']).flatten ++ rest)
        = components (['.'] ++ '/' :: ((List.replicate k ['.', '/']).flatten ++ rest)) := by
          rw [List.replicate_succ, List.flatten_cons, List.append_assoc]
          rfl
      _ = ['.'] :: components ((List.replicate k ['.', '/']).flatten ++ rest) :=
          tokens_append (d := isSlash) rfl _ ['.']
      _ = List.replicate (k + 1) ['.'] ++ components rest := by
          rw [components_replicate rest k]
          rfl

theorem safe_components {entry c : Text} (h : tdArchiveEntryIsSafe entry = true)
    (hc : c ∈ components entry) : c ≠ ['.', '.'] := by
  obtain ⟨k, hk, -⟩ := dropDotSlash_spec entry
  have hplain := hasUnsafePathComponent_false.1 ((tdArchiveEntryIsSafe_eq entry).1 h).2.2.2.2
  rw [hk, components_replicate, List.mem_append] at hc
  rcases hc with hc | hc
  · rw [List.eq_of_mem_replicate hc]
    decide
  · exact (hplain c (mem_tokens_iff.1 hc)).2

/-! ## What `create_tar` prints -/

/-- A file name that `tar` prints as it is. -/
structure Ordinary (name : Text) : Prop where
  ne : name ≠ []
  slash : '/' ∉ name
  newline : '\n' ∉ name
  carriageReturn : '\r' ∉ name
  dot : name ≠ ['.']
  dotDot : name ≠ ['.', '.']

/-- `./c1/.../cn`, with a final slash for a directory; `./` is the archived directory itself. -/
def printEntry : List Text → Bool → Text
  | [], _ => ['.', '/']
  | name :: names, final =>
    ['.', '/'] ++ (name ++ names.flatMap ('/' :: ·)) ++ if final then ['/'] else []

theorem Ordinary.word {name : Text} (h : Ordinary name) : name ≠ [] ∧ ∀ c ∈ name, isSlash c = false := by
  refine ⟨h.ne, fun c hc => ?_⟩
  simp only [isSlash, beq_eq_false_iff_ne]
  rintro rfl
  exact h.slash hc

theorem components_print {name : Text} {names : List Text} (h : ∀ c ∈ name :: names, Ordinary c)
    (final : Bool) :
    components (name ++ names.flatMap ('/' :: ·) ++ if final then ['/'] else []) = name :: names := by
  have hwords : components (name ++ names.flatMap ('/' :: ·)) = name :: names :=
    tokens_words rfl fun u hu => (h u hu).word
  cases final with
  | false =>
    rw [if_neg Bool.false_ne_true, List.append_nil]
    exact hwords
  | true =>
    rw [if_pos rfl, components_eq, tokens_append rfl, ← components_eq, hwords]
    exact List.append_nil _

/-- What `create_tar` prints is accepted. -/
theorem printEntry_safe {names : List Text} (h : ∀ c ∈ names, Ordinary c) (final : Bool) :
    tdArchiveEntryIsSafe (printEntry names final) = true := by
  cases names with
  | nil => rfl
  | cons name names =>
    have hname := h name List.mem_cons_self
    have hdrop : dropDotSlash (printEntry (name :: names) final) =
        name ++ names.flatMap ('/' :: ·) ++ if final then ['/'] else [] := by
      have hno : ¬ ['.', '/'] <+: name ++ names.flatMap ('/' :: ·) ++ if final then ['/'] else [] := by
        rintro ⟨rest, hrest⟩
        obtain ⟨x, xs, rfl⟩ := List.exists_cons_of_ne_nil hname.ne
        simp only [List.cons_append, List.nil_append, List.cons.injEq] at hrest
        obtain ⟨rfl, hrest⟩ := hrest
        cases xs with
        | nil => exact hname.dot rfl
        | cons y ys =>
          simp only [List.cons_append, List.cons.injEq] at hrest
          exact hname.slash (by rw [← hrest.1]; simp)
      have hone := dropDotSlash_replicate hno 1
      rw [List.replicate_one, List.flatten_singleton] at hone
      rw [printEntry, List.append_assoc]
      exact hone
    have hclean : ∀ x : Char, x ≠ '.' → x ≠ '/' → (∀ c ∈ name :: names, x ∉ c) →
        x ∉ printEntry (name :: names) final := by
      intro x hdot hslash hx hmem
      simp only [printEntry, List.mem_append, List.mem_flatMap, List.mem_cons, List.not_mem_nil,
        or_false] at hmem
      rcases hmem with ((hm | hm) | hm | ⟨c, hc, hm | hm⟩) | hm
      · exact hdot hm
      · exact hslash hm
      · exact hx name List.mem_cons_self hm
      · exact hslash hm
      · exact hx c (List.mem_cons_of_mem _ hc) hm
      · split at hm
        · exact hslash (List.mem_singleton.1 hm)
        · cases hm
    refine (tdArchiveEntryIsSafe_eq _).2 ⟨by simp [printEntry], by simp [printEntry],
      hclean _ (by decide) (by decide) fun c hc => (h c hc).newline,
      hclean _ (by decide) (by decide) fun c hc => (h c hc).carriageReturn, ?_⟩
    rw [hdrop, hasUnsafePathComponent, components_print h final, List.any_eq_false]
    intro c hc
    have hordinary := h c hc
    simp only [Bool.or_eq_true, beq_iff_eq, not_or]
    exact ⟨hordinary.dot, hordinary.dotDot⟩

/-- **The archive entry check.**  It accepts the non-empty relative entries without a line break that
have no component `.` or `..` behind their leading `./`; the walk along an accepted entry stays below
the directory it starts from, at every point; and what `create_tar` prints is accepted. -/
theorem archive_entry_check :
    (∀ entry, tdArchiveEntryIsSafe entry = true ↔
      entry ≠ [] ∧ entry.head? ≠ some '/' ∧ '\n' ∉ entry ∧ '\r' ∉ entry ∧
        ∃ k rest, entry = (List.replicate k ['.', '/']).flatten ++ rest ∧ ¬ ['.', '/'] <+: rest ∧
          ∀ c, IsToken isSlash rest c → c ≠ ['.'] ∧ c ≠ ['.', '.']) ∧
    (∀ entry dir names, tdArchiveEntryIsSafe entry = true → names <+: components entry →
      dir <+: extractAt dir names) ∧
    (∀ names final, (∀ c ∈ names, Ordinary c) → tdArchiveEntryIsSafe (printEntry names final) = true) := by
  refine ⟨tdArchiveEntryIsSafe_iff, fun entry dir names hsafe hnames => ?_,
    fun names final h => printEntry_safe h final⟩
  exact extract_below fun c hc => safe_components hsafe (hnames.subset hc)

end TinyDocker
