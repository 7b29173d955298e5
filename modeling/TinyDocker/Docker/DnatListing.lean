import TinyDocker.Core.Process
import TinyDocker.Docker.Network

/-!
# DNAT clean-up on the printed listing (`docker/network.c`)

`deleteDnatRulesForChain` here reads what `iptables -t nat -S CHAIN` prints, character by character
as `delete_dnat_rules_for_chain` does: the output is split at newlines, a line at blanks into at most
32 words, and a line that names the address is answered by an `iptables -D` with its words.

A rule is its list of words; `iptables` prints a word bare, or between quotes when it holds more than
letters, digits, `_` and `-`.

Principal results: `lineArguments_agree` — the comparison of the two counters never fails;
`appendedArguments_printRule` — what is deleted for a rule of bare words is its first 30 words;
`exact_iff` — the listings on which the clean-up deletes exactly the rules of the address;
`deleteDnatRulesForChain_captured` — on the captured listing of the host's table it does what
`TinyDocker.deleteDnatRulesForChain` does to the table.
-/

set_option autoImplicit false

namespace TinyDocker.Iptables

open CText

/-! ## The function -/

def isBlank (c : Char) : Bool := c == ' ' || c == '\t'

def isNewline (c : Char) : Bool := c == '\n'

/-- The words of a line that reach `tokens[32]`. -/
def lineTokens (line : Text) : List Text := (tokens isBlank line).take 32

/-- `destination_prefix[64]`. -/
def destinationPrefix (ip : Text) : Text := (ip ++ [':']).take 63

/-- The search for `--to-destination` with a value that starts with `start`. -/
def namesDestination (start : Text) : List Text → Bool
  | option :: value :: rest =>
    (decide (option = "--to-destination".toList) && start.isPrefixOf value) ||
      namesDestination start (value :: rest)
  | _ => false

/-- The line is a rule of the chain that names the address. -/
def isRuleFor (chain ip : Text) (words : List Text) : Prop :=
  namesDestination (destinationPrefix ip) words = true ∧ words[0]? = some "-A".toList ∧
    words[1]? = some chain

instance (chain ip : Text) (words : List Text) : Decidable (isRuleFor chain ip words) :=
  inferInstanceAs (Decidable (_ ∧ _ ∧ _))

/-- The five arguments every deletion starts with. -/
def deleteArguments (chain : Text) : List Text :=
  ["iptables".toList, "-t".toList, "nat".toList, "-D".toList, chain]

/-- The loop that fills `delete_arguments[36]`; the length of the list is `delete_count`. -/
def appendArguments : List Text → List Text → List Text
  | arguments, [] => arguments
  | arguments, word :: words =>
    if arguments.length < 35 then appendArguments (arguments ++ [word]) words else arguments

/-- The arguments for a line, from its third word on. -/
def lineArguments (chain : Text) (words : List Text) : List Text :=
  appendArguments (deleteArguments chain) (words.drop 2)

/-- An `iptables -D` that was run: for which line of the output, and whether it exited with 0. -/
structure Deletion where
  line : Nat
  arguments : List Text
  ok : Bool
  deriving DecidableEq, Repr

/-- The loop over the lines; `runs` is how the command of each line ends. -/
def deleteLines (chain ip : Text) (runs : Nat → Bool) : Nat → List Text → List Deletion × Bool
  | _, [] => ([], true)
  | i, line :: rest =>
    let later := deleteLines chain ip runs (i + 1) rest
    if isRuleFor chain ip (lineTokens line) then
      if (lineArguments chain (lineTokens line)).length ≠ (lineTokens line).length + 3 then
        (later.1, false)
      else (⟨i, lineArguments chain (lineTokens line), runs i⟩ :: later.1, runs i && later.2)
    else later

/-- `delete_dnat_rules_for_chain`: the deletions run and the result; `output` is what
`td_capture_command` returned. -/
def deleteDnatRulesForChain (chain ip : Text) (output : Option Text) (runs : Nat → Bool) :
    List Deletion × Int :=
  match output with
  | none => ([], -1)
  | some output =>
    let o := deleteLines chain ip runs 0 (tokens isNewline output)
    (o.1, if o.2 then 0 else -1)

/-! ## The counters -/

theorem appendArguments_eq : ∀ (words arguments : List Text), arguments.length ≤ 35 →
    appendArguments arguments words = arguments ++ words.take (35 - arguments.length)
  | [], arguments, _ => by rw [appendArguments, List.take_nil, List.append_nil]
  | word :: words, arguments, h => by
    unfold appendArguments
    split
    · rename_i hlt
      have hlen : 35 - arguments.length = (35 - (arguments ++ [word]).length) + 1 := by
        rw [List.length_append, List.length_singleton]
        omega
      rw [appendArguments_eq words _ (by rw [List.length_append, List.length_singleton]; omega),
        hlen, List.take_succ_cons, List.append_assoc, List.singleton_append]
    · rename_i hlt
      rw [Nat.sub_eq_zero_of_le (Nat.not_lt.1 hlt), List.take_zero, List.append_nil]

/-- At most 30 words follow `-A CHAIN`, which is what fits. -/
theorem lineArguments_eq (chain line : Text) :
    lineArguments chain (lineTokens line) = deleteArguments chain ++ (lineTokens line).drop 2 := by
  have hlen : ((lineTokens line).drop 2).length ≤ 30 := by
    rw [List.length_drop, lineTokens, List.length_take]
    omega
  have hfive : (deleteArguments chain).length = 5 := rfl
  rw [lineArguments, appendArguments_eq _ _ (by omega), hfive, List.take_of_length_le hlen]

theorem isRuleFor_length {chain ip : Text} {words : List Text} (h : isRuleFor chain ip words) :
    2 ≤ words.length := by
  obtain ⟨hlt, -⟩ := List.getElem?_eq_some_iff.1 h.2.2
  exact hlt

/-- **The counters agree on every line**: both count the words that were kept, so a cut rule is not
noticed. -/
theorem lineArguments_agree {chain ip line : Text} (h : isRuleFor chain ip (lineTokens line)) :
    (lineArguments chain (lineTokens line)).length = (lineTokens line).length + 3 := by
  have hlen := isRuleFor_length h
  have hfive : (deleteArguments chain).length = 5 := rfl
  rw [lineArguments_eq, List.length_append, hfive, List.length_drop]
  omega

theorem deleteLines_cons (chain ip : Text) (runs : Nat → Bool) (i : Nat) (line : Text)
    (rest : List Text) :
    deleteLines chain ip runs i (line :: rest) =
      if isRuleFor chain ip (lineTokens line) then
        (⟨i, deleteArguments chain ++ (lineTokens line).drop 2, runs i⟩ ::
          (deleteLines chain ip runs (i + 1) rest).1,
          runs i && (deleteLines chain ip runs (i + 1) rest).2)
      else deleteLines chain ip runs (i + 1) rest := by
  rw [deleteLines]
  split
  · rename_i h
    rw [if_neg (not_not.2 (lineArguments_agree h)), lineArguments_eq]
  · rfl

/-- One deletion for each line that is a rule of the address, and no other. -/
theorem mem_deleteLines {chain ip : Text} {runs : Nat → Bool} {d : Deletion} :
    ∀ {lines : List Text} {i : Nat}, d ∈ (deleteLines chain ip runs i lines).1 ↔
      ∃ k line, lines[k]? = some line ∧ isRuleFor chain ip (lineTokens line) ∧
        d = ⟨i + k, deleteArguments chain ++ (lineTokens line).drop 2, runs (i + k)⟩
  | [], i => by simp [deleteLines]
  | line :: rest, i => by
    have ih := @mem_deleteLines chain ip runs d rest (i + 1)
    have hsplit : (∃ k l, (line :: rest)[k]? = some l ∧ isRuleFor chain ip (lineTokens l) ∧
          d = ⟨i + k, deleteArguments chain ++ (lineTokens l).drop 2, runs (i + k)⟩) ↔
        (isRuleFor chain ip (lineTokens line) ∧
          d = ⟨i, deleteArguments chain ++ (lineTokens line).drop 2, runs i⟩) ∨
        ∃ k l, rest[k]? = some l ∧ isRuleFor chain ip (lineTokens l) ∧
          d = ⟨i + 1 + k, deleteArguments chain ++ (lineTokens l).drop 2, runs (i + 1 + k)⟩ := by
      constructor
      · rintro ⟨k, l, hl, hr, hd⟩
        cases k with
        | zero =>
          rw [List.getElem?_cons_zero, Option.some.injEq] at hl
          exact Or.inl ⟨hl ▸ hr, hl ▸ hd⟩
        | succ k =>
          rw [List.getElem?_cons_succ] at hl
          exact Or.inr ⟨k, l, hl, hr, by rw [hd, show i + (k + 1) = i + 1 + k by omega]⟩
      · rintro (⟨hr, hd⟩ | ⟨k, l, hl, hr, hd⟩)
        · exact ⟨0, line, rfl, hr, hd⟩
        · exact ⟨k + 1, l, hl, hr, by rw [hd, show i + (k + 1) = i + 1 + k by omega]⟩
    rw [deleteLines_cons, hsplit, ← ih]
    split
    · rename_i hrule
      rw [List.mem_cons, and_iff_right hrule]
    · rename_i hrule
      rw [or_iff_right fun h => hrule h.1]

/-- The result is 0 exactly when every command succeeded. -/
theorem deleteLines_ok {chain ip : Text} {runs : Nat → Bool} : ∀ {lines : List Text} {i : Nat},
    (deleteLines chain ip runs i lines).2 = true ↔
      ∀ d ∈ (deleteLines chain ip runs i lines).1, d.ok = true
  | [], i => by simp [deleteLines]
  | line :: rest, i => by
    have ih := @deleteLines_ok chain ip runs rest (i + 1)
    rw [deleteLines_cons]
    split
    · rw [Bool.and_eq_true, ih, List.forall_mem_cons]
    · exact ih

/-! ## The listing -/

/-- What can stand as one word of a line. -/
def IsWord (t : Text) : Prop := t ≠ [] ∧ ∀ c ∈ t, isBlank c = false ∧ isNewline c = false

instance (t : Text) : Decidable (IsWord t) := @instDecidableAnd _ _ _ (List.decidableBAll _ _)

/-- A text that is printed as it is. -/
abbrev Bare := {t : Text // IsWord t}

/-- A chain name; `iptables` takes none that starts like an option. -/
abbrev ChainName := {t : Bare // t.1.head? ≠ some '-'}

/-- A word of a rule, in the form it is printed in. -/
inductive Word where
  | bare (text : Bare)
  | quoted (text : Text)

def Word.text : Word → Text
  | .bare t => t.1
  | .quoted t => t

/-- Quotes and backslashes are printed behind a backslash. -/
def escape (t : Text) : Text :=
  t.flatMap fun c => if c = '\x22' ∨ c = '\x5c' ∨ c = '\x27' then ['\x5c', c] else [c]

def Word.print : Word → Text
  | .bare t => t.1
  | .quoted t => '\x22' :: (escape t ++ ['\x22'])

/-- The words of a rule after `-A CHAIN`. -/
abbrev ListedRule := List Word

/-- No word of the rule needs quotes. -/
def ListedRule.Plain (r : ListedRule) : Prop := ∀ w ∈ r, ∃ t, w = .bare t

/-- The `--to-destination` value of the rule starts with `ip:`. -/
def ListedRule.GoesTo (ip : Text) (r : ListedRule) : Prop :=
  ∃ first option value rest, r = first ++ Word.bare option :: Word.bare value :: rest ∧
    option.1 = "--to-destination".toList ∧ ip ++ [':'] <+: value.1

def printRule (chain : ChainName) (r : ListedRule) : Text :=
  "-A".toList ++ (chain.1.1 :: r.map Word.print).flatMap (' ' :: ·)

/-- The line with the policy of a built-in chain. -/
def printPolicy (chain : ChainName) (policy : Bare) : Text :=
  "-P".toList ++ [chain.1.1, policy.1].flatMap (' ' :: ·)

/-- `iptables -t nat -S CHAIN`. -/
def listing (chain : ChainName) (policy : Bare) (rules : List ListedRule) : Text :=
  printPolicy chain policy ++ '\n' :: rules.flatMap fun r => printRule chain r ++ ['\n']

/-- The arguments that delete the rule. -/
def deletionOf (chain : ChainName) (r : ListedRule) : List Text :=
  deleteArguments chain.1.1 ++ r.map Word.text

/-! ## A printed rule as lines and words -/

theorem isWord_dashA : IsWord "-A".toList := by decide

theorem IsWord.blank {t : Text} (h : IsWord t) : t ≠ [] ∧ ∀ c ∈ t, isBlank c = false :=
  ⟨h.1, fun c hc => (h.2 c hc).1⟩

/-- A rule whose printed words have no blank and no newline is one line. -/
theorem lines_printRule {chain : ChainName} {r : ListedRule} (h : ∀ w ∈ r, IsWord w.print) :
    tokens isNewline (printRule chain r) = [printRule chain r] := by
  have hwords : ∀ t ∈ chain.1.1 :: r.map Word.print, IsWord t := by
    intro t ht
    rcases List.mem_cons.1 ht with rfl | ht
    · exact chain.1.2
    · obtain ⟨w, hw, rfl⟩ := List.mem_map.1 ht
      exact h w hw
  refine tokens_word (by simp [printRule]) fun c hc => ?_
  rcases List.mem_append.1 hc with hc | hc
  · exact (isWord_dashA.2 c hc).2
  · obtain ⟨t, ht, hc⟩ := List.mem_flatMap.1 hc
    rcases List.mem_cons.1 hc with rfl | hc
    · rfl
    · exact ((hwords t ht).2 c hc).2

/-- Its words are the printed words. -/
theorem words_printRule {chain : ChainName} {r : ListedRule} (h : ∀ w ∈ r, IsWord w.print) :
    tokens isBlank (printRule chain r) = "-A".toList :: chain.1.1 :: r.map Word.print := by
  refine tokens_words rfl fun t ht => ?_
  rcases List.mem_cons.1 ht with rfl | ht
  · exact isWord_dashA.blank
  rcases List.mem_cons.1 ht with rfl | ht
  · exact chain.1.2.blank
  · obtain ⟨w, hw, rfl⟩ := List.mem_map.1 ht
    exact (h w hw).blank

theorem lineTokens_printRule {chain : ChainName} {r : ListedRule} (h : ∀ w ∈ r, IsWord w.print) :
    lineTokens (printRule chain r) =
      "-A".toList :: chain.1.1 :: (r.map Word.print).take 30 := by
  rw [lineTokens, words_printRule h]
  rfl

theorem ListedRule.Plain.print {r : ListedRule} (h : r.Plain) :
    (∀ w ∈ r, IsWord w.print) ∧ r.map Word.print = r.map Word.text := by
  refine ⟨fun w hw => ?_, List.map_congr_left fun w hw => ?_⟩
  · obtain ⟨t, rfl⟩ := h w hw
    exact t.2
  · obtain ⟨t, rfl⟩ := h w hw
    rfl

/-- **What is deleted for a plain rule is its first 30 words.** -/
theorem appendedArguments_printRule {chain : ChainName} {r : ListedRule} (h : r.Plain) :
    tokens isNewline (printRule chain r) = [printRule chain r] ∧
    deleteArguments chain.1.1 ++ (lineTokens (printRule chain r)).drop 2 =
      deletionOf chain (r.take 30) := by
  obtain ⟨hwords, htext⟩ := h.print
  refine ⟨lines_printRule hwords, ?_⟩
  rw [lineTokens_printRule hwords, htext, deletionOf, List.map_take]
  rfl

theorem length_escape (t : Text) : t.length ≤ (escape t).length := by
  induction t with
  | nil => exact Nat.le_refl _
  | cons c t ih =>
    have hone : 1 ≤ (if c = '\x22' ∨ c = '\x5c' ∨ c = '\x27' then ['\x5c', c] else [c]).length := by
      split <;> simp
    rw [escape, List.flatMap_cons, List.length_append, List.length_cons]
    rw [escape] at ih
    omega

theorem mem_escape {t : Text} {c : Char} (h : c ∈ escape t) : c ∈ t ∨ c = '\x5c' := by
  obtain ⟨e, he, hc⟩ := List.mem_flatMap.1 h
  split at hc
  · rcases List.mem_cons.1 hc with rfl | hc
    · exact Or.inr rfl
    · exact Or.inl (List.mem_singleton.1 hc ▸ he)
  · exact Or.inl (List.mem_singleton.1 hc ▸ he)

/-- Quotes do not make a blank or a newline of anything else. -/
theorem isWord_print {w : Word} (h : ∀ c ∈ w.text, isBlank c = false ∧ isNewline c = false) :
    IsWord w.print := by
  cases w with
  | bare t => exact t.2
  | quoted t =>
    refine ⟨by simp [Word.print], fun c hc => ?_⟩
    rcases List.mem_cons.1 hc with rfl | hc
    · exact ⟨rfl, rfl⟩
    rcases List.mem_append.1 hc with hc | hc
    · rcases mem_escape hc with hc | rfl
      · exact h c hc
      · exact ⟨rfl, rfl⟩
    · rw [List.mem_singleton.1 hc]
      exact ⟨rfl, rfl⟩

/-- A word that is printed as its text is not quoted. -/
theorem bare_of_print {w : Word} (h : w.print = w.text) : ∃ t, w = .bare t := by
  cases w with
  | bare t => exact ⟨t, rfl⟩
  | quoted t =>
    have hlen := congrArg List.length h
    have hesc := length_escape t
    simp only [Word.print, Word.text, List.length_cons, List.length_append, List.length_nil] at hlen
    omega

/-- **A line that yields the whole rule is the line of a plain rule of at most 30 words.** -/
theorem plain_of_deletionOf {chain : ChainName} {r : ListedRule} {line : Text}
    (hline : line ∈ tokens isNewline (printRule chain r))
    (h : deleteArguments chain.1.1 ++ (lineTokens line).drop 2 = deletionOf chain r) :
    r.Plain ∧ r.length ≤ 30 := by
  have htexts : (lineTokens line).drop 2 = r.map Word.text := List.append_cancel_left h
  have hlen : r.length ≤ 30 := by
    have hcount := congrArg List.length htexts
    rw [List.length_drop, lineTokens, List.length_take, List.length_map] at hcount
    omega
  -- the words of the line have no blank and no newline, so no word of the rule has one
  have hchars : ∀ w ∈ r, ∀ c ∈ w.text, isBlank c = false ∧ isNewline c = false := by
    intro w hw c hc
    have htoken : w.text ∈ tokens isBlank line := by
      have hdrop : w.text ∈ (lineTokens line).drop 2 := htexts ▸ List.mem_map_of_mem hw
      exact List.mem_of_mem_take (List.mem_of_mem_drop hdrop)
    obtain ⟨hblank, hin⟩ := (mem_tokens htoken).2 c hc
    exact ⟨hblank, ((mem_tokens hline).2 c hin).1⟩
  have hwords : ∀ w ∈ r, IsWord w.print := fun w hw => isWord_print (hchars w hw)
  rw [lines_printRule hwords, List.mem_singleton] at hline
  rw [hline, lineTokens_printRule hwords, List.drop_succ_cons, List.drop_succ_cons, List.drop_zero,
    List.take_of_length_le (by rw [List.length_map]; exact hlen)] at htexts
  exact ⟨fun w hw => bare_of_print (List.map_inj_left.1 htexts w hw), hlen⟩

/-! ## The lines of the listing -/

/-- The lines that rules are printed on; a rule whose comment holds a newline takes several. -/
def ruleLines (chain : ChainName) (rules : List ListedRule) : List Text :=
  rules.flatMap fun r => tokens isNewline (printRule chain r)

theorem tokens_rules (chain : ChainName) : ∀ rules : List ListedRule,
    tokens isNewline (rules.flatMap fun r => printRule chain r ++ ['\n']) = ruleLines chain rules
  | [] => rfl
  | r :: rules => by
    rw [List.flatMap_cons, List.append_assoc, List.singleton_append, tokens_append rfl,
      tokens_rules chain rules]
    rfl

/-- Rules of one line each. -/
theorem ruleLines_lines {chain : ChainName} : ∀ {rules : List ListedRule}, (∀ r ∈ rules, ∀ w ∈ r, IsWord w.print) →
    ruleLines chain rules = rules.map (printRule chain)
  | [], _ => rfl
  | r :: rules, h => by
    have hcons : ruleLines chain (r :: rules) = tokens isNewline (printRule chain r) ++ ruleLines chain rules :=
      List.flatMap_cons
    rw [hcons, lines_printRule (h r List.mem_cons_self), ruleLines_lines fun r hr => h r (List.mem_cons_of_mem _ hr)]
    rfl

theorem lines_printPolicy (chain : ChainName) (policy : Bare) :
    tokens isNewline (printPolicy chain policy) = [printPolicy chain policy] := by
  refine tokens_word (by simp [printPolicy]) fun c hc => ?_
  simp only [printPolicy, List.flatMap_cons, List.flatMap_nil, List.append_nil, List.mem_append,
    List.mem_cons] at hc
  rcases hc with hc | (rfl | hc) | rfl | hc
  · exact @forall_mem_of_all (isNewline · = false) _ "-P".toList (by decide) c hc
  · rfl
  · exact (chain.1.2.2 c hc).2
  · rfl
  · exact (policy.2.2 c hc).2

theorem lines_listing (chain : ChainName) (policy : Bare) (rules : List ListedRule) :
    tokens isNewline (listing chain policy rules) =
      printPolicy chain policy :: ruleLines chain rules := by
  rw [listing, tokens_append rfl, lines_printPolicy, tokens_rules, List.singleton_append]

/-- The line with the policy is not a rule. -/
theorem not_isRuleFor_printPolicy (chain : ChainName) (policy : Bare) (ip : Text) :
    ¬ isRuleFor chain.1.1 ip (lineTokens (printPolicy chain policy)) := by
  have hwords : tokens isBlank (printPolicy chain policy) = ["-P".toList, chain.1.1, policy.1] := by
    refine tokens_words rfl fun t ht => ?_
    simp only [List.mem_cons, List.not_mem_nil, or_false] at ht
    rcases ht with rfl | rfl | rfl
    · exact ⟨by decide, @forall_mem_of_all (isBlank · = false) _ "-P".toList (by decide)⟩
    · exact chain.1.2.blank
    · exact policy.2.blank
  rw [lineTokens, hwords]
  rintro ⟨-, hfirst, -⟩
  exact absurd (Option.some.inj hfirst) (by decide)

/-- Line `i` of the listing belongs to the rule `r` that comes after `before`. -/
def Stands (chain : ChainName) (before : List ListedRule) (r : ListedRule) (i : Nat) : Prop :=
  ∃ j < (tokens isNewline (printRule chain r)).length, i = 1 + (ruleLines chain before).length + j

theorem getElem_listing {chain : ChainName} {policy : Bare} {before after : List ListedRule}
    {r : ListedRule} {j : Nat} (hj : j < (tokens isNewline (printRule chain r)).length) :
    (tokens isNewline (listing chain policy (before ++ r :: after)))[1 +
      (ruleLines chain before).length + j]? = (tokens isNewline (printRule chain r))[j]? := by
  have hindex : 1 + (ruleLines chain before).length + j = (ruleLines chain before).length + j + 1 := by
    omega
  have hlines : ruleLines chain (before ++ r :: after) =
      ruleLines chain before ++ (tokens isNewline (printRule chain r) ++ ruleLines chain after) := by
    rw [ruleLines, List.flatMap_append, List.flatMap_cons]
    rfl
  rw [lines_listing, hindex, List.getElem?_cons_succ, hlines,
    List.getElem?_append_right (Nat.le_add_right _ _), Nat.add_sub_cancel_left,
    List.getElem?_append_left hj]

/-- Every line of the rules stands in one of them. -/
theorem exists_stands {chain : ChainName} {line : Text} : ∀ {rules : List ListedRule} {k : Nat},
    (ruleLines chain rules)[k]? = some line →
    ∃ before r after, rules = before ++ r :: after ∧ Stands chain before r (k + 1)
  | [], _, h => by cases h
  | r :: rules, k, h => by
    have hlines : ruleLines chain (r :: rules) =
      tokens isNewline (printRule chain r) ++ ruleLines chain rules := List.flatMap_cons
    by_cases hk : k < (tokens isNewline (printRule chain r)).length
    · exact ⟨[], r, rules, rfl, k, hk, Nat.add_comm k 1 ▸ rfl⟩
    rw [hlines, List.getElem?_append_right (Nat.not_lt.1 hk)] at h
    obtain ⟨before, r', after, rfl, j, hj, hi⟩ := exists_stands h
    refine ⟨r :: before, r', after, rfl, j, hj, ?_⟩
    have hcons : ruleLines chain (r :: before) =
      tokens isNewline (printRule chain r) ++ ruleLines chain before := List.flatMap_cons
    rw [hcons, List.length_append]
    omega

/-! ## When the clean-up is exact -/

/-- The clean-up of a listing names exactly the rules of the address: every command is for a rule whose
destination it is and carries that rule's whole specification, and after a result of 0 every such
rule has been passed to a successful command. -/
structure Exact (chain : ChainName) (policy : Bare) (ip : Text) (rules : List ListedRule)
    (runs : Nat → Bool) : Prop where
  listed : ∀ d ∈ (deleteDnatRulesForChain chain.1.1 ip (some (listing chain policy rules)) runs).1,
    ∃ before r after, rules = before ++ r :: after ∧ Stands chain before r d.line
  sound : ∀ before r after, rules = before ++ r :: after →
    ∀ d ∈ (deleteDnatRulesForChain chain.1.1 ip (some (listing chain policy rules)) runs).1,
      Stands chain before r d.line → r.GoesTo ip ∧ d.arguments = deletionOf chain r
  complete : (deleteDnatRulesForChain chain.1.1 ip (some (listing chain policy rules)) runs).2 = 0 →
    ∀ before r after, rules = before ++ r :: after → r.GoesTo ip →
    ∃ d ∈ (deleteDnatRulesForChain chain.1.1 ip (some (listing chain policy rules)) runs).1,
      Stands chain before r d.line ∧ d.arguments = deletionOf chain r ∧ d.ok = true

/-- Some line of the printed rule is taken for a rule of the address. -/
def ListedRule.ReadAs (chain : ChainName) (ip : Text) (r : ListedRule) : Prop :=
  ∃ line ∈ tokens isNewline (printRule chain r), isRuleFor chain.1.1 ip (lineTokens line)

theorem namesDestination_iff {start : Text} : ∀ {words : List Text},
    namesDestination start words = true ↔
      ∃ first value rest, words = first ++ "--to-destination".toList :: value :: rest ∧ start <+: value
  | [] => by simp [namesDestination]
  | [word] => by
    simp only [namesDestination, Bool.false_eq_true, false_iff, not_exists, not_and]
    intro first value rest h
    have hlen := congrArg List.length h
    simp only [List.length_append, List.length_cons, List.length_nil] at hlen
    omega
  | option :: value :: rest => by
    have ih := @namesDestination_iff start (value :: rest)
    rw [namesDestination, Bool.or_eq_true, Bool.and_eq_true, decide_eq_true_eq,
      List.isPrefixOf_iff_prefix, ih]
    constructor
    · rintro (⟨rfl, hp⟩ | ⟨first, v, r, hw, hp⟩)
      · exact ⟨[], value, rest, rfl, hp⟩
      · exact ⟨option :: first, v, r, by rw [hw, List.cons_append], hp⟩
    · rintro ⟨first, v, r, hw, hp⟩
      cases first with
      | nil =>
        rw [List.nil_append, List.cons.injEq, List.cons.injEq] at hw
        obtain ⟨ho, rfl, rfl⟩ := hw
        exact Or.inl ⟨ho, hp⟩
      | cons f first =>
        rw [List.cons_append, List.cons.injEq] at hw
        exact Or.inr ⟨first, v, r, hw.2, hp⟩

theorem namesDestination_cons {start word : Text} (h : word ≠ "--to-destination".toList)
    (words : List Text) : namesDestination start (word :: words) = namesDestination start words := by
  cases words with
  | nil => rfl
  | cons value rest => rw [namesDestination, decide_eq_false h, Bool.false_and, Bool.false_or]

theorem namesDestination_texts {ip : Text} {r : ListedRule} (h : r.Plain) :
    namesDestination (ip ++ [':']) (r.map Word.text) = true ↔ r.GoesTo ip := by
  rw [namesDestination_iff]
  constructor
  · rintro ⟨first, value, rest, hw, hp⟩
    obtain ⟨f, tail, rfl, -, htail⟩ := List.map_eq_append_iff.1 hw
    obtain ⟨o, tail, rfl, ho, htail⟩ := List.map_eq_cons_iff.1 htail
    obtain ⟨v, tail, rfl, hv, htail⟩ := List.map_eq_cons_iff.1 htail
    obtain ⟨ob, rfl⟩ := h o (by simp)
    obtain ⟨vb, rfl⟩ := h v (by simp)
    refine ⟨f, ob, vb, tail, rfl, ho, ?_⟩
    rw [← hv] at hp
    exact hp
  · rintro ⟨first, option, value, rest, rfl, ho, hp⟩
    refine ⟨first.map Word.text, value.1, rest.map Word.text, ?_, hp⟩
    rw [List.map_append, List.map_cons, List.map_cons, ← ho]
    rfl

theorem destinationPrefix_eq {ip : Text} (h : (Ipv4.inetPton ip).isSome) :
    destinationPrefix ip = ip ++ [':'] := by
  obtain ⟨x, hx⟩ := Option.isSome_iff_exists.1 h
  have hlen := Ipv4.inetNtop_length x
  rw [Ipv4.inetNtop_inetPton hx] at hlen
  rw [destinationPrefix, List.take_of_length_le]
  rw [List.length_append, List.length_singleton]
  omega

theorem isRuleFor_words {chain : ChainName} {ip : Text} {r : ListedRule}
    (hip : (Ipv4.inetPton ip).isSome) (hwords : ∀ w ∈ r, IsWord w.print) :
    isRuleFor chain.1.1 ip (lineTokens (printRule chain r)) ↔
      namesDestination (ip ++ [':']) ((r.map Word.print).take 30) = true := by
  have hchain : chain.1.1 ≠ "--to-destination".toList := by
    intro h
    exact chain.2 (by rw [h]; rfl)
  rw [lineTokens_printRule hwords, isRuleFor, destinationPrefix_eq hip,
    namesDestination_cons (by decide), namesDestination_cons hchain]
  exact and_iff_left ⟨rfl, rfl⟩

/-- A plain rule of at most 30 words is read as a rule of the address exactly when it is one. -/
theorem isRuleFor_printRule {chain : ChainName} {ip : Text} {r : ListedRule}
    (hip : (Ipv4.inetPton ip).isSome) (hplain : r.Plain) (hlen : r.length ≤ 30) :
    isRuleFor chain.1.1 ip (lineTokens (printRule chain r)) ↔ r.GoesTo ip := by
  rw [isRuleFor_words hip hplain.print.1, hplain.print.2,
    List.take_of_length_le (by rw [List.length_map]; exact hlen), namesDestination_texts hplain]

theorem mem_deleteDnatRules {chain ip output : Text} {runs : Nat → Bool} {d : Deletion} :
    d ∈ (deleteDnatRulesForChain chain ip (some output) runs).1 ↔
      ∃ k line, (tokens isNewline output)[k]? = some line ∧ isRuleFor chain ip (lineTokens line) ∧
        d = ⟨k, deleteArguments chain ++ (lineTokens line).drop 2, runs k⟩ := by
  have hmem := @mem_deleteLines chain ip runs d (tokens isNewline output) 0
  simp only [Nat.zero_add] at hmem
  exact hmem

theorem deleteDnatRules_ok {chain ip output : Text} {runs : Nat → Bool} :
    (deleteDnatRulesForChain chain ip (some output) runs).2 = 0 ↔
      ∀ d ∈ (deleteDnatRulesForChain chain ip (some output) runs).1, d.ok = true := by
  have hok := @deleteLines_ok chain ip runs (tokens isNewline output) 0
  simp only [deleteDnatRulesForChain]
  rw [← hok]
  cases (deleteLines chain ip runs 0 (tokens isNewline output)).2 <;> simp

/-- A deletion that stands in a rule was cut from one of its lines. -/
theorem line_of_deletion {chain : ChainName} {policy : Bare} {ip : Text} {before after : List ListedRule}
    {r : ListedRule} {runs : Nat → Bool} {d : Deletion}
    (hd : d ∈ (deleteDnatRulesForChain chain.1.1 ip (some (listing chain policy (before ++ r :: after))) runs).1)
    (hstands : Stands chain before r d.line) :
    ∃ line ∈ tokens isNewline (printRule chain r), isRuleFor chain.1.1 ip (lineTokens line) ∧
      d.arguments = deleteArguments chain.1.1 ++ (lineTokens line).drop 2 := by
  obtain ⟨j, hj, hline⟩ := hstands
  obtain ⟨k, line, hk, hrule, rfl⟩ := mem_deleteDnatRules.1 hd
  have hindex : k = 1 + (ruleLines chain before).length + j := hline
  rw [hindex, getElem_listing hj] at hk
  exact ⟨line, List.mem_of_getElem? hk, hrule, rfl⟩

/-- A line of a rule that is taken for one of the address is deleted. -/
theorem deletion_of_line {chain : ChainName} {policy : Bare} {ip line : Text} {before after : List ListedRule}
    {r : ListedRule} (hline : line ∈ tokens isNewline (printRule chain r))
    (hrule : isRuleFor chain.1.1 ip (lineTokens line)) (runs : Nat → Bool) :
    ∃ d ∈ (deleteDnatRulesForChain chain.1.1 ip (some (listing chain policy (before ++ r :: after))) runs).1,
      Stands chain before r d.line ∧ d.arguments = deleteArguments chain.1.1 ++ (lineTokens line).drop 2 := by
  obtain ⟨j, hj, hget⟩ := List.mem_iff_getElem.1 hline
  have hk : (tokens isNewline (listing chain policy (before ++ r :: after)))[1 + (ruleLines chain before).length +
      j]? = some line := by
    rw [getElem_listing hj, List.getElem?_eq_getElem hj, hget]
  exact ⟨_, mem_deleteDnatRules.2 ⟨_, line, hk, hrule, rfl⟩, ⟨j, hj, rfl⟩, rfl⟩

/-- A plain rule of at most 30 words that goes to the address or is read as one that does is one line, and
its deletion is whole. -/
theorem deletion_of_short {chain : ChainName} {ip : Text} {r : ListedRule} (hip : (Ipv4.inetPton ip).isSome)
    (hplain : r.Plain) (hlen : r.length ≤ 30) (hr : r.GoesTo ip ∨ r.ReadAs chain ip) :
    tokens isNewline (printRule chain r) = [printRule chain r] ∧ r.GoesTo ip ∧
      isRuleFor chain.1.1 ip (lineTokens (printRule chain r)) ∧
      deleteArguments chain.1.1 ++ (lineTokens (printRule chain r)).drop 2 = deletionOf chain r := by
  obtain ⟨hlines, hargs⟩ := @appendedArguments_printRule chain r hplain
  rw [List.take_of_length_le hlen] at hargs
  have hiff := @isRuleFor_printRule chain ip r hip hplain hlen
  have hgoes : r.GoesTo ip := by
    rcases hr with hr | ⟨line, hline, hrule⟩
    · exact hr
    · rw [hlines, List.mem_singleton] at hline
      exact hiff.1 (hline ▸ hrule)
  exact ⟨hlines, hgoes, hiff.2 hgoes, hargs⟩

/-- **When the clean-up is exact.**  It deletes exactly the rules of the address, however the commands
end, if and only if every rule that goes to the address or is read as one that does is printed
without quotes and has at most 30 words after `-A CHAIN`. -/
theorem exact_iff (chain : ChainName) (policy : Bare) (ip : Text) (rules : List ListedRule)
    (hip : (Ipv4.inetPton ip).isSome) :
    (∀ runs, Exact chain policy ip rules runs) ↔
      ∀ r ∈ rules, r.GoesTo ip ∨ r.ReadAs chain ip → r.Plain ∧ r.length ≤ 30 := by
  constructor
  · intro h r hr hgoes
    obtain ⟨before, after, rfl⟩ := List.append_of_mem hr
    have hE := h fun _ => true
    rcases hgoes with hgoes | ⟨line, hline, hrule⟩
    · have hzero : (deleteDnatRulesForChain chain.1.1 ip (some (listing chain policy (before ++ r :: after)))
          fun _ => true).2 = 0 := by
        rw [deleteDnatRules_ok]
        intro d hd
        obtain ⟨k, line, -, -, rfl⟩ := mem_deleteDnatRules.1 hd
        rfl
      obtain ⟨d, hd, hstands, hargs, -⟩ := hE.complete hzero before r after rfl hgoes
      obtain ⟨line, hline, -, hcut⟩ := line_of_deletion hd hstands
      exact plain_of_deletionOf hline (hcut ▸ hargs)
    · obtain ⟨d, hd, hstands, hcut⟩ := @deletion_of_line chain policy ip line before after r hline hrule
        fun _ => true
      exact plain_of_deletionOf hline (hcut ▸ (hE.sound before r after rfl d hd hstands).2)
  · intro h runs
    refine ⟨fun d hd => ?_, fun before r after hrules d hd hstands => ?_,
      fun hzero before r after hrules hgoes => ?_⟩
    · obtain ⟨k, line, hk, hrule, rfl⟩ := mem_deleteDnatRules.1 hd
      rw [lines_listing] at hk
      cases k with
      | zero =>
        rw [List.getElem?_cons_zero, Option.some.injEq] at hk
        exact absurd (hk ▸ hrule) (not_isRuleFor_printPolicy chain policy ip)
      | succ k => exact exists_stands hk
    · subst hrules
      obtain ⟨line, hline, hrule, hcut⟩ := line_of_deletion hd hstands
      have hread : r.GoesTo ip ∨ r.ReadAs chain ip := Or.inr ⟨line, hline, hrule⟩
      obtain ⟨hplain, hlen⟩ := h r (by simp) hread
      obtain ⟨hlines, hgoes, -, hargs⟩ := deletion_of_short hip hplain hlen hread
      rw [hlines, List.mem_singleton] at hline
      rw [hcut, hline]
      exact ⟨hgoes, hargs⟩
    · subst hrules
      obtain ⟨hplain, hlen⟩ := h r (by simp) (Or.inl hgoes)
      obtain ⟨hlines, -, hrule, hargs⟩ := deletion_of_short hip hplain hlen (Or.inl hgoes)
      have hline : printRule chain r ∈ tokens isNewline (printRule chain r) := by
        rw [hlines]
        exact List.mem_singleton_self _
      obtain ⟨d, hd, hstands, hcut⟩ := @deletion_of_line chain policy ip _ before after r hline hrule runs
      exact ⟨d, hd, hstands, hcut.trans hargs, deleteDnatRules_ok.1 hzero d hd⟩

/-! ## The table of the host -/

def prerouting : ChainName := ⟨⟨"PREROUTING".toList, by decide⟩, by decide⟩

def accept : Bare := ⟨"ACCEPT".toList, by decide⟩

/-- The chains of the host. -/
def chainName : Chain → ChainName
  | .output => ⟨⟨"OUTPUT".toList, by decide⟩, by decide⟩
  | .prerouting => prerouting

theorem chainName_text (chain : Chain) : (chainName chain).1.1 = chain.name := by
  cases chain <;> rfl

/-- The rule as the host keeps it: the words that are printed, and whether all of them are printed bare. -/
def ListedRule.rule (r : ListedRule) : Rule :=
  ⟨r.map Word.print, r.all fun | .bare _ => true | .quoted _ => false⟩

theorem natListing_eq (chain : Chain) (rules : List ListedRule) :
    natListing chain (rules.map ListedRule.rule) = listing (chainName chain) accept rules := by
  have hline : ∀ r : ListedRule, r.rule.line chain = printRule (chainName chain) r := by
    intro r
    rw [Rule.line, printRule, chainName_text]
    rfl
  rw [natListing, listing, printPolicy, chainName_text, List.flatMap_map]
  simp only [hline]
  rfl

theorem namesDestination_eq (ip : Text) : ∀ words : List Text,
    namesDestination (ip ++ [':']) words = matchesDestination ip words
  | [] => rfl
  | [_] => rfl
  | option :: value :: rest => by
    rw [namesDestination, matchesDestination, namesDestination_eq ip (value :: rest)]

/-- On a rule of one line both loops make the same test and delete the same words. -/
theorem listedWords_printRule {chain : ChainName} {ip : Text} {r : ListedRule}
    (hip : (Ipv4.inetPton ip).isSome) (hwords : ∀ w ∈ r, IsWord w.print) :
    (isRuleFor chain.1.1 ip (lineTokens (printRule chain r)) ↔
      matchesDestination ip (listedWords r.rule) = true) ∧
    (lineTokens (printRule chain r)).drop 2 = listedWords r.rule := by
  refine ⟨?_, ?_⟩
  · rw [isRuleFor_words hip hwords, namesDestination_eq]
    rfl
  · rw [lineTokens_printRule hwords]
    rfl

/-- How the commands change the table: one that exits with 0 has deleted the first rule with its words. -/
inductive Deletes (chain : Chain) : List Deletion → Host → Host → Prop
  | done (h : Host) : Deletes chain [] h h
  | deleted {line : Nat} {words : List Text} {later : List Deletion} {h mid h' : Host} :
      deleteRule chain words h = some mid → Deletes chain later mid h' →
      Deletes chain (⟨line, deleteArguments chain.name ++ words, true⟩ :: later) h h'
  | failed {line : Nat} {arguments : List Text} {later : List Deletion} {h h' : Host} :
      Deletes chain later h h' → Deletes chain (⟨line, arguments, false⟩ :: later) h h'

theorem deleteLines_congr {chain ip : Text} {runs runs' : Nat → Bool} : ∀ {lines : List Text} {i : Nat},
    (∀ k, i ≤ k → runs k = runs' k) → deleteLines chain ip runs i lines = deleteLines chain ip runs' i lines
  | [], _, _ => rfl
  | line :: rest, i, h => by
    have ih := @deleteLines_congr chain ip runs runs' rest (i + 1) fun k hk => h k (by omega)
    rw [deleteLines_cons, deleteLines_cons, ih, h i (le_refl i)]

/-- **The loop over the host's rules is the loop over their lines.** -/
theorem deleteLines_refines (env : Env) (chain : Chain) {ip : Text} (hip : (Ipv4.inetPton ip).isSome) :
    ∀ {rules : List ListedRule}, (∀ r ∈ rules, ∀ w ∈ r, IsWord w.print) → ∀ (i : Nat) (h : Host), ∃ runs,
      let t := deleteLines chain.name ip runs (i + 1) (rules.map (printRule (chainName chain)))
      let o := deleteDnatRules env chain ip i (rules.map ListedRule.rule) h
      Deletes chain t.1 h o.1 ∧ t.2 = o.2
  | [], _, _, h => ⟨fun _ => true, .done h, rfl⟩
  | r :: rules, hwords, i, h => by
    have hrest := fun r hr => hwords r (List.mem_cons_of_mem _ hr)
    obtain ⟨hmatch, hargs⟩ := @listedWords_printRule (chainName chain) ip r hip (hwords r List.mem_cons_self)
    rw [chainName_text] at hmatch
    simp only [List.map_cons, deleteLines_cons, deleteDnatRules, hmatch, hargs]
    -- the command of this line ends as the deletion does, those of the later lines as in the rest of the loop
    have hlater : ∀ (runs : Nat → Bool) (b : Bool), deleteLines chain.name ip (Function.update runs (i + 1) b)
        (i + 1 + 1) (rules.map (printRule (chainName chain))) =
          deleteLines chain.name ip runs (i + 1 + 1) (rules.map (printRule (chainName chain))) :=
      fun runs b => deleteLines_congr fun k hk => Function.update_of_ne (by omega) _ _
    split
    · split
      · rename_i mid hcmd
        obtain ⟨runs, hdeletes, hresult⟩ := deleteLines_refines env chain hip hrest (i + 1) mid
        refine ⟨Function.update runs (i + 1) true, ?_⟩
        rw [hlater, Function.update_self, Bool.true_and]
        refine ⟨.deleted ?_ hdeletes, hresult⟩
        split at hcmd
        · cases hcmd
        · exact hcmd
      · obtain ⟨runs, hdeletes, -⟩ := deleteLines_refines env chain hip hrest (i + 1) h
        refine ⟨Function.update runs (i + 1) false, ?_⟩
        rw [hlater, Function.update_self, Bool.false_and]
        exact ⟨.failed hdeletes, rfl⟩
    · exact deleteLines_refines env chain hip hrest (i + 1) h

/-- The arguments of the listing. -/
def listArguments (chain : Text) : List Text := [ "iptables".toList, "-t".toList, "nat".toList, "-S".toList, chain]

/-- What `td_capture_command` leaves in `output` when it returns 0. -/
def capturedOutput (c : Captured) : Option Text := if c.result = 0 then c.output else none

/-- **The clean-up of the host is the clean-up of the captured listing**, for a table whose rules are one line
each: whatever the sizes of the reads are, the commands that are run on what the capture returns change the table
as the host's loop does, with the same result. -/
theorem deleteDnatRulesForChain_captured (env : Env) (chain : Chain) {ip : Text} {h : Host} {rules : List ListedRule}
    {a : CaptureAnswers} {c : Captured} (hip : (Ipv4.inetPton ip).isSome)
    (hnat : h.nat chain = rules.map ListedRule.rule) (hwords : ∀ r ∈ rules, ∀ w ∈ r, IsWord w.print)
    (hstart : a.pipe = true ∧ a.fork = true ∧ a.malloc = true) (hworks : ∀ t ∈ a.turns, t.Works)
    (hend : env.fails (.natList chain) = true ↔ waitForChild a.child ≠ 0)
    (hc : tdCaptureCommand (listArguments chain.name) a (natListing chain (h.nat chain)) = some c) :
    ∃ runs,
      let t := deleteDnatRulesForChain chain.name ip (capturedOutput c) runs
      let o := TinyDocker.deleteDnatRulesForChain env chain ip h
      Deletes chain t.1 h o.1 ∧ (t.2 = 0 ↔ o.2 = true) := by
  have hcaptured := tdCaptureCommand_result (by simp [listArguments]) hstart hworks hc
  by_cases hfails : listingFails env chain (h.nat chain)
  · have hhost : TinyDocker.deleteDnatRulesForChain env chain ip h = (h, false) := if_pos hfails
    have hnone : capturedOutput c = none := by
      rw [hcaptured]
      rcases hfails with hfails | hlong
      · split
        · exact if_neg (hend.1 hfails)
        · rfl
      · rw [if_neg (by omega)]
        rfl
    rw [hnone, hhost]
    exact ⟨fun _ => true, .done h, by simp [deleteDnatRulesForChain]⟩
  · have hhost : TinyDocker.deleteDnatRulesForChain env chain ip h =
        deleteDnatRules env chain ip 0 (rules.map ListedRule.rule) h := by
      rw [← hnat]
      exact if_neg hfails
    have hsome : capturedOutput c = some (listing (chainName chain) accept rules) := by
      rw [listingFails, not_or] at hfails
      rw [hcaptured, if_pos (by omega), ← natListing_eq, ← hnat]
      exact if_pos (not_not.1 fun hne => hfails.1 (hend.2 hne))
    obtain ⟨runs, hdeletes, hresult⟩ := deleteLines_refines env chain hip hwords 0 h
    have hpolicy := not_isRuleFor_printPolicy (chainName chain) accept ip
    rw [chainName_text] at hpolicy
    refine ⟨runs, ?_⟩
    rw [hsome, hhost]
    simp only [deleteDnatRulesForChain, lines_listing, deleteLines_cons, if_neg hpolicy, ruleLines_lines hwords,
      Nat.zero_add] at hdeletes hresult ⊢
    refine ⟨hdeletes, ?_⟩
    rw [hresult]
    cases (deleteDnatRules env chain ip 0 (rules.map ListedRule.rule) h).2 <;> simp

/-! ## A rule of 31 words -/

/-- The rule with these words, all printed bare. -/
def bareRule (words : List String) : ListedRule :=
  (words.filterMap fun t => if h : IsWord t.toList then some (⟨t.toList, h⟩ : Bare) else none).map
    Word.bare

theorem bareRule_plain (words : List String) : (bareRule words).Plain := by
  intro w hw
  obtain ⟨t, -, rfl⟩ := List.mem_map.1 hw
  exact ⟨t, rfl⟩

/-- Six tests of the packet mark; `--random` is the word behind the thirtieth. -/
def longRule : ListedRule := bareRule <|
  ["-p", "tcp"] ++ (["1", "2", "3", "4", "5", "6"].flatMap fun mark => ["-m", "mark", "--mark", mark]) ++
  ["-j", "DNAT", "--to-destination", "10.0.0.2:80", "--random"]

theorem exact_iff_longRule :
    (∀ runs, Exact prerouting accept "10.0.0.2".toList [longRule] runs) ↔
      ∀ r ∈ [longRule], r.GoesTo "10.0.0.2".toList ∨ r.ReadAs prerouting "10.0.0.2".toList →
        r.Plain ∧ r.length ≤ 30 :=
  exact_iff prerouting accept "10.0.0.2".toList [longRule] (by decide +kernel)

/-- The rule goes to the address; the function returns 0 and has deleted its first 30 words instead. -/
theorem deleteDnatRules_longRule :
    (Ipv4.inetPton "10.0.0.2".toList).isSome = true ∧ longRule.GoesTo "10.0.0.2".toList ∧
    deleteDnatRulesForChain "PREROUTING".toList "10.0.0.2".toList
        (some (listing prerouting accept [longRule])) (fun _ => true) =
      ([⟨1, deletionOf prerouting (longRule.take 30), true⟩], 0) ∧
    deletionOf prerouting (longRule.take 30) ≠ deletionOf prerouting longRule ∧
    ¬ Exact prerouting accept "10.0.0.2".toList [longRule] fun _ => true := by
  have hgoes : longRule.GoesTo "10.0.0.2".toList :=
    (namesDestination_texts (bareRule_plain _)).1 (by decide +kernel)
  have hrun : deleteDnatRulesForChain "PREROUTING".toList "10.0.0.2".toList
        (some (listing prerouting accept [longRule])) (fun _ => true) =
      ([⟨1, deletionOf prerouting (longRule.take 30), true⟩], 0) := by
    decide +kernel
  have hcut : deletionOf prerouting (longRule.take 30) ≠ deletionOf prerouting longRule := by
    decide +kernel
  refine ⟨by decide +kernel, hgoes, hrun, hcut, fun h => ?_⟩
  obtain ⟨d, hd, -, hargs, -⟩ := h.complete (congrArg Prod.snd hrun) [] longRule [] rfl hgoes
  rw [show (deleteDnatRulesForChain prerouting.1.1 _ _ _).1 = _ from congrArg Prod.fst hrun] at hd
  rw [List.mem_singleton.1 hd] at hargs
  exact hcut hargs

end TinyDocker.Iptables
