import Mathlib.Data.List.Basic
import TinyDocker.Core.Fs
import TinyDocker.Lib.Canonical

/-!
# Making a path (`make_path` in `util/utils.c`)

`make_path` goes through the text of a path and makes the directory of every prefix that `access` does not
find.  Links on the way are followed.

Principal result: `make_path` — only directories are added, each where a prefix of the path leads; success means
that the path exists; what a path that exists and one without links cost.
-/

set_option autoImplicit false

namespace TinyDocker

open CText MountSpace

section Model

variable (cwd : Path)

/-- Where the resolution of a path starts. -/
def startOf (path : Text) : Path := if path.head? = some '/' then [] else cwd

/-- `path_exist`: `access(path, F_OK)`. -/
def pathExist (sp : Space) (path : Text) : Bool :=
  match sp.resolve (startOf cwd path) (components path) with
  | .error _ => false
  | .ok p => decide (path ≠ [] ∧ ¬ (path.getLast? = some '/' ∧ sp.look p = some .file))

/-- `mkdir(path, S_IRWXU)`; the last component is not followed. -/
def mkdirPath (fails : Bool) (sp : Space) (path : Text) : Option Space :=
  match sp.resolve (startOf cwd path) (components path).dropLast, (components path).getLast? with
  | .ok dir, some c =>
    if sp.look dir = some .file ∨ c = ['.'] ∨ c = ['.', '.'] ∨ sp.look (dir ++ [c]) ≠ none ∨ fails then none
    else some (sp.mkdir (dir ++ [c]))
  -- the empty path, `/`, or no way to the directory
  | _, _ => none

/-- The directory of one prefix. -/
def makeDir (fails : Bool) (sp : Space) (path : Text) : Space × Bool :=
  if pathExist cwd sp path then (sp, true)
  else match mkdirPath cwd fails sp path with
    | none => (sp, false)
    | some sp' => (sp', true)

/-- The loop over `p`: the text before it and from it on. -/
def makePrefixes (fails : Nat → Bool) : Nat → Space → Text → Text → Space × Bool
  | k, sp, done, [] => makeDir cwd (fails k) sp done
  | k, sp, done, c :: rest =>
    if c = '/' then
      match makeDir cwd (fails k) sp done with
      | (sp, false) => (sp, false)
      | (sp, true) => makePrefixes fails (k + 1) sp (done ++ [c]) rest
    else makePrefixes fails k sp (done ++ [c]) rest

/-- `tmp` without the slash at its end. -/
def withoutSlash (dir : Text) : Text := if dir.getLast? = some '/' then dir.dropLast else dir

def makePath (fails : Nat → Bool) (sp : Space) (dir : Text) : Space × Int :=
  if dir = [] ∨ 256 ≤ dir.length then (sp, -1)
  else
    let r := makePrefixes cwd fails 0 sp ((withoutSlash dir).take 1) ((withoutSlash dir).drop 1)
    (r.1, if r.2 then 0 else -1)

end Model

/-! ## One prefix -/

section

variable {cwd : Path} {sp sp' : Space} {path : Text}

/-- Where the directory of a prefix has been made. -/
def MadeAt (cwd : Path) (sp sp' : Space) (path : Text) (p : Path) : Prop :=
  sp.look p = none ∧ sp' = sp.mkdir p ∧ sp'.resolve (startOf cwd path) (components path) = .ok p

theorem mkdirPath_some {fails : Bool} (h : mkdirPath cwd fails sp path = some sp') :
    ∃ p, MadeAt cwd sp sp' path p := by
  unfold mkdirPath at h
  split at h
  · rename_i dir c hdir hlast
    split at h
    · cases h
    rename_i hgoes
    simp only [not_or, not_not] at hgoes
    obtain ⟨hfile, hdot, hdots, hnone, -⟩ := hgoes
    cases h
    refine ⟨dir ++ [c], hnone, rfl, ?_⟩
    have hgrows := mkdir_grows hnone
    have hparts : components path = (components path).dropLast ++ [c] :=
      (List.dropLast_append_getLast? c hlast).symm
    have hstep : walk (sp.mkdir (dir ++ [c])) 0 dir [c] = .ok (dir ++ [c]) := by
      simp only [walk, walkFrom]
      rw [if_neg hdot, if_neg hdots, look_mkdir hnone]
    have hdir' : (sp.mkdir (dir ++ [c])).look dir ≠ some .file := by
      intro hf
      cases hl : sp.look dir with
      | none =>
        rcases hgrows.look_none hl with h' | h' <;> rw [h'] at hf <;> cases hf
      | some o =>
        rw [hgrows.look_some hl] at hf
        cases hf
        exact hfile hl
    rw [hparts]
    exact walk_append hstep hdir' (hgrows.walk hdir)
  · cases h

theorem pathExist_iff : pathExist cwd sp path = true ↔ path ≠ [] ∧
    ∃ p, sp.resolve (startOf cwd path) (components path) = .ok p ∧
      ¬ (path.getLast? = some '/' ∧ sp.look p = some .file) := by
  unfold pathExist
  split
  · rename_i e he
    rw [he]
    exact ⟨fun h => (by cases h), fun ⟨_, p, hp, _⟩ => (by cases hp)⟩
  · rename_i p hp
    rw [hp, decide_eq_true_iff]
    refine ⟨fun ⟨hne, hlast⟩ => ⟨hne, p, rfl, hlast⟩, fun ⟨hne, p', hp', hlast⟩ => ⟨hne, ?_⟩⟩
    cases hp'
    exact hlast

theorem pathExist_made {p : Path} (hne : path ≠ []) (h : MadeAt cwd sp sp' path p) :
    pathExist cwd sp' path = true := by
  obtain ⟨hnone, rfl, hresolve⟩ := h
  refine pathExist_iff.2 ⟨hne, p, hresolve, fun ⟨_, hfile⟩ => ?_⟩
  rw [look_mkdir hnone] at hfile
  cases hfile

/-- What is done for one prefix: nothing, or the directory is made; the prefix exists after success. -/
theorem makeDir_cases (fails : Bool) :
    (makeDir cwd fails sp path).1 = sp ∧
        ((makeDir cwd fails sp path).2 = true → pathExist cwd sp path = true) ∨
      ∃ p, path ≠ [] ∧ MadeAt cwd sp (makeDir cwd fails sp path).1 path p := by
  unfold makeDir
  split
  · rename_i hthere
    exact Or.inl ⟨rfl, fun _ => hthere⟩
  split
  · exact Or.inl ⟨rfl, fun h => (by cases h)⟩
  · rename_i made hmade
    obtain ⟨p, hp⟩ := mkdirPath_some hmade
    refine Or.inr ⟨p, ?_, hp⟩
    rintro rfl
    cases hmade

end

/-! ## The whole path -/

/-- A change that the prefixes of a text account for. -/
structure Makes (cwd : Path) (sp sp' : Space) (dir : Text) : Prop where
  grows : Grows sp sp'
  places : ∀ fs q, sp'.obj fs q ≠ sp.obj fs q → ∃ path p, path <+: dir ∧
    sp'.resolve (startOf cwd path) (components path) = .ok p ∧ (fs, q) = sp'.loc p

section

variable {cwd : Path} {sp sp₁ sp₂ : Space} {path dir : Text}

theorem Makes.refl (cwd : Path) (sp : Space) (dir : Text) : Makes cwd sp sp dir :=
  ⟨Grows.refl sp, fun _ _ h => absurd rfl h⟩

theorem Makes.trans (h : Makes cwd sp sp₁ dir) (h' : Makes cwd sp₁ sp₂ dir) : Makes cwd sp sp₂ dir := by
  refine ⟨h.grows.trans h'.grows, fun fs q hq => ?_⟩
  by_cases hsame : sp₂.obj fs q = sp₁.obj fs q
  · obtain ⟨path, p, hpre, hp, hloc⟩ := h.places fs q (hsame ▸ hq)
    exact ⟨path, p, hpre, h'.grows.walk hp, hloc.trans (h'.grows.loc p).symm⟩
  · exact h'.places fs q hsame

theorem makeDir_makes (fails : Bool) (hpre : path <+: dir) :
    Makes cwd sp (makeDir cwd fails sp path).1 dir ∧
      ((makeDir cwd fails sp path).2 = true → pathExist cwd (makeDir cwd fails sp path).1 path = true) := by
  rcases @makeDir_cases cwd sp path fails with ⟨hsame, hok⟩ | ⟨p, hne, hmade⟩
  · rw [hsame]
    exact ⟨Makes.refl cwd sp dir, hok⟩
  · refine ⟨⟨hmade.2.1 ▸ mkdir_grows hmade.1, fun fs q hq => ⟨path, p, hpre, hmade.2.2, ?_⟩⟩,
      fun _ => pathExist_made hne hmade⟩
    by_contra hother
    rw [hmade.2.1] at hq hother
    exact hq (if_neg hother)

/-- The loop, from a prefix on. -/
theorem makePrefixes_makes (fails : Nat → Bool) : ∀ {rest done : Text} {k : Nat} {sp : Space},
    done ++ rest <+: dir →
    Makes cwd sp (makePrefixes cwd fails k sp done rest).1 dir ∧
      ((makePrefixes cwd fails k sp done rest).2 = true →
        pathExist cwd (makePrefixes cwd fails k sp done rest).1 (done ++ rest) = true)
  | [], done, k, sp, hpre => by
    rw [List.append_nil] at hpre ⊢
    exact makeDir_makes (fails k) hpre
  | c :: rest, done, k, sp, hpre => by
    have hdone : done <+: dir := (List.prefix_append done (c :: rest)).trans hpre
    have hnext : done ++ [c] ++ rest <+: dir := by
      rwa [List.append_assoc, List.singleton_append]
    have htext : done ++ c :: rest = done ++ [c] ++ rest := by
      rw [List.append_assoc, List.singleton_append]
    rw [htext]
    unfold makePrefixes
    split
    · have hfirst := @makeDir_makes cwd sp done dir (fails k) hdone
      split
      · rename_i sp' hstop
        rw [hstop] at hfirst
        exact ⟨hfirst.1, fun h => (by cases h)⟩
      · rename_i sp' hgoes
        rw [hgoes] at hfirst
        obtain ⟨hrest, hok⟩ := @makePrefixes_makes fails rest (done ++ [c]) (k + 1) sp' hnext
        exact ⟨hfirst.1.trans hrest, hok⟩
    · exact makePrefixes_makes fails hnext

end

/-! ## Paths that exist -/

section

variable {cwd : Path} {sp : Space}

theorem pathExist_start (hroot : sp.look [] ≠ some .file) (hcwd : Canonical sp cwd) {path more : Text}
    (hne : path ≠ []) (h : pathExist cwd sp (path ++ '/' :: more) = true) : pathExist cwd sp path = true := by
  obtain ⟨-, r, hr, hlast⟩ := pathExist_iff.1 h
  have hstart : startOf cwd (path ++ '/' :: more) = startOf cwd path := by
    unfold startOf
    rw [List.head?_append_of_ne_nil _ hne]
  have hcanonical : Canonical sp (startOf cwd path) := by
    unfold startOf
    split
    · exact Canonical.nil sp
    · exact hcwd
  rw [hstart, components_append_slash] at hr
  obtain ⟨r', hr', hmore⟩ := walk_prefix hroot hcanonical (fun c hc => word_of_mem_tokens hc) hr
  refine pathExist_iff.2 ⟨hne, r', hr', fun ⟨_, hfile⟩ => ?_⟩
  by_cases hnil : components more = []
  · -- only slashes follow
    rw [hnil, List.append_nil] at hr
    cases hr'.symm.trans hr
    refine hlast ⟨?_, hfile⟩
    have hslashes : ∀ c ∈ '/' :: more, c = '/' := by
      intro c hc
      rcases List.mem_cons.1 hc with rfl | hc
      · rfl
      · simpa using tokens_eq_nil.1 hnil c hc
    rw [List.getLast?_append_of_ne_nil _ (List.cons_ne_nil _ _)]
    cases hl : ('/' :: more).getLast? with
    | none => simp at hl
    | some c => rw [hslashes c (List.mem_of_getLast? hl)]
  · exact hmore hnil hfile

theorem makeDir_there {fails : Bool} {path : Text} (h : pathExist cwd sp path = true) :
    makeDir cwd fails sp path = (sp, true) := by
  unfold makeDir
  rw [if_pos h]

theorem makePrefixes_there (hroot : sp.look [] ≠ some .file) (hcwd : Canonical sp cwd) (fails : Nat → Bool) :
    ∀ {rest done : Text} {k : Nat}, done ≠ [] → pathExist cwd sp (done ++ rest) = true →
      makePrefixes cwd fails k sp done rest = (sp, true)
  | [], done, k, _, h => by
    rw [List.append_nil] at h
    exact makeDir_there h
  | c :: rest, done, k, hne, h => by
    have hnext : pathExist cwd sp (done ++ [c] ++ rest) = true := by
      rwa [List.append_assoc, List.singleton_append]
    have hne' : done ++ [c] ≠ [] := List.append_ne_nil_of_left_ne_nil hne _
    unfold makePrefixes
    split
    · rename_i hslash
      subst hslash
      rw [makeDir_there (pathExist_start hroot hcwd hne h)]
      exact makePrefixes_there hroot hcwd fails hne' hnext
    · exact makePrefixes_there hroot hcwd fails hne' hnext

end

/-! ## What the call does -/

theorem withoutSlash_prefix (dir : Text) : withoutSlash dir <+: dir := by
  unfold withoutSlash
  split
  · exact List.dropLast_prefix dir
  · exact List.prefix_refl dir

theorem makePath_makes (cwd : Path) (fails : Nat → Bool) (sp : Space) (dir : Text) :
    Makes cwd sp (makePath cwd fails sp dir).1 dir ∧ ((makePath cwd fails sp dir).2 = 0 →
      dir.length < 256 ∧ pathExist cwd (makePath cwd fails sp dir).1 (withoutSlash dir) = true) := by
  have hsplit : (withoutSlash dir).take 1 ++ (withoutSlash dir).drop 1 = withoutSlash dir :=
    List.take_append_drop 1 _
  obtain ⟨hmakes, hok⟩ := @makePrefixes_makes cwd dir fails ((withoutSlash dir).drop 1)
    ((withoutSlash dir).take 1) 0 sp (hsplit.symm ▸ withoutSlash_prefix dir)
  unfold makePath
  split
  · exact ⟨Makes.refl cwd sp dir, fun h => (by cases h)⟩
  · rename_i hgood
    simp only [not_or, not_le] at hgood
    refine ⟨hmakes, fun h => ⟨hgood.2, ?_⟩⟩
    rw [hsplit] at hok
    simp only at h
    split at h
    · rename_i hall
      exact hok hall
    · cases h

theorem makePath_there {cwd : Path} {sp : Space} {dir : Text} (fails : Nat → Bool)
    (hroot : sp.look [] ≠ some .file) (hcwd : Canonical sp cwd) (hlen : dir.length < 256)
    (hthere : pathExist cwd sp (withoutSlash dir) = true) : makePath cwd fails sp dir = (sp, 0) := by
  have hsplit : (withoutSlash dir).take 1 ++ (withoutSlash dir).drop 1 = withoutSlash dir :=
    List.take_append_drop 1 _
  have hne : withoutSlash dir ≠ [] := (pathExist_iff.1 hthere).1
  have hdir : ¬ (dir = [] ∨ 256 ≤ dir.length) := by
    rw [not_or, not_le]
    refine ⟨?_, hlen⟩
    rintro rfl
    exact hne rfl
  have hfirst : (withoutSlash dir).take 1 ≠ [] := by
    intro hnil
    rcases List.take_eq_nil_iff.1 hnil with h | h
    · cases h
    · exact hne h
  unfold makePath
  rw [if_neg hdir, makePrefixes_there hroot hcwd fails hfirst (hsplit.symm ▸ hthere)]
  rfl

/-! ## Paths without links -/

/-- Every component of the chain is missing or a directory. -/
def OpenChain (sp : Space) : Path → Path → Prop
  | _, [] => True
  | cur, c :: rest => (sp.look (cur ++ [c]) = none ∨ sp.look (cur ++ [c]) = some .dir) ∧
    OpenChain sp (cur ++ [c]) rest

theorem OpenChain.grows {sp sp' : Space} (hg : Grows sp sp') : ∀ {rest cur : Path},
    OpenChain sp cur rest → OpenChain sp' cur rest
  | [], _, _ => trivial
  | c :: rest, cur, h => by
    refine ⟨?_, h.2.grows hg⟩
    rcases h.1 with hnone | hdir
    · exact hg.look_none hnone
    · exact Or.inr (hg.look_some hdir)

theorem OpenChain.front {sp : Space} : ∀ {p more cur : Path}, OpenChain sp cur (p ++ more) → OpenChain sp cur p
  | [], _, _, _ => trivial
  | _ :: _, _, _, h => ⟨h.1, h.2.front⟩

/-- On such a chain a path exists only if all of it is there. -/
theorem OpenChain.realDirs {sp : Space} {follow : Path → Path → Except Errno Path} :
    ∀ {rest cur r : Path}, PlainNames rest → OpenChain sp cur rest → walkFrom sp follow cur rest = .ok r →
      RealDirs sp cur rest
  | [], _, _, _, _, _ => trivial
  | c :: rest, cur, r, hplain, hopen, h => by
    have hc := hplain c List.mem_cons_self
    unfold walkFrom at h
    rw [if_neg hc.1, if_neg hc.2] at h
    rcases hopen.1 with hnone | hdir
    · rw [hnone] at h
      cases h
    · rw [hdir] at h
      exact ⟨hdir, hopen.2.realDirs (fun x hx => hplain x (List.mem_cons_of_mem _ hx)) h⟩

section

variable {cwd : Path} {sp : Space}

theorem pathText_next (cur : Path) (c d : Text) :
    pathText (cur ++ [c]) ++ ['/'] ++ d = pathText (cur ++ [c] ++ [d]) := by
  have hne : cur ++ [c] ≠ [] := List.append_ne_nil_of_right_ne_nil _ (List.cons_ne_nil c [])
  rw [pathText, pathText, if_neg hne, if_neg (List.append_ne_nil_of_left_ne_nil hne [d]),
    @List.flatMap_append _ _ (cur ++ [c]), List.flatMap_singleton, List.append_assoc, List.singleton_append]

theorem makePrefixes_word (fails : Nat → Bool) {rest : Text} {k : Nat} : ∀ {word done : Text}, '/' ∉ word →
    makePrefixes cwd fails k sp done (word ++ rest) = makePrefixes cwd fails k sp (done ++ word) rest
  | [], done, _ => by rw [List.nil_append, List.append_nil]
  | c :: word, done, h => by
    rw [List.mem_cons, not_or] at h
    have ih := @makePrefixes_word fails rest k word (done ++ [c]) h.2
    rw [List.append_assoc, List.singleton_append] at ih
    rw [List.cons_append, ← ih]
    exact if_neg (Ne.symm h.1)

/-- One more directory of a chain. -/
theorem makeDir_chain {cur : Path} {c : Text} (hwords : ∀ x ∈ cur ++ [c], Word x)
    (hplain : PlainNames (cur ++ [c])) (hreal : RealDirs sp [] cur) (hroot : sp.look [] ≠ some .file)
    (hopen : sp.look (cur ++ [c]) = none ∨ sp.look (cur ++ [c]) = some .dir) :
    ∃ sp', makeDir cwd false sp (pathText (cur ++ [c])) = (sp', true) ∧ Grows sp sp' ∧
      RealDirs sp' [] (cur ++ [c]) := by
  have hne : cur ++ [c] ≠ [] := List.append_ne_nil_of_right_ne_nil _ (List.cons_ne_nil c [])
  have hparts : components (pathText (cur ++ [c])) = cur ++ [c] := tokens_pathText hwords
  have hstart : startOf cwd (pathText (cur ++ [c])) = [] := if_pos (pathText_head _)
  have htext : pathText (cur ++ [c]) ≠ [] := by
    intro hnil
    have hhead := pathText_head (cur ++ [c])
    rw [hnil] at hhead
    cases hhead
  rcases hopen with hnone | hdir
  · have hcur : sp.look cur ≠ some .file := by
      have hcanonical : Canonical sp cur := ⟨fun x hx => hwords x (List.mem_append_left _ hx),
        fun x hx => hplain x (List.mem_append_left _ hx), hreal⟩
      exact hcanonical.not_file hroot
    have hparent : sp.resolve [] cur = .ok cur :=
      walk_realDirs (fun x hx => hplain x (List.mem_append_left _ hx)) hreal
    have hmissing : pathExist cwd sp (pathText (cur ++ [c])) = false := by
      refine Bool.eq_false_iff.2 fun hthere => ?_
      obtain ⟨-, r, hr, -⟩ := pathExist_iff.1 hthere
      rw [hstart, hparts] at hr
      have hopen : OpenChain sp [] (cur ++ [c]) → RealDirs sp [] (cur ++ [c]) :=
        fun h => h.realDirs hplain hr
      have hchain : ∀ {rest cur' : Path}, RealDirs sp cur' rest → OpenChain sp (cur' ++ rest) [c] →
          OpenChain sp cur' (rest ++ [c]) := by
        intro rest
        induction rest with
        | nil => exact fun {cur'} _ h => by rwa [List.append_nil] at h
        | cons x rest ih =>
          intro cur' hr h
          refine ⟨Or.inr hr.1, ih hr.2 ?_⟩
          rwa [List.append_assoc, List.singleton_append]
      have hlast := (realDirs_append.1 (hopen (hchain hreal ⟨Or.inl hnone, trivial⟩))).2.1
      rw [List.nil_append, hnone] at hlast
      cases hlast
    have hmkdir : mkdirPath cwd false sp (pathText (cur ++ [c])) = some (sp.mkdir (cur ++ [c])) := by
      unfold mkdirPath
      rw [hstart, hparts, List.dropLast_concat, List.getLast?_concat, hparent]
      simp only
      rw [if_neg]
      have hc := hplain c (List.mem_append_right _ (List.mem_singleton_self c))
      simp only [not_or, not_not]
      exact ⟨hcur, hc.1, hc.2, hnone, Bool.false_ne_true⟩
    have hgrows := mkdir_grows hnone
    refine ⟨sp.mkdir (cur ++ [c]), ?_, hgrows, realDirs_append.2 ⟨hgrows.realDirs hreal, ?_, trivial⟩⟩
    · unfold makeDir
      rw [hmissing, hmkdir]
      rfl
    · exact look_mkdir hnone
  · have hall : RealDirs sp [] (cur ++ [c]) := realDirs_append.2 ⟨hreal, hdir, trivial⟩
    refine ⟨sp, makeDir_there (pathExist_iff.2 ⟨htext, cur ++ [c], ?_, fun ⟨hslash, _⟩ => ?_⟩), Grows.refl sp, hall⟩
    · rw [hstart, hparts]
      exact walk_realDirs hplain hall
    · exact pathText_getLast hwords hne hslash

/-- The loop along a chain. -/
theorem makePrefixes_chain : ∀ {rest cur : Path} {c : Text} {k : Nat} {sp : Space},
    (∀ x ∈ cur ++ c :: rest, Word x) → PlainNames (cur ++ c :: rest) → RealDirs sp [] cur →
    sp.look [] ≠ some .file → OpenChain sp cur (c :: rest) →
    (makePrefixes cwd (fun _ => false) k sp (pathText (cur ++ [c])) (rest.flatMap ('/' :: ·))).2 = true
  | [], cur, c, k, sp, hwords, hplain, hreal, hroot, hopen => by
    obtain ⟨sp', hmake, -, -⟩ := @makeDir_chain cwd sp cur c hwords hplain hreal hroot hopen.1
    show (makeDir cwd false sp (pathText (cur ++ [c]))).2 = true
    rw [hmake]
  | d :: rest, cur, c, k, sp, hwords, hplain, hreal, hroot, hopen => by
    have hsplit : cur ++ c :: d :: rest = cur ++ [c] ++ d :: rest := by
      rw [List.append_assoc, List.singleton_append]
    rw [hsplit] at hwords hplain
    obtain ⟨sp', hmake, hgrows, hreal'⟩ := @makeDir_chain cwd sp cur c
      (fun x hx => hwords x (List.mem_append_left _ hx)) (fun x hx => hplain x (List.mem_append_left _ hx))
      hreal hroot hopen.1
    have hroot' : sp'.look [] ≠ some .file := by
      intro hfile
      cases hl : sp.look [] with
      | none =>
        rcases hgrows.look_none hl with h' | h' <;> rw [h'] at hfile <;> cases hfile
      | some o =>
        rw [hgrows.look_some hl] at hfile
        exact hroot (hl.trans hfile)
    have hword : '/' ∉ d := (hwords d (List.mem_append_right _ List.mem_cons_self)).2
    rw [List.flatMap_cons, List.cons_append]
    unfold makePrefixes
    rw [if_pos rfl, hmake]
    simp only
    rw [makePrefixes_word _ hword, pathText_next]
    exact makePrefixes_chain hwords hplain hreal' hroot' (hopen.2.grows hgrows)

end

/-! ### Where directories are made -/

section

variable {cwd : Path} {sp : Space} {fs : Nat} {q : Path}

/-- On a chain without links a prefix leads to itself. -/
theorem makeDir_places {p : Path} (fails : Bool) (hwords : ∀ x ∈ p, Word x) (hplain : PlainNames p)
    (hopen : OpenChain sp [] p)
    (hq : (makeDir cwd fails sp (pathText p)).1.obj fs q ≠ sp.obj fs q) : (fs, q) = sp.loc p := by
  rcases @makeDir_cases cwd sp (pathText p) fails with ⟨hsame, -⟩ | ⟨r, -, hnone, hmade, hresolve⟩
  · rw [hsame] at hq
    exact absurd rfl hq
  · have hparts : components (pathText p) = p := tokens_pathText hwords
    have hstart : startOf cwd (pathText p) = [] := if_pos (pathText_head _)
    rw [hparts, hstart] at hresolve
    have hreal := (hopen.grows (hmade ▸ mkdir_grows hnone)).realDirs hplain hresolve
    obtain rfl : r = p := Except.ok.inj (hresolve.symm.trans (walk_realDirs hplain hreal))
    rw [hmade] at hq
    by_contra hother
    exact hq (if_neg hother)

theorem makePrefixes_places {fails : Nat → Bool} : ∀ {rest cur : Path} {c : Text} {k : Nat} {sp : Space},
    (∀ x ∈ cur ++ c :: rest, Word x) → PlainNames (cur ++ c :: rest) → OpenChain sp [] (cur ++ c :: rest) →
    (makePrefixes cwd fails k sp (pathText (cur ++ [c])) (rest.flatMap ('/' :: ·))).1.obj fs q ≠ sp.obj fs q →
    ∃ front, front <+: cur ++ c :: rest ∧ (fs, q) = sp.loc front
  | [], cur, c, k, sp, hwords, hplain, hopen, hq =>
    ⟨_, List.prefix_refl _, makeDir_places (fails k) hwords hplain hopen hq⟩
  | d :: rest, cur, c, k, sp, hwords, hplain, hopen, hq => by
    have hsplit : cur ++ c :: d :: rest = cur ++ [c] ++ d :: rest := by
      rw [List.append_assoc, List.singleton_append]
    rw [hsplit] at hwords hplain hopen ⊢
    have hfirst : ∀ {sp' : Space} {b : Bool}, makeDir cwd (fails k) sp (pathText (cur ++ [c])) = (sp', b) →
        sp'.obj fs q ≠ sp.obj fs q → (fs, q) = sp.loc (cur ++ [c]) := by
      intro sp' b hmake hq
      refine @makeDir_places cwd sp fs q _ (fails k) (fun x hx => hwords x (List.mem_append_left _ hx))
        (fun x hx => hplain x (List.mem_append_left _ hx)) hopen.front ?_
      rw [hmake]
      exact hq
    have hgrows := (@makeDir_makes cwd sp (pathText (cur ++ [c])) _ (fails k) (List.prefix_refl _)).1.grows
    rw [List.flatMap_cons, List.cons_append] at hq
    unfold makePrefixes at hq
    rw [if_pos rfl] at hq
    split at hq
    · rename_i sp' hmake
      exact ⟨_, List.prefix_append _ _, hfirst hmake hq⟩
    · rename_i sp' hmake
      rw [hmake] at hgrows
      have hword : '/' ∉ d := (hwords d (List.mem_append_right _ List.mem_cons_self)).2
      rw [makePrefixes_word _ hword, pathText_next] at hq
      by_cases hlater : sp'.obj fs q = sp.obj fs q
      · rw [← hlater] at hq
        obtain ⟨front, hpre, hloc⟩ := makePrefixes_places hwords hplain (hopen.grows hgrows) hq
        exact ⟨front, hpre, hloc.trans (hgrows.loc front)⟩
      · exact ⟨_, List.prefix_append _ _, hfirst hmake hlater⟩

/-- The call on the text of a path is the loop along its components. -/
theorem makePath_pathText {fails : Nat → Bool} {c : Text} {rest : Path} (hwords : ∀ x ∈ c :: rest, Word x)
    (hlen : (pathText (c :: rest)).length < 256) : makePath cwd fails sp (pathText (c :: rest)) =
      ((makePrefixes cwd fails 0 sp (pathText ([] ++ [c])) (rest.flatMap ('/' :: ·))).1,
        if (makePrefixes cwd fails 0 sp (pathText ([] ++ [c])) (rest.flatMap ('/' :: ·))).2 then 0 else -1) := by
  have hne : c :: rest ≠ [] := List.cons_ne_nil c rest
  have hslash : withoutSlash (pathText (c :: rest)) = pathText (c :: rest) :=
    if_neg (pathText_getLast hwords hne)
  have htext : pathText (c :: rest) = '/' :: (c ++ rest.flatMap ('/' :: ·)) := by
    rw [pathText, if_neg hne, List.flatMap_cons, List.cons_append]
  have hbad : ¬ (pathText (c :: rest) = [] ∨ 256 ≤ (pathText (c :: rest)).length) := by
    rw [not_or, not_le]
    exact ⟨by rw [htext]; exact List.cons_ne_nil _ _, hlen⟩
  have hfirst : pathText ([] ++ [c]) = ['/'] ++ c := by
    rw [List.nil_append, pathText, if_neg (List.cons_ne_nil c []), List.flatMap_singleton, List.singleton_append]
  unfold makePath
  rw [if_neg hbad, hslash, htext, hfirst]
  simp only [List.take_succ_cons, List.take_zero, List.drop_succ_cons, List.drop_zero]
  rw [makePrefixes_word _ (hwords c List.mem_cons_self).2]

/-- **Where directories are made**: at the prefixes of a path that meets no link. -/
theorem makePath_places {fails : Nat → Bool} {p : Path} (hne : p ≠ []) (hwords : ∀ c ∈ p, Word c)
    (hplain : PlainNames p) (hopen : OpenChain sp [] p)
    (hq : (makePath cwd fails sp (pathText p)).1.obj fs q ≠ sp.obj fs q) :
    ∃ front, front <+: p ∧ (fs, q) = sp.loc front := by
  cases p with
  | nil => exact absurd rfl hne
  | cons c rest =>
    by_cases hlen : (pathText (c :: rest)).length < 256
    · rw [makePath_pathText hwords hlen] at hq
      exact @makePrefixes_places cwd fs q fails rest [] c 0 sp hwords hplain hopen hq
    · unfold makePath at hq
      rw [if_pos (Or.inr (Nat.not_lt.1 hlen))] at hq
      exact absurd rfl hq

end

theorem makePath_plain {cwd : Path} {fails : Nat → Bool} {sp : Space} {p : Path} (hne : p ≠ [])
    (hwords : ∀ c ∈ p, Word c) (hplain : PlainNames p) (hopen : OpenChain sp [] p)
    (h : (makePath cwd fails sp (pathText p)).2 = 0) :
    RealDirs (makePath cwd fails sp (pathText p)).1 [] p := by
  have hslash : withoutSlash (pathText p) = pathText p := if_neg (pathText_getLast hwords hne)
  obtain ⟨hmakes, hok⟩ := makePath_makes cwd fails sp (pathText p)
  obtain ⟨-, hthere⟩ := hok h
  rw [hslash] at hthere
  obtain ⟨-, r, hr, -⟩ := pathExist_iff.1 hthere
  have hparts : components (pathText p) = p := tokens_pathText hwords
  have hstart : startOf cwd (pathText p) = [] := if_pos (pathText_head _)
  rw [hparts, hstart] at hr
  exact (hopen.grows hmakes.grows).realDirs hplain hr

theorem makePath_succeeds {cwd : Path} {sp : Space} {p : Path} (hne : p ≠ []) (hwords : ∀ c ∈ p, Word c)
    (hplain : PlainNames p) (hlen : (pathText p).length < 256) (hroot : sp.look [] ≠ some .file)
    (hopen : OpenChain sp [] p) : (makePath cwd (fun _ => false) sp (pathText p)).2 = 0 := by
  cases p with
  | nil => exact absurd rfl hne
  | cons c rest =>
    have hall := @makePrefixes_chain cwd rest [] c 0 sp hwords hplain trivial hroot hopen
    rw [makePath_pathText hwords hlen, if_pos hall]

/-- **Making a path.**  Whatever the path is, if it is shorter than 256 bytes, and whatever fails, the only change
is that directories are added where prefixes of the path lead; success means that the path exists; and a path other
than `/` that exists already costs nothing. A path that meets neither a link nor a file is made, if no call fails,
and is then a chain of real directories. -/
theorem make_path (cwd : Path) (fails : Nat → Bool) (sp : Space) (dir : Text) (hroot : sp.look [] ≠ some .file)
    (hcwd : Canonical sp cwd) (hlen : dir.length < 256) :
    Makes cwd sp (makePath cwd fails sp dir).1 dir ∧
      ((makePath cwd fails sp dir).2 = 0 →
        pathExist cwd (makePath cwd fails sp dir).1 (withoutSlash dir) = true) ∧
      (pathExist cwd sp (withoutSlash dir) = true → makePath cwd fails sp dir = (sp, 0)) ∧
      ∀ p, dir = pathText p → p ≠ [] → (∀ c ∈ p, Word c) → PlainNames p → OpenChain sp [] p →
        ((makePath cwd fails sp dir).2 = 0 → RealDirs (makePath cwd fails sp dir).1 [] p) ∧
          ((∀ k, fails k = false) → (makePath cwd fails sp dir).2 = 0) := by
  obtain ⟨hmakes, hok⟩ := makePath_makes cwd fails sp dir
  refine ⟨hmakes, fun h => (hok h).2, makePath_there fails hroot hcwd hlen, ?_⟩
  rintro p rfl hne hwords hplain hopen
  refine ⟨makePath_plain hne hwords hplain hopen, fun hnever => ?_⟩
  obtain rfl : fails = fun _ => false := funext hnever
  exact makePath_succeeds hne hwords hplain hlen hroot hopen

/-- A path through the link `up`, which leads to `/srv`. -/
theorem made_through_link :
    (makePath [] (fun _ => false) linkTree "/srv/root/up/logs".toList).1.look [ "srv".toList, "logs".toList] =
        some .dir ∧
      pathExist [] (makePath [] (fun _ => false) linkTree "/srv/root/up/logs".toList).1
        "/srv/root/up/logs".toList = true := by
  obtain ⟨-, hok, -⟩ := make_path [] (fun _ => false) linkTree "/srv/root/up/logs".toList (by decide +kernel)
    (Canonical.nil _) (by decide)
  exact ⟨by decide +kernel, hok (by decide +kernel)⟩

end TinyDocker
