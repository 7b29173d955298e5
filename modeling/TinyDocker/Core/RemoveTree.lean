import TinyDocker.Core.Fs
import TinyDocker.Lib.TreeRemoval

/-!
# Removing a directory tree (`td_remove_tree` in `core/fs.c`)

`nftw` belongs to the C library: the order in which it visits a tree, children first and links not followed,
is a parameter.  `remove_dir` of `util/utils.c` is this function.

Principal result: `remove_tree` — when the tree goes, what a failure leaves, and that nothing else is touched.
-/

set_option autoImplicit false

namespace TinyDocker

open CText MountSpace

/-- `lstat` of an absolute path: the last component is followed only before a trailing slash. -/
def lstat (sp : Space) (path : Text) : Except Errno Path :=
  let parts := components path
  if path.getLast? = some '/' then
    match sp.resolve [] parts with
    | .error e => .error e
    | .ok p => if sp.look p = some .file then .error .ENOTDIR else .ok p
  else match sp.resolve [] parts.dropLast with
    | .error e => .error e
    | .ok parent =>
      if sp.look parent = some .file then .error .ENOTDIR
      else match parts.getLast? with
        | none => .ok parent
        | some c =>
          if c = ['.'] then .ok parent
          else if c = ['.', '.'] then .ok parent.dropLast
          else if sp.look (parent ++ [c]) = none then .error .ENOENT
          else .ok (parent ++ [c])

/-- `td_remove_tree`; `order` is what `nftw` visits, `fails` says which call of `remove` fails. -/
def tdRemoveTree (order : Space → Path → List Path) (fails : Nat → Bool) (sp : Space) (path : Text) :
    Space × Int :=
  if path = [] ∨ path = ['/'] then (sp, -1)
  else match lstat sp path with
    | .error e => (sp, if e = .ENOENT then 0 else -1)
    | .ok p =>
      let r := removeEntries fails 0 sp (order sp p)
      (r.1, if r.2 then 0 else -1)

/-- **Removing a tree** that is there, by a path other than `/`. It succeeds exactly when no call fails and nothing
is mounted on an entry; objects that are not below the path stay, whatever happens; and where nothing is mounted
below the path, success leaves nothing of the tree, and after a failure every entry that is left is still in its
directory. -/
theorem remove_tree (order : Space → Path → List Path) (fails : Nat → Bool) (sp : Space) (path : Text) (p : Path)
    (hpath : path ≠ [] ∧ path ≠ ['/']) (hp : lstat sp path = .ok p) (horder : PostOrder sp p (order sp p)) :
    ((tdRemoveTree order fails sp path).2 = 0 ↔ (∀ i, i < (order sp p).length → fails i = false) ∧
      ∀ q ∈ order sp p, mountedAt sp.table q = false) ∧
    (∀ fs q, (∀ s, sp.loc (p ++ s) ≠ (fs, q)) →
      (tdRemoveTree order fails sp path).1.obj fs q = sp.obj fs q) ∧
    (sp.Bare p → ((tdRemoveTree order fails sp path).2 = 0 →
        ∀ s, (tdRemoveTree order fails sp path).1.look (p ++ s) = none) ∧
      ∀ s c, sp.look (p ++ s) ≠ none → (tdRemoveTree order fails sp path).1.look (p ++ (s ++ [c])) ≠ none →
        (tdRemoveTree order fails sp path).1.look (p ++ s) = sp.look (p ++ s)) := by
  have hrun : tdRemoveTree order fails sp path = ((removeEntries fails 0 sp (order sp p)).1,
      if (removeEntries fails 0 sp (order sp p)).2 then 0 else -1) := by
    unfold tdRemoveTree
    rw [if_neg (by simp [hpath]), hp]
  obtain ⟨gone, left, hl, herased, -, hdone⟩ := removeEntries_erased fails (order sp p) 0 sp
  have hzero : (tdRemoveTree order fails sp path).2 = 0 ↔
      (removeEntries fails 0 sp (order sp p)).2 = true := by
    rw [hrun]
    cases (removeEntries fails 0 sp (order sp p)).2 with
    | true => simp
    | false => simp
  have hbelow : ∀ q ∈ gone, p <+: q := fun q hq => ((horder.all q).1 (hl ▸ List.mem_append_left _ hq)).1
  refine ⟨?_, fun fs q hq => ?_, fun hbare => ⟨fun hok s => ?_, fun s c hparent hleft => ?_⟩⟩
  · rw [hzero, removeEntries_succeeds]
    simp only [Nat.zero_add]
  · rw [hrun]
    refine herased.same fs q fun e he => ?_
    obtain ⟨s, rfl⟩ := hbelow e he
    exact hq s
  · rw [hzero, hdone] at hok
    rw [hok, List.append_nil] at hl
    have hbare' := hbare.congr herased.table
    rw [hrun]
    simp only
    rw [hbare'.look, Space.loc_congr herased.table]
    by_cases hs : ∃ e ∈ gone, sp.loc e = ((sp.loc p).1, (sp.loc p).2 ++ s)
    · obtain ⟨e, he, heq⟩ := hs
      have hnone := herased.none e he
      rwa [heq] at hnone
    · rw [herased.same _ _ fun e he heq => hs ⟨e, he, heq⟩, ← hbare.look]
      by_contra hne
      exact hs ⟨p ++ s, hl ▸ (horder.all _).2 ⟨List.prefix_append _ _, hne⟩, hbare.loc s⟩
  · rw [hrun] at hleft ⊢
    exact removeEntries_hangs horder hbare fails 0 hparent hleft

/-- The entries of `linkTree` below `/srv/root`. -/
def linkTreeOrder : List Path :=
  [[ "srv".toList, "root".toList, "up".toList], [ "srv".toList, "root".toList]]

theorem linkTree_postOrder : PostOrder linkTree [ "srv".toList, "root".toList] linkTreeOrder := by
  refine ⟨fun q => ⟨fun hq => ?_, fun ⟨hpre, hlook⟩ => ?_⟩, by decide +kernel⟩
  · rcases List.mem_cons.1 hq with rfl | hq
    · exact ⟨⟨[ "up".toList], rfl⟩, by decide +kernel⟩
    · rw [List.mem_singleton.1 hq]
      exact ⟨List.prefix_refl _, by decide +kernel⟩
  · have hobj : linkTree.look q = linkTree.obj 0 q := rfl
    rw [hobj] at hlook
    simp only [linkTree] at hlook
    split at hlook
    · rename_i hq
      rcases hq with rfl | rfl
      · exact absurd hpre (by decide +kernel)
      · exact List.mem_cons_of_mem _ List.mem_cons_self
    · split at hlook
      · rename_i hq
        rw [hq]
        exact List.mem_cons_self
      · exact absurd rfl hlook

/-- The tree goes, and the link in it does not lead out of it. -/
theorem tree_with_link_removed :
    (tdRemoveTree (fun _ _ => linkTreeOrder) (fun _ => false) linkTree "/srv/root".toList).2 = 0 ∧
      (tdRemoveTree (fun _ _ => linkTreeOrder) (fun _ => false) linkTree "/srv/root".toList).1.look
        [ "srv".toList] = some .dir ∧
      ∀ s, (tdRemoveTree (fun _ _ => linkTreeOrder) (fun _ => false) linkTree "/srv/root".toList).1.look
        ([ "srv".toList, "root".toList] ++ s) = none := by
  obtain ⟨hzero, -, hbare⟩ := remove_tree (fun _ _ => linkTreeOrder) (fun _ => false) linkTree "/srv/root".toList
    [ "srv".toList, "root".toList] (by decide) (by decide +kernel) linkTree_postOrder
  have hok := hzero.2 ⟨fun _ _ => rfl, by decide +kernel⟩
  exact ⟨hok, by decide +kernel, (hbare fun _ hm => (by cases hm)).1 hok⟩

end TinyDocker
