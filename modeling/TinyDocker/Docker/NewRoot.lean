import TinyDocker.Core.RemoveTree
import TinyDocker.Docker.Cgroup
import TinyDocker.Lib.Canonical
import TinyDocker.Lib.Pivot

/-!
# The root of the container (`init_and_set_new_root` in `docker/workspace.c`)

The child of `docker run` binds its mount point onto itself, makes it the root of its mount namespace,
detaches the old root, removes the directory that it hung on, and mounts `/proc`.

Principal results:

* `new_root_confines` — after success every path of the container stands for one below the new root or for
  one of the new proc file system; whatever happens, only the directory `old_root` and a missing `proc`
  are touched;
* `new_root_keeps_objects` — below a root that has no `/old_root` nothing is lost;
* `old_root_volume_lost` — a volume that is mounted at `/old_root` is emptied, and the start fails.
-/

set_option autoImplicit false

namespace TinyDocker

open CText MountSpace

/-- Calls that may fail for a reason of their own. -/
structure RootFaults where
  setPrivate : Bool
  bind : Bool
  ensure : FsFaults
  pivotRoot : Bool
  chdir : Bool
  umount : Bool
  remove : Nat → Bool
  mkdirProc : Bool
  mountProc : Bool

def RootFaults.none : RootFaults := ⟨false, false, .none, false, false, false, fun _ => false, false, false⟩

/-- `realpath` into a buffer of `PATH_MAX` bytes. -/
def realpath (sp : Space) (cwd : Path) (path : Text) : Except Errno Path :=
  if path = [] then .error .ENOENT
  else match sp.resolve (if path.head? = some '/' then [] else cwd) (components path) with
    | .error e => .error e
    | .ok p =>
      if path.getLast? = some '/' ∧ sp.look p = some .file then .error .ENOTDIR
      else if Cgroup.PATH_MAX ≤ (pathText p).length then .error .EOTHER
      else .ok p

section Model

variable (f : RootFaults) (order : Space → Path → List Path) (procfs : Path → Option Obj)

/-- `mount("proc", "/proc", "proc", ..)`. -/
def mountOnProc (sp : Space) : Space × Bool :=
  if f.mountProc then (sp, false) else (sp.mountNew procfs [ "proc".toList], true)

/-- The `/proc` part: the directory is made, or must be one. -/
def mountProc (sp : Space) : Space × Bool :=
  match lstat sp "/proc".toList with
  | .error e =>
    if e ≠ .ENOENT ∨ f.mkdirProc then (sp, false) else mountOnProc f procfs (sp.mkdir [ "proc".toList])
  | .ok p => if sp.look p = some .dir then mountOnProc f procfs sp else (sp, false)

/-- What follows `pivot_root`. -/
def dropOldRoot (sp : Space) : Space × Bool :=
  if f.chdir ∨ f.umount then (sp, false)
  else match sp.detach [ "old_root".toList] with
    | .error _ => (sp, false)
    | .ok sp₁ =>
      let removed := tdRemoveTree order f.remove sp₁ "/old_root".toList
      if removed.2 = -1 then (removed.1, false) else mountProc f procfs removed.1

def initAndSetNewRoot (cwd : Path) (sp : Space) (newRoot : Text) : Space × Bool :=
  match realpath sp cwd newRoot with
  | .error _ => (sp, false)
  | .ok root =>
    if f.setPrivate ∨ f.bind then (sp, false)
    -- a file that is bound onto itself is no directory to make `old_root` in
    else if sp.look root = some .file then (sp, false)
    else
      let oldRoot := pathText root ++ "/old_root".toList
      if Cgroup.PATH_MAX ≤ oldRoot.length then (sp.rbind root, false)
      else
        let made := tdEnsureDirectoryBeneath f.ensure (sp.rbind root) (pathText root) "/old_root".toList
          Cgroup.PATH_MAX
        if made.2 ≠ some oldRoot ∨ f.pivotRoot then (made.1, false)
        else match made.1.pivotRoot root [ "old_root".toList] with
          | .error _ => (made.1, false)
          | .ok pivoted => dropOldRoot f order procfs pivoted

end Model

/-! ## The new root before the pivot -/

section

variable {f : RootFaults} {order : Space → Path → List Path} {procfs : Path → Option Obj} {sp : Space}
  {cwd root : Path} {newRoot : Text}

/-- An absolute path does not depend on the working directory. -/
theorem initAndSetNewRoot_absolute (habs : newRoot.head? = some '/') :
    realpath sp cwd newRoot = realpath sp [] newRoot ∧
      initAndSetNewRoot f order procfs cwd sp newRoot = initAndSetNewRoot f order procfs [] sp newRoot := by
  have hreal : realpath sp cwd newRoot = realpath sp [] newRoot := by
    unfold realpath
    rw [if_pos habs, if_pos habs]
  refine ⟨hreal, ?_⟩
  unfold initAndSetNewRoot
  rw [hreal]

/-- `realpath` ends at a directory, or at a file. -/
theorem realpath_resolved (hcwd : Canonical sp cwd) (h : realpath sp cwd newRoot = .ok root) :
    Resolved sp root := by
  unfold realpath at h
  split at h
  · cases h
  split at h
  · cases h
  rename_i p hp
  have hres : Resolved sp p := by
    refine walk_resolved ?_ (fun c hc => word_of_mem_tokens hc) hp
    split
    · exact Canonical.nil sp
    · exact hcwd
  split at h
  · cases h
  split at h
  · cases h
  cases h
  exact hres

theorem realpath_canonical (hcwd : Canonical sp cwd) (h : realpath sp cwd newRoot = .ok root)
    (hfile : sp.look root ≠ some .file) : Canonical sp root := by
  cases realpath_resolved hcwd h with
  | directory hroot => exact hroot
  | file _ _ _ hlook => exact absurd hlook hfile

/-- The text of a canonical directory opens that directory, if it opens any. -/
theorem openDirectory_rbind {dir : Path} (hroot : Canonical sp root)
    (h : openDirectory (sp.rbind root) (pathText root) = .ok dir) : dir = root := by
  obtain ⟨hresolve, -⟩ := openDirectory_ok h
  have hparts : components (pathText root) = root := tokens_pathText hroot.words
  have hwalk : (sp.rbind root).resolve [] root = .ok ([] ++ root) :=
    walk_realDirs hroot.plain (realDirs_rbind hroot.real)
  rw [hparts, hwalk] at hresolve
  cases hresolve
  rfl

theorem components_old_root : components "/old_root".toList = [ "old_root".toList] := by decide +kernel

/-- What making `old_root` does below a directory that is bound onto itself. -/
theorem ensure_old_root (fault : FsFaults) (hroot : Canonical sp root) :
    (tdEnsureDirectoryBeneath fault (sp.rbind root) (pathText root) "/old_root".toList
        Cgroup.PATH_MAX).1.table = (sp.rbind root).table ∧
      (tdEnsureDirectoryBeneath fault (sp.rbind root) (pathText root) "/old_root".toList
        Cgroup.PATH_MAX).1.nextFs = sp.nextFs ∧
      ∀ fs q, (tdEnsureDirectoryBeneath fault (sp.rbind root) (pathText root) "/old_root".toList
          Cgroup.PATH_MAX).1.obj fs q = sp.obj fs q ∨
        sp.obj fs q = none ∧ (fs, q) = sp.loc (root ++ [ "old_root".toList]) := by
  cases hopen : openDirectory (sp.rbind root) (pathText root) with
  | error e =>
    have hsame : (tdEnsureDirectoryBeneath fault (sp.rbind root) (pathText root) "/old_root".toList
        Cgroup.PATH_MAX).1 = sp.rbind root := by
      unfold tdEnsureDirectoryBeneath
      split
      · rfl
      rw [hopen]
      split
      · rfl
      · rfl
    rw [hsame]
    exact ⟨rfl, rfl, fun _ _ => Or.inl rfl⟩
  | ok dir =>
    obtain rfl := openDirectory_rbind hroot hopen
    obtain ⟨made, hmade, hadds, -⟩ :=
      ensure_directory_beneath fault (sp.rbind dir) (pathText dir) "/old_root".toList Cgroup.PATH_MAX dir hopen
    refine ⟨hadds.table, hadds.next, fun fs q => ?_⟩
    rcases hadds.objs fs q with hsame | ⟨hnone, -, p, hp, hne, hq⟩
    · exact Or.inl hsame
    · refine Or.inr ⟨hnone, ?_⟩
      have hpre : p <+: [ "old_root".toList] := components_old_root ▸ hp.trans hmade
      obtain rfl : p = [ "old_root".toList] := by
        rcases List.prefix_cons_iff.1 hpre with rfl | ⟨t, rfl, ht⟩
        · exact absurd rfl hne
        · rw [List.prefix_nil.1 ht]
      rw [hq, rbind_loc]

/-- The root of the tree is refused: its `old_root` has another spelling. -/
theorem ensure_old_root_ne_nil {fault : FsFaults} (h : (tdEnsureDirectoryBeneath fault sp (pathText root)
    "/old_root".toList Cgroup.PATH_MAX).2 = some (pathText root ++ "/old_root".toList)) : root ≠ [] := by
  rintro rfl
  unfold tdEnsureDirectoryBeneath at h
  split at h
  · cases h
  rename_i output hjoin
  obtain ⟨-, -, -, rfl⟩ := tdJoinRootfsPath_ok hjoin
  split at h
  · cases h
  split at h
  · cases h
  split at h
  · cases h
  · simp only at h
    split at h
    · revert h
      decide
    · cases h

/-! ## What is left of the old root -/

/-- The walk visits the path, if there is something, and what is below it. -/
structure Walks (order : Space → Path → List Path) : Prop where
  below : ∀ sp p, ∀ q ∈ order sp p, p <+: q
  self : ∀ sp p, sp.look p ≠ none → p ∈ order sp p

/-- A name in the root. -/
theorem lstat_name {sp : Space} {c : Text} (hword : Word c) (hplain : c ≠ ['.'] ∧ c ≠ ['.', '.']) :
    lstat sp ('/' :: c) = if sp.look [] = some .file then .error .ENOTDIR
      else if sp.look [c] = none then .error .ENOENT else .ok [c] := by
  have hparts : components ('/' :: c) = [c] := by
    have htext : pathText [c] = '/' :: c := by simp [pathText]
    rw [← htext]
    exact tokens_pathText fun x hx => by rwa [List.mem_singleton.1 hx]
  have hlast : ('/' :: c).getLast? ≠ some '/' := by
    intro heq
    rw [List.getLast?_cons, Option.some.injEq] at heq
    cases hc : c.getLast? with
    | none => exact hword.1 (List.getLast?_eq_none_iff.1 hc)
    | some x =>
      rw [hc, Option.getD_some] at heq
      exact hword.2 (heq ▸ List.mem_of_getLast? hc)
  have hparent : sp.resolve [] [] = .ok [] := walk_realDirs (fun _ h => (by cases h)) trivial
  unfold lstat
  rw [if_neg hlast, hparts]
  simp only [List.dropLast_singleton, hparent, List.getLast?_singleton, if_neg hplain.1, if_neg hplain.2,
    List.nil_append]

theorem word_old_root : Word "old_root".toList ∧ "old_root".toList ≠ ['.'] ∧ "old_root".toList ≠ ['.', '.'] :=
  ⟨⟨by decide, by decide⟩, by decide, by decide⟩

theorem word_proc : Word "proc".toList ∧ "proc".toList ≠ ['.'] ∧ "proc".toList ≠ ['.', '.'] :=
  ⟨⟨by decide, by decide⟩, by decide, by decide⟩

/-- Removing a name in the root: only what is below it goes, and success leaves nothing there. -/
theorem tdRemoveTree_name {c : Text} (hword : Word c) (hplain : c ≠ ['.'] ∧ c ≠ ['.', '.'])
    (hwalk : Walks order) (fails : Nat → Bool) (sp : Space) :
    (∃ gone, (∀ q ∈ gone, [c] <+: q) ∧ Erased sp (tdRemoveTree order fails sp ('/' :: c)).1 gone) ∧
      ((tdRemoveTree order fails sp ('/' :: c)).2 ≠ -1 →
        (tdRemoveTree order fails sp ('/' :: c)).1.look [c] = none) := by
  have hname : ¬ ('/' :: c = [] ∨ '/' :: c = ['/']) := by
    rintro (h | h)
    · cases h
    · exact hword.1 (List.cons.inj h).2
  unfold tdRemoveTree
  rw [if_neg hname, lstat_name hword hplain]
  split
  · rename_i e he
    refine ⟨⟨[], fun _ h => (by cases h), Erased.nothing sp⟩, fun hok => ?_⟩
    split at he
    · cases he
      exact absurd rfl hok
    split at he
    · rename_i hnone
      exact hnone
    · cases he
  · rename_i p hp
    split at hp
    · cases hp
    split at hp
    · cases hp
    rename_i hsome
    cases hp
    obtain ⟨gone, left, hl, herased, hmounts, hdone⟩ := removeEntries_erased fails (order sp [c]) 0 sp
    refine ⟨⟨gone, fun q hq => hwalk.below sp [c] q (hl ▸ List.mem_append_left _ hq), herased⟩, fun hok => ?_⟩
    have hall : (removeEntries fails 0 sp (order sp [c])).2 = true := by
      by_contra hfail
      simp [hfail] at hok
    rw [hdone] at hall
    rw [hall, List.append_nil] at hl
    have hself : [c] ∈ gone := hl ▸ hwalk.self sp [c] hsome
    have hfree : mountedAt (removeEntries fails 0 sp (order sp [c])).1.table [c] = false := by
      rw [herased.table]
      exact hmounts _ hself
    rw [look_of_not_mountedAt hfree, Space.loc_congr herased.table]
    exact herased.none _ hself

theorem mountOnProc_cases (sp : Space) : mountOnProc f procfs sp = (sp, false) ∨
    mountOnProc f procfs sp = (sp.mountNew procfs [ "proc".toList], true) := by
  unfold mountOnProc
  split
  · exact Or.inl rfl
  · exact Or.inr rfl

/-- What `/proc` needs: the directory, made or found, and the mount. -/
theorem mountProc_cases (sp : Space) : ∃ sp₁,
    (sp₁ = sp ∨ sp.look [ "proc".toList] = none ∧ sp₁ = sp.mkdir [ "proc".toList]) ∧
      (mountProc f procfs sp = (sp₁, false) ∨
        mountProc f procfs sp = (sp₁.mountNew procfs [ "proc".toList], true)) := by
  have hname : "/proc".toList = '/' :: "proc".toList := rfl
  unfold mountProc
  rw [hname, lstat_name word_proc.1 word_proc.2]
  split
  · rename_i e he
    split at he
    · cases he
      exact ⟨sp, Or.inl rfl, Or.inl rfl⟩
    split at he
    · rename_i hnone
      cases he
      split
      · exact ⟨sp, Or.inl rfl, Or.inl rfl⟩
      · exact ⟨sp.mkdir [ "proc".toList], Or.inr ⟨hnone, rfl⟩, mountOnProc_cases _⟩
    · cases he
  · split
    · exact ⟨sp, Or.inl rfl, mountOnProc_cases _⟩
    · exact ⟨sp, Or.inl rfl, Or.inl rfl⟩

/-- An object that the start may touch. -/
def Touched (sp : Space) (root : Path) (fs : Nat) (q : Path) : Prop :=
  (∃ s, (fs, q) = sp.loc (root ++ "old_root".toList :: s)) ∨
    (sp.obj fs q = none ∧ (fs, q) = sp.loc (root ++ [ "proc".toList]))

/-- What the container sees: what was below the new root, and a proc file system of its own. -/
structure NewRoot (sp sp' : Space) (root : Path) : Prop where
  below : ∀ p, ¬ [ "proc".toList] <+: p → sp'.loc p = sp.loc (root ++ p)
  proc : ∀ p, sp'.loc ("proc".toList :: p) = (sp.nextFs, p)
  oldRoot : sp'.look [ "old_root".toList] = none

/-- From a tree with the new root on, in which only `old_root` may have lost something. -/
theorem mountProc_spec {sp sp₁ : Space} (hnum : sp.Numbered) (hnext : sp₁.nextFs = sp.nextFs)
    (hloc : ∀ p, sp₁.loc p = sp.loc (root ++ p))
    (hobj : ∀ fs q, sp₁.obj fs q = sp.obj fs q ∨ Touched sp root fs q) :
    (∀ fs q, fs ≠ sp.nextFs → (mountProc f procfs sp₁).1.obj fs q = sp.obj fs q ∨ Touched sp root fs q) ∧
      ((mountProc f procfs sp₁).2 = true → sp₁.look [ "old_root".toList] = none →
        NewRoot sp (mountProc f procfs sp₁).1 root) := by
  obtain ⟨sp₂, hmade, hmount⟩ := @mountProc_cases f procfs sp₁
  have htable : sp₂.table = sp₁.table := by
    rcases hmade with rfl | ⟨-, rfl⟩
    · rfl
    · rfl
  have hnext₂ : sp₂.nextFs = sp.nextFs := by
    rcases hmade with rfl | ⟨-, rfl⟩
    · exact hnext
    · exact hnext
  have hobj₂ : ∀ fs q, sp₂.obj fs q = sp.obj fs q ∨ Touched sp root fs q := by
    intro fs q
    rcases hobj fs q with hsame | htouched
    · rcases hmade with rfl | ⟨hnone, rfl⟩
      · exact Or.inl hsame
      · by_cases hq : (fs, q) = sp₁.loc [ "proc".toList]
        · refine Or.inr (Or.inr ⟨?_, hq.trans (hloc _)⟩)
          have hfree := obj_loc_of_look_none hnone
          rw [← hq] at hfree
          exact hsame ▸ hfree
        · exact Or.inl ((if_neg hq).trans hsame)
    · exact Or.inr htouched
  have hother : ∀ fs q, fs ≠ sp.nextFs →
      (sp₂.mountNew procfs [ "proc".toList]).obj fs q = sp₂.obj fs q :=
    fun fs q hfs => if_neg (hnext₂ ▸ hfs)
  refine ⟨fun fs q hfs => ?_, fun hok hgone => ?_⟩
  · rcases hmount with hr | hr
    · rw [hr]
      exact hobj₂ fs q
    · rw [hr]
      simp only
      rw [hother fs q hfs]
      exact hobj₂ fs q
  · obtain hr : mountProc f procfs sp₁ = (sp₂.mountNew procfs [ "proc".toList], true) := by
      rcases hmount with hr | hr
      · rw [hr] at hok
        cases hok
      · exact hr
    rw [hr]
    refine ⟨fun p hp => ?_, fun p => ?_, ?_⟩
    · rw [mountNew_loc, if_neg hp, Space.loc_congr htable, hloc]
    · rw [mountNew_loc, if_pos ⟨p, rfl⟩, hnext₂]
      rfl
    · have hfree₁ : mountedAt sp₁.table [ "old_root".toList] = false := by
        refine Bool.eq_false_iff.2 fun hm => ?_
        rw [look_of_mountedAt hm] at hgone
        cases hgone
      have hnot : ¬ [ "proc".toList] <+: [ "old_root".toList] := by decide
      have hfree : mountedAt (sp₂.mountNew procfs [ "proc".toList]).table [ "old_root".toList] = false := by
        rw [mountNew_mountedAt hnot, htable]
        exact hfree₁
      have hbelow : (sp₁.loc [ "old_root".toList]).1 ≠ sp.nextFs := by
        rw [hloc]
        exact Nat.ne_of_lt (hnum.loc_lt _)
      rw [look_of_not_mountedAt hfree, mountNew_loc, if_neg hnot, Space.loc_congr htable, hother _ _ hbelow]
      rw [look_of_not_mountedAt hfree₁] at hgone
      rcases hmade with rfl | ⟨hnone, rfl⟩
      · exact hgone
      · -- the new directory is another one
        have hfree₂ : mountedAt sp₁.table [ "proc".toList] = false := by
          refine Bool.eq_false_iff.2 fun hm => ?_
          rw [look_of_mountedAt hm] at hnone
          cases hnone
        have hproc : sp₁.loc [ "proc".toList] = ((sp₁.loc []).1, (sp₁.loc []).2 ++ [ "proc".toList]) :=
          loc_child (d := []) hfree₂
        have hold : sp₁.loc [ "old_root".toList] = ((sp₁.loc []).1, (sp₁.loc []).2 ++ [ "old_root".toList]) :=
          loc_child (d := []) hfree₁
        refine (if_neg fun heq => ?_).trans hgone
        rw [hproc, hold, Prod.mk.injEq, List.append_cancel_left_eq] at heq
        exact absurd heq.2 (by decide)

/-- What follows the pivot. -/
theorem dropOldRoot_spec {sp sp₀ sp₁ : Space} (hnum : sp.Numbered) (hwalk : Walks order)
    (hdetach : sp₀.detach [ "old_root".toList] = .ok sp₁) (hsame : sp₀.obj = sp₁.obj)
    (hnext : sp₁.nextFs = sp.nextFs) (hloc : ∀ p, sp₁.loc p = sp.loc (root ++ p))
    (hobj : ∀ fs q, sp₁.obj fs q = sp.obj fs q ∨ Touched sp root fs q) :
    (∀ fs q, fs ≠ sp.nextFs →
        (dropOldRoot f order procfs sp₀).1.obj fs q = sp.obj fs q ∨ Touched sp root fs q) ∧
      ((dropOldRoot f order procfs sp₀).2 = true → NewRoot sp (dropOldRoot f order procfs sp₀).1 root) := by
  have hname : "/old_root".toList = '/' :: "old_root".toList := rfl
  unfold dropOldRoot
  split
  · exact ⟨fun fs q _ => hsame ▸ hobj fs q, fun h => (by cases h)⟩
  rw [hdetach, hname]
  simp only
  obtain ⟨⟨gone, hbelow, herased⟩, hgone⟩ :=
    tdRemoveTree_name word_old_root.1 word_old_root.2 hwalk f.remove sp₁
  generalize tdRemoveTree order f.remove sp₁ ('/' :: "old_root".toList) = removed at herased hgone ⊢
  have hobj₂ : ∀ fs q, removed.1.obj fs q = sp.obj fs q ∨ Touched sp root fs q := by
    intro fs q
    by_cases he : ∃ e ∈ gone, sp₁.loc e = (fs, q)
    · obtain ⟨e, he, hq⟩ := he
      obtain ⟨s, rfl⟩ := hbelow e he
      exact Or.inr (Or.inl ⟨s, hq.symm.trans (hloc _)⟩)
    · rcases hobj fs q with hkept | htouched
      · exact Or.inl ((herased.same fs q fun e hmem hq => he ⟨e, hmem, hq⟩).trans hkept)
      · exact Or.inr htouched
  split
  · exact ⟨fun fs q _ => hobj₂ fs q, fun h => (by cases h)⟩
  · rename_i hok
    obtain ⟨hframe, hroot⟩ := @mountProc_spec f procfs root sp removed.1 hnum (herased.nextFs.trans hnext)
      (fun p => (Space.loc_congr herased.table p).trans (hloc p)) hobj₂
    exact ⟨hframe, fun h => hroot h (hgone hok)⟩

/-- The whole call, for a new root that is a directory. -/
theorem new_root_spec (hnum : sp.Numbered) (hwalk : Walks order) (htop : ∀ m ∈ sp.table, m.path ≠ [])
    (hcwd : Canonical sp cwd) :
    (initAndSetNewRoot f order procfs cwd sp newRoot = (sp, false)) ∨
      ∃ root, realpath sp cwd newRoot = .ok root ∧
        (∀ fs q, fs ≠ sp.nextFs → (initAndSetNewRoot f order procfs cwd sp newRoot).1.obj fs q = sp.obj fs q ∨
          Touched sp root fs q) ∧
        ((initAndSetNewRoot f order procfs cwd sp newRoot).2 = true →
          root ≠ [] ∧ NewRoot sp (initAndSetNewRoot f order procfs cwd sp newRoot).1 root) := by
  unfold initAndSetNewRoot
  split
  · exact Or.inl rfl
  rename_i root hreal
  split
  · exact Or.inl rfl
  split
  · exact Or.inl rfl
  rename_i hfile
  refine Or.inr ⟨root, hreal, ?_⟩
  have hroot := realpath_canonical hcwd hreal hfile
  simp only
  split
  · exact ⟨fun _ _ _ => Or.inl rfl, fun h => (by cases h)⟩
  obtain ⟨htable, hnext, hobj⟩ := @ensure_old_root sp root f.ensure hroot
  have hmade := @ensure_old_root_ne_nil (sp.rbind root) root f.ensure
  generalize tdEnsureDirectoryBeneath f.ensure (sp.rbind root) (pathText root) "/old_root".toList
    Cgroup.PATH_MAX = made at htable hnext hobj hmade ⊢
  have htouched : ∀ fs q, made.1.obj fs q = sp.obj fs q ∨ Touched sp root fs q := by
    intro fs q
    rcases hobj fs q with hsame | ⟨-, hq⟩
    · exact Or.inl hsame
    · exact Or.inr (Or.inl ⟨[], hq⟩)
  split
  · exact ⟨fun fs q _ => htouched fs q, fun h => (by cases h)⟩
  rename_i hgoes
  simp only [not_or, not_not] at hgoes
  have hne := hmade hgoes.1
  obtain ⟨pivoted, hpivot, hdetach⟩ := pivot_detach htable hne htop [ "old_root".toList]
  rw [hpivot]
  simp only
  have hsame : pivoted.obj = made.1.obj := (Space.detach_obj hdetach).symm
  obtain ⟨hframe, hnew⟩ := @dropOldRoot_spec f order procfs root sp pivoted
    { made.1 with table := newTable sp root } hnum hwalk hdetach hsame hnext
    (fun p => newRoot_loc rfl p) htouched
  exact ⟨hframe, fun h => ⟨hne, hnew h⟩⟩

/-- **The container is confined to its root.**  After success every path of the container stands for what
the path below the new root stood for, `/proc` apart, which is a file system of its own; the old root can
no longer be named.  Whatever happens, nothing outside the directory `old_root` of the new root is changed,
except that a missing `proc` is made; and below a root without `old_root` nothing at all is lost. -/
theorem new_root_confines (f : RootFaults) (order : Space → Path → List Path) (procfs : Path → Option Obj)
    (cwd : Path) (sp : Space) (newRoot : Text) (hnum : sp.Numbered) (hwalk : Walks order)
    (htop : ∀ m ∈ sp.table, m.path ≠ []) (hcwd : Canonical sp cwd) :
    ((initAndSetNewRoot f order procfs cwd sp newRoot).2 = true →
      ∃ root, root ≠ [] ∧ realpath sp cwd newRoot = .ok root ∧
        NewRoot sp (initAndSetNewRoot f order procfs cwd sp newRoot).1 root) ∧
    (∀ fs q, fs ≠ sp.nextFs → (initAndSetNewRoot f order procfs cwd sp newRoot).1.obj fs q = sp.obj fs q ∨
      ∃ root, realpath sp cwd newRoot = .ok root ∧ Touched sp root fs q) ∧
    ((∀ root, realpath sp cwd newRoot = .ok root →
        ∀ s, sp.look (root ++ "old_root".toList :: s) = none) →
      ∀ fs q o, fs ≠ sp.nextFs → sp.obj fs q = some o →
        (initAndSetNewRoot f order procfs cwd sp newRoot).1.obj fs q = some o) := by
  rcases @new_root_spec f order procfs sp cwd newRoot hnum hwalk htop hcwd with
    hfail | ⟨root, hreal, hframe, hnew⟩
  · rw [hfail]
    exact ⟨fun h => (by cases h), fun _ _ _ => Or.inl rfl, fun _ _ _ _ _ h => h⟩
  · refine ⟨fun h => ⟨root, (hnew h).1, hreal, (hnew h).2⟩, fun fs q hfs => ?_, fun hbare fs q o hfs ho => ?_⟩
    · rcases hframe fs q hfs with hsame | htouched
      · exact Or.inl hsame
      · exact Or.inr ⟨root, hreal, htouched⟩
    · rcases hframe fs q hfs with hsame | ⟨s, hq⟩ | ⟨hnone, -⟩
      · exact hsame.trans ho
      · have hfree := obj_loc_of_look_none (hbare root hreal s)
        rw [← hq, ho] at hfree
        cases hfree
      · rw [ho] at hnone
        cases hnone

end

/-- A walk that visits the path and nothing below it. -/
theorem walks_self : Walks fun _ p => [p] := by
  refine ⟨fun _ p q hq => ?_, fun _ p _ => List.mem_singleton_self p⟩
  exact List.mem_singleton.1 hq ▸ List.prefix_refl p

/-- The root of `linkTree` holds the link `up`, which leads to `/srv`. -/
theorem link_tree_confined : ∃ root, root ≠ [] ∧ realpath linkTree [] "/srv/root".toList = .ok root ∧
    NewRoot linkTree (initAndSetNewRoot .none (fun _ p => [p]) (fun _ => none) [] linkTree
      "/srv/root".toList).1 root := by
  have hnum : linkTree.Numbered := ⟨Nat.one_pos, fun _ hm => (by cases hm)⟩
  have htop : ∀ m ∈ linkTree.table, m.path ≠ [] := fun _ hm => (by cases hm)
  have hok : (initAndSetNewRoot .none (fun _ p => [p]) (fun _ => none) [] linkTree
      "/srv/root".toList).2 = true := by decide +kernel
  exact (new_root_confines .none _ _ [] linkTree _ hnum walks_self htop (Canonical.nil _)).1 hok

section

variable {f : RootFaults} {order : Space → Path → List Path} {procfs : Path → Option Obj} {sp : Space}
  {cwd root : Path} {newRoot : Text}

/-! ## A volume at `/old_root` -/

theorem look_rbind_old_root (hmount : mountedAt sp.table (root ++ [ "old_root".toList]) = true) :
    (sp.rbind root).look (root ++ [ "old_root".toList]) = some .dir :=
  rbind_look_dir (look_of_mountedAt hmount)

/-- A directory that is there is not made. -/
theorem ensure_old_root_there (fault : FsFaults) (hroot : Canonical sp root)
    (hlook : (sp.rbind root).look (root ++ [ "old_root".toList]) = some .dir) :
    (tdEnsureDirectoryBeneath fault (sp.rbind root) (pathText root) "/old_root".toList Cgroup.PATH_MAX).1 =
      sp.rbind root := by
  have hparts : components ("/old_root".toList.drop 1) = [ "old_root".toList] := by decide +kernel
  unfold tdEnsureDirectoryBeneath
  split
  · rfl
  split
  · rfl
  split
  · rfl
  rename_i dir hopen
  obtain rfl := openDirectory_rbind hroot hopen
  split
  · rfl
  rw [hparts]
  unfold ensureDirs
  split
  · rfl
  simp only [hlook, Option.isNone_some, Bool.false_eq_true, ↓reduceIte]
  split
  · rfl
  · rfl

/-- The text of a canonical directory opens it. -/
theorem openDirectory_pathText (hroot : Canonical sp root) (hne : root ≠ []) (hdir : sp.look root = some .dir)
    (htop : sp.look [] ≠ some .file) : openDirectory sp (pathText root) = .ok root := by
  have hlast := pathText_getLast hroot.words hne
  have hparts : components (pathText root) = root := tokens_pathText hroot.words
  obtain ⟨front, c, rfl⟩ : ∃ front c, root = front ++ [c] := by
    rcases List.eq_nil_or_concat root with rfl | ⟨front, c, rfl⟩
    · exact absurd rfl hne
    · exact ⟨front, c, List.concat_eq_append⟩
  have hsplit := realDirs_append.1 hroot.real
  have hfront : sp.resolve [] front = .ok front :=
    walk_realDirs (fun x hx => hroot.plain x (List.mem_append_left _ hx)) hsplit.1
  have hparent : sp.look front ≠ some .file := by
    rcases List.eq_nil_or_concat front with rfl | ⟨above, x, rfl⟩
    · exact htop
    · rw [List.concat_eq_append] at hsplit ⊢
      have hx : sp.look (above ++ [x]) = some .dir := (realDirs_append.1 hsplit.1).2.1
      rw [hx]
      exact fun h => (by cases h)
  have hwalk : walk sp 0 front [c] = .ok (front ++ [c]) :=
    walk_realDirs (fun x hx => hroot.plain x (List.mem_append_right _ hx)) hsplit.2
  have hdrop : (front ++ [c]).drop ((front ++ [c]).length - 1) = [c] := by simp
  unfold openDirectory
  simp only [hparts, if_neg hlast, List.dropLast_concat, hfront, if_neg hparent, hdrop, hwalk, hdir, true_or,
    ↓reduceIte]

theorem join_old_root (hroot : Canonical sp root) (hne : root ≠ [])
    (hlen : (pathText root ++ "/old_root".toList).length < Cgroup.PATH_MAX) :
    tdJoinRootfsPath (pathText root) "/old_root".toList Cgroup.PATH_MAX =
      .ok (pathText root ++ "/old_root".toList) := by
  have hlast := pathText_getLast hroot.words hne
  have hargs : ¬ ((pathText root).head? ≠ some '/' ∨ Cgroup.PATH_MAX = 0) := by
    rw [pathText_head]
    simp [Cgroup.PATH_MAX]
  unfold tdJoinRootfsPath
  rw [if_neg hargs, if_neg (by decide), if_neg (by decide), if_neg (by decide +kernel), if_neg hlast]
  exact if_neg (Nat.not_le.2 hlen)

/-- If nothing fails, its path comes back. -/
theorem ensure_old_root_path (hroot : Canonical sp root) (hne : root ≠ []) (htop : sp.look [] ≠ some .file)
    (hlen : (pathText root ++ "/old_root".toList).length < Cgroup.PATH_MAX)
    (hlook : (sp.rbind root).look (root ++ [ "old_root".toList]) = some .dir) :
    (tdEnsureDirectoryBeneath .none (sp.rbind root) (pathText root) "/old_root".toList Cgroup.PATH_MAX).2 =
      some (pathText root ++ "/old_root".toList) := by
  have hreal : Canonical (sp.rbind root) root := ⟨hroot.words, hroot.plain, realDirs_rbind hroot.real⟩
  have hself : (sp.rbind root).look root = some .dir := look_of_mountedAt (mountedAt_rbind_self sp root)
  have htop' : (sp.rbind root).look [] ≠ some .file := by
    cases hm : mountedAt sp.table [] with
    | true =>
      rw [rbind_look_dir (look_of_mountedAt hm)]
      exact fun h => (by cases h)
    | false =>
      rw [look_of_not_mountedAt ((mountedAt_rbind (Ne.symm hne)).trans hm), rbind_loc]
      rwa [look_of_not_mountedAt hm] at htop
  have hopen := openDirectory_pathText hreal hne hself htop'
  have hparts : components ("/old_root".toList.drop 1) = [ "old_root".toList] := by decide +kernel
  unfold tdEnsureDirectoryBeneath
  rw [join_old_root hroot hne hlen]
  simp only [hopen, hparts, FsFaults.none, ensureDirs, hlook, Option.isNone_some, Bool.false_eq_true, ↓reduceIte]

/-- What the walk meets inside: the volume at `/old_root`, and nothing mounted below. -/
theorem removal_meets_volume {sp₁ : Space} (hsp : sp₁ = { sp with table := newTable sp root })
    (hmount : mountedAt sp.table (root ++ [ "old_root".toList]) = true)
    (hflat : ∀ s, s ≠ [] → mountedAt sp.table (root ++ "old_root".toList :: s) = false) :
    lstat sp₁ "/old_root".toList = .ok [ "old_root".toList] ∧ sp₁.look [ "old_root".toList] = some .dir ∧
      mountedAt sp₁.table [ "old_root".toList] = true ∧
      ∀ s, s ≠ [] → mountedAt sp₁.table ([ "old_root".toList] ++ s) = false := by
  have hlook : ∀ p, sp₁.look p = (sp.rbind root).look (root ++ p) := by
    intro p
    rw [hsp]
    exact @newRoot_look sp root (sp.rbind root) rfl p
  have hmounts : ∀ p, mountedAt sp₁.table p = mountedAt (sp.rbind root).table (root ++ p) := by
    intro p
    rw [hsp]
    exact mountedAt_newTable p
  have hnotRoot : ∀ p, root ++ "old_root".toList :: p ≠ root := by
    intro p heq
    rw [List.append_right_eq_self] at heq
    cases heq
  have hdir : sp₁.look [ "old_root".toList] = some .dir := by
    rw [hlook]
    exact rbind_look_dir (look_of_mountedAt hmount)
  have htop : sp₁.look [] = some .dir := by
    rw [hlook, List.append_nil]
    exact look_of_mountedAt (mountedAt_rbind_self sp root)
  refine ⟨?_, hdir, ?_, fun s hs => ?_⟩
  · have hname : "/old_root".toList = '/' :: "old_root".toList := rfl
    rw [hname, lstat_name word_old_root.1 word_old_root.2, htop, hdir, if_neg (by decide), if_neg (by decide)]
  · rw [hmounts, mountedAt_rbind (hnotRoot [])]
    exact hmount
  · rw [hmounts, List.singleton_append, mountedAt_rbind (hnotRoot s)]
    exact hflat s hs

/-- The directory with the volume on it cannot be removed. -/
theorem dropOldRoot_fails {sp₀ sp₁ : Space} (hdetach : sp₀.detach [ "old_root".toList] = .ok sp₁)
    (hpath : lstat sp₁ "/old_root".toList = .ok [ "old_root".toList])
    (hself : [ "old_root".toList] ∈ order sp₁ [ "old_root".toList])
    (hmount : mountedAt sp₁.table [ "old_root".toList] = true) :
    (dropOldRoot f order procfs sp₀).2 = false := by
  unfold dropOldRoot
  split
  · rfl
  rw [hdetach]
  simp only
  have hstops : (removeEntries f.remove 0 sp₁ (order sp₁ [ "old_root".toList])).2 = false := by
    refine Bool.eq_false_iff.2 fun hall => ?_
    have hfree := ((removeEntries_succeeds f.remove (order sp₁ [ "old_root".toList]) 0 sp₁).1 hall).2 _ hself
    rw [hmount] at hfree
    cases hfree
  have hremoved : (tdRemoveTree order f.remove sp₁ "/old_root".toList).2 = -1 := by
    unfold tdRemoveTree
    rw [if_neg (by decide), hpath]
    simp only [hstops, Bool.false_eq_true, ↓reduceIte]
  rw [if_pos hremoved]

/-- Without another failure the call ends where the removal has stopped. -/
theorem old_root_removed {pivoted sp₁ : Space} (hroot : Canonical sp root)
    (hreal : realpath sp cwd newRoot = .ok root) (hne : root ≠ []) (hdir : sp.look root = some .dir)
    (hfile : sp.look [] ≠ some .file) (hlook : (sp.rbind root).look (root ++ [ "old_root".toList]) = some .dir)
    (hlen : (pathText root ++ "/old_root".toList).length < Cgroup.PATH_MAX)
    (hpivot : (sp.rbind root).pivotRoot root [ "old_root".toList] = .ok pivoted)
    (hdetach : pivoted.detach [ "old_root".toList] = .ok sp₁)
    (hpath : lstat sp₁ "/old_root".toList = .ok [ "old_root".toList])
    (hstop : (removeEntries (fun _ => false) 0 sp₁ (order sp₁ [ "old_root".toList])).2 = false) :
    (initAndSetNewRoot .none order procfs cwd sp newRoot).1 =
      (removeEntries (fun _ => false) 0 sp₁ (order sp₁ [ "old_root".toList])).1 := by
  have hremoved : tdRemoveTree order (fun _ => false) sp₁ "/old_root".toList =
      ((removeEntries (fun _ => false) 0 sp₁ (order sp₁ [ "old_root".toList])).1, -1) := by
    unfold tdRemoveTree
    rw [if_neg (by decide), hpath]
    simp only [hstop, Bool.false_eq_true, ↓reduceIte]
  have hnotFile : ¬ sp.look root = some .file := by
    rw [hdir]
    decide
  have hmade := ensure_old_root_path hroot hne hfile hlen hlook
  have hsame := ensure_old_root_there .none hroot hlook
  unfold initAndSetNewRoot
  rw [hreal]
  simp only [RootFaults.none, Bool.false_eq_true, or_self, ↓reduceIte, if_neg hnotFile,
    if_neg (Nat.not_le.2 hlen), hmade, hsame, ne_eq, not_true_eq_false, hpivot]
  unfold dropOldRoot
  simp only [Bool.false_eq_true, or_self, ↓reduceIte, hdetach, hremoved]

/-- **A volume at `/old_root` is emptied**, if nothing else is mounted below `/old_root`. The old root is hung on
the directory that the volume is mounted on; when it has been detached, the removal of that directory goes through
the volume and stops at its root. So the start always fails, and unless something else fails first, everything in
the volume has been removed. -/
theorem old_root_volume_lost (order : Space → Path → List Path) (procfs : Path → Option Obj) (cwd : Path)
    (sp : Space) (newRoot : Text) (root : Path) (hcwd : Canonical sp cwd) (htop : ∀ m ∈ sp.table, m.path ≠ [])
    (hreal : realpath sp cwd newRoot = .ok root) (hne : root ≠ []) (hdir : sp.look root = some .dir)
    (hfile : sp.look [] ≠ some .file) (hmount : mountedAt sp.table (root ++ [ "old_root".toList]) = true)
    (hflat : ∀ s, s ≠ [] → mountedAt sp.table (root ++ "old_root".toList :: s) = false)
    (hlen : (pathText root ++ "/old_root".toList).length < Cgroup.PATH_MAX)
    (horder : PostOrder { sp with table := newTable sp root } [ "old_root".toList]
      (order { sp with table := newTable sp root } [ "old_root".toList])) :
    (∀ f, (initAndSetNewRoot f order procfs cwd sp newRoot).2 = false) ∧
      ∀ s fs q, s ≠ [] → sp.loc (root ++ "old_root".toList :: s) = (fs, q) →
        (initAndSetNewRoot .none order procfs cwd sp newRoot).1.obj fs q = none := by
  have hroot : Canonical sp root := realpath_canonical hcwd hreal (by rw [hdir]; decide)
  have hlook := look_rbind_old_root hmount
  obtain ⟨hpath, hdirOld, hmountOld, hflatOld⟩ :=
    @removal_meets_volume sp root { sp with table := newTable sp root } rfl hmount hflat
  have hself := (horder.all [ "old_root".toList]).2 ⟨List.prefix_refl _, by rw [hdirOld]; decide⟩
  obtain ⟨pivoted, hpivot, hdetach⟩ :=
    @pivot_detach sp root (sp.rbind root) rfl hne htop [ "old_root".toList]
  have hnotFile : ¬ sp.look root = some .file := by
    rw [hdir]
    decide
  constructor
  · intro f
    unfold initAndSetNewRoot
    rw [hreal]
    simp only [if_neg hnotFile, ensure_old_root_there f.ensure hroot hlook, hpivot]
    split
    · rfl
    split
    · rfl
    split
    · rfl
    exact dropOldRoot_fails hdetach hpath hself hmountOld
  · intro s fs q hs hq
    obtain ⟨hstop, hgone⟩ := removeEntries_mounted horder (by rw [hdirOld]; decide) hmountOld hflatOld
    have hloc : ({ sp with table := newTable sp root } : Space).loc ([ "old_root".toList] ++ s) =
        (fs, q) := (newRoot_loc rfl _).trans hq
    have hnone := hgone s hs
    rw [hloc] at hnone
    rw [old_root_removed hroot hreal hne hdir hfile hlook hlen hpivot hdetach hpath hstop]
    exact hnone

end

/-- A volume with one file at `/old_root`. -/
def volumeTree : Space :=
  { obj := fun fs p =>
      if fs = 0 then
        if p = [ "srv".toList] ∨ p = [ "srv".toList, "root".toList] ∨
          p = [ "srv".toList, "root".toList, "old_root".toList] then some .dir else none
      else if p = [ "db".toList] then some .file else none
    table := [⟨[ "srv".toList, "root".toList, "old_root".toList], 1, []⟩]
    nextFs := 2 }

def volumeTreeOrder : List Path := [[ "old_root".toList, "db".toList], [ "old_root".toList]]

theorem volumeTree_postOrder : PostOrder { volumeTree with
    table := newTable volumeTree [ "srv".toList, "root".toList] } [ "old_root".toList] volumeTreeOrder := by
  refine ⟨fun q => ⟨fun hq => ?_, fun ⟨⟨s, hs⟩, hlook⟩ => ?_⟩, by decide +kernel⟩
  · rcases List.mem_cons.1 hq with rfl | hq
    · exact ⟨⟨[ "db".toList], rfl⟩, by decide +kernel⟩
    · rw [List.mem_singleton.1 hq]
      exact ⟨List.prefix_refl _, by decide +kernel⟩
  · subst hs
    cases s with
    | nil => exact List.mem_cons_of_mem _ List.mem_cons_self
    | cons c s =>
      have hobj : ({ volumeTree with
          table := newTable volumeTree [ "srv".toList, "root".toList] } : Space).look
          ([ "old_root".toList] ++ c :: s) = volumeTree.obj 1 (c :: s) := rfl
      rw [hobj] at hlook
      simp only [volumeTree] at hlook
      rw [if_neg Nat.one_ne_zero] at hlook
      split at hlook
      · rename_i hdb
        rw [hdb]
        exact List.mem_cons_self
      · exact absurd rfl hlook

theorem volumeTree_flat (s : Path) (hs : s ≠ []) :
    mountedAt volumeTree.table ([ "srv".toList, "root".toList] ++ "old_root".toList :: s) = false := by
  refine Bool.eq_false_iff.2 fun hm => ?_
  obtain ⟨m, hm, hpath⟩ := mountedAt_mem hm
  rw [List.mem_singleton.1 hm] at hpath
  cases s with
  | nil => exact hs rfl
  | cons c s => simp at hpath

/-- `-v /data:/old_root` is accepted; the file in the volume goes, and the container does not start. -/
theorem old_root_volume_emptied :
    tdParseVolumeSpec "/data:/old_root".toList 4096 4096 = .ok ("/data".toList, "/old_root".toList, 0) ∧
      volumeTree.obj 1 [ "db".toList] = some .file ∧
      (∀ f, (initAndSetNewRoot f (fun _ _ => volumeTreeOrder) (fun _ => none) [] volumeTree
        "/srv/root".toList).2 = false) ∧
      (initAndSetNewRoot .none (fun _ _ => volumeTreeOrder) (fun _ => none) [] volumeTree
        "/srv/root".toList).1.obj 1 [ "db".toList] = none := by
  obtain ⟨hfails, hgone⟩ := old_root_volume_lost (fun _ _ => volumeTreeOrder) (fun _ => none) [] volumeTree
    "/srv/root".toList [ "srv".toList, "root".toList] (Canonical.nil _) (by decide +kernel) (by decide +kernel)
    (by decide) (by decide +kernel) (by decide +kernel) (by decide +kernel) volumeTree_flat (by decide +kernel)
    volumeTree_postOrder
  exact ⟨by decide +kernel, by decide +kernel, hfails, hgone [ "db".toList] _ _ (List.cons_ne_nil _ _) rfl⟩

end TinyDocker
