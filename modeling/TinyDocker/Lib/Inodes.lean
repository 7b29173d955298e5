import Mathlib.Logic.Function.Basic
import Mathlib.Tactic.Common

/-!
# Files behind names

A file keeps its identity when its name changes or goes: whoever has opened it works on that file.  `Files.Once`
says that no file has two names, which creating, renaming and unlinking keep; a file that has lost its only name
never gets another one.
-/

set_option autoImplicit false

namespace Inodes

variable {Name α : Type}

/-- The files that names stand for, what is in each file, and the number of the next file. -/
structure Files (Name α : Type) where
  dir : Name → Option Nat
  contents : Nat → List α
  next : Nat

section Operations

variable [DecidableEq Name]

/-- `open` with `O_CREAT | O_EXCL` of a free name. -/
def Files.create (name : Name) (f : Files Name α) : Files Name α :=
  ⟨Function.update f.dir name (some f.next), Function.update f.contents f.next [], f.next + 1⟩

/-- `write` at the end. -/
def Files.append (inode : Nat) (piece : List α) (f : Files Name α) : Files Name α :=
  { f with contents := Function.update f.contents inode (f.contents inode ++ piece) }

/-- `rename` of an existing name over another one. -/
def Files.rename (oldName newName : Name) (f : Files Name α) : Files Name α :=
  { f with dir := Function.update (Function.update f.dir oldName none) newName (f.dir oldName) }

def Files.unlink (name : Name) (f : Files Name α) : Files Name α :=
  { f with dir := Function.update f.dir name none }

end Operations

/-- Every file has at most one name. -/
structure Files.Once (f : Files Name α) : Prop where
  single : ∀ a b i, f.dir a = some i → f.dir b = some i → a = b
  fresh : ∀ a i, f.dir a = some i → i < f.next

theorem Files.Once.append {f : Files Name α} (h : f.Once) (inode : Nat) (piece : List α) :
    (f.append inode piece).Once := ⟨h.single, h.fresh⟩

theorem append_contents_of_ne {f : Files Name α} {i j : Nat} {piece : List α} (h : i ≠ j) :
    (f.append j piece).contents i = f.contents i := Function.update_of_ne h _ _

theorem append_contents_self {f : Files Name α} {i : Nat} {piece : List α} :
    (f.append i piece).contents i = f.contents i ++ piece := Function.update_self ..

section

variable [DecidableEq Name] {f : Files Name α} {name oldName newName a : Name} {i : Nat}

theorem create_dir (h : (f.create name).dir a = some i) : a = name ∧ i = f.next ∨ a ≠ name ∧ f.dir a = some i := by
  unfold Files.create at h
  simp only [Function.update_apply] at h
  split at h
  · rename_i ha
    exact Or.inl ⟨ha, (Option.some.inj h).symm⟩
  · rename_i ha
    exact Or.inr ⟨ha, h⟩

/-- A name behind a renaming: the new one, or an old one. -/
theorem rename_dir (h : (f.rename oldName newName).dir a = some i) :
    a = newName ∧ f.dir oldName = some i ∨ a ≠ newName ∧ a ≠ oldName ∧ f.dir a = some i := by
  unfold Files.rename at h
  simp only [Function.update_apply] at h
  split at h
  · rename_i ha
    exact Or.inl ⟨ha, h⟩
  rename_i hnew
  split at h
  · cases h
  · rename_i hold
    exact Or.inr ⟨hnew, hold, h⟩

theorem unlink_dir (h : (f.unlink name).dir a = some i) : a ≠ name ∧ f.dir a = some i := by
  unfold Files.unlink at h
  simp only [Function.update_apply] at h
  split at h
  · cases h
  · rename_i ha
    exact ⟨ha, h⟩

theorem create_of_ne (h : a ≠ name) : (f.create name).dir a = f.dir a := Function.update_of_ne h _ _

theorem unlink_of_ne (h : a ≠ name) : (f.unlink name).dir a = f.dir a := Function.update_of_ne h _ _

theorem rename_of_ne (hnew : a ≠ newName) (hold : a ≠ oldName) : (f.rename oldName newName).dir a = f.dir a := by
  unfold Files.rename
  simp only
  rw [Function.update_of_ne hnew, Function.update_of_ne hold]

theorem create_contents (h : i < f.next) : (f.create name).contents i = f.contents i :=
  Function.update_of_ne (Nat.ne_of_lt h) _ _

theorem Files.Once.create (h : f.Once) : (f.create name).Once := by
  refine ⟨fun a b i ha hb => ?_, fun a i ha => ?_⟩
  · rcases create_dir ha with ⟨rfl, rfl⟩ | ⟨-, ha⟩
    · rcases create_dir hb with ⟨rfl, -⟩ | ⟨-, hb⟩
      · rfl
      · exact absurd (h.fresh b _ hb) (Nat.lt_irrefl _)
    · rcases create_dir hb with ⟨-, rfl⟩ | ⟨-, hb⟩
      · exact absurd (h.fresh a _ ha) (Nat.lt_irrefl _)
      · exact h.single a b i ha hb
  · rcases create_dir ha with ⟨-, rfl⟩ | ⟨-, ha⟩
    · exact Nat.lt_succ_self _
    · exact Nat.lt_succ_of_lt (h.fresh a i ha)

theorem Files.Once.rename (h : f.Once) : (f.rename oldName newName).Once := by
  refine ⟨fun a b i ha hb => ?_, fun a i ha => ?_⟩
  · rcases rename_dir ha with ⟨hnew, ha'⟩ | ⟨-, haold, ha'⟩
    · rcases rename_dir hb with ⟨hnew', -⟩ | ⟨-, hbold, hb'⟩
      · rw [hnew, hnew']
      · exact absurd (h.single b oldName i hb' ha') hbold
    · rcases rename_dir hb with ⟨-, hb'⟩ | ⟨-, -, hb'⟩
      · exact absurd (h.single a oldName i ha' hb') haold
      · exact h.single a b i ha' hb'
  · rcases rename_dir ha with ⟨-, ha⟩ | ⟨-, -, ha⟩
    · exact h.fresh oldName i ha
    · exact h.fresh a i ha

theorem Files.Once.unlink (h : f.Once) : (f.unlink name).Once :=
  ⟨fun a b i ha hb => h.single a b i (unlink_dir ha).2 (unlink_dir hb).2, fun a i ha => h.fresh a i (unlink_dir ha).2⟩

end

end Inodes
