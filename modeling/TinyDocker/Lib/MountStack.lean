import Mathlib.Data.List.Basic
import TinyDocker.Lib.MountSpace

/-!
# Mounts that hang on one mountpoint

`Stack d r table`: whatever is mounted at or below the directory `d` is mounted at or below `r`, the
oldest of these mounts is at `r` itself, and no later mount hides `r`.  Mounting at or below `r` and
unmounting anything keep this.

`Detaches` is one attempt to unmount that is not refused: a mount goes, or the kernel says that there is none.

Principal results: `Stack.umount` — every successful unmount keeps a stack; `Stack.einval` — if
unmounting `r` reports that nothing is mounted there, that is so; `Stack.below_nil` — when no mount
is left at `r`, none is left below `d`.
-/

set_option autoImplicit false

namespace MountSpace

/-- The mounts at or below a directory. -/
def below (d : Path) (table : List Mount) : List Mount := table.filter fun m => d.isPrefixOf m.path

/-- How many mounts are attached at a path. -/
def countAt (p : Path) (table : List Mount) : Nat := table.countP fun m => decide (m.path = p)

theorem mem_below {d : Path} {table : List Mount} {m : Mount} :
    m ∈ below d table ↔ m ∈ table ∧ d <+: m.path := by
  simp [below, List.isPrefixOf_iff_prefix]

theorem below_append (d : Path) (t t' : List Mount) : below d (t ++ t') = below d t ++ below d t' :=
  List.filter_append ..

theorem below_eq_nil {d : Path} {table : List Mount} :
    below d table = [] ↔ ∀ m ∈ table, ¬ d <+: m.path := by
  rw [List.eq_nil_iff_forall_not_mem]
  exact ⟨fun h m hm hd => h m (mem_below.2 ⟨hm, hd⟩), fun h m hm => h m (mem_below.1 hm).1 (mem_below.1 hm).2⟩

/-! ## One unmount -/

/-- The errnos of `umount` that say there is nothing to unmount. -/
def Errno.Absent (e : Errno) : Prop := e = .EINVAL ∨ e = .ENOENT

/-- An attempt to unmount that is not refused.  `forced` is an answer of the kernel for reasons outside the
table, `target` where the path leads. -/
inductive Detaches (forced : Option Errno) (target : Except Errno Path) (table : List Mount) : List Mount → Prop
  | told {e : Errno} : forced = some e → e.Absent → Detaches forced target table table
  | noPath {e : Errno} : forced = none → target = .error e → e.Absent → Detaches forced target table table
  | notMounted {p : Path} {e : Errno} : forced = none → target = .ok p → umountAt table p = .error e → e.Absent →
      Detaches forced target table table
  | taken {p : Path} {left : List Mount} : forced = none → target = .ok p → umountAt table p = .ok left →
      Detaches forced target table left

/-! ## Stacks -/

structure Stack (d r : Path) (table : List Mount) : Prop where
  inside : ∀ x ∈ table, d <+: x.path → r <+: x.path
  base : ∀ x, (below d table).head? = some x → x.path = r
  clear : table.Pairwise fun x y => d <+: x.path → y.path <+: r → y.path = r

section Stack

variable {d r p : Path} {table table' : List Mount}

theorem Stack.empty (h : below d table = []) : Stack d r table := by
  have hno := below_eq_nil.1 h
  refine ⟨fun x hx hd => absurd hd (hno x hx), fun x hx => ?_, ?_⟩
  · rw [h] at hx; cases hx
  · have hall : table.Pairwise fun _ _ => True := List.pairwise_of_forall fun _ _ => trivial
    exact hall.imp_of_mem fun hx _ _ hd => absurd hd (hno _ hx)

/-- Mounting at or below `r`, first at `r` itself, or elsewhere without hiding `r`. -/
theorem Stack.push (h : Stack d r table) {m : Mount}
    (hin : d <+: m.path → r <+: m.path ∧ (below d table = [] → m.path = r))
    (hclear : m.path <+: r → m.path = r) : Stack d r (table ++ [m]) := by
  refine ⟨fun x hx hd => ?_, fun x hx => ?_, ?_⟩
  · rcases List.mem_append.1 hx with hx | hx
    · exact h.inside x hx hd
    · rw [List.mem_singleton.1 hx] at hd ⊢
      exact (hin hd).1
  · rw [below_append] at hx
    by_cases he : below d table = []
    · rw [he, List.nil_append] at hx
      obtain ⟨hmem, hd⟩ := mem_below.1 (List.mem_of_mem_head? hx)
      rw [List.mem_singleton.1 hmem] at hd ⊢
      exact (hin hd).2 he
    · rw [List.head?_append_of_ne_nil _ he] at hx
      exact h.base x hx
  · refine List.pairwise_append.2 ⟨h.clear, List.pairwise_singleton _ _, fun x _ y hy _ => ?_⟩
    rw [List.mem_singleton.1 hy]
    exact hclear

/-- **Unmounting keeps a stack.** -/
theorem Stack.umount (h : Stack d r table) (hu : umountAt table p = .ok table') :
    Stack d r table' := by
  obtain ⟨before, m, after, rfl, rfl, hm, hafter⟩ := umountAt_ok hu
  have hsub : List.Sublist (before ++ after) (before ++ m :: after) :=
    List.Sublist.append_left (List.sublist_cons_self m after) before
  refine ⟨fun x hx => h.inside x (hsub.subset hx), fun x hx => ?_, h.clear.sublist hsub⟩
  have hbase := h.base
  rw [below_append] at hx hbase
  by_cases hbefore : below d before = []
  · rw [hbefore, List.nil_append] at hx hbase
    by_cases hd : d <+: m.path
    · -- the oldest mount goes; nothing can be left below it
      have hhead : (below d (m :: after)).head? = some m := by
        simp [below, List.isPrefixOf_iff_prefix.2 hd]
      have hroot : p = r := hm.symm.trans (hbase m hhead)
      obtain ⟨hxin, hxd⟩ := mem_below.1 (List.mem_of_mem_head? hx)
      exact absurd (h.inside x (by simp [hxin]) hxd) (hroot ▸ hafter x hxin)
    · refine hbase x ?_
      have hskip : below d (m :: after) = below d after :=
        List.filter_cons_of_neg (by rw [List.isPrefixOf_iff_prefix]; exact hd)
      rw [hskip]
      exact hx
  · rw [List.head?_append_of_ne_nil _ hbefore] at hx hbase
    exact hbase x hx

theorem countAt_umount_le (hu : umountAt table p = .ok table') : countAt r table' ≤ countAt r table := by
  obtain ⟨before, m, after, rfl, rfl, -, -⟩ := umountAt_ok hu
  exact List.Sublist.countP_le (List.Sublist.append_left (List.sublist_cons_self m after) before)

theorem countAt_pop (hu : umountAt table r = .ok table') : countAt r table' + 1 = countAt r table := by
  obtain ⟨before, m, after, rfl, rfl, hm, -⟩ := umountAt_ok hu
  simp only [countAt, List.countP_append, List.countP_cons, hm, decide_true, if_true]
  omega

/-- When nothing is mounted at `r`, nothing is mounted below `d`. -/
theorem Stack.below_nil (h : Stack d r table) (hc : countAt r table = 0) : below d table = [] := by
  cases hb : below d table with
  | nil => rfl
  | cons x rest =>
    have hx : x.path = r := h.base x (by rw [hb]; rfl)
    have hmem : x ∈ table := (mem_below.1 (hb ▸ List.mem_cons_self)).1
    have hpos : 0 < countAt r table := List.countP_pos_iff.2 ⟨x, hmem, decide_eq_true hx⟩
    exact absurd hc (Nat.ne_of_gt hpos)

/-- `EINVAL` at `r` is no lie: nothing is mounted there. -/
theorem Stack.einval (h : Stack d r table) (hdr : d <+: r) (hu : umountAt table r = .error .EINVAL) :
    countAt r table = 0 := by
  refine List.countP_eq_zero.2 fun x hx hxr => ?_
  have hxr := of_decide_eq_true hxr
  unfold umountAt at hu
  split at hu
  · rename_i hcov
    have := splitLast_none hcov x hx
    rw [hxr, Bool.eq_false_iff] at this
    exact this (List.isPrefixOf_iff_prefix.2 (List.prefix_refl r))
  rename_i before m after hcov
  obtain ⟨rfl, hm, hafter⟩ := splitLast_some hcov
  split at hu
  · rename_i hne
    -- a mount above `r` would have to be younger than the one at `r`
    have hmr := List.isPrefixOf_iff_prefix.1 hm
    rcases List.mem_append.1 hx with hx | hx
    · have hpair := (List.pairwise_append.1 h.clear).2.2 x hx m List.mem_cons_self
      exact hne (hpair (hxr ▸ hdr) hmr)
    · rcases List.mem_cons.1 hx with rfl | hx
      · exact hne hxr
      · have := hafter x hx
        rw [hxr, Bool.eq_false_iff] at this
        exact this (List.isPrefixOf_iff_prefix.2 (List.prefix_refl r))
  · split at hu <;> cases hu

end Stack

end MountSpace
