import TinyDocker.Lib.MountSpace

/-!
# Removing a tree

`removeEntries` removes the entries of a list one by one and stops at the first that cannot be removed: a
call may fail for a reason of its own, and nothing is removed on which something is mounted.  A walk that
visits children before their parents is a `PostOrder`.

Principal results: `removeEntries_erased` — a prefix of the list is gone and nothing else has changed;
`removeEntries_hangs` — what is left of the tree still hangs together.
-/

set_option autoImplicit false

namespace MountSpace

/-- Removing what is found at a path. -/
def Space.erase (sp : Space) (p : Path) : Space :=
  { sp with obj := fun fs q => if (fs, q) = sp.loc p then none else sp.obj fs q }

/-- One removal after the other; `k` counts the calls. -/
def removeEntries (fails : Nat → Bool) : Nat → Space → List Path → Space × Bool
  | _, sp, [] => (sp, true)
  | k, sp, p :: rest =>
    if fails k ∨ mountedAt sp.table p then (sp, false) else removeEntries fails (k + 1) (sp.erase p) rest

/-- Everything at or below the path, and no entry before one that is below it. -/
structure PostOrder (sp : Space) (p : Path) (l : List Path) : Prop where
  all : ∀ q, q ∈ l ↔ p <+: q ∧ sp.look q ≠ none
  order : l.Pairwise fun a b => ¬ a <+: b

/-- The entries are gone, and nothing else has changed. -/
structure Erased (sp sp' : Space) (gone : List Path) : Prop where
  table : sp'.table = sp.table
  nextFs : sp'.nextFs = sp.nextFs
  none : ∀ e ∈ gone, sp'.obj (sp.loc e).1 (sp.loc e).2 = none
  same : ∀ fs q, (∀ e ∈ gone, sp.loc e ≠ (fs, q)) → sp'.obj fs q = sp.obj fs q

theorem Space.loc_congr {sp sp' : Space} (h : sp'.table = sp.table) (p : Path) : sp'.loc p = sp.loc p := by
  unfold Space.loc
  rw [h]

theorem Erased.nothing (sp : Space) : Erased sp sp [] :=
  ⟨rfl, rfl, fun _ h => (by cases h), fun _ _ _ => rfl⟩

theorem Erased.cons {sp sp' : Space} {p : Path} {gone : List Path} (h : Erased (sp.erase p) sp' gone) :
    Erased sp sp' (p :: gone) := by
  have hloc : ∀ q, (sp.erase p).loc q = sp.loc q := Space.loc_congr rfl
  have hsame : ∀ fs q, (∀ e ∈ gone, sp.loc e ≠ (fs, q)) → sp'.obj fs q = (sp.erase p).obj fs q :=
    fun fs q hq => h.same fs q fun e he => hloc e ▸ hq e he
  refine ⟨h.table, h.nextFs, fun e he => ?_, fun fs q hq => ?_⟩
  · by_cases hlater : ∃ e' ∈ gone, sp.loc e' = sp.loc e
    · obtain ⟨e', he', heq⟩ := hlater
      have hnone := h.none e' he'
      rwa [hloc, heq] at hnone
    · have hfirst : e = p := by
        rcases List.mem_cons.1 he with rfl | he
        · rfl
        · exact absurd ⟨e, he, rfl⟩ hlater
      have hkept := hsame (sp.loc e).1 (sp.loc e).2 fun e' he' heq => hlater ⟨e', he', heq⟩
      rw [hkept, hfirst]
      exact if_pos rfl
  · rw [hsame fs q fun e he => hq e (List.mem_cons_of_mem _ he)]
    exact if_neg fun heq => hq p List.mem_cons_self heq.symm

/-- **What a walk has done when it stops.** -/
theorem removeEntries_erased (fails : Nat → Bool) : ∀ (l : List Path) (k : Nat) (sp : Space),
    ∃ gone left, l = gone ++ left ∧ Erased sp (removeEntries fails k sp l).1 gone ∧
      (∀ e ∈ gone, mountedAt sp.table e = false) ∧ ((removeEntries fails k sp l).2 = true ↔ left = [])
  | [], k, sp => ⟨[], [], rfl, Erased.nothing sp, fun _ he => (by cases he), by simp [removeEntries]⟩
  | p :: rest, k, sp => by
    unfold removeEntries
    split
    · exact ⟨[], p :: rest, rfl, Erased.nothing sp, fun _ he => (by cases he), by simp⟩
    · rename_i hgoes
      simp only [not_or, Bool.not_eq_true] at hgoes
      obtain ⟨gone, left, hl, herased, hmounts, hdone⟩ := removeEntries_erased fails rest (k + 1) (sp.erase p)
      refine ⟨p :: gone, left, by rw [hl, List.cons_append], herased.cons, fun e he => ?_, hdone⟩
      rcases List.mem_cons.1 he with rfl | he
      · exact hgoes.2
      · exact hmounts e he

/-- **When a walk succeeds.** -/
theorem removeEntries_succeeds (fails : Nat → Bool) : ∀ (l : List Path) (k : Nat) (sp : Space),
    (removeEntries fails k sp l).2 = true ↔
      (∀ i, i < l.length → fails (k + i) = false) ∧ ∀ e ∈ l, mountedAt sp.table e = false
  | [], k, sp => by simp [removeEntries]
  | p :: rest, k, sp => by
    have ih := removeEntries_succeeds fails rest (k + 1) (sp.erase p)
    unfold removeEntries
    split
    · rename_i hstop
      refine ⟨fun h => (by cases h), fun ⟨hcalls, hmounts⟩ => ?_⟩
      have hcall := hcalls 0 (Nat.zero_lt_succ _)
      have hmount := hmounts p List.mem_cons_self
      rw [Nat.add_zero] at hcall
      rw [hcall, hmount] at hstop
      simp at hstop
    · rename_i hgoes
      simp only [not_or, Bool.not_eq_true] at hgoes
      rw [ih]
      constructor
      · rintro ⟨hcalls, hmounts⟩
        refine ⟨fun i hi => ?_, fun e he => ?_⟩
        · cases i with
          | zero => exact hgoes.1
          | succ i =>
            have := hcalls i (Nat.lt_of_succ_lt_succ hi)
            rwa [Nat.add_right_comm] at this
        · rcases List.mem_cons.1 he with rfl | he
          · exact hgoes.2
          · exact hmounts e he
      · rintro ⟨hcalls, hmounts⟩
        refine ⟨fun i hi => ?_, fun e he => hmounts e (List.mem_cons_of_mem _ he)⟩
        have := hcalls (i + 1) (Nat.succ_lt_succ hi)
        rwa [Nat.add_right_comm]

theorem removeEntries_append (fails : Nat → Bool) : ∀ (l l' : List Path) (k : Nat) (sp : Space),
    removeEntries fails k sp (l ++ l') =
      if (removeEntries fails k sp l).2 then removeEntries fails (k + l.length) (removeEntries fails k sp l).1 l'
      else removeEntries fails k sp l
  | [], _, _, _ => rfl
  | p :: l, l', k, sp => by
    have ih := removeEntries_append fails l l' (k + 1) (sp.erase p)
    rw [List.cons_append, removeEntries, removeEntries]
    split
    · rfl
    · rw [ih, List.length_cons, Nat.add_right_comm, Nat.add_assoc]

/-- In a walk over the tree at a path the path itself comes last. -/
theorem PostOrder.last {sp : Space} {p : Path} {l : List Path} (hl : PostOrder sp p l) (hsome : sp.look p ≠ none) :
    ∃ front, l = front ++ [p] ∧ p ∉ front := by
  obtain ⟨front, back, rfl⟩ := List.append_of_mem ((hl.all p).2 ⟨List.prefix_refl p, hsome⟩)
  have horder := List.pairwise_append.1 hl.order
  obtain rfl : back = [] := by
    rw [List.eq_nil_iff_forall_not_mem]
    intro q hq
    have hbelow := ((hl.all q).1 (List.mem_append_right _ (List.mem_cons_of_mem _ hq))).1
    exact (List.pairwise_cons.1 horder.2.1).1 q hq hbelow
  exact ⟨front, rfl, fun hp => horder.2.2 p hp p List.mem_cons_self (List.prefix_refl p)⟩

/-- **A walk stops at a mount**, at the path itself if there is no other: all that lies below is gone. -/
theorem removeEntries_mounted {sp : Space} {p : Path} {l : List Path} (hl : PostOrder sp p l)
    (hsome : sp.look p ≠ none) (hmount : mountedAt sp.table p = true)
    (hflat : ∀ s, s ≠ [] → mountedAt sp.table (p ++ s) = false) :
    (removeEntries (fun _ => false) 0 sp l).2 = false ∧ ∀ s, s ≠ [] →
      (removeEntries (fun _ => false) 0 sp l).1.obj (sp.loc (p ++ s)).1 (sp.loc (p ++ s)).2 = none := by
  obtain ⟨front, rfl, hp⟩ := hl.last hsome
  have hfree : ∀ q ∈ front, mountedAt sp.table q = false := by
    intro q hq
    obtain ⟨s, rfl⟩ := ((hl.all q).1 (List.mem_append_left _ hq)).1
    refine hflat s fun hs => hp ?_
    rwa [hs, List.append_nil] at hq
  have hfront := (removeEntries_succeeds (fun _ => false) front 0 sp).2 ⟨fun _ _ => rfl, hfree⟩
  obtain ⟨gone, left, hsplit, herased, -, hdone⟩ := removeEntries_erased (fun _ => false) front 0 sp
  rw [hdone.1 hfront, List.append_nil] at hsplit
  have hstop : removeEntries (fun _ => false) 0 sp (front ++ [p]) =
      ((removeEntries (fun _ => false) 0 sp front).1, false) := by
    rw [removeEntries_append, if_pos hfront, removeEntries, if_pos (Or.inr ?_)]
    rw [herased.table]
    exact hmount
  rw [hstop]
  refine ⟨rfl, fun s hs => ?_⟩
  by_cases hgone : ∃ e ∈ gone, sp.loc e = sp.loc (p ++ s)
  · obtain ⟨e, he, heq⟩ := hgone
    rw [← heq]
    exact herased.none e he
  · refine (herased.same _ _ fun e he heq => hgone ⟨e, he, heq⟩).trans (obj_loc_of_look_none ?_)
    by_contra hsome'
    have hmem := (hl.all (p ++ s)).2 ⟨List.prefix_append p s, hsome'⟩
    rcases List.mem_append.1 hmem with hmem | hmem
    · exact hgone ⟨_, hsplit ▸ hmem, rfl⟩
    · exact hs (List.append_right_eq_self.1 (List.mem_singleton.1 hmem))

/-! ## Below a path with no mounts -/

theorem splitLast_congr {α : Type} {f g : α → Bool} : ∀ {l : List α}, (∀ x ∈ l, f x = g x) →
    splitLast f l = splitLast g l
  | [], _ => rfl
  | x :: l, h => by
    rw [splitLast, splitLast, splitLast_congr fun y hy => h y (List.mem_cons_of_mem _ hy),
      h x List.mem_cons_self]

section Bare

variable {sp : Space} {p : Path}

/-- Nothing is mounted at the path or below it. -/
def Space.Bare (sp : Space) (p : Path) : Prop := ∀ m ∈ sp.table, ¬ p <+: m.path

theorem Space.Bare.covering (h : sp.Bare p) (s : Path) : covering sp.table (p ++ s) = covering sp.table p := by
  refine splitLast_congr fun m hm => ?_
  rw [Bool.eq_iff_iff, List.isPrefixOf_iff_prefix, List.isPrefixOf_iff_prefix]
  refine ⟨fun hpre => ?_, fun hpre => hpre.trans (List.prefix_append _ _)⟩
  rcases List.prefix_or_prefix_of_prefix hpre (List.prefix_append p s) with hle | hge
  · exact hle
  · exact absurd hge (h m hm)

theorem Space.Bare.loc (h : sp.Bare p) (s : Path) : sp.loc (p ++ s) = ((sp.loc p).1, (sp.loc p).2 ++ s) := by
  unfold Space.loc
  rw [h.covering s]
  split
  · rfl
  · rename_i before m after hcov
    have hpre : m.path <+: p := List.isPrefixOf_iff_prefix.1 (splitLast_some hcov).2.1
    rw [List.drop_append_of_le_length hpre.length_le, List.append_assoc]

theorem Space.Bare.look (h : sp.Bare p) (s : Path) :
    sp.look (p ++ s) = sp.obj (sp.loc p).1 ((sp.loc p).2 ++ s) := by
  have hloc := h.loc s
  unfold Space.look
  unfold Space.loc at hloc ⊢
  rw [h.covering s] at hloc ⊢
  split
  · rfl
  · rename_i before m after hcov
    rw [hcov] at hloc
    simp only [Prod.mk.injEq, true_and] at hloc
    have hmem : m ∈ sp.table := by
      rw [(splitLast_some hcov).1]
      exact List.mem_append_right _ List.mem_cons_self
    have hother : p ++ s ≠ m.path := fun heq => h m hmem ⟨s, heq⟩
    rw [if_neg hother, hloc]

theorem Space.Bare.congr (h : sp.Bare p) {sp' : Space} (ht : sp'.table = sp.table) : sp'.Bare p := by
  unfold Space.Bare
  rw [ht]
  exact h

/-- **What is left hangs together**: an entry that is still there has kept the one above it. -/
theorem removeEntries_hangs {l : List Path} (hl : PostOrder sp p l) (hbare : sp.Bare p)
    (fails : Nat → Bool) (k : Nat) {s : Path} {c : CText.Text} (hparent : sp.look (p ++ s) ≠ none)
    (hleft : (removeEntries fails k sp l).1.look (p ++ (s ++ [c])) ≠ none) :
    (removeEntries fails k sp l).1.look (p ++ s) = sp.look (p ++ s) := by
  obtain ⟨gone, left, hsplit, herased, -, -⟩ := removeEntries_erased fails l k sp
  generalize (removeEntries fails k sp l).1 = sp' at herased hleft ⊢
  have hbare' := hbare.congr herased.table
  rw [hbare'.look, hbare.look, Space.loc_congr herased.table]
  rw [hbare'.look, Space.loc_congr herased.table] at hleft
  refine herased.same _ _ fun e he heq => hleft ?_
  -- the parent was removed, so the child came before it
  obtain ⟨t, rfl⟩ := ((hl.all e).1 (hsplit ▸ List.mem_append_left _ he)).1
  rw [hbare.loc, Prod.mk.injEq, List.append_cancel_left_eq] at heq
  obtain ⟨-, rfl⟩ := heq
  by_cases hchild : sp.look (p ++ (t ++ [c])) = none
  · rw [hbare.look] at hchild
    by_contra hne
    refine hne ?_
    by_cases hother : ∃ e' ∈ gone, sp.loc e' = ((sp.loc p).1, (sp.loc p).2 ++ (t ++ [c]))
    · obtain ⟨e', he', heq'⟩ := hother
      have hnone := herased.none e' he'
      rwa [heq'] at hnone
    · rw [herased.same _ _ fun e' he' heq' => hother ⟨e', he', heq'⟩]
      exact hchild
  · have hmem : p ++ (t ++ [c]) ∈ gone ++ left := by
      rw [← hsplit]
      exact (hl.all _).2 ⟨List.prefix_append _ _, hchild⟩
    rcases List.mem_append.1 hmem with hgone | hlater
    · have hnone := herased.none _ hgone
      rwa [hbare.loc] at hnone
    · have horder := hl.order
      rw [hsplit, List.pairwise_append] at horder
      refine absurd ?_ (horder.2.2 (p ++ t) he (p ++ (t ++ [c])) hlater)
      rw [← List.append_assoc]
      exact List.prefix_append _ _

end Bare

end MountSpace
