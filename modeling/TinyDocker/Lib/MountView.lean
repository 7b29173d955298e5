import Mathlib.Data.List.Basic
import TinyDocker.Lib.MountSpace

/-!
# The mounts that matter below a directory

What a path at or below a directory `d` stands for, and whether something can be unmounted there,
depends only on the mounts on the way to `d` and below it.  `Space.view d` keeps these; mounts that come
and go elsewhere leave the view as it is.

`Keeps` compares the trees: file systems in use keep their directories, new file systems may come.

Principal results: `realDirs_view` — a chain of real directories below `d` is one in the view;
`umountAt_relevant` — an unmount that works in the view works in the table, and commutes with taking the
view.
-/

set_option autoImplicit false

namespace MountSpace

/-- The mount is on the way to `d`, at it, or below it. -/
def concerns (d : Path) (m : Mount) : Bool := m.path.isPrefixOf d || d.isPrefixOf m.path

def relevant (d : Path) (table : List Mount) : List Mount := table.filter (concerns d)

def Space.view (sp : Space) (d : Path) : Space := { sp with table := relevant d sp.table }

theorem splitLast_filter {α : Type} {f g : α → Bool} (hfg : ∀ x, f x = true → g x = true) :
    ∀ l : List α, splitLast f (l.filter g) =
      (splitLast f l).map fun r => (r.1.filter g, r.2.1, r.2.2.filter g)
  | [] => rfl
  | x :: l => by
    have ih := splitLast_filter hfg l
    by_cases hg : g x = true
    · rw [List.filter_cons_of_pos hg]
      simp only [splitLast, ih]
      cases splitLast f l with
      | none =>
        by_cases hf : f x = true
        · simp [hf]
        · simp [hf]
      | some r => simp [hg]
    · have hf : f x = false := Bool.eq_false_iff.2 fun hf => hg (hfg x hf)
      rw [List.filter_cons_of_neg hg, ih]
      simp only [splitLast, hf]
      cases splitLast f l with
      | none => rfl
      | some r => simp [hg]

section View

variable {d p : Path} {table : List Mount} {sp : Space}

theorem concerns_of_isPrefix (hd : d <+: p) {m : Mount} (hm : m.path <+: p) : concerns d m = true := by
  rw [concerns, Bool.or_eq_true, List.isPrefixOf_iff_prefix, List.isPrefixOf_iff_prefix]
  exact List.prefix_or_prefix_of_prefix hm hd

theorem concerns_of_below {m : Mount} (hm : d <+: m.path) : concerns d m = true := by
  rw [concerns, Bool.or_eq_true, List.isPrefixOf_iff_prefix, List.isPrefixOf_iff_prefix]
  exact Or.inr hm

theorem covering_relevant (hd : d <+: p) (table : List Mount) :
    covering (relevant d table) p =
      (covering table p).map fun r => (relevant d r.1, r.2.1, relevant d r.2.2) :=
  splitLast_filter (fun _ hx => concerns_of_isPrefix hd (List.isPrefixOf_iff_prefix.1 hx)) table

theorem mountedAt_relevant (hd : d <+: p) (table : List Mount) :
    mountedAt (relevant d table) p = mountedAt table p := by
  unfold mountedAt
  rw [covering_relevant hd]
  cases covering table p with
  | none => rfl
  | some r => rfl

theorem look_view (hd : d <+: p) (sp : Space) : (sp.view d).look p = sp.look p := by
  unfold Space.look Space.view
  simp only
  rw [covering_relevant hd]
  cases covering sp.table p with
  | none => rfl
  | some r => rfl

/-- **Chains of real directories** are the same in the view. -/
theorem realDirs_view : ∀ {rest cur : Path}, d <+: cur → (RealDirs (sp.view d) cur rest ↔ RealDirs sp cur rest)
  | [], _, _ => Iff.rfl
  | c :: rest, cur, hd => by
    have hnext : d <+: cur ++ [c] := hd.trans (List.prefix_append _ _)
    show _ ∧ _ ↔ _ ∧ _
    rw [look_view hnext, realDirs_view hnext]

theorem relevant_append (d : Path) (t t' : List Mount) :
    relevant d (t ++ t') = relevant d t ++ relevant d t' := List.filter_append ..

theorem relevant_cons_of_not {m : Mount} (hm : concerns d m = false) (t : List Mount) :
    relevant d (m :: t) = relevant d t := List.filter_cons_of_neg (by rw [hm]; exact Bool.false_ne_true)

/-- **Unmounting below `d`** commutes with taking the view. -/
theorem umountAt_relevant (hd : d <+: p) {t : List Mount} (hu : umountAt (relevant d table) p = .ok t) :
    ∃ table', umountAt table p = .ok table' ∧ relevant d table' = t := by
  unfold umountAt at hu ⊢
  rw [covering_relevant hd] at hu
  cases hcov : covering table p with
  | none =>
    rw [hcov] at hu
    cases hu
  | some r =>
    rw [hcov] at hu
    simp only [Option.map_some] at hu ⊢
    split at hu
    · cases hu
    rename_i hpath
    rw [if_neg hpath]
    split at hu
    · cases hu
    rename_i hbusy
    have hfree : ¬ r.2.2.any (fun x => p.isPrefixOf x.path) = true := by
      intro hany
      obtain ⟨x, hx, hpx⟩ := List.any_eq_true.1 hany
      have hbelow : d <+: x.path := hd.trans (List.isPrefixOf_iff_prefix.1 hpx)
      exact hbusy (List.any_eq_true.2 ⟨x, List.mem_filter.2 ⟨hx, concerns_of_below hbelow⟩, hpx⟩)
    rw [if_neg hfree]
    cases hu
    exact ⟨_, rfl, relevant_append d r.1 r.2.2⟩

end View

/-! ## Trees that keep their directories -/

structure Keeps (sp sp' : Space) : Prop where
  next : sp.nextFs ≤ sp'.nextFs
  dirs : ∀ fs q, fs < sp.nextFs → sp.obj fs q = some .dir → sp'.obj fs q = some .dir

theorem Keeps.of_obj {sp sp' : Space} (hn : sp'.nextFs = sp.nextFs) (ho : sp'.obj = sp.obj) : Keeps sp sp' :=
  ⟨le_of_eq hn.symm, fun fs q _ hq => by rw [ho]; exact hq⟩

theorem Keeps.trans {a b c : Space} (h : Keeps a b) (h' : Keeps b c) : Keeps a c :=
  ⟨h.next.trans h'.next, fun fs q hfs hq => h'.dirs fs q (hfs.trans_le h.next) (h.dirs fs q hfs hq)⟩

theorem Grows.keeps {sp sp' : Space} (h : Grows sp sp') : Keeps sp sp' :=
  ⟨le_of_eq h.next.symm, fun fs q _ hq => h.keep fs q .dir hq⟩

theorem overlay_keeps (sp : Space) (lower target : Path) : Keeps sp (sp.overlay lower target) := by
  refine ⟨Nat.le_succ _, fun fs q hfs hq => ?_⟩
  show (if fs = sp.nextFs then _ else sp.obj fs q) = some Obj.dir
  rw [if_neg (Nat.ne_of_lt hfs)]
  exact hq

/-- Every mount shows a file system in use. -/
structure Space.Numbered (sp : Space) : Prop where
  pos : 0 < sp.nextFs
  mounts : ∀ m ∈ sp.table, m.fs < sp.nextFs

theorem Space.Numbered.subset {sp sp' : Space} (h : sp.Numbered) (hn : sp.nextFs ≤ sp'.nextFs)
    (ht : sp'.table ⊆ sp.table) : sp'.Numbered :=
  ⟨h.pos.trans_le hn, fun m hm => (h.mounts m (ht hm)).trans_le hn⟩

theorem Space.Numbered.overlay {sp : Space} (h : sp.Numbered) (lower target : Path) :
    (sp.overlay lower target).Numbered := by
  refine ⟨Nat.succ_pos _, fun m hm => ?_⟩
  rcases List.mem_append.1 hm with hm | hm
  · exact Nat.lt_succ_of_lt (h.mounts m hm)
  · rw [List.mem_singleton.1 hm]
    exact Nat.lt_succ_self _

theorem Space.Numbered.bind {sp : Space} (h : sp.Numbered) (src target : Path) :
    (sp.bind src target).Numbered := by
  refine ⟨h.pos, fun m hm => ?_⟩
  rcases List.mem_append.1 hm with hm | hm
  · exact h.mounts m hm
  · rw [List.mem_singleton.1 hm]
    show (sp.loc src).1 < sp.nextFs
    unfold Space.loc
    cases hcov : covering sp.table src with
    | none => exact h.pos
    | some r =>
      obtain ⟨htable, -, -⟩ := splitLast_some hcov
      exact h.mounts r.2.1 (by rw [htable]; simp)

/-- A chain of real directories stays one. -/
theorem Keeps.realDirs {sp sp' : Space} (hk : Keeps sp sp') (hn : sp.Numbered) (ht : sp'.table = sp.table) :
    ∀ {rest cur : Path}, RealDirs sp cur rest → RealDirs sp' cur rest
  | [], _, _ => trivial
  | c :: rest, cur, hr => by
    refine ⟨?_, hk.realDirs hn ht hr.2⟩
    have hlook := hr.1
    unfold Space.look at hlook ⊢
    rw [ht]
    cases hcov : covering sp.table (cur ++ [c]) with
    | none =>
      rw [hcov] at hlook
      exact hk.dirs 0 _ hn.pos hlook
    | some r =>
      rw [hcov] at hlook
      obtain ⟨htable, -, -⟩ := splitLast_some hcov
      simp only at hlook ⊢
      split at hlook
      · rename_i he
        rw [if_pos he]
      · rename_i he
        rw [if_neg he]
        exact hk.dirs _ _ (hn.mounts r.2.1 (by rw [htable]; simp)) hlook

/-! ## Spaces that evolve -/

/-- The directories in use are kept, and mounts go on showing file systems in use. -/
structure Evolves (sp sp' : Space) : Prop where
  keeps : Keeps sp sp'
  numbered : sp.Numbered → sp'.Numbered

theorem Evolves.refl (sp : Space) : Evolves sp sp := ⟨.of_obj rfl rfl, id⟩

theorem Evolves.trans {a b c : Space} (h : Evolves a b) (h' : Evolves b c) : Evolves a c :=
  ⟨h.keeps.trans h'.keeps, fun hn => h'.numbered (h.numbered hn)⟩

/-- Mounts go. -/
theorem Evolves.shrink {sp sp' : Space} (ho : sp'.obj = sp.obj) (hn : sp'.nextFs = sp.nextFs)
    (ht : sp'.table ⊆ sp.table) : Evolves sp sp' :=
  ⟨.of_obj hn ho, fun hnum => hnum.subset (le_of_eq hn.symm) ht⟩

theorem Grows.evolves {sp sp' : Space} (h : Grows sp sp') : Evolves sp sp' := by
  refine ⟨h.keeps, fun hnum => hnum.subset (le_of_eq h.next.symm) ?_⟩
  rw [h.table]
  exact List.Subset.refl _

theorem overlay_evolves (sp : Space) (lower target : Path) : Evolves sp (sp.overlay lower target) :=
  ⟨overlay_keeps sp lower target, fun hnum => hnum.overlay lower target⟩

theorem bind_evolves (sp : Space) (src target : Path) : Evolves sp (sp.bind src target) :=
  ⟨.of_obj rfl rfl, fun hnum => hnum.bind src target⟩

end MountSpace
