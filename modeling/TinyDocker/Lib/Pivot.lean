import TinyDocker.Lib.MountView
import TinyDocker.Lib.TreeRemoval

/-!
# Changing the root of a mount namespace

A recursive bind mount of a directory onto itself copies the mounts of its tree; `pivot_root` makes the
mount at the new root the root of the namespace and moves the old tree to a directory of the new one;
`umount2(MNT_DETACH)` takes a mount away together with all that hangs on it.  File system 0 is the root at
the start, which no entry of the table covers.

Principal results: `rbind_loc` — the recursive bind mount changes nothing to see; `newRoot_loc` — after all
three calls every path stands for what the path below the new root stood for.
-/

set_option autoImplicit false

namespace MountSpace

/-- The mounts that a recursive bind mount of `d` copies. -/
def Space.copies (sp : Space) (d : Path) : List Mount :=
  match covering sp.table d with
  | none => sp.table.filter fun m => d.isPrefixOf m.path
  | some (_, _, after) => after.filter fun m => d.isPrefixOf m.path

/-- `mount(d, d, MS_BIND | MS_REC)`. -/
def Space.rbind (sp : Space) (d : Path) : Space :=
  { sp with table := sp.table ++ ⟨d, (sp.loc d).1, (sp.loc d).2⟩ :: sp.copies d }

/-- A mount seen from the new root. -/
def Mount.rebase (d : Path) (m : Mount) : Mount := { m with path := m.path.drop d.length }

/-- A mount of the old tree. -/
def Mount.shift (old : Path) (m : Mount) : Mount := { m with path := old ++ m.path }

/-- `pivot_root(new, new ++ old)`. -/
def Space.pivotRoot (sp : Space) (new old : Path) : Except Errno Space :=
  if new = [] then .error .EBUSY
  else match covering sp.table new with
    | none => .error .EINVAL
    | some (before, m, after) =>
      if m.path ≠ new then .error .EINVAL
      else .ok { sp with table :=
        ⟨[], m.fs, m.sub⟩ :: (after.filter fun x => new.isPrefixOf x.path).map (Mount.rebase new) ++
          ⟨old, 0, []⟩ :: (before ++ after.filter fun x => !new.isPrefixOf x.path).map (Mount.shift old) }

/-- `umount2(p, MNT_DETACH)`. -/
def Space.detach (sp : Space) (p : Path) : Except Errno Space :=
  match covering sp.table p with
  | none => .error .EINVAL
  | some (before, m, after) =>
    if m.path ≠ p then .error .EINVAL
    else .ok { sp with table := before ++ after.filter fun x => !p.isPrefixOf x.path }

theorem Space.detach_obj {sp sp' : Space} {p : Path} (h : sp.detach p = .ok sp') : sp'.obj = sp.obj := by
  unfold Space.detach at h
  split at h
  · cases h
  split at h
  · cases h
  · cases h
    rfl

/-- A new file system, mounted on a directory. -/
def Space.mountNew (sp : Space) (content : Path → Option Obj) (target : Path) : Space :=
  { obj := fun fs q => if fs = sp.nextFs then content q else sp.obj fs q
    table := sp.table ++ [⟨target, sp.nextFs, []⟩]
    nextFs := sp.nextFs + 1 }

/-! ## Searching in parts of the table -/

theorem splitLast_eq_none {α : Type} {f : α → Bool} {l : List α} (h : ∀ x ∈ l, f x = false) :
    splitLast f l = none := by
  cases hs : splitLast f l with
  | none => rfl
  | some r =>
    obtain ⟨hl, hm, -⟩ := splitLast_some (a := r.1) (m := r.2.1) (b := r.2.2) hs
    have hmem : r.2.1 ∈ l := hl ▸ List.mem_append_right _ List.mem_cons_self
    rw [h _ hmem] at hm
    cases hm

/-- The last one of two lists is in the second if there is one. -/
theorem splitLast_append {α : Type} (f : α → Bool) : ∀ l l' : List α, splitLast f (l ++ l') =
    match splitLast f l' with
    | some (a, m, b) => some (l ++ a, m, b)
    | none => (splitLast f l).map fun r => (r.1, r.2.1, r.2.2 ++ l')
  | [], l' => by
    cases hs : splitLast f l' with
    | none => simp [hs, splitLast]
    | some r => simp [hs]
  | x :: l, l' => by
    have ih := splitLast_append f l l'
    rw [List.cons_append, splitLast, ih]
    cases splitLast f l' with
    | some r => rfl
    | none =>
      rw [splitLast]
      cases splitLast f l with
      | some r => rfl
      | none =>
        by_cases hx : f x = true
        · simp [hx]
        · simp [hx]

theorem splitLast_map {α β : Type} (f : β → Bool) (g : α → β) : ∀ l : List α, splitLast f (l.map g) =
    (splitLast (fun x => f (g x)) l).map fun r => (r.1.map g, g r.2.1, r.2.2.map g)
  | [] => rfl
  | x :: l => by
    have ih := splitLast_map f g l
    rw [List.map_cons, splitLast, splitLast, ih]
    cases splitLast (fun x => f (g x)) l with
    | some r => rfl
    | none =>
      by_cases hx : f (g x) = true
      · simp [hx]
      · simp [hx]

/-- The mount that covers a path, by itself. -/
def topmost (table : List Mount) (p : Path) : Option Mount := (covering table p).map fun r => r.2.1

/-- What a path stands for below a mount. -/
def Mount.at (m : Mount) (p : Path) : Nat × Path := (m.fs, m.sub ++ p.drop m.path.length)

theorem Space.loc_eq (sp : Space) (p : Path) :
    sp.loc p = ((topmost sp.table p).map fun m => m.at p).getD (0, p) := by
  unfold Space.loc topmost
  cases covering sp.table p with
  | none => rfl
  | some r => rfl

theorem topmost_some {t : List Mount} {p : Path} {m : Mount} (h : topmost t p = some m) :
    m ∈ t ∧ m.path <+: p := by
  obtain ⟨r, hr, rfl⟩ := Option.map_eq_some_iff.1 h
  obtain ⟨ht, hpre, -⟩ := splitLast_some (a := r.1) (m := r.2.1) (b := r.2.2) hr
  refine ⟨?_, List.isPrefixOf_iff_prefix.1 hpre⟩
  rw [ht]
  exact List.mem_append_right _ List.mem_cons_self

theorem topmost_append (t t' : List Mount) (p : Path) :
    topmost (t ++ t') p = (topmost t' p).or (topmost t p) := by
  unfold topmost covering
  rw [splitLast_append]
  cases splitLast (fun m : Mount => m.path.isPrefixOf p) t' with
  | some r => rfl
  | none =>
    cases splitLast (fun m : Mount => m.path.isPrefixOf p) t with
    | none => rfl
    | some r => rfl

theorem topmost_eq_none {t : List Mount} {p : Path} (h : ∀ m ∈ t, ¬ m.path <+: p) : topmost t p = none := by
  unfold topmost covering
  rw [splitLast_eq_none fun m hm => Bool.eq_false_iff.2 fun hpre => h m hm (List.isPrefixOf_iff_prefix.1 hpre)]
  rfl

theorem topmost_cons (m : Mount) (t : List Mount) (p : Path) :
    topmost (m :: t) p = (topmost t p).or (if m.path <+: p then some m else none) := by
  rw [← List.singleton_append, topmost_append]
  congr 1
  unfold topmost covering splitLast
  simp only [splitLast]
  by_cases hm : m.path <+: p
  · simp [hm]
  · simp [hm]

/-- Mounts that are out of the way can be left out. -/
theorem topmost_filter {t : List Mount} {p : Path} {f : Mount → Bool}
    (h : ∀ m ∈ t, m.path <+: p → f m = true) : topmost (t.filter f) p = topmost t p := by
  induction t with
  | nil => rfl
  | cons m t ih =>
    have ih := ih fun x hx => h x (List.mem_cons_of_mem _ hx)
    by_cases hf : f m = true
    · rw [List.filter_cons_of_pos hf, topmost_cons, topmost_cons, ih]
    · rw [List.filter_cons_of_neg hf, topmost_cons, ih, if_neg fun hm => hf (h m List.mem_cons_self hm),
        Option.or_none]

/-! ## A new file system -/

theorem Space.Numbered.loc_lt {sp : Space} (h : sp.Numbered) (p : Path) : (sp.loc p).1 < sp.nextFs := by
  unfold Space.loc
  split
  · exact h.pos
  · rename_i before m after hcov
    refine h.mounts m ?_
    rw [(splitLast_some hcov).1]
    exact List.mem_append_right _ List.mem_cons_self

theorem mountNew_loc (sp : Space) (content : Path → Option Obj) (target p : Path) :
    (sp.mountNew content target).loc p =
      if target <+: p then (sp.nextFs, p.drop target.length) else sp.loc p := by
  have htable : (sp.mountNew content target).table = sp.table ++ [⟨target, sp.nextFs, []⟩] := rfl
  rw [Space.loc_eq, htable, topmost_append, topmost_cons]
  by_cases hp : target <+: p
  · rw [if_pos hp, if_pos hp]
    rfl
  · rw [if_neg hp, if_neg hp, Space.loc_eq sp]
    rfl

theorem mountNew_mountedAt {sp : Space} {content : Path → Option Obj} {target p : Path} (hp : ¬ target <+: p) :
    mountedAt (sp.mountNew content target).table p = mountedAt sp.table p := by
  have htable : (sp.mountNew content target).table = sp.table ++ [⟨target, sp.nextFs, []⟩] := rfl
  rw [mountedAt, mountedAt, htable, covering_append_of_not hp]
  cases covering sp.table p with
  | none => rfl
  | some r => rfl

/-! ## The recursive bind mount -/

section

variable {sp : Space} {d p : Path}

theorem copies_below {m : Mount} (hm : m ∈ sp.copies d) : d <+: m.path := by
  unfold Space.copies at hm
  split at hm
  · exact List.isPrefixOf_iff_prefix.1 (List.mem_filter.1 hm).2
  · exact List.isPrefixOf_iff_prefix.1 (List.mem_filter.1 hm).2

/-- Below the directory its copies decide, and then what covers the directory. -/
theorem topmost_copies (hd : d <+: p) :
    topmost sp.table p = (topmost (sp.copies d) p).or (topmost sp.table d) := by
  obtain ⟨s, rfl⟩ := hd
  have hlater : ∀ t : List Mount, (∀ x ∈ t, ¬ x.path <+: d) →
      topmost (t.filter fun m => d.isPrefixOf m.path) (d ++ s) = topmost t (d ++ s) := by
    intro t ht
    refine topmost_filter fun x hx hpre => List.isPrefixOf_iff_prefix.2 ?_
    rcases List.prefix_or_prefix_of_prefix hpre (List.prefix_append d s) with hle | hge
    · exact absurd hle (ht x hx)
    · exact hge
  cases hcov : covering sp.table d with
  | none =>
    have hnone : ∀ x ∈ sp.table, ¬ x.path <+: d := fun x hx hpre => by
      have := splitLast_none hcov x hx
      rw [List.isPrefixOf_iff_prefix.2 hpre] at this
      cases this
    have hcopies : sp.copies d = sp.table.filter fun m => d.isPrefixOf m.path := by
      rw [Space.copies, hcov]
    have htop : topmost sp.table d = none := by rw [topmost, hcov, Option.map_none]
    rw [hcopies, hlater sp.table hnone, htop, Option.or_none]
  | some r =>
    obtain ⟨before, m, after⟩ := r
    obtain ⟨htable, hm, hafter⟩ := splitLast_some hcov
    have hpre : m.path <+: d := List.isPrefixOf_iff_prefix.1 hm
    have hnone : ∀ x ∈ after, ¬ x.path <+: d := fun x hx hx' => by
      have := hafter x hx
      rw [List.isPrefixOf_iff_prefix.2 hx'] at this
      cases this
    have hcopies : sp.copies d = after.filter fun m => d.isPrefixOf m.path := by
      rw [Space.copies, hcov]
    have htop : topmost sp.table d = some m := by rw [topmost, hcov, Option.map_some]
    rw [hcopies, hlater after hnone, htop, htable, topmost_append, topmost_cons,
      if_pos (hpre.trans (List.prefix_append d s))]
    cases topmost after (d ++ s) with
    | some x => rfl
    | none => rfl

/-- What covers a path goes on below it. -/
theorem loc_append (sp : Space) (d s : Path) : ((topmost sp.table d).map fun m => m.at (d ++ s)).getD (0, d ++ s) =
    ((sp.loc d).1, (sp.loc d).2 ++ s) := by
  rw [Space.loc_eq]
  cases htop : topmost sp.table d with
  | none => rfl
  | some m =>
    simp only [Option.map_some, Option.getD_some, Mount.at, Prod.mk.injEq, true_and, List.append_assoc]
    rw [List.drop_append_of_le_length (topmost_some htop).2.length_le]

/-- Below the directory its location and the copies decide. -/
theorem loc_copies (hd : d <+: p) : sp.loc p =
    ((topmost (⟨d, (sp.loc d).1, (sp.loc d).2⟩ :: sp.copies d) p).map fun m => m.at p).getD (0, p) := by
  rw [Space.loc_eq sp p, topmost_copies hd, topmost_cons, if_pos hd]
  cases topmost (sp.copies d) p with
  | some m => rfl
  | none =>
    obtain ⟨s, rfl⟩ := hd
    rw [Option.none_or, Option.none_or, loc_append]
    simp only [Option.map_some, Option.getD_some, Mount.at, List.drop_left]

/-- **A recursive bind mount of a directory onto itself changes nothing to see.** -/
theorem rbind_loc (sp : Space) (d p : Path) : (sp.rbind d).loc p = sp.loc p := by
  have htable : (sp.rbind d).table = sp.table ++ ⟨d, (sp.loc d).1, (sp.loc d).2⟩ :: sp.copies d := rfl
  rw [Space.loc_eq (sp.rbind d), htable, topmost_append]
  by_cases hd : d <+: p
  · have hloc : sp.loc p = _ := loc_copies hd
    rw [topmost_cons, if_pos hd] at hloc ⊢
    rw [hloc]
    cases topmost (sp.copies d) p with
    | some m => rfl
    | none => rfl
  · have hnew : topmost (⟨d, (sp.loc d).1, (sp.loc d).2⟩ :: sp.copies d) p = none := by
      refine topmost_eq_none fun m hm hpre => hd ?_
      rcases List.mem_cons.1 hm with rfl | hm
      · exact hpre
      · exact (copies_below hm).trans hpre
    rw [hnew, Option.none_or, Space.loc_eq sp]

/-- What is seen at a path below a mount. -/
def Mount.show (m : Mount) (obj : Nat → Path → Option Obj) (p : Path) : Option Obj :=
  if p = m.path then some .dir else obj (m.at p).1 (m.at p).2

theorem Space.look_eq (sp : Space) (p : Path) :
    sp.look p = ((topmost sp.table p).map fun m => m.show sp.obj p).getD (sp.obj 0 p) := by
  unfold Space.look topmost
  cases covering sp.table p with
  | none => rfl
  | some r => rfl

theorem copies_not_above {m : Mount} (hm : m ∈ sp.copies d) : ¬ m.path <+: d := by
  have hbelow := copies_below hm
  unfold Space.copies at hm
  split at hm
  · rename_i hnone
    intro hpre
    have hno := splitLast_none hnone m (List.mem_filter.1 hm).1
    rw [List.isPrefixOf_iff_prefix.2 hpre] at hno
    cases hno
  · rename_i before x after hcov
    intro hpre
    have hno := (splitLast_some hcov).2.2 m (List.mem_filter.1 hm).1
    rw [List.isPrefixOf_iff_prefix.2 hpre] at hno
    cases hno

theorem mountedAt_eq (table : List Mount) (p : Path) :
    mountedAt table p = ((topmost table p).map fun m => decide (m.path = p)).getD false := by
  unfold mountedAt topmost
  cases covering table p with
  | none => rfl
  | some r => rfl

/-- Below a mount its file system decides. -/
theorem look_of_not_mountedAt {sp : Space} {p : Path} (h : mountedAt sp.table p = false) :
    sp.look p = sp.obj (sp.loc p).1 (sp.loc p).2 := by
  rw [mountedAt_eq] at h
  rw [Space.look_eq, Space.loc_eq]
  cases htop : topmost sp.table p with
  | none => rfl
  | some m =>
    rw [htop] at h
    simp only [Option.map_some, Option.getD_some, decide_eq_false_iff_not] at h ⊢
    exact if_neg (Ne.symm h)

theorem look_of_mountedAt {sp : Space} {p : Path} (h : mountedAt sp.table p = true) :
    sp.look p = some .dir := by
  rw [mountedAt_eq] at h
  rw [Space.look_eq]
  cases htop : topmost sp.table p with
  | none =>
    rw [htop] at h
    cases h
  | some m =>
    rw [htop] at h
    simp only [Option.map_some, Option.getD_some, decide_eq_true_eq] at h ⊢
    exact if_pos h.symm

/-- A child on which nothing is mounted lies in the file system of its directory. -/
theorem loc_child {c : CText.Text} (h : mountedAt sp.table (d ++ [c]) = false) :
    sp.loc (d ++ [c]) = ((sp.loc d).1, (sp.loc d).2 ++ [c]) := by
  have htop : topmost sp.table (d ++ [c]) = topmost sp.table d := by
    rw [mountedAt_eq] at h
    rw [topmost_copies (List.prefix_append d [c])] at h ⊢
    cases hcopy : topmost (sp.copies d) (d ++ [c]) with
    | none => rw [Option.none_or]
    | some m =>
      -- a copy lies below `d`, but not at the child, so it would be at `d` itself
      obtain ⟨hmem, hpre⟩ := topmost_some hcopy
      rw [hcopy, Option.some_or, Option.map_some, Option.getD_some, decide_eq_false_iff_not] at h
      have hlt : m.path.length < (d ++ [c]).length :=
        Nat.lt_of_le_of_ne hpre.length_le fun heq => h (hpre.eq_of_length heq)
      rw [List.length_append, List.length_singleton] at hlt
      have hsame := (copies_below hmem).eq_of_length_le (Nat.le_of_lt_succ hlt)
      exact absurd (hsame ▸ List.prefix_refl d) (copies_not_above hmem)
  rw [Space.loc_eq, htop]
  exact loc_append sp d [c]

/-- A mount at a proper path below the directory is one of its copies. -/
theorem mountedAt_rbind (hne : p ≠ d) : mountedAt (sp.rbind d).table p = mountedAt sp.table p := by
  have htable : (sp.rbind d).table = sp.table ++ ⟨d, (sp.loc d).1, (sp.loc d).2⟩ :: sp.copies d := rfl
  rw [mountedAt_eq, mountedAt_eq, htable, topmost_append]
  by_cases hd : d <+: p
  · rw [topmost_cons, if_pos hd, topmost_copies hd]
    cases topmost (sp.copies d) p with
    | some m => rfl
    | none =>
      rw [Option.none_or, Option.none_or, Option.some_or]
      have habove : ∀ m, topmost sp.table d = some m → m.path ≠ p := by
        rintro m hm rfl
        exact hne ((topmost_some hm).2.eq_of_length_le hd.length_le)
      cases htop : topmost sp.table d with
      | none => exact decide_eq_false (Ne.symm hne)
      | some m =>
        simp only [Option.map_some, Option.getD_some, decide_eq_false (habove m htop),
          decide_eq_false (Ne.symm hne)]
  · have hnew : topmost (⟨d, (sp.loc d).1, (sp.loc d).2⟩ :: sp.copies d) p = none := by
      refine topmost_eq_none fun m hm hpre => hd ?_
      rcases List.mem_cons.1 hm with rfl | hm
      · exact hpre
      · exact (copies_below hm).trans hpre
    rw [hnew, Option.none_or]

/-- The directory itself is the root of a mount now. -/
theorem mountedAt_rbind_self (sp : Space) (d : Path) : mountedAt (sp.rbind d).table d = true := by
  have htable : (sp.rbind d).table = sp.table ++ ⟨d, (sp.loc d).1, (sp.loc d).2⟩ :: sp.copies d := rfl
  rw [mountedAt_eq, htable, topmost_append, topmost_cons, if_pos (List.prefix_refl d),
    topmost_eq_none fun m hm => copies_not_above hm, Option.none_or, Option.some_or]
  exact decide_eq_true rfl

theorem rbind_look_dir (h : sp.look p = some .dir) : (sp.rbind d).look p = some .dir := by
  by_cases hne : p = d
  · rw [hne]
    exact look_of_mountedAt (mountedAt_rbind_self sp d)
  · cases hm : mountedAt sp.table p with
    | true => exact look_of_mountedAt ((mountedAt_rbind hne).trans hm)
    | false =>
      rw [look_of_not_mountedAt ((mountedAt_rbind hne).trans hm), rbind_loc]
      rw [look_of_not_mountedAt hm] at h
      exact h

theorem realDirs_rbind : ∀ {rest cur : Path}, RealDirs sp cur rest → RealDirs (sp.rbind d) cur rest
  | [], _, _ => trivial
  | _ :: _, _, h => ⟨rbind_look_dir h.1, realDirs_rbind h.2⟩

/-! ## The new root -/

theorem rebase_path {m : Mount} (hm : d <+: m.path) : d ++ (m.rebase d).path = m.path := by
  obtain ⟨r, hr⟩ := hm
  rw [Mount.rebase, ← hr, List.drop_left]

theorem rebase_at {m : Mount} (hm : d <+: m.path) (p : Path) : (m.rebase d).at p = m.at (d ++ p) := by
  have hlen : m.path.length = d.length + (m.rebase d).path.length := by
    rw [← rebase_path hm, List.length_append]
  unfold Mount.at
  rw [hlen, List.drop_append, List.drop_eq_nil_of_le (Nat.le_add_right _ _), List.nil_append,
    Nat.add_sub_cancel_left]
  rfl

theorem rebase_show {m : Mount} (hm : d <+: m.path) (obj : Nat → Path → Option Obj) (p : Path) :
    (m.rebase d).show obj p = m.show obj (d ++ p) := by
  have hiff : p = (m.rebase d).path ↔ d ++ p = m.path := by
    rw [← rebase_path hm, List.append_cancel_left_eq]
  unfold Mount.show
  rw [rebase_at hm]
  simp only [hiff]

theorem topmost_rebase {t : List Mount} (ht : ∀ m ∈ t, d <+: m.path) (p : Path) :
    topmost (t.map (Mount.rebase d)) p = (topmost t (d ++ p)).map (Mount.rebase d) := by
  unfold topmost covering
  have hsearch : splitLast (fun m : Mount => (m.rebase d).path.isPrefixOf p) t =
      splitLast (fun m : Mount => m.path.isPrefixOf (d ++ p)) t := by
    refine splitLast_congr fun m hm => ?_
    rw [Bool.eq_iff_iff, List.isPrefixOf_iff_prefix, List.isPrefixOf_iff_prefix, ← rebase_path (ht m hm),
      List.prefix_append_right_inj]
  rw [splitLast_map, hsearch]
  cases splitLast (fun m : Mount => m.path.isPrefixOf (d ++ p)) t with
  | none => rfl
  | some r => rfl

/-- The table that is left: the mount at the new root, and the copies. -/
def newTable (sp : Space) (d : Path) : List Mount :=
  ⟨[], (sp.loc d).1, (sp.loc d).2⟩ :: (sp.copies d).map (Mount.rebase d)

/-- `pivot_root` and the detach after a recursive bind mount. -/
theorem pivot_detach {sp' : Space} (htable : sp'.table = (sp.rbind d).table) (hd : d ≠ [])
    (hroot : ∀ m ∈ sp.table, m.path ≠ []) (old : Path) :
    ∃ sp₁, sp'.pivotRoot d old = .ok sp₁ ∧ sp₁.detach old = .ok { sp' with table := newTable sp d } := by
  have hbelow : (sp.copies d).filter (fun x => d.isPrefixOf x.path) = sp.copies d :=
    List.filter_eq_self.2 fun m hm => List.isPrefixOf_iff_prefix.2 (copies_below hm)
  have hrest : (sp.copies d).filter (fun x => !d.isPrefixOf x.path) = [] := by
    refine List.filter_eq_nil_iff.2 fun m hm => ?_
    rw [List.isPrefixOf_iff_prefix.2 (copies_below hm)]
    exact Bool.false_ne_true
  have hcov : covering sp'.table d = some (sp.table, ⟨d, (sp.loc d).1, (sp.loc d).2⟩, sp.copies d) := by
    have hnone : splitLast (fun m : Mount => m.path.isPrefixOf d) (sp.copies d) = none :=
      splitLast_eq_none fun m hm => Bool.eq_false_iff.2 fun hpre =>
        copies_not_above hm (List.isPrefixOf_iff_prefix.1 hpre)
    have hself : d.isPrefixOf d = true := List.isPrefixOf_iff_prefix.2 (List.prefix_refl d)
    have htail : splitLast (fun m : Mount => m.path.isPrefixOf d)
        (⟨d, (sp.loc d).1, (sp.loc d).2⟩ :: sp.copies d) =
          some ([], ⟨d, (sp.loc d).1, (sp.loc d).2⟩, sp.copies d) := by
      simp only [splitLast, hnone, hself, ↓reduceIte]
    have hbind : (sp.rbind d).table = sp.table ++ ⟨d, (sp.loc d).1, (sp.loc d).2⟩ :: sp.copies d := rfl
    rw [htable, hbind, covering, splitLast_append, htail]
    simp only [List.append_nil]
  refine ⟨{ sp' with table := newTable sp d ++ ⟨old, 0, []⟩ :: sp.table.map (Mount.shift old) }, ?_, ?_⟩
  · unfold Space.pivotRoot
    simp only [if_neg hd, hcov, ne_eq, not_true_eq_false, ↓reduceIte, hbelow, hrest, List.append_nil]
    rfl
  · -- the youngest mount at the old root is the old root itself
    have hshift : splitLast (fun m : Mount => m.path.isPrefixOf old) (sp.table.map (Mount.shift old)) = none := by
      refine splitLast_eq_none fun x hx => Bool.eq_false_iff.2 fun hpre => ?_
      obtain ⟨m, hm, rfl⟩ := List.mem_map.1 hx
      obtain ⟨r, hr⟩ := List.isPrefixOf_iff_prefix.1 hpre
      rw [Mount.shift, List.append_assoc, List.append_right_eq_self, List.append_eq_nil_iff] at hr
      exact hroot m hm hr.1
    have hself : old.isPrefixOf old = true := List.isPrefixOf_iff_prefix.2 (List.prefix_refl old)
    have htail : splitLast (fun m : Mount => m.path.isPrefixOf old)
        (⟨old, 0, []⟩ :: sp.table.map (Mount.shift old)) =
          some ([], ⟨old, 0, []⟩, sp.table.map (Mount.shift old)) := by
      simp only [splitLast, hshift, hself, ↓reduceIte]
    have hgone : (sp.table.map (Mount.shift old)).filter (fun x => !old.isPrefixOf x.path) = [] := by
      refine List.filter_eq_nil_iff.2 fun x hx => ?_
      obtain ⟨m, -, rfl⟩ := List.mem_map.1 hx
      have hpre : old.isPrefixOf (m.shift old).path = true :=
        List.isPrefixOf_iff_prefix.2 (List.prefix_append old m.path)
      rw [hpre]
      exact Bool.false_ne_true
    unfold Space.detach covering
    simp only [splitLast_append, htail, ne_eq, not_true_eq_false, ↓reduceIte, hgone, List.append_nil]

theorem topmost_newTable (p : Path) : topmost (newTable sp d) p =
    (topmost (⟨d, (sp.loc d).1, (sp.loc d).2⟩ :: sp.copies d) (d ++ p)).map (Mount.rebase d) := by
  have hbelow : ∀ m ∈ (⟨d, (sp.loc d).1, (sp.loc d).2⟩ :: sp.copies d : List Mount), d <+: m.path := by
    intro m hm
    rcases List.mem_cons.1 hm with rfl | hm
    · exact List.prefix_refl d
    · exact copies_below hm
  rw [← topmost_rebase hbelow]
  simp only [newTable, List.map_cons, Mount.rebase, List.drop_length]

/-- **Inside, every path stands for what the path below the new root stood for.** -/
theorem newRoot_loc {sp₂ : Space} (htable : sp₂.table = newTable sp d) (p : Path) :
    sp₂.loc p = sp.loc (d ++ p) := by
  rw [Space.loc_eq, htable, topmost_newTable, loc_copies (List.prefix_append d p), topmost_cons,
    if_pos (List.prefix_append d p)]
  have hat : ∀ m : Mount, d <+: m.path → (m.rebase d).at p = m.at (d ++ p) := fun m hm => rebase_at hm p
  cases htop : topmost (sp.copies d) (d ++ p) with
  | none => exact hat _ (List.prefix_refl d)
  | some m => exact hat m (copies_below (topmost_some htop).1)

theorem mountedAt_newTable (p : Path) :
    mountedAt (newTable sp d) p = mountedAt (sp.rbind d).table (d ++ p) := by
  have htable : (sp.rbind d).table = sp.table ++ ⟨d, (sp.loc d).1, (sp.loc d).2⟩ :: sp.copies d := rfl
  have hself : ∀ m : Mount, d <+: m.path → (decide ((m.rebase d).path = p)) = decide (m.path = d ++ p) := by
    intro m hm
    rw [Bool.eq_iff_iff, decide_eq_true_eq, decide_eq_true_eq, ← rebase_path hm, List.append_cancel_left_eq]
  rw [mountedAt_eq, mountedAt_eq, htable, topmost_append, topmost_newTable, topmost_cons,
    if_pos (List.prefix_append d p)]
  cases htop : topmost (sp.copies d) (d ++ p) with
  | none => exact hself _ (List.prefix_refl d)
  | some m => exact hself m (copies_below (topmost_some htop).1)

/-- Inside, a path shows what the path below the new root shows after the bind mount. -/
theorem newRoot_look {sp' : Space} (htable : sp'.table = (sp.rbind d).table) (p : Path) :
    ({ sp' with table := newTable sp d } : Space).look p = sp'.look (d ++ p) := by
  have hbind : (sp.rbind d).table = sp.table ++ ⟨d, (sp.loc d).1, (sp.loc d).2⟩ :: sp.copies d := rfl
  rw [Space.look_eq, Space.look_eq sp', htable, hbind, topmost_append]
  simp only
  rw [topmost_newTable, topmost_cons, if_pos (List.prefix_append d p)]
  cases htop : topmost (sp.copies d) (d ++ p) with
  | none => exact rebase_show (List.prefix_refl d) sp'.obj p
  | some m => exact rebase_show (copies_below (topmost_some htop).1) sp'.obj p

end

/-! ## Further mounts over a chain of directories -/

section

variable {sp sp' : Space} {more : List Mount}

theorem Keeps.look_dir (hk : Keeps sp sp') (hn : sp.Numbered) (htable : sp'.table = sp.table ++ more) {p : Path}
    (hover : ∀ m ∈ more, m.path <+: p → m.path = p) (h : sp.look p = some .dir) : sp'.look p = some .dir := by
  cases htop : topmost more p with
  | some m =>
    obtain ⟨hm, hpre⟩ := topmost_some htop
    refine look_of_mountedAt ?_
    rw [mountedAt_eq, htable, topmost_append, htop]
    exact decide_eq_true (hover m hm hpre)
  | none =>
    rw [Space.look_eq] at h ⊢
    rw [htable, topmost_append, htop, Option.none_or]
    cases hbase : topmost sp.table p with
    | none =>
      rw [hbase] at h
      exact hk.dirs 0 p hn.pos h
    | some m =>
      rw [hbase] at h
      simp only [Option.map_some, Option.getD_some, Mount.show] at h ⊢
      split at h
      · rename_i hpath
        rw [if_pos hpath]
      · rename_i hpath
        rw [if_neg hpath]
        exact hk.dirs _ _ (hn.mounts m (topmost_some hbase).1) h

/-- **A chain of real directories stays one** when mounts are added that hide none of it. -/
theorem Keeps.realDirs_over (hk : Keeps sp sp') (hn : sp.Numbered) (htable : sp'.table = sp.table ++ more) :
    ∀ {rest cur : Path}, (∀ m ∈ more, ∀ p, p <+: cur ++ rest → m.path <+: p → m.path = p) →
      RealDirs sp cur rest → RealDirs sp' cur rest
  | [], _, _, _ => trivial
  | c :: rest, cur, hover, h => by
    have hsplit : cur ++ c :: rest = cur ++ [c] ++ rest := by
      rw [List.append_assoc, List.singleton_append]
    rw [hsplit] at hover
    refine ⟨hk.look_dir hn htable (fun m hm => hover m hm _ (List.prefix_append _ _)) h.1, ?_⟩
    exact hk.realDirs_over hn htable hover h.2

end

end MountSpace
