import TinyDocker.Lib.CText

/-!
# A mount namespace

Canonical paths, file trees with symbolic links, and a mount table.  The table lists the mounts
oldest first; the mount that covers a path is the last one at or above it, so a later mount hides
what lies below its path and a mount on an occupied path is stacked.

`umountAt` is `umount(2)` at a resolved path: it removes the topmost mount there, refuses with
`EBUSY` while another mount lies below it, and reports `EINVAL` if nothing is mounted there.
`walk` is path resolution with symbolic links followed; `ensureDirs` creates a chain of directories
without following any.

Principal results: `umountAt_ok` — what a successful unmount does to the table;
`walk_realDirs` — a chain of real directories resolves to itself; `walk_noLinks` — without links
resolution cannot leave the chain; `walk_append` — resolution goes on where a first part has led;
`ensureDirs_ok`, `ensureDirs_adds` — a created chain is real, and creation only adds directories of that
chain.
-/

set_option autoImplicit false

namespace MountSpace

abbrev Path := List CText.Text

inductive Errno where
  | EINVAL
  | ENOENT
  | EBUSY
  | ENOTDIR
  | ELOOP
  | EOTHER
  deriving DecidableEq, Repr

inductive Obj where
  | dir
  | file
  | link (target : CText.Text)
  deriving DecidableEq, Repr

/-- A mount: where it is attached, and which directory of which file system it shows. -/
structure Mount where
  path : Path
  fs : Nat
  sub : Path
  deriving DecidableEq, Repr

structure Space where
  obj : Nat → Path → Option Obj
  table : List Mount
  nextFs : Nat

/-! ## The mount table -/

/-- Split at the last element with the property. -/
def splitLast {α : Type} (f : α → Bool) : List α → Option (List α × α × List α)
  | [] => none
  | x :: xs =>
    match splitLast f xs with
    | some (a, m, b) => some (x :: a, m, b)
    | none => if f x then some ([], x, xs) else none

theorem splitLast_none {α : Type} {f : α → Bool} : ∀ {l : List α}, splitLast f l = none →
    ∀ x ∈ l, f x = false
  | [], _, _, hx => by cases hx
  | y :: l, h, x, hx => by
    unfold splitLast at h
    split at h
    · cases h
    · rename_i hnone
      split at h
      · cases h
      · rename_i hy
        rcases List.mem_cons.1 hx with rfl | hx
        · simpa using hy
        · exact splitLast_none hnone x hx

theorem splitLast_some {α : Type} {f : α → Bool} : ∀ {l a b : List α} {m : α},
    splitLast f l = some (a, m, b) → l = a ++ m :: b ∧ f m = true ∧ ∀ x ∈ b, f x = false
  | [], _, _, _, h => by cases h
  | y :: l, a, b, m, h => by
    unfold splitLast at h
    split at h
    · rename_i a' m' b' hrec
      cases h
      obtain ⟨rfl, hm, hb⟩ := splitLast_some hrec
      exact ⟨rfl, hm, hb⟩
    · rename_i hnone
      split at h
      · rename_i hy
        cases h
        refine ⟨rfl, hy, fun x hx => ?_⟩
        exact splitLast_none hnone x hx
      · cases h

theorem splitLast_append_of_true {α : Type} {f : α → Bool} {m : α} (hm : f m = true) :
    ∀ l : List α, splitLast f (l ++ [m]) = some (l, m, [])
  | [] => by simp [splitLast, hm]
  | x :: l => by simp [splitLast, splitLast_append_of_true hm l]

theorem splitLast_append_of_false {α : Type} {f : α → Bool} {m : α} (hm : f m = false) :
    ∀ l : List α, splitLast f (l ++ [m]) = (splitLast f l).map fun r => (r.1, r.2.1, r.2.2 ++ [m])
  | [] => by simp [splitLast, hm]
  | x :: l => by
    have ih := splitLast_append_of_false hm l
    simp only [List.cons_append, splitLast, ih]
    cases splitLast f l with
    | none => by_cases hx : f x = true <;> simp [hx]
    | some r => rfl

/-- The mount that covers `p`, with the mounts before and after it. -/
def covering (table : List Mount) (p : Path) : Option (List Mount × Mount × List Mount) :=
  splitLast (fun m => m.path.isPrefixOf p) table

theorem covering_append {table : List Mount} {m : Mount} {p : Path} (h : m.path <+: p) :
    covering (table ++ [m]) p = some (table, m, []) := by
  have hm : m.path.isPrefixOf p = true := List.isPrefixOf_iff_prefix.2 h
  exact splitLast_append_of_true (f := fun x : Mount => x.path.isPrefixOf p) hm table

theorem covering_append_of_not {table : List Mount} {m : Mount} {p : Path} (h : ¬ m.path <+: p) :
    covering (table ++ [m]) p =
      (covering table p).map fun r => (r.1, r.2.1, r.2.2 ++ [m]) := by
  have hm : m.path.isPrefixOf p = false :=
    Bool.eq_false_iff.2 fun hp => h (List.isPrefixOf_iff_prefix.1 hp)
  exact splitLast_append_of_false (f := fun x : Mount => x.path.isPrefixOf p) hm table

/-- Whether the topmost mount over `p` is attached at `p` itself. -/
def mountedAt (table : List Mount) (p : Path) : Bool :=
  match covering table p with
  | some (_, m, _) => decide (m.path = p)
  | none => false

/-- `umount(2)` at a resolved path. -/
def umountAt (table : List Mount) (p : Path) : Except Errno (List Mount) :=
  match covering table p with
  | none => .error (if p = [] then .EBUSY else .EINVAL)
  | some (before, m, after) =>
    if m.path ≠ p then .error .EINVAL
    else if after.any (fun x => p.isPrefixOf x.path) then .error .EBUSY
    else .ok (before ++ after)

/-- **What a successful unmount does**: one mount at `p` goes, and nothing after it in the table
lies below `p` or covers it. -/
theorem umountAt_ok {table table' : List Mount} {p : Path} (h : umountAt table p = .ok table') :
    ∃ before m after, table = before ++ m :: after ∧ table' = before ++ after ∧ m.path = p ∧
      ∀ x ∈ after, ¬ p <+: x.path := by
  unfold umountAt at h
  split at h
  · cases h
  rename_i before m after hcov
  split at h
  · cases h
  rename_i hpath
  split at h
  · cases h
  rename_i hbusy
  cases h
  obtain ⟨rfl, -, -⟩ := splitLast_some hcov
  refine ⟨before, m, after, rfl, rfl, not_not.1 hpath, fun x hx hpre => hbusy ?_⟩
  exact List.any_eq_true.2 ⟨x, hx, List.isPrefixOf_iff_prefix.2 hpre⟩

theorem umountAt_append_self (table : List Mount) (m : Mount) :
    umountAt (table ++ [m]) m.path = .ok table := by
  simp [umountAt, covering_append (List.prefix_refl m.path)]

/-- Strictly below the youngest mount nothing is mounted. -/
theorem umountAt_append_below {table : List Mount} {m : Mount} {p : Path} (h : m.path <+: p)
    (hne : m.path ≠ p) : umountAt (table ++ [m]) p = .error .EINVAL := by
  simp [umountAt, covering_append h, hne]

theorem umountAt_of_forall_ne {table : List Mount} {p : Path} (h : ∀ m ∈ table, m.path ≠ p)
    (hp : p ≠ []) : umountAt table p = .error .EINVAL := by
  unfold umountAt
  split
  · rw [if_neg hp]
  · rename_i before m after hcov
    obtain ⟨rfl, -, -⟩ := splitLast_some hcov
    rw [if_pos (h m (by simp))]

theorem mountedAt_append_self (table : List Mount) (m : Mount) :
    mountedAt (table ++ [m]) m.path = true := by
  simp [mountedAt, covering_append (List.prefix_refl m.path)]

theorem mountedAt_mem {table : List Mount} {p : Path} (h : mountedAt table p = true) :
    ∃ m ∈ table, m.path = p := by
  unfold mountedAt at h
  split at h
  · rename_i before m after hcov
    obtain ⟨rfl, -, -⟩ := splitLast_some hcov
    exact ⟨m, by simp, of_decide_eq_true h⟩
  · cases h

/-! ## The tree -/

/-- File system and directory a path stands for. -/
def Space.loc (sp : Space) (p : Path) : Nat × Path :=
  match covering sp.table p with
  | none => (0, p)
  | some (_, m, _) => (m.fs, m.sub ++ p.drop m.path.length)

/-- The object at a path; the root of a mount is a directory. -/
def Space.look (sp : Space) (p : Path) : Option Obj :=
  match covering sp.table p with
  | none => sp.obj 0 p
  | some (_, m, _) =>
    if p = m.path then some .dir else sp.obj m.fs (m.sub ++ p.drop m.path.length)

def Space.mkdir (sp : Space) (p : Path) : Space :=
  { sp with obj := fun fs q => if (fs, q) = sp.loc p then some .dir else sp.obj fs q }

/-- A bind mount of what `src` stands for. -/
def Space.bind (sp : Space) (src target : Path) : Space :=
  { sp with table := sp.table ++ [⟨target, (sp.loc src).1, (sp.loc src).2⟩] }

/-- An overlay over `lower`: a new file system that starts as a copy of it. -/
def Space.overlay (sp : Space) (lower target : Path) : Space :=
  { obj := fun fs q =>
      if fs = sp.nextFs then sp.obj (sp.loc lower).1 ((sp.loc lower).2 ++ q) else sp.obj fs q
    table := sp.table ++ [⟨target, sp.nextFs, []⟩]
    nextFs := sp.nextFs + 1 }

/-- The non-empty `/`-separated components of a link target. -/
def targetComponents (target : CText.Text) : Path := CText.tokens (· == '/') target

/-- Resolution up to the first link, which `follow` continues. -/
def walkFrom (sp : Space) (follow : Path → Path → Except Errno Path) :
    Path → Path → Except Errno Path
  | cur, [] => .ok cur
  | cur, c :: rest =>
    if c = ['.'] then walkFrom sp follow cur rest
    else if c = ['.', '.'] then walkFrom sp follow cur.dropLast rest
    else match sp.look (cur ++ [c]) with
      | none => .error .ENOENT
      | some .dir => walkFrom sp follow (cur ++ [c]) rest
      | some .file => if rest = [] then .ok (cur ++ [c]) else .error .ENOTDIR
      | some (.link target) =>
        follow (if target.head? = some '/' then [] else cur) (targetComponents target ++ rest)

/-- Path resolution that follows at most `links` symbolic links. -/
def walk (sp : Space) : Nat → Path → Path → Except Errno Path
  | 0 => walkFrom sp fun _ _ => .error .ELOOP
  | links + 1 => walkFrom sp (walk sp links)

/-- The kernel's limit on symbolic links in one resolution. -/
def MAXSYMLINKS : Nat := 40

def Space.resolve (sp : Space) (start rest : Path) : Except Errno Path :=
  walk sp MAXSYMLINKS start rest

/-- `mkdirat` and `openat(O_DIRECTORY | O_NOFOLLOW)` for one component after the other.  `fails k`
and `denied k` make the `k`th `mkdirat` and `openat` fail for another reason. -/
def ensureDirs (fails denied : Nat → Bool) : Nat → Space → Path → Path → Space × Bool
  | _, sp, _, [] => (sp, true)
  | k, sp, cur, c :: rest =>
    if fails k then (sp, false)
    else
      let sp' := if (sp.look (cur ++ [c])).isNone then sp.mkdir (cur ++ [c]) else sp
      if denied k then (sp', false)
      else match sp'.look (cur ++ [c]) with
        | some .dir => ensureDirs fails denied (k + 1) sp' (cur ++ [c]) rest
        | _ => (sp', false)

/-! ## Creation only adds directories -/

/-- The same mounts over a tree that has gained directories. -/
structure Grows (sp sp' : Space) : Prop where
  table : sp'.table = sp.table
  next : sp'.nextFs = sp.nextFs
  keep : ∀ fs q o, sp.obj fs q = some o → sp'.obj fs q = some o
  new : ∀ fs q, sp.obj fs q = none → sp'.obj fs q = none ∨ sp'.obj fs q = some .dir

theorem Grows.refl (sp : Space) : Grows sp sp :=
  ⟨rfl, rfl, fun _ _ _ h => h, fun _ _ h => Or.inl h⟩

theorem Grows.trans {a b c : Space} (h : Grows a b) (h' : Grows b c) : Grows a c := by
  refine ⟨h'.table.trans h.table, h'.next.trans h.next, fun fs q o ho => h'.keep fs q o (h.keep fs q o ho),
    fun fs q hq => ?_⟩
  rcases h.new fs q hq with hb | hb
  · exact h'.new fs q hb
  · exact Or.inr (h'.keep fs q .dir hb)

theorem Grows.loc {sp sp' : Space} (h : Grows sp sp') (p : Path) : sp'.loc p = sp.loc p := by
  unfold Space.loc
  rw [h.table]

theorem Grows.look_some {sp sp' : Space} (h : Grows sp sp') {p : Path} {o : Obj}
    (hp : sp.look p = some o) : sp'.look p = some o := by
  unfold Space.look at hp ⊢
  rw [h.table]
  split at hp
  · exact h.keep _ _ _ hp
  · split at hp
    · rename_i hroot
      rw [if_pos hroot]
      exact hp
    · rename_i hroot
      rw [if_neg hroot]
      exact h.keep _ _ _ hp

theorem Grows.look_none {sp sp' : Space} (h : Grows sp sp') {p : Path} (hp : sp.look p = none) :
    sp'.look p = none ∨ sp'.look p = some .dir := by
  unfold Space.look at hp ⊢
  rw [h.table]
  split at hp
  · exact h.new _ _ hp
  · split at hp
    · cases hp
    · rename_i hroot
      rw [if_neg hroot]
      exact h.new _ _ hp

theorem obj_loc_of_look_none {sp : Space} {p : Path} (h : sp.look p = none) :
    sp.obj (sp.loc p).1 (sp.loc p).2 = none := by
  unfold Space.look at h
  unfold Space.loc
  split at h
  · exact h
  · split at h
    · cases h
    · exact h

theorem mkdir_grows {sp : Space} {p : Path} (h : sp.look p = none) : Grows sp (sp.mkdir p) := by
  have hloc := obj_loc_of_look_none h
  refine ⟨rfl, rfl, fun fs q o ho => ?_, fun fs q _ => ?_⟩
  · simp only [Space.mkdir]
    split
    · rename_i he
      rw [← he] at hloc
      rw [hloc] at ho
      cases ho
    · exact ho
  · simp only [Space.mkdir]
    split
    · exact Or.inr rfl
    · rename_i hq _
      exact Or.inl hq

/-- Every component of the chain is a real directory. -/
def RealDirs (sp : Space) : Path → Path → Prop
  | _, [] => True
  | cur, c :: rest => sp.look (cur ++ [c]) = some .dir ∧ RealDirs sp (cur ++ [c]) rest

theorem Grows.realDirs {sp sp' : Space} (h : Grows sp sp') : ∀ {rest cur : Path},
    RealDirs sp cur rest → RealDirs sp' cur rest
  | [], _, _ => trivial
  | _ :: _, _, hr => ⟨h.look_some hr.1, h.realDirs hr.2⟩

/-- **A created chain is real, and only directories were added**, whether creation succeeded or
not. -/
theorem ensureDirs_ok {fails denied : Nat → Bool} : ∀ {rest cur : Path} {k : Nat} {sp : Space},
    Grows sp (ensureDirs fails denied k sp cur rest).1 ∧
      ((ensureDirs fails denied k sp cur rest).2 = true →
        RealDirs (ensureDirs fails denied k sp cur rest).1 cur rest)
  | [], _, _, sp => ⟨Grows.refl sp, fun _ => trivial⟩
  | c :: rest, cur, k, sp => by
    unfold ensureDirs
    split
    · exact ⟨Grows.refl sp, fun h => by cases h⟩
    simp only
    have hgrow : Grows sp (if (sp.look (cur ++ [c])).isNone then sp.mkdir (cur ++ [c]) else sp) := by
      split
      · rename_i hn
        exact mkdir_grows (Option.isNone_iff_eq_none.1 hn)
      · exact Grows.refl sp
    generalize (if (sp.look (cur ++ [c])).isNone then sp.mkdir (cur ++ [c]) else sp) = sp' at hgrow ⊢
    split
    · exact ⟨hgrow, fun h => by cases h⟩
    split
    · rename_i hdir
      obtain ⟨hg, hr⟩ := @ensureDirs_ok fails denied rest (cur ++ [c]) (k + 1) sp'
      exact ⟨hgrow.trans hg, fun h => ⟨hg.look_some hdir, hr h⟩⟩
    · exact ⟨hgrow, fun h => by cases h⟩

theorem look_mkdir {sp : Space} {p : Path} (h : sp.look p = none) : (sp.mkdir p).look p = some .dir := by
  have hmade : (sp.mkdir p).obj (sp.loc p).1 (sp.loc p).2 = some .dir := if_pos rfl
  unfold Space.loc at hmade
  unfold Space.look at h ⊢
  show (match covering sp.table p with
    | none => (sp.mkdir p).obj 0 p
    | some (_, m, _) =>
      if p = m.path then some .dir else (sp.mkdir p).obj m.fs (m.sub ++ p.drop m.path.length)) = some .dir
  cases hcov : covering sp.table p with
  | none =>
    rw [hcov] at hmade
    exact hmade
  | some r =>
    rw [hcov] at h hmade
    simp only at h hmade ⊢
    split at h
    · cases h
    · rename_i hroot
      rw [if_neg hroot]
      exact hmade

/-- What the creation of a chain adds below `cur`: directories at prefixes of `made`, which is a chain of
real directories now. -/
structure Adds (sp sp' : Space) (cur made : Path) : Prop where
  table : sp'.table = sp.table
  next : sp'.nextFs = sp.nextFs
  real : RealDirs sp' cur made
  objs : ∀ fs q, sp'.obj fs q = sp.obj fs q ∨
    (sp.obj fs q = none ∧ sp'.obj fs q = some .dir ∧ ∃ p, p <+: made ∧ p ≠ [] ∧ (fs, q) = sp.loc (cur ++ p))

theorem Adds.nothing (sp : Space) (cur : Path) : Adds sp sp cur [] :=
  ⟨rfl, rfl, trivial, fun _ _ => Or.inl rfl⟩

/-- One component is made, or was there. -/
theorem Adds.single {sp : Space} {cur : Path} {c : CText.Text} (h : sp.look (cur ++ [c]) = none) :
    Adds sp (sp.mkdir (cur ++ [c])) cur [c] := by
  have hnone := obj_loc_of_look_none h
  refine ⟨rfl, rfl, ⟨look_mkdir h, trivial⟩, fun fs q => ?_⟩
  by_cases hq : (fs, q) = sp.loc (cur ++ [c])
  · refine Or.inr ⟨?_, if_pos hq, [c], List.prefix_refl _, List.cons_ne_nil _ _, hq⟩
    rw [← hq] at hnone
    exact hnone
  · exact Or.inl (if_neg hq)

/-- The next component, then the rest. -/
theorem Adds.cons {sp sp₁ sp₂ : Space} {cur made : Path} {c : CText.Text}
    (h' : Adds sp₁ sp₂ (cur ++ [c]) made) (h : ∀ fs q, sp₁.obj fs q = sp.obj fs q ∨
      (sp.obj fs q = none ∧ sp₁.obj fs q = some .dir ∧ (fs, q) = sp.loc (cur ++ [c])))
    (ht : sp₁.table = sp.table) (hn : sp₁.nextFs = sp.nextFs) (hdir : sp₂.look (cur ++ [c]) = some .dir) :
    Adds sp sp₂ cur (c :: made) := by
  have hloc : ∀ p, sp₁.loc p = sp.loc p := fun p => by unfold Space.loc; rw [ht]
  refine ⟨h'.table.trans ht, h'.next.trans hn, ⟨hdir, h'.real⟩, fun fs q => ?_⟩
  have hhead : [c] <+: c :: made := ⟨made, rfl⟩
  rcases h fs q with h₁ | ⟨h₁, h₂, h₃⟩
  · rcases h'.objs fs q with h₄ | ⟨h₄, h₅, p, hp, hne, hq⟩
    · exact Or.inl (h₄.trans h₁)
    · refine Or.inr ⟨h₁ ▸ h₄, h₅, c :: p, List.cons_prefix_cons.2 ⟨rfl, hp⟩, List.cons_ne_nil _ _, ?_⟩
      rw [hq, hloc, List.append_assoc, List.singleton_append]
  · refine Or.inr ⟨h₁, ?_, [c], hhead, List.cons_ne_nil _ _, h₃⟩
    rcases h'.objs fs q with h₄ | ⟨h₄, -⟩
    · exact h₄.trans h₂
    · rw [h₂] at h₄
      cases h₄

/-- **What `ensureDirs` adds**, whatever fails: an initial part of the chain, and the whole chain if it
succeeds. -/
theorem ensureDirs_adds {fails denied : Nat → Bool} : ∀ {rest cur : Path} {k : Nat} {sp : Space},
    ∃ made, made <+: rest ∧ Adds sp (ensureDirs fails denied k sp cur rest).1 cur made ∧
      ((ensureDirs fails denied k sp cur rest).2 = true → made = rest)
  | [], cur, _, sp => ⟨[], List.prefix_refl _, Adds.nothing sp cur, fun _ => rfl⟩
  | c :: rest, cur, k, sp => by
    have hnothing : ∀ b : Bool, b = false → ∃ made, made <+: c :: rest ∧ Adds sp sp cur made ∧
        (b = true → made = c :: rest) :=
      fun b hb => ⟨[], List.nil_prefix, Adds.nothing sp cur, fun h => by rw [hb] at h; cases h⟩
    unfold ensureDirs
    split
    · exact hnothing false rfl
    simp only
    by_cases hnone : sp.look (cur ++ [c]) = none
    · rw [if_pos (Option.isNone_iff_eq_none.2 hnone)]
      have hsingle := Adds.single hnone
      have hhead : [c] <+: c :: rest := ⟨rest, rfl⟩
      split
      · exact ⟨[c], hhead, hsingle, fun h => by cases h⟩
      rw [look_mkdir hnone]
      simp only
      obtain ⟨made, hp, hadds, hall⟩ :=
        @ensureDirs_adds fails denied rest (cur ++ [c]) (k + 1) (sp.mkdir (cur ++ [c]))
      have hgrow := (@ensureDirs_ok fails denied rest (cur ++ [c]) (k + 1) (sp.mkdir (cur ++ [c]))).1
      refine ⟨c :: made, List.cons_prefix_cons.2 ⟨rfl, hp⟩, ?_, fun h => by rw [hall h]⟩
      refine hadds.cons (fun fs q => ?_) rfl rfl (hgrow.look_some (look_mkdir hnone))
      rcases hsingle.objs fs q with h | ⟨h₁, h₂, p, hpre, hne, hq⟩
      · exact Or.inl h
      · obtain rfl : p = [c] := by
          rcases List.prefix_cons_iff.1 hpre with rfl | ⟨t, rfl, ht⟩
          · exact absurd rfl hne
          · rw [List.prefix_nil.1 ht]
        exact Or.inr ⟨h₁, h₂, hq⟩
    · rw [if_neg (mt Option.isNone_iff_eq_none.1 hnone)]
      split
      · exact hnothing false rfl
      split
      · rename_i hdir
        obtain ⟨made, hp, hadds, hall⟩ := @ensureDirs_adds fails denied rest (cur ++ [c]) (k + 1) sp
        have hgrow := (@ensureDirs_ok fails denied rest (cur ++ [c]) (k + 1) sp).1
        exact ⟨c :: made, List.cons_prefix_cons.2 ⟨rfl, hp⟩,
          hadds.cons (fun _ _ => Or.inl rfl) rfl rfl (hgrow.look_some hdir), fun h => by rw [hall h]⟩
      · exact hnothing false rfl

/-! ## Resolution along a chain -/

/-- No component is `.` or `..`. -/
def PlainNames (p : Path) : Prop := ∀ c ∈ p, c ≠ ['.'] ∧ c ≠ ['.', '.']

theorem walkFrom_realDirs {sp : Space} {follow : Path → Path → Except Errno Path} :
    ∀ {rest cur : Path}, PlainNames rest → RealDirs sp cur rest →
      walkFrom sp follow cur rest = .ok (cur ++ rest)
  | [], cur, _, _ => by simp [walkFrom]
  | c :: rest, cur, hp, hr => by
    have hc := hp c List.mem_cons_self
    have hrest : walkFrom sp follow (cur ++ [c]) rest = .ok (cur ++ [c] ++ rest) :=
      walkFrom_realDirs (fun x hx => hp x (List.mem_cons_of_mem _ hx)) hr.2
    rw [walkFrom, if_neg hc.1, if_neg hc.2, hr.1]
    simp only
    rw [hrest, List.append_assoc, List.singleton_append]

/-- **A chain of real directories resolves to itself.** -/
theorem walk_realDirs {sp : Space} {links : Nat} {cur rest : Path} (hp : PlainNames rest)
    (hr : RealDirs sp cur rest) : walk sp links cur rest = .ok (cur ++ rest) := by
  cases links with
  | zero => exact walkFrom_realDirs hp hr
  | succ n => exact walkFrom_realDirs hp hr

/-! ## Resolution in two parts -/

section Walk

variable {sp sp' : Space}

/-- A resolution without links does not depend on how links are followed. -/
theorem walkFrom_of_noFollow {follow : Path → Path → Except Errno Path} : ∀ {rest cur r : Path},
    walkFrom sp (fun _ _ => .error .ELOOP) cur rest = .ok r → walkFrom sp follow cur rest = .ok r
  | [], _, _, h => h
  | c :: rest, cur, r, h => by
    unfold walkFrom at h ⊢
    split
    · rename_i hc
      rw [if_pos hc] at h
      exact walkFrom_of_noFollow h
    rename_i hc
    rw [if_neg hc] at h
    split
    · rename_i hc'
      rw [if_pos hc'] at h
      exact walkFrom_of_noFollow h
    rename_i hc'
    rw [if_neg hc'] at h
    split
    · rename_i hl
      rw [hl] at h
      cases h
    · rename_i hl
      rw [hl] at h
      exact walkFrom_of_noFollow h
    · rename_i hl
      rw [hl] at h
      exact h
    · rename_i hl
      rw [hl] at h
      cases h

theorem walkFrom_append {follow : Path → Path → Except Errno Path} {more r r' : Path}
    (hfollow : ∀ p q, follow p q = .ok r → follow p (q ++ more) = .ok r')
    (hmore : walkFrom sp follow r more = .ok r') (hr : sp.look r ≠ some .file) : ∀ {rest cur : Path},
    walkFrom sp follow cur rest = .ok r → walkFrom sp follow cur (rest ++ more) = .ok r'
  | [], cur, h => by
    cases h
    exact hmore
  | c :: rest, cur, h => by
    have ih := fun cur => @walkFrom_append follow more r r' hfollow hmore hr rest cur
    rw [List.cons_append]
    unfold walkFrom at h ⊢
    split
    · rename_i hc
      rw [if_pos hc] at h
      exact ih _ h
    rename_i hc
    rw [if_neg hc] at h
    split
    · rename_i hc'
      rw [if_pos hc'] at h
      exact ih _ h
    rename_i hc'
    rw [if_neg hc'] at h
    split
    · rename_i hl
      rw [hl] at h
      cases h
    · rename_i hl
      rw [hl] at h
      exact ih _ h
    · rename_i hl
      rw [hl] at h
      simp only at h
      split at h
      · cases h
        exact absurd hl hr
      · cases h
    · rename_i t hl
      rw [hl] at h
      have hq := hfollow _ _ h
      rwa [List.append_assoc] at hq

/-- **Resolution goes on** from where the first part has led, if the second part has no links. -/
theorem walk_append {more r r' : Path} (hmore : walk sp 0 r more = .ok r') (hr : sp.look r ≠ some .file) :
    ∀ {links : Nat} {rest cur : Path}, walk sp links cur rest = .ok r →
      walk sp links cur (rest ++ more) = .ok r'
  | 0, _, _, h => walkFrom_append (fun _ _ hf => by cases hf) hmore hr h
  | links + 1, _, _, h =>
    walkFrom_append (fun _ _ hf => walk_append hmore hr hf) (walkFrom_of_noFollow hmore) hr h

theorem Grows.walkFrom (hg : Grows sp sp') {follow follow' : Path → Path → Except Errno Path} {r : Path}
    (hfollow : ∀ p q, follow p q = .ok r → follow' p q = .ok r) : ∀ {rest cur : Path},
    MountSpace.walkFrom sp follow cur rest = .ok r → MountSpace.walkFrom sp' follow' cur rest = .ok r
  | [], _, h => h
  | c :: rest, cur, h => by
    have ih := fun cur => @Grows.walkFrom hg follow follow' r hfollow rest cur
    unfold MountSpace.walkFrom at h ⊢
    split
    · rename_i hc
      rw [if_pos hc] at h
      exact ih _ h
    rename_i hc
    rw [if_neg hc] at h
    split
    · rename_i hc'
      rw [if_pos hc'] at h
      exact ih _ h
    rename_i hc'
    rw [if_neg hc'] at h
    cases hl : sp.look (cur ++ [c]) with
    | none =>
      rw [hl] at h
      cases h
    | some o =>
      rw [hl] at h
      rw [hg.look_some hl]
      cases o with
      | dir => exact ih _ h
      | file => exact h
      | link t => exact hfollow _ _ h

/-- **Resolution survives the creation of directories.** -/
theorem Grows.walk (hg : Grows sp sp') {r : Path} : ∀ {links : Nat} {rest cur : Path},
    MountSpace.walk sp links cur rest = .ok r → MountSpace.walk sp' links cur rest = .ok r
  | 0, _, _, h => hg.walkFrom (fun _ _ hf => by cases hf) h
  | _ + 1, _, _, h => hg.walkFrom (fun _ _ hf => hg.walk hf) h

end Walk

/-- No component of the chain is a symbolic link. -/
def NoLinks (sp : Space) : Path → Path → Prop
  | _, [] => True
  | cur, c :: rest => (∀ t, sp.look (cur ++ [c]) ≠ some (.link t)) ∧ NoLinks sp (cur ++ [c]) rest

theorem Grows.noLinks {sp sp' : Space} (h : Grows sp sp') : ∀ {rest cur : Path},
    NoLinks sp cur rest → NoLinks sp' cur rest
  | [], _, _ => trivial
  | c :: rest, cur, hn => by
    refine ⟨fun t ht => ?_, h.noLinks hn.2⟩
    cases hl : sp.look (cur ++ [c]) with
    | none =>
      rcases h.look_none hl with h' | h' <;> rw [h'] at ht <;> cases ht
    | some o =>
      rw [h.look_some hl] at ht
      exact hn.1 t (hl.trans ht)

theorem walkFrom_noLinks {sp : Space} {follow : Path → Path → Except Errno Path} :
    ∀ {rest cur : Path}, PlainNames rest → NoLinks sp cur rest →
      walkFrom sp follow cur rest = .ok (cur ++ rest) ∨
        walkFrom sp follow cur rest = .error .ENOENT ∨ walkFrom sp follow cur rest = .error .ENOTDIR
  | [], cur, _, _ => Or.inl (by simp [walkFrom])
  | c :: rest, cur, hp, hn => by
    have hc := hp c List.mem_cons_self
    have hrest := @walkFrom_noLinks sp follow rest (cur ++ [c])
      (fun x hx => hp x (List.mem_cons_of_mem _ hx)) hn.2
    rw [walkFrom, if_neg hc.1, if_neg hc.2]
    split
    · exact Or.inr (Or.inl rfl)
    · rw [List.append_assoc, List.singleton_append] at hrest
      exact hrest
    · split
      · rename_i he
        exact Or.inl (by rw [he])
      · exact Or.inr (Or.inr rfl)
    · rename_i t ht
      exact absurd ht (hn.1 t)

/-- **Without links resolution cannot leave the chain.** -/
theorem walk_noLinks {sp : Space} {links : Nat} {cur rest : Path} (hp : PlainNames rest)
    (hn : NoLinks sp cur rest) :
    walk sp links cur rest = .ok (cur ++ rest) ∨ walk sp links cur rest = .error .ENOENT ∨
      walk sp links cur rest = .error .ENOTDIR := by
  cases links with
  | zero => exact walkFrom_noLinks hp hn
  | succ n => exact walkFrom_noLinks hp hn

/-- A mount at the end of the chain does not change the chain. -/
theorem realDirs_mount {sp : Space} {m : Mount} : ∀ {rest cur : Path}, m.path = cur ++ rest →
    RealDirs sp cur rest → RealDirs { sp with table := sp.table ++ [m] } cur rest
  | [], _, _, _ => trivial
  | c :: rest, cur, hm, hr => by
    have hm' : m.path = cur ++ [c] ++ rest := by rw [hm]; simp
    refine ⟨?_, realDirs_mount hm' hr.2⟩
    have hlook := hr.1
    unfold Space.look at hlook ⊢
    by_cases he : rest = []
    · -- the last component is the root of the new mount
      have hpath : m.path = cur ++ [c] := by rw [hm', he, List.append_nil]
      have hcov : covering (sp.table ++ [m]) (cur ++ [c]) = some (sp.table, m, []) :=
        covering_append (hpath ▸ List.prefix_refl _)
      simp only [hcov]
      rw [if_pos hpath.symm]
    · have hlong : ¬ m.path <+: cur ++ [c] := by
        intro hpre
        have hle := hpre.length_le
        rw [hm'] at hle
        simp only [List.length_append, List.length_cons, List.length_nil] at hle
        have := List.length_pos_iff.2 he
        omega
      simp only [covering_append_of_not hlong]
      cases hs : covering sp.table (cur ++ [c]) with
      | none => simpa only [hs, Option.map_none] using hlook
      | some r => simpa only [hs, Option.map_some] using hlook

end MountSpace
