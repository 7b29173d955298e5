import TinyDocker.Lib.MountView
import TinyDocker.Docker.RemovalOrder
import TinyDocker.Docker.Rollback

/-!
# The mounts of several containers

The mounts of a container have to come down in the order in which they went up, although those of other
containers lie between them in the table.  `Layered` is what `docker run` leaves below the directory of
its container; what happens to other containers does not disturb it.

Principal results: `umountAll_finishes` — the unmounts of `docker rm` succeed and leave nothing;
`Unmountable.kept` — they stay possible while other containers come and go; `Bound.unmountable` — after
`mount_volumes` they are possible.
-/

set_option autoImplicit false

namespace TinyDocker

open CText MountSpace Staged

/-! ## Mounts of several containers -/

section Mounts

variable {n name : Text} {env : Env}

/-- The mounts of a container do not concern another one. -/
theorem concerns_other (hn : n ≠ name) {m : Mount} {rest : Path} (hm : m.path = mountpointDir name ++ rest) :
    concerns (containerDir n) m = false := by
  rw [concerns, Bool.or_eq_false_iff, Bool.eq_false_iff, Bool.eq_false_iff]
  rw [ne_eq, ne_eq, List.isPrefixOf_iff_prefix, List.isPrefixOf_iff_prefix, hm]
  refine ⟨fun hpre => ?_, fun hpre => hn (eq_of_containerDir_isPrefix hpre)⟩
  have hle := hpre.length_le
  rw [List.length_append, show (mountpointDir name).length = 6 from rfl,
    show (containerDir n).length = 5 from rfl] at hle
  omega

/-- Only mounts of one container have gone. -/
structure Apart (name : Text) (sp sp' : Space) : Prop where
  obj : sp'.obj = sp.obj
  next : sp'.nextFs = sp.nextFs
  subset : sp'.table ⊆ sp.table
  others : ∀ n, n ≠ name → relevant (containerDir n) sp'.table = relevant (containerDir n) sp.table

theorem Apart.refl (name : Text) (sp : Space) : Apart name sp sp :=
  ⟨rfl, rfl, List.Subset.refl _, fun _ _ => rfl⟩

theorem Apart.trans {a b c : Space} (h : Apart name a b) (h' : Apart name b c) : Apart name a c :=
  ⟨h'.obj.trans h.obj, h'.next.trans h.next, List.Subset.trans h'.subset h.subset,
    fun n hn => (h'.others n hn).trans (h.others n hn)⟩

theorem umountAt_apart {sp : Space} {rest : Path} {table : List Mount}
    (hu : umountAt sp.table (mountpointDir name ++ rest) = .ok table) :
    Apart name sp { sp with table := table } := by
  obtain ⟨before, m, after, htab, rfl, hm, -⟩ := umountAt_ok hu
  refine ⟨rfl, rfl, ?_, fun n hn => ?_⟩
  · show before ++ after ⊆ sp.table
    rw [htab]
    exact (List.Sublist.append_left (List.sublist_cons_self m after) before).subset
  · show relevant (containerDir n) (before ++ after) = relevant (containerDir n) sp.table
    rw [htab, relevant_append, relevant_append, relevant_cons_of_not (concerns_other hn hm)]

/-- The youngest mount of a container comes down, whatever other containers have mounted since. -/
theorem umount_last {site : Site} (hquiet : env.umountErrno site = none) {rest : Path} {h : Host}
    {t : List Mount} {b : Mount} (htable : relevant (containerDir name) h.space.table = t ++ [b])
    (hb : b.path = mountpointDir name ++ rest) :
    (umount env site (.ok (mountpointDir name ++ rest)) h).2 = true ∧
      relevant (containerDir name) (umount env site (.ok (mountpointDir name ++ rest)) h).1.space.table = t ∧
      Apart name h.space (umount env site (.ok (mountpointDir name ++ rest)) h).1.space := by
  have hd : containerDir name <+: mountpointDir name ++ rest :=
    (containerDir_isPrefix name).trans (List.prefix_append _ _)
  have hpop : umountAt (relevant (containerDir name) h.space.table) (mountpointDir name ++ rest) = .ok t := by
    rw [htable, ← hb]
    exact umountAt_append_self t b
  obtain ⟨table, hu, ht⟩ := umountAt_relevant hd hpop
  have hres : umount env site (.ok (mountpointDir name ++ rest)) h =
      ((h.setTable table).record (.umount site none), true) := by
    simp only [umount, umountResolved, hquiet, hu]
  rw [hres]
  exact ⟨rfl, ht, umountAt_apart hu⟩

/-- **Bound volumes come down again**, although the mounts of other containers lie between them. -/
theorem umountEach_layered {site : Nat → Site} (hquiet : ∀ i, env.umountErrno (site i) = none)
    {base : List Mount} (hmp : mountedAt base (mountpointDir name) = true) :
    ∀ (vs : List VolumeConfig) {h : Host}, Bound name base vs.reverse (h.space.view (containerDir name)) →
      (umountEach env site name 0 vs h).2 = true ∧
        relevant (containerDir name) (umountEach env site name 0 vs h).1.space.table = base ∧
        Apart name h.space (umountEach env site name 0 vs h).1.space := by
  intro vs
  induction vs using List.reverseRecOn with
  | nil => exact fun hb => ⟨rfl, hb, Apart.refl name _⟩
  | append_singleton vs v ih =>
    intro h hb
    rw [List.reverse_append] at hb
    have hmounted := hb.mountedAt hmp
    obtain ⟨t, b, ht, hp, hfit, hreal, hrest⟩ := hb
    have hmounted : mountedAt h.space.table (mountpointDir name) = true := by
      rw [← mountedAt_relevant (containerDir_isPrefix name)]
      exact hmounted
    have hreal : RealDirs h.space (mountpointDir name) v.path :=
      (realDirs_view (containerDir_isPrefix name)).1 hreal
    have hv : umountTarget env (site (0 + vs.length)) name v h =
        umount env (site (0 + vs.length)) (.ok (mountpointDir name ++ v.path)) h := by
      unfold umountTarget
      rw [if_pos hfit, resolveTarget_real (plainNames_of_fits hfit) hmounted hreal]
    obtain ⟨hok, htable, hapart⟩ := umount_last (hquiet (0 + vs.length)) ht hp
    obtain ⟨h1, h2⟩ := umountEach_concat env site name v vs 0 h
    rw [hv] at h1 h2
    generalize umount env (site (0 + vs.length)) (.ok (mountpointDir name ++ v.path)) h = u
      at hok htable hapart h1 h2
    have hview : u.1.space.view (containerDir name) = { h.space.view (containerDir name) with table := t } := by
      unfold Space.view
      rw [htable, hapart.obj, hapart.next]
    rw [← hview] at hrest
    obtain ⟨ih1, ih2, ih3⟩ := ih hrest
    rw [h1, h2, hok, ih1]
    exact ⟨rfl, ih2, hapart.trans ih3⟩

/-- The volumes of a container as `docker run` has bound them, seen below its directory. -/
def Layered (name : Text) (vs : List VolumeConfig) (sp : Space) : Prop :=
  ∃ outer overlay, overlay.path = mountpointDir name ∧ mountsBelow name outer = [] ∧
    Bound name (outer ++ [overlay]) vs.reverse (sp.view (containerDir name))

/-- Nothing is mounted, or everything is in order. -/
def Unmountable (name : Text) (vs : List VolumeConfig) (sp : Space) : Prop :=
  mountsBelow name sp.table = [] ∨ Layered name vs sp

theorem mountsBelow_relevant (name : Text) (table : List Mount) :
    mountsBelow name (relevant (containerDir name) table) = mountsBelow name table := by
  unfold mountsBelow below relevant
  rw [List.filter_filter]
  refine List.filter_congr fun m _ => ?_
  by_cases hm : (containerDir name).isPrefixOf m.path = true
  · rw [hm, concerns_of_below (List.isPrefixOf_iff_prefix.1 hm), Bool.and_true]
  · rw [Bool.eq_false_iff.2 hm, Bool.false_and]

/-- With nothing mounted there every unmount reports that there is nothing to do. -/
theorem umountTarget_nothing (hquiet : env.QuietUmounts) (site : Site) {v : VolumeConfig} {h : Host}
    (hfit : targetFits name v = true) (hfree : mountsBelow name h.space.table = []) :
    (umountTarget env site name v h).2 = true := by
  obtain ⟨heinval, hunmounted⟩ := no_mount_at_mountpoint hfree
  unfold umountTarget
  rw [if_pos hfit]
  unfold resolveTarget
  rw [hunmounted]
  by_cases hpath : v.path = []
  · simp [umount, umountResolved, hpath, hquiet site, heinval]
  · simp [umount, umountResolved, hpath, hquiet site]

theorem umountEach_nothing (hquiet : env.QuietUmounts) (site : Nat → Site) :
    ∀ (vs : List VolumeConfig) (i : Nat) {h : Host}, (∀ v ∈ vs, targetFits name v = true) →
      mountsBelow name h.space.table = [] → (umountEach env site name i vs h).2 = true
  | [], _, _, _, _ => rfl
  | v :: vs, i, h, hfits, hfree => by
    have hlater := umountEach_nothing hquiet site vs (i + 1)
      (fun w hw => hfits w (List.mem_cons_of_mem _ hw)) hfree
    have hspace := umountEach_unmounted hquiet site vs (i + 1) hfree
    unfold umountEach
    simp only
    rw [hlater, umountTarget_nothing hquiet (site i) (hfits v List.mem_cons_self)
      (by rw [hspace]; exact hfree)]
    rfl

/-- **The unmounts of `docker rm` succeed and leave nothing**, and leave other containers alone. -/
theorem umountAll_finishes (hquiet : env.QuietUmounts) {vs : List VolumeConfig} {h : Host}
    (hfits : ∀ v ∈ vs, targetFits name v = true) (hu : Unmountable name vs h.space) :
    (umountAll env name vs h).2 = true ∧ mountsBelow name (umountAll env name vs h).1.space.table = [] ∧
      Apart name h.space (umountAll env name vs h).1.space := by
  rcases hu with hfree | ⟨outer, overlay, hov, hfree, hbound⟩
  · have hflag := umountEach_nothing hquiet .volumeUmount vs 0 hfits hfree
    have hspace := umountEach_unmounted hquiet .volumeUmount vs 0 hfree
    unfold umountAll umountVolumes
    simp only
    generalize umountEach env .volumeUmount name 0 vs h = v at hflag hspace
    have heinval : umountAt v.1.space.table (mountpointDir name) = .error .EINVAL := by
      rw [hspace]
      exact (no_mount_at_mountpoint hfree).1
    have hres : umount env .rootUmount (.ok (mountpointDir name)) v.1 =
        (v.1.record (.umount .rootUmount (some .EINVAL)), true) := by
      simp only [umount, umountResolved, hquiet .rootUmount, heinval]
      rfl
    rw [hres, hflag]
    show _ ∧ mountsBelow name v.1.space.table = [] ∧ Apart name h.space v.1.space
    rw [hspace]
    exact ⟨rfl, hfree, Apart.refl name _⟩
  · have hmp : mountedAt (outer ++ [overlay]) (mountpointDir name) = true := by
      rw [← hov]
      exact mountedAt_append_self outer overlay
    obtain ⟨hflag, htable, hapart⟩ := @umountEach_layered name env .volumeUmount (fun i => hquiet _) _ hmp vs h
      hbound
    unfold umountAll umountVolumes
    simp only
    generalize umountEach env .volumeUmount name 0 vs h = v at hflag htable hapart
    have hlast := @umount_last name env .rootUmount (hquiet .rootUmount) [] v.1 outer overlay htable
      (by rw [hov, List.append_nil])
    rw [List.append_nil] at hlast
    obtain ⟨hok, hrel, hroot⟩ := hlast
    rw [hflag, hok]
    refine ⟨rfl, ?_, hapart.trans hroot⟩
    rw [← mountsBelow_relevant, hrel]
    exact hfree

/-! ## What other containers do -/

/-- The mounts below a container's directory are seen as before. -/
structure Unseen (n : Text) (sp sp' : Space) : Prop where
  keeps : Keeps sp sp'
  same : relevant (containerDir n) sp'.table = relevant (containerDir n) sp.table

theorem Bound.keeps {base : List Mount} : ∀ {vs : List VolumeConfig} {sp sp' : Space}, Bound name base vs sp →
    Keeps sp sp' → sp.Numbered → sp'.table = sp.table → Bound name base vs sp'
  | [], _, _, hb, _, _, ht => ht.trans hb
  | _ :: _, sp, sp', ⟨t, b, htable, hp, hfit, hreal, hrest⟩, hk, hnum, ht => by
    have hk' : Keeps { sp with table := t } { sp' with table := t } := ⟨hk.next, hk.dirs⟩
    have hnum' : Space.Numbered { sp with table := t } := by
      refine hnum.subset (le_refl _) ?_
      rw [htable]
      exact List.subset_append_left t [b]
    exact ⟨t, b, ht.trans htable, hp, hfit, hk.realDirs hnum ht hreal, hrest.keeps hk' hnum' rfl⟩

theorem Bound.view {base : List Mount} : ∀ {vs : List VolumeConfig} {sp : Space}, Bound name base vs sp →
    Bound name (relevant (containerDir name) base) vs (sp.view (containerDir name))
  | [], _, hb => congrArg (relevant (containerDir name)) hb
  | v :: _, sp, ⟨t, b, htable, hp, hfit, hreal, hrest⟩ => by
    have hbelow : containerDir name <+: b.path := by
      rw [hp]
      exact (containerDir_isPrefix name).trans (List.prefix_append _ _)
    refine ⟨relevant (containerDir name) t, b, ?_, hp, hfit,
      (realDirs_view (containerDir_isPrefix name)).2 hreal, hrest.view⟩
    show relevant (containerDir name) sp.table = _
    rw [htable, relevant_append]
    exact congrArg _ (List.filter_cons_of_pos (concerns_of_below hbelow))

theorem Bound.others (hn : n ≠ name) {base : List Mount} : ∀ {vs : List VolumeConfig} {sp : Space},
    Bound name base vs sp → relevant (containerDir n) sp.table = relevant (containerDir n) base
  | [], _, hb => congrArg (relevant (containerDir n)) hb
  | v :: _, sp, ⟨t, b, htable, hp, _, _, hrest⟩ => by
    rw [htable, relevant_append, relevant_cons_of_not (concerns_other hn hp)]
    exact (List.append_nil _).trans (hrest.others hn)

theorem Bound.fits {base : List Mount} : ∀ {vs : List VolumeConfig} {sp : Space}, Bound name base vs sp →
    ∀ v ∈ vs, targetFits name v = true
  | [], _, _, _, hv => by cases hv
  | w :: vs, _, ⟨_, _, _, _, hfit, _, hrest⟩, v, hv => by
    rcases List.mem_cons.1 hv with rfl | hv
    · exact hfit
    · exact hrest.fits v hv

/-- **After `mount_volumes`** the volumes can be unmounted. -/
theorem Bound.unmountable {outer : List Mount} {overlay : Mount} (hov : overlay.path = mountpointDir name)
    (hfree : mountsBelow name outer = []) {vs : List VolumeConfig} {sp : Space}
    (hb : Bound name (outer ++ [overlay]) vs.reverse sp) : Unmountable name vs sp := by
  have hbelow : containerDir name <+: overlay.path := by
    rw [hov]
    exact containerDir_isPrefix name
  have hview := hb.view
  rw [relevant_append, show relevant (containerDir name) [overlay] = [overlay] from
    List.filter_cons_of_pos (concerns_of_below hbelow)] at hview
  refine Or.inr ⟨relevant (containerDir name) outer, overlay, hov, ?_, hview⟩
  rw [mountsBelow_relevant]
  exact hfree

/-- **They stay possible** while other containers come and go. -/
theorem Unmountable.kept {vs : List VolumeConfig} {sp sp' : Space} (hu : Unmountable name vs sp)
    (hs : Unseen name sp sp') (hnum : sp.Numbered) : Unmountable name vs sp' := by
  rcases hu with hfree | ⟨outer, overlay, hov, hfree, hb⟩
  · left
    rw [← mountsBelow_relevant, hs.same, mountsBelow_relevant]
    exact hfree
  · right
    have hk : Keeps (sp.view (containerDir name)) (sp'.view (containerDir name)) := ⟨hs.keeps.next, hs.keeps.dirs⟩
    have hnum' : (sp.view (containerDir name)).Numbered := hnum.subset (le_refl _) List.filter_sublist.subset
    exact ⟨outer, overlay, hov, hfree, hb.keeps hk hnum' hs.same⟩

end Mounts

/-! ## Mounting and unmounting -/

theorem umount_evolves (env : Env) (site : Site) (t : Except Errno Path) (h : Host) :
    Evolves h.space (umount env site t h).1.space := by
  refine .shrink ?_ ?_ (umount_subset env site t h)
  · unfold umount
    split <;> rfl
  · unfold umount
    split <;> rfl

theorem umountEach_evolves (env : Env) (site : Nat → Site) (name : Text) :
    ∀ (vs : List VolumeConfig) (i : Nat) (h : Host),
      Evolves h.space (umountEach env site name i vs h).1.space
  | [], _, h => Evolves.refl h.space
  | v :: vs, i, h => by
    have ih := umountEach_evolves env site name vs (i + 1) h
    unfold umountEach umountTarget
    simp only
    split
    · exact ih.trans (umount_evolves ..)
    · exact ih

theorem umountAll_evolves (env : Env) (name : Text) (vs : List VolumeConfig) (h : Host) :
    Evolves h.space (umountAll env name vs h).1.space :=
  (umountEach_evolves env .volumeUmount name vs 0 h).trans (umount_evolves ..)

theorem mountVolume_evolves (env : Env) (i : Nat) (name : Text) (v : VolumeConfig) (h : Host) :
    Evolves h.space (mountVolume env i name v h).1.space := by
  have hens : Evolves h.space (ensureTarget env i name v h).1.space := by
    obtain ⟨sp, he, hgrow, -⟩ := ensureTarget_spec env i name v h
    rw [he]
    exact hgrow.evolves
  unfold mountVolume
  split
  · exact Evolves.refl h.space
  rename_i src _
  split
  · rename_i h₁ he
    rw [he] at hens
    exact hens
  rename_i h₁ he
  rw [he] at hens
  split
  · exact hens
  have hbind := hens.trans (bind_evolves h₁.space src (mountpointDir name ++ v.path))
  simp only
  split
  · exact hbind.trans (umount_evolves env (.remountUmount i) _
      { h₁ with space := h₁.space.bind src (mountpointDir name ++ v.path) })
  · exact hbind

theorem mountEach_evolves (env : Env) (name : Text) : ∀ (vs mounted : List VolumeConfig) (h : Host),
    Evolves h.space (mountEach env name mounted vs h).1.space
  | [], _, h => Evolves.refl h.space
  | v :: vs, mounted, h => by
    have hv := mountVolume_evolves env mounted.length name v h
    unfold mountEach
    split
    · rename_i h₁ he
      rw [he] at hv
      exact hv.trans (mountEach_evolves env name vs (mounted ++ [v]) h₁)
    · rename_i h₁ he
      rw [he] at hv
      exact hv.trans (umountEach_evolves ..)

theorem mountVolumes_evolves (env : Env) (name : Text) (vs : List VolumeConfig) (h : Host) :
    Evolves h.space (mountVolumes env name vs h).1.space := by
  unfold mountVolumes
  split
  · exact mountEach_evolves env name vs [] h
  · exact Evolves.refl h.space

end TinyDocker
