import TinyDocker.Core.Fs
import Mathlib.Data.List.Induction
import TinyDocker.Docker.Effects

/-!
# Mounting volumes and taking them down again

`td_ensure_directory_beneath` walks a target path without following links, `umount` follows them.
For a volume that was mounted the two agree: the path is a chain of real directories, and stays one
while nothing but directories is added.  `Bound` describes a mount table with the binds of some
volumes on top, each reachable in this way.

Principal results:

* `umountEach_bound` — unmounting the volumes that are bound, last one first, gives back the table
  below them, and every call succeeds;
* `mountVolumes_ok`, `mountVolumes_failed` — after `mount_volumes` all volumes are bound; after a
  failure its rollback has given back the table it started from.
-/

set_option autoImplicit false

namespace TinyDocker

open CText MountSpace

/-! ## Targets -/

/-- A target that fits the buffers has passed the check for `.` and `..`. -/
theorem plainNames_of_fits {name : Text} {v : VolumeConfig} (h : targetFits name v = true) :
    PlainNames v.path := by
  unfold targetFits at h
  split at h
  · rename_i p hjoin
    obtain ⟨-, -, hplain, -⟩ := tdJoinRootfsPath_ok hjoin
    exact hplain
  · cases h

theorem mountedAt_append {table : List Mount} {r : Path} (h : mountedAt table r = true) {m : Mount}
    (hm : m.path <+: r → m.path = r) : mountedAt (table ++ [m]) r = true := by
  by_cases hpre : m.path <+: r
  · have hr := hm hpre
    unfold mountedAt
    rw [covering_append hpre]
    simp [hr]
  · unfold mountedAt at h ⊢
    rw [covering_append_of_not hpre]
    cases hc : covering table r with
    | none => rw [hc] at h; cases h
    | some x => rw [hc] at h; exact h

/-- A target below the mountpoint does not hide it. -/
theorem mountedAt_bind {table : List Mount} {name : Text} (h : mountedAt table (mountpointDir name) = true)
    {m : Mount} {rest : Path} (hm : m.path = mountpointDir name ++ rest) :
    mountedAt (table ++ [m]) (mountpointDir name) = true := by
  refine mountedAt_append h fun hpre => ?_
  have hle := hpre.length_le
  rw [hm, List.length_append] at hle
  have hnil : rest = [] := List.length_eq_zero_iff.1 (by omega)
  rw [hm, hnil, List.append_nil]

/-! ## Bound volumes -/

/-- The table of `sp` is `table` with the binds of these volumes on top, the youngest first in the
list, and every target is a chain of real directories below its own bind. -/
def Bound (name : Text) (table : List Mount) : List VolumeConfig → Space → Prop
  | [], sp => sp.table = table
  | v :: earlier, sp => ∃ t b, sp.table = t ++ [b] ∧ b.path = mountpointDir name ++ v.path ∧
      targetFits name v = true ∧ RealDirs sp (mountpointDir name) v.path ∧
      Bound name table earlier { sp with table := t }

theorem Bound.grows {name : Text} {table : List Mount} : ∀ {vs : List VolumeConfig} {sp sp' : Space},
    Bound name table vs sp → Grows sp sp' → Bound name table vs sp'
  | [], _, _, hb, hg => hg.table.trans hb
  | _ :: _, sp, sp', ⟨t, b, ht, hp, hfit, hreal, hrest⟩, hg => by
    have hg' : Grows { sp with table := t } { sp' with table := t } := ⟨rfl, hg.next, hg.keep, hg.new⟩
    exact ⟨t, b, hg.table.trans ht, hp, hfit, hg.realDirs hreal, hrest.grows hg'⟩

theorem Bound.mountedAt {name : Text} {table : List Mount}
    (hmp : MountSpace.mountedAt table (mountpointDir name) = true) :
    ∀ {vs : List VolumeConfig} {sp : Space}, Bound name table vs sp →
      MountSpace.mountedAt sp.table (mountpointDir name) = true
  | [], _, hb => by rw [hb]; exact hmp
  | _ :: _, _, ⟨t, b, ht, hp, _, _, hrest⟩ => by
    rw [ht]
    exact mountedAt_bind (hrest.mountedAt hmp) hp

/-- Where the youngest bind leads: to itself. -/
theorem resolveTarget_real {name : Text} {path : Path} {h : Host} (hp : PlainNames path)
    (hmp : mountedAt h.space.table (mountpointDir name) = true)
    (hreal : RealDirs h.space (mountpointDir name) path) :
    resolveTarget h name path = .ok (mountpointDir name ++ path) := by
  unfold resolveTarget
  rw [if_pos hmp]
  exact walk_realDirs hp hreal

/-- Unmounting the youngest bind gives back the table below it. -/
theorem umount_youngest {env : Env} {site : Site} (hquiet : env.umountErrno site = none) {name : Text}
    {path : Path} {h : Host} {t : List Mount} {b : Mount} (hp : PlainNames path)
    (hmp : mountedAt h.space.table (mountpointDir name) = true)
    (hreal : RealDirs h.space (mountpointDir name) path) (ht : h.space.table = t ++ [b])
    (hb : b.path = mountpointDir name ++ path) :
    umount env site (resolveTarget h name path) h =
      ((h.setTable t).record (.umount site none), true) := by
  have hpop : umountAt h.space.table (mountpointDir name ++ path) = .ok t := by
    rw [ht, ← hb]
    exact umountAt_append_self t b
  rw [resolveTarget_real hp hmp hreal]
  simp only [umount, umountResolved, hquiet, hpop]

/-- The loop takes the last volume first. -/
theorem umountEach_concat (env : Env) (site : Nat → Site) (name : Text) (v : VolumeConfig) :
    ∀ (vs : List VolumeConfig) (i : Nat) (h : Host),
      (umountEach env site name i (vs ++ [v]) h).1 =
        (umountEach env site name i vs (umountTarget env (site (i + vs.length)) name v h).1).1 ∧
      (umountEach env site name i (vs ++ [v]) h).2 =
        ((umountTarget env (site (i + vs.length)) name v h).2 &&
          (umountEach env site name i vs (umountTarget env (site (i + vs.length)) name v h).1).2)
  | [], _, _ => by simp [umountEach]
  | w :: vs, i, h => by
    obtain ⟨h1, h2⟩ := umountEach_concat env site name v vs (i + 1) h
    have hidx : i + 1 + vs.length = i + (w :: vs).length := by rw [List.length_cons]; omega
    rw [hidx] at h1 h2
    simp only [List.cons_append, umountEach, h1, h2, Bool.and_assoc, and_self]

/-- **Bound volumes come down again.** -/
theorem umountEach_bound {env : Env} {site : Nat → Site} (hquiet : ∀ i, env.umountErrno (site i) = none)
    {name : Text} {table : List Mount} (hmp : mountedAt table (mountpointDir name) = true) :
    ∀ (vs : List VolumeConfig) {h : Host}, Bound name table vs.reverse h.space →
      (umountEach env site name 0 vs h).1.space = { h.space with table := table } ∧
        (umountEach env site name 0 vs h).2 = true := by
  intro vs
  induction vs using List.reverseRecOn with
  | nil =>
    intro h hb
    have hb : h.space.table = table := hb
    exact ⟨by rw [← hb]; rfl, rfl⟩
  | append_singleton vs v ih =>
    intro h hb
    rw [List.reverse_append] at hb
    have hmounted := hb.mountedAt hmp
    obtain ⟨t, b, ht, hp, hfit, hreal, hrest⟩ := hb
    have hv : umountTarget env (site (0 + vs.length)) name v h =
        ((h.setTable t).record (.umount (site (0 + vs.length)) none), true) := by
      unfold umountTarget
      rw [if_pos hfit]
      exact umount_youngest (hquiet _) (plainNames_of_fits hfit) hmounted hreal ht hp
    obtain ⟨h1, h2⟩ := umountEach_concat env site name v vs 0 h
    rw [hv] at h1 h2
    obtain ⟨ih1, ih2⟩ := @ih ((h.setTable t).record (.umount (site (0 + vs.length)) none)) hrest
    exact ⟨by rw [h1]; exact ih1, by rw [h2, ih2]; rfl⟩

/-! ## `mount_volumes` -/

/-- The calls that undo a mount behave as the table says. -/
def Env.QuietUmounts (env : Env) : Prop := ∀ site, env.umountErrno site = none

theorem ensureTarget_spec (env : Env) (i : Nat) (name : Text) (v : VolumeConfig) (h : Host) :
    ∃ sp, (ensureTarget env i name v h).1 = { h with space := sp } ∧ Grows h.space sp ∧
      ((ensureTarget env i name v h).2 = true →
        targetFits name v = true ∧ RealDirs sp (mountpointDir name) v.path) := by
  unfold ensureTarget
  split
  · exact ⟨h.space, rfl, Grows.refl h.space, fun hc => by cases hc⟩
  · rename_i hfit
    obtain ⟨hg, hr⟩ := @ensureDirs_ok (fun k => env.fails (.makeTarget i k))
      (fun k => env.fails (.openTarget i k)) v.path (mountpointDir name) 0 h.space
    refine ⟨_, rfl, hg, fun hok => ⟨?_, hr hok⟩⟩
    simp only [not_or, Bool.not_eq_false] at hfit
    exact hfit.1

/-- **One volume**: bound on top, or, after a failure, only directories were added. -/
theorem mountVolume_spec {env : Env} (hquiet : env.QuietUmounts) (i : Nat) {name : Text}
    (v : VolumeConfig) {h : Host} (hmp : mountedAt h.space.table (mountpointDir name) = true) :
    ((mountVolume env i name v h).2 = true → ∃ sp b,
      (mountVolume env i name v h).1.space = { sp with table := sp.table ++ [b] } ∧ Grows h.space sp ∧
      b.path = mountpointDir name ++ v.path ∧ targetFits name v = true ∧
      RealDirs { sp with table := sp.table ++ [b] } (mountpointDir name) v.path) ∧
    ((mountVolume env i name v h).2 = false → Grows h.space (mountVolume env i name v h).1.space) := by
  obtain ⟨sp, hsp, hgrow, hens⟩ := ensureTarget_spec env i name v h
  unfold mountVolume
  split
  · exact ⟨fun hc => (by cases hc), fun _ => Grows.refl h.space⟩
  rename_i src _
  split
  · rename_i h₁ he
    rw [he] at hsp
    have hsp : h₁ = { h with space := sp } := hsp
    subst hsp
    exact ⟨fun hc => (by cases hc), fun _ => hgrow⟩
  rename_i h₁ he
  rw [he] at hsp hens
  have hsp : h₁ = { h with space := sp } := hsp
  subst hsp
  obtain ⟨hfit, hreal⟩ := hens rfl
  split
  · exact ⟨fun hc => (by cases hc), fun _ => hgrow⟩
  have hbound := realDirs_mount
    (m := ⟨mountpointDir name ++ v.path, (sp.loc src).1, (sp.loc src).2⟩) rfl hreal
  simp only
  split
  · -- the read-only remount failed: the new bind comes down at once
    refine ⟨fun hc => (by cases hc), fun _ => ?_⟩
    have hmp' : mountedAt (sp.bind src (mountpointDir name ++ v.path)).table (mountpointDir name) = true := by
      refine mountedAt_bind ?_ rfl
      rw [hgrow.table]
      exact hmp
    rw [umount_youngest (hquiet _) (plainNames_of_fits hfit) hmp' hbound rfl rfl]
    exact hgrow
  · exact ⟨fun _ => ⟨sp, _, rfl, hgrow, rfl, hfit, hbound⟩, fun hc => by cases hc⟩

theorem mountEach_spec {env : Env} (hquiet : env.QuietUmounts) {name : Text} {sp₀ : Space}
    (hmp : mountedAt sp₀.table (mountpointDir name) = true) :
    ∀ (vs mounted : List VolumeConfig) {h : Host}, Bound name sp₀.table mounted.reverse h.space →
      Grows sp₀ { h.space with table := sp₀.table } →
      ((mountEach env name mounted vs h).2 = true →
        Bound name sp₀.table (mounted ++ vs).reverse (mountEach env name mounted vs h).1.space) ∧
      ((mountEach env name mounted vs h).2 = false →
        Grows sp₀ (mountEach env name mounted vs h).1.space)
  | [], mounted, h, hb, _ => by
    rw [List.append_nil]
    exact ⟨fun _ => hb, fun hc => by cases hc⟩
  | v :: vs, mounted, h, hb, hg => by
    obtain ⟨hok, hfail⟩ := mountVolume_spec hquiet mounted.length v (hb.mountedAt hmp)
    unfold mountEach
    split
    · rename_i h₁ he
      rw [he] at hok
      obtain ⟨sp, b, hsp, hgrow, hp, hfit, hreal⟩ := hok rfl
      have hsp : h₁.space = { sp with table := sp.table ++ [b] } := hsp
      have hb₁ : Bound name sp₀.table (mounted ++ [v]).reverse h₁.space := by
        rw [List.reverse_append, hsp]
        refine ⟨sp.table, b, rfl, hp, hfit, hreal, ?_⟩
        exact hb.grows hgrow
      have hg₁ : Grows sp₀ { h₁.space with table := sp₀.table } := by
        rw [hsp]
        exact hg.trans ⟨rfl, hgrow.next, hgrow.keep, hgrow.new⟩
      have ih := mountEach_spec hquiet hmp vs (mounted ++ [v]) hb₁ hg₁
      rwa [List.append_assoc, List.singleton_append] at ih
    · rename_i h₁ he
      rw [he] at hfail
      have hgrow : Grows h.space h₁.space := hfail rfl
      refine ⟨fun hc => (by cases hc), fun _ => ?_⟩
      obtain ⟨hsp, -⟩ := @umountEach_bound env .rollbackUmount (fun _ => hquiet _) name sp₀.table hmp
        mounted h₁ (hb.grows hgrow)
      show Grows sp₀ (umountEach env .rollbackUmount name 0 mounted h₁).1.space
      rw [hsp]
      exact hg.trans ⟨rfl, hgrow.next, hgrow.keep, hgrow.new⟩

/-- **After `mount_volumes` all volumes are bound.** -/
theorem mountVolumes_ok {env : Env} (hquiet : env.QuietUmounts) {name : Text} {vs : List VolumeConfig}
    {h : Host} (hmp : mountedAt h.space.table (mountpointDir name) = true)
    (hok : (mountVolumes env name vs h).2 = true) :
    Bound name h.space.table vs.reverse (mountVolumes env name vs h).1.space := by
  unfold mountVolumes at hok ⊢
  split
  · rename_i hsrc
    rw [if_pos hsrc] at hok
    exact (mountEach_spec hquiet hmp vs [] rfl (Grows.refl h.space)).1 hok
  · rename_i hsrc
    rw [if_neg hsrc] at hok
    cases hok

/-- **After a failure only directories were added.** -/
theorem mountVolumes_failed {env : Env} (hquiet : env.QuietUmounts) {name : Text}
    {vs : List VolumeConfig} {h : Host} (hmp : mountedAt h.space.table (mountpointDir name) = true)
    (hfail : (mountVolumes env name vs h).2 = false) :
    Grows h.space (mountVolumes env name vs h).1.space := by
  unfold mountVolumes at hfail ⊢
  split
  · rename_i hsrc
    rw [if_pos hsrc] at hfail
    exact (mountEach_spec hquiet hmp vs [] rfl (Grows.refl h.space)).2 hfail
  · exact Grows.refl h.space

end TinyDocker
