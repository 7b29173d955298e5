import TinyDocker.Docker.System
import TinyDocker.Docker.VolumeRollback

/-!
# Restoring the mount table (`docker/volumes.c`)

What becomes of the mount table of the host when `mount_volumes` fails, and when `umount_volumes` follows a
success.  A run of which no unmount was refused is a run of an environment that refuses none
(`mountVolumes_obliging`), and for that one the bound volumes are known.

Principal result: `volume_mounts_restored`.
-/

set_option autoImplicit false

namespace TinyDocker

open CText MountSpace

/-! ## Refused unmounts -/

def Call.isRefusal : Call → Bool
  | .umount _ (some _) => true
  | _ => false

/-- How many unmounts were refused so far. -/
def Host.refusals (h : Host) : Nat := h.log.countP Call.isRefusal

theorem Host.refusals_record (h : Host) (c : Call) :
    (h.record c).refusals = h.refusals + if c.isRefusal then 1 else 0 := by
  unfold Host.refusals Host.record
  rw [List.countP_append, List.countP_singleton]

/-- The environment in which no unmount is made to fail. -/
def Env.obliging (env : Env) : Env := { env with umountErrno := fun _ => none }

theorem Env.obliging_quiet (env : Env) : env.obliging.QuietUmounts := fun _ => rfl

/-- An unmount that was not refused would not be refused by the obliging environment either. -/
theorem umount_obliging (env : Env) (site : Site) (target : Except Errno Path) (h : Host) :
    h.refusals ≤ (umount env site target h).1.refusals ∧
      ((umount env site target h).1.refusals = h.refusals →
        umount env.obliging site target h = umount env site target h) := by
  unfold umount
  split
  · rename_i table hres
    have hsame : umountResolved env.obliging site target h = .ok table := by
      unfold umountResolved at hres ⊢
      split at hres
      · cases hres
      · split at hres
        · cases hres
        · exact hres
    rw [hsame]
    exact ⟨by rw [Host.refusals_record]; exact Nat.le_add_right _ _, fun _ => rfl⟩
  · rename_i e _
    have hmore : (h.record (.umount site (some e))).refusals = h.refusals + 1 := Host.refusals_record h _
    exact ⟨by rw [hmore]; exact Nat.le_succ _, fun heq => by rw [hmore] at heq; omega⟩

theorem umountTarget_obliging (env : Env) (site : Site) (name : Text) (v : VolumeConfig) (h : Host) :
    h.refusals ≤ (umountTarget env site name v h).1.refusals ∧
      ((umountTarget env site name v h).1.refusals = h.refusals →
        umountTarget env.obliging site name v h = umountTarget env site name v h) := by
  unfold umountTarget
  split
  · exact umount_obliging env site _ h
  · exact ⟨Nat.le_refl _, fun _ => rfl⟩

theorem umountEach_obliging (env : Env) (site : Nat → Site) (name : Text) :
    ∀ (vs : List VolumeConfig) (i : Nat) (h : Host),
      h.refusals ≤ (umountEach env site name i vs h).1.refusals ∧
        ((umountEach env site name i vs h).1.refusals = h.refusals →
          umountEach env.obliging site name i vs h = umountEach env site name i vs h)
  | [], _, h => ⟨Nat.le_refl _, fun _ => rfl⟩
  | v :: vs, i, h => by
    obtain ⟨hle, hlater⟩ := umountEach_obliging env site name vs (i + 1) h
    obtain ⟨hle', hthis⟩ :=
      umountTarget_obliging env (site i) name v (umountEach env site name (i + 1) vs h).1
    refine ⟨Nat.le_trans hle hle', fun heq => ?_⟩
    simp only [umountEach] at heq ⊢
    rw [hlater (by omega), hthis (by omega)]

theorem ensureTarget_refusals (env : Env) (i : Nat) (name : Text) (v : VolumeConfig) (h : Host) :
    (ensureTarget env i name v h).1.refusals = h.refusals := by
  obtain ⟨sp, hsp, -⟩ := ensureTarget_spec env i name v h
  rw [hsp]
  rfl

theorem mountVolume_obliging (env : Env) (i : Nat) (name : Text) (v : VolumeConfig) (h : Host) :
    h.refusals ≤ (mountVolume env i name v h).1.refusals ∧
      ((mountVolume env i name v h).1.refusals = h.refusals →
        mountVolume env.obliging i name v h = mountVolume env i name v h) := by
  have hkeep := ensureTarget_refusals env i name v h
  have hfails : env.obliging.fails = env.fails := rfl
  have hensure : ensureTarget env.obliging i name v h = ensureTarget env i name v h := rfl
  unfold mountVolume
  rw [hfails, hensure]
  cases if env.fails (.sourceResolve i) then .error .EOTHER else h.space.resolve [] (components v.host) with
  | error e => exact ⟨Nat.le_refl _, fun _ => rfl⟩
  | ok src =>
    cases he : ensureTarget env i name v h with
    | mk h₁ made =>
      rw [he] at hkeep
      have hkeep : h₁.refusals = h.refusals := hkeep
      cases made with
      | false => exact ⟨Nat.le_of_eq hkeep.symm, fun _ => rfl⟩
      | true =>
        simp only
        by_cases hbind : env.fails (.bindMount i) = true
        · rw [if_pos hbind, if_pos hbind]
          exact ⟨Nat.le_of_eq hkeep.symm, fun _ => rfl⟩
        by_cases hro : v.ro = 1 ∧ env.fails (.remountReadOnly i) = true
        · rw [if_neg hbind, if_neg hbind, if_pos hro, if_pos hro]
          have hun := umount_obliging env (.remountUmount i)
            (resolveTarget { h₁ with space := h₁.space.bind src (mountpointDir name ++ v.path) } name v.path)
            { h₁ with space := h₁.space.bind src (mountpointDir name ++ v.path) }
          refine ⟨Nat.le_trans (Nat.le_of_eq hkeep.symm) hun.1, fun heq => ?_⟩
          rw [hun.2 (heq.trans hkeep.symm)]
        · rw [if_neg hbind, if_neg hbind, if_neg hro, if_neg hro]
          exact ⟨Nat.le_of_eq hkeep.symm, fun _ => rfl⟩

theorem mountEach_obliging (env : Env) (name : Text) : ∀ (vs mounted : List VolumeConfig) (h : Host),
    h.refusals ≤ (mountEach env name mounted vs h).1.refusals ∧
      ((mountEach env name mounted vs h).1.refusals = h.refusals →
        mountEach env.obliging name mounted vs h = mountEach env name mounted vs h)
  | [], _, h => ⟨Nat.le_refl _, fun _ => rfl⟩
  | v :: vs, mounted, h => by
    obtain ⟨hle, hvol⟩ := mountVolume_obliging env mounted.length name v h
    simp only [mountEach]
    cases he : mountVolume env mounted.length name v h with
    | mk h₁ ok =>
      rw [he] at hle hvol
      have hle : h.refusals ≤ h₁.refusals := hle
      have hvol : h₁.refusals = h.refusals → mountVolume env.obliging mounted.length name v h = (h₁, ok) := hvol
      cases ok with
      | true =>
        obtain ⟨hle', hrest⟩ := mountEach_obliging env name vs (mounted ++ [v]) h₁
        refine ⟨Nat.le_trans hle hle', fun heq => ?_⟩
        simp only at heq
        rw [hvol (by omega)]
        exact hrest (by omega)
      | false =>
        obtain ⟨hle', hback⟩ := umountEach_obliging env .rollbackUmount name mounted 0 h₁
        refine ⟨Nat.le_trans hle hle', fun heq => ?_⟩
        simp only at heq
        rw [hvol (by omega)]
        simp only
        rw [hback (by omega)]

theorem sourcesExist_obliging (env : Env) (h : Host) : ∀ (vs : List VolumeConfig) (i : Nat),
    sourcesExist env.obliging h i vs = sourcesExist env h i vs
  | [], _ => rfl
  | v :: vs, i => by
    simp only [sourcesExist, sourcesExist_obliging env h vs (i + 1)]
    rfl

/-- **Without a refused unmount** `mount_volumes` does what it does when none can be refused. -/
theorem mountVolumes_obliging {env : Env} {name : Text} {vs : List VolumeConfig} {h : Host}
    (hrefused : (mountVolumes env name vs h).1.refusals = h.refusals) :
    mountVolumes env.obliging name vs h = mountVolumes env name vs h := by
  unfold mountVolumes at hrefused ⊢
  rw [sourcesExist_obliging]
  split
  · rename_i hs
    rw [if_pos hs] at hrefused
    exact (mountEach_obliging env name vs [] h).2 hrefused
  · rfl

/-- A successful `mount_volumes` unmounts nothing. -/
theorem mountVolume_ok_refusals {env : Env} {i : Nat} {name : Text} {v : VolumeConfig} {h : Host}
    (hok : (mountVolume env i name v h).2 = true) : (mountVolume env i name v h).1.refusals = h.refusals := by
  have hkeep := ensureTarget_refusals env i name v h
  unfold mountVolume at hok ⊢
  split
  · rfl
  split
  · rename_i he
    rw [he] at hkeep
    exact hkeep
  rename_i hsrc _ _ he
  rw [he] at hkeep
  simp only [hsrc, he] at hok
  split
  · exact hkeep
  · rename_i hbind
    rw [if_neg hbind] at hok
    split
    · rename_i hro
      rw [if_pos hro] at hok
      cases hok
    · exact hkeep

theorem mountEach_ok_refusals {env : Env} {name : Text} : ∀ {vs mounted : List VolumeConfig} {h : Host},
    (mountEach env name mounted vs h).2 = true → (mountEach env name mounted vs h).1.refusals = h.refusals
  | [], _, _, _ => rfl
  | v :: vs, mounted, h, hok => by
    unfold mountEach at hok ⊢
    split
    · rename_i he
      have hvol := mountVolume_ok_refusals (congrArg Prod.snd he)
      simp only [he] at hok hvol
      rw [mountEach_ok_refusals hok, hvol]
    · rename_i he
      simp only [he] at hok
      cases hok

theorem mountVolumes_ok_refusals {env : Env} {name : Text} {vs : List VolumeConfig} {h : Host}
    (hok : (mountVolumes env name vs h).2 = true) : (mountVolumes env name vs h).1.refusals = h.refusals := by
  unfold mountVolumes at hok ⊢
  split
  · rename_i hsrc
    rw [if_pos hsrc] at hok
    exact mountEach_ok_refusals hok
  · rfl

/-! ## The mount table -/

/-- **The mount table is restored.**  For any volume list, with repeated, nested and overlapping targets:
after a failure of `mount_volumes` of which no unmount was refused the table is the one before the call,
and after a success `umount_volumes` on the same list, refused nothing, gives that table back, also when
directories were added in between. -/
theorem volume_mounts_restored (env env' : Env) (name : Text) (vs : List VolumeConfig) (h : Host)
    (hmp : mountedAt h.space.table (mountpointDir name) = true) :
    ((mountVolumes env name vs h).2 = false → (mountVolumes env name vs h).1.refusals = h.refusals →
      (mountVolumes env name vs h).1.space.table = h.space.table) ∧
    ((mountVolumes env name vs h).2 = true → ∀ h' : Host, Grows (mountVolumes env name vs h).1.space h'.space →
      (umountVolumes env' name vs h').1.refusals = h'.refusals →
      (umountVolumes env' name vs h').2 = true ∧
        (umountVolumes env' name vs h').1.space.table = h.space.table) := by
  refine ⟨fun hfail hrefused => ?_, fun hok h' hgrow hrefused => ?_⟩
  · have hsame := mountVolumes_obliging hrefused
    rw [← hsame] at hfail ⊢
    exact (mountVolumes_failed env.obliging_quiet hmp hfail).table
  · have hsame := mountVolumes_obliging (mountVolumes_ok_refusals hok)
    rw [← hsame] at hok hgrow
    have hbound := (mountVolumes_ok env.obliging_quiet hmp hok).grows hgrow
    have hundo := @umountEach_bound env'.obliging .volumeUmount (fun _ => env'.obliging_quiet _) _ _ hmp vs _
      hbound
    have hun := (umountEach_obliging env' .volumeUmount name vs 0 h').2 hrefused
    rw [hun] at hundo
    have htable : (umountVolumes env' name vs h').1.space.table = h.space.table := by
      rw [umountVolumes, hundo.1]
    exact ⟨hundo.2, htable⟩

/-- A host with `/v` and the root of `web001` mounted. -/
def mountedHost : Host :=
  { Host.bare with space :=
    ⟨fun fs q => if fs = 0 ∧ q = [ "v".toList] then some .dir else none,
      [⟨mountpointDir "web001".toList, 1, []⟩], 2⟩ }

/-- One target below another, and one of them twice. -/
def stackedVolumes : List VolumeConfig :=
  [⟨"/v".toList, "/d".toList, 0⟩, ⟨"/v".toList, "/d/x".toList, 0⟩, ⟨"/v".toList, "/d".toList, 1⟩]

/-- The read-only remount of the last volume fails; without that failure all three are bound and come down
again. -/
theorem stackedVolumes_restored :
    (mountVolumes { Env.quiet [] 20 with fails := fun s => decide (s = .remountReadOnly 2) } "web001".toList
        stackedVolumes mountedHost).1.space.table = mountedHost.space.table ∧
    (mountVolumes (.quiet [] 20) "web001".toList stackedVolumes mountedHost).1.space.table.length = 4 ∧
    (umountVolumes (.quiet [] 20) "web001".toList stackedVolumes
        (mountVolumes (.quiet [] 20) "web001".toList stackedVolumes mountedHost).1).1.space.table =
      mountedHost.space.table := by
  refine ⟨(volume_mounts_restored _ (.quiet [] 20) _ _ _ (by decide)).1 (by decide +kernel) (by decide +kernel),
    by decide +kernel, ?_⟩
  exact ((volume_mounts_restored (.quiet [] 20) (.quiet [] 20) _ _ _ (by decide)).2 (by decide +kernel) _
    (Grows.refl _) (by decide +kernel)).2

end TinyDocker
