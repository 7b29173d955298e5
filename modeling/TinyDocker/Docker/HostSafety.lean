import TinyDocker.Docker.System

/-!
# The recursive delete never crosses a mount

`remove_dir` deletes whatever it finds below a container directory, through mounts as well.  It is
called after the volumes and the overlay were unmounted, and `EINVAL` and `ENOENT` count as done.

`MountsOk` is the invariant: the mounts of every container hang on its mountpoint, and a record
names enough volumes to unmount everything that is stacked on the mountpoint itself.

Principal result: `remove_dir_crosses_no_mount` — in every run in which no `docker run` has a volume
on the container root after the 32 that are recorded, nothing is mounted at or below the directory
whenever `remove_dir` is called.
-/

set_option autoImplicit false

namespace TinyDocker

open CText MountSpace Staged

/-- A refused `umount` does not claim that nothing is mounted. -/
def Env.Truthful (env : Env) : Prop :=
  ∀ site, env.umountErrno site ≠ some .EINVAL ∧ env.umountErrno site ≠ some .ENOENT

/-- The volumes that are mounted over the container root. -/
def rootVolumes (vs : List VolumeConfig) : Nat := vs.countP fun v => decide (v.path = [])

def rootCount (name : Text) (h : Host) : Nat := countAt (mountpointDir name) h.space.table

structure MountsOk (h : Host) : Prop where
  stack : ∀ n, Stack (containerDir n) (mountpointDir n) h.space.table
  workspace : ∀ n, mountsBelow n h.space.table ≠ [] → h.workspace n = true
  recorded : ∀ n i, h.info n = some i →
    rootCount n h ≤ 1 + rootVolumes (i.volumes.map parseVolumeConfig)
  removed : ∀ n l, Call.removeDir n l ∈ h.log → l = []

/-! ## Paths -/

theorem containerDir_isPrefix (n : Text) : containerDir n <+: mountpointDir n := List.prefix_append _ _

/-- The directories of two containers are apart. -/
theorem eq_of_containerDir_isPrefix {n m : Text} {rest : Path}
    (h : containerDir n <+: mountpointDir m ++ rest) : n = m := by
  obtain ⟨t, ht⟩ := h
  simp only [mountpointDir, containerDir, List.cons_append, List.cons.injEq, true_and] at ht
  exact ht.1

theorem eq_of_mountpointDir_isPrefix {n m : Text} {rest : Path}
    (h : mountpointDir m ++ rest <+: mountpointDir n) : mountpointDir m ++ rest = mountpointDir n := by
  refine h.eq_of_length_le ?_
  have hlen : ∀ k, (mountpointDir k).length = 6 := fun _ => rfl
  rw [List.length_append, hlen, hlen]
  omega

/-! ## Unmounting -/

section Umount

variable {h : Host} {env : Env}

/-- Mounts may go. -/
theorem MountsOk.setTable (hI : MountsOk h) {table : List Mount}
    (hstack : ∀ n, Stack (containerDir n) (mountpointDir n) table)
    (hsub : ∀ n, mountsBelow n table ≠ [] → mountsBelow n h.space.table ≠ [])
    (hcount : ∀ n, countAt (mountpointDir n) table ≤ rootCount n h) {log : List Call}
    (hlog : ∀ n l, Call.removeDir n l ∈ log → Call.removeDir n l ∈ h.log) :
    MountsOk { h with space := { h.space with table := table }, log := log } :=
  ⟨hstack, fun n hn => hI.workspace n (hsub n hn), fun n i hi => le_trans (hcount n) (hI.recorded n i hi),
    fun n l hl => hI.removed n l (hlog n l hl)⟩

/-- **Every unmount keeps the invariant** and leaves no more mounts on any mountpoint. -/
theorem MountsOk.umount (hI : MountsOk h) (env : Env) (site : Site) (t : Except Errno Path) :
    MountsOk (umount env site t h).1 ∧ ∀ n, rootCount n (umount env site t h).1 ≤ rootCount n h := by
  have hlog : ∀ c : Call, (∀ n l, c ≠ .removeDir n l) → ∀ n l,
      Call.removeDir n l ∈ h.log ++ [c] → Call.removeDir n l ∈ h.log := by
    intro c hc n l hm
    rcases List.mem_append.1 hm with hm | hm
    · exact hm
    · exact absurd (List.mem_singleton.1 hm).symm (hc n l)
  unfold TinyDocker.umount
  split
  · rename_i table hu
    unfold umountResolved at hu
    split at hu
    · cases hu
    split at hu
    · cases hu
    have hle := fun n => countAt_umount_le (r := mountpointDir n) hu
    refine ⟨hI.setTable (fun n => (hI.stack n).umount hu) (fun n hn hnil => hn ?_) hle
      (hlog _ fun _ _ hc => by cases hc), hle⟩
    obtain ⟨before, m, after, htab, rfl, -, -⟩ := umountAt_ok hu
    have hno := below_eq_nil.1 hnil
    rw [htab] at hno
    refine below_eq_nil.2 fun x hx => hno x ?_
    rcases List.mem_append.1 hx with hx | hx
    · exact List.mem_append_left _ hx
    · exact List.mem_append_right _ (List.mem_cons_of_mem _ hx)
  · refine ⟨⟨hI.stack, hI.workspace, hI.recorded, fun n l hm => hI.removed n l ?_⟩, fun _ => le_refl _⟩
    exact hlog _ (fun _ _ hc => by cases hc) n l hm

/-- **An unmount of the mountpoint that counts as done** has taken one mount off it, if any was
there. -/
theorem umount_root (htrue : env.Truthful) {name : Text} (site : Site)
    (hs : Stack (containerDir name) (mountpointDir name) h.space.table)
    (hdone : (umount env site (.ok (mountpointDir name)) h).2 = true) :
    rootCount name (umount env site (.ok (mountpointDir name)) h).1 ≤ rootCount name h - 1 := by
  unfold TinyDocker.umount at hdone ⊢
  split
  · rename_i table hu
    simp only [umountResolved] at hu
    split at hu
    · cases hu
    have hpop := countAt_pop hu
    show countAt (mountpointDir name) table ≤ _
    unfold rootCount
    omega
  · rename_i e hu
    rw [hu] at hdone
    simp only [decide_eq_true_eq] at hdone
    simp only [umountResolved] at hu
    split at hu
    · rename_i e' he'
      cases hu
      rcases hdone with rfl | rfl
      · exact absurd he' (htrue site).1
      · exact absurd he' (htrue site).2
    · -- the kernel reports `EINVAL` only, and truthfully
      have hzero : rootCount name h = 0 := by
        rcases hdone with rfl | rfl
        · exact hs.einval (containerDir_isPrefix name) hu
        · unfold umountAt at hu
          split at hu
          · split at hu <;> cases hu
          split at hu
          · cases hu
          split at hu <;> cases hu
      show rootCount name h ≤ _
      omega

theorem resolveTarget_nil (h : Host) (name : Text) :
    resolveTarget h name [] = .ok (mountpointDir name) := by
  unfold resolveTarget
  split
  · rfl
  · rw [if_pos rfl]

/-- **Unmounting a volume list** that counts as done has taken one mount off the mountpoint for
every volume on the container root. -/
theorem umountEach_mounts (env : Env) (site : Nat → Site) (name : Text) :
    ∀ (vs : List VolumeConfig) (i : Nat) {h : Host}, MountsOk h →
      MountsOk (umountEach env site name i vs h).1 ∧
      (∀ n, rootCount n (umountEach env site name i vs h).1 ≤ rootCount n h) ∧
      (env.Truthful → (umountEach env site name i vs h).2 = true →
        rootCount name (umountEach env site name i vs h).1 ≤ rootCount name h - rootVolumes vs)
  | [], _, _, hI => ⟨hI, fun _ => le_refl _, fun _ _ => Nat.le_refl _⟩
  | v :: vs, i, h, hI => by
    obtain ⟨hI₁, hle₁, hdone₁⟩ := umountEach_mounts env site name vs (i + 1) hI
    unfold umountEach
    simp only
    generalize umountEach env site name (i + 1) vs h = later at hI₁ hle₁ hdone₁ ⊢
    unfold umountTarget
    split
    · obtain ⟨hI₂, hle₂⟩ := hI₁.umount env (site i) (resolveTarget later.1 name v.path)
      refine ⟨hI₂, fun n => le_trans (hle₂ n) (hle₁ n), fun htrue hdone => ?_⟩
      rw [Bool.and_eq_true] at hdone
      have hlater := hdone₁ htrue hdone.1
      by_cases hroot : v.path = []
      · rw [hroot, resolveTarget_nil] at hdone ⊢
        have := umount_root htrue (site i) (hI₁.stack name) hdone.2
        simp only [rootVolumes, List.countP_cons, hroot, decide_true, if_true]
        unfold rootVolumes at hlater
        omega
      · have := hle₂ name
        simp only [rootVolumes, List.countP_cons, hroot, decide_false, Bool.false_eq_true, if_false]
        unfold rootVolumes at hlater
        omega
    · refine ⟨hI₁, hle₁, fun _ hdone => ?_⟩
      rw [Bool.and_eq_true] at hdone
      cases hdone.2

/-- **When volumes and overlay count as unmounted, nothing is mounted below the directory any
more**, provided the list names every volume on the container root. -/
theorem umountAll_mounts (env : Env) (name : Text) (vs : List VolumeConfig) (hI : MountsOk h) :
    MountsOk (umountAll env name vs h).1 ∧
      (env.Truthful → rootCount name h ≤ 1 + rootVolumes vs → (umountAll env name vs h).2 = true →
        mountsBelow name (umountAll env name vs h).1.space.table = []) := by
  obtain ⟨hI₁, -, hdone₁⟩ := umountEach_mounts env .volumeUmount name vs 0 hI
  obtain ⟨hI₂, -⟩ := hI₁.umount env .rootUmount (.ok (mountpointDir name))
  refine ⟨hI₂, fun htrue hle hdone => (hI₂.stack name).below_nil ?_⟩
  simp only [umountAll, Bool.and_eq_true] at hdone
  have hv := hdone₁ htrue hdone.1
  have hr := umount_root htrue .rootUmount (hI₁.stack name) hdone.2
  have hzero : rootCount name (umountAll env name vs h).1 ≤ 0 := by
    refine le_trans hr ?_
    omega
  exact Nat.le_zero.1 hzero

end Umount

/-! ## Steps that leave the mounts alone -/

/-- The invariant depends on the mount table, the workspaces, the recorded volumes and the logged
deletions only. -/
theorem MountsOk.congr {h h' : Host} (hI : MountsOk h) (htable : h'.space.table = h.space.table)
    (hws : h'.workspace = h.workspace)
    (hlog : ∀ n l, Call.removeDir n l ∈ h'.log → Call.removeDir n l ∈ h.log)
    (hinfo : ∀ n i', h'.info n = some i' → ∃ i, h.info n = some i ∧ i'.volumes = i.volumes) :
    MountsOk h' := by
  refine ⟨?_, ?_, fun n i' hi' => ?_, fun n l hl => hI.removed n l (hlog n l hl)⟩
  · rw [htable]; exact hI.stack
  · rw [htable, hws]; exact hI.workspace
  · obtain ⟨i, hi, hv⟩ := hinfo n i' hi'
    unfold rootCount
    rw [htable, hv]
    exact hI.recorded n i hi

section Frames

variable {h h' : Host}

theorem MountsOk.net (hI : MountsOk h) (ho : OnlyNet h h') : MountsOk h' := by
  obtain ⟨_, _, _, _, rfl⟩ := ho
  exact hI.congr rfl rfl (fun _ _ hm => hm) fun _ i hi => ⟨i, hi, rfl⟩

theorem MountsOk.procs (hI : MountsOk h) (ho : OnlyProcs h h') : MountsOk h' := by
  obtain ⟨_, rfl⟩ := ho
  exact hI.congr rfl rfl (fun _ _ hm => hm) fun _ i hi => ⟨i, hi, rfl⟩

theorem MountsOk.status (hI : MountsOk h) {name : Text} (ho : OnlyStatus name h h') : MountsOk h' := by
  have hrecord := @ho.record
  obtain ⟨o, rfl, -⟩ := ho
  refine hI.congr rfl rfl (fun _ _ hm => hm) fun n i' hi' => ?_
  obtain ⟨i, _, hi, rfl, -⟩ := hrecord hi'
  exact ⟨i, hi, rfl⟩

theorem MountsOk.rmdirCgroup (hI : MountsOk h) (env : Env) (site : Site) (name : Text) :
    MountsOk (rmdirCgroup env site name h).1 := by
  unfold TinyDocker.rmdirCgroup
  split
  · exact hI
  split
  · exact hI
  · exact hI.congr rfl rfl (fun _ _ hm => hm) fun _ i hi => ⟨i, hi, rfl⟩

/-- **The workspace goes only when nothing is mounted in it.** -/
theorem MountsOk.removeWorkspace (hI : MountsOk h) (env : Env) (name : Text) {b : Bool}
    (hb : b = true → mountsBelow name h.space.table = []) :
    MountsOk (removeWorkspace env name b h).1 := by
  unfold TinyDocker.removeWorkspace
  split
  · rename_i hclean
    have hlog : ∀ n l, Call.removeDir n l ∈
        h.log ++ [Call.removeDir name (mountsBelow name h.space.table)] → l = [] := by
      intro n l hm
      rcases List.mem_append.1 hm with hm | hm
      · exact hI.removed n l hm
      · cases List.mem_singleton.1 hm
        exact hb hclean
    unfold removeDir
    simp only
    split
    · exact ⟨hI.stack, hI.workspace, hI.recorded, hlog⟩
    split
    · exact ⟨hI.stack, hI.workspace, hI.recorded, hlog⟩
    · rename_i hok
      simp only [not_or, not_not] at hok
      refine ⟨hI.stack, fun n hn => ?_, hI.recorded, hlog⟩
      by_cases he : n = name
      · subst he
        exact absurd hok.2 hn
      · show Function.update h.workspace name false n = true
        rw [Function.update_of_ne he]
        exact hI.workspace n hn
  · exact hI

end Frames

/-! ## `docker rm` -/

theorem MountsOk.cleanContainerRuntime {h : Host} (hI : MountsOk h) {env : Env} (htrue : env.Truthful)
    {name : Text} {info : ContainerInfo} (hi : h.info name = some info) :
    MountsOk (cleanContainerRuntime env name info h).1 := by
  rcases cleanContainerRuntime_cases env name info h with he | ⟨m, n, d, c, rfl, rfl, rfl, rfl, hlast⟩
  · rw [he]; exact hI
  obtain ⟨hm, hgone⟩ := umountAll_mounts env name (info.volumes.map parseVolumeConfig) hI
  have hgone := hgone htrue (hI.recorded name info hi)
  generalize umountAll env name (info.volumes.map parseVolumeConfig) h = m at hm hgone hlast
  have hnet := cleanNetwork_only env name info.ipAddr m.1
  have hn := hm.net hnet
  have hspace : (cleanNetwork env name info.ipAddr m.1).1.space = m.1.space := by
    obtain ⟨_, _, _, _, he⟩ := hnet
    rw [he]
  have hd := hn.removeWorkspace env name (b := m.2) (by rw [hspace]; exact hgone)
  have hc := hd.rmdirCgroup env .cgroupRmdir name
  rcases hlast with he | ⟨-, -, -, -, he⟩
  · rw [he]; exact hc
  · rw [he]; exact hc.status (removeStatusInfo_status env name _)

theorem MountsOk.rmContainer {h : Host} (hI : MountsOk h) {env : Env} (htrue : env.Truthful)
    (name : Text) : MountsOk (rmContainer env name h).1 := by
  rcases rmContainer_cases env name h with he | ⟨i, h', o, hi, href, hcase⟩
  · rw [he]; exact hI
  have hI' := hI.status (refresh_status env hi)
  rw [href] at hI'
  rcases hcase with he | ⟨j, rfl, -, he⟩
  · rw [he]; exact hI'
  rw [he]
  refine MountsOk.cleanContainerRuntime ?_ htrue (refresh_info hi href).1
  refine hI'.congr rfl rfl (fun n l hm => ?_) fun _ i hi => ⟨i, hi, rfl⟩
  rcases List.mem_append.1 hm with hm | hm
  · exact hm
  · cases List.mem_singleton.1 hm

theorem MountsOk.dockerRm : ∀ (targets : List (Text × Env)) {h : Host}, MountsOk h →
    (∀ t ∈ targets, t.2.Truthful) → MountsOk (dockerRm targets h).1
  | [], _, hI, _ => hI
  | (name, env) :: rest, _, hI, htrue => by
    have hI₁ := hI.rmContainer (htrue (name, env) List.mem_cons_self) name
    exact MountsOk.dockerRm rest hI₁ fun t ht => htrue t (List.mem_cons_of_mem _ ht)

theorem MountsOk.dockerStop (time : Nat) : ∀ (targets : List (Text × Env)) {h : Host}, MountsOk h →
    MountsOk (dockerStop time targets h).1
  | [], _, hI => hI
  | (name, env) :: rest, h, hI => by
    refine MountsOk.dockerStop time rest ?_
    rcases stopContainer_cases env time name h with he | ⟨i, h₁, o, hi, href, h₂, hprocs, hlast⟩
    · rw [he]; exact hI
    have hI₁ := hI.status (refresh_status env hi)
    rw [href] at hI₁
    have hI₂ := hI₁.procs hprocs
    rcases hlast with he | he
    · rw [he]; exact hI₂
    · rw [he]; exact hI₂.status (updateContainerStatus_status env name (by decide) h₂)

/-! ## `docker run` -/

section Run

variable {env : Env} {args : RunArguments} {name : Text}

/-- A new mount at or below a mountpoint, the first one on the mountpoint itself. -/
theorem MountsOk.push {h : Host} (hI : MountsOk h) {sp : Space} {m : Mount} {q : Path}
    (htable : sp.table = h.space.table ++ [m]) (hpath : m.path = mountpointDir name ++ q)
    (hfirst : mountsBelow name h.space.table = [] → q = []) (hws : h.workspace name = true)
    (hinfo : h.info name = none) : MountsOk { h with space := sp } := by
  have hother : ∀ n, containerDir n <+: m.path → n = name := by
    intro n hn
    rw [hpath] at hn
    exact eq_of_containerDir_isPrefix hn
  refine ⟨fun n => ?_, fun n hn => ?_, fun n i hi => ?_, hI.removed⟩
  · rw [htable]
    refine (hI.stack n).push (fun hd => ?_) fun hpre => ?_
    · have hn := hother n hd
      subst hn
      rw [hpath]
      exact ⟨List.prefix_append _ _, fun he => by rw [hfirst he, List.append_nil]⟩
    · rw [hpath] at hpre ⊢
      exact eq_of_mountpointDir_isPrefix hpre
  · rw [htable, mountsBelow, below_append] at hn
    by_cases he : n = name
    · rw [he]; exact hws
    · refine hI.workspace n fun hnil => hn ?_
      unfold mountsBelow at hnil
      rw [hnil, List.nil_append, below_eq_nil]
      intro x hx hd
      rw [List.mem_singleton.1 hx] at hd
      exact he (hother n hd)
  · have hne : n ≠ name := by
      rintro rfl
      rw [hinfo] at hi
      cases hi
    have hcount : countAt (mountpointDir n) sp.table = rootCount n h := by
      rw [htable]
      unfold rootCount countAt
      rw [List.countP_append, List.countP_singleton, if_neg, Nat.add_zero]
      rw [decide_eq_true_eq]
      intro hp
      exact hne (hother n (hp ▸ containerDir_isPrefix n))
    show countAt (mountpointDir n) sp.table ≤ _
    rw [hcount]
    exact hI.recorded n i hi

/-- While volumes are being mounted: `k` bounds the mounts on the mountpoint. -/
structure Mounting (name : Text) (k : Nat) (h : Host) : Prop where
  ok : MountsOk h
  unrecorded : h.info name = none
  rooted : mountsBelow name h.space.table ≠ []
  bound : rootCount name h ≤ k

/-- After mounting, successful or not. -/
structure Mounted (name : Text) (k : Nat) (h : Host) : Prop where
  ok : MountsOk h
  bound : rootCount name h ≤ k

theorem Mounted.umount {k : Nat} {h : Host} (hm : Mounted name k h) (env : Env) (site : Site)
    (t : Except Errno Path) : Mounted name k (umount env site t h).1 := by
  obtain ⟨hI, hle⟩ := hm.ok.umount env site t
  exact ⟨hI, le_trans (hle name) hm.bound⟩

theorem Mounting.ensureTarget {k : Nat} {h : Host} (hm : Mounting name k h) (env : Env) (i : Nat)
    (v : VolumeConfig) : Mounting name k (ensureTarget env i name v h).1 := by
  unfold TinyDocker.ensureTarget
  split
  · exact hm
  · have hgrow := (@ensureDirs_ok (fun k => env.fails (.makeTarget i k)) (fun k => env.fails (.openTarget i k))
      v.path (mountpointDir name) 0 h.space).1
    refine ⟨hm.ok.congr hgrow.table rfl (fun _ _ hl => hl) fun _ i hi => ⟨i, hi, rfl⟩, hm.unrecorded, ?_, ?_⟩
    · show mountsBelow name (ensureDirs _ _ 0 h.space _ _).1.table ≠ []
      rw [hgrow.table]
      exact hm.rooted
    · show countAt _ (ensureDirs _ _ 0 h.space _ _).1.table ≤ k
      rw [hgrow.table]
      exact hm.bound

theorem Mounting.bind {k : Nat} {h : Host} (hm : Mounting name k h) (src rest : Path) :
    Mounting name (k + if rest = [] then 1 else 0)
      { h with space := h.space.bind src (mountpointDir name ++ rest) } := by
  refine ⟨hm.ok.push rfl rfl (fun he => absurd he hm.rooted) (hm.ok.workspace name hm.rooted)
    hm.unrecorded, hm.unrecorded, ?_, ?_⟩
  · show below _ (h.space.table ++ [_]) ≠ []
    rw [below_append]
    exact fun he => hm.rooted (List.append_eq_nil_iff.1 he).1
  · have hb := hm.bound
    unfold rootCount countAt at hb ⊢
    show List.countP _ (h.space.table ++ [_]) ≤ _
    rw [List.countP_append, List.countP_singleton]
    simp only [List.append_right_eq_self, decide_eq_true_eq]
    omega

/-- One volume. -/
theorem Mounting.mountVolume {k : Nat} {h : Host} (hm : Mounting name k h) (env : Env) (i : Nat)
    (v : VolumeConfig) :
    Mounted name (k + rootVolumes [v]) (mountVolume env i name v h).1 ∧
      ((mountVolume env i name v h).2 = true →
        Mounting name (k + rootVolumes [v]) (mountVolume env i name v h).1) := by
  have hroot : rootVolumes [v] = if v.path = [] then 1 else 0 := by
    simp [rootVolumes, List.countP_singleton]
  have hweak : ∀ {h : Host}, Mounting name k h → Mounted name (k + rootVolumes [v]) h :=
    fun hm => ⟨hm.ok, le_trans hm.bound (Nat.le_add_right _ _)⟩
  have hens := hm.ensureTarget env i v
  unfold TinyDocker.mountVolume
  split
  · exact ⟨hweak hm, fun hc => by cases hc⟩
  rename_i src _
  split
  · rename_i h₁ he
    rw [he] at hens
    exact ⟨hweak hens, fun hc => by cases hc⟩
  · rename_i h₁ he
    rw [he] at hens
    split
    · exact ⟨hweak hens, fun hc => by cases hc⟩
    have hbind := hens.bind src v.path
    rw [← hroot] at hbind
    simp only
    split
    · exact ⟨Mounted.umount ⟨hbind.ok, hbind.bound⟩ env _ _, fun hc => by cases hc⟩
    · exact ⟨⟨hbind.ok, hbind.bound⟩, fun _ => hbind⟩

theorem rootVolumes_append (vs ws : List VolumeConfig) :
    rootVolumes (vs ++ ws) = rootVolumes vs + rootVolumes ws := List.countP_append ..

/-- **The volumes**, with the rollback. -/
theorem Mounting.mountEach (env : Env) : ∀ (vs mounted : List VolumeConfig) {h : Host},
    Mounting name (1 + rootVolumes mounted) h →
      Mounted name (1 + rootVolumes (mounted ++ vs)) (mountEach env name mounted vs h).1
  | [], mounted, h, hm => by
    rw [List.append_nil]
    exact ⟨hm.ok, hm.bound⟩
  | v :: vs, mounted, h, hm => by
    obtain ⟨hfail, hok⟩ := hm.mountVolume env mounted.length v
    have hadd : 1 + rootVolumes mounted + rootVolumes [v] = 1 + rootVolumes (mounted ++ [v]) := by
      rw [rootVolumes_append]
      omega
    rw [hadd] at hfail hok
    unfold TinyDocker.mountEach
    split
    · rename_i h₁ he
      rw [he] at hok
      have ih := Mounting.mountEach env vs (mounted ++ [v]) (hok rfl)
      rwa [List.append_assoc, List.singleton_append] at ih
    · rename_i h₁ he
      rw [he] at hfail
      obtain ⟨hI, hle, -⟩ := umountEach_mounts env .rollbackUmount name mounted 0 hfail.ok
      refine ⟨hI, le_trans (hle name) (le_trans hfail.bound ?_)⟩
      have hall : rootVolumes (mounted ++ v :: vs) = rootVolumes (mounted ++ [v]) + rootVolumes vs := by
        rw [← rootVolumes_append, List.append_assoc, List.singleton_append]
      omega

/-- Before the first stage. -/
structure Unmounted (name : Text) (st : RunState) : Prop where
  ok : MountsOk st.host
  unrecorded : st.host.info name = none
  clear : mountsBelow name st.host.space.table = []
  unset : st.mountpointSet = false

/-- From the volume stage on, and at every failure. -/
structure RunMounts (args : RunArguments) (st : RunState) : Prop where
  ok : MountsOk st.host
  bound : rootCount args.name st.host ≤ 1 + rootVolumes args.volumes
  clear : st.mountpointSet = false → mountsBelow args.name st.host.space.table = []

theorem rootCount_eq_zero {h : Host} (hc : mountsBelow name h.space.table = []) : rootCount name h = 0 := by
  refine List.countP_eq_zero.2 fun x hx hp => ?_
  refine below_eq_nil.1 hc x hx ?_
  rw [of_decide_eq_true hp]
  exact containerDir_isPrefix name

theorem Unmounted.runMounts {st : RunState} (hu : Unmounted args.name st) : RunMounts args st :=
  ⟨hu.ok, by rw [rootCount_eq_zero hu.clear]; omega, fun _ => hu.clear⟩

theorem initContainerWorkerspace_mounts :
    Triple (Unmounted args.name) (initContainerWorkerspace env args)
      (fun st => Mounting args.name 1 st.host ∧ st.mountpointSet = true) (RunMounts args) := by
  intro st hu
  -- the workspace is there, nothing is mounted yet
  have hmade : MountsOk { st.host with workspace := Function.update st.host.workspace args.name true } := by
    refine ⟨hu.ok.stack, fun n hn => ?_, hu.ok.recorded, hu.ok.removed⟩
    show Function.update st.host.workspace args.name true n = true
    by_cases he : n = args.name
    · rw [he, Function.update_self]
    · rw [Function.update_of_ne he]
      exact hu.ok.workspace n hn
  have hzero := rootCount_eq_zero hu.clear
  have hmid : ∀ set, RunMounts args { st with
      host := { st.host with workspace := Function.update st.host.workspace args.name true }
      mountpointSet := set } := by
    intro set
    refine ⟨hmade, ?_, fun _ => hu.clear⟩
    show rootCount args.name st.host ≤ _
    omega
  refine ⟨fun st' h' => ?_, fun e he => ?_⟩
  · unfold initContainerWorkerspace at h'
    split at h'
    · cases h'
    split at h'
    · cases h'
    rename_i lower _
    split at h'
    · cases h'
    simp only at h'
    split at h'
    · cases h'
    split at h'
    · cases h'
    · cases h'
      refine ⟨⟨hmade.push (q := []) rfl (List.append_nil _).symm (fun _ => rfl)
        (Function.update_self ..) hu.unrecorded, hu.unrecorded, ?_, ?_⟩, rfl⟩
      · show below _ (st.host.space.table ++ [_]) ≠ []
        rw [below_append]
        intro hnil
        have := below_eq_nil.1 (List.append_eq_nil_iff.1 hnil).2 _ List.mem_cons_self
        exact this (containerDir_isPrefix args.name)
      · show countAt _ (st.host.space.table ++ [_]) ≤ 1
        unfold rootCount countAt at hzero
        unfold countAt
        rw [List.countP_append, hzero, List.countP_singleton]
        split <;> omega
  · unfold initContainerWorkerspace at he
    split at he
    · cases he; exact hu.runMounts
    split at he
    · cases he; exact hu.runMounts
    split at he
    · cases he; exact hu.runMounts
    simp only at he
    split at he
    · cases he; exact hmid st.mountpointSet
    split at he
    · cases he; exact hmid true
    · cases he

theorem volumeStage_mounts :
    Triple (fun st => Mounting args.name 1 st.host ∧ st.mountpointSet = true) (volumeStage env args)
      (RunMounts args) (RunMounts args) := by
  intro st ⟨hm, hset⟩
  have hres : Mounted args.name (1 + rootVolumes args.volumes)
      (mountVolumes env args.name args.volumes st.host).1 := by
    unfold mountVolumes
    split
    · exact Mounting.mountEach env args.volumes [] hm
    · exact ⟨hm.ok, le_trans hm.bound (Nat.le_add_right _ _)⟩
  have hdone : ∀ h, h = (mountVolumes env args.name args.volumes st.host).1 →
      RunMounts args { st with host := h } := by
    rintro h rfl
    exact ⟨hres.ok, hres.bound, fun hc => by rw [hset] at hc; cases hc⟩
  refine ⟨fun st' h' => ?_, fun e he => ?_⟩
  · unfold volumeStage at h'
    split at h'
    · rename_i h hv
      cases h'
      exact hdone h (by rw [hv])
    · cases h'
  · unfold volumeStage at he
    split at he
    · cases he
    · rename_i h hv
      cases he
      exact hdone h (by rw [hv])

theorem rootVolumes_take (hlate : ∀ v ∈ args.volumes.drop MAX_RECORDED_VOLUMES, v.path ≠ []) :
    rootVolumes (args.volumes.take MAX_RECORDED_VOLUMES) = rootVolumes args.volumes := by
  have hdrop : rootVolumes (args.volumes.drop MAX_RECORDED_VOLUMES) = 0 :=
    List.countP_eq_zero.2 fun v hv hp => hlate v hv (of_decide_eq_true hp)
  calc rootVolumes (args.volumes.take MAX_RECORDED_VOLUMES)
      = rootVolumes (args.volumes.take MAX_RECORDED_VOLUMES) +
          rootVolumes (args.volumes.drop MAX_RECORDED_VOLUMES) := by rw [hdrop, Nat.add_zero]
    _ = rootVolumes args.volumes := by rw [← rootVolumes_append, List.take_append_drop]

/-- The record that is written names all volumes on the container root. -/
theorem metadataStage_mounts (hcli : ∀ v ∈ args.volumes, CliVolume v)
    (hlate : ∀ v ∈ args.volumes.drop MAX_RECORDED_VOLUMES, v.path ≠ []) :
    Triple (RunMounts args) (metadataStage env args) (RunMounts args) (RunMounts args) := by
  refine Triple.keep (fun st hr => ?_) fun _ hr => hr
  unfold metadataStage
  split
  · exact hr
  rename_i info hinfo
  rcases writeContainerInfo_cases env args.name info st.host with hw | hw
  · rw [hw]; exact hr
  · rw [hw]
    refine ⟨⟨hr.ok.stack, hr.ok.workspace, fun n i hi => ?_, hr.ok.removed⟩, hr.bound, hr.clear⟩
    by_cases hn : n = args.name
    · subst hn
      have hi : (st.host.setInfo args.name (some info)).info args.name = some i := hi
      rw [Host.setInfo_self] at hi
      cases hi
      have hvol := (createContainerInfo_ok hinfo).2.2.2.2.2
      rw [recordVolumes_reparse (fun v hv => hcli v (List.mem_of_mem_take hv)) hvol,
        rootVolumes_take hlate]
      exact hr.bound
    · have hi : (st.host.setInfo args.name (some info)).info n = some i := hi
      rw [Host.setInfo_of_ne _ hn] at hi
      exact hr.ok.recorded n i hi

theorem RunMounts.congr {st st' : RunState} (hr : RunMounts args st) (hok : MountsOk st'.host)
    (hspace : st'.host.space = st.host.space) (hset : st'.mountpointSet = st.mountpointSet) :
    RunMounts args st' := by
  refine ⟨hok, ?_, ?_⟩
  · unfold rootCount
    rw [hspace]
    exact hr.bound
  · rw [hspace, hset]
    exact hr.clear

theorem runStages_mounts (hcli : ∀ v ∈ args.volumes, CliVolume v)
    (hlate : ∀ v ∈ args.volumes.drop MAX_RECORDED_VOLUMES, v.path ≠ []) :
    TripleAll (Unmounted args.name) (runStages env args) (RunMounts args) (RunMounts args) := by
  have hplain : ∀ (st : RunState) {procs : List Proc} {clock : Nat} {cgroups : List Text},
      RunMounts args st →
      MountsOk { st.host with procs := procs, clock := clock, cgroups := cgroups } :=
    fun st _ _ _ hr => hr.ok.congr rfl rfl (fun _ _ hl => hl) fun _ i hi => ⟨i, hi, rfl⟩
  refine .cons initContainerWorkerspace_mounts <|
    .cons volumeStage_mounts <|
    .cons (Q := RunMounts args) (.keep (fun st hr => ?_) fun _ hr => hr) <|
    .cons (Q := RunMounts args) (.keep (fun st hr => ?_) fun _ hr => hr) <|
    .cons (Q := RunMounts args) (.keep (fun st hr => ?_) fun _ hr => hr) <|
    .cons (Q := RunMounts args) (.keep (fun st hr => ?_) fun _ hr => hr) <|
    .cons (Q := RunMounts args) (.keep (fun st hr => ?_) fun _ hr => hr) <|
    .cons (Q := RunMounts args) (.keep (fun st hr => ?_) fun _ hr => hr) <|
    .cons (metadataStage_mounts hcli hlate) <|
    .cons (Q := RunMounts args) (.keep (fun st hr => ?_) fun _ hr => hr) .nil
  · obtain ⟨_, _, he⟩ := cgroupPrepare_outcome env args st
    rw [he]
    exact hr.congr (hplain st hr) rfl rfl
  · obtain ⟨_, he⟩ := pipeStage_outcome env st
    rw [he]
    exact hr.congr hr.ok rfl rfl
  · obtain ⟨_, _, _, he⟩ := cloneStage_outcome env st
    rw [he]
    exact hr.congr (hplain st hr) rfl rfl
  · obtain ⟨_, he⟩ := cgroupApply_outcome env args st
    rw [he]
    exact hr.congr (hplain st hr) rfl rfl
  · obtain ⟨h, _, ho, he⟩ := connectStage_outcome env args st
    rw [he]
    have hok := hr.ok.net ho.net
    obtain ⟨_, _, _, rfl⟩ := ho
    exact hr.congr hok rfl rfl
  · obtain ⟨h, ho, he, -⟩ := portStage_outcome env args st
    rw [he]
    have hok := hr.ok.net ho.net
    obtain ⟨_, rfl⟩ := ho
    exact hr.congr hok rfl rfl
  · obtain ⟨_, he⟩ := releaseStage_outcome env st
    rw [he]
    exact hr.congr hr.ok rfl rfl

/-- The cleanup, from wherever the run has failed. -/
theorem RunMounts.cleanup {st : RunState} (hr : RunMounts args st) (htrue : env.Truthful) :
    MountsOk (cleanupRunFailure env args st) := by
  have hkill : OnlyProcs st.host (killChild st) := by
    unfold killChild
    split
    · exact OnlyProcs.refl _
    · exact ⟨_, rfl⟩
  have hnet := dropNetwork_only env args.name st.ipAddr (killChild st)
  have hok := (hr.ok.procs hkill).net hnet
  have hspace : (dropNetwork env args.name st.ipAddr (killChild st)).space = st.host.space := by
    obtain ⟨_, hk⟩ := hkill
    obtain ⟨_, _, _, _, hn⟩ := hnet
    rw [hn, hk]
  unfold cleanupRunFailure
  simp only
  generalize dropNetwork env args.name st.ipAddr (killChild st) = h at hok hspace
  -- the mounts; when they count as gone they are gone
  have hmounts : MountsOk (dropMounts env args st.mountpointSet h).1 ∧
      ((dropMounts env args st.mountpointSet h).2 = true →
        mountsBelow args.name (dropMounts env args st.mountpointSet h).1.space.table = []) := by
    unfold dropMounts
    split
    · obtain ⟨hm, hgone⟩ := umountAll_mounts env args.name args.volumes hok
      refine ⟨hm, hgone htrue ?_⟩
      unfold rootCount
      rw [hspace]
      exact hr.bound
    · rename_i hset
      refine ⟨hok, fun _ => ?_⟩
      show mountsBelow args.name h.space.table = []
      rw [hspace]
      exact hr.clear (Bool.eq_false_iff.2 hset)
  generalize dropMounts env args st.mountpointSet h = m at hmounts
  have hdir := hmounts.1.removeWorkspace env args.name hmounts.2
  have hcg : MountsOk (cgroupCleanup env args.name st.cgroupCreated
      (removeWorkspace env args.name m.2 m.1).1) := by
    unfold cgroupCleanup
    split
    · exact hdir.rmdirCgroup env .cgroupRmdir args.name
    · exact hdir
  split
  · exact hcg.status (removeStatusInfo_status env args.name _)
  · exact hcg

theorem MountsOk.dockerRun {h : Host} (hI : MountsOk h) (htrue : env.Truthful)
    (hcli : ∀ v ∈ args.volumes, CliVolume v)
    (hlate : ∀ v ∈ args.volumes.drop MAX_RECORDED_VOLUMES, v.path ≠ []) :
    MountsOk (dockerRun env args h).1 := by
  have hstart : containerExists args.name h = false → Unmounted args.name (RunState.start h) := by
    intro hex
    simp only [containerExists, Bool.or_eq_false_iff] at hex
    have hclear : mountsBelow args.name h.space.table = [] := by
      by_contra hne
      rw [hI.workspace args.name hne] at hex
      cases hex.2.2
    have hnone : h.info args.name = none :=
      Option.isSome_eq_false_iff.1 hex.2.1.2 |> Option.isNone_iff_eq_none.1
    exact ⟨hI, hnone, hclear, rfl⟩
  have hrun := @runStages_mounts env args hcli hlate
  exact dockerRun_rule hI (fun st hex hst => ((hrun _ (hstart hex)).1 st hst).ok)
    fun st hex hst => ((hrun _ (hstart hex)).2 st hst).cleanup htrue

end Run

/-! ## Whole runs -/

/-- The volumes come from the command line, none after the 32nd is mounted over the container root,
and `umount` reports `EINVAL` or `ENOENT` only when it is so. -/
def MountOk (_ : World) : Command → Prop
  | .run env args => env.Truthful ∧ (∀ v ∈ args.volumes, CliVolume v) ∧
      ∀ v ∈ args.volumes.drop MAX_RECORDED_VOLUMES, v.path ≠ []
  | .rm targets => ∀ t ∈ targets, t.2.Truthful
  | _ => True

theorem MountsOk.step {w : World} {c : Command} (hI : MountsOk w.host) (hc : MountOk w c) :
    MountsOk (w.step c).host := by
  have hsame : ∀ {h : Host}, h.space.table = w.host.space.table → h.workspace = w.host.workspace →
      h.log = w.host.log → h.info = w.host.info → MountsOk h := by
    intro h ht hw hl hi
    exact hI.congr ht hw (fun _ _ hm => hl ▸ hm) fun _ i hn => ⟨i, hi ▸ hn, rfl⟩
  rcases w.step_cases c with ⟨env, args, rfl⟩ | ⟨time, targets, rfl⟩ | ⟨targets, rfl⟩ | ⟨obj, rfl⟩ |
    ⟨procs, clock, name, hs⟩
  · exact hI.dockerRun hc.1 hc.2.1 hc.2.2
  · exact MountsOk.dockerStop time targets hI
  · exact MountsOk.dockerRm targets hI hc
  · exact hsame rfl rfl rfl rfl
  · have hprocs : MountsOk { w.host with procs := procs, clock := clock } := hsame rfl rfl rfl rfl
    exact hprocs.status hs

end TinyDocker
