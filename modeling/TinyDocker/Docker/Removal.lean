import TinyDocker.Docker.Bridges
import TinyDocker.Docker.HostSafety
import TinyDocker.Docker.NetworkRollback
import TinyDocker.Docker.VolumeRollback

/-!
# What an attempt of `docker rm` leaves

`clean_container_runtime` goes on after a failed step, takes "already absent" for success, and unlinks
the metadata only if every step has succeeded.  A later attempt finds the metadata and whatever the
earlier ones have left.

`Tidy` is what the steps rest on in every reachable state: nothing is mounted below a container
directory that does not exist, a cgroup directory exists once, and metadata names a container that was
connected.

Principal results: `rmContainer_removed` — an attempt fails and keeps the metadata, or succeeds and
nothing of the container remains; `Tidy.step` — every command keeps the invariant.
-/

set_option autoImplicit false

namespace TinyDocker

open CText MountSpace Staged

/-! ## What a successful step leaves -/

section Rules

variable {env : Env} {chain : Chain} {ip : Text}

theorem deleteDnatRulesForChain_gone {h : Host} (hok : (deleteDnatRulesForChain env chain ip h).2 = true) :
    ∀ r ∈ (deleteDnatRulesForChain env chain ip h).1.nat chain, r.listedFor ip = false := by
  unfold deleteDnatRulesForChain at hok ⊢
  split at hok
  · cases hok
  rename_i hlist
  rw [if_neg hlist]
  -- the listing was the chain itself, so the counts cancel
  have hcount := deleteDnatRules_count (f := Rule.listedFor ip)
    (fun r x hr hx => (listedFor_of_isSpec hx).trans hr) (h.nat chain) 0 hok
  intro r hr
  have hzero : ((deleteDnatRules env chain ip 0 (h.nat chain) h).1.nat chain).countP (Rule.listedFor ip) = 0 := by
    omega
  exact Bool.eq_false_iff.2 (List.countP_eq_zero.1 hzero r hr)

/-- **No rule points to the address any more.** -/
theorem unset_gone {h : Host} (hip : ip ≠ []) (hok : (unsetContainerPortMap env ip h).2 = true) :
    ∀ c, ∀ r ∈ (unsetContainerPortMap env ip h).1.nat c, r.listedFor ip = false := by
  unfold unsetContainerPortMap at hok ⊢
  rw [if_neg hip] at hok ⊢
  split at hok
  · cases hok
  rename_i hpton
  rw [if_neg hpton]
  simp only [Bool.and_eq_true] at hok
  obtain ⟨ho, hp⟩ := hok
  intro c
  cases c with
  | output =>
    intro r hr
    refine deleteDnatRulesForChain_gone ho r ?_
    rw [deleteDnatRulesForChain_other env (by decide)] at hr
    exact hr
  | prerouting => exact deleteDnatRulesForChain_gone hp

end Rules

/-- **The host end of the pair is gone.** -/
theorem disconnect_gone {env : Env} {name : Text} {h : Host} (hok : (disconnectContainer env name h).2 = true) :
    ∀ l ∈ (disconnectContainer env name h).1.links, tdMakeVethName name ≠ some l.name := by
  unfold disconnectContainer at hok ⊢
  split at hok
  · cases hok
  rename_i vethHost hv
  have hnone : ∀ {links : List Link}, (∀ l ∈ links, l.name ≠ vethHost) →
      ∀ l ∈ links, tdMakeVethName name ≠ some l.name :=
    fun hall l hl he => hall l hl (Option.some.inj (hv.symm.trans he)).symm
  split at hok
  · rename_i hf
    exact hnone (findLink_none hf)
  rename_i l hf
  split at hok
  · cases hok
  rename_i howns
  simp only [if_neg howns]
  unfold deleteOwnedVeth at hok ⊢
  simp only [hf, if_neg howns] at hok ⊢
  split at hok
  · cases hok
  rename_i hdel
  rw [if_neg hdel]
  refine hnone fun x hx => ?_
  have hx := of_decide_eq_true (List.mem_filter.1 hx).2
  rw [← (findLink_some hf).2]
  exact hx.1

/-- **The address is free.** -/
theorem release_gone {env : Env} {site : Site} {a : UInt32} {h : Host}
    (hok : (releaseUsedIpText env site TINYDOCKER_DEFAULT_NETWORK_NAME (Ipv4.inetNtop a) h).2 = true) :
    a ∉ usedIps (releaseUsedIpText env site TINYDOCKER_DEFAULT_NETWORK_NAME (Ipv4.inetNtop a) h).1 := by
  unfold releaseUsedIpText at hok ⊢
  split at hok
  · cases hok
  rename_i hsite
  rw [if_neg hsite]
  split at hok
  · cases hok
  rename_i records hr
  unfold usedIps
  rw [usedIpsOf_releaseUsedIp (loadNetworks_bind.1 hr).2, if_pos rfl, strIpToInt_inetNtop]
  exact fun hm => absurd rfl (of_decide_eq_true (List.mem_filter.1 hm).2)

/-- **The network part**: rules, pair and address are gone. -/
theorem cleanNetwork_gone {env : Env} {name : Text} {a : UInt32} {h : Host}
    (hok : (cleanNetwork env name (Ipv4.inetNtop a) h).2 = true) :
    (∀ c, ∀ r ∈ (cleanNetwork env name (Ipv4.inetNtop a) h).1.nat c, r.listedFor (Ipv4.inetNtop a) = false) ∧
      (∀ l ∈ (cleanNetwork env name (Ipv4.inetNtop a) h).1.links, tdMakeVethName name ≠ some l.name) ∧
      a ∉ usedIps (cleanNetwork env name (Ipv4.inetNtop a) h).1 := by
  have hip := Ipv4.inetNtop_ne_nil a
  unfold cleanNetwork at hok ⊢
  rw [if_neg hip] at hok ⊢
  simp only at hok ⊢
  split at hok
  · cases hok
  rename_i hunset
  rw [if_neg hunset]
  split at hok
  · cases hok
  rename_i hdis
  rw [if_neg hdis]
  have hrules := unset_gone hip (Bool.not_eq_false _ ▸ hunset)
  have hpair := disconnect_gone (Bool.not_eq_false _ ▸ hdis)
  obtain ⟨links, index, hd⟩ := disconnectContainer_only env name (unsetContainerPortMap env (Ipv4.inetNtop a) h).1
  obtain ⟨networks, hr⟩ := releaseUsedIpText_only env .networkRelease TINYDOCKER_DEFAULT_NETWORK_NAME
    (Ipv4.inetNtop a) (disconnectContainer env name (unsetContainerPortMap env (Ipv4.inetNtop a) h).1).1
  refine ⟨?_, ?_, release_gone hok⟩
  · rw [hr, hd]
    exact hrules
  · rw [hr]
    exact hpair

/-- **`remove_dir` has removed the workspace**, and nothing was mounted in it. -/
theorem removeDir_gone {env : Env} {name : Text} {h : Host}
    (hhoused : mountsBelow name h.space.table ≠ [] → h.workspace name = true)
    (hok : (removeDir env name h).2 = true) :
    mountsBelow name (removeDir env name h).1.space.table = [] ∧
      (removeDir env name h).1.workspace name = false := by
  unfold removeDir at hok ⊢
  simp only at hok ⊢
  split at hok
  · rename_i hws
    rw [if_pos hws]
    refine ⟨?_, hws⟩
    by_contra hne
    rw [hhoused hne] at hws
    cases hws
  rename_i hws
  rw [if_neg hws]
  split at hok
  · cases hok
  rename_i hclear
  rw [if_neg hclear]
  simp only [not_or, not_not] at hclear
  exact ⟨hclear.2, Function.update_self ..⟩

theorem rmdirCgroup_gone {env : Env} {site : Site} {name : Text} {h : Host} (hone : h.cgroups.Nodup)
    (hok : (rmdirCgroup env site name h).2 = true) : name ∉ (rmdirCgroup env site name h).1.cgroups := by
  unfold rmdirCgroup at hok ⊢
  split at hok
  · rename_i hno
    rw [if_pos hno]
    exact hno
  rename_i hmem
  rw [if_neg hmem]
  split at hok
  · cases hok
  rename_i hempty
  rw [if_neg hempty]
  exact hone.not_mem_erase

/-! ## The invariant -/

/-- An address, and a name for the pair, as a successful `connect_container` gives them. -/
def HasNetwork (name ip : Text) : Prop :=
  (∃ a, a ≠ 0 ∧ ip = Ipv4.inetNtop a) ∧ (tdMakeVethName name).isSome = true

theorem HasNetwork.valid {name ip : Text} (hn : HasNetwork name ip) :
    tdValidateName name TINYDOCKER_MAX_CONTAINER_NAME = .ok () := by
  have hsome := hn.2
  unfold tdMakeVethName at hsome
  split at hsome
  · cases hsome
  · assumption

structure Tidy (h : Host) : Prop where
  housed : ∀ n, mountsBelow n h.space.table ≠ [] → h.workspace n = true
  single : h.cgroups.Nodup
  connected : ∀ n i, h.info n = some i → HasNetwork n i.ipAddr

section Tidy

variable {h h' : Host} {name : Text}

theorem mountsBelow_mono {t t' : List Mount} (hsub : t' ⊆ t) (hne : mountsBelow name t' ≠ []) :
    mountsBelow name t ≠ [] := by
  intro hnil
  exact hne (below_eq_nil.2 fun m hm => below_eq_nil.1 hnil m (hsub hm))

/-- Mounts, cgroups and records may go, workspaces may come. -/
theorem Tidy.shrink (hT : Tidy h) (htable : h'.space.table ⊆ h.space.table)
    (hws : ∀ n, h.workspace n = true → h'.workspace n = true) (hcg : List.Sublist h'.cgroups h.cgroups)
    (hinfo : ∀ n i', h'.info n = some i' → ∃ i, h.info n = some i ∧ i'.ipAddr = i.ipAddr) : Tidy h' := by
  refine ⟨fun n hn => hws n (hT.housed n (mountsBelow_mono htable hn)), hcg.nodup hT.single, fun n i' hi' => ?_⟩
  obtain ⟨i, hi, hip⟩ := hinfo n i' hi'
  rw [hip]
  exact hT.connected n i hi

/-- The invariant is about mounts, workspaces, cgroups and records only. -/
theorem Tidy.congr (hT : Tidy h) (htable : h'.space.table ⊆ h.space.table) (hws : h'.workspace = h.workspace)
    (hcg : h'.cgroups = h.cgroups) (hinfo : h'.info = h.info) : Tidy h' :=
  hT.shrink htable (fun n hn => by rw [hws]; exact hn) (by rw [hcg])
    (fun n i hi => ⟨i, by rw [← hinfo]; exact hi, rfl⟩)

theorem Tidy.net (hT : Tidy h) (ho : OnlyNet h h') : Tidy h' := by
  obtain ⟨_, _, _, _, rfl⟩ := ho
  exact hT.congr (List.Subset.refl _) rfl rfl rfl

theorem Tidy.procs (hT : Tidy h) (ho : OnlyProcs h h') : Tidy h' := by
  obtain ⟨_, rfl⟩ := ho
  exact hT.congr (List.Subset.refl _) rfl rfl rfl

theorem Tidy.status (hT : Tidy h) (ho : OnlyStatus name h h') : Tidy h' := by
  have hrecord := @ho.record
  obtain ⟨o, rfl, -⟩ := ho
  refine hT.shrink (List.Subset.refl _) (fun _ hn => hn) (List.Sublist.refl _) fun n i' hi' => ?_
  obtain ⟨i, _, hi, rfl, -⟩ := hrecord hi'
  exact ⟨i, hi, rfl⟩

theorem umount_subset (env : Env) (site : Site) (t : Except Errno Path) (h : Host) :
    (umount env site t h).1.space.table ⊆ h.space.table := by
  unfold umount
  split
  · rename_i table hu
    unfold umountResolved at hu
    split at hu
    · cases hu
    split at hu
    · cases hu
    obtain ⟨before, m, after, htab, rfl, -, -⟩ := umountAt_ok hu
    show before ++ after ⊆ h.space.table
    rw [htab]
    exact (List.Sublist.append_left (List.sublist_cons_self m after) before).subset
  · exact List.Subset.refl _

theorem umountEach_subset (env : Env) (site : Nat → Site) (name : Text) :
    ∀ (vs : List VolumeConfig) (i : Nat) (h : Host),
      (umountEach env site name i vs h).1.space.table ⊆ h.space.table
  | [], _, _ => List.Subset.refl _
  | v :: vs, i, h => by
    have ih := umountEach_subset env site name vs (i + 1) h
    unfold umountEach umountTarget
    simp only
    split
    · exact List.Subset.trans (umount_subset ..) ih
    · exact ih

/-- Unmounting keeps it. -/
theorem Tidy.mounts (hT : Tidy h) (ho : OnlyMounts h h') (htable : h'.space.table ⊆ h.space.table) :
    Tidy h' := by
  obtain ⟨_, _, rfl, -⟩ := ho
  exact hT.congr htable rfl rfl rfl

theorem Tidy.umountAll (hT : Tidy h) (env : Env) (name : Text) (vs : List VolumeConfig) :
    Tidy (umountAll env name vs h).1 :=
  hT.mounts (umountAll_only ..) (List.Subset.trans (umount_subset ..) (umountEach_subset ..))

theorem Tidy.removeWorkspace (hT : Tidy h) (env : Env) (name : Text) (b : Bool) :
    Tidy (removeWorkspace env name b h).1 := by
  unfold TinyDocker.removeWorkspace
  split
  · unfold removeDir
    simp only
    split
    · exact hT.congr (List.Subset.refl _) rfl rfl rfl
    split
    · exact hT.congr (List.Subset.refl _) rfl rfl rfl
    · rename_i hclear
      simp only [not_or, not_not] at hclear
      refine ⟨fun n hn => ?_, hT.single, hT.connected⟩
      show Function.update h.workspace name false n = true
      by_cases hne : n = name
      · subst hne
        exact absurd hclear.2 hn
      · rw [Function.update_of_ne hne]
        exact hT.housed n hn
  · exact hT

theorem Tidy.rmdirCgroup (hT : Tidy h) (env : Env) (site : Site) (name : Text) :
    Tidy (rmdirCgroup env site name h).1 := by
  unfold TinyDocker.rmdirCgroup
  split
  · exact hT
  split
  · exact hT
  · exact ⟨hT.housed, (List.erase_sublist).nodup hT.single, hT.connected⟩

end Tidy

/-! ## One attempt -/

/-- Something of the container is still there: a mount, a rule, the interface, the address, the
workspace or the cgroup. -/
def Remains (name : Text) (i : ContainerInfo) (h : Host) : Prop :=
  mountsBelow name h.space.table ≠ [] ∨ (∃ c, ∃ r ∈ h.nat c, r.listedFor i.ipAddr = true) ∨
    (∃ l ∈ h.links, tdMakeVethName name = some l.name) ∨
    (∃ a ∈ usedIps h, i.ipAddr = Ipv4.inetNtop a) ∨ h.workspace name = true ∨ name ∈ h.cgroups

section Attempt

variable {env : Env} {name : Text} {i : ContainerInfo} {h : Host}

theorem removeStatusInfo_result (env : Env) (name : Text) (h : Host) :
    (∃ o, (removeStatusInfo env name h).1 = h.setInfo name o) ∧
      ((removeStatusInfo env name h).2 = true → (removeStatusInfo env name h).1.info name = none) ∧
      ((removeStatusInfo env name h).2 = false → (removeStatusInfo env name h).1.info name = h.info name) := by
  obtain ⟨o, ho, -⟩ := removeStatusInfo_status env name h
  refine ⟨⟨o, ho⟩, ?_⟩
  unfold removeStatusInfo
  split
  · rename_i hnone
    exact ⟨fun _ => hnone, fun hc => by cases hc⟩
  split
  · exact ⟨fun hc => (by cases hc), fun _ => rfl⟩
  · exact ⟨fun _ => Host.setInfo_self .., fun hc => by cases hc⟩

/-- **One teardown**: the metadata stays, or nothing does. -/
theorem cleanContainerRuntime_removed (hT : Tidy h) (hi : h.info name = some i) :
    ((cleanContainerRuntime env name i h).2 = true ∧ (cleanContainerRuntime env name i h).1.info name = none ∧
        ¬ Remains name i (cleanContainerRuntime env name i h).1) ∨
      ((cleanContainerRuntime env name i h).2 = false ∧
        (cleanContainerRuntime env name i h).1.info name = some i) := by
  obtain ⟨⟨a, -, hip⟩, -⟩ := hT.connected name i hi
  rcases cleanContainerRuntime_cases env name i h with he | ⟨m, n, d, c, rfl, rfl, rfl, rfl, hlast⟩
  · rw [he]
    exact Or.inr ⟨rfl, hi⟩
  have hm := hT.umountAll env name (i.volumes.map parseVolumeConfig)
  obtain ⟨_, _, hminfo, -⟩ := umountAll_only env name (i.volumes.map parseVolumeConfig) h
  have hminfo : (umountAll env name (i.volumes.map parseVolumeConfig) h).1.info = h.info := by rw [hminfo]
  generalize umountAll env name (i.volumes.map parseVolumeConfig) h = m at hm hminfo hlast
  have honly := cleanNetwork_only env name i.ipAddr m.1
  have hn := hm.net honly
  have hninfo : (cleanNetwork env name i.ipAddr m.1).1.info = m.1.info := by
    obtain ⟨_, _, _, _, he⟩ := honly
    rw [he]
  have hgone : (cleanNetwork env name i.ipAddr m.1).2 = true → _ := fun hok => by
    rw [hip] at hok
    exact cleanNetwork_gone hok
  rw [← hip] at hgone
  generalize cleanNetwork env name i.ipAddr m.1 = n at hn hninfo hgone hlast
  have hd := hn.removeWorkspace env name m.2
  obtain ⟨workspace, extra, hdeq⟩ := removeWorkspace_only env name m.2 n.1
  obtain ⟨cgroups, hceq⟩ := rmdirCgroup_only env .cgroupRmdir name (removeWorkspace env name m.2 n.1).1
  have hcinfo : (rmdirCgroup env .cgroupRmdir name (removeWorkspace env name m.2 n.1).1).1.info = h.info := by
    rw [hceq, hdeq]
    exact hninfo.trans hminfo
  obtain ⟨⟨o, ho⟩, hnone, hkept⟩ := removeStatusInfo_result env name
    (rmdirCgroup env .cgroupRmdir name (removeWorkspace env name m.2 n.1).1).1
  rcases hlast with he | ⟨hmok, hnok, hdok, hcok, he⟩
  · rw [he]
    refine Or.inr ⟨rfl, ?_⟩
    show (rmdirCgroup env .cgroupRmdir name (removeWorkspace env name m.2 n.1).1).1.info name = some i
    rw [hcinfo]
    exact hi
  rw [he]
  cases hlastok : (removeStatusInfo env name
      (rmdirCgroup env .cgroupRmdir name (removeWorkspace env name m.2 n.1).1).1).2 with
  | false =>
    refine Or.inr ⟨rfl, ?_⟩
    rw [hkept hlastok, hcinfo]
    exact hi
  | true =>
    refine Or.inl ⟨rfl, hnone hlastok, ?_⟩
    have hdir : mountsBelow name (removeWorkspace env name m.2 n.1).1.space.table = [] ∧
        (removeWorkspace env name m.2 n.1).1.workspace name = false := by
      unfold removeWorkspace at hdok ⊢
      rw [if_pos hmok] at hdok ⊢
      exact removeDir_gone (hn.housed name) hdok
    obtain ⟨hrules, hpair, hfree⟩ := hgone hnok
    have hcg := rmdirCgroup_gone hd.single hcok
    rw [hceq] at hcg
    rw [ho, hceq]
    rw [hdeq] at hdir ⊢
    rintro (hmount | ⟨ch, r, hr, hp⟩ | ⟨l, hl, hv⟩ | ⟨b, hb, hbip⟩ | hws | hmem)
    · exact hmount hdir.1
    · rw [hrules ch r hr] at hp
      cases hp
    · exact hpair l hl hv
    · exact hfree (Ipv4.inetNtop_injective (hip.symm.trans hbip) ▸ hb)
    · exact Bool.false_ne_true (Eq.trans (Eq.symm hdir.2) hws)
    · exact hcg hmem

/-- A refresh that fails has not written. -/
theorem refresh_none {h' : Host} (he : refreshContainerStatusIfNeeded env name i h = (h', none)) : h' = h := by
  have hwrite : ∀ g : Host × Bool, g = writeContainerInfo env name { i with status := .exited } h →
      (g.1, if g.2 then some { i with status := .exited } else none) = (h', none) → h' = h := by
    intro g hg he
    rcases writeContainerInfo_cases env name { i with status := .exited } h with hw | hw
    · rw [hw] at hg
      rw [hg] at he
      cases he
      rfl
    · rw [hw] at hg
      rw [hg] at he
      cases he
  unfold refreshContainerStatusIfNeeded at he
  split at he
  · cases he
  split at he
  · cases he
    rfl
  simp only at he
  split at he
  · split at he
    · cases he
    · exact hwrite _ rfl he
  · exact hwrite _ rfl he

/-- **One attempt** on a container that has metadata.  The record kept is the old one, except that a
`RUNNING` one may be marked `EXITED`. -/
theorem rmContainer_removed (hT : Tidy h) (env : Env) (hi : h.info name = some i) :
    ∃ j, (i.status ≠ .running → j = i) ∧
      (((rmContainer env name h).2 = true ∧ (rmContainer env name h).1.info name = none ∧
          ¬ Remains name i (rmContainer env name h).1) ∨
        ((rmContainer env name h).2 = false ∧ (rmContainer env name h).1.info name = some j)) := by
  have hexists : containerExists name h = true := by simp [containerExists, hi]
  unfold rmContainer
  rw [hexists, hi]
  simp only [Bool.true_eq_false, if_false]
  split
  · rename_i h' he
    rw [refresh_none he]
    exact ⟨i, fun _ => rfl, Or.inr ⟨rfl, hi⟩⟩
  rename_i h' j he
  have hT' := hT.status (refresh_status env hi)
  rw [he] at hT'
  obtain ⟨hj, status, hstatus, -⟩ := refresh_info hi he
  have hsame : i.status ≠ .running → j = i := by
    intro hs
    unfold refreshContainerStatusIfNeeded at he
    rw [if_pos (Or.inl hs)] at he
    cases he
    rfl
  have hip : j.ipAddr = i.ipAddr := by rw [hstatus]
  refine ⟨j, hsame, ?_⟩
  split
  · exact Or.inr ⟨rfl, hj⟩
  have hT'' : Tidy (h'.record (.teardown name (initAlive j h'))) :=
    hT'.congr (List.Subset.refl _) rfl rfl rfl
  rcases @cleanContainerRuntime_removed env name j _ hT'' hj with ⟨hok, hnone, hgone⟩ | hfail
  · refine Or.inl ⟨hok, hnone, fun hr => hgone ?_⟩
    unfold Remains at hr ⊢
    rw [hip]
    exact hr
  · exact Or.inr hfail

end Attempt

/-! ## The commands keep the invariant -/

section Commands

variable {h : Host}

theorem Tidy.rmContainer (hT : Tidy h) (env : Env) (name : Text) : Tidy (rmContainer env name h).1 := by
  rcases rmContainer_cases env name h with he | ⟨i, h', o, hi, href, hcase⟩
  · rw [he]; exact hT
  have hT' := hT.status (refresh_status env hi)
  rw [href] at hT'
  rcases hcase with he | ⟨j, rfl, -, he⟩
  · rw [he]; exact hT'
  rw [he]
  have hT'' : Tidy (h'.record (.teardown name (initAlive j h'))) :=
    hT'.congr (List.Subset.refl _) rfl rfl rfl
  rcases cleanContainerRuntime_cases env name j (h'.record (.teardown name (initAlive j h'))) with
    he | ⟨m, n, d, c, rfl, rfl, rfl, rfl, hlast⟩
  · rw [he]; exact hT''
  have hm := hT''.umountAll env name (j.volumes.map parseVolumeConfig)
  generalize TinyDocker.umountAll env name (j.volumes.map parseVolumeConfig) _ = m at hm hlast
  have hn := hm.net (cleanNetwork_only env name j.ipAddr m.1)
  have hc := (hn.removeWorkspace env name m.2).rmdirCgroup env .cgroupRmdir name
  rcases hlast with he | ⟨-, -, -, -, he⟩
  · rw [he]; exact hc
  · rw [he]; exact hc.status (removeStatusInfo_status env name _)

theorem Tidy.dockerRm : ∀ (targets : List (Text × Env)) {h : Host}, Tidy h → Tidy (dockerRm targets h).1
  | [], _, hT => hT
  | (name, env) :: rest, _, hT => Tidy.dockerRm rest (hT.rmContainer env name)

theorem Tidy.stopContainer (hT : Tidy h) (env : Env) (time : Nat) (name : Text) :
    Tidy (stopContainer env time name h).1 := by
  rcases stopContainer_cases env time name h with he | ⟨i, h₁, o, hi, href, h₂, hprocs, hlast⟩
  · rw [he]; exact hT
  have hT₁ := hT.status (refresh_status env hi)
  rw [href] at hT₁
  have hT₂ := hT₁.procs hprocs
  rcases hlast with he | he
  · rw [he]; exact hT₂
  · rw [he]; exact hT₂.status (updateContainerStatus_status env name (by decide) h₂)

theorem Tidy.dockerStop (time : Nat) : ∀ (targets : List (Text × Env)) {h : Host}, Tidy h →
    Tidy (dockerStop time targets h).1
  | [], _, hT => hT
  | (name, env) :: rest, _, hT => Tidy.dockerStop time rest (hT.stopContainer env time name)

/-! ### `docker run` -/

variable {env : Env} {args : RunArguments}

/-- Mounts at or below the mountpoint may come. -/
def MountsInside (name : Text) (sp sp' : Space) : Prop :=
  ∀ m ∈ sp'.table, m ∈ sp.table ∨ mountpointDir name <+: m.path

theorem MountsInside.of_subset {name : Text} {sp sp' : Space} (hsub : sp'.table ⊆ sp.table) :
    MountsInside name sp sp' := fun _ hm => Or.inl (hsub hm)

theorem MountsInside.trans {name : Text} {sp sp' sp'' : Space} (h1 : MountsInside name sp sp')
    (h2 : MountsInside name sp' sp'') : MountsInside name sp sp'' := by
  intro m hm
  rcases h2 m hm with hm | hm
  · exact h1 m hm
  · exact Or.inr hm

theorem mountVolume_inside (env : Env) (i : Nat) (name : Text) (v : VolumeConfig) (h : Host) :
    MountsInside name h.space (mountVolume env i name v h).1.space := by
  have hens : (ensureTarget env i name v h).1.space.table = h.space.table := by
    obtain ⟨sp, he, hgrow, -⟩ := ensureTarget_spec env i name v h
    rw [he]
    exact hgrow.table
  have hsame : ∀ {g : Host}, g.space.table = h.space.table → MountsInside name h.space g.space :=
    fun he => .of_subset (by rw [he]; exact List.Subset.refl _)
  unfold mountVolume
  split
  · exact hsame rfl
  rename_i src _
  split
  · rename_i h₁ he
    rw [he] at hens
    exact hsame hens
  rename_i h₁ he
  rw [he] at hens
  split
  · exact hsame hens
  have hbind : MountsInside name h.space (h₁.space.bind src (mountpointDir name ++ v.path)) := by
    intro m hm
    rcases List.mem_append.1 hm with hm | hm
    · exact Or.inl (hens ▸ hm)
    · rw [List.mem_singleton.1 hm]
      exact Or.inr (List.prefix_append _ _)
  simp only
  split
  · exact hbind.trans (.of_subset (umount_subset ..))
  · exact hbind

theorem mountEach_inside (env : Env) (name : Text) : ∀ (vs mounted : List VolumeConfig) (h : Host),
    MountsInside name h.space (mountEach env name mounted vs h).1.space
  | [], _, _ => .of_subset (List.Subset.refl _)
  | v :: vs, mounted, h => by
    have hv := mountVolume_inside env mounted.length name v h
    unfold mountEach
    split
    · rename_i h₁ he
      rw [he] at hv
      exact hv.trans (mountEach_inside env name vs (mounted ++ [v]) h₁)
    · rename_i h₁ he
      rw [he] at hv
      exact hv.trans (.of_subset (umountEach_subset ..))

theorem mountVolumes_inside (env : Env) (name : Text) (vs : List VolumeConfig) (h : Host) :
    MountsInside name h.space (mountVolumes env name vs h).1.space := by
  unfold mountVolumes
  split
  · exact mountEach_inside env name vs [] h
  · exact .of_subset (List.Subset.refl _)

/-- New mounts are housed by the workspace of their container. -/
theorem Tidy.inside {name : Text} (hT : Tidy h) {sp : Space} (hin : MountsInside name h.space sp)
    (hws : h.workspace name = true) : Tidy { h with space := sp } := by
  refine ⟨fun n hn => ?_, hT.single, hT.connected⟩
  by_contra hno
  refine hn (below_eq_nil.2 fun m hm hd => ?_)
  rcases hin m hm with hold | ⟨rest, hnew⟩
  · exact hno (hT.housed n fun hnil => below_eq_nil.1 hnil m hold hd)
  · rw [← hnew] at hd
    rw [eq_of_containerDir_isPrefix hd] at hno
    exact hno hws

theorem Tidy.workspaceMade (hT : Tidy h) (name : Text) :
    Tidy { h with workspace := Function.update h.workspace name true } := by
  refine hT.shrink (List.Subset.refl _) (fun n hn => ?_) (List.Sublist.refl _) fun n i hi => ⟨i, hi, rfl⟩
  show Function.update h.workspace name true n = true
  by_cases hne : n = name
  · rw [hne, Function.update_self]
  · rw [Function.update_of_ne hne]
    exact hn

theorem initContainerWorkerspace_tidy :
    Triple (fun st => Tidy st.host) (initContainerWorkerspace env args)
      (fun st => Tidy st.host ∧ st.host.workspace args.name = true) (fun st => Tidy st.host) := by
  intro st hT
  have hmade := hT.workspaceMade args.name
  refine ⟨fun st' h' => ?_, fun e h' => ?_⟩
  · obtain ⟨lower, -, rfl⟩ := initContainerWorkerspace_ok h'
    have hin : MountsInside args.name st.host.space
        (st.host.space.overlay lower (mountpointDir args.name)) := by
      intro m hm
      rcases List.mem_append.1 hm with hm | hm
      · exact Or.inl hm
      · rw [List.mem_singleton.1 hm]
        exact Or.inr (List.prefix_refl _)
    exact ⟨hmade.inside hin (Function.update_self ..), Function.update_self ..⟩
  · unfold initContainerWorkerspace at h'
    split at h'
    · cases h'; exact hT
    split at h'
    · cases h'; exact hT
    split at h'
    · cases h'; exact hT
    simp only at h'
    split at h'
    · cases h'; exact hmade
    split at h'
    · cases h'; exact hmade
    · cases h'

theorem volumeStage_tidy :
    Triple (fun st => Tidy st.host ∧ st.host.workspace args.name = true) (volumeStage env args)
      (fun st => Tidy st.host) (fun st => Tidy st.host) := by
  rintro st ⟨hT, hws⟩
  have hin := mountVolumes_inside env args.name args.volumes st.host
  have hres : Tidy (mountVolumes env args.name args.volumes st.host).1 := by
    obtain ⟨sp, extra, he, -⟩ := mountVolumes_only env args.name args.volumes st.host
    rw [he] at hin ⊢
    exact (hT.inside hin hws).congr (List.Subset.refl _) rfl rfl rfl
  refine ⟨fun st' h' => ?_, fun e h' => ?_⟩
  · rw [(volumeStage_done h').2]
    exact hres
  · rw [(volumeStage_error h').2]
    exact hres

theorem cgroupPrepare_tidy :
    Triple (fun st => Tidy st.host) (cgroupPrepare env args) (fun st => Tidy st.host)
      (fun st => Tidy st.host) := by
  refine .keep (fun st hT => ?_) fun _ hT => hT
  unfold cgroupPrepare
  split
  · exact hT
  rename_i hfree
  simp only [not_or] at hfree
  have hmade : Tidy { st.host with cgroups := args.name :: st.host.cgroups } :=
    ⟨hT.housed, List.nodup_cons.2 ⟨hfree.2, hT.single⟩, hT.connected⟩
  simp only
  split
  · exact hmade.rmdirCgroup env .cgroupRollback args.name
  · exact hmade

/-- A container that could be connected has an address and a name for its pair. -/
theorem connectContainer_hasNetwork {name ip : Text} {g : Host}
    (he : connectContainer env name TINYDOCKER_DEFAULT_NETWORK_NAME h = (g, some ip)) : HasNetwork name ip := by
  rcases connectContainer_cases env name TINYDOCKER_DEFAULT_NETWORK_NAME h with
    ⟨-, hc⟩ | ⟨records, a, h₂, ok, -, halloc, hat, hc⟩
  · rw [hc] at he
    cases he
  rw [hc] at he
  cases ok with
  | false => cases he
  | true =>
    cases he
    refine ⟨⟨a, ?_, rfl⟩, ?_⟩
    · unfold allocNewIp at halloc
      split at halloc
      · cases halloc
      split at halloc
      · cases halloc
      split at halloc
      · cases halloc
      split at halloc
      · cases halloc
      simp only at halloc
      split at halloc
      · cases halloc
      · rename_i hne
        cases halloc
        exact hne
    · unfold attachContainer at hat
      split at hat
      · cases hat
      split at hat
      · rename_i vethHost _ hv _
        rw [hv]
        rfl
      · cases hat

theorem connectStage_tidy :
    Triple (fun st => Tidy st.host) (connectStage env args)
      (fun st => Tidy st.host ∧ HasNetwork args.name st.ipAddr) (fun st => Tidy st.host) := by
  intro st hT
  have hnet := hT.net (connectContainer_only env args.name TINYDOCKER_DEFAULT_NETWORK_NAME st.host).net
  unfold connectStage
  split
  · rename_i g ip he
    rw [he] at hnet
    refine ⟨fun st' h' => ?_, fun e h' => ?_⟩
    · cases h'
      exact ⟨hnet, connectContainer_hasNetwork he⟩
    · cases h'
  · rename_i g he
    rw [he] at hnet
    refine ⟨fun st' h' => ?_, fun e h' => ?_⟩
    · cases h'
    · cases h'
      exact hnet

theorem metadataStage_tidy :
    Triple (fun st => Tidy st.host ∧ HasNetwork args.name st.ipAddr) (metadataStage env args)
      (fun st => Tidy st.host) (fun st => Tidy st.host) := by
  rintro st ⟨hT, hnet⟩
  have hres : Tidy (outcome (metadataStage env args st)).host := by
    unfold metadataStage
    split
    · exact hT
    rename_i info hinfo
    obtain ⟨-, -, -, -, hinfoip, -⟩ := createContainerInfo_ok hinfo
    rcases writeContainerInfo_cases env args.name info st.host with hw | hw
    · rw [hw]; exact hT
    · rw [hw]
      refine ⟨hT.housed, hT.single, fun n i hi => ?_⟩
      have hi : (st.host.setInfo args.name (some info)).info n = some i := hi
      by_cases hn : n = args.name
      · subst hn
        rw [Host.setInfo_self] at hi
        cases hi
        rw [hinfoip]
        exact hnet
      · rw [Host.setInfo_of_ne _ hn] at hi
        exact hT.connected n i hi
  refine ⟨fun st' h' => ?_, fun e h' => ?_⟩
  · rw [h'] at hres; exact hres
  · rw [h'] at hres; exact hres

theorem runStages_tidy (env : Env) (args : RunArguments) :
    TripleAll (fun st => Tidy st.host) (runStages env args) (fun st => Tidy st.host)
      (fun st => Tidy st.host) := by
  refine .cons initContainerWorkerspace_tidy <| .cons volumeStage_tidy <| .cons cgroupPrepare_tidy <|
    .cons (Q := fun st => Tidy st.host) (.keep (fun st hT => ?_) fun _ hT => hT) <|
    .cons (Q := fun st => Tidy st.host) (.keep (fun st hT => ?_) fun _ hT => hT) <|
    .cons (Q := fun st => Tidy st.host) (.keep (fun st hT => ?_) fun _ hT => hT) <|
    .cons connectStage_tidy <|
    .cons (Q := fun st => Tidy st.host ∧ HasNetwork args.name st.ipAddr) (.keep (fun st hT => ?_) fun _ hT => hT.1) <|
    .cons metadataStage_tidy <|
    .cons (Q := fun st => Tidy st.host) (.keep (fun st hT => ?_) fun _ hT => hT) .nil
  · obtain ⟨_, he⟩ := pipeStage_outcome env st
    rw [he]
    exact hT
  · obtain ⟨_, _, _, he⟩ := cloneStage_outcome env st
    rw [he]
    exact hT.congr (List.Subset.refl _) rfl rfl rfl
  · obtain ⟨_, he⟩ := cgroupApply_outcome env args st
    rw [he]
    exact hT.procs ⟨_, rfl⟩
  · obtain ⟨g, ho, he, -⟩ := portStage_outcome env args st
    rw [he]
    exact ⟨hT.1.net ho.net, hT.2⟩
  · obtain ⟨_, he⟩ := releaseStage_outcome env st
    rw [he]
    exact hT

theorem killChild_only (st : RunState) : OnlyProcs st.host (killChild st) := by
  unfold killChild
  split
  · exact OnlyProcs.refl _
  · exact ⟨_, rfl⟩

theorem Tidy.cleanupRunFailure {st : RunState} (hT : Tidy st.host) (env : Env) (args : RunArguments) :
    Tidy (cleanupRunFailure env args st) := by
  have hnet := (hT.procs (killChild_only st)).net (dropNetwork_only env args.name st.ipAddr _)
  have hmounts : Tidy (dropMounts env args st.mountpointSet
      (dropNetwork env args.name st.ipAddr (killChild st))).1 := by
    unfold dropMounts
    split
    · exact hnet.umountAll env args.name args.volumes
    · exact hnet
  unfold TinyDocker.cleanupRunFailure
  simp only
  generalize dropMounts env args st.mountpointSet (dropNetwork env args.name st.ipAddr (killChild st)) = m
    at hmounts
  have hdir := hmounts.removeWorkspace env args.name m.2
  have hcg : Tidy (cgroupCleanup env args.name st.cgroupCreated
      (TinyDocker.removeWorkspace env args.name m.2 m.1).1) := by
    unfold cgroupCleanup
    split
    · exact hdir.rmdirCgroup env .cgroupRmdir args.name
    · exact hdir
  split
  · exact hcg.status (removeStatusInfo_status env args.name _)
  · exact hcg

theorem Tidy.dockerRun (hT : Tidy h) (env : Env) (args : RunArguments) : Tidy (dockerRun env args h).1 := by
  have hrun := runStages_tidy env args (RunState.start h) hT
  exact dockerRun_rule hT (fun st _ hst => hrun.1 st hst)
    fun st _ hst => (hrun.2 st hst).cleanupRunFailure env args

theorem Tidy.step {w : World} (hT : Tidy w.host) (c : Command) : Tidy (w.step c).host := by
  rcases w.step_cases c with ⟨env, args, rfl⟩ | ⟨time, targets, rfl⟩ | ⟨targets, rfl⟩ | ⟨obj, rfl⟩ |
    ⟨procs, clock, name, hs⟩
  · exact hT.dockerRun env args
  · exact Tidy.dockerStop time targets hT
  · exact Tidy.dockerRm targets hT
  · exact hT.congr (List.Subset.refl _) rfl rfl rfl
  · have hprocs : Tidy { w.host with procs := procs, clock := clock } :=
      hT.congr (List.Subset.refl _) rfl rfl rfl
    exact hprocs.status hs

end Commands

theorem World.Booted.tidy {w : World} (hb : w.Booted) (hcg : w.host.cgroups.Nodup) : Tidy w.host :=
  ⟨fun n hn => absurd (hb.noMounts n) hn, hcg, fun n i hi => by rw [hb.noInfo n] at hi; cases hi⟩

end TinyDocker
