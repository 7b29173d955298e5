import TinyDocker.Docker.Container

/-!
# What each operation leaves alone

Every operation on the host touches a few components only.  `OnlyMounts`, `OnlyNet`, `OnlyInfo` and
`OnlyProcs` say which, and the lemmas below place each operation; the invariants of the later
modules are each about one or two components and use them as frame conditions.
-/

set_option autoImplicit false

namespace TinyDocker

open CText MountSpace Staged

/-- Only the mount namespace differs, and the log has gained `umount` calls. -/
def OnlyMounts (h h' : Host) : Prop :=
  ∃ space extra, h' = { h with space := space, log := h.log ++ extra } ∧
    ∀ c ∈ extra, ∃ site errno, c = .umount site errno

/-- Only the networks, the nat chains and the interfaces differ. -/
def OnlyNet (h h' : Host) : Prop :=
  ∃ networks nat links nextIndex,
    h' = { h with networks := networks, nat := nat, links := links, nextIndex := nextIndex }

/-- Only the networks and the interfaces differ. -/
def OnlyWires (h h' : Host) : Prop :=
  ∃ networks links nextIndex, h' = { h with networks := networks, links := links, nextIndex := nextIndex }

/-- Only the networks file differs. -/
def OnlyRecords (h h' : Host) : Prop := ∃ networks, h' = { h with networks := networks }

/-- Only the nat chains differ. -/
def OnlyNat (h h' : Host) : Prop := ∃ nat, h' = { h with nat := nat }

/-- Only the interfaces differ. -/
def OnlyLinks (h h' : Host) : Prop :=
  ∃ links nextIndex, h' = { h with links := links, nextIndex := nextIndex }

/-- Only the metadata files differ. -/
def OnlyInfo (h h' : Host) : Prop := ∃ info, h' = { h with info := info }

/-- Only the processes differ. -/
def OnlyProcs (h h' : Host) : Prop := ∃ procs, h' = { h with procs := procs }

theorem OnlyMounts.space (h : Host) (sp : Space) : OnlyMounts h { h with space := sp } :=
  ⟨sp, [], by simp, by simp⟩

theorem OnlyMounts.refl (h : Host) : OnlyMounts h h := OnlyMounts.space h h.space

theorem OnlyMounts.trans {a b c : Host} : OnlyMounts a b → OnlyMounts b c → OnlyMounts a c := by
  rintro ⟨_, l, rfl, hl⟩ ⟨s, l', rfl, hl'⟩
  refine ⟨s, l ++ l', by simp, fun x hx => ?_⟩
  rcases List.mem_append.1 hx with hx | hx
  · exact hl x hx
  · exact hl' x hx

theorem OnlyNet.refl (h : Host) : OnlyNet h h := ⟨h.networks, h.nat, h.links, h.nextIndex, rfl⟩

theorem OnlyNet.trans {a b c : Host} : OnlyNet a b → OnlyNet b c → OnlyNet a c := by
  rintro ⟨_, _, _, _, rfl⟩ ⟨n, t, l, i, rfl⟩
  exact ⟨n, t, l, i, rfl⟩

theorem OnlyWires.refl (h : Host) : OnlyWires h h := ⟨h.networks, h.links, h.nextIndex, rfl⟩

theorem OnlyWires.trans {a b c : Host} : OnlyWires a b → OnlyWires b c → OnlyWires a c := by
  rintro ⟨_, _, _, rfl⟩ ⟨n, l, i, rfl⟩
  exact ⟨n, l, i, rfl⟩

theorem OnlyWires.net {h h' : Host} : OnlyWires h h' → OnlyNet h h' := by
  rintro ⟨n, l, i, rfl⟩
  exact ⟨n, _, l, i, rfl⟩

theorem OnlyRecords.refl (h : Host) : OnlyRecords h h := ⟨h.networks, rfl⟩

theorem OnlyRecords.net {h h' : Host} : OnlyRecords h h' → OnlyNet h h' := by
  rintro ⟨n, rfl⟩
  exact ⟨n, _, _, _, rfl⟩

theorem OnlyRecords.wires {h h' : Host} : OnlyRecords h h' → OnlyWires h h' := by
  rintro ⟨n, rfl⟩
  exact ⟨n, _, _, rfl⟩

theorem OnlyNat.refl (h : Host) : OnlyNat h h := ⟨h.nat, rfl⟩

theorem OnlyNat.trans {a b c : Host} : OnlyNat a b → OnlyNat b c → OnlyNat a c := by
  rintro ⟨_, rfl⟩ ⟨t, rfl⟩
  exact ⟨t, rfl⟩

theorem OnlyNat.net {h h' : Host} : OnlyNat h h' → OnlyNet h h' := by
  rintro ⟨t, rfl⟩
  exact ⟨_, t, _, _, rfl⟩

theorem OnlyLinks.refl (h : Host) : OnlyLinks h h := ⟨h.links, h.nextIndex, rfl⟩

theorem OnlyLinks.trans {a b c : Host} : OnlyLinks a b → OnlyLinks b c → OnlyLinks a c := by
  rintro ⟨_, _, rfl⟩ ⟨l, i, rfl⟩
  exact ⟨l, i, rfl⟩

theorem OnlyLinks.net {h h' : Host} : OnlyLinks h h' → OnlyNet h h' := by
  rintro ⟨l, i, rfl⟩
  exact ⟨_, _, l, i, rfl⟩

theorem OnlyLinks.wires {h h' : Host} : OnlyLinks h h' → OnlyWires h h' := by
  rintro ⟨l, i, rfl⟩
  exact ⟨_, l, i, rfl⟩

theorem OnlyInfo.refl (h : Host) : OnlyInfo h h := ⟨h.info, rfl⟩

theorem OnlyProcs.refl (h : Host) : OnlyProcs h h := ⟨h.procs, rfl⟩

theorem OnlyProcs.trans {a b c : Host} : OnlyProcs a b → OnlyProcs b c → OnlyProcs a c := by
  rintro ⟨_, rfl⟩ ⟨p, rfl⟩
  exact ⟨p, rfl⟩

/-! ## Mounts -/

theorem umount_only (env : Env) (site : Site) (t : Except Errno Path) (h : Host) :
    OnlyMounts h (umount env site t h).1 := by
  unfold umount
  split
  · exact ⟨_, [_], rfl, by simp⟩
  · exact ⟨h.space, [_], rfl, by simp⟩

theorem umountTarget_only (env : Env) (site : Site) (name : Text) (v : VolumeConfig) (h : Host) :
    OnlyMounts h (umountTarget env site name v h).1 := by
  unfold umountTarget
  split
  · exact umount_only ..
  · exact OnlyMounts.refl h

theorem umountEach_only (env : Env) (site : Nat → Site) (name : Text) :
    ∀ (vs : List VolumeConfig) (i : Nat) (h : Host), OnlyMounts h (umountEach env site name i vs h).1
  | [], _, h => OnlyMounts.refl h
  | _ :: vs, i, h =>
    (umountEach_only env site name vs (i + 1) h).trans (umountTarget_only ..)

theorem mountVolume_only (env : Env) (i : Nat) (name : Text) (v : VolumeConfig) (h : Host) :
    OnlyMounts h (mountVolume env i name v h).1 := by
  have hensure : OnlyMounts h (ensureTarget env i name v h).1 := by
    unfold ensureTarget
    split
    · exact OnlyMounts.refl h
    · exact OnlyMounts.space ..
  unfold mountVolume
  split
  · exact OnlyMounts.refl h
  split
  · rename_i h₁ he
    rw [he] at hensure
    exact hensure
  · rename_i h₁ he
    rw [he] at hensure
    split
    · exact hensure
    have hbind : ∀ src, OnlyMounts h₁
        { h₁ with space := h₁.space.bind src (mountpointDir name ++ v.path) } :=
      fun _ => OnlyMounts.space ..
    simp only
    split
    · exact (hensure.trans (hbind _)).trans (umount_only ..)
    · exact hensure.trans (hbind _)

theorem mountEach_only (env : Env) (name : Text) :
    ∀ (vs mounted : List VolumeConfig) (h : Host), OnlyMounts h (mountEach env name mounted vs h).1
  | [], _, h => OnlyMounts.refl h
  | v :: vs, mounted, h => by
    have hv := mountVolume_only env mounted.length name v h
    unfold mountEach
    split
    · rename_i h₁ he
      rw [he] at hv
      exact hv.trans (mountEach_only env name vs (mounted ++ [v]) h₁)
    · rename_i h₁ he
      rw [he] at hv
      exact hv.trans (umountEach_only ..)

theorem mountVolumes_only (env : Env) (name : Text) (vs : List VolumeConfig) (h : Host) :
    OnlyMounts h (mountVolumes env name vs h).1 := by
  unfold mountVolumes
  split
  · exact mountEach_only ..
  · exact OnlyMounts.refl h

theorem umountAll_only (env : Env) (name : Text) (vs : List VolumeConfig) (h : Host) :
    OnlyMounts h (umountAll env name vs h).1 :=
  (umountEach_only env .volumeUmount name vs 0 h).trans (umount_only ..)

theorem dropMounts_only (env : Env) (args : RunArguments) (set : Bool) (h : Host) :
    OnlyMounts h (dropMounts env args set h).1 := by
  unfold dropMounts
  split
  · exact umountAll_only ..
  · exact OnlyMounts.refl h

theorem removeDir_eq (env : Env) (name : Text) (h : Host) :
    ∃ workspace, (removeDir env name h).1 = { h with
      workspace := workspace
      log := h.log ++ [.removeDir name (mountsBelow name h.space.table)] } := by
  unfold removeDir
  simp only
  split
  · exact ⟨_, rfl⟩
  split
  · exact ⟨_, rfl⟩
  · exact ⟨_, rfl⟩

theorem removeWorkspace_only (env : Env) (name : Text) (b : Bool) (h : Host) :
    ∃ workspace extra, (removeWorkspace env name b h).1 =
      { h with workspace := workspace, log := h.log ++ extra } := by
  unfold removeWorkspace
  split
  · obtain ⟨workspace, he⟩ := removeDir_eq env name h
    exact ⟨workspace, _, he⟩
  · exact ⟨h.workspace, [], by simp⟩

theorem rmdirCgroup_only (env : Env) (site : Site) (name : Text) (h : Host) :
    ∃ cgroups, (rmdirCgroup env site name h).1 = { h with cgroups := cgroups } := by
  unfold rmdirCgroup
  split
  · exact ⟨_, rfl⟩
  split
  · exact ⟨_, rfl⟩
  · exact ⟨_, rfl⟩

theorem cgroupCleanup_only (env : Env) (name : Text) (created : Bool) (h : Host) :
    ∃ cgroups, cgroupCleanup env name created h = { h with cgroups := cgroups } := by
  unfold cgroupCleanup
  split
  · exact rmdirCgroup_only ..
  · exact ⟨h.cgroups, rfl⟩

/-! ## Network -/

theorem releaseUsedIpText_only (env : Env) (site : Site) (network ip : Text) (h : Host) :
    OnlyRecords h (releaseUsedIpText env site network ip h).1 := by
  unfold releaseUsedIpText
  split
  · exact OnlyRecords.refl h
  split
  · exact OnlyRecords.refl h
  · exact ⟨_, rfl⟩

theorem deleteOwnedVeth_only (env : Env) (site : Site) (name expectedAlias : Text) (h : Host) :
    OnlyLinks h (deleteOwnedVeth env site name expectedAlias h).1 := by
  unfold deleteOwnedVeth
  split
  · exact OnlyLinks.refl h
  split
  · exact OnlyLinks.refl h
  split
  · exact OnlyLinks.refl h
  · exact ⟨_, _, rfl⟩

theorem disconnectContainer_only (env : Env) (name : Text) (h : Host) :
    OnlyLinks h (disconnectContainer env name h).1 := by
  unfold disconnectContainer
  split
  · exact OnlyLinks.refl h
  split
  · exact OnlyLinks.refl h
  split
  · exact OnlyLinks.refl h
  · exact deleteOwnedVeth_only ..

theorem runVethCommands_only (env : Env) : ∀ (cs : List (Host → Host)) (k : Nat) (h : Host),
    (∀ c ∈ cs, ∀ h, OnlyLinks h (c h)) → OnlyLinks h (runVethCommands env k cs h).1
  | [], _, h, _ => OnlyLinks.refl h
  | c :: cs, k, h, hc => by
    unfold runVethCommands
    split
    · exact OnlyLinks.refl h
    · exact (hc c List.mem_cons_self h).trans
        (runVethCommands_only env cs (k + 1) (c h) fun c' hc' => hc c' (List.mem_cons_of_mem _ hc'))

theorem vethCommands_only (network vethHost vethPeer : Text) :
    ∀ c ∈ vethCommands network vethHost vethPeer, ∀ h, OnlyLinks h (c h) := by
  intro c hc h
  simp only [vethCommands, List.mem_cons, List.not_mem_nil, or_false] at hc
  rcases hc with rfl | rfl | rfl | rfl | rfl | rfl | rfl | rfl | rfl
  · exact ⟨_, _, rfl⟩
  · exact OnlyLinks.refl h
  · exact ⟨_, _, rfl⟩
  all_goals exact OnlyLinks.refl h

theorem createVeth_only (env : Env) (name network vethHost vethPeer : Text) (h : Host) :
    OnlyLinks h (createVeth env name network vethHost vethPeer h).1 := by
  have hadd : OnlyLinks h (addVethPair vethHost vethPeer h) := ⟨_, _, rfl⟩
  have hconf : OnlyLinks h (configureVeth env name network vethHost vethPeer
      (addVethPair vethHost vethPeer h)).1 := by
    have hmark : OnlyLinks h (updateLink vethHost (fun l => { l with ifalias := containerAlias name })
        (addVethPair vethHost vethPeer h)) := hadd.trans ⟨_, _, rfl⟩
    exact hmark.trans (runVethCommands_only env _ 0 _ (vethCommands_only network vethHost vethPeer))
  unfold createVeth
  split
  · exact OnlyLinks.refl h
  split
  · exact OnlyLinks.refl h
  split
  · exact hadd
  split
  · simp only
    split
    · exact hadd
    · exact hadd.trans ⟨_, _, rfl⟩
  · simp only
    split
    · exact hconf
    · exact hconf.trans (deleteOwnedVeth_only ..)

theorem attachContainer_only (env : Env) (name network : Text) (h : Host) :
    OnlyLinks h (attachContainer env name network h).1 := by
  unfold attachContainer
  split
  · exact OnlyLinks.refl h
  split
  · exact createVeth_only ..
  · exact OnlyLinks.refl h

/-- What `connect_container` does: nothing, or an allocation and the interfaces, with the address
released if those failed. -/
theorem connectContainer_cases (env : Env) (name network : Text) (h : Host) :
    (allocNewIpText env network h = none ∧ connectContainer env name network h = (h, none)) ∨
      ∃ records a h₂ ok, (allocNewIpText env network h).isSome = true ∧
      allocNewIp network h.networks = some (records, a) ∧
      attachContainer env name network { h with networks := records } = (h₂, ok) ∧
      connectContainer env name network h = if ok then (h₂, some (Ipv4.inetNtop a))
        else ((releaseUsedIpText env .connectRelease network (Ipv4.inetNtop a) h₂).1, none) := by
  unfold connectContainer allocNewIpText
  cases hload : (loadNetworks h).bind (allocNewIp network) with
  | none => exact Or.inl ⟨rfl, rfl⟩
  | some r =>
    obtain ⟨records, a⟩ := r
    obtain ⟨-, halloc⟩ := loadNetworks_bind.1 hload
    simp only
    by_cases hw : env.fails .networkWrite = true
    · rw [if_pos hw]
      exact Or.inl ⟨rfl, rfl⟩
    rw [if_neg hw]
    cases hat : attachContainer env name network { h with networks := records } with
    | mk h₂ ok =>
      refine Or.inr ⟨records, a, h₂, ok, rfl, halloc, hat, ?_⟩
      simp only [hat]
      cases ok <;> rfl

theorem connectContainer_only (env : Env) (name network : Text) (h : Host) :
    OnlyWires h (connectContainer env name network h).1 := by
  rcases connectContainer_cases env name network h with ⟨-, he⟩ | ⟨records, a, h₂, ok, -, -, hat, he⟩
  · rw [he]; exact OnlyWires.refl h
  have hrec : OnlyRecords h { h with networks := records } := ⟨records, rfl⟩
  have honly := attachContainer_only env name network { h with networks := records }
  rw [hat] at honly
  have hall := hrec.wires.trans honly.wires
  rw [he]
  split
  · exact hall
  · exact hall.trans (releaseUsedIpText_only ..).wires

theorem setChain_only (chain : Chain) (rules : List Rule) (h : Host) :
    OnlyNat h (setChain chain rules h) := ⟨_, rfl⟩

theorem deleteRule_only {chain : Chain} {words : List Text} {h h' : Host}
    (he : deleteRule chain words h = some h') : OnlyNat h h' := by
  unfold deleteRule at he
  split at he
  · cases he; exact setChain_only ..
  · cases he

theorem addPortMaps_only (env : Env) (ip : Text) : ∀ (ms : List PortMap) (i : Nat) (h : Host),
    OnlyNat h (addPortMaps env ip i ms h).1
  | [], _, h => OnlyNat.refl h
  | m :: ms, i, h => by
    unfold addPortMaps
    split
    · exact OnlyNat.refl h
    simp only
    have h₁only := setChain_only .output (h.nat .output ++ [dnatRule ip m]) h
    split
    · split
      · exact h₁only
      · cases hd : deleteRule .output (dnatRule ip m).words
            (setChain .output (h.nat .output ++ [dnatRule ip m]) h) with
        | none => exact h₁only
        | some h₂ => exact h₁only.trans (deleteRule_only hd)
    · exact (h₁only.trans (setChain_only ..)).trans (addPortMaps_only env ip ms (i + 1) _)

theorem setContainerPortMap_only (env : Env) (ip : Text) (ms : List PortMap) (h : Host) :
    OnlyNat h (setContainerPortMap env ip ms h).1 := by
  unfold setContainerPortMap
  split
  · exact OnlyNat.refl h
  · exact addPortMaps_only ..

theorem deleteDnatRules_only (env : Env) (chain : Chain) (ip : Text) :
    ∀ (rs : List Rule) (i : Nat) (h : Host), OnlyNat h (deleteDnatRules env chain ip i rs h).1
  | [], _, h => OnlyNat.refl h
  | r :: rs, i, h => by
    unfold deleteDnatRules
    split
    · split
      · rename_i h' he
        split at he
        · cases he
        · exact (deleteRule_only he).trans (deleteDnatRules_only env chain ip rs (i + 1) h')
      · exact deleteDnatRules_only env chain ip rs (i + 1) h
    · exact deleteDnatRules_only env chain ip rs (i + 1) h

theorem deleteDnatRulesForChain_only (env : Env) (chain : Chain) (ip : Text) (h : Host) :
    OnlyNat h (deleteDnatRulesForChain env chain ip h).1 := by
  unfold deleteDnatRulesForChain
  split
  · exact OnlyNat.refl h
  · exact deleteDnatRules_only ..

theorem unsetContainerPortMap_only (env : Env) (ip : Text) (h : Host) :
    OnlyNat h (unsetContainerPortMap env ip h).1 := by
  unfold unsetContainerPortMap
  split
  · exact OnlyNat.refl h
  split
  · exact OnlyNat.refl h
  · exact (deleteDnatRulesForChain_only ..).trans (deleteDnatRulesForChain_only ..)

theorem dropNetwork_only (env : Env) (name ip : Text) (h : Host) :
    OnlyNet h (dropNetwork env name ip h) := by
  unfold dropNetwork
  split
  · exact OnlyNet.refl h
  · exact ((unsetContainerPortMap_only ..).net.trans (disconnectContainer_only ..).net).trans
      (releaseUsedIpText_only ..).net

theorem cleanNetwork_only (env : Env) (name ip : Text) (h : Host) :
    OnlyNet h (cleanNetwork env name ip h).1 := by
  unfold cleanNetwork
  split
  · exact OnlyNet.refl h
  simp only
  split
  · exact (unsetContainerPortMap_only ..).net
  split
  · exact (unsetContainerPortMap_only ..).net.trans (disconnectContainer_only ..).net
  · exact ((unsetContainerPortMap_only ..).net.trans (disconnectContainer_only ..).net).trans
      (releaseUsedIpText_only ..).net

/-! ## Metadata and processes -/

/-- What `write_container_info` leaves: the old state, or the record in place. -/
theorem writeContainerInfo_cases (env : Env) (name : Text) (info : ContainerInfo) (h : Host) :
    writeContainerInfo env name info h = (h, false) ∨
      writeContainerInfo env name info h = (h.setInfo name (some info), true) := by
  unfold writeContainerInfo
  split
  · exact Or.inl rfl
  split
  · exact Or.inl rfl
  split
  · exact Or.inl rfl
  · exact Or.inr rfl

theorem writeContainerInfo_only (env : Env) (name : Text) (info : ContainerInfo) (h : Host) :
    OnlyInfo h (writeContainerInfo env name info h).1 := by
  unfold writeContainerInfo
  split
  · exact OnlyInfo.refl h
  split
  · exact OnlyInfo.refl h
  split
  · exact OnlyInfo.refl h
  · exact ⟨_, rfl⟩

/-- At most the record of `name` differs: it has gone, or it has another status and was not set
running. -/
def OnlyStatus (name : Text) (h h' : Host) : Prop :=
  ∃ o, h' = h.setInfo name o ∧ ∀ i', o = some i' → ∃ i status, h.info name = some i ∧
    i' = { i with status := status } ∧ (status = .running → i.status = .running)

theorem OnlyStatus.refl (name : Text) (h : Host) : OnlyStatus name h h := by
  refine ⟨h.info name, ?_, fun i hi => ⟨i, i.status, hi, rfl, id⟩⟩
  unfold Host.setInfo
  rw [Function.update_eq_self]

/-- Every record was there before, perhaps with another status. -/
theorem OnlyStatus.record {name : Text} {h h' : Host} (ho : OnlyStatus name h h') {n : Text}
    {i' : ContainerInfo} (hi' : h'.info n = some i') : ∃ i status, h.info n = some i ∧
      i' = { i with status := status } ∧ (status = .running → i.status = .running) := by
  obtain ⟨o, rfl, hstatus⟩ := ho
  by_cases hn : n = name
  · subst hn
    rw [Host.setInfo_self] at hi'
    exact hstatus i' hi'
  · rw [Host.setInfo_of_ne h hn] at hi'
    exact ⟨i', i'.status, hi', rfl, id⟩

theorem writeStatus_status (env : Env) {name : Text} {i : ContainerInfo} {h : Host}
    (hi : h.info name = some i) {status : ContainerStatus} (hs : status ≠ .running) :
    OnlyStatus name h (writeContainerInfo env name { i with status := status } h).1 := by
  rcases writeContainerInfo_cases env name { i with status := status } h with he | he
  · rw [he]; exact OnlyStatus.refl name h
  · rw [he]
    refine ⟨_, rfl, fun i' hi' => ?_⟩
    cases hi'
    exact ⟨i, status, hi, rfl, fun h => absurd h hs⟩

theorem updateContainerStatus_status (env : Env) (name : Text) {status : ContainerStatus}
    (hs : status ≠ .running) (h : Host) :
    OnlyStatus name h (updateContainerStatus env name status h).1 := by
  unfold updateContainerStatus
  split
  · exact OnlyStatus.refl name h
  · rename_i i hi
    exact writeStatus_status env hi hs

theorem refresh_status (env : Env) {name : Text} {i : ContainerInfo} {h : Host}
    (hi : h.info name = some i) :
    OnlyStatus name h (refreshContainerStatusIfNeeded env name i h).1 := by
  unfold refreshContainerStatusIfNeeded
  split
  · exact OnlyStatus.refl name h
  split
  · exact OnlyStatus.refl name h
  simp only
  split
  · split
    · exact OnlyStatus.refl name h
    · exact writeStatus_status env hi (by decide)
  · exact writeStatus_status env hi (by decide)

theorem removeStatusInfo_status (env : Env) (name : Text) (h : Host) :
    OnlyStatus name h (removeStatusInfo env name h).1 := by
  unfold removeStatusInfo
  split
  · exact OnlyStatus.refl name h
  split
  · exact OnlyStatus.refl name h
  · exact ⟨none, rfl, fun i' hi' => by cases hi'⟩

/-- A pid that `/proc` does not show is free. -/
theorem pid_free {h : Host} {pid : Nat} (hn : (readProcessStartTime pid h).isSome = false) :
    ∀ p ∈ h.procs, p.pid ≠ pid := by
  simp only [readProcessStartTime, Option.isSome_map] at hn
  intro p hp he
  simp only [Bool.eq_false_iff, ne_eq, List.find?_isSome, decide_eq_true_eq, not_exists, not_and] at hn
  exact hn p hp he

theorem pollUntilEmpty_only (env : Env) (name : Text) : ∀ (n k : Nat) (count : Int) (h : Host),
    OnlyProcs h (pollUntilEmpty env name n k count h).1
  | 0, _, _, h => OnlyProcs.refl h
  | n + 1, k, count, h => by
    unfold pollUntilEmpty
    split
    · exact OnlyProcs.trans ⟨_, rfl⟩ (pollUntilEmpty_only env name n (k + 1) _ (elapse env k h))
    · exact OnlyProcs.refl h

/-- A refresh that returns a record has left it in place. -/
theorem refresh_info {env : Env} {name : Text} {i j : ContainerInfo} {h h' : Host}
    (hi : h.info name = some i) (he : refreshContainerStatusIfNeeded env name i h = (h', some j)) :
    h'.info name = some j ∧ ∃ status, j = { i with status := status } ∧
      (j.status = .running → i.status = .running) := by
  have hwrite : ∀ (r : Host × Option ContainerInfo),
      r = ((writeContainerInfo env name { i with status := .exited } h).1,
        if (writeContainerInfo env name { i with status := .exited } h).2 then
          some { i with status := .exited } else none) → r = (h', some j) →
      h'.info name = some j ∧ ∃ status, j = { i with status := status } ∧
        (j.status = .running → i.status = .running) := by
    intro r hr he
    rcases writeContainerInfo_cases env name { i with status := .exited } h with hw | hw
    · rw [hw] at hr
      rw [hr] at he
      cases he
    · rw [hw] at hr
      rw [hr] at he
      cases he
      exact ⟨Host.setInfo_self .., .exited, rfl, fun hs => by cases hs⟩
  unfold refreshContainerStatusIfNeeded at he
  split at he
  · cases he
    exact ⟨hi, i.status, rfl, id⟩
  split at he
  · cases he
  simp only at he
  split at he
  · split at he
    · cases he
      exact ⟨hi, i.status, rfl, id⟩
    · exact hwrite _ rfl he
  · exact hwrite _ rfl he

/-- What `docker_stop` does to one container: nothing, a refresh, or a refresh, the end of some
processes, and the status. -/
theorem stopContainer_cases (env : Env) (time : Nat) (name : Text) (h : Host) :
    (stopContainer env time name h).1 = h ∨ ∃ i h₁ o, h.info name = some i ∧
      refreshContainerStatusIfNeeded env name i h = (h₁, o) ∧ ∃ h₂, OnlyProcs h₁ h₂ ∧
      ((stopContainer env time name h).1 = h₂ ∨
        (stopContainer env time name h).1 = (updateContainerStatus env name .stopped h₂).1) := by
  unfold stopContainer
  split
  · exact Or.inl rfl
  rename_i i hi
  split
  · rename_i h₁ he
    exact Or.inr ⟨i, h₁, none, hi, he, h₁, OnlyProcs.refl h₁, Or.inl rfl⟩
  rename_i h₁ j he
  split
  · exact Or.inr ⟨i, h₁, some j, hi, he, h₁, OnlyProcs.refl h₁, Or.inl rfl⟩
  split
  · exact Or.inr ⟨i, h₁, some j, hi, he, h₁, OnlyProcs.refl h₁, Or.inl rfl⟩
  simp only
  have helapse : OnlyProcs h₁ (elapse env 0 h₁) := ⟨_, rfl⟩
  have hp := helapse.trans (pollUntilEmpty_only env name (time * 10) 1
    (containerProcessCount env (.countProcs 0) name (elapse env 0 h₁)) (elapse env 0 h₁))
  generalize pollUntilEmpty env name (time * 10) 1
    (containerProcessCount env (.countProcs 0) name (elapse env 0 h₁)) (elapse env 0 h₁) = p at hp ⊢
  split
  · exact Or.inr ⟨i, h₁, some j, hi, he, p.1, hp, Or.inl rfl⟩
  have hq : OnlyProcs h₁
      (if 0 < p.2 then pollUntilEmpty env name 20 (time * 10 + 1) p.2 p.1 else p).1 := by
    split
    · exact hp.trans (pollUntilEmpty_only ..)
    · exact hp
  generalize (if 0 < p.2 then pollUntilEmpty env name 20 (time * 10 + 1) p.2 p.1 else p) = q at hq ⊢
  split
  · exact Or.inr ⟨i, h₁, some j, hi, he, q.1, hq, Or.inl rfl⟩
  · exact Or.inr ⟨i, h₁, some j, hi, he, q.1, hq, Or.inr rfl⟩

/-! ## Stages -/

theorem initContainerWorkerspace_outcome (env : Env) (args : RunArguments) (st : RunState) :
    ∃ space workspace set, outcome (initContainerWorkerspace env args st) =
      { st with host := { st.host with space := space, workspace := workspace }, mountpointSet := set } := by
  unfold initContainerWorkerspace
  split
  · exact ⟨_, _, _, rfl⟩
  split
  · exact ⟨_, _, _, rfl⟩
  split
  · exact ⟨_, _, _, rfl⟩
  simp only
  split
  · exact ⟨_, _, _, rfl⟩
  split
  · exact ⟨_, _, _, rfl⟩
  · exact ⟨_, _, _, rfl⟩

/-- What a successful `init_container_workerspace` leaves. -/
theorem initContainerWorkerspace_ok {env : Env} {args : RunArguments} {st st' : RunState}
    (h : initContainerWorkerspace env args st = .ok st') :
    ∃ lower, env.readonlyDir = some lower ∧ st' = { st with
      host := { st.host with
        workspace := Function.update st.host.workspace args.name true
        space := st.host.space.overlay lower (mountpointDir args.name) }
      mountpointSet := true } := by
  unfold initContainerWorkerspace at h
  split at h
  · cases h
  split at h
  · cases h
  rename_i lower hlower
  split at h
  · cases h
  simp only at h
  split at h
  · cases h
  split at h
  · cases h
  · cases h
    exact ⟨lower, hlower, rfl⟩

/-- A failing one has mounted nothing. -/
theorem initContainerWorkerspace_error {env : Env} {args : RunArguments} {st st' : RunState}
    (h : initContainerWorkerspace env args st = .error st') :
    ∃ workspace set, st' = { st with
      host := { st.host with workspace := workspace }, mountpointSet := set } := by
  unfold initContainerWorkerspace at h
  split at h
  · cases h; exact ⟨_, _, rfl⟩
  split at h
  · cases h; exact ⟨_, _, rfl⟩
  split at h
  · cases h; exact ⟨_, _, rfl⟩
  simp only at h
  split at h
  · cases h; exact ⟨_, _, rfl⟩
  split at h
  · cases h; exact ⟨_, _, rfl⟩
  · cases h

theorem volumeStage_error {env : Env} {args : RunArguments} {st st' : RunState}
    (h : volumeStage env args st = .error st') :
    (mountVolumes env args.name args.volumes st.host).2 = false ∧
      st' = { st with host := (mountVolumes env args.name args.volumes st.host).1 } := by
  unfold volumeStage at h
  split at h
  · cases h
  · rename_i host hv
    cases h
    exact ⟨by rw [hv], by rw [hv]⟩

theorem volumeStage_done {env : Env} {args : RunArguments} {st st' : RunState}
    (h : volumeStage env args st = .ok st') :
    (mountVolumes env args.name args.volumes st.host).2 = true ∧
      st' = { st with host := (mountVolumes env args.name args.volumes st.host).1 } := by
  unfold volumeStage at h
  split at h
  · rename_i host hv
    cases h
    exact ⟨by rw [hv], by rw [hv]⟩
  · cases h

theorem volumeStage_outcome (env : Env) (args : RunArguments) (st : RunState) :
    ∃ h, OnlyMounts st.host h ∧ outcome (volumeStage env args st) = { st with host := h } := by
  have honly := mountVolumes_only env args.name args.volumes st.host
  unfold volumeStage
  split
  · rename_i h hm
    rw [hm] at honly
    exact ⟨h, honly, rfl⟩
  · rename_i h hm
    rw [hm] at honly
    exact ⟨h, honly, rfl⟩

theorem cgroupPrepare_outcome (env : Env) (args : RunArguments) (st : RunState) :
    ∃ cgroups created, outcome (cgroupPrepare env args st) =
      { st with host := { st.host with cgroups := cgroups }, cgroupCreated := created } := by
  unfold cgroupPrepare
  split
  · exact ⟨_, _, rfl⟩
  simp only
  split
  · unfold rmdirCgroup
    split
    · exact ⟨_, _, rfl⟩
    split
    · exact ⟨_, _, rfl⟩
    · exact ⟨_, _, rfl⟩
  · exact ⟨_, _, rfl⟩

theorem pipeStage_outcome (env : Env) (st : RunState) :
    ∃ created, outcome (pipeStage env st) = { st with pipeCreated := created } := by
  unfold pipeStage
  split
  · exact ⟨_, rfl⟩
  · exact ⟨_, rfl⟩

theorem cloneStage_outcome (env : Env) (st : RunState) :
    ∃ procs clock child, outcome (cloneStage env st) =
      { st with host := { st.host with procs := procs, clock := clock }, childPid := child } := by
  unfold cloneStage
  split
  · exact ⟨_, _, _, rfl⟩
  · exact ⟨_, _, _, rfl⟩

theorem cgroupApply_outcome (env : Env) (args : RunArguments) (st : RunState) :
    ∃ procs, outcome (cgroupApply env args st) = { st with host := { st.host with procs := procs } } := by
  unfold cgroupApply
  split
  · exact ⟨_, rfl⟩
  · exact ⟨_, rfl⟩

theorem releaseStage_outcome (env : Env) (st : RunState) :
    ∃ created, outcome (releaseStage env st) = { st with pipeCreated := created } := by
  unfold releaseStage
  split
  · exact ⟨_, rfl⟩
  · exact ⟨_, rfl⟩

theorem connectStage_outcome (env : Env) (args : RunArguments) (st : RunState) :
    ∃ h ip, OnlyWires st.host h ∧ outcome (connectStage env args st) =
      { st with host := h, ipAddr := ip } := by
  have honly := connectContainer_only env args.name TINYDOCKER_DEFAULT_NETWORK_NAME st.host
  unfold connectStage
  split
  · rename_i h ip hc
    rw [hc] at honly
    exact ⟨h, ip, honly, rfl⟩
  · rename_i h hc
    rw [hc] at honly
    exact ⟨h, st.ipAddr, honly, rfl⟩

theorem portStage_outcome (env : Env) (args : RunArguments) (st : RunState) :
    ∃ h, OnlyNat st.host h ∧ outcome (portStage env args st) = { st with host := h } ∧
      (setContainerPortMap env st.ipAddr args.portMapping st.host).1 = h := by
  have honly := setContainerPortMap_only env st.ipAddr args.portMapping st.host
  unfold portStage
  split
  · rename_i h hc
    rw [hc] at honly
    exact ⟨h, honly, rfl, congrArg Prod.fst hc⟩
  · rename_i h hc
    rw [hc] at honly
    exact ⟨h, honly, rfl, congrArg Prod.fst hc⟩

theorem metadataStage_outcome (env : Env) (args : RunArguments) (st : RunState) :
    ∃ h, OnlyInfo st.host h ∧ outcome (metadataStage env args st) = { st with host := h } := by
  unfold metadataStage
  split
  · exact ⟨st.host, OnlyInfo.refl st.host, rfl⟩
  · rename_i info _
    have honly := writeContainerInfo_only env args.name info st.host
    split
    · rename_i h hw
      rw [hw] at honly
      exact ⟨h, honly, rfl⟩
    · rename_i h hw
      rw [hw] at honly
      exact ⟨h, honly, rfl⟩

/-- After the unmounts, `cleanup_run_failure` touches the workspace, the cgroup and the metadata only. -/
theorem cleanupRunFailure_rest (env : Env) (args : RunArguments) (st : RunState) {g : Host}
    (hg : g = (dropMounts env args st.mountpointSet
      (dropNetwork env args.name st.ipAddr (killChild st))).1) :
    ∃ workspace cgroups info extra, cleanupRunFailure env args st =
      { g with workspace := workspace, cgroups := cgroups, info := info, log := g.log ++ extra } := by
  unfold cleanupRunFailure
  simp only
  rw [← hg]
  generalize (dropMounts env args st.mountpointSet
    (dropNetwork env args.name st.ipAddr (killChild st))).2 = clean
  obtain ⟨workspace, extra, hw⟩ := removeWorkspace_only env args.name clean g
  obtain ⟨cgroups, hc⟩ := cgroupCleanup_only env args.name st.cgroupCreated
    (removeWorkspace env args.name clean g).1
  rw [hc, hw]
  split
  · obtain ⟨o, he, -⟩ := removeStatusInfo_status env args.name
      { g with workspace := workspace, log := g.log ++ extra, cgroups := cgroups }
    rw [he]
    exact ⟨workspace, cgroups, _, extra, rfl⟩
  · exact ⟨workspace, cgroups, g.info, extra, rfl⟩

/-- The rule for `docker run`: what holds before it, at the end of the stages, and after the cleanup. -/
theorem dockerRun_rule {I : Host → Prop} {env : Env} {args : RunArguments} {h : Host} (hI : I h)
    (hok : ∀ st, containerExists args.name h = false →
      runAll (runStages env args) (RunState.start h) = .ok st → I st.host)
    (herr : ∀ st, containerExists args.name h = false →
      runAll (runStages env args) (RunState.start h) = .error st → I (cleanupRunFailure env args st)) :
    I (dockerRun env args h).1 := by
  unfold dockerRun
  split
  · exact hI
  rename_i hex
  have hex := Bool.eq_false_iff.2 hex
  split
  · exact hI
  split
  · rename_i st hst
    exact hok st hex hst
  · rename_i st hst
    exact herr st hex hst

end TinyDocker
