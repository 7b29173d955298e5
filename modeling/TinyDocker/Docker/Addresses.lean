import TinyDocker.Docker.NetworkRollback
import TinyDocker.Docker.System

/-!
# Addresses of containers

`docker rm` releases the address of a container before it removes the metadata, and keeps the
metadata if a later step fails.  From then on the metadata names an address that is free.

`Addressed` is the invariant that keeps records and allocator together: every stored record has an
address of its own, and the addresses of running containers are in use.

Principal result: `running_addresses` — in every run in which no `docker run` is handed an address
that kept metadata still names, running containers have distinct addresses that are in use, and
`docker rm` touches neither the address nor the rules of another container.
-/

set_option autoImplicit false

namespace TinyDocker

open CText MountSpace Staged

structure Addressed (h : Host) : Prop where
  store : StoreOk h.networks
  named : ∀ n i, h.info n = some i → ∃ a, i.ipAddr = Ipv4.inetNtop a
  distinct : ∀ n m i j, h.info n = some i → h.info m = some j → i.ipAddr = j.ipAddr → n = m
  used : ∀ n i a, h.info n = some i → i.status = .running → i.ipAddr = Ipv4.inetNtop a → a ∈ usedIps h

/-! ## Steps that leave networks and rules alone -/

/-- Networks and rules are the same, and at most the record of `name` has gone or has stopped
running. -/
structure Fades (name : Text) (h h' : Host) : Prop where
  networks : h'.networks = h.networks
  nat : h'.nat = h.nat
  others : ∀ n, n ≠ name → h'.info n = h.info n
  own : ∀ i', h'.info name = some i' → ∃ i, h.info name = some i ∧ i'.ipAddr = i.ipAddr ∧
    (i'.status = .running → i.status = .running)

section Fades

variable {name : Text} {h h' : Host}

theorem Fades.of_eq (hn : h'.networks = h.networks) (ht : h'.nat = h.nat) (hi : h'.info = h.info) :
    Fades name h h' :=
  ⟨hn, ht, fun n _ => by rw [hi], fun i' hi' => ⟨i', by rw [← hi]; exact hi', rfl, id⟩⟩

theorem Fades.refl (name : Text) (h : Host) : Fades name h h := Fades.of_eq rfl rfl rfl

theorem Fades.trans {h'' : Host} (h1 : Fades name h h') (h2 : Fades name h' h'') :
    Fades name h h'' := by
  refine ⟨h2.networks.trans h1.networks, h2.nat.trans h1.nat,
    fun n hn => (h2.others n hn).trans (h1.others n hn), fun k hk => ?_⟩
  obtain ⟨j, hj, hip, hrun⟩ := h2.own k hk
  obtain ⟨i, hi, hip', hrun'⟩ := h1.own j hj
  exact ⟨i, hi, hip.trans hip', fun h => hrun' (hrun h)⟩

theorem OnlyMounts.fades (name : Text) : OnlyMounts h h' → Fades name h h' := by
  rintro ⟨_, _, rfl, -⟩
  exact Fades.of_eq rfl rfl rfl

theorem OnlyProcs.fades (name : Text) : OnlyProcs h h' → Fades name h h' := by
  rintro ⟨_, rfl⟩
  exact Fades.of_eq rfl rfl rfl

theorem removeWorkspace_fades (env : Env) (name : Text) (b : Bool) (h : Host) :
    Fades name h (removeWorkspace env name b h).1 := by
  unfold removeWorkspace
  split
  · obtain ⟨_, he⟩ := removeDir_eq env name h
    rw [he]
    exact Fades.of_eq rfl rfl rfl
  · exact Fades.refl name h

theorem rmdirCgroup_fades (env : Env) (site : Site) (name : Text) (h : Host) :
    Fades name h (rmdirCgroup env site name h).1 := by
  unfold rmdirCgroup
  split
  · exact Fades.refl name h
  split
  · exact Fades.refl name h
  · exact Fades.of_eq rfl rfl rfl

theorem OnlyStatus.fades : OnlyStatus name h h' → Fades name h h' := by
  rintro ⟨o, rfl, ho⟩
  refine ⟨rfl, rfl, fun n hn => Host.setInfo_of_ne h hn o, fun i' hi' => ?_⟩
  rw [Host.setInfo_self] at hi'
  obtain ⟨i, status, hi, rfl, hrun⟩ := ho i' hi'
  exact ⟨i, hi, rfl, hrun⟩

theorem Fades.record (hf : Fades name h h') {n : Text} {i' : ContainerInfo}
    (hi' : h'.info n = some i') : ∃ i, h.info n = some i ∧ i'.ipAddr = i.ipAddr ∧
      (i'.status = .running → i.status = .running) := by
  by_cases hn : n = name
  · subst hn
    exact hf.own i' hi'
  · rw [hf.others n hn] at hi'
    exact ⟨i', hi', rfl, id⟩

theorem Addressed.fades (hI : Addressed h) (hf : Fades name h h') : Addressed h' := by
  have hused : usedIps h' = usedIps h := by unfold usedIps; rw [hf.networks]
  refine ⟨hf.networks ▸ hI.store, fun n i' hi' => ?_, fun n m i' j' hi' hj' he => ?_,
    fun n i' a hi' hs hip => ?_⟩
  · obtain ⟨i, hi, hip, -⟩ := hf.record hi'
    rw [hip]
    exact hI.named n i hi
  · obtain ⟨i, hi, hip, -⟩ := hf.record hi'
    obtain ⟨j, hj, hjp, -⟩ := hf.record hj'
    exact hI.distinct n m i j hi hj (hip.symm.trans (he.trans hjp))
  · obtain ⟨i, hi, hip', hrun⟩ := hf.record hi'
    rw [hused]
    exact hI.used n i a hi (hrun hs) (hip'.symm.trans hip)

end Fades

/-! ## Releasing an address -/

/-- Addresses other than `a` stay in use. -/
def Frees (a : UInt32) (h h' : Host) : Prop :=
  h'.info = h.info ∧ (StoreOk h.networks → StoreOk h'.networks) ∧
    ∀ b, b ≠ a → b ∈ usedIps h → b ∈ usedIps h'

theorem Frees.of_eq {a : UInt32} {h h' : Host} (hn : h'.networks = h.networks)
    (hi : h'.info = h.info) : Frees a h h' := by
  refine ⟨hi, fun hs => hn ▸ hs, fun b _ hb => ?_⟩
  unfold usedIps at hb ⊢
  rw [hn]
  exact hb

theorem Frees.refl (a : UInt32) (h : Host) : Frees a h h := Frees.of_eq rfl rfl

theorem Frees.trans {a : UInt32} {h h' h'' : Host} (h1 : Frees a h h') (h2 : Frees a h' h'') :
    Frees a h h'' :=
  ⟨h2.1.trans h1.1, fun hs => h2.2.1 (h1.2.1 hs), fun b hb hm => h2.2.2 b hb (h1.2.2 b hb hm)⟩

theorem OnlyNat.frees {h h' : Host} (a : UInt32) : OnlyNat h h' → Frees a h h' := by
  rintro ⟨_, rfl⟩
  exact Frees.of_eq rfl rfl

theorem OnlyLinks.frees {h h' : Host} (a : UInt32) : OnlyLinks h h' → Frees a h h' := by
  rintro ⟨_, _, rfl⟩
  exact Frees.of_eq rfl rfl

theorem releaseUsedIpText_frees (env : Env) (site : Site) (a : UInt32) (h : Host) :
    Frees a h
      (releaseUsedIpText env site TINYDOCKER_DEFAULT_NETWORK_NAME (Ipv4.inetNtop a) h).1 := by
  unfold releaseUsedIpText
  rw [strIpToInt_inetNtop]
  split
  · exact Frees.refl a h
  split
  · exact Frees.refl a h
  · rename_i records hload
    have hrel := (loadNetworks_bind.1 hload).2
    refine ⟨rfl, fun hs => hs.release hrel, fun b hb hm => ?_⟩
    have hu := usedIpsOf_releaseUsedIp hrel TINYDOCKER_DEFAULT_NETWORK_NAME
    rw [if_pos rfl] at hu
    show b ∈ usedIpsOf TINYDOCKER_DEFAULT_NETWORK_NAME records
    rw [hu]
    exact List.mem_filter.2 ⟨hm, by simpa using hb⟩

theorem cleanNetwork_frees (env : Env) (name : Text) (a : UInt32) (h : Host) :
    Frees a h (cleanNetwork env name (Ipv4.inetNtop a) h).1 := by
  have hun := (unsetContainerPortMap_only env (Ipv4.inetNtop a) h).frees a
  have hdis := hun.trans ((disconnectContainer_only env name _).frees a)
  unfold cleanNetwork
  split
  · exact Frees.refl a h
  simp only
  split
  · exact hun
  split
  · exact hdis
  · exact hdis.trans (releaseUsedIpText_frees ..)

theorem dropNetwork_frees (env : Env) (name : Text) (a : UInt32) (h : Host) :
    Frees a h (dropNetwork env name (Ipv4.inetNtop a) h) := by
  unfold dropNetwork
  split
  · exact Frees.refl a h
  · exact (((unsetContainerPortMap_only ..).frees a).trans
      ((disconnectContainer_only ..).frees a)).trans (releaseUsedIpText_frees ..)

theorem Addressed.frees {h h' : Host} {a : UInt32} (hI : Addressed h) (hf : Frees a h h')
    (hno : ∀ n i, h.info n = some i → i.status = .running → i.ipAddr ≠ Ipv4.inetNtop a) :
    Addressed h' := by
  refine ⟨hf.2.1 hI.store, ?_, ?_, fun n i b hi hs hip => ?_⟩
  · rw [hf.1]; exact hI.named
  · rw [hf.1]; exact hI.distinct
  · rw [hf.1] at hi
    refine hf.2.2 b (fun hba => ?_) (hI.used n i b hi hs hip)
    exact hno n i hi hs (hba ▸ hip)

/-! ## `docker stop` and `docker rm` -/

theorem stopContainer_fades (env : Env) (time : Nat) (name : Text) (h : Host) :
    Fades name h (stopContainer env time name h).1 := by
  rcases stopContainer_cases env time name h with he | ⟨i, h₁, o, hi, href, h₂, hprocs, hlast⟩
  · rw [he]; exact Fades.refl name h
  have hq := (refresh_status env hi).fades
  rw [href] at hq
  have hq₂ := hq.trans (hprocs.fades name)
  rcases hlast with he | he
  · rw [he]; exact hq₂
  · rw [he]; exact hq₂.trans (updateContainerStatus_status env name (by decide) h₂).fades

theorem Addressed.dockerStop (time : Nat) : ∀ (targets : List (Text × Env)) {h : Host}, Addressed h →
    Addressed (dockerStop time targets h).1
  | [], _, hI => hI
  | (name, env) :: rest, h, hI =>
    Addressed.dockerStop time rest (hI.fades (stopContainer_fades env time name h))

/-- The address stays in use if it is, and its rules stay in place. -/
def KeepsAddress (ip : Text) (h h' : Host) : Prop :=
  (∀ a, ip = Ipv4.inetNtop a → a ∈ usedIps h → a ∈ usedIps h') ∧
    ∀ c m, (h'.nat c).count (dnatRule ip m) = (h.nat c).count (dnatRule ip m)

theorem KeepsAddress.of_eq {ip : Text} {h h' : Host} (hn : h'.networks = h.networks)
    (ht : h'.nat = h.nat) : KeepsAddress ip h h' := by
  refine ⟨fun a _ ha => ?_, fun c m => by rw [ht]⟩
  unfold usedIps at ha ⊢
  rw [hn]
  exact ha

theorem KeepsAddress.trans {ip : Text} {h h' h'' : Host} (h1 : KeepsAddress ip h h')
    (h2 : KeepsAddress ip h' h'') : KeepsAddress ip h h'' :=
  ⟨fun a hip ha => h2.1 a hip (h1.1 a hip ha), fun c m => (h2.2 c m).trans (h1.2 c m)⟩

theorem Fades.keeps {name : Text} {h h' : Host} (hf : Fades name h h') (ip : Text) :
    KeepsAddress ip h h' := KeepsAddress.of_eq hf.networks hf.nat

theorem unset_keeps (env : Env) {a b : UInt32} (hab : b ≠ a) (h : Host) :
    KeepsAddress (Ipv4.inetNtop b) h (unsetContainerPortMap env (Ipv4.inetNtop a) h).1 := by
  refine ⟨fun x _ hx => ?_, fun c m => ?_⟩
  · obtain ⟨_, he⟩ := unsetContainerPortMap_only env (Ipv4.inetNtop a) h
    rw [he]
    exact hx
  · -- a rule that points to `a` is not one of `b`
    have hother : ∀ r : Rule, r.pointsTo (Ipv4.inetNtop a) = true →
        (r == dnatRule (Ipv4.inetNtop b) m) = false := by
      intro r hr
      rw [Bool.eq_false_iff]
      intro hrb
      rw [eq_of_beq hrb] at hr
      have hmatch : (dnatRule (Ipv4.inetNtop b) m).pointsTo (Ipv4.inetNtop a) = decide (a = b) := matches_dnatRule a b m
      rw [hr] at hmatch
      exact hab (of_decide_eq_true hmatch.symm).symm
    rw [List.count_eq_length_filter, List.count_eq_length_filter, unset_others env h hother c]

theorem cleanNetwork_keeps (env : Env) (name : Text) {a b : UInt32} (hab : b ≠ a) (h : Host) :
    KeepsAddress (Ipv4.inetNtop b) h (cleanNetwork env name (Ipv4.inetNtop a) h).1 := by
  have hun := unset_keeps env hab h
  have hlinks : ∀ h, KeepsAddress (Ipv4.inetNtop b) h (disconnectContainer env name h).1 := by
    intro h
    obtain ⟨_, _, he⟩ := disconnectContainer_only env name h
    rw [he]
    exact KeepsAddress.of_eq rfl rfl
  have hrel : ∀ h, KeepsAddress (Ipv4.inetNtop b) h (releaseUsedIpText env .networkRelease
      TINYDOCKER_DEFAULT_NETWORK_NAME (Ipv4.inetNtop a) h).1 := by
    intro h
    refine ⟨fun x hx hm => ?_, fun c m => ?_⟩
    · exact (releaseUsedIpText_frees env .networkRelease a h).2.2 x
        (Ipv4.inetNtop_injective hx ▸ hab) hm
    · obtain ⟨_, he⟩ := releaseUsedIpText_only env .networkRelease TINYDOCKER_DEFAULT_NETWORK_NAME
        (Ipv4.inetNtop a) h
      rw [he]
  unfold cleanNetwork
  split
  · exact KeepsAddress.of_eq rfl rfl
  simp only
  split
  · exact hun
  split
  · exact hun.trans (hlinks _)
  · exact (hun.trans (hlinks _)).trans (hrel _)

/-- The network part is the only one of `clean_container_runtime` that touches networks or rules. -/
theorem cleanContainerRuntime_fades (env : Env) (name : Text) (info : ContainerInfo) (h : Host) :
    Fades name h (cleanContainerRuntime env name info h).1 ∨
      ∃ h₁, Fades name h h₁ ∧ Fades name (cleanNetwork env name info.ipAddr h₁).1
        (cleanContainerRuntime env name info h).1 := by
  rcases cleanContainerRuntime_cases env name info h with he | ⟨m, n, d, c, rfl, rfl, rfl, rfl, hlast⟩
  · rw [he]; exact Or.inl (Fades.refl name h)
  have hm := (umountAll_only env name (info.volumes.map parseVolumeConfig) h).fades name
  refine Or.inr ⟨_, hm, ?_⟩
  generalize umountAll env name (info.volumes.map parseVolumeConfig) h = m at hlast ⊢
  have hd := removeWorkspace_fades env name m.2 (cleanNetwork env name info.ipAddr m.1).1
  have hc := hd.trans (rmdirCgroup_fades env .cgroupRmdir name _)
  rcases hlast with he | ⟨-, -, -, -, he⟩
  · rw [he]; exact hc
  · rw [he]; exact hc.trans (removeStatusInfo_status env name _).fades

/-- **One removal** keeps the invariant, and every other record with its address and rules. -/
theorem rmContainer_addressed {h : Host} (hI : Addressed h) (env : Env) (name : Text) :
    Addressed (rmContainer env name h).1 ∧ ∀ n j, n ≠ name → h.info n = some j →
      (rmContainer env name h).1.info n = some j ∧
        KeepsAddress j.ipAddr h (rmContainer env name h).1 := by
  have hfade : ∀ {h' : Host}, Fades name h h' → Addressed h' ∧ ∀ n j, n ≠ name →
      h.info n = some j → h'.info n = some j ∧ KeepsAddress j.ipAddr h h' :=
    fun hf => ⟨hI.fades hf, fun n j hn hj => ⟨(hf.others n hn).trans hj, hf.keeps j.ipAddr⟩⟩
  rcases rmContainer_cases env name h with he | ⟨i, h', o, hi, href, hcase⟩
  · rw [he]; exact hfade (Fades.refl name h)
  have hf := (refresh_status env hi).fades
  rw [href] at hf
  rcases hcase with he | ⟨j, rfl, hs, he⟩
  · rw [he]; exact hfade hf
  have hj := (refresh_info hi href).1
  have hf₁ : Fades name h (h'.record (.teardown name (initAlive j h'))) :=
    hf.trans (Fades.of_eq rfl rfl rfl)
  rw [he]
  rcases cleanContainerRuntime_fades env name j (h'.record (.teardown name (initAlive j h'))) with
    hf₂ | ⟨h₁, hf₂, hf₃⟩
  · exact hfade (hf₁.trans hf₂)
  have hI₁ : Addressed h₁ := hI.fades (hf₁.trans hf₂)
  have hI' : Addressed h' := hI.fades hf
  obtain ⟨a, ha⟩ := hI'.named name j hj
  rw [ha] at hf₃
  -- whoever is running has another address
  have hno : ∀ n k, h₁.info n = some k → k.status = .running → k.ipAddr ≠ Ipv4.inetNtop a := by
    intro n k hk hrun hip
    obtain ⟨k', hk', hip', hrun'⟩ := hf₂.record hk
    have hn : n = name := hI'.distinct n name k' j hk' hj (hip'.symm.trans (hip.trans ha.symm))
    subst hn
    have hjk : some j = some k' := hj.symm.trans hk'
    cases hjk
    exact hs (hrun' hrun)
  have hI₂ := hI₁.frees (cleanNetwork_frees env name a h₁) hno
  refine ⟨hI₂.fades hf₃, fun n k hn hk => ⟨?_, ?_⟩⟩
  · rw [hf₃.others n hn, (cleanNetwork_frees env name a h₁).1, (hf₁.trans hf₂).others n hn, hk]
  · have hk' : h'.info n = some k := (hf.others n hn).trans hk
    obtain ⟨b, hb⟩ := hI.named n k hk
    have hba : b ≠ a := fun hba =>
      hn (hI'.distinct n name k j hk' hj (by rw [hb, ha, hba]))
    rw [hb]
    exact (((hf₁.trans hf₂).keeps _).trans (cleanNetwork_keeps env name hba h₁)).trans (hf₃.keeps _)

/-- **`docker rm`**, for all its targets. -/
theorem dockerRm_addressed : ∀ (targets : List (Text × Env)) {h : Host}, Addressed h →
    Addressed (dockerRm targets h).1 ∧ ∀ n j, n ∉ targets.map (·.1) → h.info n = some j →
      KeepsAddress j.ipAddr h (dockerRm targets h).1
  | [], _, hI => ⟨hI, fun _ _ _ _ => KeepsAddress.of_eq rfl rfl⟩
  | (name, env) :: rest, h, hI => by
    obtain ⟨hI₁, hkeep⟩ := rmContainer_addressed hI env name
    obtain ⟨hI₂, hrest⟩ := dockerRm_addressed rest hI₁
    refine ⟨hI₂, fun n j hn hj => ?_⟩
    simp only [List.map_cons, List.mem_cons, not_or] at hn
    obtain ⟨hj₁, hk₁⟩ := hkeep n j hn.1 hj
    exact hk₁.trans (hrest n j hn.2 hj₁)

/-! ## `docker run` -/

section Run

variable {env : Env} {args : RunArguments} {h₀ : Host}

/-- Before the network stage. -/
def Unconnected (h₀ : Host) (st : RunState) : Prop :=
  st.host.info = h₀.info ∧ st.host.networks = h₀.networks ∧ st.ipAddr = []

/-- After it: the run holds a new address. -/
def Connected (h₀ : Host) (st : RunState) : Prop :=
  st.host.info = h₀.info ∧ ∃ a, st.ipAddr = Ipv4.inetNtop a ∧
    allocNewIp TINYDOCKER_DEFAULT_NETWORK_NAME h₀.networks = some (st.host.networks, a)

/-- After the metadata stage. -/
def Recorded (h₀ : Host) (name : Text) (st : RunState) : Prop :=
  ∃ a i, i.ipAddr = Ipv4.inetNtop a ∧ st.host.info = Function.update h₀.info name (some i) ∧
    allocNewIp TINYDOCKER_DEFAULT_NETWORK_NAME h₀.networks = some (st.host.networks, a)

/-- At a failure: no record was written, and every address that was in use still is. -/
def FailedUnrecorded (h₀ : Host) (st : RunState) : Prop :=
  st.host.info = h₀.info ∧ StoreOk st.host.networks ∧ (∀ b ∈ usedIps h₀, b ∈ usedIps st.host) ∧
    (st.ipAddr = [] ∨ ∃ a, a ∉ usedIps h₀ ∧ st.ipAddr = Ipv4.inetNtop a)

theorem Unconnected.failed (hs : StoreOk h₀.networks) {st : RunState} (hu : Unconnected h₀ st) :
    FailedUnrecorded h₀ st := by
  refine ⟨hu.1, hu.2.1 ▸ hs, fun b hb => ?_, Or.inl hu.2.2⟩
  unfold usedIps at hb ⊢
  rw [hu.2.1]
  exact hb

theorem usedIps_alloc {h : Host} {a : UInt32} (hs : StoreOk h₀.networks)
    (ha : allocNewIp TINYDOCKER_DEFAULT_NETWORK_NAME h₀.networks = some (h.networks, a)) :
    usedIps h = usedIps h₀ ++ [a] ∧ a ∉ usedIps h₀ := by
  have hu := usedIpsOf_allocNewIp hs ha TINYDOCKER_DEFAULT_NETWORK_NAME
  rw [if_pos rfl] at hu
  exact ⟨hu, (allocNewIp_ok hs ha).2.1⟩

theorem Connected.failed (hs : StoreOk h₀.networks) {st : RunState} (hc : Connected h₀ st) :
    FailedUnrecorded h₀ st := by
  obtain ⟨hi, a, hip, ha⟩ := hc
  obtain ⟨hu, hnew⟩ := usedIps_alloc hs ha
  refine ⟨hi, hs.alloc ha, fun b hb => ?_, Or.inr ⟨a, hnew, hip⟩⟩
  rw [hu]
  exact List.mem_append_left _ hb

theorem connectStage_addresses (hs : StoreOk h₀.networks) :
    Triple (Unconnected h₀) (connectStage env args) (Connected h₀) (FailedUnrecorded h₀) := by
  intro st hu
  obtain ⟨hi, hn, hip⟩ := hu
  rcases connectContainer_cases env args.name TINYDOCKER_DEFAULT_NETWORK_NAME st.host with
    ⟨-, he⟩ | ⟨records, a, h₂, ok, -, ha, hat, he⟩
  · refine ⟨fun st' h' => ?_, fun e h' => ?_⟩
    · simp only [connectStage, he] at h'
      cases h'
    · simp only [connectStage, he] at h'
      cases h'
      exact Unconnected.failed hs ⟨hi, hn, hip⟩
  rw [hn] at ha
  obtain ⟨links, index, hlinks⟩ := attachContainer_only env args.name TINYDOCKER_DEFAULT_NETWORK_NAME
    { st.host with networks := records }
  rw [hat] at hlinks
  subst hlinks
  cases ok with
  | true =>
    refine ⟨fun st' h' => ?_, fun e h' => ?_⟩
    · simp only [connectStage, he, if_true] at h'
      cases h'
      exact ⟨hi, a, rfl, ha⟩
    · simp only [connectStage, he, if_true] at h'
      cases h'
  | false =>
    refine ⟨fun st' h' => ?_, fun e h' => ?_⟩
    · simp only [connectStage, he, Bool.false_eq_true, if_false] at h'
      cases h'
    · -- the new address is released again
      simp only [connectStage, he, Bool.false_eq_true, if_false] at h'
      cases h'
      have hfree := releaseUsedIpText_frees env .connectRelease a { st.host with
        networks := records, links := links, nextIndex := index }
      obtain ⟨hu, hnew⟩ := usedIps_alloc (h := { st.host with
        networks := records, links := links, nextIndex := index }) hs ha
      refine ⟨hfree.1.trans hi, hfree.2.1 (hs.alloc ha), fun b hb => ?_, Or.inl hip⟩
      refine hfree.2.2 b (fun hba => hnew (hba ▸ hb)) ?_
      rw [hu]
      exact List.mem_append_left _ hb

theorem metadataStage_addresses (hs : StoreOk h₀.networks) :
    Triple (Connected h₀) (metadataStage env args) (Recorded h₀ args.name) (FailedUnrecorded h₀) := by
  intro st hc
  have hfail := hc.failed hs
  obtain ⟨hi, a, hip, ha⟩ := hc
  cases hinfo : createContainerInfo args env.pid
      (if env.fails .startTime then none else readProcessStartTime env.pid st.host)
      .running st.ipAddr env.timestamp env.created with
  | none =>
    refine ⟨fun st' h' => ?_, fun e h' => ?_⟩
    · simp only [metadataStage, hinfo] at h'
      cases h'
    · simp only [metadataStage, hinfo] at h'
      cases h'
      exact hfail
  | some info =>
    obtain ⟨-, -, -, -, hinfoip, -⟩ := createContainerInfo_ok hinfo
    rcases writeContainerInfo_cases env args.name info st.host with hw | hw
    · refine ⟨fun st' h' => ?_, fun e h' => ?_⟩
      · simp only [metadataStage, hinfo, hw] at h'
        cases h'
      · simp only [metadataStage, hinfo, hw] at h'
        cases h'
        exact hfail
    · refine ⟨fun st' h' => ?_, fun e h' => ?_⟩
      · simp only [metadataStage, hinfo, hw] at h'
        cases h'
        refine ⟨a, info, hinfoip.trans hip, ?_, ha⟩
        show Function.update st.host.info args.name (some info) = _
        rw [hi]
      · simp only [metadataStage, hinfo, hw] at h'
        cases h'

/-- What `docker_run` has done to records and addresses when its last stage returns, or at the first
failure.  A failing pipe is excluded: it is the one failure after the metadata is written. -/
theorem runStages_addresses (hs : StoreOk h₀.networks) (hpipe : env.fails .releaseWrite = false) :
    TripleAll (Unconnected h₀) (runStages env args) (Recorded h₀ args.name) (FailedUnrecorded h₀) := by
  refine .cons (Q := Unconnected h₀) (.keep (fun st hu => ?_) fun _ hu => hu.failed hs) <|
    .cons (Q := Unconnected h₀) (.keep (fun st hu => ?_) fun _ hu => hu.failed hs) <|
    .cons (Q := Unconnected h₀) (.keep (fun st hu => ?_) fun _ hu => hu.failed hs) <|
    .cons (Q := Unconnected h₀) (.keep (fun st hu => ?_) fun _ hu => hu.failed hs) <|
    .cons (Q := Unconnected h₀) (.keep (fun st hu => ?_) fun _ hu => hu.failed hs) <|
    .cons (Q := Unconnected h₀) (.keep (fun st hu => ?_) fun _ hu => hu.failed hs) <|
    .cons (connectStage_addresses hs) <|
    .cons (Q := Connected h₀) (.keep (fun st hc => ?_) fun _ hc => hc.failed hs) <|
    .cons (metadataStage_addresses hs) <|
    .cons (Q := Recorded h₀ args.name) (fun st hr => ?_) .nil
  · obtain ⟨_, _, _, he⟩ := initContainerWorkerspace_outcome env args st
    rw [he]
    exact hu
  · obtain ⟨h, ⟨_, _, rfl, -⟩, he⟩ := volumeStage_outcome env args st
    rw [he]
    exact hu
  · obtain ⟨_, _, he⟩ := cgroupPrepare_outcome env args st
    rw [he]
    exact hu
  · obtain ⟨_, he⟩ := pipeStage_outcome env st
    rw [he]
    exact hu
  · obtain ⟨_, _, _, he⟩ := cloneStage_outcome env st
    rw [he]
    exact hu
  · obtain ⟨_, he⟩ := cgroupApply_outcome env args st
    rw [he]
    exact hu
  · obtain ⟨h, ⟨_, rfl⟩, he, -⟩ := portStage_outcome env args st
    rw [he]
    exact hc
  · unfold releaseStage
    rw [hpipe]
    refine ⟨fun st' h' => ?_, fun e h' => ?_⟩
    · cases h'; exact hr
    · cases h'

/-- The cleanup releases nothing that was in use before, and writes no record. -/
theorem FailedUnrecorded.cleanup (hI : Addressed h₀) {st : RunState} (hf : FailedUnrecorded h₀ st) :
    Addressed (cleanupRunFailure env args st) := by
  obtain ⟨hi, hs, hkeep, hip⟩ := hf
  have hkill : (killChild st).networks = st.host.networks ∧ (killChild st).info = st.host.info := by
    unfold killChild
    split
    · exact ⟨rfl, rfl⟩
    · exact ⟨rfl, rfl⟩
  -- after the network part
  have hnet : Addressed (dropNetwork env args.name st.ipAddr (killChild st)) := by
    have hkept : ∀ {h : Host}, h.info = h₀.info → StoreOk h.networks →
        (∀ b ∈ usedIps h₀, b ∈ usedIps h) → Addressed h := by
      intro h hinfo hstore hused
      refine ⟨hstore, ?_, ?_, fun n i a hi hs hip => ?_⟩
      · rw [hinfo]; exact hI.named
      · rw [hinfo]; exact hI.distinct
      · rw [hinfo] at hi
        exact hused a (hI.used n i a hi hs hip)
    have hkilled : ∀ b ∈ usedIps h₀, b ∈ usedIps (killChild st) := by
      intro b hb
      unfold usedIps at hb ⊢
      rw [hkill.1]
      exact hkeep b hb
    rcases hip with hip | ⟨a, hnew, hip⟩
    · rw [hip]
      unfold dropNetwork
      rw [if_pos rfl]
      exact hkept (hkill.2.trans hi) (hkill.1 ▸ hs) hkilled
    · rw [hip]
      have hfree := dropNetwork_frees env args.name a (killChild st)
      refine hkept (hfree.1.trans (hkill.2.trans hi)) (hfree.2.1 (hkill.1 ▸ hs)) fun b hb => ?_
      exact hfree.2.2 b (fun hba => hnew (hba ▸ hb)) (hkilled b hb)
  have hmounts := hnet.fades
    ((dropMounts_only env args st.mountpointSet _).fades args.name)
  have hdir := hmounts.fades (removeWorkspace_fades env args.name
    (dropMounts env args st.mountpointSet (dropNetwork env args.name st.ipAddr (killChild st))).2 _)
  have hcg := fun b : Bool => (show Addressed (cgroupCleanup env args.name b _) by
    unfold cgroupCleanup
    split
    · exact hdir.fades (rmdirCgroup_fades env .cgroupRmdir args.name _)
    · exact hdir)
  unfold cleanupRunFailure
  simp only
  split
  · exact (hcg st.cgroupCreated).fades (removeStatusInfo_status env args.name _).fades
  · exact hcg st.cgroupCreated

/-- No record that is not running names the address the next run gets. -/
def AddressFresh (h : Host) : Prop :=
  ∀ n i a, h.info n = some i → i.status ≠ .running →
    LowestFree TINYDOCKER_DEFAULT_NETWORK_NAME h.networks a → i.ipAddr ≠ Ipv4.inetNtop a

theorem Recorded.addressed (hI : Addressed h₀) (hfresh : AddressFresh h₀) {name : Text}
    {st : RunState} (hr : Recorded h₀ name st) : Addressed st.host := by
  obtain ⟨a, i, hip, hinfo, ha⟩ := hr
  obtain ⟨hu, hnew⟩ := usedIps_alloc hI.store ha
  have hlow := allocNewIp_lowestFree hI.store ha
  -- the new address is nobody's: running ones are in use, the others by the condition
  have hother : ∀ n j, h₀.info n = some j → j.ipAddr ≠ Ipv4.inetNtop a := by
    intro n j hj hjip
    by_cases hs : j.status = .running
    · exact hnew (hI.used n j a hj hs hjip)
    · exact hfresh n j a hj hs hlow hjip
  have hget : ∀ n j, st.host.info n = some j → (n = name ∧ j = i) ∨ h₀.info n = some j := by
    intro n j hj
    rw [hinfo, Function.update_apply] at hj
    split at hj
    · rename_i hn
      cases hj
      exact Or.inl ⟨hn, rfl⟩
    · exact Or.inr hj
  refine ⟨hI.store.alloc ha, fun n j hj => ?_, fun n m j k hj hk he => ?_, fun n j b hj hs hb => ?_⟩
  · rcases hget n j hj with ⟨-, rfl⟩ | hj
    · exact ⟨a, hip⟩
    · exact hI.named n j hj
  · rcases hget n j hj with ⟨rfl, rfl⟩ | hj
    · rcases hget m k hk with ⟨rfl, -⟩ | hk
      · rfl
      · exact absurd (he.symm.trans hip) (hother m k hk)
    · rcases hget m k hk with ⟨rfl, rfl⟩ | hk
      · exact absurd (he.trans hip) (hother n j hj)
      · exact hI.distinct n m j k hj hk he
  · rw [hu]
    rcases hget n j hj with ⟨-, rfl⟩ | hj
    · rw [Ipv4.inetNtop_injective (hb.symm.trans hip)]
      exact List.mem_append_right _ List.mem_cons_self
    · exact List.mem_append_left _ (hI.used n j b hj hs hb)

theorem Addressed.dockerRun (hI : Addressed h₀) (hpipe : env.fails .releaseWrite = false)
    (hfresh : containerExists args.name h₀ = false → AddressFresh h₀) :
    Addressed (dockerRun env args h₀).1 := by
  have hrun := @runStages_addresses env args h₀ hI.store hpipe (RunState.start h₀) ⟨rfl, rfl, rfl⟩
  exact dockerRun_rule hI (fun st hex hst => (hrun.1 st hst).addressed hI (hfresh hex))
    fun st _ hst => (hrun.2 st hst).cleanup hI

end Run

/-! ## Whole runs -/

/-- A `docker run` on a free name finds no kept metadata that names the lowest free address.  The
pipe to the child works. -/
def AddressOk (w : World) : Command → Prop
  | .run env args => env.fails .releaseWrite = false ∧
      (containerExists args.name w.host = false → AddressFresh w.host)
  | _ => True

theorem Addressed.step {w : World} {c : Command} (hI : Addressed w.host) (hc : AddressOk w c) :
    Addressed (w.step c).host := by
  rcases w.step_cases c with ⟨env, args, rfl⟩ | ⟨time, targets, rfl⟩ | ⟨targets, rfl⟩ | ⟨obj, rfl⟩ |
    ⟨procs, clock, name, hs⟩
  · exact hI.dockerRun hc.1 hc.2
  · exact Addressed.dockerStop time targets hI
  · exact (dockerRm_addressed targets hI).1
  · exact hI.fades ((OnlyMounts.space w.host { w.host.space with obj := obj }).fades [])
  · have hprocs : Fades name w.host { w.host with procs := procs, clock := clock } := .of_eq rfl rfl rfl
    exact hI.fades (hprocs.trans hs.fades)

/-- Running containers have distinct addresses, which are in use, and no `docker rm` touches the
address or the rules of a container it does not remove. -/
def AddressesHold (h : Host) : Prop :=
  (∀ n m i j, h.info n = some i → h.info m = some j → i.status = .running → j.status = .running →
      i.ipAddr = j.ipAddr → n = m) ∧
    (∀ n i, h.info n = some i → i.status = .running → ∃ a ∈ usedIps h, i.ipAddr = Ipv4.inetNtop a) ∧
    ∀ targets n j, n ∉ targets.map Prod.fst → h.info n = some j →
      KeepsAddress j.ipAddr h (dockerRm targets h).1

theorem Addressed.holds {h : Host} (hI : Addressed h) : AddressesHold h := by
  refine ⟨fun n m i j hi hj _ _ he => hI.distinct n m i j hi hj he, fun n i hi hs => ?_,
    fun targets n j hn hj => (dockerRm_addressed targets hI).2 n j hn hj⟩
  obtain ⟨a, ha⟩ := hI.named n i hi
  exact ⟨a, hI.used n i a hi hs ha, ha⟩

theorem World.Booted.addressed {w : World} (hb : w.Booted) (hs : StoreOk w.host.networks) :
    Addressed w.host := by
  refine ⟨hs, fun n i hi => ?_, fun n m i j hi => ?_, fun n i a hi => ?_⟩
  all_goals rw [hb.noInfo n] at hi; cases hi

/-- **Addresses of running containers.**  In every run in which no `docker run` is handed an address
that kept metadata names. -/
theorem running_addresses (w : World) (cs : List Command) (hboot : w.Booted)
    (hstore : StoreOk w.host.networks) (hok : w.Meets AddressOk cs) :
    AddressesHold (w.run cs).host :=
  Addressed.holds (Runs.run_inv (I := fun w => Addressed w.host) (fun _ _ hI hc => Addressed.step hI hc)
    (hboot.addressed hstore) hok)

def twoContainers : List Command :=
  [.run (.quiet [] 20) (shellArgs "web001".toList true),
    .run (.quiet [] 21) (shellArgs "web002".toList true)]

theorem twoContainers_addresses :
    (∃ i j, (World.bare.run twoContainers).host.info "web001".toList = some i ∧
      (World.bare.run twoContainers).host.info "web002".toList = some j ∧
      i.status = .running ∧ j.status = .running) ∧
    AddressesHold (World.bare.run twoContainers).host := by
  refine ⟨⟨_, _, rfl, rfl, rfl, rfl⟩, running_addresses World.bare twoContainers World.bare_booted
    bare_storeOk ⟨⟨rfl, fun _ n i a hi => ?_⟩, ⟨rfl, fun _ n i a hi hs => ?_⟩, trivial⟩⟩
  · cases hi
  · -- the only record is running
    have hinfo : ∃ j, (World.bare.run (twoContainers.take 1)).host.info =
        Function.update (fun _ => none) "web001".toList (some j) ∧ j.status = .running := ⟨_, rfl, rfl⟩
    obtain ⟨j, hj, hrun⟩ := hinfo
    have hi : (World.bare.run (twoContainers.take 1)).host.info n = some i := hi
    rw [hj, Function.update_apply] at hi
    split at hi
    · cases hi
      exact absurd hrun hs
    · cases hi

/-- An environment in which the cgroup directory cannot be removed. -/
def Env.stuckCgroup : Env := { Env.quiet [] 0 with fails := fun s => decide (s = .cgroupRmdir) }

/-- `docker rm` of `web001` releases its address and fails at the cgroup; `web002` gets the address;
the retry releases it again; `web003` gets it too. -/
def retriedRm : List Command :=
  [.run (.quiet [] 20) (shellArgs "web001".toList true), .exit 20, .collect 20,
    .rm [("web001".toList, .stuckCgroup)], .run (.quiet [] 21) (shellArgs "web002".toList true),
    .rm [("web001".toList, .quiet [] 0)], .run (.quiet [] 22) (shellArgs "web003".toList true)]

theorem retried_rm_frees_foreign_address :
    World.bare.Booted ∧ StoreOk World.bare.host.networks ∧
      ¬ AddressesHold (World.bare.run (retriedRm.take 6)).host ∧
      ¬ AddressesHold (World.bare.run retriedRm).host := by
  refine ⟨World.bare_booted, bare_storeOk, fun h => ?_, fun h => ?_⟩
  · have hinfo : ∃ i, (World.bare.run (retriedRm.take 6)).host.info "web002".toList = some i ∧
        i.status = .running := ⟨_, rfl, rfl⟩
    have hfree : usedIps (World.bare.run (retriedRm.take 6)).host = [] := by decide +kernel
    obtain ⟨i, hi, hs⟩ := hinfo
    obtain ⟨a, ha, -⟩ := h.2.1 _ i hi hs
    rw [hfree] at ha
    cases ha
  · have hinfo : ∃ i j, (World.bare.run retriedRm).host.info "web002".toList = some i ∧
        (World.bare.run retriedRm).host.info "web003".toList = some j ∧
        i.status = .running ∧ j.status = .running ∧ i.ipAddr = j.ipAddr :=
      ⟨_, _, rfl, rfl, rfl, rfl, rfl⟩
    obtain ⟨i, j, hi, hj, hsi, hsj, he⟩ := hinfo
    exact absurd (h.1 _ _ i j hi hj hsi hsj he) (by decide)

end TinyDocker
