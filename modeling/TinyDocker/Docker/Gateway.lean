import TinyDocker.Docker.Addresses
import TinyDocker.Docker.Allocator
import TinyDocker.Docker.DefaultBridge

/-!
# Addresses and the default route (`docker/network.c`)

`create_network` gives the bridge the first host address of its network (`get_first_cidr_host_ip`).
`connect_container` gives the container the allocated address, always with the prefix length 24, and a default
route through `TINYDOCKER_DEFAULT_GATEWAY`, which is a constant of its own.

Principal results:

* `RecordOk.bridge_address` — on every network the bridge's address is nobody else's and can be reached
  directly from every address that is in use;
* `default_route` — in every run the default route of every container works, and its next hop is the address
  of the default bridge.
-/

set_option autoImplicit false

namespace TinyDocker

open CText Staged

def TINYDOCKER_DEFAULT_GATEWAY : Text := "172.11.11.1".toList

def getFirstCidrHostIp (cidrNetwork : Text) (size : Nat) : Text :=
  match getCidrRange cidrNetwork with
  | none => []
  | some (minIP, _, width) =>
    -- a buffer without room for the address is left empty
    let cidrHostIp := (intToStrIp (minIP + 1) size).getD []
    cidrHostIp ++ ('/' :: Nat.toDigits 10 width).take (size - cidrHostIp.length - 1)

/-- The `container_address` of `connect_container`. -/
def containerAddress (strIp : Text) : Text := strIp ++ "/24".toList

/-- An interface with the address `A/N` can send to the host directly: the host has the same first `N` bits, and
is not the interface itself. -/
def direct (address host : Text) : Bool :=
  match cut '/' address with
  | none => false
  | some (own, width) =>
    match Ipv4.inetPton own, tdParseLong width 0 32, Ipv4.inetPton host with
    | some a, .ok w, some g => decide (a ≠ g ∧ a &&& cidrMask w.toNat = g &&& cidrMask w.toNat)
    | _, _, _ => false

/-! ## Addresses of one network -/

/-- Masking clears the host part. -/
theorem and_cidrMask (x : UInt32) {width : Nat} (hw : width ≤ 32) :
    (x &&& cidrMask width).toNat = x.toNat / 2 ^ (32 - width) * 2 ^ (32 - width) := by
  have hmask : 2 ^ 32 - 2 ^ (32 - width) = (2 ^ width - 1) * 2 ^ (32 - width) := by
    rw [Nat.sub_mul, ← Nat.pow_add, Nat.one_mul, Nat.add_sub_cancel' hw]
  rw [UInt32.toNat_and, cidrMask_toNat _ hw, hmask]
  refine Nat.eq_of_testBit_eq fun i => ?_
  rw [Nat.testBit_and, Nat.testBit_mul_two_pow, Nat.testBit_mul_two_pow, Nat.testBit_two_pow_sub_one,
    Nat.testBit_div_two_pow]
  by_cases hlow : 32 - width ≤ i
  · rw [Nat.sub_add_cancel hlow]
    by_cases hhigh : i < 32
    · simp [hlow, show i - (32 - width) < width by omega]
    · have hzero : x.toNat.testBit i = false :=
        Nat.testBit_lt_two_pow (lt_of_lt_of_le x.toNat_lt (Nat.pow_le_pow_right (by decide) (by omega)))
      simp [hzero]
  · simp [hlow]

section

variable {network a b : UInt32} {width : Nat}

/-- All addresses between the network and the broadcast address have the bits of the network. -/
theorem CidrRange.masked (h : CidrRange network width) (hlo : network.toNat ≤ a.toNat)
    (hhi : a.toNat ≤ (network ||| ~~~(cidrMask width)).toNat) : a &&& cidrMask width = network := by
  have hw := h.width
  have hroom := h.room
  rw [broadcast_toNat h] at hhi
  obtain ⟨q, hq⟩ := Nat.dvd_of_mod_eq_zero h.aligned
  have hdiv : a.toNat / 2 ^ (32 - width) = q := by
    refine Nat.div_eq_of_lt_le ?_ ?_
    · rw [Nat.mul_comm]
      omega
    · rw [Nat.mul_comm, Nat.mul_succ]
      omega
  rw [← UInt32.toNat_inj, and_cidrMask a (by omega), hdiv, hq, Nat.mul_comm]

theorem slash_not_mem_inetNtop (a : UInt32) : '/' ∉ Ipv4.inetNtop a := by
  intro hm
  have hchars := Ipv4.inetPton_chars (Ipv4.inetPton_inetNtop a)
  rcases hchars '/' hm with h | h
  · exact absurd h (by decide)
  · exact absurd h (by decide)

theorem direct_eq (a b : UInt32) (hw : width ≤ 32) :
    direct (Ipv4.inetNtop a ++ '/' :: Nat.toDigits 10 width) (Ipv4.inetNtop b) =
      decide (a ≠ b ∧ a &&& cidrMask width = b &&& cidrMask width) := by
  unfold direct
  rw [cut_append (slash_not_mem_inetNtop a)]
  simp only
  rw [Ipv4.inetPton_inetNtop, Ipv4.inetPton_inetNtop, tdParseLong_toDigits (by omega) (by omega) (by omega)]
  rfl

/-- Two addresses of one network reach each other. -/
theorem CidrRange.direct (h : CidrRange network width) (hne : a ≠ b) (ha : network.toNat ≤ a.toNat)
    (ha' : a.toNat ≤ (network ||| ~~~(cidrMask width)).toNat) (hb : network.toNat ≤ b.toNat)
    (hb' : b.toNat ≤ (network ||| ~~~(cidrMask width)).toNat) :
    TinyDocker.direct (Ipv4.inetNtop a ++ '/' :: Nat.toDigits 10 width) (Ipv4.inetNtop b) = true := by
  rw [direct_eq a b (by have := h.width; omega), decide_eq_true_eq, h.masked ha ha', h.masked hb hb']
  exact ⟨hne, rfl⟩

/-- The text that `get_first_cidr_host_ip` writes has room in the buffer of `create_network`. -/
theorem getFirstCidrHostIp_eq {cidr : Text} (hcidr : tdParseIpv4Cidr cidr = .ok (network, width))
    (hw : width ≤ 30) :
    getFirstCidrHostIp cidr 32 = Ipv4.inetNtop (network + 1) ++ '/' :: Nat.toDigits 10 width := by
  have hlen := Ipv4.inetNtop_length (network + 1)
  have hdigits : (Nat.toDigits 10 width).length ≤ 2 :=
    (Nat.length_toDigits_le_iff (by decide) (by decide)).2 (by omega)
  unfold getFirstCidrHostIp getCidrRange
  rw [hcidr]
  simp only
  rw [intToStrIp_of_room _ (by decide), Option.getD_some, List.take_of_length_le]
  rw [List.length_cons]
  omega

end

/-- **The address of a bridge.**  It is the first one behind the network address, is never in the used list of the
network, and every address in use reaches it directly. -/
theorem RecordOk.bridge_address {r : NetworkRecord} (h : RecordOk r) :
    ∃ network width, tdParseIpv4Cidr r.cidr = .ok (network, width) ∧
      getFirstCidrHostIp r.cidr 32 = Ipv4.inetNtop (network + 1) ++ '/' :: Nat.toDigits 10 width ∧
      ∀ a ∈ r.usedIps, a ≠ network + 1 ∧
        direct (Ipv4.inetNtop a ++ '/' :: Nat.toDigits 10 width) (Ipv4.inetNtop (network + 1)) = true := by
  obtain ⟨network, width, hcidr, husable⟩ := h.usable
  have hrange := h.cidrRange hcidr
  have hroom := hrange.room
  have hbroadcast := broadcast_toNat hrange
  have hnext := hrange.next.1
  refine ⟨network, width, hcidr, getFirstCidrHostIp_eq hcidr hrange.width, fun a ha => ?_⟩
  obtain ⟨hlo, hhi⟩ := husable a ha
  have hne : a ≠ network + 1 := by
    intro he
    rw [he, hnext] at hlo
    exact lt_irrefl _ hlo
  exact ⟨hne, hrange.direct hne (by omega) (by omega) (by omega) (by omega)⟩

/-! ## The default network -/

/-- An address of the default network that its bridge does not have. -/
def DefaultAddress (ip : Text) : Prop :=
  ∃ a network width, ip = Ipv4.inetNtop a ∧
    tdParseIpv4Cidr TINYDOCKER_DEFAULT_NETWORK_CIDR = .ok (network, width) ∧
    network.toNat + 1 < a.toNat ∧ a.toNat < (network ||| ~~~(cidrMask width)).toNat

def HasDefaultCidr (records : List NetworkRecord) : Prop :=
  ∃ r, records.find? (fun r => decide (r.name = TINYDOCKER_DEFAULT_NETWORK_NAME)) = some r ∧
    r.cidr = TINYDOCKER_DEFAULT_NETWORK_CIDR

theorem HasDefaultCidr.alloc {records records' : List NetworkRecord} {a : UInt32}
    (hc : HasDefaultCidr records) (hs : StoreOk records)
    (h : allocNewIp TINYDOCKER_DEFAULT_NETWORK_NAME records = some (records', a)) :
    DefaultAddress (Ipv4.inetNtop a) := by
  obtain ⟨r, hr, hcidr⟩ := hc
  obtain ⟨-, -, r', hr', -, network, width, hparse, hlo, hhi, -⟩ := allocNewIp_ok hs h
  rw [hr] at hr'
  cases hr'
  exact ⟨a, network, width, rfl, hcidr ▸ hparse, hlo, hhi⟩

/-- After a successful `init_docker_env` the default network is there with its CIDR. -/
theorem initDockerEnv_cidr {env : NetEnv} {s s' : NetHost} (h : initDockerEnv env s = (s', true)) :
    HasDefaultCidr s'.host.networks := by
  have hup : ∀ {t t' : NetHost}, defaultUp env t = (t', 0) → t' = t := by
    intro t t' he
    unfold defaultUp at he
    split at he
    · cases he
    · cases he
      rfl
  have hbridge : createDefaultBridge env s = (s', 0) := by
    unfold initDockerEnv at h
    split at h
    · rename_i t ht
      obtain ⟨rfl, -⟩ := Prod.mk.inj h
      exact ht
    · cases h
  unfold createDefaultBridge at hbridge
  split at hbridge
  · split at hbridge
    · rename_i t ht
      obtain rfl := hup hbridge
      -- the record has just been added, behind records of other names
      unfold createNetwork at ht
      simp only at ht
      split at ht
      · cases ht
      split at ht
      · cases ht
      rename_i hexists
      split at ht
      · cases ht
      split at ht
      · cases ht
      split at ht
      · cases ht
      split at ht
      · cases ht
      unfold finishNetwork at ht
      split at ht
      · cases ht
      rename_i records hadd
      simp only at ht
      split at ht
      · split at ht
        · cases ht
        · cases ht
      cases ht
      have hrecords : records = s.host.networks ++
          [⟨TINYDOCKER_DEFAULT_NETWORK_NAME, "bridge".toList, TINYDOCKER_DEFAULT_NETWORK_CIDR, []⟩] := by
        split at hadd
        · cases hadd
        have hnew := (loadNetworks_bind.1 hadd).2
        unfold addNetworkInfo at hnew
        split at hnew
        · cases hnew
        exact (Option.some.inj hnew).symm
      have hnone : s.host.networks.find? (fun r => decide (r.name = TINYDOCKER_DEFAULT_NETWORK_NAME)) = none := by
        refine List.find?_eq_none.2 fun r hr => ?_
        have hany := (networkInfoExists_eq_some.1 (not_not.1 hexists)).2
        simp only [NetworkRecorded, List.any_eq_false] at hany
        exact hany r hr
      refine ⟨⟨TINYDOCKER_DEFAULT_NETWORK_NAME, "bridge".toList, TINYDOCKER_DEFAULT_NETWORK_CIDR, []⟩, ?_, rfl⟩
      show records.find? _ = _
      rw [hrecords, List.find?_append, hnone]
      rfl
    · cases hbridge
  · split at hbridge
    · cases hbridge
    rename_i existing hfind
    split at hbridge
    · cases hbridge
    rename_i hmatch
    obtain rfl := hup hbridge
    simp only [not_or, not_not] at hmatch
    exact ⟨existing, (readNetworkInfo_eq_some.1 hfind).2, hmatch.2.1⟩

/-! ## Whole runs -/

/-- The invariant: the networks file can be read back, and every container has an address of the default network. -/
structure Routed (h : Host) : Prop where
  store : StoreOk h.networks
  addresses : ∀ n i, h.info n = some i → DefaultAddress i.ipAddr

/-- The networks file stays readable, and no record gets another address. -/
structure Settles (h h' : Host) : Prop where
  store : StoreOk h.networks → StoreOk h'.networks
  info : ∀ n i', h'.info n = some i' → ∃ i, h.info n = some i ∧ i'.ipAddr = i.ipAddr

section

variable {h h' : Host}

theorem Settles.of_info (hs : StoreOk h.networks → StoreOk h'.networks) (hi : h'.info = h.info) : Settles h h' :=
  ⟨hs, fun _ i' hi' => ⟨i', hi ▸ hi', rfl⟩⟩

theorem Settles.refl (h : Host) : Settles h h := .of_info id rfl

theorem Settles.trans {h'' : Host} (h1 : Settles h h') (h2 : Settles h' h'') : Settles h h'' := by
  refine ⟨fun hs => h2.store (h1.store hs), fun n k hk => ?_⟩
  obtain ⟨j, hj, hip⟩ := h2.info n k hk
  obtain ⟨i, hi, hip'⟩ := h1.info n j hj
  exact ⟨i, hi, hip.trans hip'⟩

theorem Fades.settles {name : Text} (hf : Fades name h h') : Settles h h' := by
  refine ⟨fun hs => hf.networks ▸ hs, fun n i' hi' => ?_⟩
  obtain ⟨i, hi, hip, -⟩ := hf.record hi'
  exact ⟨i, hi, hip⟩

theorem OnlyNat.settles : OnlyNat h h' → Settles h h' := by
  rintro ⟨_, rfl⟩
  exact .of_info id rfl

theorem OnlyLinks.settles : OnlyLinks h h' → Settles h h' := by
  rintro ⟨_, _, rfl⟩
  exact .of_info id rfl

theorem Routed.settles (hr : Routed h) (hs : Settles h h') : Routed h' := by
  refine ⟨hs.store hr.store, fun n i' hi' => ?_⟩
  obtain ⟨i, hi, hip⟩ := hs.info n i' hi'
  rw [hip]
  exact hr.addresses n i hi

end

theorem releaseUsedIpText_settles (env : Env) (site : Site) (network ip : Text) (h : Host) :
    Settles h (releaseUsedIpText env site network ip h).1 := by
  unfold releaseUsedIpText
  split
  · exact .refl h
  split
  · exact .refl h
  · rename_i records hrel
    exact .of_info (fun hs => hs.release (loadNetworks_bind.1 hrel).2) rfl

theorem dropNetwork_settles (env : Env) (name ip : Text) (h : Host) : Settles h (dropNetwork env name ip h) := by
  unfold dropNetwork
  split
  · exact .refl h
  · exact ((unsetContainerPortMap_only ..).settles.trans (disconnectContainer_only ..).settles).trans
      (releaseUsedIpText_settles ..)

theorem cleanNetwork_settles (env : Env) (name ip : Text) (h : Host) :
    Settles h (cleanNetwork env name ip h).1 := by
  have hun := (unsetContainerPortMap_only env ip h).settles
  have hdis := hun.trans (disconnectContainer_only env name _).settles
  unfold cleanNetwork
  split
  · exact .refl h
  simp only
  split
  · exact hun
  split
  · exact hdis
  · exact hdis.trans (releaseUsedIpText_settles ..)

theorem cgroupCleanup_settles (env : Env) (name : Text) (created : Bool) (h : Host) :
    Settles h (cgroupCleanup env name created h) := by
  unfold cgroupCleanup
  split
  · exact (rmdirCgroup_fades env .cgroupRmdir name h).settles
  · exact .refl h

theorem rmContainer_settles (env : Env) (name : Text) (h : Host) : Settles h (rmContainer env name h).1 := by
  rcases rmContainer_cases env name h with he | ⟨i, h', o, hi, href, hcase⟩
  · rw [he]
    exact .refl h
  have hf := (refresh_status env hi).fades.settles
  rw [href] at hf
  rcases hcase with he | ⟨j, -, -, he⟩
  · rw [he]
    exact hf
  have hlog : Settles h (h'.record (.teardown name (initAlive j h'))) := hf.trans (.of_info id rfl)
  rw [he]
  rcases cleanContainerRuntime_fades env name j (h'.record (.teardown name (initAlive j h'))) with
    hf₂ | ⟨h₁, hf₂, hf₃⟩
  · exact hlog.trans hf₂.settles
  · exact ((hlog.trans hf₂.settles).trans (cleanNetwork_settles ..)).trans hf₃.settles

theorem dockerRm_settles : ∀ (targets : List (Text × Env)) (h : Host), Settles h (dockerRm targets h).1
  | [], h => .refl h
  | (name, env) :: rest, h => (rmContainer_settles env name h).trans (dockerRm_settles rest _)

theorem dockerStop_settles (time : Nat) : ∀ (targets : List (Text × Env)) (h : Host),
    Settles h (dockerStop time targets h).1
  | [], h => .refl h
  | (name, env) :: rest, h => (stopContainer_fades env time name h).settles.trans (dockerStop_settles time rest _)

section Run

variable {env : Env} {args : RunArguments} {h₀ : Host}

theorem FailedUnrecorded.routed (hr : Routed h₀) {st : RunState} (hf : FailedUnrecorded h₀ st) : Routed st.host :=
  ⟨hf.2.1, fun n i hi => hr.addresses n i (hf.1 ▸ hi)⟩

theorem Recorded.routed (hr : Routed h₀) (hc : HasDefaultCidr h₀.networks) {name : Text} {st : RunState}
    (hrec : Recorded h₀ name st) : Routed st.host := by
  obtain ⟨a, i, hip, hinfo, ha⟩ := hrec
  refine ⟨hr.store.alloc ha, fun n j hj => ?_⟩
  rw [hinfo, Function.update_apply] at hj
  split at hj
  · cases hj
    rw [hip]
    exact hc.alloc hr.store ha
  · exact hr.addresses n j hj

/-- The stages, whichever fails: the pipe to the child may fail after the metadata is written. -/
theorem runStages_routed (hr : Routed h₀) (hc : HasDefaultCidr h₀.networks) :
    TripleAll (Unconnected h₀) (runStages env args) (fun st => Routed st.host) (fun st => Routed st.host) := by
  have hu : ∀ st, Unconnected h₀ st → Routed st.host := fun _ h => (h.failed hr.store).routed hr
  have hrec : ∀ st, Recorded h₀ args.name st → Routed st.host := fun _ h => h.routed hr hc
  refine .cons (Q := Unconnected h₀) (.keep (fun st h => ?_) hu) <|
    .cons (Q := Unconnected h₀) (.keep (fun st h => ?_) hu) <|
    .cons (Q := Unconnected h₀) (.keep (fun st h => ?_) hu) <|
    .cons (Q := Unconnected h₀) (.keep (fun st h => ?_) hu) <|
    .cons (Q := Unconnected h₀) (.keep (fun st h => ?_) hu) <|
    .cons (Q := Unconnected h₀) (.keep (fun st h => ?_) hu) <|
    .cons ((connectStage_addresses hr.store).weaken fun _ hf => hf.routed hr) <|
    .cons (Q := Connected h₀) (.keep (fun st h => ?_) fun _ h => (h.failed hr.store).routed hr) <|
    .cons ((metadataStage_addresses hr.store).weaken fun _ hf => hf.routed hr) <|
    .cons (Q := fun st => Routed st.host) (fun st h => ?_) .nil
  · obtain ⟨_, _, _, he⟩ := initContainerWorkerspace_outcome env args st
    rw [he]
    exact h
  · obtain ⟨_, ⟨_, _, rfl, -⟩, he⟩ := volumeStage_outcome env args st
    rw [he]
    exact h
  · obtain ⟨_, _, he⟩ := cgroupPrepare_outcome env args st
    rw [he]
    exact h
  · obtain ⟨_, he⟩ := pipeStage_outcome env st
    rw [he]
    exact h
  · obtain ⟨_, _, _, he⟩ := cloneStage_outcome env st
    rw [he]
    exact h
  · obtain ⟨_, he⟩ := cgroupApply_outcome env args st
    rw [he]
    exact h
  · obtain ⟨_, ⟨_, rfl⟩, he, -⟩ := portStage_outcome env args st
    rw [he]
    exact h
  · obtain ⟨_, he⟩ := releaseStage_outcome env st
    have hout : Routed (outcome (releaseStage env st)).host := by
      rw [he]
      exact hrec st h
    refine ⟨fun st' h' => ?_, fun st' h' => ?_⟩
    · rw [h'] at hout
      exact hout
    · rw [h'] at hout
      exact hout

theorem cleanupRunFailure_settles (env : Env) (args : RunArguments) (st : RunState) :
    Settles st.host (cleanupRunFailure env args st) := by
  have hkill : Settles st.host (killChild st) := by
    unfold killChild
    split
    · exact .refl _
    · exact .of_info id rfl
  have hmounts := (hkill.trans (dropNetwork_settles env args.name st.ipAddr _)).trans
    ((dropMounts_only env args st.mountpointSet _).fades args.name).settles
  have hdir := hmounts.trans (removeWorkspace_fades env args.name
    (dropMounts env args st.mountpointSet (dropNetwork env args.name st.ipAddr (killChild st))).2 _).settles
  have hcg := hdir.trans (cgroupCleanup_settles env args.name st.cgroupCreated _)
  unfold cleanupRunFailure
  simp only
  split
  · exact hcg.trans (removeStatusInfo_status env args.name _).fades.settles
  · exact hcg

theorem Routed.dockerRun (hr : Routed h₀) (hc : HasDefaultCidr h₀.networks) :
    Routed (dockerRun env args h₀).1 := by
  have hrun := @runStages_routed env args h₀ hr hc (RunState.start h₀) ⟨rfl, rfl, rfl⟩
  exact dockerRun_rule hr (fun st _ hst => hrun.1 st hst)
    fun st _ hst => (hrun.2 st hst).settles (cleanupRunFailure_settles env args st)

end Run

theorem World.step_settles (w : World) {c : Command} (hrun : ∀ env args, c ≠ .run env args) :
    Settles w.host (w.step c).host := by
  rcases w.step_cases c with ⟨env, args, rfl⟩ | ⟨time, targets, rfl⟩ | ⟨targets, rfl⟩ | ⟨obj, rfl⟩ |
    ⟨procs, clock, name, hs⟩
  · exact absurd rfl (hrun env args)
  · exact dockerStop_settles time targets w.host
  · exact dockerRm_settles targets w.host
  · exact .of_info id rfl
  · have hprocs : Settles w.host { w.host with procs := procs, clock := clock } := .of_info id rfl
    exact hprocs.trans hs.fades.settles

/-! ### The network commands -/

/-- The CIDR of a new network has no line break; a record that had one could not be read back. -/
def MachineCommand.PlainCidr : MachineCommand → Prop
  | .networkCreate _ _ cidr => '\n' ∉ cidr ∧ '\r' ∉ cidr
  | _ => True

section NetworkCommands

variable {env : NetEnv} {s : NetHost}

theorem deleteOwnedBridge_networks (env : NetEnv) (s : NetHost) (read delete : NetSite) (name expectedAlias : Text) :
    (deleteOwnedBridge env read delete name expectedAlias s).1.host.networks = s.host.networks := by
  rcases deleteOwnedBridge_cases env read delete name expectedAlias s with
    ⟨he, -⟩ | ⟨l, -, ⟨he, -⟩ | ⟨he, -, -⟩⟩
  · rw [he]
  · rw [he]
  · rw [he]
    rfl

theorem deleteRecord_store (env : NetEnv) (hs : StoreOk s.host.networks) (name : Text) :
    StoreOk (deleteRecord env name s).1.host.networks := by
  rcases deleteRecord_cases env name s with he | ⟨-, he⟩
  · rw [he]
    exact hs
  · rw [he]
    exact hs.delete

theorem finishNetwork_store (hs : StoreOk s.host.networks) {record : NetworkRecord} (hr : RecordOk record)
    (hline : '\n' ∉ record.cidr ∧ '\r' ∉ record.cidr) :
    StoreOk (finishNetwork env record s).1.host.networks := by
  unfold finishNetwork
  split
  · unfold rollbackBridge
    rw [deleteOwnedBridge_networks]
    exact hs
  rename_i records hadd
  have hadd' : addNetworkInfo record s.host.networks = some records := by
    split at hadd
    · cases hadd
    · exact (loadNetworks_bind.1 hadd).2
  have hset : StoreOk (setNetworks records s).host.networks := hs.add hr hline hadd'
  simp only
  split
  · have hroll := deleteOwnedBridge_networks env (setNetworks records s) .rollbackRead .rollbackDelete
      record.name (networkAlias record.name)
    split
    · rename_i t ht
      rw [show deleteOwnedBridge env _ _ _ _ _ = (t, true) from ht] at hroll
      exact deleteRecord_store env (hroll ▸ hset) record.name
    · rename_i t ht
      rw [show deleteOwnedBridge env _ _ _ _ _ = (t, false) from ht] at hroll
      exact hroll ▸ hset
  · exact hset

theorem createNetwork_store (hs : StoreOk s.host.networks) (name : Text) {cidr : Text} (driver : Text)
    (hline : '\n' ∉ cidr ∧ '\r' ∉ cidr) :
    StoreOk (createNetwork env name cidr driver s).1.host.networks := by
  unfold createNetwork
  simp only
  split
  · exact hs
  rename_i hvalid
  split
  · exact hs
  split
  · exact hs
  split
  · exact hs
  split
  · exact hs
  split
  · split
    · exact hs
    · exact hs
  · have hformat : (tdFormatNetworkRecord ⟨name, driver, cidr, []⟩ 4096).isOk = true := by
      by_contra hbad
      exact hvalid (Or.inr (Or.inr (Or.inr (Or.inr (Bool.not_eq_true _ ▸ hbad)))))
    cases hout : tdFormatNetworkRecord ⟨name, driver, cidr, []⟩ 4096 with
    | error e =>
      rw [hout] at hformat
      cases hformat
    | ok out => exact finishNetwork_store (s := markedBridge name s) hs (tdFormatNetworkRecord_eq hout).1 hline

theorem removeDockerNetwork_store : ∀ (targets : List (Text × NetEnv)) {s : NetHost}, StoreOk s.host.networks →
    StoreOk (removeDockerNetwork targets s).host.networks
  | [], _, hs => hs
  | (name, env) :: rest, s, hs => by
    refine removeDockerNetwork_store rest ?_
    have hdel := deleteOwnedBridge_networks env s .readInterface .deleteBridge name (networkAlias name)
    unfold delteNetwork
    split
    · exact hs
    split
    · rename_i t ht
      rw [ht] at hdel
      exact hdel ▸ hs
    · rename_i t ht
      rw [ht] at hdel
      have hrec := deleteRecord_store env (hdel ▸ hs : StoreOk t.host.networks) name
      split
      · rename_i u hu
        rw [hu] at hrec
        exact hrec
      · rename_i u hu
        rw [hu] at hrec
        exact hrec

theorem initDockerEnv_store (hs : StoreOk s.host.networks) : StoreOk (initDockerEnv env s).1.host.networks := by
  rcases initDockerEnv_state env s with he | he
  · rw [he]
    exact hs
  · rw [he]
    exact createNetwork_store hs _ _ (by decide)

end NetworkCommands

theorem OnlyWires.routed {h h' : Host} (hr : Routed h) (ho : OnlyWires h h') (hs : StoreOk h'.networks) :
    Routed h' := by
  obtain ⟨_, _, _, rfl⟩ := ho
  exact ⟨hs, hr.addresses⟩

/-- **One step**: of the commands only `docker run` writes an address, and only behind `init_docker_env`. -/
theorem Machine.step_routed (m : Machine) (c : MachineCommand) (hr : Routed m.world.host) (hc : c.PlainCidr) :
    Routed (m.step c).world.host := by
  cases c with
  | command net c =>
    by_cases hrun : ∃ env args, c = .run env args
    · obtain ⟨env, args, rfl⟩ := hrun
      have hinit := OnlyWires.routed hr (initDockerEnv_only net m.net) (initDockerEnv_store (s := m.net) hr.store)
      simp only [Machine.step]
      split
      · rename_i s he
        rw [he] at hinit
        exact hinit
      · rename_i s he
        rw [he] at hinit
        exact hinit.dockerRun (initDockerEnv_cidr he)
    · have hworld : (m.step (.command net c)).world = m.world.step c := by
        cases c with
        | run env args => exact absurd ⟨env, args, rfl⟩ hrun
        | _ => rfl
      rw [hworld]
      exact hr.settles (World.step_settles m.world fun env args he => hrun ⟨env, args, he⟩)
  | networkCreate net name cidr =>
    exact OnlyWires.routed hr (createNetwork_only net m.net ..) (createNetwork_store (s := m.net) hr.store name _ hc)
  | networkRm targets =>
    exact OnlyWires.routed hr (removeDockerNetwork_only targets m.net)
      (removeDockerNetwork_store (s := m.net) targets hr.store)
  | reboot boot => exact ⟨hr.store, hr.addresses⟩

/-- What the default route needs: the gateway is the address of the default bridge, and an address of the default
network reaches it with the prefix length that `connect_container` has as a constant. -/
theorem DefaultAddress.routed {ip : Text} (h : DefaultAddress ip) :
    direct (containerAddress ip) TINYDOCKER_DEFAULT_GATEWAY = true := by
  obtain ⟨a, network, width, rfl, hcidr, hlo, hhi⟩ := h
  have hdefault : tdParseIpv4Cidr TINYDOCKER_DEFAULT_NETWORK_CIDR = .ok (2886404864, 24) := by decide
  rw [hdefault] at hcidr
  cases hcidr
  have hrange : CidrRange 2886404864 24 := ⟨by decide, by decide⟩
  have hgateway : TINYDOCKER_DEFAULT_GATEWAY = Ipv4.inetNtop (2886404864 + 1) := by decide
  have hne : a ≠ 2886404864 + 1 := by
    rintro rfl
    exact lt_irrefl _ hlo
  have hlen : containerAddress (Ipv4.inetNtop a) = Ipv4.inetNtop a ++ '/' :: Nat.toDigits 10 24 := by
    unfold containerAddress
    rfl
  rw [hlen, hgateway]
  exact hrange.direct hne (by omega) (by omega) (by decide) (by decide)

/-- **The default route.**  In every run of the commands, with every answer of the system and reboots included:
the address of each container has a direct route to the gateway, which is the address that `create_network` has
given to the default bridge; and on every network no container has the address of the bridge and all of them
can reach it. -/
theorem default_route (m : Machine) (cs : List MachineCommand) (hstore : StoreOk m.world.host.networks)
    (hempty : ∀ n, m.world.host.info n = none) (hplain : ∀ c ∈ cs, c.PlainCidr) :
    getFirstCidrHostIp TINYDOCKER_DEFAULT_NETWORK_CIDR 32 = containerAddress TINYDOCKER_DEFAULT_GATEWAY ∧
      (∀ n i, (m.run cs).world.host.info n = some i →
        direct (containerAddress i.ipAddr) TINYDOCKER_DEFAULT_GATEWAY = true) ∧
      ∀ r ∈ (m.run cs).world.host.networks, ∃ bridge width,
        getFirstCidrHostIp r.cidr 32 = Ipv4.inetNtop bridge ++ '/' :: Nat.toDigits 10 width ∧
        ∀ a ∈ r.usedIps, a ≠ bridge ∧
          direct (Ipv4.inetNtop a ++ '/' :: Nat.toDigits 10 width) (Ipv4.inetNtop bridge) = true := by
  have hstart : Routed m.world.host := by
    refine ⟨hstore, fun n i hi => ?_⟩
    rw [hempty n] at hi
    cases hi
  have hrun : Routed (m.run cs).world.host :=
    Runs.run_of_mem (I := fun m : Machine => Routed m.world.host) Machine.step_routed hstart hplain
  refine ⟨by decide, fun n i hi => (hrun.addresses n i hi).routed, fun r hr => ?_⟩
  obtain ⟨network, width, -, hbridge, hused⟩ := (hrun.store.record r hr).bridge_address
  exact ⟨network + 1, width, hbridge, hused⟩

/-- The container of the first run. -/
theorem first_route : ∃ i, (Machine.fresh.run firstRun).world.host.info "web001".toList = some i ∧
    direct (containerAddress i.ipAddr) TINYDOCKER_DEFAULT_GATEWAY = true := by
  have hinfo : ((Machine.fresh.run firstRun).world.host.info "web001".toList).isSome = true := by decide +kernel
  obtain ⟨i, hi⟩ := Option.isSome_iff_exists.1 hinfo
  have hplain : ∀ c ∈ firstRun, c.PlainCidr := by
    intro c hc
    rw [firstRun, List.mem_singleton] at hc
    rw [hc]
    trivial
  have hstore : StoreOk Machine.fresh.world.host.networks := by
    have hnil : Machine.fresh.world.host.networks = [] := rfl
    rw [hnil]
    exact ⟨by decide, by decide, fun _ hr => (by cases hr), fun _ hr => (by cases hr)⟩
  exact ⟨i, hi, (default_route Machine.fresh firstRun hstore (fun _ => rfl) hplain).2.1 _ i hi⟩

end TinyDocker
