import TinyDocker.Docker.Bridges
import TinyDocker.Docker.System

/-!
# The default bridge

Every `docker run` begins with `create_default_bridge`.  The networks file survives a reboot, the
interfaces do not, so that the two can disagree.

Principal result: `default_bridge_iff` — in every state that the commands and reboots can reach,
`create_default_bridge` works and can be repeated if and only if the record and the bridge of the
default network are both there or both absent.
-/

set_option autoImplicit false

namespace TinyDocker

open CText MountSpace Staged

/-! ## What the container commands do to the default network -/

/-- The records without their used lists. -/
def recordKeys (h : Host) : List (Text × Text × Text) := h.networks.map fun r => (r.name, r.driver, r.cidr)

/-- The interfaces of the default name. -/
def defaultLinks (h : Host) : List Link :=
  h.links.filter fun l => decide (l.name = TINYDOCKER_DEFAULT_NETWORK_NAME)

/-- No interface is the other end of one of the default name. -/
def NoDefaultPeer (h : Host) : Prop := ∀ l ∈ h.links, l.peer ≠ some TINYDOCKER_DEFAULT_NETWORK_NAME

/-- The default network keeps its record, up to the used list, and its interface. -/
structure SparesDefault (h h' : Host) : Prop where
  keys : recordKeys h' = recordKeys h
  links : NoDefaultPeer h → defaultLinks h' = defaultLinks h ∧ NoDefaultPeer h'

section Spares

variable {h h' h'' : Host}

theorem SparesDefault.of_eq (hn : h'.networks = h.networks) (hl : h'.links = h.links) :
    SparesDefault h h' := by
  refine ⟨?_, fun hp => ⟨?_, ?_⟩⟩
  · unfold recordKeys; rw [hn]
  · unfold defaultLinks; rw [hl]
  · unfold NoDefaultPeer; rw [hl]; exact hp

theorem SparesDefault.refl (h : Host) : SparesDefault h h := .of_eq rfl rfl

theorem SparesDefault.trans (h1 : SparesDefault h h') (h2 : SparesDefault h' h'') : SparesDefault h h'' := by
  refine ⟨h2.keys.trans h1.keys, fun hp => ?_⟩
  obtain ⟨hl, hp'⟩ := h1.links hp
  obtain ⟨hl', hp''⟩ := h2.links hp'
  exact ⟨hl'.trans hl, hp''⟩

theorem updateUsedIps_spares {name : Text} {g : List UInt32 → List UInt32} (h : Host) :
    SparesDefault h { h with networks := updateUsedIps name g h.networks } :=
  ⟨updateUsedIps_map (fun r => (r.name, r.driver, r.cidr)) (fun _ _ => rfl) h.networks,
    fun hp => ⟨rfl, hp⟩⟩

theorem releaseUsedIpText_spares (env : Env) (site : Site) (network ip : Text) (h : Host) :
    SparesDefault h (releaseUsedIpText env site network ip h).1 := by
  unfold releaseUsedIpText
  split
  · exact .refl h
  split
  · exact .refl h
  · rename_i records hload
    have hr := (loadNetworks_bind.1 hload).2
    unfold releaseUsedIp at hr
    split at hr
    · cases hr
      exact updateUsedIps_spares h
    · cases hr

theorem allocNewIp_spares {network : Text} {records : List NetworkRecord} {a : UInt32} {h : Host}
    (ha : allocNewIp network h.networks = some (records, a)) :
    SparesDefault h { h with networks := records } := by
  unfold allocNewIp at ha
  split at ha
  · cases ha
  split at ha
  · cases ha
  split at ha
  · cases ha
  split at ha
  · cases ha
  simp only at ha
  split at ha
  · cases ha
  · cases ha
    exact updateUsedIps_spares h

/-! ### Veth pairs -/

theorem veth_ne_default {name vethHost : Text} (hv : tdMakeVethName name = some vethHost) :
    vethHost ≠ TINYDOCKER_DEFAULT_NETWORK_NAME := by
  intro he
  have hlen := tdMakeVethName_length hv
  rw [he] at hlen
  exact absurd hlen (by decide)

theorem vethPeer_ne_default {name vethPeer : Text} (hv : tdMakeVethPeerName name = some vethPeer) :
    vethPeer ≠ TINYDOCKER_DEFAULT_NETWORK_NAME := by
  intro he
  obtain ⟨output, ho, rfl⟩ := Option.map_eq_some_iff.1 hv
  have hlen := tdMakeVethName_length ho
  have hset : (output.set 1 'p').length = 15 := by rw [List.length_set, hlen]
  rw [he] at hset
  exact absurd hset (by decide)

/-- A change of interfaces of other names. -/
theorem updateLink_spares {name : Text} (hne : name ≠ TINYDOCKER_DEFAULT_NETWORK_NAME) {f : Link → Link}
    (hname : ∀ l, (f l).name = l.name) (hpeer : ∀ l, (f l).peer = l.peer ∨ (f l).peer = none) (h : Host) :
    SparesDefault h (updateLink name f h) := by
  refine ⟨rfl, fun hp => ⟨?_, fun l hl => ?_⟩⟩
  · simp only [defaultLinks, updateLink]
    rw [List.filter_map]
    have hpred : (fun l : Link => decide (l.name = TINYDOCKER_DEFAULT_NETWORK_NAME)) ∘
        (fun l => if l.name = name then f l else l) =
          fun l => decide (l.name = TINYDOCKER_DEFAULT_NETWORK_NAME) := by
      funext l
      simp only [Function.comp_apply]
      split
      · rw [hname]
      · rfl
    rw [hpred]
    calc _ = (h.links.filter fun l => decide (l.name = TINYDOCKER_DEFAULT_NETWORK_NAME)).map id :=
          List.map_congr_left fun l hl => by
            have hl : l.name = TINYDOCKER_DEFAULT_NETWORK_NAME := of_decide_eq_true (List.mem_filter.1 hl).2
            rw [if_neg fun he => hne (he.symm.trans hl)]
            rfl
      _ = _ := List.map_id _
  · obtain ⟨x, hx, rfl⟩ := List.mem_map.1 hl
    split
    · rcases hpeer x with he | he
      · rw [he]; exact hp x hx
      · rw [he]; simp
    · exact hp x hx

/-- Dropping interfaces of other names. -/
theorem filterLinks_spares {p : Link → Bool}
    (hp : ∀ l, l.name = TINYDOCKER_DEFAULT_NETWORK_NAME → p l = true) (h : Host) :
    SparesDefault h { h with links := h.links.filter p } := by
  refine ⟨rfl, fun hn => ⟨?_, fun l hl => hn l (List.mem_filter.1 hl).1⟩⟩
  simp only [defaultLinks, List.filter_filter]
  refine List.filter_congr fun l _ => ?_
  by_cases hl : l.name = TINYDOCKER_DEFAULT_NETWORK_NAME
  · simp [hl, hp l hl]
  · simp [hl]

theorem deleteLink_spares {l : Link} {h : Host} (hname : l.name ≠ TINYDOCKER_DEFAULT_NETWORK_NAME)
    (hpeer : l.peer ≠ some TINYDOCKER_DEFAULT_NETWORK_NAME) : SparesDefault h (deleteLink l h) := by
  refine filterLinks_spares (fun x hx => ?_) h
  rw [decide_eq_true_eq, hx]
  exact ⟨Ne.symm hname, Ne.symm hpeer⟩

theorem deleteOwnedVeth_spares (env : Env) (site : Site) {name : Text}
    (hne : name ≠ TINYDOCKER_DEFAULT_NETWORK_NAME) (expectedAlias : Text) (h : Host) :
    SparesDefault h (deleteOwnedVeth env site name expectedAlias h).1 := by
  unfold deleteOwnedVeth
  split
  · exact .refl h
  rename_i l hf
  obtain ⟨hl, hname⟩ := findLink_some hf
  split
  · exact .refl h
  split
  · exact .refl h
  · refine ⟨rfl, fun hp => ?_⟩
    exact (deleteLink_spares (h := h) (hname ▸ hne) (hp l hl)).links hp

theorem addVethPair_spares {vethHost vethPeer : Text} (hh : vethHost ≠ TINYDOCKER_DEFAULT_NETWORK_NAME)
    (hp : vethPeer ≠ TINYDOCKER_DEFAULT_NETWORK_NAME) (h : Host) :
    SparesDefault h (addVethPair vethHost vethPeer h) := by
  refine ⟨rfl, fun hn => ⟨?_, fun l hl => ?_⟩⟩
  · simp [defaultLinks, addVethPair, List.filter_append, hostEnd, peerEnd, hh, hp]
  · rcases List.mem_append.1 hl with hl | hl
    · exact hn l hl
    · simp only [List.mem_cons, List.not_mem_nil, or_false] at hl
      rcases hl with rfl | rfl
      · simpa [peerEnd] using hh
      · simpa [hostEnd] using hp

theorem runVethCommands_spares (env : Env) : ∀ (cs : List (Host → Host)) (k : Nat) (h : Host),
    (∀ c ∈ cs, ∀ h, SparesDefault h (c h)) → SparesDefault h (runVethCommands env k cs h).1
  | [], _, h, _ => .refl h
  | c :: cs, k, h, hc => by
    unfold runVethCommands
    split
    · exact .refl h
    · exact (hc c List.mem_cons_self h).trans
        (runVethCommands_spares env cs (k + 1) (c h) fun x hx => hc x (List.mem_cons_of_mem _ hx))

theorem vethCommands_spares {network vethHost vethPeer : Text}
    (hh : vethHost ≠ TINYDOCKER_DEFAULT_NETWORK_NAME) (hp : vethPeer ≠ TINYDOCKER_DEFAULT_NETWORK_NAME) :
    ∀ c ∈ vethCommands network vethHost vethPeer, ∀ h, SparesDefault h (c h) := by
  intro c hc h
  simp only [vethCommands, List.mem_cons, List.not_mem_nil, or_false] at hc
  rcases hc with rfl | rfl | rfl | rfl | rfl | rfl | rfl | rfl | rfl
  · exact updateLink_spares (f := fun l => { l with master := some network }) hh (fun _ => rfl)
      (fun _ => Or.inl rfl) h
  · exact .refl h
  · have hdrop : SparesDefault h { h with links := h.links.filter fun l => decide (l.name ≠ vethPeer) } :=
      filterLinks_spares (fun l hl => decide_eq_true (by rw [hl]; exact Ne.symm hp)) h
    exact hdrop.trans (updateLink_spares (f := fun l => { l with peer := none }) hh (fun _ => rfl)
      (fun _ => Or.inr rfl) _)
  all_goals exact .refl h

theorem createVeth_spares (env : Env) (name network : Text) {vethHost vethPeer : Text}
    (hh : vethHost ≠ TINYDOCKER_DEFAULT_NETWORK_NAME) (hp : vethPeer ≠ TINYDOCKER_DEFAULT_NETWORK_NAME)
    (h : Host) : SparesDefault h (createVeth env name network vethHost vethPeer h).1 := by
  have hadd := addVethPair_spares hh hp h
  have hconf : SparesDefault h (configureVeth env name network vethHost vethPeer
      (addVethPair vethHost vethPeer h)).1 :=
    (hadd.trans (updateLink_spares (f := fun l => { l with ifalias := containerAlias name }) hh
      (fun _ => rfl) (fun _ => Or.inl rfl) _)).trans (runVethCommands_spares env _ 0 _ (vethCommands_spares hh hp))
  unfold createVeth
  split
  · exact .refl h
  split
  · exact .refl h
  split
  · exact hadd
  split
  · dsimp only
    split
    · exact hadd
    · exact hadd.trans (deleteLink_spares hh fun he => hp (Option.some.inj he))
  simp only
  split
  · exact hconf
  · exact hconf.trans (deleteOwnedVeth_spares env .vethRollback hh _ _)

theorem attachContainer_spares (env : Env) (name network : Text) (h : Host) :
    SparesDefault h (attachContainer env name network h).1 := by
  unfold attachContainer
  split
  · exact .refl h
  split
  · rename_i vethHost vethPeer hv hp
    exact createVeth_spares env name network (veth_ne_default hv) (vethPeer_ne_default hp) h
  · exact .refl h

theorem connectContainer_spares (env : Env) (name network : Text) (h : Host) :
    SparesDefault h (connectContainer env name network h).1 := by
  rcases connectContainer_cases env name network h with ⟨-, he⟩ | ⟨records, a, h₂, ok, -, halloc, hat, he⟩
  · rw [he]; exact .refl h
  have hs := (allocNewIp_spares halloc).trans (attachContainer_spares env name network _)
  rw [hat] at hs
  rw [he]
  cases ok with
  | true => exact hs
  | false => exact hs.trans (releaseUsedIpText_spares ..)

theorem disconnectContainer_spares (env : Env) (name : Text) (h : Host) :
    SparesDefault h (disconnectContainer env name h).1 := by
  unfold disconnectContainer
  split
  · exact .refl h
  rename_i vethHost hv
  split
  · exact .refl h
  split
  · exact .refl h
  · exact deleteOwnedVeth_spares env .vethDelete (veth_ne_default hv) _ h

theorem OnlyNat.spares : OnlyNat h h' → SparesDefault h h' := by
  rintro ⟨_, rfl⟩
  exact .of_eq rfl rfl

theorem OnlyMounts.spares : OnlyMounts h h' → SparesDefault h h' := by
  rintro ⟨_, _, rfl, -⟩
  exact .of_eq rfl rfl

theorem OnlyProcs.spares : OnlyProcs h h' → SparesDefault h h' := by
  rintro ⟨_, rfl⟩
  exact .of_eq rfl rfl

theorem OnlyStatus.spares {name : Text} : OnlyStatus name h h' → SparesDefault h h' := by
  rintro ⟨_, rfl, -⟩
  exact .of_eq rfl rfl

theorem dropNetwork_spares (env : Env) (name ip : Text) (h : Host) :
    SparesDefault h (dropNetwork env name ip h) := by
  unfold dropNetwork
  split
  · exact .refl h
  · exact ((unsetContainerPortMap_only env ip h).spares.trans (disconnectContainer_spares env name _)).trans
      (releaseUsedIpText_spares ..)

theorem cleanNetwork_spares (env : Env) (name ip : Text) (h : Host) :
    SparesDefault h (cleanNetwork env name ip h).1 := by
  have hu := (unsetContainerPortMap_only env ip h).spares
  have hd := hu.trans (disconnectContainer_spares env name _)
  unfold cleanNetwork
  split
  · exact .refl h
  simp only
  split
  · exact hu
  split
  · exact hd
  · exact hd.trans (releaseUsedIpText_spares ..)

theorem cleanContainerRuntime_spares (env : Env) (name : Text) (info : ContainerInfo) (h : Host) :
    SparesDefault h (cleanContainerRuntime env name info h).1 := by
  rcases cleanContainerRuntime_cases env name info h with he | ⟨m, n, d, c, rfl, rfl, rfl, rfl, hlast⟩
  · rw [he]; exact .refl h
  have hm := (umountAll_only env name (info.volumes.map parseVolumeConfig) h).spares
  generalize umountAll env name (info.volumes.map parseVolumeConfig) h = m at hlast hm ⊢
  have hn := hm.trans (cleanNetwork_spares env name info.ipAddr m.1)
  generalize cleanNetwork env name info.ipAddr m.1 = n at hlast hn ⊢
  have hd : SparesDefault h (removeWorkspace env name m.2 n.1).1 := by
    obtain ⟨_, _, he⟩ := removeWorkspace_only env name m.2 n.1
    rw [he]
    exact hn.trans (.of_eq rfl rfl)
  generalize removeWorkspace env name m.2 n.1 = d at hlast hd ⊢
  have hc : SparesDefault h (rmdirCgroup env .cgroupRmdir name d.1).1 := by
    obtain ⟨_, he⟩ := rmdirCgroup_only env .cgroupRmdir name d.1
    rw [he]
    exact hd.trans (.of_eq rfl rfl)
  rcases hlast with he | ⟨-, -, -, -, he⟩
  · rw [he]; exact hc
  · rw [he]; exact hc.trans (removeStatusInfo_status env name _).spares

theorem rmContainer_spares (env : Env) (name : Text) (h : Host) :
    SparesDefault h (rmContainer env name h).1 := by
  rcases rmContainer_cases env name h with he | ⟨i, h', o, hi, href, hcase⟩
  · rw [he]; exact .refl h
  have hs := (refresh_status env hi).spares
  rw [href] at hs
  rcases hcase with he | ⟨j, rfl, -, he⟩
  · rw [he]; exact hs
  · rw [he]
    have hrec : SparesDefault h' (h'.record (.teardown name (initAlive j h'))) := .of_eq rfl rfl
    exact (hs.trans hrec).trans (cleanContainerRuntime_spares env name j _)

theorem dockerRm_spares : ∀ (targets : List (Text × Env)) (h : Host), SparesDefault h (dockerRm targets h).1
  | [], h => .refl h
  | (name, env) :: rest, h => (rmContainer_spares env name h).trans (dockerRm_spares rest _)

theorem stopContainer_spares (env : Env) (time : Nat) (name : Text) (h : Host) :
    SparesDefault h (stopContainer env time name h).1 := by
  rcases stopContainer_cases env time name h with he | ⟨i, h₁, o, hi, href, h₂, hprocs, hlast⟩
  · rw [he]; exact .refl h
  have hs := (refresh_status env hi).spares
  rw [href] at hs
  have hs₂ := hs.trans hprocs.spares
  rcases hlast with he | he
  · rw [he]; exact hs₂
  · rw [he]; exact hs₂.trans (updateContainerStatus_status env name (by decide) h₂).spares

theorem dockerStop_spares (time : Nat) : ∀ (targets : List (Text × Env)) (h : Host),
    SparesDefault h (dockerStop time targets h).1
  | [], h => .refl h
  | (name, env) :: rest, h => (stopContainer_spares env time name h).trans (dockerStop_spares time rest _)

/-! ### `docker run` -/

theorem runStages_spares (env : Env) (args : RunArguments) (h : Host) :
    TripleAll (fun st => SparesDefault h st.host) (runStages env args)
      (fun st => SparesDefault h st.host) (fun st => SparesDefault h st.host) := by
  refine .keep fun stage hstage st hs => ?_
  simp only [runStages, List.mem_cons, List.not_mem_nil, or_false] at hstage
  rcases hstage with rfl | rfl | rfl | rfl | rfl | rfl | rfl | rfl | rfl | rfl
  · obtain ⟨_, _, _, he⟩ := initContainerWorkerspace_outcome env args st
    rw [he]
    exact hs.trans (.of_eq rfl rfl)
  · obtain ⟨_, hm, he⟩ := volumeStage_outcome env args st
    rw [he]
    exact hs.trans hm.spares
  · obtain ⟨_, _, he⟩ := cgroupPrepare_outcome env args st
    rw [he]
    exact hs.trans (.of_eq rfl rfl)
  · obtain ⟨_, he⟩ := pipeStage_outcome env st
    rw [he]
    exact hs
  · obtain ⟨_, _, _, he⟩ := cloneStage_outcome env st
    rw [he]
    exact hs.trans (.of_eq rfl rfl)
  · obtain ⟨_, he⟩ := cgroupApply_outcome env args st
    rw [he]
    exact hs.trans (.of_eq rfl rfl)
  · have hc := connectContainer_spares env args.name TINYDOCKER_DEFAULT_NETWORK_NAME st.host
    unfold connectStage
    split
    · rename_i hr
      rw [hr] at hc
      exact hs.trans hc
    · rename_i hr
      rw [hr] at hc
      exact hs.trans hc
  · obtain ⟨_, hn, he, -⟩ := portStage_outcome env args st
    rw [he]
    exact hs.trans hn.spares
  · obtain ⟨_, ⟨_, rfl⟩, he⟩ := metadataStage_outcome env args st
    rw [he]
    exact hs.trans (.of_eq rfl rfl)
  · obtain ⟨_, he⟩ := releaseStage_outcome env st
    rw [he]
    exact hs

theorem cleanupRunFailure_spares (env : Env) (args : RunArguments) (st : RunState) :
    SparesDefault st.host (cleanupRunFailure env args st) := by
  obtain ⟨_, _, _, _, he⟩ := cleanupRunFailure_rest env args st rfl
  rw [he]
  have hkill : SparesDefault st.host (killChild st) := by
    unfold killChild
    split
    · exact .refl _
    · exact .of_eq rfl rfl
  have hm := (hkill.trans (dropNetwork_spares env args.name st.ipAddr _)).trans
    (dropMounts_only env args st.mountpointSet _).spares
  exact hm.trans (.of_eq rfl rfl)

theorem dockerRun_spares (env : Env) (args : RunArguments) (h : Host) :
    SparesDefault h (dockerRun env args h).1 := by
  have hrun := runStages_spares env args h (RunState.start h) (.refl h)
  exact dockerRun_rule (.refl h) (fun st _ hst => hrun.1 st hst)
    fun st _ hst => (hrun.2 st hst).trans (cleanupRunFailure_spares env args st)

/-- **No container command touches the default network** but for the used list of its record. -/
theorem World.step_spares (w : World) (c : Command) : SparesDefault w.host (w.step c).host := by
  rcases w.step_cases c with ⟨env, args, rfl⟩ | ⟨time, targets, rfl⟩ | ⟨targets, rfl⟩ | ⟨obj, rfl⟩ |
    ⟨procs, clock, name, hs⟩
  · exact dockerRun_spares env args w.host
  · exact dockerStop_spares time targets w.host
  · exact dockerRm_spares targets w.host
  · exact .of_eq rfl rfl
  · have hprocs : SparesDefault w.host { w.host with procs := procs, clock := clock } := .of_eq rfl rfl
    exact hprocs.trans hs.spares

end Spares

/-! ## Runs with networks and reboots -/

/-- The containers' world and the bridges of the host. -/
structure Machine where
  world : World
  bridges : List Text

def Machine.net (m : Machine) : NetHost := ⟨m.world.host, m.bridges⟩

def Machine.setNet (m : Machine) (s : NetHost) : Machine := ⟨{ m.world with host := s.host }, s.bridges⟩

inductive MachineCommand where
  /-- A command of the containers' world; `run` begins with `init_docker_env`. -/
  | command (net : NetEnv) (c : Command)
  | networkCreate (net : NetEnv) (name cidr : Text)
  | networkRm (targets : List (Text × NetEnv))
  /-- The runtime directory is kept, the rest is as the host boots. -/
  | reboot (boot : NetHost)

/-- `remove_docker_network`. -/
def removeDockerNetwork : List (Text × NetEnv) → NetHost → NetHost
  | [], s => s
  | (name, env) :: rest, s => removeDockerNetwork rest (delteNetwork env name s).1

def Machine.step (m : Machine) : MachineCommand → Machine
  | .command net (.run env args) =>
    match initDockerEnv net m.net with
    | (s, false) => m.setNet s
    | (s, true) => { m.setNet s with world := (m.setNet s).world.step (.run env args) }
  | .command _ c => { m with world := m.world.step c }
  | .networkCreate net name cidr => m.setNet (createNetwork net name cidr "bridge".toList m.net).1
  | .networkRm targets => m.setNet (removeDockerNetwork targets m.net)
  | .reboot boot =>
    { world := ⟨{ boot.host with
        networks := m.world.host.networks, info := m.world.host.info, workspace := m.world.host.workspace }, []⟩
      bridges := boot.bridges }

abbrev Machine.run (m : Machine) (cs : List MachineCommand) : Machine := Runs.run Machine.step m cs

/-- Every command of the run meets the condition in the state it finds. -/
abbrev Machine.Meets (Ok : Machine → MachineCommand → Prop) (m : Machine) (cs : List MachineCommand) : Prop :=
  Runs.Meets Machine.step Ok m cs

/-! ### What the network commands leave alone -/

section NetworkCommands

variable (env : NetEnv) (s : NetHost)

theorem deleteOwnedBridge_only (read delete : NetSite) (name expectedAlias : Text) :
    OnlyWires s.host (deleteOwnedBridge env read delete name expectedAlias s).1.host := by
  rcases deleteOwnedBridge_cases env read delete name expectedAlias s with
    ⟨he, -⟩ | ⟨l, -, ⟨he, -⟩ | ⟨he, -, -⟩⟩
  · rw [he]; exact OnlyWires.refl _
  · rw [he]; exact OnlyWires.refl _
  · rw [he]; exact ⟨_, _, _, rfl⟩

theorem deleteRecord_only (name : Text) : OnlyWires s.host (deleteRecord env name s).1.host := by
  rcases deleteRecord_cases env name s with he | ⟨-, he⟩
  · rw [he]; exact OnlyWires.refl _
  · rw [he]; exact ⟨_, _, _, rfl⟩

theorem finishNetwork_only (record : NetworkRecord) :
    OnlyWires s.host (finishNetwork env record s).1.host := by
  unfold finishNetwork
  split
  · exact deleteOwnedBridge_only ..
  rename_i records _
  have hset : OnlyWires s.host (setNetworks records s).host := ⟨_, _, _, rfl⟩
  have hroll := hset.trans (deleteOwnedBridge_only env (setNetworks records s) .rollbackRead .rollbackDelete
    record.name (networkAlias record.name))
  simp only
  split
  · split
    · rename_i s' he
      rw [show deleteOwnedBridge env _ _ _ _ _ = (s', true) from he] at hroll
      exact hroll.trans (deleteRecord_only env s' record.name)
    · rename_i s' he
      rw [show deleteOwnedBridge env _ _ _ _ _ = (s', false) from he] at hroll
      exact hroll
  · exact hset

theorem createNetwork_only (name cidr driver : Text) :
    OnlyWires s.host (createNetwork env name cidr driver s).1.host := by
  have hadd : OnlyWires s.host (addBridge name s).host := ⟨_, _, _, rfl⟩
  unfold createNetwork
  simp only
  split
  · exact OnlyWires.refl _
  split
  · exact OnlyWires.refl _
  split
  · exact OnlyWires.refl _
  split
  · exact OnlyWires.refl _
  split
  · exact hadd
  split
  · dsimp only
    split
    · exact hadd
    · exact ⟨_, _, _, rfl⟩
  · have hmark : OnlyWires s.host (markedBridge name s).host := ⟨_, _, _, rfl⟩
    exact hmark.trans (finishNetwork_only env _ _)

theorem delteNetwork_only (name : Text) : OnlyWires s.host (delteNetwork env name s).1.host := by
  have hdel := deleteOwnedBridge_only env s .readInterface .deleteBridge name (networkAlias name)
  unfold delteNetwork
  split
  · exact OnlyWires.refl _
  split
  · rename_i s' he
    rw [he] at hdel
    exact hdel
  · rename_i s' he
    rw [he] at hdel
    have hrec := hdel.trans (deleteRecord_only env s' name)
    split
    · rename_i s'' he'
      rw [he'] at hrec
      exact hrec
    · rename_i s'' he'
      rw [he'] at hrec
      exact hrec

theorem removeDockerNetwork_only : ∀ (targets : List (Text × NetEnv)) (s : NetHost),
    OnlyWires s.host (removeDockerNetwork targets s).host
  | [], _ => OnlyWires.refl _
  | (name, env) :: rest, s => (delteNetwork_only env s name).trans (removeDockerNetwork_only rest _)

/-- `init_docker_env` leaves the host as it was, or as `create_network` left it. -/
theorem initDockerEnv_state : (initDockerEnv env s).1 = s ∨ (initDockerEnv env s).1 =
    (createNetwork env TINYDOCKER_DEFAULT_NETWORK_NAME TINYDOCKER_DEFAULT_NETWORK_CIDR "bridge".toList s).1 := by
  have hup : ∀ t : NetHost, (defaultUp env t).1 = t := by
    intro t
    unfold defaultUp
    split <;> rfl
  have hinit : (initDockerEnv env s).1 = (createDefaultBridge env s).1 := by
    unfold initDockerEnv
    split
    · rename_i s' he
      rw [he]
    · rename_i s' _ _ he
      rw [he]
  rw [hinit]
  unfold createDefaultBridge
  split
  · right
    split
    · rename_i s' he
      rw [he, hup]
    · rename_i s' _ _ he
      rw [he]
  · left
    split
    · rfl
    · split
      · rfl
      · exact hup s

theorem initDockerEnv_only : OnlyWires s.host (initDockerEnv env s).1.host := by
  rcases initDockerEnv_state env s with he | he
  · rw [he]
    exact OnlyWires.refl _
  · rw [he]
    exact createNetwork_only env s _ _ _

end NetworkCommands

/-- What a command does to the containers' world: a change of the network, a command, or both. -/
theorem Machine.step_cases (m : Machine) (c : MachineCommand) :
    (∃ boot, c = .reboot boot) ∨ ∃ h, OnlyWires m.world.host h ∧
      ((m.step c).world = { m.world with host := h } ∨
        ∃ net c', c = .command net c' ∧ (m.step c).world = World.step { m.world with host := h } c') := by
  cases c with
  | command net c =>
    have hinit := initDockerEnv_only net m.net
    cases c with
    | run env args =>
      right
      simp only [Machine.step]
      split
      · rename_i s he
        rw [he] at hinit
        exact ⟨s.host, hinit, Or.inl rfl⟩
      · rename_i s he
        rw [he] at hinit
        exact ⟨s.host, hinit, Or.inr ⟨net, _, rfl, rfl⟩⟩
    | _ => exact Or.inr ⟨m.world.host, OnlyWires.refl _, Or.inr ⟨net, _, rfl, rfl⟩⟩
  | networkCreate net name cidr => exact Or.inr ⟨_, createNetwork_only net m.net .., Or.inl rfl⟩
  | networkRm targets => exact Or.inr ⟨_, removeDockerNetwork_only targets m.net, Or.inl rfl⟩
  | reboot boot => exact Or.inl ⟨boot, rfl⟩

/-- No interface of the default name, and none whose other end is one. -/
def NoDefaultLink (h : Host) : Prop :=
  (∀ l ∈ h.links, l.name ≠ TINYDOCKER_DEFAULT_NETWORK_NAME) ∧ NoDefaultPeer h

/-- The default network is not made by hand, and no foreign interface has its name. -/
def MachineCommand.SparesName : MachineCommand → Prop
  | .networkCreate _ name _ => name ≠ TINYDOCKER_DEFAULT_NETWORK_NAME
  | .reboot boot => NoDefaultLink boot.host
  | _ => True

/-- What is there under the default name was made by `create_default_bridge`. -/
structure DefaultOwn (s : NetHost) : Prop where
  records : ∀ r ∈ s.host.networks, r.name = TINYDOCKER_DEFAULT_NETWORK_NAME →
    r.driver = "bridge".toList ∧ r.cidr = TINYDOCKER_DEFAULT_NETWORK_CIDR
  links : ∀ l ∈ s.host.links, l.name = TINYDOCKER_DEFAULT_NETWORK_NAME → l.name ∈ s.bridges
  peers : NoDefaultPeer s.host

section DefaultOwn

variable {s : NetHost}

theorem DefaultOwn.addBridge (ho : DefaultOwn s) (name : Text) : DefaultOwn (addBridge name s) := by
  refine ⟨ho.records, fun l hl hn => ?_, fun l hl => ?_⟩
  · rcases List.mem_append.1 hl with hl | hl
    · exact List.mem_cons_of_mem _ (ho.links l hl hn)
    · rw [List.mem_singleton.1 hl]
      exact List.mem_cons_self
  · rcases List.mem_append.1 hl with hl | hl
    · exact ho.peers l hl
    · rw [List.mem_singleton.1 hl]
      simp

theorem DefaultOwn.markedBridge (ho : DefaultOwn s) (name : Text) : DefaultOwn (markedBridge name s) := by
  have hadd := ho.addBridge name
  refine ⟨hadd.records, fun l hl hn => ?_, fun l hl => ?_⟩
  · obtain ⟨x, hx, rfl⟩ := List.mem_map.1 hl
    by_cases hxn : x.name = name
    · rw [if_pos hxn] at hn ⊢
      exact hadd.links x hx hn
    · rw [if_neg hxn] at hn ⊢
      exact hadd.links x hx hn
  · obtain ⟨x, hx, rfl⟩ := List.mem_map.1 hl
    split <;> exact hadd.peers x hx

theorem DefaultOwn.removeBridge (ho : DefaultOwn s) (name : Text) : DefaultOwn (removeBridge name s) := by
  refine ⟨ho.records, fun l hl hn => ?_, fun l hl => ?_⟩
  · obtain ⟨y, hy, hne, hsame, -⟩ := mem_removeBridge hl
    rw [hsame.1] at hn ⊢
    exact List.mem_filter.2 ⟨ho.links y hy hn, decide_eq_true hne⟩
  · obtain ⟨y, hy, -, -, rfl⟩ := mem_removeBridge hl
    split <;> exact ho.peers y hy

theorem DefaultOwn.withRecords (ho : DefaultOwn s) {records : List NetworkRecord}
    (hr : ∀ r ∈ records, r ∈ s.host.networks ∨ r.name ≠ TINYDOCKER_DEFAULT_NETWORK_NAME ∨
      r = defaultRecord) : DefaultOwn (setNetworks records s) := by
  refine ⟨fun r hmem hn => ?_, ho.links, ho.peers⟩
  rcases hr r hmem with hold | hother | rfl
  · exact ho.records r hold hn
  · exact absurd hn hother
  · exact ⟨rfl, rfl⟩

theorem DefaultOwn.deleteRecord (ho : DefaultOwn s) (env : NetEnv) (name : Text) :
    DefaultOwn (deleteRecord env name s).1 := by
  rcases deleteRecord_cases env name s with he | ⟨-, he⟩
  · rw [he]
    exact ho
  · rw [he]
    exact ho.withRecords fun r hr => Or.inl (List.mem_filter.1 hr).1

theorem DefaultOwn.deleteOwnedBridge (ho : DefaultOwn s) (env : NetEnv) (read delete : NetSite)
    (name expectedAlias : Text) : DefaultOwn (deleteOwnedBridge env read delete name expectedAlias s).1 := by
  rcases deleteOwnedBridge_cases env read delete name expectedAlias s with
    ⟨he, -⟩ | ⟨l, -, ⟨he, -⟩ | ⟨he, -, -⟩⟩
  · rw [he]; exact ho
  · rw [he]; exact ho
  · rw [he]; exact ho.removeBridge name

theorem DefaultOwn.finishNetwork (ho : DefaultOwn s) (env : NetEnv) {record : NetworkRecord}
    (hrec : record.name ≠ TINYDOCKER_DEFAULT_NETWORK_NAME ∨ record = defaultRecord) :
    DefaultOwn (finishNetwork env record s).1 := by
  unfold TinyDocker.finishNetwork
  split
  · exact ho.deleteOwnedBridge ..
  rename_i records hadd
  have hset : DefaultOwn (setNetworks records s) := by
    refine ho.withRecords fun r hr => ?_
    split at hadd
    · cases hadd
    obtain ⟨-, hadd⟩ := loadNetworks_bind.1 hadd
    unfold addNetworkInfo at hadd
    split at hadd
    · cases hadd
    cases hadd
    rcases List.mem_append.1 hr with hr | hr
    · exact Or.inl hr
    · rw [List.mem_singleton.1 hr]
      exact Or.inr hrec
  have hroll : DefaultOwn (rollbackBridge env record.name (setNetworks records s)).1 :=
    hset.deleteOwnedBridge ..
  simp only
  split
  · split
    · rename_i s' he
      rw [he] at hroll
      exact hroll.deleteRecord env record.name
    · rename_i s' he
      rw [he] at hroll
      exact hroll
  · exact hset

theorem DefaultOwn.createNetwork (ho : DefaultOwn s) (env : NetEnv) {name cidr driver : Text}
    (hrec : name ≠ TINYDOCKER_DEFAULT_NETWORK_NAME ∨ (⟨name, driver, cidr, []⟩ : NetworkRecord) = defaultRecord) :
    DefaultOwn (createNetwork env name cidr driver s).1 := by
  unfold TinyDocker.createNetwork
  simp only
  split
  · exact ho
  split
  · exact ho
  split
  · exact ho
  split
  · exact ho
  split
  · exact ho.addBridge name
  split
  · dsimp only
    split
    · exact ho.addBridge name
    · exact (ho.addBridge name).removeBridge name
  · exact (ho.markedBridge name).finishNetwork env hrec

theorem DefaultOwn.delteNetwork (ho : DefaultOwn s) (env : NetEnv) (name : Text) :
    DefaultOwn (delteNetwork env name s).1 := by
  have hdel := ho.deleteOwnedBridge env .readInterface .deleteBridge name (networkAlias name)
  unfold TinyDocker.delteNetwork
  split
  · exact ho
  split
  · rename_i s' he
    rw [he] at hdel
    exact hdel
  · rename_i s' he
    rw [he] at hdel
    have hrec := hdel.deleteRecord env name
    split
    · rename_i s'' he'
      rw [he'] at hrec
      exact hrec
    · rename_i s'' he'
      rw [he'] at hrec
      exact hrec

theorem DefaultOwn.removeDockerNetwork : ∀ (targets : List (Text × NetEnv)) {s : NetHost}, DefaultOwn s →
    DefaultOwn (removeDockerNetwork targets s)
  | [], _, ho => ho
  | (name, env) :: rest, _, ho => DefaultOwn.removeDockerNetwork rest (ho.delteNetwork env name)

theorem DefaultOwn.initDockerEnv (ho : DefaultOwn s) (env : NetEnv) : DefaultOwn (initDockerEnv env s).1 := by
  rcases initDockerEnv_state env s with he | he
  · rw [he]
    exact ho
  · rw [he]
    exact ho.createNetwork env (Or.inr rfl)

/-- Container commands keep it. -/
theorem DefaultOwn.spares {h h' : Host} {bridges : List Text} (ho : DefaultOwn ⟨h, bridges⟩)
    (hs : SparesDefault h h') : DefaultOwn ⟨h', bridges⟩ := by
  obtain ⟨hlinks, hpeers⟩ := hs.links ho.peers
  refine ⟨fun r hr hn => ?_, fun l hl hn => ?_, hpeers⟩
  · have hkey : (r.name, r.driver, r.cidr) ∈ recordKeys h := by
      rw [← hs.keys]
      exact List.mem_map_of_mem (f := fun r : NetworkRecord => (r.name, r.driver, r.cidr)) hr
    obtain ⟨r', hr', he⟩ := List.mem_map.1 hkey
    simp only [Prod.mk.injEq] at he
    rw [← he.2.1, ← he.2.2]
    exact ho.records r' hr' (he.1.trans hn)
  · have hmem : l ∈ defaultLinks h := by
      rw [← hlinks]
      exact List.mem_filter.2 ⟨hl, decide_eq_true hn⟩
    exact ho.links l (List.mem_filter.1 hmem).1 hn

end DefaultOwn

theorem Machine.step_own {m : Machine} (ho : DefaultOwn m.net) {c : MachineCommand} (hc : c.SparesName) :
    DefaultOwn (m.step c).net := by
  have hworld : ∀ c : Command, DefaultOwn (Machine.net { m with world := m.world.step c }) := fun c =>
    DefaultOwn.spares (h := m.world.host) ho (m.world.step_spares c)
  cases c with
  | command net c =>
    cases c with
    | run env args =>
      have hinit := ho.initDockerEnv net
      simp only [Machine.step]
      split
      · rename_i s he
        rw [he] at hinit
        exact hinit
      · rename_i s he
        rw [he] at hinit
        exact DefaultOwn.spares (h := s.host) hinit ((m.setNet s).world.step_spares (.run env args))
    | _ => exact hworld _
  | networkCreate net name cidr => exact ho.createNetwork net (Or.inl hc)
  | networkRm targets => exact DefaultOwn.removeDockerNetwork targets ho
  | reboot boot => exact ⟨ho.records, fun l hl hn => absurd hn (hc.1 l hl), hc.2⟩

/-- The networks file can be loaded, and the record and the bridge of the default network agree: both are
absent and a record fits, or both are there and the interface carries the alias. -/
def DefaultAgrees (s : NetHost) : Prop :=
  DefaultAbsent s ∨ ∃ l, findLink TINYDOCKER_DEFAULT_NETWORK_NAME s.host = some l ∧
    l.ifalias = networkAlias TINYDOCKER_DEFAULT_NETWORK_NAME ∧
    networkInfoExists TINYDOCKER_DEFAULT_NETWORK_NAME s = some true

theorem DefaultOwn.agrees_iff {s : NetHost} (ho : DefaultOwn s) :
    DefaultAgrees s ↔ DefaultAbsent s ∨ DefaultPresent s := by
  refine or_congr_right ⟨?_, ?_⟩
  · rintro ⟨l, hl, ha, hrec⟩
    obtain ⟨hmem, hn⟩ := findLink_some hl
    obtain ⟨r, hread⟩ := Option.isSome_iff_exists.1 (readNetworkInfo_isSome.2 (networkInfoExists_eq_some.1 hrec))
    have hf := (readNetworkInfo_eq_some.1 hread).2
    have hr := ho.records r (List.mem_of_find?_eq_some hf) (of_decide_eq_true (List.find?_some hf :))
    exact ⟨l, r, hl, ho.links l hmem hn, ha, hread, hr.1, hr.2⟩
  · rintro ⟨l, r, hl, -, ha, hread, -, -⟩
    exact ⟨l, hl, ha, networkInfoExists_eq_some.2 (readNetworkInfo_isSome.1 (Option.isSome_iff_exists.2 ⟨r, hread⟩))⟩

/-- **Default bridge recovery.**  In every state that commands, with whatever failures, and reboots can
reach, `create_default_bridge` works and can be repeated if and only if the networks file can be loaded and the
record and the bridge of the default network agree. -/
theorem default_bridge_iff (m : Machine) (cs : List MachineCommand) (hlinks : NoDefaultLink m.world.host)
    (hrecords : NetworkRecorded TINYDOCKER_DEFAULT_NETWORK_NAME m.net = false)
    (hcs : ∀ c ∈ cs, c.SparesName) :
    DefaultBridgeWorks (m.run cs).net ↔ DefaultAgrees (m.run cs).net := by
  have hstart : DefaultOwn m.net := by
    refine ⟨fun r hr hn => ?_, fun l hl hn => absurd hn (hlinks.1 l hl), hlinks.2⟩
    simp only [NetworkRecorded, List.any_eq_false, decide_eq_true_eq] at hrecords
    exact absurd hn (hrecords r hr)
  have hkeep : ∀ (m : Machine) (c : MachineCommand), DefaultOwn m.net → c.SparesName → DefaultOwn (m.step c).net :=
    fun _ _ ho hc => Machine.step_own ho hc
  have hown : DefaultOwn (m.run cs).net := Runs.run_of_mem (I := fun m : Machine => DefaultOwn m.net) hkeep hstart hcs
  rw [defaultBridgeWorks_iff, hown.agrees_iff]

/-- A fresh host with one interface. -/
def Machine.fresh : Machine := ⟨⟨NetHost.uplink.host, []⟩, []⟩

theorem fresh_noDefault : NoDefaultLink NetHost.uplink.host := by
  refine ⟨fun l hl => ?_, fun l hl => ?_⟩
  all_goals
    have hl : l = ⟨"eth0".toList, 1, [], none, none⟩ := List.mem_singleton.1 hl
    rw [hl]
    decide

/-- The first `docker run` makes the default network. -/
def firstRun : List MachineCommand := [.command (fun _ => false) (.run (.quiet [] 20) (shellArgs "web001".toList true))]

theorem first_run_repeats :
    DefaultAgrees (Machine.fresh.run firstRun).net ∧ DefaultBridgeWorks (Machine.fresh.run firstRun).net := by
  have hagree : DefaultAgrees (Machine.fresh.run firstRun).net := Or.inr ⟨_, rfl, rfl, by decide +kernel⟩
  exact ⟨hagree, (default_bridge_iff Machine.fresh firstRun fresh_noDefault rfl
    (fun c hc => by rw [List.mem_singleton.1 hc]; trivial)).2 hagree⟩

/-- After a reboot the record is there and the bridge is not: `create_default_bridge` fails for good. -/
theorem reboot_breaks_default_bridge :
    (∀ c ∈ firstRun ++ [.reboot NetHost.uplink], c.SparesName) ∧
      NoDefaultLink Machine.fresh.world.host ∧
      NetworkRecorded TINYDOCKER_DEFAULT_NETWORK_NAME Machine.fresh.net = false ∧
      (createDefaultBridge (fun _ => false) (Machine.fresh.run (firstRun ++ [.reboot NetHost.uplink])).net).2 = -1 ∧
      ¬ DefaultBridgeWorks (Machine.fresh.run (firstRun ++ [.reboot NetHost.uplink])).net := by
  have hfail : (createDefaultBridge (fun _ => false)
      (Machine.fresh.run (firstRun ++ [.reboot NetHost.uplink])).net).2 = -1 := by decide +kernel
  refine ⟨fun c hc => ?_, fresh_noDefault, rfl, hfail, fun hw => ?_⟩
  · simp only [firstRun, List.cons_append, List.nil_append, List.mem_cons, List.not_mem_nil, or_false] at hc
    rcases hc with rfl | rfl
    · trivial
    · exact fresh_noDefault
  · have hzero := hw.1
    rw [hfail] at hzero
    cases hzero

/-- A CIDR with a line break: the record that is written cannot be loaded, and the default bridge cannot be made. -/
example : (createNetwork (fun _ => false) "lan".toList "10.0.0.0/\n24".toList "bridge".toList NetHost.uplink).2 = 0 ∧
    (createDefaultBridge (fun _ => false) (createNetwork (fun _ => false) "lan".toList "10.0.0.0/\n24".toList
      "bridge".toList NetHost.uplink).1).2 = -1 := by
  decide +kernel

end TinyDocker
