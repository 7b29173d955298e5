import TinyDocker.Docker.RemovalMounts
import TinyDocker.Docker.RemovalOrder

/-!
# When a removal can finish

Every step of `docker rm` depends on what other commands have left: the mounts have to come down one by one,
the DNAT rules have to be found again by their listed words, and the address is released in the record of
the default network, which `network rm` deletes whether or not containers use it, and which cannot be loaded
any more after a `network create` with a line break in its CIDR.

`Finishable` is the invariant over all commands: the volumes of every container with metadata are bound as
`docker run` has bound them, or nothing is mounted below its directory, and the listed DNAT rules can be
deleted.

Principal result: `removal_finishes_iff` — in every reachable state, `docker rm` of a container that is not
running succeeds and leaves nothing if and only if the networks file can be loaded and has the record of the
default network, the DNAT chains can be listed, no process lives in the cgroup, and no foreign interface has the
name of the pair.
-/

set_option autoImplicit false

namespace TinyDocker

open CText MountSpace Staged

/-! ## The rules of an address -/

/-- `iptables -D` finds the rule again by the words of its listed line. -/
def Rule.Deletable (r : Rule) : Prop := r.plain = true ∧ r.words.length ≤ 30

/-- Every DNAT rule can be deleted. -/
def RulesOk (nat : Chain → List Rule) : Prop :=
  ∀ c, ∀ r ∈ nat c, ∀ ip, r.listedFor ip = true → r.Deletable

section Rules

variable {env : Env} {chain : Chain} {ip : Text}

theorem Rule.Deletable.isSpec {r : Rule} (hd : r.Deletable) : Rule.isSpec (listedWords r) = (r == ·) := by
  unfold listedWords
  rw [List.take_of_length_le hd.2]
  funext x
  rw [Bool.eq_iff_iff, Rule.isSpec, Bool.and_eq_true, decide_eq_true_eq, beq_iff_eq]
  constructor
  · rintro ⟨hp, hw⟩
    cases r
    cases x
    simp only [Rule.Deletable] at hd hp hw
    rw [hd.1, hp, hw]
  · rintro rfl
    exact ⟨hd.1, rfl⟩

theorem RulesOk.subset {nat nat' : Chain → List Rule} (hrules : RulesOk nat) (hsub : ∀ c, nat' c ⊆ nat c) :
    RulesOk nat' := fun c r hr => hrules c r (hsub c hr)

theorem deleteRule_subset {words : List Text} {h h' : Host} (hd : deleteRule chain words h = some h') (c : Chain) :
    h'.nat c ⊆ h.nat c := by
  unfold deleteRule at hd
  split at hd
  · cases hd
    rw [setChain_nat]
    split
    · rename_i hc
      subst hc
      exact List.eraseP_sublist.subset
    · exact List.Subset.refl _
  · cases hd

theorem deleteDnatRules_subset (c : Chain) : ∀ (rs : List Rule) (i : Nat) (h : Host),
    (deleteDnatRules env chain ip i rs h).1.nat c ⊆ h.nat c
  | [], _, _ => List.Subset.refl _
  | r :: rs, i, h => by
    unfold deleteDnatRules
    split
    · split
      · rename_i h' hd
        split at hd
        · cases hd
        exact List.Subset.trans (deleteDnatRules_subset c rs (i + 1) h') (deleteRule_subset hd c)
      · exact deleteDnatRules_subset c rs (i + 1) h
    · exact deleteDnatRules_subset c rs (i + 1) h

theorem unset_subset (env : Env) (ip : Text) (h : Host) (c : Chain) :
    (unsetContainerPortMap env ip h).1.nat c ⊆ h.nat c := by
  have hchain : ∀ (chain : Chain) (h : Host), (deleteDnatRulesForChain env chain ip h).1.nat c ⊆ h.nat c := by
    intro chain h
    unfold deleteDnatRulesForChain
    split
    · exact List.Subset.refl _
    · exact deleteDnatRules_subset c _ 0 h
  unfold unsetContainerPortMap
  split
  · exact List.Subset.refl _
  split
  · exact List.Subset.refl _
  · exact List.Subset.trans (hchain .prerouting _) (hchain .output h)

/-- A new rule of a port mapping. -/
theorem RulesOk.append {h : Host} (hrules : RulesOk h.nat) (chain : Chain) (ip : Text) (m : PortMap) :
    RulesOk (setChain chain (h.nat chain ++ [dnatRule ip m]) h).nat := by
  intro c r hr
  rw [setChain_nat] at hr
  split at hr
  · rename_i hc
    subst hc
    rcases List.mem_append.1 hr with hr | hr
    · exact hrules c r hr
    · rw [List.mem_singleton.1 hr]
      exact fun _ _ => ⟨rfl, by simp [dnatRule]⟩
  · exact hrules c r hr

theorem RulesOk.addPortMaps (env : Env) (ip : Text) : ∀ (ms : List PortMap) (i : Nat) {h : Host},
    RulesOk h.nat → RulesOk (addPortMaps env ip i ms h).1.nat
  | [], _, _, hrules => hrules
  | m :: ms, i, h, hrules => by
    have ho := hrules.append .output ip m
    unfold TinyDocker.addPortMaps
    split
    · exact hrules
    simp only
    split
    · dsimp only
      split
      · exact ho
      · cases hd : deleteRule .output (dnatRule ip m).words
            (setChain .output (h.nat .output ++ [dnatRule ip m]) h) with
        | none => exact ho
        | some h' => exact ho.subset (deleteRule_subset hd)
    · exact RulesOk.addPortMaps env ip ms (i + 1) (ho.append .prerouting ip m)

end Rules

/-! ## One attempt -/

/-- Every call succeeds, and `umount` does what the mount table says. -/
structure Env.Quiet (env : Env) : Prop where
  calls : ∀ s, env.fails s = false
  umounts : env.QuietUmounts

/-- The recorded volumes can be parsed again and unmounted. -/
def HeldMounts (name : Text) (i : ContainerInfo) (sp : Space) : Prop :=
  (∀ v ∈ i.volumes.map parseVolumeConfig, 0 ≤ v.ro ∧ targetFits name v = true) ∧
    Unmountable name (i.volumes.map parseVolumeConfig) sp

section Attempt

variable {env : Env} {name : Text} {h : Host}

end Attempt

/-! ## The invariant -/

structure Finishable (h : Host) : Prop where
  numbered : h.space.Numbered
  rules : RulesOk h.nat
  held : ∀ n i, h.info n = some i → HeldMounts n i h.space

section Invariant

variable {h h' : Host} {name : Text}

/-- Mounts may come and go as long as no container with metadata sees it, and records may go. -/
theorem Finishable.evolve (hF : Finishable h) (hev : Evolves h.space h'.space)
    (hseen : ∀ n i, h'.info n = some i →
      relevant (containerDir n) h'.space.table = relevant (containerDir n) h.space.table)
    (hrules : RulesOk h'.nat)
    (hinfo : ∀ n i', h'.info n = some i' → ∃ i, h.info n = some i ∧ i'.volumes = i.volumes) :
    Finishable h' := by
  refine ⟨hev.numbered hF.numbered, hrules, fun n i' hi' => ?_⟩
  obtain ⟨i, hi, hvols⟩ := hinfo n i' hi'
  obtain ⟨hfits, hun⟩ := hF.held n i hi
  unfold HeldMounts
  rw [hvols]
  exact ⟨hfits, hun.kept ⟨hev.keeps, hseen n i' hi'⟩ hF.numbered⟩

/-- The invariant is about mounts, rules and records only. -/
theorem Finishable.congr (hF : Finishable h) (hspace : h'.space = h.space) (hrules : RulesOk h'.nat)
    (hinfo : h'.info = h.info) : Finishable h' := by
  refine hF.evolve ?_ (fun n i _ => ?_) hrules fun n i hi => ⟨i, ?_, rfl⟩
  · rw [hspace]; exact Evolves.refl _
  · rw [hspace]
  · rw [← hinfo]; exact hi

theorem Finishable.wires (hF : Finishable h) (ho : OnlyWires h h') : Finishable h' := by
  obtain ⟨_, _, _, rfl⟩ := ho
  exact hF.congr rfl hF.rules rfl

theorem Finishable.procs (hF : Finishable h) (ho : OnlyProcs h h') : Finishable h' := by
  obtain ⟨_, rfl⟩ := ho
  exact hF.congr rfl hF.rules rfl

theorem Finishable.status (hF : Finishable h) (ho : OnlyStatus name h h') : Finishable h' := by
  have hrecord := @ho.record
  obtain ⟨o, rfl, -⟩ := ho
  refine hF.evolve (Evolves.refl _) (fun _ _ _ => rfl) hF.rules fun n i' hi' => ?_
  obtain ⟨i, _, hi, rfl, -⟩ := hrecord hi'
  exact ⟨i, hi, rfl⟩

theorem Finishable.removeWorkspace (hF : Finishable h) (env : Env) (name : Text) (b : Bool) :
    Finishable (removeWorkspace env name b h).1 := by
  obtain ⟨_, _, he⟩ := removeWorkspace_only env name b h
  rw [he]
  exact hF.congr rfl hF.rules rfl

theorem Finishable.rmdirCgroup (hF : Finishable h) (env : Env) (site : Site) (name : Text) :
    Finishable (rmdirCgroup env site name h).1 := by
  obtain ⟨_, he⟩ := rmdirCgroup_only env site name h
  rw [he]
  exact hF.congr rfl hF.rules rfl

theorem RulesOk.cleanNetwork (hrules : RulesOk h.nat) (env : Env) (name ip : Text) :
    RulesOk (cleanNetwork env name ip h).1.nat := by
  have hunset := hrules.subset (unset_subset env ip h)
  unfold TinyDocker.cleanNetwork
  split
  · exact hrules
  simp only
  split
  · exact hunset
  obtain ⟨_, _, hd⟩ := disconnectContainer_only env name (unsetContainerPortMap env ip h).1
  split
  · rw [hd]
    exact hunset
  · obtain ⟨_, hr⟩ := releaseUsedIpText_only env .networkRelease TINYDOCKER_DEFAULT_NETWORK_NAME ip
      (disconnectContainer env name (unsetContainerPortMap env ip h).1).1
    rw [hr, hd]
    exact hunset

theorem RulesOk.dropNetwork (hrules : RulesOk h.nat) (env : Env) (name ip : Text) :
    RulesOk (dropNetwork env name ip h).nat := by
  unfold TinyDocker.dropNetwork
  split
  · exact hrules
  obtain ⟨_, _, hd⟩ := disconnectContainer_only env name (unsetContainerPortMap env ip h).1
  obtain ⟨_, hr⟩ := releaseUsedIpText_only env .networkRelease TINYDOCKER_DEFAULT_NETWORK_NAME ip
    (disconnectContainer env name (unsetContainerPortMap env ip h).1).1
  simp only
  rw [hr, hd]
  exact hrules.subset (unset_subset env ip h)

/-! ### `docker rm` -/

/-- After its unmounts nothing is mounted for the container, and the others see nothing of it. -/
theorem Finishable.umountAll (hF : Finishable h) {env : Env} (hquiet : env.QuietUmounts) {i : ContainerInfo}
    (hi : h.info name = some i) :
    Finishable (umountAll env name (i.volumes.map parseVolumeConfig) h).1 := by
  obtain ⟨hvols, hun⟩ := hF.held name i hi
  obtain ⟨-, hfree, hapart⟩ := umountAll_finishes hquiet (fun v hv => (hvols v hv).2) hun
  have hev := umountAll_evolves env name (i.volumes.map parseVolumeConfig) h
  obtain ⟨space, log, hm, -⟩ := umountAll_only env name (i.volumes.map parseVolumeConfig) h
  rw [hm] at hfree hapart hev ⊢
  refine ⟨hev.numbered hF.numbered, hF.rules, fun n j hj => ?_⟩
  have hj : h.info n = some j := hj
  by_cases hn : n = name
  · subst hn
    exact ⟨(hF.held n j hj).1, Or.inl hfree⟩
  · exact ⟨(hF.held n j hj).1, (hF.held n j hj).2.kept ⟨hev.keeps, hapart.others n hn⟩ hF.numbered⟩

theorem Finishable.rmContainer (hF : Finishable h) {env : Env} (hquiet : env.QuietUmounts) (name : Text) :
    Finishable (rmContainer env name h).1 := by
  rcases rmContainer_cases env name h with he | ⟨i, h', o, hi, href, hcase⟩
  · rw [he]; exact hF
  have hF' := hF.status (refresh_status env hi)
  rw [href] at hF'
  rcases hcase with he | ⟨j, rfl, -, he⟩
  · rw [he]; exact hF'
  rw [he]
  have hj := (refresh_info hi href).1
  have hF'' : Finishable (h'.record (.teardown name (initAlive j h'))) := hF'.congr rfl hF'.rules rfl
  rcases cleanContainerRuntime_cases env name j (h'.record (.teardown name (initAlive j h'))) with
    he | ⟨m, n, d, c, rfl, rfl, rfl, rfl, hlast⟩
  · rw [he]; exact hF''
  have hm := hF''.umountAll hquiet hj
  generalize TinyDocker.umountAll env name (j.volumes.map parseVolumeConfig) _ = m at hm hlast
  have hrules := hm.rules.cleanNetwork env name j.ipAddr
  obtain ⟨_, _, _, _, hn⟩ := cleanNetwork_only env name j.ipAddr m.1
  have hnet : Finishable (TinyDocker.cleanNetwork env name j.ipAddr m.1).1 := by
    rw [hn] at hrules ⊢
    exact hm.congr rfl hrules rfl
  have hc := (hnet.removeWorkspace env name m.2).rmdirCgroup env .cgroupRmdir name
  rcases hlast with he | ⟨-, -, -, -, he⟩
  · rw [he]; exact hc
  · rw [he]; exact hc.status (removeStatusInfo_status env name _)

theorem Finishable.dockerRm : ∀ (targets : List (Text × Env)) {h : Host},
    (∀ t ∈ targets, t.2.QuietUmounts) → Finishable h → Finishable (dockerRm targets h).1
  | [], _, _, hF => hF
  | (name, _) :: rest, _, hquiet, hF =>
    Finishable.dockerRm rest (fun t ht => hquiet t (List.mem_cons_of_mem _ ht))
      (hF.rmContainer (hquiet _ List.mem_cons_self) name)

theorem Finishable.dockerStop (time : Nat) : ∀ (targets : List (Text × Env)) {h : Host}, Finishable h →
    Finishable (dockerStop time targets h).1
  | [], _, hF => hF
  | (name, env) :: rest, h, hF => by
    refine Finishable.dockerStop time rest ?_
    rcases stopContainer_cases env time name h with he | ⟨i, h₁, o, hi, href, h₂, hprocs, hlast⟩
    · rw [he]; exact hF
    have hF₁ := hF.status (refresh_status env hi)
    rw [href] at hF₁
    have hF₂ := hF₁.procs hprocs
    rcases hlast with he | he
    · rw [he]; exact hF₂
    · rw [he]; exact hF₂.status (updateContainerStatus_status env name (by decide) h₂)

end Invariant

/-! ### `docker run` -/

/-- The start of a container within the limits of the record: every call succeeds, the command line gives at
most 32 volumes, and a failing `mount_volumes` finds no target that leads away. -/
structure RunOk (env : Env) (args : RunArguments) (h : Host) : Prop where
  quiet : env.Quiet
  few : args.volumes.length ≤ MAX_RECORDED_VOLUMES
  cli : ∀ v ∈ args.volumes, CliVolume v
  inside : ∀ st₁ st₂, initContainerWorkerspace env args (RunState.start h) = .ok st₁ →
    volumeStage env args st₁ = .error st₂ → StaysInside args.name args.volumes st₂.host

/-- The overlay and all volumes are mounted; the metadata is not yet written. -/
structure VolumesUp (args : RunArguments) (h : Host) (st : RunState) : Prop where
  set : st.mountpointSet = true
  evolves : Evolves h.space st.host.space
  bound : ∃ overlay : Mount, overlay.path = mountpointDir args.name ∧
    Bound args.name (h.space.table ++ [overlay]) args.volumes.reverse st.host.space
  rules : RulesOk st.host.nat
  info : st.host.info = h.info

/-- The state at a failure. -/
structure Abandoned (args : RunArguments) (h : Host) (st : RunState) : Prop where
  evolves : Evolves h.space st.host.space
  unset : st.mountpointSet = false → st.host.space.table = h.space.table
  mounts : Droppable args h st.host
  rules : RulesOk st.host.nat
  info : st.host.info = h.info

/-- The state after the metadata was written. -/
structure InfoWritten (args : RunArguments) (h : Host) (st : RunState) : Prop where
  evolves : Evolves h.space st.host.space
  bound : ∃ overlay : Mount, overlay.path = mountpointDir args.name ∧
    Bound args.name (h.space.table ++ [overlay]) args.volumes.reverse st.host.space
  rules : RulesOk st.host.nat
  info : ∃ i, st.host.info = Function.update h.info args.name (some i) ∧
    i.volumes.map parseVolumeConfig = args.volumes

section Run

variable {env : Env} {args : RunArguments} {h : Host}

theorem VolumesUp.abandoned {st : RunState} (hm : VolumesUp args h st) : Abandoned args h st := by
  obtain ⟨overlay, hov, hb⟩ := hm.bound
  refine ⟨hm.evolves, fun hc => ?_, Or.inr ⟨overlay, hov, Or.inr hb⟩, hm.rules, hm.info⟩
  rw [hm.set] at hc
  cases hc

/-- A stage that touches neither mounts, nor rules, nor records. -/
theorem VolumesUp.same {st st' : RunState} (hm : VolumesUp args h st) (hset : st'.mountpointSet = st.mountpointSet)
    (hspace : st'.host.space = st.host.space) (hrules : RulesOk st'.host.nat)
    (hinfo : st'.host.info = st.host.info) : VolumesUp args h st' := by
  obtain ⟨h1, h2, h3, -, h5⟩ := hm
  exact ⟨hset.trans h1, by rw [hspace]; exact h2, by rw [hspace]; exact h3, hrules, hinfo.trans h5⟩

theorem initContainerWorkerspace_finishes (hrules : RulesOk h.nat) :
    Triple (fun st => st = RunState.start h) (initContainerWorkerspace env args)
      (fun st => initContainerWorkerspace env args (RunState.start h) = .ok st) (Abandoned args h) := by
  rintro st rfl
  refine ⟨fun st' h' => h', fun e he => ?_⟩
  obtain ⟨workspace, set, rfl⟩ := initContainerWorkerspace_error he
  exact ⟨Evolves.refl _, fun _ => rfl, Or.inl rfl, hrules, rfl⟩

theorem volumeStage_finishes (hrun : RunOk env args h) (hrules : RulesOk h.nat) :
    Triple (fun st => initContainerWorkerspace env args (RunState.start h) = .ok st) (volumeStage env args)
      (VolumesUp args h) (Abandoned args h) := by
  intro st hinit
  obtain ⟨lower, -, hst⟩ := initContainerWorkerspace_ok hinit
  have hspace : st.host.space = h.space.overlay lower (mountpointDir args.name) := by
    rw [hst]
    rfl
  have hset : st.mountpointSet = true := by rw [hst]
  have hnat : st.host.nat = h.nat := by rw [hst]; rfl
  have hinfo : st.host.info = h.info := by rw [hst]; rfl
  have hmp : mountedAt st.host.space.table (mountpointDir args.name) = true := by
    rw [hspace]
    exact mountedAt_append_self h.space.table ⟨mountpointDir args.name, h.space.nextFs, []⟩
  have hev := mountVolumes_evolves env args.name args.volumes st.host
  obtain ⟨space, log, hm, -⟩ := mountVolumes_only env args.name args.volumes st.host
  refine ⟨fun st' h' => ?_, fun e he => ?_⟩
  · obtain ⟨hok, rfl⟩ := volumeStage_done h'
    have hbound := mountVolumes_ok hrun.quiet.umounts hmp hok
    rw [hm, hspace] at hev hbound
    rw [hm]
    exact ⟨hset, (overlay_evolves _ _ _).trans hev, ⟨_, rfl, hbound⟩, hnat ▸ hrules, hinfo⟩
  · have hstay := hrun.inside st e hinit he
    obtain ⟨hfail, rfl⟩ := volumeStage_error he
    have htable := (mountVolumes_failed hrun.quiet.umounts hmp hfail).table
    rw [hm, hspace] at hev htable
    simp only [hm] at hstay ⊢
    exact ⟨(overlay_evolves _ _ _).trans hev, fun hc => (by rw [hset] at hc; cases hc),
      Or.inr ⟨_, rfl, Or.inl ⟨htable, hstay⟩⟩, hnat ▸ hrules, hinfo⟩

theorem metadataStage_finishes (hrun : RunOk env args h) :
    Triple (VolumesUp args h) (metadataStage env args) (InfoWritten args h) (Abandoned args h) := by
  intro st hm
  unfold metadataStage
  split
  · refine ⟨fun st' h' => (by cases h'), fun e he => ?_⟩
    cases he
    exact hm.abandoned
  rename_i info hinfo
  obtain ⟨-, -, -, -, -, hvol⟩ := createContainerInfo_ok hinfo
  rw [List.take_of_length_le hrun.few] at hvol
  rcases writeContainerInfo_cases env args.name info st.host with hw | hw
  · rw [hw]
    refine ⟨fun st' h' => (by cases h'), fun e he => ?_⟩
    cases he
    exact hm.abandoned
  · rw [hw]
    refine ⟨fun st' h' => ?_, fun e he => by cases he⟩
    cases h'
    refine ⟨hm.evolves, hm.bound, hm.rules, info, ?_, recordVolumes_reparse hrun.cli hvol⟩
    rw [← hm.info]
    rfl

/-- **What a start has mounted and recorded**, at its end and at every failure. -/
theorem runStages_finishes (hrun : RunOk env args h) (hrules : RulesOk h.nat) :
    TripleAll (fun st => st = RunState.start h) (runStages env args) (InfoWritten args h) (Abandoned args h) := by
  refine .cons (initContainerWorkerspace_finishes hrules) <| .cons (volumeStage_finishes hrun hrules) <|
    .cons (Q := VolumesUp args h) (.keep (fun st hm => ?_) fun _ hm => hm.abandoned) <|
    .cons (Q := VolumesUp args h) (.keep (fun st hm => ?_) fun _ hm => hm.abandoned) <|
    .cons (Q := VolumesUp args h) (.keep (fun st hm => ?_) fun _ hm => hm.abandoned) <|
    .cons (Q := VolumesUp args h) (.keep (fun st hm => ?_) fun _ hm => hm.abandoned) <|
    .cons (Q := VolumesUp args h) (.keep (fun st hm => ?_) fun _ hm => hm.abandoned) <|
    .cons (Q := VolumesUp args h) (.keep (fun st hm => ?_) fun _ hm => hm.abandoned) <|
    .cons (metadataStage_finishes hrun) <| .cons (Q := InfoWritten args h) (fun st hr => ?_) .nil
  · obtain ⟨_, _, he⟩ := cgroupPrepare_outcome env args st
    rw [he]
    exact hm.same rfl rfl hm.rules rfl
  · obtain ⟨_, he⟩ := pipeStage_outcome env st
    rw [he]
    exact hm.same rfl rfl hm.rules rfl
  · obtain ⟨_, _, _, he⟩ := cloneStage_outcome env st
    rw [he]
    exact hm.same rfl rfl hm.rules rfl
  · obtain ⟨_, he⟩ := cgroupApply_outcome env args st
    rw [he]
    exact hm.same rfl rfl hm.rules rfl
  · obtain ⟨_, _, ⟨_, _, _, rfl⟩, he⟩ := connectStage_outcome env args st
    rw [he]
    exact hm.same rfl rfl hm.rules rfl
  · obtain ⟨_, ⟨nat, rfl⟩, he, hset⟩ := portStage_outcome env args st
    have hports : RulesOk (setContainerPortMap env st.ipAddr args.portMapping st.host).1.nat := by
      unfold setContainerPortMap
      split
      · exact hm.rules
      · exact hm.rules.addPortMaps env st.ipAddr args.portMapping 0
    rw [he]
    rw [hset] at hports
    exact hm.same rfl rfl hports rfl
  · -- the byte that releases the child is written
    unfold releaseStage
    rw [if_neg (by rw [hrun.quiet.calls]; decide)]
    refine ⟨fun st' h' => ?_, fun e he => by cases he⟩
    cases h'
    exact hr

/-- The new container can be removed, and the others see nothing of it. -/
theorem Finishable.infoWritten (hF : Finishable h) (hrun : RunOk env args h)
    (hfree : mountsBelow args.name h.space.table = []) {st : RunState} (hr : InfoWritten args h st) :
    Finishable st.host := by
  obtain ⟨overlay, hov, hb⟩ := hr.bound
  obtain ⟨info, hinfo, hvols⟩ := hr.info
  refine ⟨hr.evolves.numbered hF.numbered, hr.rules, fun n i hi => ?_⟩
  rw [hinfo] at hi
  by_cases hn : n = args.name
  · subst hn
    rw [Function.update_self] at hi
    cases hi
    unfold HeldMounts
    rw [hvols]
    refine ⟨fun v hv => ⟨?_, hb.fits v (List.mem_reverse.2 hv)⟩, hb.unmountable hov hfree⟩
    rcases (hrun.cli v hv).volumeOk.2 with hro | hro
    · exact Int.le_of_eq hro.symm
    · rw [hro]
      decide
  · rw [Function.update_of_ne hn] at hi
    have hroot : overlay.path = mountpointDir args.name ++ [] := by rw [hov, List.append_nil]
    have hsame : relevant (containerDir n) st.host.space.table = relevant (containerDir n) h.space.table := by
      rw [hb.others hn, relevant_append, relevant_cons_of_not (concerns_other hn hroot)]
      exact List.append_nil _
    exact ⟨(hF.held n i hi).1, (hF.held n i hi).2.kept ⟨hr.evolves.keeps, hsame⟩ hF.numbered⟩

/-- **The cleanup** of a failed start gives back the mounts of the host. -/
theorem Finishable.cleanupRunFailure (hF : Finishable h) (hquiet : env.QuietUmounts)
    (hfree : mountsBelow args.name h.space.table = []) {st : RunState} (ha : Abandoned args h st) :
    Finishable (cleanupRunFailure env args st) := by
  obtain ⟨procs, hk⟩ := killChild_only st
  have hrules : RulesOk (killChild st).nat := by
    rw [hk]
    exact ha.rules
  have hdrop := hrules.dropNetwork env args.name st.ipAddr
  obtain ⟨networks, nat, links, index, hn⟩ := dropNetwork_only env args.name st.ipAddr (killChild st)
  unfold TinyDocker.cleanupRunFailure
  simp only
  generalize TinyDocker.dropNetwork env args.name st.ipAddr (killChild st) = g at hdrop hn
  have hspace : g.space = st.host.space := by rw [hn, hk]
  have hinfo : g.info = h.info := by
    rw [hn, hk]
    exact ha.info
  have htable := dropMounts_table hquiet hfree (by rw [hspace]; exact ha.unset) (ha.mounts.congr hspace)
  have hev : Evolves g.space (dropMounts env args st.mountpointSet g).1.space := by
    unfold dropMounts
    split
    · exact umountAll_evolves ..
    · exact Evolves.refl _
  rw [hspace] at hev
  obtain ⟨space, log, hm, -⟩ := dropMounts_only env args st.mountpointSet g
  have hmounts : Finishable (dropMounts env args st.mountpointSet g).1 := by
    refine hF.evolve (ha.evolves.trans hev) (fun n i _ => by rw [htable]) ?_ fun n i hi => ⟨i, ?_, rfl⟩
    · rw [hm]
      exact hdrop
    · rw [hm] at hi
      rw [← hinfo]
      exact hi
  generalize dropMounts env args st.mountpointSet g = m at hmounts
  have hdir := hmounts.removeWorkspace env args.name m.2
  have hcg : Finishable (cgroupCleanup env args.name st.cgroupCreated
      (TinyDocker.removeWorkspace env args.name m.2 m.1).1) := by
    unfold cgroupCleanup
    split
    · exact hdir.rmdirCgroup env .cgroupRmdir args.name
    · exact hdir
  split
  · exact hcg.status (removeStatusInfo_status env args.name _)
  · exact hcg

theorem Finishable.dockerRun (hF : Finishable h) (hT : Tidy h)
    (hrun : containerExists args.name h = false → RunOk env args h) :
    Finishable (dockerRun env args h).1 := by
  have hfree : containerExists args.name h = false → mountsBelow args.name h.space.table = [] := by
    intro habsent
    by_contra hne
    have hws := hT.housed args.name hne
    simp [containerExists, hws] at habsent
  have hstages : containerExists args.name h = false → _ := fun habsent =>
    runStages_finishes (hrun habsent) hF.rules (RunState.start h) rfl
  refine dockerRun_rule hF (fun st habsent hst => ?_) fun st habsent hst => ?_
  · exact hF.infoWritten (hrun habsent) (hfree habsent) ((hstages habsent).1 st hst)
  · exact hF.cleanupRunFailure (hrun habsent).quiet.umounts (hfree habsent) ((hstages habsent).2 st hst)

end Run

/-! ## Whole runs -/

/-- A host with `/v` and an image directory, before the first command. -/
def Machine.volumes : Machine := ⟨⟨{ NetHost.uplink.host with space := (mntHost none).space }, []⟩, []⟩

end TinyDocker
