import TinyDocker.Docker.NetworkRollback
import TinyDocker.Docker.UnmountFrame

/-!
# What a failed start leaves behind

About twenty failure exits of `docker_run` share `cleanup_run_failure`, which infers from a few local
variables what was acquired.  `Held` states what these variables say about the host at every
exit, and the lemmas of `NetworkRollback` and `VolumeRollback` say that the cleanup undoes it.

Principal result: `startup_rollback_iff` — if every cleanup call succeeds or finds nothing to do, a
failed start leaves no trace if and only if it did not fail at the lookup of the index of its new
interface, and the targets of all volumes fit the path buffer once the mountpoint was set.
-/

set_option autoImplicit false

namespace TinyDocker

open CText MountSpace Staged

/-! ## Cgroups -/

/-- `cgroup.created` says whether the cgroup of the container is there. -/
def CgroupTracked (args : RunArguments) (h : Host) (st : RunState) : Prop :=
  st.host.cgroups = if st.cgroupCreated then args.name :: h.cgroups else h.cgroups

theorem cgroupPrepare_tracked {env : Env} {args : RunArguments} {h : Host} :
    Triple (fun st => st.host.cgroups = h.cgroups ∧ st.cgroupCreated = false) (cgroupPrepare env args)
      (CgroupTracked args h) (CgroupTracked args h) := by
  intro st ⟨hcg, hcreated⟩
  have hsame : CgroupTracked args h st := by
    unfold CgroupTracked
    rw [hcg, hcreated]
    rfl
  refine ⟨fun st' h' => ?_, fun e he => ?_⟩
  · unfold cgroupPrepare at h'
    split at h'
    · cases h'
    simp only at h'
    split at h'
    · cases h'
    · cases h'
      show args.name :: st.host.cgroups = args.name :: h.cgroups
      rw [hcg]
  · unfold cgroupPrepare at he
    split at he
    · cases he; exact hsame
    simp only at he
    split at he
    · -- the limits could not be set: the rollback removes the directory or reports that it did not
      unfold rmdirCgroup at he
      rw [if_neg (by simp)] at he
      split at he
      · cases he
        show args.name :: st.host.cgroups = args.name :: h.cgroups
        rw [hcg]
      · cases he
        show (args.name :: st.host.cgroups).erase args.name = h.cgroups
        rw [List.erase_cons_head, hcg]
    · cases he

theorem runStages_cgroups {env : Env} {args : RunArguments} {h : Host} :
    TripleAll (fun st => st.host.cgroups = h.cgroups ∧ st.cgroupCreated = false) (runStages env args)
      (CgroupTracked args h) (CgroupTracked args h) := by
  have hweak : ∀ st : RunState, st.host.cgroups = h.cgroups ∧ st.cgroupCreated = false →
      CgroupTracked args h st := by
    intro st ⟨hcg, hcreated⟩
    unfold CgroupTracked
    rw [hcg, hcreated]
    rfl
  refine .cons (Q := fun st => st.host.cgroups = h.cgroups ∧ st.cgroupCreated = false)
      (.keep (fun st hs => ?_) hweak) <|
    .cons (Q := fun st => st.host.cgroups = h.cgroups ∧ st.cgroupCreated = false)
      (.keep (fun st hs => ?_) hweak) <|
    .cons cgroupPrepare_tracked <|
    .cons (Q := CgroupTracked args h) (.keep (fun st hs => ?_) fun _ hs => hs) <|
    .cons (Q := CgroupTracked args h) (.keep (fun st hs => ?_) fun _ hs => hs) <|
    .cons (Q := CgroupTracked args h) (.keep (fun st hs => ?_) fun _ hs => hs) <|
    .cons (Q := CgroupTracked args h) (.keep (fun st hs => ?_) fun _ hs => hs) <|
    .cons (Q := CgroupTracked args h) (.keep (fun st hs => ?_) fun _ hs => hs) <|
    .cons (Q := CgroupTracked args h) (.keep (fun st hs => ?_) fun _ hs => hs) <|
    .cons (Q := CgroupTracked args h) (.keep (fun st hs => ?_) fun _ hs => hs) .nil
  · obtain ⟨_, _, _, he⟩ := initContainerWorkerspace_outcome env args st
    rw [he]
    exact hs
  · obtain ⟨_, ⟨_, _, rfl, -⟩, he⟩ := volumeStage_outcome env args st
    rw [he]
    exact hs
  · obtain ⟨_, he⟩ := pipeStage_outcome env st
    rw [he]
    exact hs
  · obtain ⟨_, _, _, he⟩ := cloneStage_outcome env st
    rw [he]
    exact hs
  · obtain ⟨_, he⟩ := cgroupApply_outcome env args st
    rw [he]
    exact hs
  · obtain ⟨_, _, ⟨_, _, _, rfl⟩, he⟩ := connectStage_outcome env args st
    rw [he]
    exact hs
  · obtain ⟨_, ⟨_, rfl⟩, he, -⟩ := portStage_outcome env args st
    rw [he]
    exact hs
  · obtain ⟨_, ⟨_, rfl⟩, he⟩ := metadataStage_outcome env args st
    rw [he]
    exact hs
  · obtain ⟨_, he⟩ := releaseStage_outcome env st
    rw [he]
    exact hs

/-! ## The state at a failure -/

/-- The cleanup calls succeed; `umount` does what the mount table says. -/
structure Env.CleansUp (env : Env) : Prop where
  umounts : env.QuietUmounts
  calls : ∀ site, site.isCleanup = true → env.fails site = false

/-- The hosts a start is considered on: the name is not in use, no rule points to a free address, and
the image has no link on the path of a volume. -/
structure FreshStart (env : Env) (args : RunArguments) (h : Host) : Prop where
  absent : containerExists args.name h = false
  unmounted : mountsBelow args.name h.space.table = []
  homes : Homes h
  store : StoreOk h.networks
  noRule : ∀ a, a ∉ usedIps h → ∀ c, NoneFor a (h.nat c)
  noLink : ∀ lower, env.readonlyDir = some lower → ∀ v ∈ args.volumes,
    NoLinks (h.space.overlay lower (mountpointDir args.name)) (mountpointDir args.name) v.path

/-- The steps of `init_container_workerspace` up to the upper directory succeed; the mountpoint is set
after them. -/
def UpperMade (env : Env) : Prop :=
  env.fails .layerAlloc = false ∧ env.readonlyDir ≠ none ∧ env.fails .makeContainerDir = false ∧
    env.fails .makeUpper = false

/-- What is mounted once the mountpoint is set: nothing yet, only the overlay after a failed
`mount_volumes`, or the overlay and all volumes. -/
def MountsAt (args : RunArguments) (h : Host) (sp : Space) : Prop :=
  sp.table = h.space.table ∨ ∃ overlay : Mount, overlay.path = mountpointDir args.name ∧
    ((sp.table = h.space.table ++ [overlay] ∧
        ∀ v ∈ args.volumes, NoLinks sp (mountpointDir args.name) v.path) ∨
      Bound args.name (h.space.table ++ [overlay]) args.volumes.reverse sp)

structure FilesAt (env : Env) (args : RunArguments) (h : Host) (st : RunState) : Prop where
  set : st.mountpointSet = true ↔ UpperMade env
  unset : st.mountpointSet = false → st.host.space.table = h.space.table
  made : st.mountpointSet = true → st.host.workspace args.name = true
  mounts : MountsAt args h st.host.space
  log : h.log <+: st.host.log

/-- `child_pid` says whether there is a child. -/
def ChildAt (env : Env) (h : Host) (st : RunState) : Prop :=
  (st.childPid = none ∧ st.host.procs = h.procs) ∨
    (st.childPid = some env.pid ∧ (∀ p ∈ h.procs, p.pid ≠ env.pid) ∧
      ∃ c : Proc, c.pid = env.pid ∧ st.host.procs = h.procs ++ [c])

/-- What every stage keeps of mounts, files and processes. -/
structure Held (env : Env) (args : RunArguments) (h : Host) (st : RunState) : Prop where
  files : FilesAt env args h st
  child : ChildAt env h st

/-- Nothing of the network was touched. -/
def Offline (h : Host) (st : RunState) : Prop :=
  st.ipAddr = [] ∧ st.host.networks = h.networks ∧ st.host.nat = h.nat ∧ st.host.links = h.links

/-- The container has an address and its pair; only rules of its own were added. -/
def Online (args : RunArguments) (h : Host) (st : RunState) : Prop :=
  ∃ a, st.ipAddr = Ipv4.inetNtop a ∧
    allocNewIp TINYDOCKER_DEFAULT_NETWORK_NAME h.networks = some (st.host.networks, a) ∧
    (∀ c, ∃ own, Added a own ∧ st.host.nat c = h.nat c ++ own) ∧
    Attached args.name h.links st.host.links

/-- The address was released again, and the new pair was left behind. -/
def Leaked (h : Host) (st : RunState) : Prop := st.ipAddr = [] ∧ st.host.links ≠ h.links

section Start

variable {env : Env} {args : RunArguments} {h : Host}

/-- A stage that touches none of these. -/
theorem FilesAt.same {st st' : RunState} (hf : FilesAt env args h st)
    (hset : st'.mountpointSet = st.mountpointSet) (hspace : st'.host.space = st.host.space)
    (hworkspace : st'.host.workspace = st.host.workspace) (hlog : st'.host.log = st.host.log) :
    FilesAt env args h st' := by
  obtain ⟨h1, h2, h3, h4, h5⟩ := hf
  constructor <;> simp only [hset, hspace, hworkspace, hlog] <;> assumption

theorem ChildAt.killed {st : RunState} (hc : ChildAt env h st) :
    killChild st = { st.host with procs := h.procs } := by
  unfold killChild
  rcases hc with ⟨hnone, hprocs⟩ | ⟨hsome, hfree, c, hpid, hprocs⟩
  · rw [hnone, ← hprocs]
  · rw [hsome]
    simp only
    rw [hprocs, List.filter_append, List.filter_eq_self.2 fun p hp => decide_eq_true (hfree p hp)]
    simp [hpid]

theorem ChildAt.joined {st : RunState} (hc : ChildAt env h st) (name : Text)
    (hpid : st.childPid = some env.pid) :
    ChildAt env h { st with host := joinCgroup env.pid name st.host } := by
  rcases hc with ⟨hnone, -⟩ | ⟨hsome, hfree, c, hcpid, hprocs⟩
  · rw [hnone] at hpid; cases hpid
  · refine Or.inr ⟨hsome, hfree, { c with cgroup := some name }, hcpid, ?_⟩
    have hothers : h.procs.map (fun p => if p.pid = env.pid then { p with cgroup := some name } else p) =
        h.procs := by
      calc h.procs.map (fun p => if p.pid = env.pid then { p with cgroup := some name } else p)
          = h.procs.map id := List.map_congr_left fun p hp => if_neg (hfree p hp)
        _ = h.procs := List.map_id _
    simp only [joinCgroup, hprocs, List.map_append, hothers, List.map_cons, List.map_nil, hcpid, if_true]

/-! ## Up to the network stage -/

/-- The stages before `connect_container`, and those after it. -/
def startStages (env : Env) (args : RunArguments) : List (Stage RunState) :=
  [initContainerWorkerspace env args, volumeStage env args, cgroupPrepare env args, pipeStage env,
    cloneStage env, cgroupApply env args]

def finishStages (env : Env) (args : RunArguments) : List (Stage RunState) :=
  [portStage env args, metadataStage env args, releaseStage env]

theorem runStages_eq (env : Env) (args : RunArguments) :
    runStages env args = startStages env args ++ connectStage env args :: finishStages env args := rfl

/-- The state between the stages before `connect_container`, and at a failure there. -/
structure Starting (env : Env) (args : RunArguments) (h : Host) (st : RunState) : Prop where
  held : Held env args h st
  offline : Offline h st

/-- Before there is a child. -/
structure Childless (env : Env) (args : RunArguments) (h : Host) (st : RunState) : Prop where
  files : FilesAt env args h st
  child : st.childPid = none ∧ st.host.procs = h.procs
  offline : Offline h st

theorem Childless.starting {st : RunState} (hc : Childless env args h st) : Starting env args h st :=
  ⟨⟨hc.files, Or.inl hc.child⟩, hc.offline⟩

/-- After `init_container_workerspace`. -/
structure Overlaid (env : Env) (args : RunArguments) (h : Host) (st : RunState) : Prop where
  upper : UpperMade env
  set : st.mountpointSet = true
  made : st.host.workspace args.name = true
  space : ∃ lower, env.readonlyDir = some lower ∧
    st.host.space = h.space.overlay lower (mountpointDir args.name)
  log : st.host.log = h.log
  child : st.childPid = none ∧ st.host.procs = h.procs
  offline : Offline h st

theorem initContainerWorkerspace_starting :
    Triple (fun st => st = RunState.start h) (initContainerWorkerspace env args)
      (Overlaid env args h) (Starting env args h) := by
  rintro st rfl
  have hbase : ∀ workspace set, (set = true ↔ UpperMade env) →
      (set = true → workspace args.name = true) →
      Starting env args h { RunState.start h with
        host := { h with workspace := workspace }, mountpointSet := set } :=
    fun _ _ hset hmade => ⟨⟨⟨hset, fun _ => rfl, hmade, Or.inl rfl, List.prefix_refl _⟩,
      Or.inl ⟨rfl, rfl⟩⟩, rfl, rfl, rfl, rfl⟩
  have hearly : ∀ workspace, ¬ UpperMade env → Starting env args h { RunState.start h with
      host := { h with workspace := workspace }, mountpointSet := false } :=
    fun w hno => hbase w false ⟨fun hc => (by cases hc), fun hu => absurd hu hno⟩ fun hc => by cases hc
  refine ⟨fun st' h' => ?_, fun e he => ?_⟩
  · unfold initContainerWorkerspace at h'
    split at h'
    · cases h'
    rename_i hlayer
    split at h'
    · cases h'
    rename_i lower hlower
    split at h'
    · cases h'
    rename_i hdir
    simp only at h'
    split at h'
    · cases h'
    rename_i hupper
    split at h'
    · cases h'
    · cases h'
      refine ⟨⟨by simpa using hlayer, by simp [hlower], by simpa using hdir, by simpa using hupper⟩, rfl,
        Function.update_self .., ⟨lower, hlower, rfl⟩, rfl, ⟨rfl, rfl⟩, rfl, rfl, rfl, rfl⟩
  · unfold initContainerWorkerspace at he
    split at he
    · rename_i hlayer
      cases he
      exact hearly h.workspace fun hu => by rw [hu.1] at hlayer; cases hlayer
    rename_i hlayer
    split at he
    · rename_i hnone
      cases he
      exact hearly h.workspace fun hu => hu.2.1 hnone
    rename_i lower hlower
    split at he
    · rename_i hdir
      cases he
      exact hearly h.workspace fun hu => by rw [hu.2.2.1] at hdir; cases hdir
    rename_i hdir
    simp only at he
    split at he
    · rename_i hupper
      cases he
      exact hearly _ fun hu => by rw [hu.2.2.2] at hupper; cases hupper
    rename_i hupper
    split at he
    · cases he
      refine hbase _ true ⟨fun _ => ?_, fun _ => rfl⟩ fun _ => Function.update_self ..
      exact ⟨by simpa using hlayer, by simp [hlower], by simpa using hdir, by simpa using hupper⟩
    · cases he

/-- Mounting leaves the rest alone. -/
theorem Overlaid.mounted {st : RunState} (ho : Overlaid env args h st) {g : Host}
    (honly : OnlyMounts st.host g) (hmounts : MountsAt args h g.space) :
    Childless env args h { st with host := g } := by
  obtain ⟨_, extra, rfl, -⟩ := honly
  exact ⟨⟨⟨fun _ => ho.upper, fun _ => ho.set⟩, fun hc => (by rw [ho.set] at hc; cases hc),
    fun _ => ho.made, hmounts, ⟨extra, by rw [ho.log]⟩⟩, ho.child, ho.offline⟩

theorem volumeStage_starting (hclean : env.CleansUp) (hfresh : FreshStart env args h) :
    Triple (Overlaid env args h) (volumeStage env args) (Childless env args h) (Starting env args h) := by
  intro st ho
  obtain ⟨lower, hlower, hspace⟩ := ho.space
  have htable : st.host.space.table =
      h.space.table ++ [⟨mountpointDir args.name, h.space.nextFs, []⟩] := by rw [hspace]; rfl
  have hmp : mountedAt st.host.space.table (mountpointDir args.name) = true := by
    rw [htable]
    exact mountedAt_append_self h.space.table ⟨mountpointDir args.name, h.space.nextFs, []⟩
  have honly := mountVolumes_only env args.name args.volumes st.host
  refine ⟨fun st' h' => ?_, fun e he => ?_⟩
  · obtain ⟨hok, rfl⟩ := volumeStage_done h'
    have hbound := mountVolumes_ok hclean.umounts hmp hok
    rw [htable] at hbound
    exact ho.mounted honly (Or.inr ⟨_, rfl, Or.inr hbound⟩)
  · obtain ⟨hfail, rfl⟩ := volumeStage_error he
    have hgrow := mountVolumes_failed hclean.umounts hmp hfail
    refine (ho.mounted honly (Or.inr ⟨_, rfl, Or.inl ⟨hgrow.table.trans htable, fun v hv => ?_⟩⟩)).starting
    refine hgrow.noLinks ?_
    rw [hspace]
    exact hfresh.noLink lower hlower v hv

theorem cgroupPrepare_starting :
    Triple (Childless env args h) (cgroupPrepare env args) (Childless env args h)
      (Starting env args h) := by
  refine .keep (fun st hc => ?_) fun _ hc => hc.starting
  obtain ⟨_, _, he⟩ := cgroupPrepare_outcome env args st
  rw [he]
  exact ⟨hc.files.same rfl rfl rfl rfl, hc.child, hc.offline⟩

theorem pipeStage_starting :
    Triple (Childless env args h) (pipeStage env) (Childless env args h) (Starting env args h) := by
  refine .keep (fun st hc => ?_) fun _ hc => hc.starting
  obtain ⟨_, he⟩ := pipeStage_outcome env st
  rw [he]
  exact ⟨hc.files.same rfl rfl rfl rfl, hc.child, hc.offline⟩

theorem cloneStage_starting :
    Triple (Childless env args h) (cloneStage env)
      (fun st => Starting env args h st ∧ st.childPid = some env.pid) (Starting env args h) := by
  intro st hc
  refine ⟨fun st' h' => ?_, fun e he => ?_⟩
  · unfold cloneStage at h'
    split at h'
    · cases h'
    rename_i hok
    simp only [not_or, Bool.not_eq_true] at hok
    have hfree := pid_free hok.2.2
    rw [hc.child.2] at hfree
    cases h'
    refine ⟨⟨⟨hc.files.same rfl rfl rfl rfl,
      Or.inr ⟨rfl, hfree, ⟨env.pid, st.host.clock, none, false⟩, rfl, ?_⟩⟩, hc.offline⟩, rfl⟩
    show st.host.procs ++ [_] = _
    rw [hc.child.2]
  · unfold cloneStage at he
    split at he
    · cases he; exact hc.starting
    · cases he

theorem cgroupApply_starting :
    Triple (fun st => Starting env args h st ∧ st.childPid = some env.pid) (cgroupApply env args)
      (Starting env args h) (Starting env args h) := by
  intro st ⟨hs, hpid⟩
  refine ⟨fun st' h' => ?_, fun e he => ?_⟩
  · unfold cgroupApply at h'
    split at h'
    · cases h'
    · cases h'
      exact ⟨⟨hs.held.files.same rfl rfl rfl rfl, hs.held.child.joined args.name hpid⟩, hs.offline⟩
  · unfold cgroupApply at he
    split at he
    · cases he; exact hs
    · cases he

theorem startStages_starting (hclean : env.CleansUp) (hfresh : FreshStart env args h) :
    TripleAll (fun st => st = RunState.start h) (startStages env args) (Starting env args h)
      (Starting env args h) :=
  .cons initContainerWorkerspace_starting <| .cons (volumeStage_starting hclean hfresh) <|
    .cons cgroupPrepare_starting <| .cons pipeStage_starting <| .cons cloneStage_starting <|
    .cons cgroupApply_starting .nil

/-! ## The network stage and those after it -/

/-- `connect_container` reaches the lookup of the index of its new interface, and that fails. -/
def LookupFails (env : Env) (name : Text) (h : Host) : Prop :=
  (allocNewIpText env TINYDOCKER_DEFAULT_NETWORK_NAME h).isSome = true ∧ PairAdded env name h ∧
    env.fails .vethIndex = true

theorem Held.net {st : RunState} (hh : Held env args h st) {g : Host} (honly : OnlyNet st.host g)
    (ip : Text) : Held env args h { st with host := g, ipAddr := ip } := by
  obtain ⟨_, _, _, _, rfl⟩ := honly
  exact ⟨hh.files.same rfl rfl rfl rfl, hh.child⟩

/-- **The network stage**: connected, or as before, or the pair is left behind. -/
theorem connectStage_starting (hclean : env.CleansUp) (hfresh : FreshStart env args h) {st : RunState}
    (hs : Starting env args h st) :
    (∀ st', connectStage env args st = .ok st' →
      Held env args h st' ∧ Online args h st' ∧ ¬ LookupFails env args.name st.host) ∧
    ∀ e, connectStage env args st = .error e → Held env args h e ∧
      ((Offline h e ∧ ¬ LookupFails env args.name st.host) ∨
        (Leaked h e ∧ LookupFails env args.name st.host)) := by
  obtain ⟨hip, hnetworks, hnat, hlinks⟩ := hs.offline
  have honly := (connectContainer_only env args.name TINYDOCKER_DEFAULT_NETWORK_NAME st.host).net
  rcases connectContainer_cases env args.name TINYDOCKER_DEFAULT_NETWORK_NAME st.host with
    ⟨hnone, he⟩ | ⟨records, a, h₂, ok, hsome, ha, hat, he⟩
  · refine ⟨fun st' h' => ?_, fun e h' => ?_⟩
    · simp only [connectStage, he] at h'
      cases h'
    · simp only [connectStage, he] at h'
      cases h'
      refine ⟨⟨hs.held.files.same rfl rfl rfl rfl, hs.held.child⟩, Or.inl ⟨hs.offline, fun hc => ?_⟩⟩
      have hsome := hc.1
      rw [hnone] at hsome
      cases hsome
  have hattach := attachContainer_links (hclean.calls .vethRollback rfl) (hclean.calls .aliasRead rfl)
    args.name TINYDOCKER_DEFAULT_NETWORK_NAME { st.host with networks := records }
  obtain ⟨links, index, hl⟩ := attachContainer_only env args.name TINYDOCKER_DEFAULT_NETWORK_NAME
    { st.host with networks := records }
  rw [hat] at hl hattach
  have hl : h₂ = { st.host with networks := records, links := links, nextIndex := index } := hl
  subst hl
  rw [hnetworks] at ha
  -- the address is released again, so only the interfaces can differ
  have hrelease : releaseUsedIpText env .connectRelease TINYDOCKER_DEFAULT_NETWORK_NAME (Ipv4.inetNtop a)
      { st.host with networks := records, links := links, nextIndex := index } =
      ({ st.host with networks := h.networks, links := links, nextIndex := index }, true) :=
    releaseUsedIpText_alloc (hclean.calls .connectRelease rfl) hfresh.store ha
  rw [he] at honly
  cases ok with
  | true =>
    rcases hattach with ⟨-, hup, hno⟩ | ⟨hc, -⟩ | ⟨hc, -⟩
    · refine ⟨fun st' h' => ?_, fun e h' => ?_⟩
      · simp only [connectStage, he, if_true] at h'
        cases h'
        refine ⟨hs.held.net honly _, ⟨a, rfl, ha, fun c => ⟨[], fun r hr => (by cases hr), ?_⟩, ?_⟩,
          fun hc => hno ⟨hc.2.1, hc.2.2⟩⟩
        · show st.host.nat c = h.nat c ++ []
          rw [hnat, List.append_nil]
        · rw [← hlinks]
          exact hup
      · simp only [connectStage, he, if_true] at h'
        cases h'
    · cases hc
    · cases hc
  | false =>
    refine ⟨fun st' h' => ?_, fun e h' => ?_⟩
    · simp only [connectStage, he, Bool.false_eq_true, if_false] at h'
      cases h'
    · simp only [connectStage, he, Bool.false_eq_true, if_false, hrelease] at h'
      cases h'
      simp only [Bool.false_eq_true, if_false, hrelease] at honly
      refine ⟨hs.held.net honly _, ?_⟩
      rcases hattach with ⟨hc, -⟩ | ⟨-, hsame, hno⟩ | ⟨-, hdiff, hadded, hidx⟩
      · cases hc
      · exact Or.inl ⟨⟨hip, rfl, hnat, hsame.trans hlinks⟩, fun hc => hno ⟨hc.2.1, hc.2.2⟩⟩
      · exact Or.inr ⟨⟨hip, fun hc => hdiff (hc.trans hlinks.symm)⟩, hsome, hadded, hidx⟩

/-- Once connected, a start stays so up to its end. -/
theorem finishStages_online (hfresh : FreshStart env args h) :
    TripleAll (fun st => Held env args h st ∧ Online args h st) (finishStages env args)
      (fun st => Held env args h st ∧ Online args h st)
      (fun st => Held env args h st ∧ Online args h st) := by
  refine .cons (.keep (fun st hs => ?_) fun _ hs => hs) <|
    .cons (.keep (fun st hs => ?_) fun _ hs => hs) <| .cons (.keep (fun st hs => ?_) fun _ hs => hs) .nil
  · obtain ⟨hh, a, hip, ha, hadd, hup⟩ := hs
    have hn : ∀ c, NoneFor a (h.nat c) := hfresh.noRule a (allocNewIp_ok hfresh.store ha).2.1
    have hmaps : ∀ c, ∃ own, Added a own ∧
        (setContainerPortMap env st.ipAddr args.portMapping st.host).1.nat c = h.nat c ++ own := by
      rw [hip]
      unfold setContainerPortMap
      split
      · exact hadd
      · exact addPortMaps_added args.portMapping 0 (fun c m => (hn c).not_isSpec m) hadd
    obtain ⟨_, ⟨nat, rfl⟩, he, hg⟩ := portStage_outcome env args st
    rw [he]
    rw [hg] at hmaps
    exact ⟨⟨hh.files.same rfl rfl rfl rfl, hh.child⟩, a, hip, ha, hmaps, hup⟩
  · obtain ⟨g, ⟨_, rfl⟩, he⟩ := metadataStage_outcome env args st
    rw [he]
    exact ⟨⟨hs.1.files.same rfl rfl rfl rfl, hs.1.child⟩, hs.2⟩
  · obtain ⟨_, he⟩ := releaseStage_outcome env st
    rw [he]
    exact ⟨⟨hs.1.files.same rfl rfl rfl rfl, hs.1.child⟩, hs.2⟩

/-- The start gets as far as the lookup of the index of its new interface, and that fails. -/
def LookupFailed (env : Env) (args : RunArguments) (h : Host) : Prop :=
  ∃ st, runAll (startStages env args) (RunState.start h) = .ok st ∧ LookupFails env args.name st.host

/-- **What the local variables say at a failure.** -/
theorem runStages_failed (hclean : env.CleansUp) (hfresh : FreshStart env args h) {st : RunState}
    (hfail : runAll (runStages env args) (RunState.start h) = .error st) :
    Held env args h st ∧ (((Offline h st ∨ Online args h st) ∧ ¬ LookupFailed env args h) ∨
      (Leaked h st ∧ LookupFailed env args h)) := by
  have hstart := startStages_starting hclean hfresh _ rfl
  rw [runStages_eq, runAll_append] at hfail
  cases hrun : runAll (startStages env args) (RunState.start h) with
  | error e =>
    rw [hrun] at hfail
    cases hfail
    have hs := hstart.2 st hrun
    refine ⟨hs.held, Or.inl ⟨Or.inl hs.offline, fun ⟨st', hst', _⟩ => ?_⟩⟩
    rw [hrun] at hst'
    cases hst'
  | ok st₁ =>
    rw [hrun] at hfail
    have hlookup : LookupFailed env args h ↔ LookupFails env args.name st₁.host := by
      refine ⟨fun ⟨st', hst', hl⟩ => ?_, fun hl => ⟨st₁, hrun, hl⟩⟩
      rw [hrun] at hst'
      cases hst'
      exact hl
    obtain ⟨hok, herr⟩ := connectStage_starting hclean hfresh (hstart.1 st₁ hrun)
    rw [hlookup]
    simp only [runAll] at hfail
    cases hconnect : connectStage env args st₁ with
    | error e =>
      rw [hconnect] at hfail
      cases hfail
      obtain ⟨hheld, ⟨hoff, hno⟩ | hleaked⟩ := herr st hconnect
      · exact ⟨hheld, Or.inl ⟨Or.inl hoff, hno⟩⟩
      · exact ⟨hheld, Or.inr hleaked⟩
    | ok st₂ =>
      rw [hconnect] at hfail
      obtain ⟨hheld, hon, hno⟩ := hok st₂ hconnect
      obtain ⟨hheld', hon'⟩ := (finishStages_online hfresh st₂ ⟨hheld, hon⟩).2 st hfail
      exact ⟨hheld', Or.inl ⟨Or.inr hon', hno⟩⟩

/-! ## The cleanup -/

/-- The listings of the cleanup are captured: they are asked for once there is an address. -/
def ListingsFit (env : Env) (st : RunState) : Prop :=
  st.ipAddr ≠ [] → ∀ c, ¬ listingFails env c (st.host.nat c)

theorem dropNetwork_restores (hclean : env.CleansUp) (hfresh : FreshStart env args h) {st : RunState}
    (hnet : Offline h st ∨ Online args h st) (hlist : ListingsFit env st) :
    dropNetwork env args.name st.ipAddr { st.host with procs := h.procs } =
      { st.host with procs := h.procs, networks := h.networks, nat := h.nat, links := h.links } := by
  unfold dropNetwork
  rcases hnet with ⟨hip, hnetworks, hnat, hlinks⟩ | ⟨a, hip, ha, hadd, hup⟩
  · rw [if_pos hip, ← hnetworks, ← hnat, ← hlinks]
  · have hne : st.ipAddr ≠ [] := hip ▸ Ipv4.inetNtop_ne_nil a
    have hunset : unsetContainerPortMap env (Ipv4.inetNtop a) { st.host with procs := h.procs } =
        ({ st.host with procs := h.procs, nat := h.nat }, true) :=
      unset_own (hlist hne) (fun c i => hclean.calls (.natDelete c i) rfl)
        (hfresh.noRule a (allocNewIp_ok hfresh.store ha).2.1) hadd
    have hdisconnect : disconnectContainer env args.name { st.host with procs := h.procs, nat := h.nat } =
        ({ st.host with procs := h.procs, nat := h.nat, links := h.links }, true) :=
      disconnectContainer_pair hup (hclean.calls .aliasRead rfl) (hclean.calls .vethDelete rfl)
    have hrelease : releaseUsedIpText env .networkRelease TINYDOCKER_DEFAULT_NETWORK_NAME (Ipv4.inetNtop a)
        { st.host with procs := h.procs, nat := h.nat, links := h.links } =
        ({ st.host with procs := h.procs, networks := h.networks, nat := h.nat, links := h.links }, true) :=
      releaseUsedIpText_alloc (hclean.calls .networkRelease rfl) hfresh.store ha
    rw [hip, if_neg (Ipv4.inetNtop_ne_nil a)]
    simp only [hunset, hdisconnect, hrelease]

theorem umountEach_unmounted (hquiet : env.QuietUmounts) (site : Nat → Site) {name : Text} :
    ∀ (vs : List VolumeConfig) (i : Nat) {g : Host}, mountsBelow name g.space.table = [] →
      (umountEach env site name i vs g).1.space = g.space
  | [], _, _, _ => rfl
  | v :: vs, i, g, hfree => by
    have ih := umountEach_unmounted hquiet site vs (i + 1) hfree
    unfold umountEach
    simp only
    rw [umountTarget_unmounted hquiet (site i) v (by rw [ih]; exact hfree), ih]

/-- Without links no target leads away from the overlay. -/
theorem staysInside_of_noLinks {name : Text} {vs : List VolumeConfig} {outer : List Mount}
    {overlay : Mount} {g : Host} (hov : overlay.path = mountpointDir name)
    (htable : g.space.table = outer ++ [overlay])
    (hno : ∀ v ∈ vs, NoLinks g.space (mountpointDir name) v.path) : StaysInside name vs g := by
  have hmp : mountedAt g.space.table (mountpointDir name) = true := by
    rw [htable, ← hov]
    exact mountedAt_append_self outer overlay
  rintro front v back rfl - ⟨hfit, q, table, hq, hne, hu⟩
  unfold resolveTarget at hq
  rw [if_pos hmp] at hq
  have hplain := plainNames_of_fits hfit
  have hlinks := hno v (by simp)
  rcases @walk_noLinks g.space MAXSYMLINKS _ _ hplain hlinks with hw | hw | hw
  · have hq' : q = mountpointDir name ++ v.path := Except.ok.inj (hq.symm.trans hw)
    rw [htable, umountAt_append_below (by rw [hov, hq']; exact List.prefix_append _ _)
      (by rw [hov]; exact fun he => hne he.symm)] at hu
    cases hu
  · exact absurd (hq.symm.trans hw) (by simp)
  · exact absurd (hq.symm.trans hw) (by simp)

/-- What is mounted can be dropped: nothing yet, only the overlay and no target leads away from it, or the
overlay and all volumes. -/
def Droppable (args : RunArguments) (h g : Host) : Prop :=
  g.space.table = h.space.table ∨ ∃ overlay : Mount, overlay.path = mountpointDir args.name ∧
    ((g.space.table = h.space.table ++ [overlay] ∧ StaysInside args.name args.volumes g) ∨
      Bound args.name (h.space.table ++ [overlay]) args.volumes.reverse g.space)

theorem Droppable.congr {g g' : Host} (hd : Droppable args h g) (he : g'.space = g.space) :
    Droppable args h g' := by
  unfold Droppable
  rw [he]
  rcases hd with htable | ⟨overlay, hov, ⟨htable, hstay⟩ | hbound⟩
  · exact Or.inl htable
  · exact Or.inr ⟨overlay, hov, Or.inl ⟨htable, hstay.congr he⟩⟩
  · exact Or.inr ⟨overlay, hov, Or.inr hbound⟩

theorem MountsAt.droppable {g : Host} (hm : MountsAt args h g.space) : Droppable args h g := by
  rcases hm with htable | ⟨overlay, hov, ⟨htable, hno⟩ | hbound⟩
  · exact Or.inl htable
  · exact Or.inr ⟨overlay, hov, Or.inl ⟨htable, staysInside_of_noLinks hov htable hno⟩⟩
  · exact Or.inr ⟨overlay, hov, Or.inr hbound⟩

/-- **The unmounts of the cleanup give back the mount table of the host.** -/
theorem dropMounts_table (hquiet : env.QuietUmounts) (hfree : mountsBelow args.name h.space.table = [])
    {set : Bool} {g : Host} (hunset : set = false → g.space.table = h.space.table)
    (hmounts : Droppable args h g) :
    (dropMounts env args set g).1.space.table = h.space.table := by
  unfold dropMounts
  split
  · rcases hmounts with htable | ⟨overlay, hov, ⟨htable, hstay⟩ | hbound⟩
    · -- the overlay was never mounted
      have hfree' : mountsBelow args.name g.space.table = [] := by rw [htable]; exact hfree
      have hvols := umountEach_unmounted hquiet .volumeUmount args.volumes 0 hfree'
      unfold umountAll umountVolumes
      simp only
      generalize umountEach env .volumeUmount args.name 0 args.volumes g = v at hvols
      have heinval : umountAt v.1.space.table (mountpointDir args.name) = .error .EINVAL := by
        rw [hvols]
        exact (no_mount_at_mountpoint hfree').1
      simp only [umount, umountResolved, hquiet .rootUmount, heinval]
      show v.1.space.table = _
      rw [hvols, htable]
    · exact umountAll_outer hquiet hfree hov htable hstay
    · have hmp : mountedAt (h.space.table ++ [overlay]) (mountpointDir args.name) = true := by
        rw [← hov]
        exact mountedAt_append_self h.space.table overlay
      obtain ⟨hvols, -⟩ := @umountEach_bound env .volumeUmount (fun i => hquiet _) args.name _ hmp
        args.volumes g hbound
      unfold umountAll umountVolumes
      simp only
      generalize umountEach env .volumeUmount args.name 0 args.volumes g = v at hvols
      have hpop : umountAt v.1.space.table (mountpointDir args.name) = .ok h.space.table := by
        rw [hvols, ← hov]
        exact umountAt_append_self h.space.table overlay
      simp only [umount, umountResolved, hquiet .rootUmount, hpop]
      rfl
  · rename_i hset
    exact hunset (Bool.eq_false_iff.2 hset)

/-- The call succeeded, or it reported that there is nothing to undo. -/
def Call.undone : Call → Bool
  | .umount _ (some e) => decide (e = .EINVAL ∨ e = .ENOENT)
  | _ => true

/-- What was logged after `base`. -/
def Undone (base log : List Call) : Prop := ∀ c ∈ log.drop base.length, c.undone = true

theorem Undone.of_isPrefix {base log log' : List Call} (hu : Undone base log') (hp : log <+: log') :
    Undone base log := by
  obtain ⟨t, rfl⟩ := hp
  refine fun c hc => hu c ?_
  rw [List.drop_append]
  exact List.mem_append_left _ hc

theorem OnlyMounts.log {g g' : Host} (hm : OnlyMounts g g') : g.log <+: g'.log := by
  obtain ⟨_, extra, rfl, -⟩ := hm
  exact ⟨extra, rfl⟩

theorem umount_undone {base : List Call} {site : Site} {target : Except Errno Path} {g : Host}
    (hb : base <+: g.log) (hu : Undone base (umount env site target g).1.log) :
    (umount env site target g).2 = true := by
  obtain ⟨t, ht⟩ := hb
  unfold umount at hu ⊢
  split
  · rfl
  · rename_i e he
    rw [he] at hu
    refine hu (.umount site (some e)) ?_
    simp [Host.record, ← ht]

/-- The flag of the loop: no target was refused. -/
theorem umountEach_flag {base : List Call} {site : Nat → Site} {name : Text} :
    ∀ (vs : List VolumeConfig) (i : Nat) {g : Host}, base <+: g.log →
      Undone base (umountEach env site name i vs g).1.log →
      ((umountEach env site name i vs g).2 = true ↔ ∀ v ∈ vs, targetFits name v = true)
  | [], _, _, _, _ => by simp [umountEach]
  | v :: vs, i, g, hb, hu => by
    have hlater := umountEach_only env site name vs (i + 1) g
    have hthis := umountTarget_only env (site i) name v (umountEach env site name (i + 1) vs g).1
    have ih := umountEach_flag vs (i + 1) hb (hu.of_isPrefix hthis.log)
    have hflag : (umountTarget env (site i) name v (umountEach env site name (i + 1) vs g).1).2 = true ↔
        targetFits name v = true := by
      have hu : Undone base
          (umountTarget env (site i) name v (umountEach env site name (i + 1) vs g).1).1.log := hu
      unfold umountTarget at hu ⊢
      split
      · rename_i hfit
        rw [if_pos hfit] at hu
        exact ⟨fun _ => hfit, fun _ => umount_undone (hb.trans hlater.log) hu⟩
      · rename_i hfit
        exact ⟨fun hc => (by cases hc), fun hc => absurd hc hfit⟩
    unfold umountEach
    simp only [Bool.and_eq_true, List.forall_mem_cons]
    rw [ih, hflag, and_comm]

theorem dropMounts_flag {base : List Call} {set : Bool} {g : Host} (hb : base <+: g.log)
    (hu : Undone base (dropMounts env args set g).1.log) :
    (dropMounts env args set g).2 = true ↔
      (set = true → ∀ v ∈ args.volumes, targetFits args.name v = true) := by
  unfold dropMounts at hu ⊢
  split
  · rename_i hset
    rw [if_pos hset] at hu
    have hvols := umountEach_only env .volumeUmount args.name args.volumes 0 g
    have hroot := umount_only env .rootUmount (.ok (mountpointDir args.name))
      (umountVolumes env args.name args.volumes g).1
    have hflag := umountEach_flag args.volumes 0 hb (hu.of_isPrefix hroot.log)
    have hpop : (umount env .rootUmount (.ok (mountpointDir args.name))
        (umountVolumes env args.name args.volumes g).1).2 = true :=
      umount_undone (hb.trans hvols.log) hu
    unfold umountAll
    simp only [hpop, Bool.and_true, hset, forall_const]
    exact hflag
  · rename_i hset
    simp [hset]

theorem removeDir_clean {name : Text} {g : Host} (hsite : env.fails .removeTree = false)
    (hfree : mountsBelow name g.space.table = []) : ∃ extra, (removeDir env name g).1 =
      { g with workspace := Function.update g.workspace name false, log := g.log ++ extra } := by
  unfold removeDir
  simp only
  split
  · rename_i hgone
    rw [← hgone, Function.update_eq_self]
    exact ⟨_, rfl⟩
  · rw [if_neg (by simp [hsite, hfree])]
    exact ⟨_, rfl⟩

theorem removeStatusInfo_clean {name : Text} {g : Host} (hsite : env.fails .unlinkInfo = false) :
    (removeStatusInfo env name g).1 = g.setInfo name none := by
  unfold removeStatusInfo
  split
  · rename_i hnone
    unfold Host.setInfo
    rw [← hnone, Function.update_eq_self]
  · rw [if_neg (by simp [hsite])]

/-- No process lives in a cgroup that is not there. -/
theorem Homes.noProcs {name : Text} (hh : Homes h) (habsent : containerExists name h = false) :
    cgroupProcs name h = [] := by
  simp only [containerExists, Bool.or_eq_false_iff, List.contains_eq_mem, decide_eq_false_iff_not] at habsent
  refine List.filter_eq_nil_iff.2 fun p hp hc => ?_
  simp only [Bool.and_eq_true, decide_eq_true_eq, Bool.not_eq_true'] at hc
  exact habsent.2.1.1 (hh p hp hc.2 name hc.1)

theorem cgroupCleanup_clean {name : Text} {g : Host} {created : Bool}
    (hsite : env.fails .cgroupRmdir = false) (hprocs : cgroupProcs name g = [])
    (hcgroups : g.cgroups = if created then name :: h.cgroups else h.cgroups) :
    cgroupCleanup env name created g = { g with cgroups := h.cgroups } := by
  unfold cgroupCleanup
  split
  · rename_i hc
    rw [if_pos hc] at hcgroups
    unfold rmdirCgroup
    rw [if_neg (by simp [hcgroups]), if_neg (by simp [hsite, hprocs])]
    simp only [hcgroups, List.erase_cons_head]
  · rename_i hc
    rw [if_neg hc] at hcgroups
    rw [← hcgroups]

/-- Nothing is left of a start on `h`. -/
structure RolledBack (name : Text) (h h' : Host) : Prop where
  table : h'.space.table = h.space.table
  cgroups : h'.cgroups = h.cgroups
  networks : h'.networks = h.networks
  nat : h'.nat = h.nat
  links : h'.links = h.links
  procs : h'.procs = h.procs
  workspace : h'.workspace name = false
  info : h'.info name = none

/-- **The cleanup undoes what was acquired**, unless the path of a volume was refused. -/
theorem cleanupRunFailure_restores (hclean : env.CleansUp) (hfresh : FreshStart env args h) {st : RunState}
    (hheld : Held env args h st) (hcgroups : CgroupTracked args h st)
    (hnet : Offline h st ∨ Online args h st) (hlist : ListingsFit env st)
    (hu : Undone h.log (cleanupRunFailure env args st).log)
    (hfits : st.mountpointSet = true → ∀ v ∈ args.volumes, targetFits args.name v = true) :
    RolledBack args.name h (cleanupRunFailure env args st) := by
  obtain ⟨_, _, _, _, hrest⟩ := cleanupRunFailure_rest env args st rfl
  rw [hrest] at hu
  have hstart : dropNetwork env args.name st.ipAddr (killChild st) =
      { st.host with procs := h.procs, networks := h.networks, nat := h.nat, links := h.links } := by
    rw [hheld.child.killed, dropNetwork_restores hclean hfresh hnet hlist]
  unfold cleanupRunFailure
  rw [hstart] at hu ⊢
  generalize hg : { st.host with procs := h.procs, networks := h.networks, nat := h.nat, links := h.links } = g
    at hu ⊢
  have hspace : g.space = st.host.space := by rw [← hg]
  have hlog : g.log = st.host.log := by rw [← hg]
  have hflag : (dropMounts env args st.mountpointSet g).2 = true :=
    (dropMounts_flag (by rw [hlog]; exact hheld.files.log) (hu.of_isPrefix ⟨_, rfl⟩)).2 hfits
  have htable := dropMounts_table hclean.umounts hfresh.unmounted
    (by rw [hspace]; exact hheld.files.unset) (MountsAt.droppable (by rw [hspace]; exact hheld.files.mounts))
  obtain ⟨space, log, hm, -⟩ := dropMounts_only env args st.mountpointSet g
  simp only [hflag, removeWorkspace, if_true]
  rw [hm] at htable ⊢
  obtain ⟨extra, hd⟩ := @removeDir_clean env args.name { g with space := space, log := g.log ++ log }
    (hclean.calls .removeTree rfl) (by rw [← hfresh.unmounted, ← htable])
  have hprocs : cgroupProcs args.name { g with
      space := space, workspace := Function.update g.workspace args.name false
      log := g.log ++ log ++ extra } = [] := by
    rw [← hfresh.homes.noProcs hfresh.absent, ← hg]
    rfl
  rw [hd, cgroupCleanup_clean (hclean.calls .cgroupRmdir rfl) hprocs (by rw [← hg]; exact hcgroups),
    removeStatusInfo_clean (hclean.calls .unlinkInfo rfl), ← hg]
  exact ⟨htable, rfl, rfl, rfl, rfl, rfl, Function.update_self .., Host.setInfo_self ..⟩

/-- A refused path keeps the workspace. -/
theorem cleanupRunFailure_keeps {st : RunState} (hheld : Held env args h st)
    (hu : Undone h.log (cleanupRunFailure env args st).log) (hset : st.mountpointSet = true)
    {v : VolumeConfig} (hv : v ∈ args.volumes) (hfit : targetFits args.name v = false) :
    (cleanupRunFailure env args st).workspace args.name = true := by
  obtain ⟨_, _, _, _, hrest⟩ := cleanupRunFailure_rest env args st rfl
  rw [hrest] at hu
  obtain ⟨networks, nat, links, index, hnet⟩ := dropNetwork_only env args.name st.ipAddr (killChild st)
  rw [hheld.child.killed] at hnet
  unfold cleanupRunFailure
  rw [hheld.child.killed, hnet] at hu ⊢
  generalize hg : { st.host with
    procs := h.procs, networks := networks, nat := nat, links := links, nextIndex := index } = g at hu ⊢
  have hflag : (dropMounts env args st.mountpointSet g).2 = false := by
    rw [Bool.eq_false_iff]
    intro hc
    have hall := (dropMounts_flag (by rw [← hg]; exact hheld.files.log) (hu.of_isPrefix ⟨_, rfl⟩)).1 hc hset
      v hv
    rw [hfit] at hall
    cases hall
  obtain ⟨space, log, hm, -⟩ := dropMounts_only env args st.mountpointSet g
  obtain ⟨cgroups, hc⟩ : ∃ cgroups, cgroupCleanup env args.name st.cgroupCreated
      (dropMounts env args st.mountpointSet g).1 =
        { (dropMounts env args st.mountpointSet g).1 with cgroups := cgroups } := cgroupCleanup_only ..
  simp only [hflag, removeWorkspace, Bool.false_eq_true, if_false]
  rw [hc, hm, ← hg]
  exact hheld.files.made hset

/-- A step of a stage fails. -/
def StartFails (env : Env) (args : RunArguments) (h : Host) : Prop :=
  env.fails .mountpointAlloc = true ∨ ∃ st, runAll (runStages env args) (RunState.start h) = .error st

end Start

/-- **Startup rollback.**  If every `umount` succeeds or reports that there is nothing to unmount and
the other cleanup calls succeed, the captures of the two listings among them, a failed start returns -1 and
leaves nothing behind if and only if the mountpoint buffer could not be allocated, or it does not fail at the
lookup of the index of its new interface and, once the upper directory is made, the target path of every volume
fits. -/
theorem startup_rollback_iff (env : Env) (args : RunArguments) (h : Host) (hclean : env.CleansUp)
    (hfresh : FreshStart env args h) (hfail : StartFails env args h)
    (hlistings : ∀ st, runAll (runStages env args) (RunState.start h) = .error st → ListingsFit env st)
    (hundone : Undone h.log (dockerRun env args h).1.log) :
    ((dockerRun env args h).2 = -1 ∧ RolledBack args.name h (dockerRun env args h).1) ↔
      env.fails .mountpointAlloc = true ∨ (¬ LookupFailed env args h ∧
        (UpperMade env → ∀ v ∈ args.volumes, targetFits args.name v = true)) := by
  by_cases halloc : env.fails .mountpointAlloc = true
  · have hrun : dockerRun env args h = (h, -1) := by
      unfold dockerRun
      rw [hfresh.absent, halloc]
      rfl
    have habsent := hfresh.absent
    simp only [containerExists, Bool.or_eq_false_iff, Option.isSome_eq_false_iff,
      Option.isNone_iff_eq_none] at habsent
    rw [hrun]
    exact ⟨fun _ => Or.inl halloc,
      fun _ => ⟨rfl, rfl, rfl, rfl, rfl, rfl, rfl, habsent.2.2, habsent.2.1.2⟩⟩
  obtain ⟨st, hst⟩ : ∃ st, runAll (runStages env args) (RunState.start h) = .error st :=
    hfail.resolve_left halloc
  have hrun : dockerRun env args h = (cleanupRunFailure env args st, -1) := by
    unfold dockerRun
    rw [hfresh.absent, Bool.eq_false_iff.2 halloc, hst]
    rfl
  have hcgroups := (runStages_cgroups (RunState.start h) ⟨rfl, rfl⟩).2 st hst
  obtain ⟨hheld, hnet⟩ := runStages_failed hclean hfresh hst
  rw [hrun] at hundone ⊢
  refine ⟨fun ⟨_, hback⟩ => Or.inr ⟨fun hlookup => ?_, fun hupper v hv => ?_⟩, fun hcond => ⟨rfl, ?_⟩⟩
  · rcases hnet with ⟨-, hno⟩ | ⟨⟨hip, hlinks⟩, -⟩
    · exact hno hlookup
    · obtain ⟨_, _, _, _, hrest⟩ := cleanupRunFailure_rest env args st rfl
      obtain ⟨_, _, hm, -⟩ := dropMounts_only env args st.mountpointSet
        (dropNetwork env args.name st.ipAddr (killChild st))
      have hsame := hback.links
      rw [hrest, hm, hheld.child.killed, hip] at hsame
      exact hlinks hsame
  · by_contra hfit
    have hkept := cleanupRunFailure_keeps hheld hundone (hheld.files.set.2 hupper) hv
      (Bool.eq_false_iff.2 hfit)
    have hgone := hback.workspace
    rw [hkept] at hgone
    cases hgone
  · obtain ⟨hno, hfits⟩ := hcond.resolve_left halloc
    rcases hnet with ⟨hnet, -⟩ | ⟨-, hlookup⟩
    · exact cleanupRunFailure_restores hclean hfresh hheld hcgroups hnet (hlistings st hst) hundone
        fun hset => hfits (hheld.files.set.1 hset)
    · exact absurd hlookup hno

/-- An environment in which only this call fails. -/
def Env.failing (site : Site) : Env :=
  { Env.quiet [ "img".toList] 20 with fails := fun s => decide (s = site) }

theorem Env.failing_cleansUp {site : Site} (h : site.isCleanup = false) : (Env.failing site).CleansUp := by
  refine ⟨fun _ => rfl, fun s hs => decide_eq_false fun he => ?_⟩
  rw [he, h] at hs
  cases hs

/-- `docker run -d -v /v:/d -p 8080:80 --name web001`. -/
def mappedArgs : RunArguments := { mntArgs with portMapping := [⟨8080, 80⟩] }

theorem mappedArgs_fresh (site : Site) : FreshStart (.failing site) mappedArgs (mntHost none) := by
  refine ⟨by decide, by decide, fun p hp hz n hn => ?_, bare_storeOk, fun _ _ _ r hr => ?_,
    fun lower hlower v hv => ?_⟩
  · rw [List.mem_singleton.1 hp] at hn
    cases hn
  · cases hr
  · cases hlower
    rw [List.mem_singleton.1 hv]
    exact ⟨fun t ht => (by cases ht), trivial⟩

/-- The metadata cannot be written: everything is undone. -/
theorem writeInfo_failure_rolled_back :
    (dockerRun (.failing .writeInfo) mappedArgs (mntHost none)).2 = -1 ∧
      RolledBack mappedArgs.name (mntHost none) (dockerRun (.failing .writeInfo) mappedArgs (mntHost none)).1 := by
  refine (startup_rollback_iff (.failing .writeInfo) mappedArgs (mntHost none)
    (Env.failing_cleansUp rfl) (mappedArgs_fresh .writeInfo) (Or.inr ⟨_, rfl⟩) (fun st hst _ c => ?_) ?_).2
    (Or.inr ⟨fun ⟨_, _, _, _, hc⟩ => ?_, fun _ => ?_⟩)
  · have hshort : onError (fun st => decide (¬ listingFails (.failing .writeInfo) .output (st.host.nat .output) ∧
          ¬ listingFails (.failing .writeInfo) .prerouting (st.host.nat .prerouting)))
        (runAll (runStages (.failing .writeInfo) mappedArgs) (RunState.start (mntHost none))) = true := by
      decide +kernel
    have htest := of_onError hshort hst
    obtain ⟨ho, hp⟩ := of_decide_eq_true htest
    cases c with
    | output => exact ho
    | prerouting => exact hp
  · unfold Undone
    decide +kernel
  · cases hc
  · decide +kernel

/-- The index of the new interface cannot be read: the pair stays behind. -/
theorem index_failure_leaks_pair :
    (Env.failing .vethIndex).CleansUp ∧ FreshStart (.failing .vethIndex) mappedArgs (mntHost none) ∧
      StartFails (.failing .vethIndex) mappedArgs (mntHost none) ∧
      (∀ st, runAll (runStages (.failing .vethIndex) mappedArgs) (RunState.start (mntHost none)) = .error st →
        ListingsFit (.failing .vethIndex) st) ∧
      Undone (mntHost none).log (dockerRun (.failing .vethIndex) mappedArgs (mntHost none)).1.log ∧
      ¬ RolledBack mappedArgs.name (mntHost none)
        (dockerRun (.failing .vethIndex) mappedArgs (mntHost none)).1 := by
  refine ⟨Env.failing_cleansUp rfl, mappedArgs_fresh .vethIndex, Or.inr ⟨_, rfl⟩, fun st hst hne => ?_, ?_,
    fun hback => ?_⟩
  · have hip : (match runAll (runStages (.failing .vethIndex) mappedArgs) (RunState.start (mntHost none)) with
        | .error st => decide (st.ipAddr = [])
        | .ok _ => true) = true := by decide +kernel
    rw [hst] at hip
    exact absurd (of_decide_eq_true hip) hne
  · unfold Undone
    decide +kernel
  · have hlinks : (dockerRun (.failing .vethIndex) mappedArgs (mntHost none)).1.links.length = 2 := by
      decide +kernel
    rw [hback.links] at hlinks
    cases hlinks

end TinyDocker
