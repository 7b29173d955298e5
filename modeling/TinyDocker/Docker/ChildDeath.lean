import TinyDocker.Docker.VethNames
import TinyDocker.Docker.Rollback
import TinyDocker.Docker.System

/-!
# The death of the child during `docker run` (`docker/container.c`)

The child of `docker_run` initialises its root while the parent makes the startup steps, and it may exit or
be killed between any two calls of the parent.  What the parent notices of that depends on the call: the
cgroup lists no process, the network namespace cannot be entered, and the write to the pipe has no reader.

`docker_run` closes its own read end before it writes the byte, and no signal has another disposition than
the default one by then: without the child the write raises `SIGPIPE`, which ends the command on the spot.

The kernel removes the veth pair some time after the namespace that holds one of its ends.  No call of the
startup depends on that and the cleanup takes a missing interface as removed, so the model keeps the pair.

`child_death_iff` says which deaths are rolled back: those before the last command of the parent in the
child's namespace, and those in a startup that fails anyway.
-/

set_option autoImplicit false

namespace TinyDocker

open CText MountSpace Staged

/-! ## The interleavings -/

/-- The calls of the parent from `clone` to the byte, in order. -/
def startupCalls (args : RunArguments) : List Site :=
  [.cgroupProcs, .networkWrite, .readProcs, .vethAdd, .vethIndex, .vethAlias] ++
    (List.range 9).map Site.vethCommand ++
    (List.range args.portMapping.length).flatMap
      (fun i => [.natAppend .output i, .natAppend .prerouting i]) ++
    [.startTime, .writeInfo, .releaseWrite]

/-- Whether the child has ended before a call.  Its moment is the number of calls made before it; `none`
is a child that lives. -/
def childEnded (args : RunArguments) (death : Option Nat) (site : Site) : Bool :=
  death.any fun d => decide (d ≤ (startupCalls args).idxOf site)

/-- The calls that need the child.  `cgroup.procs` does not list a zombie, and the child is the only
process of the new cgroup; `ip link set netns` and `nsenter` need its namespace.  `/proc` still has the
start time of a zombie. -/
def Site.needsChild : Site → Bool
  | .readProcs => true
  | .vethCommand k => decide (2 ≤ k)
  | _ => false

/-- What the parent meets when the child ends at that moment. -/
def Env.dying (env : Env) (args : RunArguments) (death : Option Nat) : Env :=
  { env with fails := fun s => env.fails s || (s.needsChild && childEnded args death s) }

/-- How `docker_run` ends: it returns, or a signal terminates the process. -/
inductive Ending where
  | returned (h : Host) (result : Int)
  | terminated (h : Host)

/-- The stages up to the creation of the child. -/
def stagesToClone (env : Env) (args : RunArguments) : List (Stage RunState) :=
  [initContainerWorkerspace env args, volumeStage env args, cgroupPrepare env args, pipeStage env,
    cloneStage env]

/-- The stages between the creation of the child and its release. -/
def stagesToRelease (env : Env) (args : RunArguments) : List (Stage RunState) :=
  [cgroupApply env args, connectStage env args, portStage env args, metadataStage env args]

/-- `docker_run` with a child that may end before it is released. -/
def dockerRunDying (env : Env) (args : RunArguments) (death : Option Nat) (h : Host) : Ending :=
  if containerExists args.name h then .returned h (-1)
  else if env.fails .mountpointAlloc then .returned h (-1)
  else match runAll (stagesToClone env args) (RunState.start h) with
    | .error st => .returned (cleanupRunFailure env args st) (-1)
    | .ok st =>
      match runAll (stagesToRelease (env.dying args death) args) st with
      | .error st => .returned (cleanupRunFailure env args st) (-1)
      | .ok st =>
        -- no read end is left: `SIGPIPE`, before `write` could return
        if childEnded args death .releaseWrite then .terminated (endProcess env.pid st.host)
        else match releaseStage env st with
          | .error st => .returned (cleanupRunFailure env args st) (-1)
          | .ok st => .returned st.host 0

theorem Env.dying_none (env : Env) (args : RunArguments) : env.dying args none = env := by
  unfold Env.dying childEnded
  simp

/-- With a child that lives this is `dockerRun`. -/
theorem dockerRunDying_none (env : Env) (args : RunArguments) (h : Host) :
    dockerRunDying env args none h = .returned (dockerRun env args h).1 (dockerRun env args h).2 := by
  have hstages : runStages env args =
      stagesToClone env args ++ (stagesToRelease env args ++ [releaseStage env]) := rfl
  unfold dockerRunDying dockerRun
  rw [Env.dying_none, hstages, runAll_append]
  split
  · rfl
  split
  · rfl
  cases runAll (stagesToClone env args) (RunState.start h) with
  | error st => rfl
  | ok st =>
    simp only
    rw [runAll_append]
    cases runAll (stagesToRelease env args) st with
    | error st => rfl
    | ok st =>
      simp only [childEnded, Option.any_none, Bool.false_eq_true, if_false, runAll]
      cases releaseStage env st with
      | error st => rfl
      | ok st => rfl

/-! ## The positions of the calls -/

theorem idxOf_readProcs (args : RunArguments) : (startupCalls args).idxOf .readProcs = 2 := rfl

theorem idxOf_vethCommand (args : RunArguments) {k : Nat} (hk : k < 9) :
    (startupCalls args).idxOf (.vethCommand k) = 6 + k := by
  have hfixed : ∀ k < 9, Site.vethCommand k ∈
      [Site.cgroupProcs, .networkWrite, .readProcs, .vethAdd, .vethIndex, .vethAlias] ++
        (List.range 9).map Site.vethCommand := by decide
  have hpos : ∀ k < 9,
      ([Site.cgroupProcs, .networkWrite, .readProcs, .vethAdd, .vethIndex, .vethAlias] ++
        (List.range 9).map Site.vethCommand).idxOf (Site.vethCommand k) = 6 + k := by decide
  unfold startupCalls
  rw [List.append_assoc, List.idxOf_append_of_mem (hfixed k hk)]
  exact hpos k hk

/-! ## What the startup needs -/

theorem addPortMaps_succeeds_iff (env : Env) (ip : Text) : ∀ (ms : List PortMap) (i : Nat) (h : Host),
    (addPortMaps env ip i ms h).2 = true ↔ ∀ j < ms.length,
      env.fails (.natAppend .output (i + j)) = false ∧ env.fails (.natAppend .prerouting (i + j)) = false
  | [], _, _ => by simp [addPortMaps]
  | m :: ms, i, h => by
    have hsplit : (∀ j < (m :: ms).length, env.fails (.natAppend .output (i + j)) = false ∧
        env.fails (.natAppend .prerouting (i + j)) = false) ↔
        (env.fails (.natAppend .output i) = false ∧ env.fails (.natAppend .prerouting i) = false) ∧
        ∀ j < ms.length, env.fails (.natAppend .output (i + 1 + j)) = false ∧
          env.fails (.natAppend .prerouting (i + 1 + j)) = false := by
      simp only [List.length_cons, Nat.forall_lt_succ_left, Nat.add_zero, ← Nat.add_assoc,
        Nat.add_right_comm i 1]
    rw [hsplit]
    unfold addPortMaps
    split
    · rename_i hf
      exact ⟨fun hc => (by cases hc), fun hc => by rw [hc.1.1] at hf; cases hf⟩
    rename_i hout
    simp only
    split
    · rename_i hf
      exact ⟨fun hc => (by cases hc), fun hc => by rw [hc.1.2] at hf; cases hf⟩
    rename_i hpre
    rw [addPortMaps_succeeds_iff env ip ms (i + 1)]
    exact ⟨fun hrest => ⟨⟨Bool.eq_false_iff.2 hout, Bool.eq_false_iff.2 hpre⟩, hrest⟩, fun hc => hc.2⟩

/-- What `write_container_info` accepts. -/
structure InfoOk (name : Text) (info : ContainerInfo) : Prop where
  valid : tdValidateName name TINYDOCKER_MAX_CONTAINER_NAME = .ok ()
  same : name = info.name
  pid : info.pid ≠ 0
  volumes : info.volumes.length ≤ MAX_RECORDED_VOLUMES
  fields : containsRecordSeparator info.image = false ∧ containsRecordSeparator info.command = false ∧
    containsRecordSeparator info.name = false
  lines : info.volumes.any containsRecordSeparator = false

theorem writeContainerInfo_succeeds_iff (env : Env) (name : Text) (info : ContainerInfo) (h : Host) :
    (writeContainerInfo env name info h).2 = true ↔ InfoOk name info ∧ env.fails .writeInfo = false := by
  unfold writeContainerInfo
  split
  · rename_i hname
    refine ⟨fun hc => (by cases hc), fun ⟨hok, _⟩ => ?_⟩
    exact absurd hname (not_or.2 ⟨not_not.2 hok.valid, not_not.2 hok.same⟩)
  rename_i hname
  simp only [not_or, not_not] at hname
  split
  · rename_i hbad
    refine ⟨fun hc => (by cases hc), fun ⟨hok, _⟩ => ?_⟩
    rcases hbad with hp | hv | hi | hc | hn | hl
    · exact absurd hp hok.pid
    · exact absurd hv (Nat.not_lt.2 hok.volumes)
    · rw [hok.fields.1] at hi; cases hi
    · rw [hok.fields.2.1] at hc; cases hc
    · rw [hok.fields.2.2] at hn; cases hn
    · rw [hok.lines] at hl; cases hl
  rename_i hgood
  simp only [not_or, Bool.not_eq_true, Nat.not_lt] at hgood
  obtain ⟨hp, hv, hi, hc, hn, hl⟩ := hgood
  split
  · rename_i hf
    exact ⟨fun hc => (by cases hc), fun hc => by rw [hc.2] at hf; cases hf⟩
  · rename_i hwrite
    exact ⟨fun _ => ⟨⟨hname.1, hname.2, hp, hv, ⟨hi, hc, hn⟩, hl⟩, Bool.eq_false_iff.2 hwrite⟩, fun _ => rfl⟩

/-- The startup steps after `clone` all work, as far as the child is not the reason. -/
structure StartsUp (env : Env) (args : RunArguments) (st : RunState) : Prop where
  apply : env.fails .cgroupProcs = false
  address : ((loadNetworks st.host).bind (allocNewIp TINYDOCKER_DEFAULT_NETWORK_NAME)).isSome = true
  recorded : env.fails .networkWrite = false
  procs : env.fails .readProcs = false
  veth : VethReady env args.name st.host
  ports : ∀ i < args.portMapping.length,
    env.fails (.natAppend .output i) = false ∧ env.fails (.natAppend .prerouting i) = false
  metadata : ∀ records a,
    allocNewIp TINYDOCKER_DEFAULT_NETWORK_NAME st.host.networks = some (records, a) →
      ∃ info, createContainerInfo args env.pid
        (if env.fails .startTime then none else readProcessStartTime env.pid st.host)
        .running (Ipv4.inetNtop a) env.timestamp env.created = some info ∧ InfoOk args.name info
  infoWrite : env.fails .writeInfo = false

/-- Moving a process does not change what `/proc` says of its start. -/
theorem readProcessStartTime_joinCgroup (pid pid' : Nat) (name : Text) (h : Host) :
    readProcessStartTime pid (joinCgroup pid' name h) = readProcessStartTime pid h := by
  unfold readProcessStartTime joinCgroup
  simp only [List.find?_map, Option.map_map]
  have hkey : ((fun p : Proc => decide (p.pid = pid)) ∘ fun p : Proc =>
      if p.pid = pid' then { p with cgroup := some name } else p) = fun p => decide (p.pid = pid) := by
    funext p
    simp only [Function.comp_apply]
    split <;> rfl
  rw [hkey]
  congr 1
  funext p
  simp only [Function.comp_apply]
  split <;> rfl

theorem connectStage_succeeds_iff (env : Env) (args : RunArguments) (st : RunState) :
    (∃ st', connectStage env args st = .ok st') ↔
      ((loadNetworks st.host).bind (allocNewIp TINYDOCKER_DEFAULT_NETWORK_NAME)).isSome = true ∧
        env.fails .networkWrite = false ∧ env.fails .readProcs = false ∧
        cgroupProcs args.name st.host ≠ [] ∧ VethReady env args.name st.host := by
  rw [← connectContainer_succeeds_iff]
  unfold connectStage
  split
  · rename_i h ip hc
    rw [hc]
    exact ⟨fun _ => rfl, fun _ => ⟨_, rfl⟩⟩
  · rename_i h hc
    rw [hc]
    exact ⟨fun ⟨_, he⟩ => (by cases he), fun hs => (by cases hs)⟩

/-- The address is the first free one, and only the network has changed. -/
theorem connectStage_ok {env : Env} {args : RunArguments} {st st' : RunState}
    (hst : connectStage env args st = .ok st') :
    ∃ records a h, allocNewIp TINYDOCKER_DEFAULT_NETWORK_NAME st.host.networks = some (records, a) ∧
      OnlyWires st.host h ∧ st' = { st with host := h, ipAddr := Ipv4.inetNtop a } := by
  have honly := connectContainer_only env args.name TINYDOCKER_DEFAULT_NETWORK_NAME st.host
  unfold connectStage at hst
  split at hst
  · rename_i h ip hc
    rw [hc] at honly
    cases hst
    rcases connectContainer_cases env args.name TINYDOCKER_DEFAULT_NETWORK_NAME st.host with
      ⟨_, he⟩ | ⟨records, a, h₂, ok, _, ha, _, he⟩
    · rw [he] at hc
      cases hc
    · rw [he] at hc
      cases ok with
      | true =>
        cases hc
        exact ⟨records, a, _, ha, honly, rfl⟩
      | false => cases hc
  · cases hst

theorem portStage_succeeds_iff (env : Env) (args : RunArguments) {st : RunState} {a : UInt32}
    (hip : st.ipAddr = Ipv4.inetNtop a) :
    (∃ st', portStage env args st = .ok st') ↔ ∀ i < args.portMapping.length,
      env.fails (.natAppend .output i) = false ∧ env.fails (.natAppend .prerouting i) = false := by
  have hadd := addPortMaps_succeeds_iff env st.ipAddr args.portMapping 0 st.host
  simp only [Nat.zero_add] at hadd
  have hset : setContainerPortMap env st.ipAddr args.portMapping st.host =
      addPortMaps env st.ipAddr 0 args.portMapping st.host := by
    unfold setContainerPortMap
    rw [hip, Ipv4.inetPton_inetNtop]
    rfl
  rw [← hadd, ← hset]
  unfold portStage
  split
  · rename_i h hc
    rw [hc]
    exact ⟨fun _ => rfl, fun _ => ⟨_, rfl⟩⟩
  · rename_i h hc
    rw [hc]
    exact ⟨fun ⟨_, he⟩ => (by cases he), fun hs => (by cases hs)⟩

theorem metadataStage_succeeds_iff (env : Env) (args : RunArguments) (st : RunState) :
    (∃ st', metadataStage env args st = .ok st') ↔ (∃ info, createContainerInfo args env.pid
        (if env.fails .startTime then none else readProcessStartTime env.pid st.host)
        .running st.ipAddr env.timestamp env.created = some info ∧ InfoOk args.name info) ∧
      env.fails .writeInfo = false := by
  unfold metadataStage
  split
  · rename_i hnone
    rw [hnone]
    exact ⟨fun ⟨_, he⟩ => (by cases he), fun ⟨⟨_, hc, _⟩, _⟩ => (by cases hc)⟩
  rename_i info hinfo
  have hwrite := writeContainerInfo_succeeds_iff env args.name info st.host
  rw [hinfo]
  split
  · rename_i h hc
    rw [hc] at hwrite
    obtain ⟨hok, hw⟩ := hwrite.1 rfl
    exact ⟨fun _ => ⟨⟨info, rfl, hok⟩, hw⟩, fun _ => ⟨_, rfl⟩⟩
  · rename_i h hc
    rw [hc] at hwrite
    refine ⟨fun ⟨_, he⟩ => (by cases he), fun ⟨⟨info', he, hok⟩, hw⟩ => ?_⟩
    cases he
    have := hwrite.2 ⟨hok, hw⟩
    cases this

/-- The cloned child is in the process table, alive. -/
theorem stagesToClone_child {env : Env} {args : RunArguments} {h : Host} {st : RunState}
    (hst : runAll (stagesToClone env args) (RunState.start h) = .ok st) :
    ∃ p ∈ st.host.procs, p.pid = env.pid ∧ p.zombie = false := by
  have hsplit : stagesToClone env args = [initContainerWorkerspace env args, volumeStage env args,
    cgroupPrepare env args, pipeStage env] ++ [cloneStage env] := rfl
  rw [hsplit, runAll_append] at hst
  split at hst
  · rename_i mid _
    obtain ⟨st', hclone, he⟩ := runAll_cons_ok.1 hst
    cases he
    unfold cloneStage at hclone
    split at hclone
    · cases hclone
    · cases hclone
      exact ⟨_, List.mem_append_right _ (List.mem_singleton.2 rfl), rfl, rfl⟩
  · cases hst

/-- A living child that joins the cgroup is listed there. -/
theorem cgroupProcs_joinCgroup {pid : Nat} {h : Host} (hchild : ∃ p ∈ h.procs, p.pid = pid ∧ p.zombie = false)
    (name : Text) : cgroupProcs name (joinCgroup pid name h) ≠ [] := by
  obtain ⟨p, hp, hpid, hz⟩ := hchild
  have hmem : { p with cgroup := some name } ∈ (joinCgroup pid name h).procs :=
    List.mem_map.2 ⟨p, hp, if_pos hpid⟩
  exact List.ne_nil_of_mem (List.mem_filter.2 ⟨hmem, by simp [hz]⟩)

/-- **The startup after `clone`** reaches the release exactly if everything it needs works. -/
theorem stagesToRelease_succeeds_iff {env : Env} {args : RunArguments} {st : RunState}
    (hchild : ∃ p ∈ st.host.procs, p.pid = env.pid ∧ p.zombie = false) :
    (∃ st', runAll (stagesToRelease env args) st = .ok st') ↔ StartsUp env args st := by
  have hjoin := connectStage_succeeds_iff env args
    { st with host := joinCgroup env.pid args.name st.host }
  have hready : VethReady env args.name (joinCgroup env.pid args.name st.host) ↔
      VethReady env args.name st.host :=
    ⟨fun hr => ⟨hr.names, hr.add, hr.index, hr.mark, hr.commands⟩,
      fun hr => ⟨hr.names, hr.add, hr.index, hr.mark, hr.commands⟩⟩
  -- what the later stages read is as it was after `clone`
  have hlater : ∀ st₂,
      connectStage env args { st with host := joinCgroup env.pid args.name st.host } = .ok st₂ →
      ∃ records a, allocNewIp TINYDOCKER_DEFAULT_NETWORK_NAME st.host.networks = some (records, a) ∧
        st₂.ipAddr = Ipv4.inetNtop a ∧ ∀ st₃, portStage env args st₂ = .ok st₃ →
          st₃.ipAddr = Ipv4.inetNtop a ∧
            readProcessStartTime env.pid st₃.host = readProcessStartTime env.pid st.host := by
    intro st₂ h₂
    obtain ⟨records, a, h, ha, ⟨_, _, _, rfl⟩, rfl⟩ := connectStage_ok h₂
    refine ⟨records, a, ha, rfl, fun st₃ h₃ => ?_⟩
    obtain ⟨h', ⟨_, rfl⟩, hout, -⟩ := portStage_outcome env args
      { st with
        host := { joinCgroup env.pid args.name st.host with
          networks := _, links := _, nextIndex := _ }
        ipAddr := Ipv4.inetNtop a }
    rw [h₃] at hout
    cases hout
    exact ⟨rfl, readProcessStartTime_joinCgroup env.pid env.pid args.name st.host⟩
  simp only [stagesToRelease, runAll_cons_ok]
  refine ⟨fun ⟨_, st₁, h₁, st₂, h₂, st₃, h₃, st₄, h₄, _⟩ => ?_, fun hup => ?_⟩
  · unfold cgroupApply at h₁
    split at h₁
    · cases h₁
    rename_i happly
    cases h₁
    obtain ⟨haddress, hrecorded, hprocs, -, hveth⟩ := hjoin.1 ⟨_, h₂⟩
    obtain ⟨records, a, ha, hip, hport⟩ := hlater st₂ h₂
    obtain ⟨hip₃, hstart⟩ := hport st₃ h₃
    obtain ⟨hinfo, hwrite⟩ := (metadataStage_succeeds_iff env args st₃).1 ⟨_, h₄⟩
    rw [hip₃, hstart] at hinfo
    refine ⟨Bool.eq_false_iff.2 happly, haddress, hrecorded, hprocs, hready.1 hveth,
      (portStage_succeeds_iff env args hip).1 ⟨_, h₃⟩, fun records' a' ha' => ?_, hwrite⟩
    rw [ha] at ha'
    cases ha'
    exact hinfo
  · have hlisted := cgroupProcs_joinCgroup hchild args.name
    obtain ⟨st₂, h₂⟩ := hjoin.2 ⟨hup.address, hup.recorded, hup.procs, hlisted, hready.2 hup.veth⟩
    obtain ⟨records, a, ha, hip, hport⟩ := hlater st₂ h₂
    obtain ⟨st₃, h₃⟩ := (portStage_succeeds_iff env args hip).2 hup.ports
    obtain ⟨hip₃, hstart⟩ := hport st₃ h₃
    have hinfo := hup.metadata records a ha
    rw [← hip₃, ← hstart] at hinfo
    obtain ⟨st₄, h₄⟩ := (metadataStage_succeeds_iff env args st₃).2 ⟨hinfo, hup.infoWrite⟩
    refine ⟨st₄, _, ?_, st₂, h₂, st₃, h₃, st₄, h₄, rfl⟩
    unfold cgroupApply
    rw [hup.apply]
    rfl

/-! ## The death of the child -/

/-- Of what may fail, the startup depends on its own calls only. -/
theorem StartsUp.congr {env : Env} {args : RunArguments} {st : RunState} {fails : Site → Bool}
    (hsame : ∀ s ∈ startupCalls args, fails s = env.fails s) (hup : StartsUp env args st) :
    StartsUp { env with fails := fails } args st := by
  have hok : ∀ s ∈ startupCalls args, env.fails s = false → fails s = false :=
    fun s hs he => (hsame s hs).trans he
  have hveth : ∀ k < 9, Site.vethCommand k ∈ startupCalls args :=
    fun k hk => by simp [startupCalls, hk]
  have hport : ∀ i < args.portMapping.length, ∀ chain, Site.natAppend chain i ∈ startupCalls args :=
    fun i hi chain => by cases chain <;> simp [startupCalls, hi]
  have hstart : fails .startTime = env.fails .startTime := hsame _ (by simp [startupCalls])
  refine ⟨hok _ (by simp [startupCalls]) hup.apply, hup.address, hok _ (by simp [startupCalls]) hup.recorded,
    hok _ (by simp [startupCalls]) hup.procs, ⟨hup.veth.names, hok _ (by simp [startupCalls]) hup.veth.add,
      hok _ (by simp [startupCalls]) hup.veth.index, hok _ (by simp [startupCalls]) hup.veth.mark,
      fun k hk => hok _ (hveth k hk) (hup.veth.commands k hk)⟩,
    fun i hi => ⟨hok _ (hport i hi .output) (hup.ports i hi).1,
      hok _ (hport i hi .prerouting) (hup.ports i hi).2⟩,
    fun records a ha => ?_, hok _ (by simp [startupCalls]) hup.infoWrite⟩
  simp only [hstart]
  exact hup.metadata records a ha

/-- The calls that need the child are those up to the default route. -/
theorem dying_late (env : Env) {args : RunArguments} {d : Nat}
    (hd : (startupCalls args).idxOf (.vethCommand 8) < d) :
    ∀ s ∈ startupCalls args, (env.dying args (some d)).fails s = env.fails s := by
  intro s hs
  have halive : (s.needsChild && childEnded args (some d) s) = false := by
    rw [idxOf_vethCommand args (by decide)] at hd
    rw [Bool.and_eq_false_iff]
    cases s with
    | readProcs =>
      refine Or.inr (decide_eq_false ?_)
      rw [idxOf_readProcs]
      omega
    | vethCommand k =>
      have hk : k < 9 := by simpa [startupCalls] using hs
      refine Or.inr (decide_eq_false ?_)
      rw [idxOf_vethCommand args hk]
      omega
    | _ => exact Or.inl rfl
  unfold Env.dying
  simp only [halive, Bool.or_false]

/-- The startup with a child that dies at `d`: the child has to last until the default route is set. -/
theorem startsUp_dying (env : Env) (args : RunArguments) (d : Nat) (st : RunState) :
    StartsUp (env.dying args (some d)) args st ↔
      (startupCalls args).idxOf (.vethCommand 8) < d ∧ StartsUp env args st := by
  by_cases hd : (startupCalls args).idxOf (.vethCommand 8) < d
  · have hsame := dying_late env hd
    refine ⟨fun hup => ⟨hd, ?_⟩, fun ⟨_, hup⟩ => hup.congr hsame⟩
    exact @StartsUp.congr (env.dying args (some d)) args st env.fails (fun s hs => (hsame s hs).symm) hup
  · refine ⟨fun hup => ?_, fun ⟨hlate, _⟩ => absurd hlate hd⟩
    have hroute := hup.veth.commands 8 (by decide)
    have hended : childEnded args (some d) (.vethCommand 8) = true := decide_eq_true (Nat.not_lt.1 hd)
    simp [Env.dying, hended, Site.needsChild] at hroute

/-- A child that dies after the default route is not missed before the write. -/
theorem late_death_terminated {env : Env} {args : RunArguments} {h : Host} {st : RunState} {d : Nat}
    (hnew : containerExists args.name h = false) (halloc : env.fails .mountpointAlloc = false)
    (hclone : runAll (stagesToClone env args) (RunState.start h) = .ok st)
    (hd : d ≤ (startupCalls args).idxOf .releaseWrite)
    (hlate : (startupCalls args).idxOf (.vethCommand 8) < d) (hup : StartsUp env args st) :
    ∃ st', runAll (stagesToRelease (env.dying args (some d)) args) st = .ok st' ∧
      dockerRunDying env args (some d) h = .terminated (endProcess env.pid st'.host) := by
  have hchild := stagesToClone_child hclone
  have hended : childEnded args (some d) .releaseWrite = true := decide_eq_true hd
  obtain ⟨st', hrun⟩ := (@stagesToRelease_succeeds_iff (env.dying args (some d)) args st hchild).2
    ((startsUp_dying env args d st).2 ⟨hlate, hup⟩)
  refine ⟨st', hrun, ?_⟩
  unfold dockerRunDying
  simp only [hnew, halloc, hclone, hrun, hended, Bool.false_eq_true, if_false, if_true]

/-- **The death of the child before its release.**  A `docker_run` whose child dies while it is needed, or
whose startup fails by itself, returns -1 after its cleanup.  If the child dies after the last command in its
namespace the parent does not notice until `SIGPIPE` ends it. -/
theorem child_death_iff {env : Env} {args : RunArguments} {h : Host} {st : RunState} {d : Nat}
    (hnew : containerExists args.name h = false) (halloc : env.fails .mountpointAlloc = false)
    (hclone : runAll (stagesToClone env args) (RunState.start h) = .ok st)
    (hd : d ≤ (startupCalls args).idxOf .releaseWrite) :
    (∃ st', runAll (stagesToRelease (env.dying args (some d)) args) st = .error st' ∧
      dockerRunDying env args (some d) h = .returned (cleanupRunFailure env args st') (-1)) ↔
        d ≤ (startupCalls args).idxOf (.vethCommand 8) ∨ ¬ StartsUp env args st := by
  refine ⟨fun ⟨st', herror, _⟩ => ?_, fun hcond => ?_⟩
  · by_contra hc
    rw [not_or, Nat.not_le, not_not] at hc
    obtain ⟨_, hok, _⟩ := late_death_terminated hnew halloc hclone hd hc.1 hc.2
    rw [herror] at hok
    cases hok
  · have hchild := stagesToClone_child hclone
    have hup := @stagesToRelease_succeeds_iff (env.dying args (some d)) args st hchild
    rw [startsUp_dying] at hup
    cases hrun : runAll (stagesToRelease (env.dying args (some d)) args) st with
    | ok st' =>
      obtain ⟨hlate, hstarts⟩ := hup.1 ⟨st', hrun⟩
      rcases hcond with hearly | hfails
      · omega
      · exact absurd hstarts hfails
    | error st' =>
      refine ⟨st', rfl, ?_⟩
      unfold dockerRunDying
      simp only [hnew, halloc, hclone, hrun, Bool.false_eq_true, if_false]

/-- The child is killed before its end of the pair is moved: the parent cleans up. -/
theorem early_death_cleaned :
    ∃ st st', runAll (stagesToClone (.quiet [ "img".toList] 20) mappedArgs) (RunState.start (mntHost none)) =
        .ok st ∧
      runAll (stagesToRelease ((Env.quiet [ "img".toList] 20).dying mappedArgs (some 8)) mappedArgs) st =
        .error st' ∧
      dockerRunDying (.quiet [ "img".toList] 20) mappedArgs (some 8) (mntHost none) =
        .returned (cleanupRunFailure (.quiet [ "img".toList] 20) mappedArgs st') (-1) := by
  obtain ⟨st', hrun, he⟩ := (@child_death_iff (.quiet [ "img".toList] 20) mappedArgs (mntHost none) _ 8
    (by decide) rfl rfl (by decide)).2 (Or.inl (by decide))
  exact ⟨_, st', rfl, hrun, he⟩

/-- The child is killed after the default route is set: the command is gone, and the container is left
behind, with a record that says it runs. -/
theorem late_death_leaves_container :
    containerExists mappedArgs.name (mntHost none) = false ∧
      15 ≤ (startupCalls mappedArgs).idxOf .releaseWrite ∧
      ∃ h', dockerRunDying (.quiet [ "img".toList] 20) mappedArgs (some 15) (mntHost none) = .terminated h' ∧
        mappedArgs.name ∈ h'.cgroups ∧ (mountsBelow mappedArgs.name h'.space.table).length = 2 ∧
        h'.networks ≠ (mntHost none).networks ∧ h'.nat .output ≠ [] ∧ h'.nat .prerouting ≠ [] ∧
        (h'.info mappedArgs.name).map (·.status) = some .running :=
  ⟨by decide, by decide, _, rfl, by decide +kernel, by decide +kernel, by decide +kernel, by decide +kernel,
    by decide +kernel, by decide +kernel⟩

end TinyDocker
