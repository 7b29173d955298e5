import TinyDocker.Lib.Staged
import TinyDocker.Docker.Network
import TinyDocker.Docker.Volumes

/-!
# The commands (`docker/container.c`)

`dockerRun` with its stages and `cleanupRunFailure`, `dockerStop`, and `dockerRm` with
`cleanContainerRuntime`.  A foreground `docker run` is two steps: `dockerRun` starts the container,
and `reapForeground` is what happens when its child has ended.

The stages run on a `RunState`: the host together with the local variables from which
`cleanup_run_failure` infers what was acquired; a stage that returns `error` is
`goto fail_cleanup_run`.
-/

set_option autoImplicit false

namespace TinyDocker

open CText MountSpace Staged

/-! ## `docker run` -/

structure RunState where
  host : Host
  /-- `mountpoint[0] != '\0'`. -/
  mountpointSet : Bool
  cgroupCreated : Bool
  pipeCreated : Bool
  childPid : Option Nat
  ipAddr : Text

/-- `init_container_workerspace`. -/
def initContainerWorkerspace (env : Env) (args : RunArguments) : Stage RunState := fun st =>
  if env.fails .layerAlloc then .error st
  else match env.readonlyDir with
    | none => .error st
    | some readonlyDir =>
      if env.fails .makeContainerDir then .error st
      else
        let h := { st.host with workspace := Function.update st.host.workspace args.name true }
        if env.fails .makeUpper then .error { st with host := h }
        else
          let st := { st with host := h, mountpointSet := true }
          if env.fails .makeMountpoint ∨ env.fails .makeWork ∨ env.fails .overlayData ∨
              env.fails .overlayMount then .error st
          else .ok { st with host :=
            { h with space := h.space.overlay readonlyDir (mountpointDir args.name) } }

def volumeStage (env : Env) (args : RunArguments) : Stage RunState := fun st =>
  match mountVolumes env args.name args.volumes st.host with
  | (h, true) => .ok { st with host := h }
  | (h, false) => .error { st with host := h }

/-- `set_cgroup_limits`. -/
def limitsFail (env : Env) (args : RunArguments) : Bool :=
  (decide (0 < args.memory) && env.fails .memoryMax) || (decide (1000 ≤ args.cpu) && env.fails .cpuMax)

/-- `cgroup_prepare`: a failed limit removes the new directory at once. -/
def cgroupPrepare (env : Env) (args : RunArguments) : Stage RunState := fun st =>
  if env.fails .cgroupMkdir ∨ args.name ∈ st.host.cgroups then .error st
  else
    let h := { st.host with cgroups := args.name :: st.host.cgroups }
    if limitsFail env args then
      match rmdirCgroup env .cgroupRollback args.name h with
      | (h, removed) => .error { st with host := h, cgroupCreated := !removed }
    else .ok { st with host := h, cgroupCreated := true }

def pipeStage (env : Env) : Stage RunState := fun st =>
  if env.fails .pipe then .error st else .ok { st with pipeCreated := true }

/-- `clone`: the child starts outside every container cgroup. -/
def cloneStage (env : Env) : Stage RunState := fun st =>
  if env.fails .clone ∨ env.pid = 0 ∨ (readProcessStartTime env.pid st.host).isSome then .error st
  else .ok { st with
    host := { st.host with
      procs := st.host.procs ++ [⟨env.pid, st.host.clock, none, false⟩], clock := st.host.clock + 1 }
    childPid := some env.pid }

/-- Moving a process into a container's cgroup. -/
def joinCgroup (pid : Nat) (name : Text) (h : Host) : Host :=
  { h with procs := h.procs.map fun p => if p.pid = pid then { p with cgroup := some name } else p }

/-- `cgroup_apply`. -/
def cgroupApply (env : Env) (args : RunArguments) : Stage RunState := fun st =>
  if env.fails .cgroupProcs then .error st
  else .ok { st with host := joinCgroup env.pid args.name st.host }

def connectStage (env : Env) (args : RunArguments) : Stage RunState := fun st =>
  match connectContainer env args.name TINYDOCKER_DEFAULT_NETWORK_NAME st.host with
  | (h, some ip) => .ok { st with host := h, ipAddr := ip }
  | (h, none) => .error { st with host := h }

def portStage (env : Env) (args : RunArguments) : Stage RunState := fun st =>
  match setContainerPortMap env st.ipAddr args.portMapping st.host with
  | (h, true) => .ok { st with host := h }
  | (h, false) => .error { st with host := h }

/-- `create_container_info` and `write_container_info`. -/
def metadataStage (env : Env) (args : RunArguments) : Stage RunState := fun st =>
  match createContainerInfo args env.pid
      (if env.fails .startTime then none else readProcessStartTime env.pid st.host)
      .running st.ipAddr env.timestamp env.created with
  | none => .error st
  | some info =>
    match writeContainerInfo env args.name info st.host with
    | (h, true) => .ok { st with host := h }
    | (h, false) => .error { st with host := h }

/-- The byte that releases the child; on failure the pipe is already closed. -/
def releaseStage (env : Env) : Stage RunState := fun st =>
  if env.fails .releaseWrite then .error { st with pipeCreated := false } else .ok st

/-- The stages of `docker_run` in order. -/
def runStages (env : Env) (args : RunArguments) : List (Stage RunState) :=
  [initContainerWorkerspace env args, volumeStage env args, cgroupPrepare env args, pipeStage env,
    cloneStage env, cgroupApply env args, connectStage env args, portStage env args,
    metadataStage env args, releaseStage env]

/-- Before the first stage. -/
def RunState.start (h : Host) : RunState := ⟨h, false, false, false, none, []⟩

/-! ## `cleanup_run_failure` -/

/-- Kill and reap the child. -/
def killChild (st : RunState) : Host :=
  match st.childPid with
  | none => st.host
  | some pid => { st.host with procs := st.host.procs.filter fun p => decide (p.pid ≠ pid) }

/-- The network part; its results are only logged. -/
def dropNetwork (env : Env) (name ip : Text) (h : Host) : Host :=
  if ip = [] then h
  else
    let h := (unsetContainerPortMap env ip h).1
    let h := (disconnectContainer env name h).1
    (releaseUsedIpText env .networkRelease TINYDOCKER_DEFAULT_NETWORK_NAME ip h).1

/-- The volumes, then the overlay; the flag says that no unmount was refused. -/
def umountAll (env : Env) (name : Text) (volumes : List VolumeConfig) (h : Host) : Host × Bool :=
  let v := umountVolumes env name volumes h
  let r := umount env .rootUmount (.ok (mountpointDir name)) v.1
  (r.1, v.2 && r.2)

/-- The workspace goes unless an unmount was refused. -/
def removeWorkspace (env : Env) (name : Text) (mountsClean : Bool) (h : Host) : Host × Bool :=
  if mountsClean then removeDir env name h else (h, false)

/-- The mounts, if the mountpoint was set. -/
def dropMounts (env : Env) (args : RunArguments) (mountpointSet : Bool) (h : Host) : Host × Bool :=
  if mountpointSet then umountAll env args.name args.volumes h else (h, true)

/-- `cgroup_cleanup`. -/
def cgroupCleanup (env : Env) (name : Text) (created : Bool) (h : Host) : Host :=
  if created then (rmdirCgroup env .cgroupRmdir name h).1 else h

def cleanupRunFailure (env : Env) (args : RunArguments) (st : RunState) : Host :=
  let h := dropNetwork env args.name st.ipAddr (killChild st)
  let m := dropMounts env args st.mountpointSet h
  let h := (removeWorkspace env args.name m.2 m.1).1
  let h := cgroupCleanup env args.name st.cgroupCreated h
  if m.2 then (removeStatusInfo env args.name h).1 else h

/-- `docker_run` up to the point where it returns or waits for its child. -/
def dockerRun (env : Env) (args : RunArguments) (h : Host) : Host × Int :=
  if containerExists args.name h then (h, -1)
  else if env.fails .mountpointAlloc then (h, -1)
  else match runAll (runStages env args) (RunState.start h) with
    | .ok st => (st.host, 0)
    | .error st => (cleanupRunFailure env args st, -1)

/-- The child of a foreground `docker run` has ended: `waitpid` returns and the status is
written by name. -/
def reapForeground (env : Env) (name : Text) (pid start : Nat) (h : Host) : Host :=
  (updateContainerStatus env name .exited
    { h with procs := h.procs.filter fun p => decide (¬ (p.pid = pid ∧ p.start = start)) }).1

/-! ## `docker stop` -/

/-- `container_process_count` with room for 1024 pids. -/
def containerProcessCount (env : Env) (site : Site) (name : Text) (h : Host) : Int :=
  if name ∉ h.cgroups then 0
  else if env.fails site ∨ 1024 < (cgroupProcs name h).length then -1
  else (cgroupProcs name h).length

/-- The processes that end before poll `k`. -/
def elapse (env : Env) (k : Nat) (h : Host) : Host :=
  { h with procs := h.procs.map fun p => if env.dies k p.pid then { p with zombie := true } else p }

/-- Sleep and count while the count is positive, at most `n` times; `k` numbers the polls. -/
def pollUntilEmpty (env : Env) (name : Text) : Nat → Nat → Int → Host → Host × Int
  | 0, _, count, h => (h, count)
  | n + 1, k, count, h =>
    if 0 < count then
      let h := elapse env k h
      pollUntilEmpty env name n (k + 1) (containerProcessCount env (.countProcs k) name h) h
    else (h, count)

/-- The result of `signal_container_processes`; its effect is that processes may end. -/
def signalContainerProcesses (env : Env) (k : Nat) (name : Text) (h : Host) : Bool :=
  decide (0 ≤ containerProcessCount env (.signalCount k) name h) && !env.fails (.signal k)

/-- One container of `docker_stop`: `SIGTERM`, polls, `SIGKILL` if needed, polls, and the status. -/
def stopContainer (env : Env) (time : Nat) (name : Text) (h : Host) : Host × Bool :=
  match h.info name with
  | none => (h, false)
  | some info =>
    match refreshContainerStatusIfNeeded env name info h with
    | (h, none) => (h, false)
    | (h, some info) =>
      if info.status ≠ .running then (h, true)
      else if signalContainerProcesses env 0 name h = false then (h, false)
      else
        let h := elapse env 0 h
        let p := pollUntilEmpty env name (time * 10) 1
          (containerProcessCount env (.countProcs 0) name h) h
        if 0 < p.2 ∧ signalContainerProcesses env 1 name p.1 = false then (p.1, false)
        else
          let q := if 0 < p.2 then pollUntilEmpty env name 20 (time * 10 + 1) p.2 p.1 else p
          if q.2 ≠ 0 then (q.1, false) else updateContainerStatus env name .stopped q.1

def dockerStop (time : Nat) : List (Text × Env) → Host → Host × Bool
  | [], h => (h, true)
  | (name, env) :: rest, h =>
    let this := stopContainer env time name h
    let others := dockerStop time rest this.1
    (others.1, this.2 && others.2)

/-! ## `docker rm` -/

/-- Whether the process a record names is alive. -/
def initAlive (info : ContainerInfo) (h : Host) : Bool :=
  h.procs.any fun p => decide (p.pid = info.pid ∧ p.start = info.pidStartTime) && !p.zombie

/-- The network part of `clean_container_runtime`: the first failure skips the rest. -/
def cleanNetwork (env : Env) (name ip : Text) (h : Host) : Host × Bool :=
  if ip = [] then (h, true)
  else
    let u := unsetContainerPortMap env ip h
    if u.2 = false then (u.1, false)
    else
      let d := disconnectContainer env name u.1
      if d.2 = false then (d.1, false)
      else releaseUsedIpText env .networkRelease TINYDOCKER_DEFAULT_NETWORK_NAME ip d.1

def cleanContainerRuntime (env : Env) (name : Text) (info : ContainerInfo) (h : Host) : Host × Bool :=
  let volumes := info.volumes.map parseVolumeConfig
  if (volumes ≠ [] ∧ env.fails .volumeAlloc) ∨ volumes.any (fun v => decide (v.ro < 0)) then (h, false)
  else
    let m := umountAll env name volumes h
    let n := cleanNetwork env name info.ipAddr m.1
    let d := removeWorkspace env name m.2 n.1
    let c := rmdirCgroup env .cgroupRmdir name d.1
    if m.2 && n.2 && d.2 && c.2 then removeStatusInfo env name c.1 else (c.1, false)

/-- What `clean_container_runtime` does: nothing, or its four steps and then, if they all succeeded,
the metadata. -/
theorem cleanContainerRuntime_cases (env : Env) (name : Text) (info : ContainerInfo) (h : Host) :
    cleanContainerRuntime env name info h = (h, false) ∨ ∃ m n d c,
      m = umountAll env name (info.volumes.map parseVolumeConfig) h ∧
      n = cleanNetwork env name info.ipAddr m.1 ∧ d = removeWorkspace env name m.2 n.1 ∧
      c = rmdirCgroup env .cgroupRmdir name d.1 ∧
      (cleanContainerRuntime env name info h = (c.1, false) ∨
        (m.2 = true ∧ n.2 = true ∧ d.2 = true ∧ c.2 = true ∧
          cleanContainerRuntime env name info h = removeStatusInfo env name c.1)) := by
  unfold cleanContainerRuntime
  simp only
  split
  · exact Or.inl rfl
  refine Or.inr ⟨_, _, _, _, rfl, rfl, rfl, rfl, ?_⟩
  split
  · rename_i hall
    simp only [Bool.and_eq_true] at hall
    exact Or.inr ⟨hall.1.1.1, hall.1.1.2, hall.1.2, hall.2, rfl⟩
  · exact Or.inl rfl

/-- One container of `docker_rm`. -/
def rmContainer (env : Env) (name : Text) (h : Host) : Host × Bool :=
  if containerExists name h = false then (h, true)
  else match h.info name with
    | none => (h, false)
    | some info =>
      match refreshContainerStatusIfNeeded env name info h with
      | (h, none) => (h, false)
      | (h, some info) =>
        if info.status = .running then (h, false)
        else cleanContainerRuntime env name info (h.record (.teardown name (initAlive info h)))

/-- What `docker_rm` does to one container: nothing, a refresh, or a refresh and the teardown. -/
theorem rmContainer_cases (env : Env) (name : Text) (h : Host) :
    (rmContainer env name h).1 = h ∨ ∃ i h' o, h.info name = some i ∧
      refreshContainerStatusIfNeeded env name i h = (h', o) ∧
      ((rmContainer env name h).1 = h' ∨ ∃ j, o = some j ∧ j.status ≠ .running ∧
        rmContainer env name h =
          cleanContainerRuntime env name j (h'.record (.teardown name (initAlive j h')))) := by
  unfold rmContainer
  split
  · exact Or.inl rfl
  split
  · exact Or.inl rfl
  rename_i i hi
  split
  · rename_i h' he
    exact Or.inr ⟨i, h', none, hi, he, Or.inl rfl⟩
  rename_i h' j he
  split
  · exact Or.inr ⟨i, h', some j, hi, he, Or.inl rfl⟩
  · rename_i hs
    exact Or.inr ⟨i, h', some j, hi, he, Or.inr ⟨j, rfl, hs, rfl⟩⟩

def dockerRm : List (Text × Env) → Host → Host × Bool
  | [], h => (h, true)
  | (name, env) :: rest, h =>
    let this := rmContainer env name h
    let others := dockerRm rest this.1
    (others.1, this.2 && others.2)

end TinyDocker
