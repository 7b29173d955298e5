import TinyDocker.Lib.MountStack
import TinyDocker.Docker.NetworkRecords
import TinyDocker.Docker.StatusInfo

/-!
# The host state

What the commands of `docker/` act on: the mount namespace, the workspaces below the runtime
directory, the cgroup directories, the metadata files, the networks file, the two nat chains, the
interfaces and the processes.

The runtime directory is kept apart from the mount namespace: `workspace name` says whether
`containers/NAME` exists, and only the commands below mount anything at or below it.  Metadata files
stand here for the records they decode to.  The networks file is kept as the records that were written
to it: `loadNetworks` reads the text that was written for them, and need not succeed.

`Env` is what the outside decides during one command: which calls fail, which errno a refused
`umount` reports, which pid `clone` returns.  Calls are named by `Site`, one for each place in the
source, with the loop index where there is one.
-/

set_option autoImplicit false

namespace TinyDocker

open CText MountSpace

inductive Chain where
  | output
  | prerouting
  deriving DecidableEq, Repr

/-- A call that may fail. -/
inductive Site where
  -- `docker_run` up to `process.release`
  | mountpointAlloc
  | layerAlloc
  | makeContainerDir
  | makeUpper
  | makeMountpoint
  | makeWork
  | overlayData
  | overlayMount
  | sourceStat (i : Nat)
  | sourceResolve (i : Nat)
  | openRoot (i : Nat)
  | makeTarget (i k : Nat)
  | openTarget (i k : Nat)
  | bindMount (i : Nat)
  | remountReadOnly (i : Nat)
  | cgroupMkdir
  | memoryMax
  | cpuMax
  | pipe
  | clone
  | cgroupProcs
  | networkWrite
  | readProcs
  | vethAdd
  | vethIndex
  | vethAlias
  | vethCommand (k : Nat)
  | natAppend (chain : Chain) (i : Nat)
  | startTime
  | writeInfo
  | releaseWrite
  -- local rollbacks
  | remountUmount (i : Nat)
  | rollbackUmount (i : Nat)
  | cgroupRollback
  | vethRollback
  | connectRelease
  | natRollback (i : Nat)
  -- `cleanup_run_failure` and `clean_container_runtime`
  | natList (chain : Chain)
  | natDelete (chain : Chain) (i : Nat)
  | aliasRead
  | bridgeRemove
  | vethDelete
  | networkRelease
  | volumeAlloc
  | volumeUmount (i : Nat)
  | rootUmount
  | removeTree
  | cgroupRmdir
  | unlinkInfo
  -- status updates and `docker_stop`
  | procStat
  | signal (k : Nat)
  | signalCount (k : Nat)
  | countProcs (k : Nat)
  deriving DecidableEq, Repr

/-- The calls that undo something. -/
def Site.isCleanup : Site → Bool
  | .remountUmount _ | .rollbackUmount _ | .cgroupRollback | .vethRollback | .connectRelease
  | .natRollback _ | .natList _ | .natDelete _ _ | .aliasRead | .bridgeRemove | .vethDelete
  | .networkRelease | .volumeUmount _ | .rootUmount | .removeTree | .cgroupRmdir | .unlinkInfo => true
  | _ => false

structure Env where
  fails : Site → Bool
  umountErrno : Site → Option Errno
  /-- The directory `create_readonly_layer` finds or extracts for the image. -/
  readonlyDir : Option Path
  pid : Nat
  timestamp : Int
  created : Text
  /-- Process `pid` ends before the `k`th poll of `docker_stop`. -/
  dies : Nat → Nat → Bool

/-- An environment in which nothing fails. -/
def Env.quiet (readonlyDir : Path) (pid : Nat) : Env :=
  ⟨fun _ => false, fun _ => none, some readonlyDir, pid, 0, "1970-01-01 00:00:00".toList,
    fun _ _ => false⟩

/-- An nat rule as `iptables -S` prints it after `-A CHAIN`; `plain` if no word needs quotes, so
that the printed words are the arguments `-D` wants. -/
structure Rule where
  words : List Text
  plain : Bool
  deriving DecidableEq, Repr

/-- An interface of the host namespace; `ifalias` is what `read_interface_alias` returns, and `peer` the
other end of a veth pair, if that end is in the host namespace too. -/
structure Link where
  name : Text
  index : Nat
  ifalias : Text
  peer : Option Text
  master : Option Text
  deriving DecidableEq, Repr

/-- A process; a zombie is dead and not yet reaped. -/
structure Proc where
  pid : Nat
  start : Nat
  cgroup : Option Text
  zombie : Bool
  deriving DecidableEq, Repr

/-- What the log keeps of a call. -/
inductive Call where
  | umount (site : Site) (errno : Option Errno)
  | removeDir (name : Text) (mountsBelow : List Mount)
  | teardown (name : Text) (initAlive : Bool)
  deriving DecidableEq, Repr

structure Host where
  space : Space
  workspace : Text → Bool
  cgroups : List Text
  info : Text → Option ContainerInfo
  /-- The records last written to the networks file. -/
  networks : List NetworkRecord
  nat : Chain → List Rule
  links : List Link
  nextIndex : Nat
  procs : List Proc
  clock : Nat
  log : List Call

def TINYDOCKER_RUNTIME_DIR : Text := "/home/xanarry/tinydocker_runtime".toList
def TINYDOCKER_DEFAULT_NETWORK_NAME : Text := "tinydocker-0".toList

/-- `containers/NAME` below the runtime directory. -/
def containerDir (name : Text) : Path :=
  [ "home".toList, "xanarry".toList, "tinydocker_runtime".toList, "containers".toList, name]

def mountpointDir (name : Text) : Path := containerDir name ++ ["mountpoint".toList]

/-- The text of the mountpoint, whose length counts against the path buffers. -/
def mountpointText (name : Text) : Text :=
  TINYDOCKER_RUNTIME_DIR ++ ("/containers/".toList ++ (name ++ "/mountpoint".toList))

/-! ## Unmounting and removing -/

def Host.record (h : Host) (c : Call) : Host := { h with log := h.log ++ [c] }

def Host.setTable (h : Host) (table : List Mount) : Host :=
  { h with space := { h.space with table := table } }

/-- `umount` of a path that leads to `target`.  Any errno can be forced on it, wherever the path leads: the
kernel may refuse the path itself (`ENAMETOOLONG`, `EACCES`). -/
def umountResolved (env : Env) (site : Site) (target : Except Errno Path) (h : Host) :
    Except Errno (List Mount) :=
  match env.umountErrno site with
  | some e => .error e
  | none =>
    match target with
    | .error e => .error e
    | .ok p => umountAt h.space.table p

/-- `umount` with its errno in the log; the flag says that the caller takes it as done:
it succeeded, or nothing was mounted (`EINVAL`), or the path does not exist (`ENOENT`). -/
def umount (env : Env) (site : Site) (target : Except Errno Path) (h : Host) : Host × Bool :=
  match umountResolved env site target h with
  | .ok table => ((h.setTable table).record (.umount site none), true)
  | .error e => (h.record (.umount site (some e)), decide (e = .EINVAL ∨ e = .ENOENT))

/-- Where a volume path below the mountpoint leads, links followed.  The bare mountpoint directory
is empty: only `make_path` creates it. -/
def resolveTarget (h : Host) (name : Text) (path : Path) : Except Errno Path :=
  if mountedAt h.space.table (mountpointDir name) then h.space.resolve (mountpointDir name) path
  else if path = [] then .ok (mountpointDir name) else .error .ENOENT

/-- The mounts at or below a container directory. -/
def mountsBelow (name : Text) (table : List Mount) : List Mount := below (containerDir name) table

/-- `remove_dir(container_dir)`.  It crosses mount points, and cannot remove a directory on which
something is mounted. -/
def removeDir (env : Env) (name : Text) (h : Host) : Host × Bool :=
  let h' := h.record (.removeDir name (mountsBelow name h.space.table))
  if h.workspace name = false then (h', true)
  else if env.fails .removeTree ∨ mountsBelow name h.space.table ≠ [] then (h', false)
  else ({ h' with workspace := Function.update h.workspace name false }, true)

/-! ## Metadata files -/

/-- Writing or removing one metadata file. -/
def Host.setInfo (h : Host) (name : Text) (o : Option ContainerInfo) : Host :=
  { h with info := Function.update h.info name o }

@[simp] theorem Host.setInfo_self (h : Host) (name : Text) (o : Option ContainerInfo) :
    (h.setInfo name o).info name = o := Function.update_self ..

theorem Host.setInfo_of_ne (h : Host) {name n : Text} (hn : n ≠ name) (o : Option ContainerInfo) :
    (h.setInfo name o).info n = h.info n := Function.update_of_ne hn ..

/-- `write_container_info` with the checks of `td_write_container_info`. -/
def writeContainerInfo (env : Env) (name : Text) (info : ContainerInfo) (h : Host) : Host × Bool :=
  if tdValidateName name TINYDOCKER_MAX_CONTAINER_NAME ≠ .ok () ∨ name ≠ info.name then (h, false)
  else if info.pid = 0 ∨ MAX_RECORDED_VOLUMES < info.volumes.length ∨
      containsRecordSeparator info.image ∨ containsRecordSeparator info.command ∨
      containsRecordSeparator info.name ∨ info.volumes.any containsRecordSeparator then (h, false)
  else if env.fails .writeInfo then (h, false)
  else (h.setInfo name (some info), true)

/-- `update_container_status`. -/
def updateContainerStatus (env : Env) (name : Text) (status : ContainerStatus) (h : Host) :
    Host × Bool :=
  match h.info name with
  | none => (h, false)
  | some info => writeContainerInfo env name { info with status := status } h

/-- `read_process_start_time`: `/proc` still shows a zombie. -/
def readProcessStartTime (pid : Nat) (h : Host) : Option Nat :=
  (h.procs.find? fun p => decide (p.pid = pid)).map (·.start)

/-- `refresh_container_status_if_needed` on freshly read metadata: the record the caller goes on
with, or `none` for a negative result. -/
def refreshContainerStatusIfNeeded (env : Env) (name : Text) (info : ContainerInfo) (h : Host) :
    Host × Option ContainerInfo :=
  if info.status ≠ .running ∨ info.pid = 0 then (h, some info)
  else if env.fails .procStat then (h, none)
  else
    let gone := (writeContainerInfo env name { info with status := .exited } h)
    match readProcessStartTime info.pid h with
    | some start =>
      -- metadata without a start time, or the same process
      if info.pidStartTime = 0 ∨ start = info.pidStartTime then (h, some info)
      else (gone.1, if gone.2 then some { info with status := .exited } else none)
    | none => (gone.1, if gone.2 then some { info with status := .exited } else none)

/-- `remove_status_info`. -/
def removeStatusInfo (env : Env) (name : Text) (h : Host) : Host × Bool :=
  if h.info name = none then (h, true)
  else if env.fails .unlinkInfo then (h, false)
  else (h.setInfo name none, true)

/-! ## The networks file -/

/-- `load_network_records`. -/
def loadNetworks (h : Host) : Option (List NetworkRecord) := rereadNetworkRecords h.networks

/-- What is loaded is what was last written, and it is loaded if the records are such as the loader returns. -/
theorem loadNetworks_eq_some {h : Host} {records : List NetworkRecord} :
    loadNetworks h = some records ↔ records = h.networks ∧ StoreOk h.networks :=
  rereadNetworkRecords_eq_some

theorem loadNetworks_bind {α : Type} {h : Host} {f : List NetworkRecord → Option α} {x : α} :
    (loadNetworks h).bind f = some x ↔ StoreOk h.networks ∧ f h.networks = some x := by
  rw [Option.bind_eq_some_iff]
  constructor
  · rintro ⟨records, hload, hf⟩
    obtain ⟨rfl, hstore⟩ := loadNetworks_eq_some.1 hload
    exact ⟨hstore, hf⟩
  · rintro ⟨hstore, hf⟩
    exact ⟨_, loadNetworks_eq_some.2 ⟨rfl, hstore⟩, hf⟩

theorem loadNetworks_of_store {h : Host} (hstore : StoreOk h.networks) : loadNetworks h = some h.networks :=
  loadNetworks_eq_some.2 ⟨rfl, hstore⟩

/-! ## Cgroup directories -/

/-- The live processes of a container's cgroup. -/
def cgroupProcs (name : Text) (h : Host) : List Proc :=
  h.procs.filter fun p => decide (p.cgroup = some name) && !p.zombie

/-- `rmdir` of a container's cgroup: absent is fine, a populated one cannot be removed. -/
def rmdirCgroup (env : Env) (site : Site) (name : Text) (h : Host) : Host × Bool :=
  if name ∉ h.cgroups then (h, true)
  else if env.fails site ∨ cgroupProcs name h ≠ [] then (h, false)
  else ({ h with cgroups := h.cgroups.erase name }, true)

/-- A live process in a container's cgroup keeps that cgroup in place. -/
def Homes (h : Host) : Prop :=
  ∀ p ∈ h.procs, p.zombie = false → ∀ n, p.cgroup = some n → n ∈ h.cgroups

/-- `container_exists`; an invalid name counts as existing. -/
def containerExists (name : Text) (h : Host) : Bool :=
  decide (tdValidateName name TINYDOCKER_MAX_CONTAINER_NAME ≠ .ok ()) ||
    (h.cgroups.contains name || (h.info name).isSome || h.workspace name)

end TinyDocker
