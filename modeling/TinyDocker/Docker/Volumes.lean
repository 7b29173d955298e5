import TinyDocker.Docker.Host

/-!
# Volumes and the workspace (`docker/volumes.c`, `docker/workspace.c`)

`mountVolumes` binds the host directories below the mountpoint of a container, one after the other,
and rolls back on failure; `umountVolumes` unmounts a volume list by its recomputed paths, last
volume first.
-/

set_option autoImplicit false

namespace TinyDocker

open CText MountSpace

/-- The components of the container path of a volume. -/
def VolumeConfig.path (v : VolumeConfig) : Path := components v.container

/-- Whether the joined target path fits the 1024-byte buffers. -/
def targetFits (name : Text) (v : VolumeConfig) : Bool :=
  match tdJoinRootfsPath (mountpointText name) v.container 1024 with
  | .ok _ => true
  | .error _ => false

/-- One round of `umount_volumes` and of the rollback of `mount_volumes`. -/
def umountTarget (env : Env) (site : Site) (name : Text) (v : VolumeConfig) (h : Host) : Host × Bool :=
  if targetFits name v then umount env site (resolveTarget h name v.path) h else (h, false)

/-- The volumes from the last to the first; `i` is the index of the head. -/
def umountEach (env : Env) (site : Nat → Site) (name : Text) :
    Nat → List VolumeConfig → Host → Host × Bool
  | _, [], h => (h, true)
  | i, v :: vs, h =>
    let later := umountEach env site name (i + 1) vs h
    let this := umountTarget env (site i) name v later.1
    (this.1, later.2 && this.2)

def umountVolumes (env : Env) (name : Text) (volumes : List VolumeConfig) (h : Host) : Host × Bool :=
  umountEach env .volumeUmount name 0 volumes h

/-- The first loop of `mount_volumes`: every source is an existing directory. -/
def sourcesExist (env : Env) (h : Host) : Nat → List VolumeConfig → Bool
  | _, [] => true
  | i, v :: vs =>
    !env.fails (.sourceStat i) && decide (v.host.head? = some '/') &&
      (match h.space.resolve [] (components v.host) with
        | .ok src => decide (h.space.look src = some .dir)
        | .error _ => false) && sourcesExist env h (i + 1) vs

/-- `td_ensure_directory_beneath` on the mountpoint. -/
def ensureTarget (env : Env) (i : Nat) (name : Text) (v : VolumeConfig) (h : Host) : Host × Bool :=
  if targetFits name v = false ∨ env.fails (.openRoot i) then (h, false)
  else
    let r := ensureDirs (fun k => env.fails (.makeTarget i k)) (fun k => env.fails (.openTarget i k)) 0
      h.space (mountpointDir name) v.path
    ({ h with space := r.1 }, r.2)

/-- One volume: resolve the source, create the target, bind, remount read-only. -/
def mountVolume (env : Env) (i : Nat) (name : Text) (v : VolumeConfig) (h : Host) : Host × Bool :=
  match if env.fails (.sourceResolve i) then .error .EOTHER
      else h.space.resolve [] (components v.host) with
  | .error _ => (h, false)
  | .ok src =>
    match ensureTarget env i name v h with
    | (h₁, false) => (h₁, false)
    | (h₁, true) =>
      if env.fails (.bindMount i) then (h₁, false)
      else
        let h₂ := { h₁ with space := h₁.space.bind src (mountpointDir name ++ v.path) }
        if v.ro = 1 ∧ env.fails (.remountReadOnly i) then
          ((umount env (.remountUmount i) (resolveTarget h₂ name v.path) h₂).1, false)
        else (h₂, true)

/-- The second loop; `mounted` are the volumes already in place. -/
def mountEach (env : Env) (name : Text) :
    List VolumeConfig → List VolumeConfig → Host → Host × Bool
  | _, [], h => (h, true)
  | mounted, v :: vs, h =>
    match mountVolume env mounted.length name v h with
    | (h₁, true) => mountEach env name (mounted ++ [v]) vs h₁
    | (h₁, false) => ((umountEach env .rollbackUmount name 0 mounted h₁).1, false)

def mountVolumes (env : Env) (name : Text) (volumes : List VolumeConfig) (h : Host) : Host × Bool :=
  if sourcesExist env h 0 volumes then mountEach env name [] volumes h else (h, false)

end TinyDocker
