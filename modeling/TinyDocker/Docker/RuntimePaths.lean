import TinyDocker.Docker.Cgroup
import TinyDocker.Docker.Host
import TinyDocker.Core.Fs

/-!
# The paths of a container (`td_build_named_path` in `core/safety.c` and its callers)

The paths of a container are texts with its name in them: the runtime directory and what is below it
(`docker/container.c`, `docker/workspace.c`), the metadata file (`docker/status_info.c`), the log (`child_fn`),
the cgroup (`docker/cgroup.c`).

Principal results:

* `runtime_paths` — for a valid name none of these texts is cut or refused, and each leads to the directory
  that the system model works on;
* `container_paths_disjoint` — no path of a container is at or below one of another container.
-/

set_option autoImplicit false

namespace TinyDocker

open CText MountSpace

/-- `td_build_named_path`. -/
def tdBuildNamedPath (base directory name : Text) (outputSize : Nat) : Except String Text :=
  if base.head? ≠ some '/' ∨ directory = [] ∨ '/' ∈ directory ∨ outputSize = 0 then
    .error "invalid runtime path arguments"
  else match tdValidateName name 127 with
    | .error e => .error e
    | .ok () =>
      let output := base ++ ((if base.getLast? = some '/' then [] else ['/']) ++ (directory ++ '/' :: name))
      if outputSize ≤ output.length then .error "runtime path is too long" else .ok output

/-- `snprintf` of `%s/NAME` behind a path into a buffer of that size. -/
def pathBelow (path name : Text) (size : Nat) : Option Text :=
  if size ≤ (path ++ '/' :: name).length then none else some (path ++ '/' :: name)

/-- `build_container_runtime_paths` into buffers of `PATH_MAX` bytes: the runtime directory, the mountpoint and
the metadata file. -/
def buildContainerRuntimePaths (name : Text) : Option (Text × Text × Text) :=
  match tdBuildNamedPath TINYDOCKER_RUNTIME_DIR "containers".toList name Cgroup.PATH_MAX,
      tdBuildNamedPath TINYDOCKER_RUNTIME_DIR "container_info".toList name Cgroup.PATH_MAX with
  | .ok dir, .ok status =>
    match pathBelow dir "mountpoint".toList Cgroup.PATH_MAX with
    | none => none
    | some mountpoint => some (dir, mountpoint, status)
  | _, _ => none

/-- A layer of `docker/workspace.c`: `upperdir`, `workdir` or `mountpoint` in the runtime directory. -/
def workspacePath (name layer : Text) : Option Text :=
  match tdBuildNamedPath TINYDOCKER_RUNTIME_DIR "containers".toList name Cgroup.PATH_MAX with
  | .error _ => none
  | .ok dir => pathBelow dir layer Cgroup.PATH_MAX

/-- `CONTAINER_STATUS_INFO_DIR`. -/
def CONTAINER_STATUS_INFO_DIR : Text := TINYDOCKER_RUNTIME_DIR ++ "/container_info".toList

def CONTAINER_LOG_DIR : Text := TINYDOCKER_RUNTIME_DIR ++ "/logs".toList

/-- The log of a detached container, in `child_fn`. -/
def containerLogPath (name : Text) : Option Text := pathBelow CONTAINER_LOG_DIR name Cgroup.PATH_MAX

/-- The texts of `docker_commit`, written with `sprintf` into buffers of 512 bytes: the mountpoint, and the
archive when no path is given. -/
def commitMountpoint (name : Text) : Text :=
  TINYDOCKER_RUNTIME_DIR ++ ("/containers/".toList ++ (name ++ "/mountpoint".toList))

def commitTarPath (name : Text) : Text := name ++ ".tar".toList

/-- The paths of a container: its directories, mountpoint and metadata file, its overlay layers, its log and its
cgroup.  The temporary name of the metadata file and the control files of the cgroup are not among them. -/
def containerPaths (name : Text) : List (Option Text) :=
  [(buildContainerRuntimePaths name).map (·.1), (buildContainerRuntimePaths name).map (·.2.1),
    (buildContainerRuntimePaths name).map (·.2.2), workspacePath name "upperdir".toList,
    workspacePath name "workdir".toList, workspacePath name "mountpoint".toList, containerLogPath name,
    Cgroup.getContainerCgroupPath name Cgroup.PATH_MAX]

/-! ## Building a path -/

section

variable {base directory name output : Text} {size : Nat}

/-- A valid name is one component. -/
theorem components_name (h : tdValidateName name 127 = .ok ()) : components name = [name] := by
  obtain ⟨hne, -, hchars⟩ := tdValidateName_ok h
  have hslash := not_mem_of_nameChar hchars (c := '/') (by decide)
  refine tokens_word hne fun c hc => ?_
  rw [beq_eq_false_iff_ne]
  rintro rfl
  exact hslash hc

theorem components_word (hne : directory ≠ []) (hslash : '/' ∉ directory) : components directory = [directory] := by
  refine tokens_word hne fun c hc => ?_
  rw [beq_eq_false_iff_ne]
  rintro rfl
  exact hslash hc

/-- A valid name is never refused below the runtime directory. -/
theorem tdBuildNamedPath_runtime (hname : tdValidateName name 127 = .ok ()) (hne : directory ≠ [])
    (hslash : '/' ∉ directory) (hlen : directory.length ≤ 14) :
    ∃ output, tdBuildNamedPath TINYDOCKER_RUNTIME_DIR directory name Cgroup.PATH_MAX = .ok output ∧
      output = TINYDOCKER_RUNTIME_DIR ++ '/' :: (directory ++ '/' :: name) := by
  have hbase : TINYDOCKER_RUNTIME_DIR.length = 32 := by decide
  have hargs : ¬ (TINYDOCKER_RUNTIME_DIR.head? ≠ some '/' ∨ directory = [] ∨ '/' ∈ directory ∨
      Cgroup.PATH_MAX = 0) := by
    simp only [hne, hslash, false_or, not_or]
    exact ⟨by decide, by decide⟩
  have hlast : TINYDOCKER_RUNTIME_DIR.getLast? ≠ some '/' := by decide
  have hbound := (tdValidateName_ok hname).2.1
  refine ⟨_, ?_, rfl⟩
  unfold tdBuildNamedPath
  rw [if_neg hargs, hname]
  simp only [if_neg hlast, List.singleton_append]
  rw [if_neg]
  simp only [List.length_append, List.length_cons, hbase, Cgroup.PATH_MAX]
  omega

theorem components_runtime :
    components TINYDOCKER_RUNTIME_DIR = [ "home".toList, "xanarry".toList, "tinydocker_runtime".toList] := by
  decide +kernel

theorem pathBelow_fits {path : Text} (h : path.length + (name.length + 1) < size) :
    pathBelow path name size = some (path ++ '/' :: name) := by
  unfold pathBelow
  rw [if_neg]
  rw [List.length_append, List.length_cons]
  omega

end

/-! ## What the paths of a container are -/

section

variable {name : Text}

theorem runtime_dir_text (hname : tdValidateName name 127 = .ok ()) :
    buildContainerRuntimePaths name = some (TINYDOCKER_RUNTIME_DIR ++ '/' :: ("containers".toList ++ '/' :: name),
      TINYDOCKER_RUNTIME_DIR ++ '/' :: ("containers".toList ++ '/' :: name) ++ '/' :: "mountpoint".toList,
      TINYDOCKER_RUNTIME_DIR ++ '/' :: ("container_info".toList ++ '/' :: name)) := by
  obtain ⟨dir, hdir, rfl⟩ :=
    tdBuildNamedPath_runtime hname (show "containers".toList ≠ [] by decide) (by decide) (by decide)
  obtain ⟨status, hstatus, rfl⟩ :=
    tdBuildNamedPath_runtime hname (show "container_info".toList ≠ [] by decide) (by decide) (by decide)
  have hbound := (tdValidateName_ok hname).2.1
  have hbase : TINYDOCKER_RUNTIME_DIR.length = 32 := by decide
  have hwords : "containers".toList.length = 10 ∧ "mountpoint".toList.length = 10 := by decide
  unfold buildContainerRuntimePaths
  rw [hdir, hstatus]
  simp only
  rw [pathBelow_fits]
  simp only [List.length_append, List.length_cons, hbase, hwords, Cgroup.PATH_MAX]
  omega

theorem workspacePath_text (hname : tdValidateName name 127 = .ok ()) {layer : Text} (hlayer : layer.length ≤ 10) :
    workspacePath name layer =
      some (TINYDOCKER_RUNTIME_DIR ++ '/' :: ("containers".toList ++ '/' :: name) ++ '/' :: layer) := by
  obtain ⟨dir, hdir, rfl⟩ :=
    tdBuildNamedPath_runtime hname (show "containers".toList ≠ [] by decide) (by decide) (by decide)
  have hbound := (tdValidateName_ok hname).2.1
  have hbase : TINYDOCKER_RUNTIME_DIR.length = 32 := by decide
  have hwords : "containers".toList.length = 10 := by decide
  unfold workspacePath
  rw [hdir]
  simp only
  rw [pathBelow_fits]
  simp only [List.length_append, List.length_cons, hbase, hwords, Cgroup.PATH_MAX]
  omega

theorem components_containerDir (hname : tdValidateName name 127 = .ok ()) :
    components (TINYDOCKER_RUNTIME_DIR ++ '/' :: ("containers".toList ++ '/' :: name)) = containerDir name := by
  rw [components_append_slash, components_append_slash, components_runtime, components_name hname,
    components_word (by decide) (by decide)]
  rfl

/-- Where each path of a container leads: the directory that has an entry for it, and what follows. -/
def placesOf (name : Text) : List (Path × Text) :=
  [([ "home".toList, "xanarry".toList, "tinydocker_runtime".toList, "containers".toList], name),
    ([ "home".toList, "xanarry".toList, "tinydocker_runtime".toList, "container_info".toList], name),
    ([ "home".toList, "xanarry".toList, "tinydocker_runtime".toList, "logs".toList], name),
    ([ "sys".toList, "fs".toList, "cgroup".toList, "system.slice".toList], "tinydocker-".toList ++ name)]

/-- The path lies in one of the places of the container. -/
def Belongs (name : Text) (path : Text) : Prop :=
  ∃ place ∈ placesOf name, place.1 ++ [place.2] <+: components path

theorem mountpointText_eq (name : Text) :
    TINYDOCKER_RUNTIME_DIR ++ '/' :: ("containers".toList ++ '/' :: name) ++ '/' :: "mountpoint".toList =
      mountpointText name := by
  have hcontainers : "/containers/".toList = '/' :: ("containers".toList ++ ['/']) := by decide
  have hmountpoint : "/mountpoint".toList = '/' :: "mountpoint".toList := by decide
  rw [mountpointText, hcontainers, hmountpoint]
  simp only [List.append_assoc, List.cons_append, List.nil_append]

theorem components_mountpointText (hname : tdValidateName name 127 = .ok ()) :
    components (mountpointText name) = mountpointDir name := by
  rw [← mountpointText_eq, components_append_slash, components_containerDir hname,
    components_word (by decide) (by decide)]
  rfl

/-- The runtime directory and everything below it. -/
theorem belongs_containerDir {path : Text} {rest : Path} (h : components path = containerDir name ++ rest) :
    Belongs name path :=
  ⟨_, List.mem_cons_self, h ▸ List.prefix_append (containerDir name) rest⟩

theorem belongs_workspace (hname : tdValidateName name 127 = .ok ()) {layer : Text} (hne : layer ≠ [])
    (hslash : '/' ∉ layer) (hlen : layer.length ≤ 10) :
    ∃ path, workspacePath name layer = some path ∧ Belongs name path := by
  refine ⟨_, workspacePath_text hname hlen, @belongs_containerDir name _ [layer] ?_⟩
  rw [components_append_slash, components_containerDir hname, components_word hne hslash]

theorem belongs_status (hname : tdValidateName name 127 = .ok ()) :
    Belongs name (TINYDOCKER_RUNTIME_DIR ++ '/' :: ("container_info".toList ++ '/' :: name)) := by
  refine ⟨_, List.mem_cons_of_mem _ List.mem_cons_self, ?_⟩
  rw [components_append_slash, components_append_slash, components_runtime, components_name hname,
    components_word (by decide) (by decide)]
  exact List.prefix_refl _

theorem belongs_log (hname : tdValidateName name 127 = .ok ()) :
    ∃ path, containerLogPath name = some path ∧ Belongs name path := by
  have hbound := (tdValidateName_ok hname).2.1
  have hdir : components CONTAINER_LOG_DIR = [ "home".toList, "xanarry".toList, "tinydocker_runtime".toList,
      "logs".toList] := by decide +kernel
  have hlen : CONTAINER_LOG_DIR.length = 37 := by decide
  refine ⟨_, pathBelow_fits (by rw [hlen, Cgroup.PATH_MAX]; omega),
    _, List.mem_cons_of_mem _ (List.mem_cons_of_mem _ List.mem_cons_self), ?_⟩
  exact ⟨[], by rw [List.append_nil, components_append_slash, hdir, components_name hname]⟩

/-- The cgroup of a container. -/
def cgroupPath (name : Text) : Text := Cgroup.CGROUP_BASE ++ ("/tinydocker-".toList ++ name)

theorem getContainerCgroupPath_valid (hname : tdValidateName name 127 = .ok ()) {size : Nat} (hsize : 1024 ≤ size) :
    Cgroup.getContainerCgroupPath name size = some (cgroupPath name) := by
  have hbound := (tdValidateName_ok hname).2.1
  have hbase : Cgroup.CGROUP_BASE.length = 27 ∧ "/tinydocker-".toList.length = 12 := by decide
  unfold Cgroup.getContainerCgroupPath
  rw [if_neg (not_not.2 hname)]
  simp only
  rw [if_neg, cgroupPath]
  rw [List.length_append, List.length_append, hbase.1, hbase.2]
  omega

theorem belongs_cgroup (hname : tdValidateName name 127 = .ok ()) :
    ∃ path, Cgroup.getContainerCgroupPath name Cgroup.PATH_MAX = some path ∧ Belongs name path := by
  obtain ⟨-, -, hchars⟩ := tdValidateName_ok hname
  have hdir : components Cgroup.CGROUP_BASE = [ "sys".toList, "fs".toList, "cgroup".toList,
      "system.slice".toList] := by decide +kernel
  have hslash : '/' ∉ "tinydocker-".toList ++ name := by
    rw [List.mem_append, not_or]
    exact ⟨by decide, not_mem_of_nameChar hchars (by decide)⟩
  refine ⟨_, getContainerCgroupPath_valid hname (by decide), _,
    List.mem_cons_of_mem _ (List.mem_cons_of_mem _ (List.mem_cons_of_mem _ List.mem_cons_self)), ?_⟩
  have htext : "/tinydocker-".toList ++ name = '/' :: ("tinydocker-".toList ++ name) := rfl
  have hword := components_word (List.append_ne_nil_of_left_ne_nil (by decide) name) hslash
  exact ⟨[], by rw [List.append_nil, cgroupPath, htext, components_append_slash, hdir, hword]⟩

theorem runtime_paths_text (hname : tdValidateName name 127 = .ok ()) :
    ∃ dir status, buildContainerRuntimePaths name = some (dir, mountpointText name, status) ∧
      components dir = containerDir name ∧ Belongs name status := by
  have hruntime := runtime_dir_text hname
  rw [mountpointText_eq] at hruntime
  exact ⟨_, _, hruntime, components_containerDir hname, belongs_status hname⟩

theorem containerPaths_belong (hname : tdValidateName name 127 = .ok ()) :
    ∀ p ∈ containerPaths name, ∃ path, p = some path ∧ Belongs name path := by
  obtain ⟨dir, status, hruntime, hdir, hstatus⟩ := runtime_paths_text hname
  have hmount : components (mountpointText name) = containerDir name ++ [ "mountpoint".toList] :=
    components_mountpointText hname
  intro p hp
  simp only [containerPaths, hruntime, Option.map_some, List.mem_cons, List.not_mem_nil, or_false] at hp
  rcases hp with rfl | rfl | rfl | rfl | rfl | rfl | rfl | rfl
  · exact ⟨_, rfl, @belongs_containerDir name _ [] (by rw [hdir, List.append_nil])⟩
  · exact ⟨_, rfl, belongs_containerDir hmount⟩
  · exact ⟨_, rfl, hstatus⟩
  · exact belongs_workspace hname (by decide) (by decide) (by decide)
  · exact belongs_workspace hname (by decide) (by decide) (by decide)
  · exact belongs_workspace hname (by decide) (by decide) (by decide)
  · exact belongs_log hname
  · exact belongs_cgroup hname

/-- **The paths of a container.**  For every name that the command line accepts all of them can be built, and
each lies in the place that the container has in its directory; the runtime directory and the mountpoint are
those of the system model; and the buffers of `docker commit` are large enough. -/
theorem runtime_paths (name : Text) (hname : tdValidateName name 127 = .ok ()) :
    (∀ p ∈ containerPaths name, ∃ path, p = some path ∧ Belongs name path) ∧
      (∃ dir status, buildContainerRuntimePaths name = some (dir, mountpointText name, status) ∧
        components dir = containerDir name ∧ components (mountpointText name) = mountpointDir name) ∧
      (commitMountpoint name).length < 512 ∧ (commitTarPath name).length < 512 := by
  have hbound := (tdValidateName_ok hname).2.1
  obtain ⟨dir, status, hruntime, hdir, -⟩ := runtime_paths_text hname
  refine ⟨containerPaths_belong hname, ⟨dir, status, hruntime, hdir, components_mountpointText hname⟩, ?_, ?_⟩
  · have hlens : TINYDOCKER_RUNTIME_DIR.length = 32 ∧ "/containers/".toList.length = 12 ∧
        "/mountpoint".toList.length = 11 := by decide
    rw [commitMountpoint, List.length_append, List.length_append, List.length_append, hlens.1, hlens.2.1, hlens.2.2]
    omega
  · have hlen : ".tar".toList.length = 4 := by decide
    rw [commitTarPath, List.length_append, hlen]
    omega

theorem web_runtime_paths :
    (commitTarPath "web".toList).length < 512 ∧ components (mountpointText "web".toList) = mountpointDir "web".toList := by
  obtain ⟨-, ⟨dir, status, -, -, hmount⟩, -, htar⟩ := runtime_paths "web".toList (by decide +kernel)
  exact ⟨htar, hmount⟩

/-- Two places are apart. -/
theorem places_apart {n m : Text} (hne : n ≠ m) {place place' : Path × Text} (h : place ∈ placesOf n)
    (h' : place' ∈ placesOf m) : ¬ place.1 ++ [place.2] <+: place'.1 ++ [place'.2] := by
  have hwords : "containers".toList ≠ "container_info".toList ∧ "containers".toList ≠ "logs".toList ∧
      "container_info".toList ≠ "logs".toList ∧ "home".toList ≠ "sys".toList := by decide
  obtain ⟨h₁, h₂, h₃, h₄⟩ := hwords
  simp only [placesOf, List.mem_cons, List.not_mem_nil, or_false] at h h'
  rcases h with rfl | rfl | rfl | rfl
  · rcases h' with rfl | rfl | rfl | rfl
    · simpa using hne
    · simp [List.cons_prefix_cons]
    · simp [List.cons_prefix_cons]
    · simp [List.cons_prefix_cons]
  · rcases h' with rfl | rfl | rfl | rfl
    · simp [List.cons_prefix_cons]
    · simpa using hne
    · simp [List.cons_prefix_cons]
    · simp [List.cons_prefix_cons]
  · rcases h' with rfl | rfl | rfl | rfl
    · simp [List.cons_prefix_cons]
    · simp [List.cons_prefix_cons]
    · simpa using hne
    · simp [List.cons_prefix_cons]
  · rcases h' with rfl | rfl | rfl | rfl
    · simp [List.cons_prefix_cons]
    · simp [List.cons_prefix_cons]
    · simp [List.cons_prefix_cons]
    · simpa using hne

/-- What belongs to different containers does not lie below each other. -/
theorem Belongs.apart {n m p q : Text} (hne : n ≠ m) (hp : Belongs n p) (hq : Belongs m q) :
    ¬ components p <+: components q := by
  obtain ⟨place, hplace, hbelow⟩ := hp
  obtain ⟨place', hplace', hbelow'⟩ := hq
  intro hpre
  rcases List.prefix_or_prefix_of_prefix (hbelow.trans hpre) hbelow' with h | h
  · exact places_apart hne hplace hplace' h
  · exact places_apart hne.symm hplace' hplace h

/-- **No path of a container is at or below one of another container.** -/
theorem container_paths_disjoint (n m : Text) (hn : tdValidateName n 127 = .ok ())
    (hm : tdValidateName m 127 = .ok ()) (hne : n ≠ m) (p q : Text) (hp : some p ∈ containerPaths n)
    (hq : some q ∈ containerPaths m) : ¬ components p <+: components q ∧ ¬ components q <+: components p := by
  have hplaced : ∀ {k r : Text}, tdValidateName k 127 = .ok () → some r ∈ containerPaths k → Belongs k r := by
    intro k r hk hr
    obtain ⟨path, hpath, hbelongs⟩ := containerPaths_belong hk _ hr
    cases hpath
    exact hbelongs
  exact ⟨(hplaced hn hp).apart hne (hplaced hm hq), (hplaced hm hq).apart hne.symm (hplaced hn hp)⟩

theorem web_paths_disjoint :
    some "/home/xanarry/tinydocker_runtime/logs/web".toList ∈ containerPaths "web".toList ∧
      some "/home/xanarry/tinydocker_runtime/logs/web.1".toList ∈ containerPaths "web.1".toList ∧
      ¬ components "/home/xanarry/tinydocker_runtime/logs/web".toList <+:
        components "/home/xanarry/tinydocker_runtime/logs/web.1".toList := by
  have hp : some "/home/xanarry/tinydocker_runtime/logs/web".toList ∈ containerPaths "web".toList := by
    decide +kernel
  have hq : some "/home/xanarry/tinydocker_runtime/logs/web.1".toList ∈ containerPaths "web.1".toList := by
    decide +kernel
  exact ⟨hp, hq, (container_paths_disjoint "web".toList "web.1".toList (by decide +kernel) (by decide +kernel)
    (by decide) _ _ hp hq).1⟩

end

end TinyDocker
