import TinyDocker.Core.StatusCodec

/-!
# Container metadata (`docker/status_info.c`, `cmdparser/cmdparser.c`)

The arguments of `docker run` as the command line parser leaves them, and the metadata record
`createContainerInfo` derives from them for a started container.

`docker rm` works on the volumes of the record, re-parsed with `parseVolumeConfig`, not on the
volumes that were mounted.  `recorded_volumes_iff` says when the two agree: the record has room for
32 volumes, the command line accepts 128.
-/

set_option autoImplicit false

namespace TinyDocker

open CText

def TINYDOCKER_MAX_CONTAINER_NAME : Nat := 127
def TINYDOCKER_MAX_VOLUME_PATH : Nat := 1023
def DOCKER_RUN_OPTION_CAPACITY : Nat := 128

/-- `struct volume_config`; `ro` is 1 for read-only, 0 for read-write, -1 for a wrong
configuration. -/
structure VolumeConfig where
  host : Text
  container : Text
  ro : Int
  deriving DecidableEq, Repr

structure PortMap where
  hostPort : Nat
  containerPort : Nat
  deriving DecidableEq, Repr

/-- `struct docker_run_arguments`, without the environment, which only the child reads. -/
structure RunArguments where
  volumes : List VolumeConfig
  detach : Bool
  cpu : Int
  memory : Int
  image : Text
  name : Text
  containerArgv : List Text
  portMapping : List PortMap
  deriving DecidableEq, Repr

inductive ContainerStatus where
  | running
  | stopped
  | exited
  deriving DecidableEq, Repr

/-- `struct container_info`; `volume_cnt` is the length of `volumes`. -/
structure ContainerInfo where
  pid : Nat
  pidStartTime : Nat
  detach : Bool
  containerId : Text
  image : Text
  command : Text
  created : Text
  status : ContainerStatus
  name : Text
  ipAddr : Text
  volumes : List Text
  deriving DecidableEq, Repr

/-- `parse_volume_config`.  A rejected text leaves `ro = -1`; the two paths are then unspecified
and no caller reads them. -/
def parseVolumeConfig (input : Text) : VolumeConfig :=
  match tdParseVolumeSpec input (TINYDOCKER_MAX_VOLUME_PATH + 1) (TINYDOCKER_MAX_VOLUME_PATH + 1) with
  | .ok (host, container, ro) => ⟨host, container, ro⟩
  | .error _ => ⟨[], [], -1⟩

/-- A volume the command line accepts. -/
def CliVolume (v : VolumeConfig) : Prop := ∃ input, parseVolumeConfig input = v ∧ v.ro ≠ -1

theorem CliVolume.volumeOk {v : VolumeConfig} (h : CliVolume v) :
    VolumeOk (TINYDOCKER_MAX_VOLUME_PATH + 1) (TINYDOCKER_MAX_VOLUME_PATH + 1) v.host v.container ∧
      (v.ro = 0 ∨ v.ro = 1) := by
  obtain ⟨input, rfl, hro⟩ := h
  unfold parseVolumeConfig at hro ⊢
  split at hro
  · rename_i hspec
    exact tdParseVolumeSpec_ok hspec
  · exact absurd rfl hro

/-! ## The record of a started container -/

/-- `copy_string_field` into a buffer of that size. -/
def copyStringField (size : Nat) (src : Text) : Option Text :=
  if size ≤ src.length then none else some src

/-- `append_string_field`. -/
def appendStringField (size : Nat) (dst src : Text) : Option Text :=
  if size ≤ dst.length ∨ size - dst.length ≤ src.length then none else some (dst ++ src)

/-- The loop over the further command words. -/
def appendCommand : Text → List Text → Option Text
  | command, [] => some command
  | command, word :: rest =>
    match appendStringField 512 command [' '] with
    | none => none
    | some command =>
      match appendStringField 512 command word with
      | none => none
      | some command => appendCommand command rest

def MAX_RECORDED_VOLUMES : Nat := 32

/-- `%s:%s:%s` of host path, container path and mode. -/
def volumeText (v : VolumeConfig) : Text := v.host ++ ':' :: (v.container ++ ':' :: modeWord v.ro)

def recordVolumes : List VolumeConfig → Option (List Text)
  | [] => some []
  | v :: vs =>
    if v.host = [] ∨ v.container = [] then none
    else if 512 ≤ (volumeText v).length then none
    else (recordVolumes vs).map (volumeText v :: ·)

/-- `create_container_info`.  `startTime` is what `/proc` says about the process, `created` what
`timestamp_to_string` makes of the time stamp. -/
def createContainerInfo (args : RunArguments) (pid : Nat) (startTime : Option Nat)
    (status : ContainerStatus) (ipAddr : Text) (timestamp : Int) (created : Text) :
    Option ContainerInfo := do
  let first ← args.containerArgv.head?
  let pidStartTime ← startTime
  let containerId ← copyStringField 128 (toString timestamp).toList
  let image ← copyStringField 128 args.image
  let command ← copyStringField 512 first
  let command ← appendCommand command args.containerArgv.tail
  if created.length ≠ 19 then none
  let ipAddr ← copyStringField 16 ipAddr
  let name ← copyStringField 128 args.name
  -- more volumes than the record has room for are dropped with a warning
  let volumes ← recordVolumes (args.volumes.take MAX_RECORDED_VOLUMES)
  some ⟨pid, pidStartTime, args.detach, containerId, image, command, created, status, name, ipAddr,
    volumes⟩

theorem copyStringField_iff {size : Nat} {src dst : Text} :
    copyStringField size src = some dst ↔ src.length < size ∧ dst = src := by
  unfold copyStringField
  split
  · rename_i hlong
    exact ⟨nofun, fun h => absurd h.1 (Nat.not_lt.2 hlong)⟩
  · rename_i hshort
    exact ⟨fun h => ⟨Nat.lt_of_not_le hshort, (Option.some.inj h).symm⟩, fun h => congrArg some h.2.symm⟩

theorem appendStringField_iff {size : Nat} {dst src out : Text} :
    appendStringField size dst src = some out ↔ (dst ++ src).length < size ∧ out = dst ++ src := by
  have hlen : (dst ++ src).length < size ↔ ¬ (size ≤ dst.length ∨ size - dst.length ≤ src.length) := by
    rw [List.length_append]
    omega
  unfold appendStringField
  split
  · rename_i hlong
    exact ⟨nofun, fun h => absurd hlong (hlen.1 h.1)⟩
  · rename_i hshort
    exact ⟨fun h => ⟨hlen.2 hshort, (Option.some.inj h).symm⟩, fun h => congrArg some h.2.symm⟩

/-- The words of a command with blanks between them. -/
def commandText : List Text → Text
  | [] => []
  | word :: rest => word ++ rest.flatMap (' ' :: ·)

theorem appendCommand_iff : ∀ {words : List Text} {command out : Text}, command.length < 512 →
    (appendCommand command words = some out ↔
      (command ++ words.flatMap (' ' :: ·)).length < 512 ∧ out = command ++ words.flatMap (' ' :: ·))
  | [], command, out, hlen => by
    rw [List.flatMap_nil, List.append_nil, appendCommand, Option.some.injEq]
    exact ⟨fun h => ⟨hlen, h.symm⟩, fun h => h.2.symm⟩
  | word :: rest, command, out, hlen => by
    have hjoined : command ++ (word :: rest).flatMap (' ' :: ·) =
        command ++ [' '] ++ word ++ rest.flatMap (' ' :: ·) := by
      simp
    rw [hjoined]
    unfold appendCommand
    split
    · rename_i hspace
      refine ⟨nofun, fun ⟨hout, _⟩ => ?_⟩
      have hfits : (command ++ [' ']).length < 512 := by
        simp only [List.length_append] at hout ⊢
        omega
      rw [appendStringField_iff.2 ⟨hfits, rfl⟩] at hspace
      cases hspace
    · rename_i spaced hspace
      obtain ⟨hspaced, rfl⟩ := appendStringField_iff.1 hspace
      split
      · rename_i hword
        refine ⟨nofun, fun ⟨hout, _⟩ => ?_⟩
        have hfits : (command ++ [' '] ++ word).length < 512 := by
          simp only [List.length_append] at hout ⊢
          omega
        rw [appendStringField_iff.2 ⟨hfits, rfl⟩] at hword
        cases hword
      · rename_i joined hword
        obtain ⟨hfits, rfl⟩ := appendStringField_iff.1 hword
        exact appendCommand_iff hfits

theorem recordVolumes_iff : ∀ {vs : List VolumeConfig} {texts : List Text},
    recordVolumes vs = some texts ↔
      (∀ v ∈ vs, v.host ≠ [] ∧ v.container ≠ [] ∧ (volumeText v).length < 512) ∧ texts = vs.map volumeText
  | [], texts => by
    rw [recordVolumes, Option.some.injEq]
    exact ⟨fun h => ⟨nofun, h.symm⟩, fun h => h.2.symm⟩
  | v :: vs, texts => by
    rw [List.forall_mem_cons]
    unfold recordVolumes
    split
    · rename_i hempty
      exact ⟨nofun, fun h => absurd hempty (not_or.2 ⟨h.1.1.1, h.1.1.2.1⟩)⟩
    · rename_i hpaths
      obtain ⟨hhost, hcontainer⟩ := not_or.1 hpaths
      split
      · rename_i hlong
        exact ⟨nofun, fun h => absurd h.1.1.2.2 (Nat.not_lt.2 hlong)⟩
      · rename_i hshort
        rw [Option.map_eq_some_iff]
        constructor
        · rintro ⟨rest, hrest, rfl⟩
          obtain ⟨hvs, rfl⟩ := recordVolumes_iff.1 hrest
          exact ⟨⟨⟨hhost, hcontainer, Nat.lt_of_not_le hshort⟩, hvs⟩, rfl⟩
        · rintro ⟨⟨-, hvs⟩, rfl⟩
          exact ⟨vs.map volumeText, recordVolumes_iff.2 ⟨hvs, rfl⟩, rfl⟩

/-- The arguments fit the fields of a record. -/
structure RunArguments.Recordable (args : RunArguments) : Prop where
  words : args.containerArgv ≠ []
  image : args.image.length < 128
  command : (commandText args.containerArgv).length < 512
  name : args.name.length < 128
  volumes : ∀ v ∈ args.volumes.take MAX_RECORDED_VOLUMES,
    v.host ≠ [] ∧ v.container ≠ [] ∧ (volumeText v).length < 512

/-- The record of arguments that fit. -/
def RunArguments.record (args : RunArguments) (pid start : Nat) (status : ContainerStatus) (ipAddr : Text)
    (timestamp : Int) (created : Text) : ContainerInfo :=
  ⟨pid, start, args.detach, (toString timestamp).toList, args.image, commandText args.containerArgv, created,
    status, args.name, ipAddr, (args.volumes.take MAX_RECORDED_VOLUMES).map volumeText⟩

/-- **When a record is created, and which.** -/
theorem createContainerInfo_iff {args : RunArguments} {pid : Nat} {startTime : Option Nat}
    {status : ContainerStatus} {ipAddr : Text} {timestamp : Int} {created : Text} {info : ContainerInfo} :
    createContainerInfo args pid startTime status ipAddr timestamp created = some info ↔
      ∃ start, startTime = some start ∧ args.Recordable ∧ (toString timestamp).toList.length < 128 ∧
        created.length = 19 ∧ ipAddr.length < 16 ∧
        info = args.record pid start status ipAddr timestamp created := by
  constructor
  · intro h
    simp only [createContainerInfo, bind, Option.bind_eq_some_iff] at h
    obtain ⟨first, hfirst, start, hstart, id, hid, image, himage, command, hcommand, joined, hjoined, h⟩ := h
    split at h
    · simp at h
    rename_i hcreated
    simp only [Option.bind_eq_some_iff, Option.some.injEq] at h
    obtain ⟨ip, hip, name, hname, volumes, hvolumes, rfl⟩ := h
    obtain ⟨rest, hargv⟩ : ∃ rest, args.containerArgv = first :: rest := List.head?_eq_some_iff.1 hfirst
    obtain ⟨lid, rfl⟩ := copyStringField_iff.1 hid
    obtain ⟨limage, rfl⟩ := copyStringField_iff.1 himage
    obtain ⟨lfirst, rfl⟩ := copyStringField_iff.1 hcommand
    obtain ⟨lip, rfl⟩ := copyStringField_iff.1 hip
    obtain ⟨lname, rfl⟩ := copyStringField_iff.1 hname
    rw [hargv, List.tail_cons] at hjoined
    obtain ⟨ljoined, rfl⟩ := (appendCommand_iff lfirst).1 hjoined
    obtain ⟨lvolumes, rfl⟩ := recordVolumes_iff.1 hvolumes
    refine ⟨start, hstart, ⟨by rw [hargv]; exact List.cons_ne_nil _ _, limage, ?_, lname, lvolumes⟩, lid,
      not_not.1 hcreated, lip, ?_⟩
    · rw [hargv]
      exact ljoined
    · rw [RunArguments.record, hargv]
      rfl
  · rintro ⟨start, rfl, hfits, lid, hcreated, lip, rfl⟩
    obtain ⟨first, rest, hargv⟩ := List.exists_cons_of_ne_nil hfits.words
    have ljoined := hfits.command
    rw [hargv, commandText] at ljoined
    have lfirst : first.length < 512 := by
      rw [List.length_append] at ljoined
      omega
    simp only [createContainerInfo, bind, hargv, List.head?_cons, List.tail_cons, Option.bind_some,
      copyStringField_iff.2 ⟨lid, rfl⟩, copyStringField_iff.2 ⟨hfits.image, rfl⟩,
      copyStringField_iff.2 ⟨lfirst, rfl⟩, (appendCommand_iff lfirst).2 ⟨ljoined, rfl⟩,
      copyStringField_iff.2 ⟨lip, rfl⟩, copyStringField_iff.2 ⟨hfits.name, rfl⟩,
      recordVolumes_iff.2 ⟨hfits.volumes, rfl⟩]
    rw [if_neg (not_not.2 hcreated), RunArguments.record, hargv]
    rfl

/-- What the rest of the system relies on in a created record. -/
theorem createContainerInfo_ok {args : RunArguments} {pid : Nat} {startTime : Option Nat}
    {status : ContainerStatus} {ipAddr : Text} {timestamp : Int} {created : Text}
    {info : ContainerInfo}
    (h : createContainerInfo args pid startTime status ipAddr timestamp created = some info) :
    info.pid = pid ∧ startTime = some info.pidStartTime ∧ info.status = status ∧
      info.name = args.name ∧ info.ipAddr = ipAddr ∧
      recordVolumes (args.volumes.take MAX_RECORDED_VOLUMES) = some info.volumes := by
  obtain ⟨start, hstart, hfits, -, -, -, rfl⟩ := createContainerInfo_iff.1 h
  exact ⟨rfl, hstart, rfl, rfl, rfl, recordVolumes_iff.2 ⟨hfits.volumes, rfl⟩⟩

/-! ## Recorded and mounted volumes -/

theorem parseVolumeConfig_volumeText {v : VolumeConfig} (h : CliVolume v) :
    parseVolumeConfig (volumeText v) = v := by
  obtain ⟨hok, hro⟩ := h.volumeOk
  unfold parseVolumeConfig volumeText
  rw [tdParseVolumeSpec_print hok hro]

/-- The record holds the first 32 mounted volumes, and each of them re-parses to itself. -/
theorem recordVolumes_reparse {vs : List VolumeConfig} {texts : List Text}
    (hcli : ∀ v ∈ vs, CliVolume v) (h : recordVolumes vs = some texts) :
    texts.map parseVolumeConfig = vs := by
  rw [(recordVolumes_iff.1 h).2, List.map_map]
  calc vs.map (parseVolumeConfig ∘ volumeText) = vs.map id :=
        List.map_congr_left fun v hv => parseVolumeConfig_volumeText (hcli v hv)
    _ = vs := List.map_id vs

/-- **When the recorded volumes are the mounted ones.**  Whenever the record is created, re-parsing
its volumes gives the list of the command line if and only if that list has at most 32 entries. -/
theorem recorded_volumes_iff (args : RunArguments) (pid : Nat) (startTime : Option Nat)
    (status : ContainerStatus) (ipAddr : Text) (timestamp : Int) (created : Text)
    (info : ContainerInfo) (hcli : ∀ v ∈ args.volumes, CliVolume v)
    (h : createContainerInfo args pid startTime status ipAddr timestamp created = some info) :
    info.volumes.map parseVolumeConfig = args.volumes ↔ args.volumes.length ≤ 32 := by
  obtain ⟨-, -, -, -, -, hvol⟩ := createContainerInfo_ok h
  rw [recordVolumes_reparse (fun v hv => hcli v (List.mem_of_mem_take hv)) hvol]
  simp only [MAX_RECORDED_VOLUMES]
  constructor
  · intro ht
    have hlen := congrArg List.length ht
    rw [List.length_take] at hlen
    omega
  · exact List.take_of_length_le

/-- `run -v /v:/d ...` with `n` volumes. -/
def repeatedVolumes (n : Nat) : RunArguments :=
  ⟨List.replicate n ⟨"/v".toList, "/d".toList, 0⟩, true, -1, -1, "img".toList, "c".toList,
    ["/bin/sh".toList], []⟩

theorem cliVolume_of_repeated {n : Nat} {v : VolumeConfig} (h : v ∈ (repeatedVolumes n).volumes) :
    CliVolume v := by
  rw [List.eq_of_mem_replicate h]
  exact ⟨"/v:/d".toList, by decide, by decide⟩

theorem two_volumes_recorded :
    ∃ info, createContainerInfo (repeatedVolumes 2) 7 (some 100) .running "172.11.11.2".toList 0
        "1970-01-01 00:00:00".toList = some info ∧
      info.volumes.map parseVolumeConfig = (repeatedVolumes 2).volumes :=
  ⟨_, rfl, (recorded_volumes_iff (repeatedVolumes 2) 7 (some 100) .running "172.11.11.2".toList 0
    "1970-01-01 00:00:00".toList _ (fun _ hv => cliVolume_of_repeated hv) rfl).2
    (by decide)⟩

/-- With 33 volumes the record is created and the last volume is not in it. -/
theorem thirty_third_volume_dropped :
    (∀ v ∈ (repeatedVolumes 33).volumes, CliVolume v) ∧
      (repeatedVolumes 33).volumes.length ≤ DOCKER_RUN_OPTION_CAPACITY ∧
      ∃ info, createContainerInfo (repeatedVolumes 33) 7 (some 100) .running "172.11.11.2".toList 0
        "1970-01-01 00:00:00".toList = some info ∧
      info.volumes.map parseVolumeConfig ≠ (repeatedVolumes 33).volumes := by
  refine ⟨fun _ hv => cliVolume_of_repeated hv, by decide, _, rfl, fun h => ?_⟩
  have hlen := congrArg List.length h
  revert hlen
  decide

end TinyDocker
