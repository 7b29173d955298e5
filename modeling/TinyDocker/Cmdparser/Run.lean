import TinyDocker.Docker.ProcessEnv
import TinyDocker.Docker.StatusFile

/-!
# The command line of `docker run` (`cmdparser/cmdparser.c`)

`argp_parse` belongs to the C library: it is a parameter here, a function from the argument vector to the
calls it makes of `docker_run_parse_func`.  A message stands for printing it and `exit(-1)`.

Principal results: `parseDockerRun_ok` — what every accepted command line has passed;
`accepted_recorded_iff` — of its arguments only the image, the command and the volumes decide whether the metadata
can be written; `accepted_env_kept` — its environment reaches the container.
-/

set_option autoImplicit false

namespace TinyDocker

open CText

def DOCKER_RUN_ARG_CAPACITY : Nat := 128

/-- A call of the parser function: an option with its argument, a word that is no option with the index
behind it, or one of the keys without a case. -/
inductive ArgpCall where
  | option (key : Char) (arg : Text)
  | argument (arg : Text) (next : Nat)
  | other
  deriving DecidableEq, Repr

/-- `struct docker_run_arguments` while the command line is parsed. -/
structure RunOptions where
  volumes : List VolumeConfig
  interactive : Bool
  detach : Bool
  cpu : Int
  memory : Int
  image : Option Text
  name : Text
  env : List (Text × Text)
  containerArgv : List Text
  portMapping : List PortMap
  deriving DecidableEq, Repr

/-- The defaults; the name is the time in seconds. -/
def RunOptions.start (now : Int) : RunOptions :=
  ⟨[], false, false, -1, -1, none, (toString now).toList, [], [], []⟩

/-- `parse_key_val_pair` with `strtok`. -/
def parseKeyValPair (str spliter : Text) : KeyValPair :=
  let words := tokens (spliter.contains ·) str
  ⟨words[0]?, words[1]?⟩

/-- The cases of the switch for options; an option without a case is ignored. -/
def dockerRunOption (a : RunOptions) (arg : Text) : Char → Except String RunOptions
  | 'v' =>
    if DOCKER_RUN_OPTION_CAPACITY ≤ a.volumes.length then
      .error ("too many volumes, max is " ++ toString DOCKER_RUN_OPTION_CAPACITY)
    else if (parseVolumeConfig arg).ro = -1 then
      .error "卷参数配置错误, 请使用: host_dir:container_dir:ro|rw 的形式"
    else .ok { a with volumes := a.volumes ++ [parseVolumeConfig arg] }
  | 'p' =>
    if DOCKER_RUN_OPTION_CAPACITY ≤ a.portMapping.length then
      .error ("too many port mappings, max is " ++ toString DOCKER_RUN_OPTION_CAPACITY)
    else match tdParsePortMapping arg with
      | .error e => .error ("invalid port mapping '" ++ String.ofList arg ++ "': " ++ e)
      | .ok (host, container) =>
        .ok { a with portMapping := a.portMapping ++ [⟨host.toNat, container.toNat⟩] }
  | 'i' => .ok { a with interactive := true }
  | 'd' => .ok { a with detach := true }
  | 'c' =>
    match tdParseLong arg 1000 INT_MAX with
    | .error e => .error ("invalid CPU quota '" ++ String.ofList arg ++ "': " ++ e)
    | .ok value => .ok { a with cpu := value }
  | 'm' =>
    match tdParseLong arg 1 INT_MAX with
    | .error e => .error ("invalid memory limit '" ++ String.ofList arg ++ "': " ++ e)
    | .ok value => .ok { a with memory := value }
  | 'n' => .ok { a with name := arg }
  | 'e' =>
    if DOCKER_RUN_OPTION_CAPACITY ≤ a.env.length then
      .error ("too many env variables, max is " ++ toString DOCKER_RUN_OPTION_CAPACITY)
    else match parseKeyValPair arg [ '='] with
      | ⟨some key, some val⟩ => .ok { a with env := a.env ++ [(key, val)] }
      | _ => .error "环境变量参数配置错误, 请使用: key=value 的形式"
  | _ => .ok a

/-- The loop over the words behind the image. -/
def copyWords : List Text → List Text → Except String (List Text)
  | words, [] => .ok words
  | words, word :: rest =>
    if DOCKER_RUN_ARG_CAPACITY - 1 ≤ words.length then
      .error ("too many container command arguments, max is " ++ toString (DOCKER_RUN_ARG_CAPACITY - 1))
    else copyWords (words ++ [word]) rest

/-- `docker_run_parse_func`; behind the image every call is ignored. -/
def dockerRunParseFunc (argv : List Text) (a : RunOptions) (call : ArgpCall) : Except String RunOptions :=
  if a.image.isSome then .ok a
  else match call with
    | .other => .ok a
    | .option key arg => dockerRunOption a arg key
    | .argument arg next =>
      match copyWords a.containerArgv (argv.drop next) with
      | .error e => .error e
      | .ok words => .ok { a with image := some arg, containerArgv := words }

/-- `docker_run_cmd_check`. -/
def dockerRunCmdCheck (a : RunOptions) : Bool :=
  if a.detach && a.interactive then false
  else !(a.image.isNone || (a.cpu != -1 && a.cpu < 1000) || (a.memory != -1 && a.memory == 0) ||
    a.containerArgv.length < 1)

/-- The arguments for `docker_run`, without the environment. -/
def RunOptions.arguments (a : RunOptions) : RunArguments :=
  ⟨a.volumes, a.detach, a.cpu, a.memory, a.image.getD [], a.name, a.containerArgv, a.portMapping⟩

/-- The branch `run` of `parse_docker_cmd`: the arguments of `docker_run` and its environment.  `argv` starts
with `run`. -/
def parseDockerRun (argp : List Text → List ArgpCall) (now : Int) (argv : List Text) :
    Except String (RunArguments × List (Text × Text)) :=
  match (argp argv).foldlM (dockerRunParseFunc argv) (RunOptions.start now) with
  | .error e => .error e
  | .ok a =>
    if !dockerRunCmdCheck a then .error "Usage:  tinydocker run [OPTIONS] IMAGE [COMMAND] [ARG...]"
    else match tdValidateName a.name TINYDOCKER_MAX_CONTAINER_NAME with
      | .error e => .error ("invalid container name: " ++ e)
      | .ok () => .ok (a.arguments, a.env)

/-! ## What is accepted -/

/-- What the parser function keeps true from call to call. -/
structure RunOptions.Ok (a : RunOptions) : Prop where
  volumes : (∀ v ∈ a.volumes, CliVolume v) ∧ a.volumes.length ≤ DOCKER_RUN_OPTION_CAPACITY
  ports : (∀ m ∈ a.portMapping, 1 ≤ m.hostPort ∧ m.hostPort ≤ 65535 ∧
    1 ≤ m.containerPort ∧ m.containerPort ≤ 65535) ∧ a.portMapping.length ≤ DOCKER_RUN_OPTION_CAPACITY
  cpu : a.cpu = -1 ∨ 1000 ≤ a.cpu ∧ a.cpu ≤ INT_MAX
  memory : a.memory = -1 ∨ 1 ≤ a.memory ∧ a.memory ≤ INT_MAX
  env : (∀ p ∈ a.env, p.1 ≠ [] ∧ '=' ∉ p.1) ∧ a.env.length ≤ DOCKER_RUN_OPTION_CAPACITY
  words : a.containerArgv.length ≤ DOCKER_RUN_ARG_CAPACITY - 1

theorem RunOptions.start_ok (now : Int) : (RunOptions.start now).Ok :=
  ⟨⟨nofun, Nat.zero_le _⟩, ⟨nofun, Nat.zero_le _⟩, Or.inl rfl, Or.inl rfl, ⟨nofun, Nat.zero_le _⟩,
    Nat.zero_le _⟩

theorem parseKeyValPair_key {str key val : Text} (h : parseKeyValPair str [ '='] = ⟨some key, some val⟩) :
    key ≠ [] ∧ '=' ∉ key := by
  have hkey : (tokens ([ '='].contains ·) str)[0]? = some key := congrArg KeyValPair.key h
  obtain ⟨hne, hchars⟩ := mem_tokens (List.mem_of_getElem? hkey)
  exact ⟨hne, fun hm => by simpa using (hchars '=' hm).1⟩

theorem length_concat_le {α : Type} {l : List α} {x : α} {n : Nat} (h : ¬ n ≤ l.length) :
    (l ++ [x]).length ≤ n := by
  rw [List.length_append, List.length_singleton]
  omega

theorem dockerRunOption_ok {a b : RunOptions} (ha : a.Ok) {arg : Text} {key : Char}
    (h : dockerRunOption a arg key = .ok b) : b.Ok := by
  unfold dockerRunOption at h
  split at h
  · split at h
    · cases h
    · rename_i hroom
      split at h
      · cases h
      · rename_i hro
        cases h
        have hvolumes := List.forall_mem_append.2 ⟨ha.volumes.1, List.forall_mem_singleton.2 ⟨arg, rfl, hro⟩⟩
        exact { ha with volumes := ⟨hvolumes, length_concat_le hroom⟩ }
  · split at h
    · cases h
    · rename_i hroom
      split at h
      · cases h
      · rename_i host container hports
        cases h
        have hrange := tdParsePortMapping_ok hports
        refine { ha with ports := ⟨List.forall_mem_append.2 ⟨ha.ports.1, List.forall_mem_singleton.2 ?_⟩,
          length_concat_le hroom⟩ }
        simp only
        omega
  · cases h
    exact { ha with }
  · cases h
    exact { ha with }
  · split at h
    · cases h
    · rename_i value hvalue
      cases h
      have hrange := tdParseLong_ok hvalue
      exact { ha with cpu := Or.inr ⟨hrange.1, hrange.2.1⟩ }
  · split at h
    · cases h
    · rename_i value hvalue
      cases h
      have hrange := tdParseLong_ok hvalue
      exact { ha with memory := Or.inr ⟨hrange.1, hrange.2.1⟩ }
  · cases h
    exact { ha with }
  · split at h
    · cases h
    · rename_i hroom
      split at h
      · rename_i key val hpair
        cases h
        have henv : ∀ p ∈ a.env ++ [(key, val)], p.1 ≠ [] ∧ '=' ∉ p.1 :=
          List.forall_mem_append.2 ⟨ha.env.1, List.forall_mem_singleton.2 (parseKeyValPair_key hpair)⟩
        exact { ha with env := ⟨henv, length_concat_le hroom⟩ }
      · cases h
  · cases h
    exact ha

theorem copyWords_ok : ∀ {more words r : List Text}, copyWords words more = .ok r →
    words.length ≤ DOCKER_RUN_ARG_CAPACITY - 1 → r = words ++ more ∧ r.length ≤ DOCKER_RUN_ARG_CAPACITY - 1
  | [], words, r, h, hle => by
    cases h
    exact ⟨(List.append_nil _).symm, hle⟩
  | word :: more, words, r, h, hle => by
    unfold copyWords at h
    split at h
    · cases h
    · rename_i hroom
      obtain ⟨hr, hlen⟩ := copyWords_ok h (length_concat_le hroom)
      exact ⟨by rw [hr, List.append_assoc, List.singleton_append], hlen⟩

theorem dockerRunParseFunc_ok {argv : List Text} {a b : RunOptions} {call : ArgpCall} (ha : a.Ok)
    (h : dockerRunParseFunc argv a call = .ok b) : b.Ok := by
  unfold dockerRunParseFunc at h
  split at h
  · cases h
    exact ha
  · split at h
    · cases h
      exact ha
    · exact dockerRunOption_ok ha h
    · split at h
      · cases h
      · rename_i words hwords
        cases h
        exact { ha with words := (copyWords_ok hwords ha.words).2 }

theorem parseCalls_ok {argv : List Text} : ∀ {calls : List ArgpCall} {a b : RunOptions}, a.Ok →
    calls.foldlM (dockerRunParseFunc argv) a = .ok b → b.Ok
  | [], a, b, ha, h => by
    cases h
    exact ha
  | call :: calls, a, b, ha, h => by
    rw [List.foldlM_cons] at h
    cases hcall : dockerRunParseFunc argv a call with
    | error e =>
      rw [hcall] at h
      cases h
    | ok next =>
      rw [hcall] at h
      exact parseCalls_ok (dockerRunParseFunc_ok ha hcall) h

/-- **What every accepted command line has passed**, whatever calls `argp_parse` makes. -/
theorem parseDockerRun_ok {argp : List Text → List ArgpCall} {now : Int} {argv : List Text}
    {args : RunArguments} {env : List (Text × Text)} (h : parseDockerRun argp now argv = .ok (args, env)) :
    ∃ a : RunOptions, a.Ok ∧ args = a.arguments ∧ env = a.env ∧ args.containerArgv ≠ [] ∧
      tdValidateName args.name TINYDOCKER_MAX_CONTAINER_NAME = .ok () := by
  unfold parseDockerRun at h
  split at h
  · cases h
  · rename_i a hcalls
    have ha := parseCalls_ok (RunOptions.start_ok now) hcalls
    split at h
    · cases h
    · rename_i hcheck
      split at h
      · cases h
      · rename_i hname
        cases h
        refine ⟨a, ha, rfl, rfl, fun hnil => hcheck ?_, hname⟩
        have hwords : a.containerArgv = [] := hnil
        simp [dockerRunCmdCheck, hwords]

/-- The child of an accepted command line gets every `-e` entry when it inherits at most 128 entries. -/
theorem accepted_env_kept {argp : List Text → List ArgpCall} {now : Int} {argv : List Text}
    {args : RunArguments} {env : List (Text × Text)} (haccept : parseDockerRun argp now argv = .ok (args, env))
    {h : EnvHost} {a : EnvAnswers} {envs : List Text}
    (hsome : loadProcessEnv h a h.getpid (some (env.map KeyValPair.of)) env.length = some envs)
    (hroom : h.environ.length ≤ 128) : ∀ p ∈ env, entryText p.1 p.2 ∈ envs := by
  obtain ⟨o, hok, -, henv, -⟩ := parseDockerRun_ok haccept
  have hcount : env.length ≤ 128 := by
    rw [henv]
    exact hok.env.2
  have hown : inherited h h.getpid = h.environ := if_pos rfl
  have hall : (h.environ ++ env.map fun p => entryText p.1 p.2).length ≤ MAX_ENV_COUNT := by
    rw [List.length_append, List.length_map, MAX_ENV_COUNT]
    omega
  rw [loadProcessEnv_eq hsome, hown, List.take_of_length_le hall]
  exact fun p hp => List.mem_append_right _ (List.mem_map.2 ⟨p, hp, rfl⟩)

/-! ## What can be recorded -/

/-- A text for a field of that size on a line of the metadata. -/
def FieldText (size : Nat) (t : Text) : Prop := t.length < size ∧ '\n' ∉ t ∧ '\r' ∉ t

/-- The two calls at the end of a startup, when `/proc` tells the start time and the file can be written. -/
def RecordWritten (args : RunArguments) (pid start : Nat) (address : UInt32) (timestamp : Int)
    (time : BrokenDownTime) (file : Option Text) : Prop :=
  ∃ info file', createContainerInfo args pid (some start) .running (Ipv4.inetNtop address) timestamp
      (timestampToString time) = some info ∧
    StatusFile.writeContainerInfo true args.name info.toRecord file = (file', true)

/-- **Which accepted arguments can be recorded**: those whose image, command and volumes fit their fields. -/
theorem accepted_recorded_iff {argp : List Text → List ArgpCall} {now : Int} {argv : List Text}
    {args : RunArguments} {env : List (Text × Text)}
    (haccept : parseDockerRun argp now argv = .ok (args, env)) {pid start : Nat}
    (hpid : 0 < pid) (address : UInt32) {timestamp : Int} (htime : timestamp.natAbs ≤ 2 ^ 63)
    {time : BrokenDownTime} (hclock : (timestampToString time).length = 19) (file : Option Text) :
    RecordWritten args pid start address timestamp time file ↔
      FieldText 128 args.image ∧ FieldText 512 (commandText args.containerArgv) ∧
        ∀ v ∈ args.volumes.take MAX_RECORDED_VOLUMES, FieldText 512 (volumeText v) := by
  obtain ⟨a, hok, rfl, -, hwords, hname⟩ := parseDockerRun_ok haccept
  constructor
  · rintro ⟨info, file', hcreate, hwrite⟩
    obtain ⟨start', -, hfits, -, -, -, rfl⟩ := createContainerInfo_iff.1 hcreate
    obtain ⟨-, -, -, hwritable, -⟩ := writeContainerInfo_iff.1 hwrite
    exact ⟨⟨hfits.image, hwritable.image⟩, ⟨hfits.command, hwritable.command⟩, fun v hv =>
      ⟨(hfits.volumes v hv).2.2, hwritable.volumes _ (List.mem_map_of_mem hv)⟩⟩
  · rintro ⟨himage, hcommand, hvolumes⟩
    obtain ⟨-, hlen, hchars⟩ := tdValidateName_ok hname
    have hfits : a.arguments.Recordable := by
      refine ⟨hwords, himage.1, hcommand.1, Nat.lt_succ_of_le hlen, fun v hv => ?_⟩
      have hvol := (hok.volumes.1 v (List.mem_of_mem_take hv)).volumeOk.1
      exact ⟨hvol.host_ne, hvol.container_ne, (hvolumes v hv).1⟩
    have hid : (toString timestamp).toList.length < 128 :=
      Nat.lt_of_le_of_lt (@length_toString timestamp 19 (by decide) (Nat.lt_of_le_of_lt htime (by decide)))
        (by decide)
    have hip : (Ipv4.inetNtop address).length < 16 := Nat.lt_succ_of_le (Ipv4.inetNtop_length address)
    refine ⟨_, _, createContainerInfo_iff.2 ⟨start, rfl, hfits, hid, hclock, hip, rfl⟩,
      writeContainerInfo_iff.2 ⟨rfl, hname, rfl, ⟨?_, ?_, ?_, himage.2, hcommand.2, ?_, ?_⟩, rfl⟩⟩
    · exact Int.natCast_pos.2 hpid
    · show (List.map volumeText (a.arguments.volumes.take MAX_RECORDED_VOLUMES)).length ≤ 32
      rw [List.length_map]
      exact List.length_take_le _ _
    · exact List.mem_cons_self
    · exact ⟨not_mem_of_nameChar hchars (by decide), not_mem_of_nameChar hchars (by decide)⟩
    · intro t ht
      obtain ⟨v, hv, rfl⟩ := List.mem_map.1 ht
      exact (hvolumes v hv).2

/-- `run -v /v:/d:ro img /bin/sh`. -/
def runVolume : List Text :=
  [ "run".toList, "-v".toList, "/v:/d:ro".toList, "img".toList, "/bin/sh".toList]

/-- The calls for it: the option, then the words that are no options. -/
def runVolumeCalls : List ArgpCall :=
  [.option 'v' "/v:/d:ro".toList, .argument "img".toList 4, .argument "/bin/sh".toList 5, .other]

theorem runVolume_recorded :
    ∃ args env, parseDockerRun (fun _ => runVolumeCalls) 1700000000 runVolume = .ok (args, env) ∧
      RecordWritten args 7 100 0xAC0B0B02 1700000000 ⟨2023, 11, 14, 22, 13, 20⟩ none := by
  have haccept : parseDockerRun (fun _ => runVolumeCalls) 1700000000 runVolume = .ok
      (⟨[⟨"/v".toList, "/d".toList, 1⟩], false, -1, -1, "img".toList, "1700000000".toList,
        [ "/bin/sh".toList], []⟩, []) := by
    decide +kernel
  refine ⟨_, _, haccept,
    (accepted_recorded_iff haccept (by decide) _ (by decide) (by decide +kernel) _).2 ⟨?_, ?_, ?_⟩⟩
  · unfold FieldText
    decide +kernel
  · unfold FieldText
    decide +kernel
  · unfold FieldText
    decide +kernel

/-- `run IMAGE c` with an image path of 128 characters. -/
def runLongImage : List Text := [ "run".toList, List.replicate 128 'i', "c".toList]

theorem long_image_not_recorded :
    ∃ args env,
      parseDockerRun (fun _ => [.argument (List.replicate 128 'i') 2, .argument "c".toList 3, .other])
          1700000000 runLongImage = .ok (args, env) ∧
        createContainerInfo args 7 (some 100) .running (Ipv4.inetNtop 0xAC0B0B02) 1700000000
          (timestampToString ⟨2023, 11, 14, 22, 13, 20⟩) = none :=
  ⟨⟨[], false, -1, -1, List.replicate 128 'i', "1700000000".toList, [ "c".toList], []⟩, [],
    by decide +kernel, by decide +kernel⟩

end TinyDocker
