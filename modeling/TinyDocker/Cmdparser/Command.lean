import TinyDocker.Lib.Runs
import TinyDocker.Cmdparser.Run
import TinyDocker.Docker.Exec
import TinyDocker.Docker.RuntimePaths

/-!
# The command line (`parse_docker_cmd` of `cmdparser/cmdparser.c`)

One `argp_parse` for each of `run`, `exec` and `stop`, the same parameter as for `run` alone.  The names of
`docker stop` go into an array of 128 pointers without a check of the bound: a write behind it is an end of its
own, which no other command has.

Principal results: `accepted_command` — what a command has passed when it reaches `main`;
`stop_overflow_iff` — the command lines that write behind the array.
-/

set_option autoImplicit false

namespace TinyDocker

open CText

/-- The three tables that the parser passes to `argp_parse`. -/
inductive ArgpTable where
  | run
  | exec
  | stop
  deriving DecidableEq, Repr

/-- A message and `exit(-1)`, or a write behind the end of an array. -/
inductive Refusal where
  | exit (message : String)
  | outOfBounds
  deriving DecidableEq, Repr

/-- `struct docker_cmd`: the command with its arguments. -/
inductive DockerCmd where
  | run (arguments : RunArguments) (env : List (Text × Text))
  | commit (containerName : Text) (tarPath : Option Text)
  | ps (listAll : Bool)
  | top (containerName : Text)
  | exec (arguments : Exec.ExecArguments)
  | stop (time : Int) (containerNames : List Text)
  | rm (containers : List Text)
  | inspect (containerName : Text)
  | stats (containerName : Text)
  | networkCreate (name cider : Text)
  | networkList
  | networkRm (networkArgv : List Text)
  deriving DecidableEq, Repr

/-! ## `docker exec` -/

/-- `struct docker_exec_arguments` while the command line is parsed. -/
structure ExecOptions where
  detach : Bool
  interactive : Bool
  tty : Bool
  env : List (Text × Text)
  containerName : Option Text
  containerArgv : List Text
  deriving DecidableEq, Repr

def ExecOptions.start : ExecOptions := ⟨false, false, false, [], none, []⟩

/-- The cases of the switch for options. -/
def dockerExecOption (a : ExecOptions) (arg : Text) : Char → Except String ExecOptions
  | 'd' => .ok { a with detach := true }
  | 'i' => .ok { a with interactive := true }
  | 't' => .ok { a with tty := true }
  | 'e' =>
    if 128 ≤ a.env.length then .error "too many exec environment variables, max is 128"
    else match parseKeyValPair arg [ '='] with
      | ⟨some key, some val⟩ => .ok { a with env := a.env ++ [(key, val)] }
      | _ => .error "invalid environment variable; expected KEY=VALUE"
  | _ => .ok a

/-- `docker_exec_parse_func`; the loop over the words is that of `docker run` with its own message. -/
def dockerExecParseFunc (argv : List Text) (a : ExecOptions) (call : ArgpCall) : Except String ExecOptions :=
  if a.containerName.isSome then .ok a
  else match call with
    | .other => .ok a
    | .option key arg => dockerExecOption a arg key
    | .argument arg next =>
      match copyWords a.containerArgv (argv.drop next) with
      | .error _ => .error "too many exec command arguments, max is 127"
      | .ok words => .ok { a with containerName := some arg, containerArgv := words }

/-! ## `docker stop` -/

/-- `struct docker_stop_arguments`. -/
structure StopOptions where
  time : Int
  containerNames : List Text
  deriving DecidableEq, Repr

def StopOptions.start : StopOptions := ⟨10, []⟩

/-- `docker_stop_parse_func`: the word itself and all behind it are the names, and a null pointer follows
them. -/
def dockerStopParseFunc (argv : List Text) (a : StopOptions) (call : ArgpCall) : Except Refusal StopOptions :=
  if a.containerNames ≠ [] then .ok a
  else match call with
    | .other => .ok a
    | .option key arg =>
      if key = 't' then
        match tdParseLong arg 0 3600 with
        | .error e => .error (.exit ("invalid stop timeout '" ++ String.ofList arg ++ "': " ++ e))
        | .ok value => .ok { a with time := value }
      else .ok a
    | .argument _ next =>
      if 128 ≤ (argv.drop (next - 1)).length then .error .outOfBounds
      else .ok { a with containerNames := argv.drop (next - 1) }

/-! ## The branches of `parse_docker_cmd` -/

def validateContainerName (name : Text) : Except Refusal Unit :=
  match tdValidateName name TINYDOCKER_MAX_CONTAINER_NAME with
  | .error e => .error (.exit ("invalid container name: " ++ e))
  | .ok () => .ok ()

def TINYDOCKER_MAX_NETWORK_NAME : Nat := 15

def validateNetworkName (name : Text) : Except Refusal Unit :=
  match tdValidateName name TINYDOCKER_MAX_NETWORK_NAME with
  | .error e => .error (.exit ("invalid network name: " ++ e))
  | .ok () => .ok ()

/-- The loop over the names of a command; the first that is refused ends it. -/
def validateAll (validate : Text → Except Refusal Unit) : List Text → Except Refusal Unit
  | [] => .ok ()
  | name :: names =>
    match validate name with
    | .error e => .error e
    | .ok () => validateAll validate names

/-- A command whose names have to be valid. -/
def checked (validate : Text → Except Refusal Unit) (names : List Text) (cmd : DockerCmd) :
    Except Refusal DockerCmd :=
  match validateAll validate names with
  | .error e => .error e
  | .ok () => .ok cmd

/-- The branch `run`; `argv` starts with the action, here and below. -/
def parseRun (argp : List Text → List ArgpCall) (now : Int) (argv : List Text) : Except Refusal DockerCmd :=
  match parseDockerRun argp now argv with
  | .error e => .error (.exit e)
  | .ok (arguments, env) => .ok (.run arguments env)

def parseCommit (words : List Text) : Except Refusal DockerCmd :=
  match words with
  | [name] => checked validateContainerName [name] (.commit name none)
  | [name, tar] => checked validateContainerName [name] (.commit name (some tar))
  | _ => .error (.exit "Usage:  docker commit [OPTIONS] CONTAINER [REPOSITORY[:TAG]]")

def parsePs (words : List Text) : Except Refusal DockerCmd :=
  match words with
  | [] => .ok (.ps false)
  | [word] => .ok (.ps (word = "-a".toList))
  | _ => .error (.exit "Usage:  docker ps [OPTIONS]")

/-- The branches `top`, `inspect` and `stats`. -/
def parseOne (words : List Text) (usage : String) (cmd : Text → DockerCmd) : Except Refusal DockerCmd :=
  match words with
  | [name] => checked validateContainerName [name] (cmd name)
  | _ => .error (.exit usage)

def parseExec (argp : List Text → List ArgpCall) (argv : List Text) : Except Refusal DockerCmd :=
  match (argp argv).foldlM (dockerExecParseFunc argv) ExecOptions.start with
  | .error e => .error (.exit e)
  | .ok a =>
    match a.containerName with
    | none => .error (.exit "Usage:  tinydocker exec [OPTIONS] CONTAINER COMMAND [ARG...]")
    | some name =>
      if a.containerArgv = [] then .error (.exit "Usage:  tinydocker exec [OPTIONS] CONTAINER COMMAND [ARG...]")
      else checked validateContainerName [name] (.exec ⟨name, a.detach, a.env, a.containerArgv⟩)

def parseStop (argp : List Text → List ArgpCall) (argv : List Text) : Except Refusal DockerCmd :=
  if argv.length < 2 then .error (.exit "Usage:  docker stop [OPTIONS] CONTAINER [CONTAINER...]")
  else match (argp argv).foldlM (dockerStopParseFunc argv) StopOptions.start with
    | .error e => .error e
    | .ok a =>
      if a.containerNames = [] ∨ a.time < 0 then
        .error (.exit "Usage:  docker stop [OPTIONS] CONTAINER [CONTAINER...]")
      else checked validateContainerName a.containerNames (.stop a.time a.containerNames)

def parseRm (words : List Text) : Except Refusal DockerCmd :=
  if words = [] then .error (.exit "Usage:  docker rm [OPTIONS] CONTAINER [CONTAINER...]")
  else checked validateContainerName words (.rm words)

def parseNetworkCreate (words : List Text) : Except Refusal DockerCmd :=
  match words with
  | [name, cider] =>
    match validateNetworkName name with
    | .error e => .error e
    | .ok () =>
      match tdParseIpv4Cidr cider with
      | .error e => .error (.exit ("invalid network CIDR: " ++ e))
      | .ok _ => .ok (.networkCreate name cider)
  | _ => .error (.exit "Usage:  docker network create NETWORK CIDR")

def parseNetworkRm (words : List Text) : Except Refusal DockerCmd :=
  if words = [] then .error (.exit "Usage:  docker network rm NETWORK [NETWORK...]")
  else checked validateNetworkName words (.networkRm words)

def parseNetwork : List Text → Except Refusal DockerCmd
  | [] => .error (.exit "Usage:  docker network COMMAND")
  | command :: words =>
    if command = "create".toList then parseNetworkCreate words
    else if command = "ls".toList then .ok .networkList
    else if command = "rm".toList then parseNetworkRm words
    else .error (.exit "wrong input command")

/-- `parse_docker_cmd`; `now` is the time in seconds. -/
def parseDockerCmd (argp : ArgpTable → List Text → List ArgpCall) (now : Int) :
    List Text → Except Refusal DockerCmd
  | _ :: action :: words =>
    if action = "run".toList then parseRun (argp .run) now (action :: words)
    else if action = "commit".toList then parseCommit words
    else if action = "ps".toList then parsePs words
    else if action = "top".toList then parseOne words "Usage:  docker top CONTAINER [ps OPTIONS]" .top
    else if action = "exec".toList then parseExec (argp .exec) (action :: words)
    else if action = "stop".toList then parseStop (argp .stop) (action :: words)
    else if action = "rm".toList then parseRm words
    else if action = "inspect".toList then parseOne words "Usage:  docker inspect CONTAINER" .inspect
    else if action = "stats".toList then parseOne words "Usage:  docker stats CONTAINER" .stats
    else if action = "network".toList then parseNetwork words
    else .error (.exit "wrong input command")
  | _ => .error (.exit "请输入有效的docker命令")

/-! ## What is accepted -/

/-- The containers that the command names. -/
def DockerCmd.containers : DockerCmd → List Text
  | .run arguments _ => [arguments.name]
  | .commit name _ => [name]
  | .top name => [name]
  | .exec arguments => [arguments.containerName]
  | .stop _ names => names
  | .rm names => names
  | .inspect name => [name]
  | .stats name => [name]
  | .ps _ => []
  | .networkCreate _ _ => []
  | .networkList => []
  | .networkRm _ => []

def DockerCmd.networks : DockerCmd → List Text
  | .networkCreate name _ => [name]
  | .networkRm names => names
  | _ => []

/-- The words that the command takes from the end of the command line as they stand. -/
def DockerCmd.operands : DockerCmd → List Text
  | .run arguments _ => arguments.containerArgv
  | .exec arguments => arguments.containerArgv
  | .stop _ names => names
  | .rm names => names
  | .networkRm names => names
  | _ => []

/-- The bounds of the arguments; the arrays have 128 entries, one of them for the null pointer behind words. -/
def DockerCmd.WithinBounds : DockerCmd → Prop
  | .run arguments env => ∃ a : RunOptions, a.Ok ∧ arguments = a.arguments ∧ env = a.env ∧
      arguments.containerArgv ≠ []
  | .exec arguments => (∀ p ∈ arguments.env, p.1 ≠ [] ∧ '=' ∉ p.1) ∧ arguments.env.length ≤ 128 ∧
      0 < arguments.containerArgv.length ∧ arguments.containerArgv.length < 128
  | .stop time names => 0 ≤ time ∧ time ≤ 3600 ∧ 0 < names.length ∧ names.length < 128
  | .rm names => names ≠ []
  | .networkCreate _ cider => ∃ address width, tdParseIpv4Cidr cider = .ok (address, width)
  | .networkRm names => names ≠ []
  | _ => True

/-- What a command has passed. -/
structure DockerCmd.Accepted (cmd : DockerCmd) (argv : List Text) : Prop where
  containers : ∀ name ∈ cmd.containers, tdValidateName name TINYDOCKER_MAX_CONTAINER_NAME = .ok ()
  networks : ∀ name ∈ cmd.networks, tdValidateName name TINYDOCKER_MAX_NETWORK_NAME = .ok ()
  bounds : cmd.WithinBounds
  operands : cmd.operands <:+ argv

section

variable {argv words : List Text} {cmd r : DockerCmd}

theorem validateContainerName_ok {name : Text} (h : validateContainerName name = .ok ()) :
    tdValidateName name TINYDOCKER_MAX_CONTAINER_NAME = .ok () := by
  unfold validateContainerName at h
  split at h
  · cases h
  · assumption

theorem validateNetworkName_ok {name : Text} (h : validateNetworkName name = .ok ()) :
    tdValidateName name TINYDOCKER_MAX_NETWORK_NAME = .ok () := by
  unfold validateNetworkName at h
  split at h
  · cases h
  · assumption

theorem validateAll_ok {validate : Text → Except Refusal Unit} : ∀ {names : List Text},
    validateAll validate names = .ok () → ∀ name ∈ names, validate name = .ok ()
  | [], _ => nofun
  | name :: names, h => by
    unfold validateAll at h
    split at h
    · cases h
    · rename_i hname
      exact List.forall_mem_cons.2 ⟨hname, validateAll_ok h⟩

theorem checked_ok {validate : Text → Except Refusal Unit} {names : List Text}
    (h : checked validate names cmd = .ok r) : r = cmd ∧ ∀ name ∈ names, validate name = .ok () := by
  unfold checked at h
  split at h
  · cases h
  · rename_i hall
    cases h
    exact ⟨rfl, validateAll_ok hall⟩

theorem checked_containers {names : List Text} (h : checked validateContainerName names cmd = .ok r) :
    r = cmd ∧ ∀ name ∈ names, tdValidateName name TINYDOCKER_MAX_CONTAINER_NAME = .ok () := by
  obtain ⟨hr, hall⟩ := checked_ok h
  exact ⟨hr, fun name hname => validateContainerName_ok (hall name hname)⟩

/-! ### `run` -/

/-- The command of the container is the end of the command line. -/
def RunOptions.Operands (argv : List Text) (a : RunOptions) : Prop :=
  (a.image = none → a.containerArgv = []) ∧ a.containerArgv <:+ argv

theorem dockerRunOption_operands {a b : RunOptions} {arg : Text} {key : Char} (ha : a.image = none)
    (h : dockerRunOption a arg key = .ok b) : b.image = none ∧ b.containerArgv = a.containerArgv := by
  unfold dockerRunOption at h
  split at h
  · split at h
    · cases h
    · split at h
      · cases h
      · cases h
        exact ⟨ha, rfl⟩
  · split at h
    · cases h
    · split at h
      · cases h
      · cases h
        exact ⟨ha, rfl⟩
  · cases h
    exact ⟨ha, rfl⟩
  · cases h
    exact ⟨ha, rfl⟩
  · split at h
    · cases h
    · cases h
      exact ⟨ha, rfl⟩
  · split at h
    · cases h
    · cases h
      exact ⟨ha, rfl⟩
  · cases h
    exact ⟨ha, rfl⟩
  · split at h
    · cases h
    · split at h
      · cases h
        exact ⟨ha, rfl⟩
      · cases h
  · cases h
    exact ⟨ha, rfl⟩

theorem dockerRunParseFunc_operands {a b : RunOptions} {call : ArgpCall} (ha : a.Operands argv)
    (h : dockerRunParseFunc argv a call = .ok b) : b.Operands argv := by
  unfold dockerRunParseFunc at h
  split at h
  · cases h
    exact ha
  · rename_i himage
    have hnone : a.image = none := Option.not_isSome_iff_eq_none.1 himage
    split at h
    · cases h
      exact ha
    · obtain ⟨hb, hwords⟩ := dockerRunOption_operands hnone h
      exact ⟨fun _ => hwords ▸ ha.1 hnone, hwords ▸ ha.2⟩
    · split at h
      · cases h
      · rename_i words hwords
        cases h
        have hempty : a.containerArgv.length ≤ DOCKER_RUN_ARG_CAPACITY - 1 := by
          rw [ha.1 hnone]
          exact Nat.zero_le _
        obtain ⟨hr, -⟩ := copyWords_ok hwords hempty
        rw [ha.1 hnone, List.nil_append] at hr
        exact ⟨nofun, hr ▸ List.drop_suffix _ _⟩

theorem parseRun_ok {argp : List Text → List ArgpCall} {now : Int} (h : parseRun argp now argv = .ok cmd) :
    cmd.Accepted argv := by
  unfold parseRun at h
  split at h
  · cases h
  · rename_i arguments env hparse
    cases h
    obtain ⟨a, hok, hargs, henv, hwords, hname⟩ := parseDockerRun_ok hparse
    refine ⟨List.forall_mem_singleton.2 hname, nofun, ⟨a, hok, hargs, henv, hwords⟩, ?_⟩
    unfold parseDockerRun at hparse
    split at hparse
    · cases hparse
    · rename_i b hcalls
      have hb : b.Operands argv := Runs.foldlM_keeps (fun _ _ _ => dockerRunParseFunc_operands)
        ⟨fun _ => rfl, List.nil_suffix⟩ hcalls
      split at hparse
      · cases hparse
      · split at hparse
        · cases hparse
        · cases hparse
          exact hb.2

/-! ### `exec` -/

/-- What `docker_exec_parse_func` keeps true from call to call. -/
structure ExecOptions.Ok (argv : List Text) (a : ExecOptions) : Prop where
  env : (∀ p ∈ a.env, p.1 ≠ [] ∧ '=' ∉ p.1) ∧ a.env.length ≤ 128
  unnamed : a.containerName = none → a.containerArgv = []
  words : a.containerArgv <:+ argv ∧ a.containerArgv.length ≤ DOCKER_RUN_ARG_CAPACITY - 1

theorem ExecOptions.start_ok : ExecOptions.start.Ok argv :=
  ⟨⟨nofun, Nat.zero_le _⟩, fun _ => rfl, List.nil_suffix, Nat.zero_le _⟩

theorem dockerExecOption_ok {a b : ExecOptions} {arg : Text} {key : Char} (ha : a.Ok argv)
    (h : dockerExecOption a arg key = .ok b) : b.Ok argv := by
  unfold dockerExecOption at h
  split at h
  · cases h
    exact { ha with }
  · cases h
    exact { ha with }
  · cases h
    exact { ha with }
  · split at h
    · cases h
    · rename_i hroom
      split at h
      · rename_i key val hpair
        cases h
        have henv : ∀ p ∈ a.env ++ [(key, val)], p.1 ≠ [] ∧ '=' ∉ p.1 :=
          List.forall_mem_append.2 ⟨ha.env.1, List.forall_mem_singleton.2 (parseKeyValPair_key hpair)⟩
        exact { ha with env := ⟨henv, length_concat_le hroom⟩ }
      · cases h
  · cases h
    exact ha

theorem dockerExecParseFunc_ok {a b : ExecOptions} {call : ArgpCall} (ha : a.Ok argv)
    (h : dockerExecParseFunc argv a call = .ok b) : b.Ok argv := by
  unfold dockerExecParseFunc at h
  split at h
  · cases h
    exact ha
  · rename_i hname
    have hnone : a.containerName = none := Option.not_isSome_iff_eq_none.1 hname
    split at h
    · cases h
      exact ha
    · exact dockerExecOption_ok ha h
    · split at h
      · cases h
      · rename_i words hwords
        cases h
        obtain ⟨hr, hlen⟩ := copyWords_ok hwords ha.words.2
        rw [ha.unnamed hnone, List.nil_append] at hr
        exact { ha with unnamed := nofun, words := ⟨hr ▸ List.drop_suffix _ _, hlen⟩ }

theorem parseExec_ok {argp : List Text → List ArgpCall} (h : parseExec argp argv = .ok cmd) :
    cmd.Accepted argv := by
  unfold parseExec at h
  split at h
  · cases h
  · rename_i a hcalls
    have ha : a.Ok argv :=
      Runs.foldlM_keeps (fun _ _ _ => dockerExecParseFunc_ok) ExecOptions.start_ok hcalls
    split at h
    · cases h
    · split at h
      · cases h
      · rename_i hwords
        obtain ⟨rfl, hnames⟩ := checked_containers h
        exact ⟨hnames, nofun, ⟨ha.env.1, ha.env.2, List.length_pos_of_ne_nil hwords,
          Nat.lt_succ_of_le ha.words.2⟩, ha.words.1⟩

/-! ### `stop` -/

/-- What `docker_stop_parse_func` keeps true from call to call. -/
structure StopOptions.Ok (argv : List Text) (a : StopOptions) : Prop where
  time : 0 ≤ a.time ∧ a.time ≤ 3600
  names : a.containerNames <:+ argv ∧ a.containerNames.length < 128

theorem StopOptions.start_ok : StopOptions.start.Ok argv :=
  ⟨by decide, List.nil_suffix, Nat.zero_lt_succ _⟩

theorem dockerStopParseFunc_ok {a b : StopOptions} {call : ArgpCall} (ha : a.Ok argv)
    (h : dockerStopParseFunc argv a call = .ok b) : b.Ok argv := by
  unfold dockerStopParseFunc at h
  split at h
  · cases h
    exact ha
  · split at h
    · cases h
      exact ha
    · split at h
      · split at h
        · cases h
        · rename_i value hvalue
          cases h
          have hrange := tdParseLong_ok hvalue
          exact { ha with time := ⟨hrange.1, hrange.2.1⟩ }
      · cases h
        exact ha
    · split at h
      · cases h
      · rename_i hroom
        cases h
        exact { ha with names := ⟨List.drop_suffix _ _, Nat.not_le.1 hroom⟩ }

theorem parseStop_ok {argp : List Text → List ArgpCall} (h : parseStop argp argv = .ok cmd) :
    cmd.Accepted argv := by
  unfold parseStop at h
  split at h
  · cases h
  · split at h
    · cases h
    · rename_i a hcalls
      have ha : a.Ok argv :=
        Runs.foldlM_keeps (fun _ _ _ => dockerStopParseFunc_ok) StopOptions.start_ok hcalls
      split at h
      · cases h
      · rename_i hsome
        rw [not_or] at hsome
        obtain ⟨rfl, hnames⟩ := checked_containers h
        exact ⟨hnames, nofun, ⟨ha.time.1, ha.time.2, List.length_pos_of_ne_nil hsome.1, ha.names.2⟩,
          ha.names.1⟩

/-! ### The other commands -/

theorem parseCommit_ok (h : parseCommit words = .ok cmd) : cmd.Accepted argv := by
  unfold parseCommit at h
  split at h
  · obtain ⟨rfl, hnames⟩ := checked_containers h
    exact ⟨hnames, nofun, trivial, List.nil_suffix⟩
  · obtain ⟨rfl, hnames⟩ := checked_containers h
    exact ⟨hnames, nofun, trivial, List.nil_suffix⟩
  · cases h

theorem parsePs_ok (h : parsePs words = .ok cmd) : cmd.Accepted argv := by
  unfold parsePs at h
  split at h
  · cases h
    exact ⟨nofun, nofun, trivial, List.nil_suffix⟩
  · cases h
    exact ⟨nofun, nofun, trivial, List.nil_suffix⟩
  · cases h

theorem parseOne_ok {usage : String} {make : Text → DockerCmd} (h : parseOne words usage make = .ok cmd)
    (hmake : ∀ name, tdValidateName name TINYDOCKER_MAX_CONTAINER_NAME = .ok () → (make name).Accepted argv) :
    cmd.Accepted argv := by
  unfold parseOne at h
  split at h
  · obtain ⟨rfl, hnames⟩ := checked_containers h
    exact hmake _ (hnames _ List.mem_cons_self)
  · cases h

theorem parseRm_ok (h : parseRm words = .ok cmd) (hargv : words <:+ argv) : cmd.Accepted argv := by
  unfold parseRm at h
  split at h
  · cases h
  · rename_i hsome
    obtain ⟨rfl, hnames⟩ := checked_containers h
    exact ⟨hnames, nofun, hsome, hargv⟩

theorem parseNetworkCreate_ok (h : parseNetworkCreate words = .ok cmd) : cmd.Accepted argv := by
  unfold parseNetworkCreate at h
  split at h
  · split at h
    · cases h
    · rename_i hname
      split at h
      · cases h
      · rename_i value hcidr
        cases h
        exact ⟨nofun, List.forall_mem_singleton.2 (validateNetworkName_ok hname), ⟨_, _, hcidr⟩, List.nil_suffix⟩
  · cases h

theorem parseNetworkRm_ok (h : parseNetworkRm words = .ok cmd) (hargv : words <:+ argv) : cmd.Accepted argv := by
  unfold parseNetworkRm at h
  split at h
  · cases h
  · rename_i hsome
    obtain ⟨rfl, hnames⟩ := checked_ok h
    exact ⟨nofun, fun name hname => validateNetworkName_ok (hnames name hname), hsome, hargv⟩

theorem parseNetwork_ok (h : parseNetwork words = .ok cmd) (hargv : words <:+ argv) : cmd.Accepted argv := by
  unfold parseNetwork at h
  split at h
  · cases h
  · have htail := (List.suffix_cons _ _).trans hargv
    split at h
    · exact parseNetworkCreate_ok h
    · split at h
      · cases h
        exact ⟨nofun, nofun, trivial, List.nil_suffix⟩
      · split at h
        · exact parseNetworkRm_ok h htail
        · cases h

theorem DockerCmd.Accepted.mono {argv' : List Text} (h : cmd.Accepted argv) (hargv : argv <:+ argv') :
    cmd.Accepted argv' :=
  { h with operands := h.operands.trans hargv }

theorem parseDockerCmd_ok {argp : ArgpTable → List Text → List ArgpCall} {now : Int}
    (h : parseDockerCmd argp now argv = .ok cmd) : cmd.Accepted argv := by
  unfold parseDockerCmd at h
  split at h
  · rename_i program action words
    have htail : action :: words <:+ program :: action :: words := List.suffix_cons _ _
    have hwords : words <:+ program :: action :: words := (List.suffix_cons _ _).trans htail
    split at h
    · exact (parseRun_ok h).mono htail
    split at h
    · exact parseCommit_ok h
    split at h
    · exact parsePs_ok h
    split at h
    · exact parseOne_ok h fun name hname =>
        ⟨List.forall_mem_singleton.2 hname, nofun, trivial, List.nil_suffix⟩
    split at h
    · exact (parseExec_ok h).mono htail
    split at h
    · exact (parseStop_ok h).mono htail
    split at h
    · exact parseRm_ok h hwords
    split at h
    · exact parseOne_ok h fun name hname =>
        ⟨List.forall_mem_singleton.2 hname, nofun, trivial, List.nil_suffix⟩
    split at h
    · exact parseOne_ok h fun name hname =>
        ⟨List.forall_mem_singleton.2 hname, nofun, trivial, List.nil_suffix⟩
    split at h
    · exact parseNetwork_ok h hwords
    · cases h
  · cases h

end

/-- **What a command has passed** when it reaches `main`, whatever calls `argp_parse` makes: every name is valid,
all the paths of every container it names can be built and lie in that container's places, the arguments keep
their bounds, and the words taken as they stand are the end of the command line. -/
theorem accepted_command {argp : ArgpTable → List Text → List ArgpCall} {now : Int} {argv : List Text}
    {cmd : DockerCmd} (h : parseDockerCmd argp now argv = .ok cmd) :
    (∀ name ∈ cmd.containers, tdValidateName name TINYDOCKER_MAX_CONTAINER_NAME = .ok () ∧
        ∀ p ∈ containerPaths name, ∃ path, p = some path ∧ Belongs name path) ∧
      (∀ name ∈ cmd.networks, tdValidateName name TINYDOCKER_MAX_NETWORK_NAME = .ok ()) ∧
      cmd.WithinBounds ∧ cmd.operands <:+ argv := by
  obtain ⟨hcontainers, hnetworks, hbounds, hoperands⟩ := parseDockerCmd_ok h
  exact ⟨fun name hname => ⟨hcontainers name hname, containerPaths_belong (hcontainers name hname)⟩,
    hnetworks, hbounds, hoperands⟩

/-- What `argp_parse` calls for `stop -t 5 web db`. -/
def stopTwo : ArgpTable → List Text → List ArgpCall :=
  fun _ _ => [.other, .option 't' "5".toList, .argument "web".toList 4, .argument "db".toList 5, .other]

theorem stop_two_accepted : (DockerCmd.stop 5 [ "web".toList, "db".toList]).WithinBounds ∧
    [ "web".toList, "db".toList] <:+ "tinydocker".toList :: "stop".toList ::
      [ "-t".toList, "5".toList, "web".toList, "db".toList] := by
  have h : parseDockerCmd stopTwo 0 ("tinydocker".toList :: "stop".toList ::
      [ "-t".toList, "5".toList, "web".toList, "db".toList]) = .ok (.stop 5 [ "web".toList, "db".toList]) := by
    decide +kernel
  exact (accepted_command h).2.2

/-! ## The array of `docker stop` -/

/-- The calls before the names: no bad timeout, and no word that the array takes a name from. -/
def BeforeNames (argv : List Text) : ArgpCall → Prop
  | .other => True
  | .option key arg => key = 't' → ∃ value, tdParseLong arg 0 3600 = .ok value
  | .argument _ next => argv.drop (next - 1) = []

section

variable {argv words : List Text}

theorem stopCalls_unnamed {calls : List ArgpCall} : ∀ {a b : StopOptions}, a.containerNames = [] →
    calls.foldlM (dockerStopParseFunc argv) a = .ok b → b.containerNames = [] →
    ∀ call ∈ calls, BeforeNames argv call := by
  induction calls with
  | nil => exact fun _ _ _ => nofun
  | cons call calls ih =>
    intro a b ha h hb
    obtain ⟨mid, hmid, hrest⟩ := Runs.foldlM_cons_ok.1 h
    have hkeep : mid.containerNames = [] → ∀ c ∈ calls, BeforeNames argv c := fun hnone => ih hnone hrest hb
    have hnamed : mid.containerNames ≠ [] → False := by
      intro hsome
      have hstill : b.containerNames ≠ [] :=
        @Runs.foldlM_keeps _ _ _ (dockerStopParseFunc argv) (fun a => a.containerNames ≠ [])
          (fun s c s' hs hstep => by
            unfold dockerStopParseFunc at hstep
            rw [if_pos hs] at hstep
            cases hstep
            exact hs) calls mid b hsome hrest
      exact hstill hb
    unfold dockerStopParseFunc at hmid
    rw [if_neg (not_not.2 ha)] at hmid
    cases call with
    | other =>
      cases hmid
      exact List.forall_mem_cons.2 ⟨trivial, hkeep ha⟩
    | option key arg =>
      simp only at hmid
      split at hmid
      · split at hmid
        · cases hmid
        · rename_i value hvalue
          cases hmid
          exact List.forall_mem_cons.2 ⟨fun _ => ⟨value, hvalue⟩, hkeep ha⟩
      · rename_i hkey
        cases hmid
        exact List.forall_mem_cons.2 ⟨fun h => absurd h hkey, hkeep ha⟩
    | argument arg next =>
      simp only at hmid
      split at hmid
      · cases hmid
      · cases hmid
        have hnone : argv.drop (next - 1) = [] := not_not.1 hnamed
        exact List.forall_mem_cons.2 ⟨hnone, hkeep hnone⟩

theorem stopCalls_before {calls : List ArgpCall} : ∀ {a : StopOptions}, a.containerNames = [] →
    (∀ call ∈ calls, BeforeNames argv call) →
    ∃ b, calls.foldlM (dockerStopParseFunc argv) a = .ok b ∧ b.containerNames = [] := by
  induction calls with
  | nil => exact fun ha _ => ⟨_, rfl, ha⟩
  | cons call calls ih =>
    intro a ha hcalls
    obtain ⟨hcall, hrest⟩ := List.forall_mem_cons.1 hcalls
    have hmid : ∃ mid, dockerStopParseFunc argv a call = .ok mid ∧ mid.containerNames = [] := by
      unfold dockerStopParseFunc
      rw [if_neg (not_not.2 ha)]
      cases call with
      | other => exact ⟨a, rfl, ha⟩
      | option key arg =>
        simp only
        split
        · rename_i hkey
          obtain ⟨value, hvalue⟩ := hcall hkey
          rw [hvalue]
          exact ⟨_, rfl, ha⟩
        · exact ⟨a, rfl, ha⟩
      | argument arg next =>
        have hnone : argv.drop (next - 1) = [] := hcall
        simp only
        rw [hnone, if_neg (by decide)]
        exact ⟨_, rfl, rfl⟩
    obtain ⟨mid, hstep, hnone⟩ := hmid
    obtain ⟨b, hb, hempty⟩ := ih hnone hrest
    exact ⟨b, Runs.foldlM_cons_ok.2 ⟨mid, hstep, hb⟩, hempty⟩

theorem dockerStopParseFunc_overflow {a : StopOptions} {call : ArgpCall} :
    dockerStopParseFunc argv a call = .error .outOfBounds ↔ a.containerNames = [] ∧
      ∃ arg next, call = .argument arg next ∧ 128 ≤ (argv.drop (next - 1)).length := by
  unfold dockerStopParseFunc
  split
  · rename_i hsome
    exact ⟨nofun, fun h => absurd h.1 hsome⟩
  · rename_i hnone
    have hempty : a.containerNames = [] := not_not.1 hnone
    split
    · exact ⟨nofun, fun ⟨_, _, _, hcall, _⟩ => by cases hcall⟩
    · refine ⟨fun h => ?_, fun ⟨_, _, _, hcall, _⟩ => by cases hcall⟩
      split at h
      · split at h
        · cases h
        · cases h
      · cases h
    · rename_i arg next
      split
      · rename_i hlong
        exact ⟨fun _ => ⟨hempty, arg, next, rfl, hlong⟩, fun _ => rfl⟩
      · rename_i hshort
        refine ⟨nofun, fun ⟨_, arg', next', hcall, hlong⟩ => ?_⟩
        cases hcall
        exact absurd hlong hshort

/-- The calls that lead to the write behind the array. -/
def WritesBehind (argv : List Text) (calls : List ArgpCall) : Prop :=
  ∃ before arg next after, calls = before ++ .argument arg next :: after ∧
    (∀ call ∈ before, BeforeNames argv call) ∧ 128 ≤ (argv.drop (next - 1)).length

theorem stopCalls_overflow {calls : List ArgpCall} :
    calls.foldlM (dockerStopParseFunc argv) StopOptions.start = .error .outOfBounds ↔ WritesBehind argv calls := by
  rw [Runs.foldlM_error_iff]
  constructor
  · rintro ⟨before, call, after, mid, rfl, hbefore, hcall⟩
    obtain ⟨hnone, arg, next, rfl, hlong⟩ := dockerStopParseFunc_overflow.1 hcall
    exact ⟨before, arg, next, after, rfl, stopCalls_unnamed rfl hbefore hnone, hlong⟩
  · rintro ⟨before, arg, next, after, rfl, hbefore, hlong⟩
    obtain ⟨mid, hmid, hnone⟩ := stopCalls_before (a := StopOptions.start) rfl hbefore
    exact ⟨before, _, after, mid, rfl, hmid,
      dockerStopParseFunc_overflow.2 ⟨hnone, arg, next, rfl, hlong⟩⟩

theorem validateContainerName_exits {name : Text} : validateContainerName name ≠ .error .outOfBounds := by
  unfold validateContainerName
  split
  · nofun
  · nofun

theorem validateNetworkName_exits {name : Text} : validateNetworkName name ≠ .error .outOfBounds := by
  unfold validateNetworkName
  split
  · nofun
  · nofun

theorem checked_exits {validate : Text → Except Refusal Unit} {cmd : DockerCmd}
    (hexits : ∀ name, validate name ≠ .error .outOfBounds) :
    ∀ {names : List Text}, checked validate names cmd ≠ .error .outOfBounds
  | [] => nofun
  | name :: names => by
    have hrest := @checked_exits validate cmd hexits names
    unfold checked at hrest ⊢
    unfold validateAll
    cases hname : validate name with
    | error e =>
      intro h
      cases h
      exact hexits name hname
    | ok u => exact hrest

theorem checkedContainers_exits {names : List Text} {cmd : DockerCmd} :
    checked validateContainerName names cmd ≠ .error .outOfBounds :=
  checked_exits fun _ => validateContainerName_exits

theorem parseOne_exits {usage : String} {make : Text → DockerCmd} :
    parseOne words usage make ≠ .error .outOfBounds := by
  unfold parseOne
  split
  · exact checkedContainers_exits
  · nofun

theorem parseNetwork_exits : parseNetwork words ≠ .error .outOfBounds := by
  unfold parseNetwork parseNetworkCreate parseNetworkRm
  split
  · nofun
  · split
    · split
      · split
        · rename_i e hname
          intro h
          cases h
          exact validateNetworkName_exits hname
        · split
          · nofun
          · nofun
      · nofun
    · split
      · nofun
      · split
        · split
          · nofun
          · exact checked_exits fun _ => validateNetworkName_exits
        · nofun

theorem parseStop_overflow {argp : List Text → List ArgpCall} :
    parseStop argp argv = .error .outOfBounds ↔ 2 ≤ argv.length ∧ WritesBehind argv (argp argv) := by
  unfold parseStop
  split
  · rename_i hshort
    exact ⟨nofun, fun h => absurd hshort (Nat.not_lt.2 h.1)⟩
  · rename_i hlong
    rw [← stopCalls_overflow]
    split
    · rename_i e hcalls
      rw [hcalls]
      refine ⟨fun h => ⟨Nat.not_lt.1 hlong, ?_⟩, fun h => ?_⟩
      · cases h
        rfl
      · cases h.2
        rfl
    · rename_i a hcalls
      rw [hcalls]
      refine ⟨fun h => ?_, fun h => (by cases h.2)⟩
      split at h
      · cases h
      · exact absurd h checkedContainers_exits

end

/-- **The command lines that write behind an array**: those of `docker stop` where 128 words or more begin at the
first that is no option, every timeout before them being valid.  No other command line does. -/
theorem stop_overflow_iff {argp : ArgpTable → List Text → List ArgpCall} {now : Int} {argv : List Text} :
    parseDockerCmd argp now argv = .error .outOfBounds ↔
      ∃ program words, argv = program :: "stop".toList :: words ∧ words ≠ [] ∧
        WritesBehind ("stop".toList :: words) (argp .stop ("stop".toList :: words)) := by
  have hwords : "stop".toList ≠ "run".toList ∧ "stop".toList ≠ "commit".toList ∧
      "stop".toList ≠ "ps".toList ∧ "stop".toList ≠ "top".toList ∧ "stop".toList ≠ "exec".toList := by decide
  constructor
  · intro h
    unfold parseDockerCmd at h
    split at h
    · rename_i program action words
      split at h
      · unfold parseRun at h
        split at h
        · cases h
        · cases h
      split at h
      · unfold parseCommit at h
        split at h
        · exact absurd h checkedContainers_exits
        · exact absurd h checkedContainers_exits
        · cases h
      split at h
      · unfold parsePs at h
        split at h
        · cases h
        · cases h
        · cases h
      split at h
      · exact absurd h parseOne_exits
      split at h
      · unfold parseExec at h
        split at h
        · cases h
        · split at h
          · cases h
          · split at h
            · cases h
            · exact absurd h checkedContainers_exits
      split at h
      · rename_i hstop
        subst hstop
        obtain ⟨hlen, hbehind⟩ := parseStop_overflow.1 h
        refine ⟨program, words, rfl, fun hnil => ?_, hbehind⟩
        rw [hnil] at hlen
        exact absurd hlen (by decide)
      split at h
      · unfold parseRm at h
        split at h
        · cases h
        · exact absurd h checkedContainers_exits
      split at h
      · exact absurd h parseOne_exits
      split at h
      · exact absurd h parseOne_exits
      split at h
      · exact absurd h parseNetwork_exits
      · cases h
    · cases h
  · rintro ⟨program, words, rfl, hne, hbehind⟩
    have hlen : 2 ≤ ("stop".toList :: words).length :=
      Nat.succ_le_succ (List.length_pos_of_ne_nil hne)
    unfold parseDockerCmd
    simp only
    rw [if_neg hwords.1, if_neg hwords.2.1, if_neg hwords.2.2.1, if_neg hwords.2.2.2.1, if_neg hwords.2.2.2.2,
      if_pos trivial]
    exact parseStop_overflow.2 ⟨hlen, hbehind⟩

end TinyDocker
