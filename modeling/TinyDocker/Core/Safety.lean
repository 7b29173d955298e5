import TinyDocker.Lib.Ipv4

/-!
# Input validation (`core/safety.c`)

The checks every other module relies on: names, bounded integers, port mappings, volume specifications, CIDR
texts, paths below a root directory and veth names.  Functions that fill an error buffer return
`Except String`, with the message of the source.

Principal results: `tdParseVolumeSpec_ok` — what an accepted volume specification looks like;
`tdParseVolumeSpec_print` — printing an accepted volume as `host:container:mode` and parsing it
again gives it back; `tdParseIpv4Cidr_chars` — the characters of an accepted CIDR text.
-/

set_option autoImplicit false

namespace TinyDocker

open CText

/-! ## Names -/

def nameChar (c : Char) : Bool := c.isAlphanum || c == '.' || c == '_' || c == '-'

/-- `%02x`. -/
def hex2 (n : Nat) : String :=
  let ds := Nat.toDigits 16 n
  String.ofList (if ds.length < 2 then '0' :: ds else ds)

def tdValidateName (name : Text) (maxLength : Nat) : Except String Unit :=
  if name = [] then .error "name must not be empty"
  else if maxLength < name.length then .error ("name length must be <= " ++ toString maxLength)
  else if name = ['.'] ∨ name = ['.', '.'] then .error "name is a reserved path component"
  else match name.find? (fun c => !nameChar c) with
    | some c => .error ("name contains invalid byte 0x" ++ hex2 c.toNat ++
        "; allowed: [A-Za-z0-9._-]")
    | none => .ok ()

theorem tdValidateName_ok {name : Text} {n : Nat} (h : tdValidateName name n = .ok ()) :
    name ≠ [] ∧ name.length ≤ n ∧ ∀ c ∈ name, nameChar c = true := by
  unfold tdValidateName at h
  split at h
  · cases h
  rename_i hne
  split at h
  · cases h
  rename_i hlen
  split at h
  · cases h
  split at h
  · cases h
  rename_i hfind
  refine ⟨hne, by omega, fun c hc => ?_⟩
  have := List.find?_eq_none.1 hfind c hc
  simpa using this

theorem not_mem_of_nameChar {name : Text} (h : ∀ c ∈ name, nameChar c = true) {c : Char}
    (hc : nameChar c = false) : c ∉ name := by
  intro hm
  rw [h c hm] at hc
  cases hc

/-! ## Integers -/

def tdParseLong (text : Text) (minimum maximum : Int) : Except String Int :=
  if text = [] ∨ maximum < minimum then .error "invalid integer input"
  else match strtol text with
    | some (parsed, []) =>
      if parsed < minimum ∨ maximum < parsed then
        .error ("integer must be in range " ++ toString minimum ++ ".." ++ toString maximum)
      else .ok parsed
    | _ => .error ("value must be a base-10 integer: " ++ String.ofList text)

theorem tdParseLong_ok {text : Text} {lo hi v : Int} (h : tdParseLong text lo hi = .ok v) :
    lo ≤ v ∧ v ≤ hi ∧ ∀ c ∈ text, isSpace c = true ∨ c = '-' ∨ c = '+' ∨ c.isDigit = true := by
  unfold tdParseLong at h
  split at h
  · cases h
  split at h
  · rename_i parsed hs
    split at h
    · cases h
    rename_i hr
    cases h
    refine ⟨by omega, by omega, ?_⟩
    exact strtol_chars hs
  · cases h

theorem tdParseLong_toDigits {n : Nat} {lo hi : Int} (hlo : lo ≤ n) (hhi : (n : Int) ≤ hi)
    (hn : n < 2 ^ 63) : tdParseLong (Nat.toDigits 10 n) lo hi = .ok n := by
  have hne : Nat.toDigits 10 n ≠ [] := Nat.toDigits_ne_nil
  have hscan := @strtol_toDigits n hn [] (by simp)
  rw [List.append_nil] at hscan
  unfold tdParseLong
  rw [if_neg (by simp only [hne, false_or]; omega), hscan]
  simp only
  rw [if_neg (by omega)]

/-! ## Port mappings -/

def tdParsePortMapping (text : Text) : Except String (Int × Int) :=
  match cut ':' text with
  | none => .error "port mapping must be host:container"
  | some (host, container) =>
    if host = [] ∨ container = [] ∨ ':' ∈ container then .error "port mapping must be host:container"
    -- each part is copied into a buffer of eight bytes
    else if 8 ≤ host.length ∨ 8 ≤ container.length then .error "port value is too long"
    else match tdParseLong host 1 65535 with
      | .error e => .error e
      | .ok hostPort =>
        match tdParseLong container 1 65535 with
        | .error e => .error e
        | .ok containerPort => .ok (hostPort, containerPort)

theorem tdParsePortMapping_ok {text : Text} {host container : Int}
    (h : tdParsePortMapping text = .ok (host, container)) :
    1 ≤ host ∧ host ≤ 65535 ∧ 1 ≤ container ∧ container ≤ 65535 := by
  unfold tdParsePortMapping at h
  split at h
  · cases h
  split at h
  · cases h
  split at h
  · cases h
  split at h
  · cases h
  rename_i hostPort hhost
  split at h
  · cases h
  rename_i containerPort hcontainer
  cases h
  have hh := tdParseLong_ok hhost
  have hc := tdParseLong_ok hcontainer
  exact ⟨hh.1, hh.2.1, hc.1, hc.2.1⟩

/-! ## Paths below a root directory -/

/-- The non-empty `/`-separated components of a path. -/
def components (path : Text) : List Text := tokens (· == '/') path

def hasUnsafePathComponent (path : Text) : Bool :=
  (components path).any fun c => c == ['.'] || c == ['.', '.']

def tdJoinRootfsPath (rootfs containerPath : Text) (outputSize : Nat) : Except String Text :=
  if rootfs.head? ≠ some '/' ∨ outputSize = 0 then .error "invalid rootfs path arguments"
  else if containerPath.head? ≠ some '/' then .error "container path must be absolute"
  else if containerPath = ['/'] then .error "mounting over the container root is not allowed"
  else if hasUnsafePathComponent containerPath then
    .error "container path contains traversal component"
  else
    let output := rootfs ++
      (if rootfs.getLast? = some '/' then containerPath.drop 1 else containerPath)
    if outputSize ≤ output.length then .error "container path is too long" else .ok output

/-- Leading `./` of an archive entry. -/
def dropDotSlash : Text → Text
  | '.' :: '/' :: rest => dropDotSlash rest
  | entry => entry

def tdArchiveEntryIsSafe (entry : Text) : Bool :=
  if entry = [] ∨ entry.head? = some '/' ∨ '\n' ∈ entry ∨ '\r' ∈ entry then false
  else decide (dropDotSlash entry = []) || !hasUnsafePathComponent (dropDotSlash entry)

example : tdArchiveEntryIsSafe "./usr/bin/tool".toList = true := by decide
example : tdArchiveEntryIsSafe "usr/../../host".toList = false := by decide

/-! ## Volume specifications -/

/-- The container field and, after `second_separator`, the mode. -/
def splitMode (rest : Text) : Text × Option Text :=
  match cut ':' rest with
  | none => (rest, none)
  | some (container, mode) => (container, some mode)

theorem splitMode_container (rest : Text) : ':' ∉ (splitMode rest).1 := by
  unfold splitMode
  split
  · rename_i h; exact cut_eq_none.1 h
  · rename_i h; exact (cut_eq_some h).2

/-- `td_parse_volume_spec`: the host path, the container path and the read-only flag. -/
def tdParseVolumeSpec (text : Text) (hostSize containerSize : Nat) :
    Except String (Text × Text × Int) :=
  match cut ':' text with
  | none => .error "volume must use host:container[:ro|rw] form"
  | some (host, rest) =>
    if host = [] ∨ rest = [] then .error "volume must use host:container[:ro|rw] form"
    else
      let container := (splitMode rest).1
      let mode := (splitMode rest).2
      if mode.any (fun m => m.contains ':') then .error "volume has too many fields"
      else if hostSize ≤ host.length ∨ container = [] ∨ containerSize ≤ container.length then
        .error "volume path is empty or too long"
      else if host.head? ≠ some '/' ∨ host.contains '\n' ∨ host.contains '\r' then
        .error "volume host path must be an absolute single-line path"
      else match tdJoinRootfsPath "/rootfs".toList container 4096 with
        | .error e => .error e
        | .ok _ =>
          match mode with
          | none => .ok (host, container, 0)
          | some m =>
            if m = "ro".toList then .ok (host, container, 1)
            else if m = "rw".toList then .ok (host, container, 0)
            else .error "volume mode must be ro or rw"

/-- The checks an accepted volume has passed. -/
structure VolumeOk (hostSize containerSize : Nat) (host container : Text) : Prop where
  host_ne : host ≠ []
  container_ne : container ≠ []
  host_len : host.length < hostSize
  container_len : container.length < containerSize
  host_sep : ':' ∉ host
  container_sep : ':' ∉ container
  host_abs : host.head? = some '/'
  host_line : '\n' ∉ host ∧ '\r' ∉ host
  join : ∃ p, tdJoinRootfsPath "/rootfs".toList container 4096 = .ok p

theorem tdParseVolumeSpec_ok {text : Text} {m n : Nat} {host container : Text} {ro : Int}
    (h : tdParseVolumeSpec text m n = .ok (host, container, ro)) :
    VolumeOk m n host container ∧ (ro = 0 ∨ ro = 1) := by
  unfold tdParseVolumeSpec at h
  split at h
  · cases h
  rename_i h0 rest hcut
  split at h
  · cases h
  rename_i hne
  obtain ⟨-, hsep⟩ := cut_eq_some hcut
  have hc0 := splitMode_container rest
  simp only at h
  generalize (splitMode rest).1 = c0 at h hc0
  split at h
  · cases h
  split at h
  · cases h
  rename_i hlen
  split at h
  · cases h
  rename_i hhost
  split at h
  · cases h
  rename_i p hjoin
  simp only [not_or, Nat.not_le] at hlen hne
  simp only [not_or, not_not, List.contains_iff_mem] at hhost
  have key : VolumeOk m n h0 c0 :=
    ⟨hne.1, hlen.2.1, hlen.1, hlen.2.2, hsep, hc0, hhost.1, hhost.2, p, hjoin⟩
  split at h
  · cases h; exact ⟨key, Or.inl rfl⟩
  · split at h
    · cases h; exact ⟨key, Or.inr rfl⟩
    · split at h
      · cases h; exact ⟨key, Or.inl rfl⟩
      · cases h

/-- The mode word that is written for a read-only flag. -/
def modeWord (ro : Int) : Text := if ro = 1 then "ro".toList else "rw".toList

/-- **An accepted volume survives printing and parsing.** -/
theorem tdParseVolumeSpec_print {m n : Nat} {host container : Text} {ro : Int}
    (hv : VolumeOk m n host container) (hro : ro = 0 ∨ ro = 1) :
    tdParseVolumeSpec (host ++ ':' :: (container ++ ':' :: modeWord ro)) m n =
      .ok (host, container, ro) := by
  obtain ⟨p, hp⟩ := hv.join
  have hmode : (modeWord ro).contains ':' = false := by
    rcases hro with rfl | rfl <;> decide
  unfold tdParseVolumeSpec
  rw [cut_append hv.host_sep]
  simp only
  rw [if_neg (by simp [hv.host_ne])]
  simp only [splitMode, cut_append hv.container_sep, Option.any_some, hmode, Bool.false_eq_true, ↓reduceIte]
  rw [if_neg (by simp [hv.container_ne, hv.host_len, hv.container_len]),
    if_neg (by simp [hv.host_abs, hv.host_line]), hp]
  rcases hro with rfl | rfl
  · rfl
  · rfl

/-! ## CIDR texts -/

/-- `prefix == 0 ? 0 : UINT32_MAX << (32 - prefix)`. -/
def cidrMask (width : Nat) : UInt32 :=
  if width = 0 then 0 else 0xFFFFFFFF <<< UInt32.ofNat (32 - width)

/-- `td_parse_ipv4_cidr`: network address and prefix length. -/
def tdParseIpv4Cidr (text : Text) : Except String (UInt32 × Nat) :=
  match cut '/' text with
  | none => .error "CIDR must have address/prefix form"
  | some (address, width) =>
    if address = [] ∨ width = [] ∨ width.contains '/' then
      .error "CIDR must have address/prefix form"
    else if 16 ≤ address.length ∨ 4 ≤ width.length then .error "CIDR is too long"
    else match Ipv4.inetPton address with
      | none => .error "CIDR contains an invalid IPv4 address"
      | some host =>
        match tdParseLong width 0 32 with
        | .error e => .error e
        | .ok w => .ok (host &&& cidrMask w.toNat, w.toNat)

/-- The characters a CIDR text can have: `strtol` lets white space and a sign through. -/
def cidrChar (c : Char) : Bool :=
  c == '.' || c == '/' || isSpace c || c == '-' || c == '+' || c.isDigit

theorem tdParseIpv4Cidr_chars {text : Text} {r : UInt32 × Nat} (h : tdParseIpv4Cidr text = .ok r) :
    text.length ≤ 19 ∧ text ≠ [] ∧ ∀ c ∈ text, cidrChar c = true := by
  unfold tdParseIpv4Cidr at h
  split at h
  · cases h
  rename_i address width hcut
  split at h
  · cases h
  split at h
  · cases h
  rename_i hlen
  split at h
  · cases h
  rename_i host hpton
  split at h
  · cases h
  rename_i w hlong
  obtain ⟨htext, -⟩ := cut_eq_some hcut
  subst htext
  refine ⟨?_, by simp, fun c hc => ?_⟩
  · simp only [not_or, Nat.not_le] at hlen
    simp only [List.length_append, List.length_cons]
    omega
  · rcases List.mem_append.1 hc with hc | hc
    · rcases Ipv4.inetPton_chars hpton c hc with rfl | hd
      · decide
      · simp [cidrChar, hd]
    · rcases List.mem_cons.1 hc with rfl | hc
      · decide
      · rcases (tdParseLong_ok hlong).2.2 c hc with hd | rfl | rfl | hd
        · simp [cidrChar, hd]
        · decide
        · decide
        · simp [cidrChar, hd]

/-- The address of a network of width at most 30 is a multiple of four. -/
theorem cidr_network_mod_four {text : Text} {network : UInt32} {width : Nat}
    (h : tdParseIpv4Cidr text = .ok (network, width)) (hw : width ≤ 30) :
    network.toNat % 4 = 0 := by
  unfold tdParseIpv4Cidr at h
  split at h
  · cases h
  split at h
  · cases h
  split at h
  · cases h
  split at h
  · cases h
  rename_i host _
  split at h
  · cases h
  simp only [Except.ok.injEq, Prod.mk.injEq] at h
  obtain ⟨rfl, rfl⟩ := h
  rename_i w _
  have key : ∀ k, k ≤ 30 → (cidrMask k).toNat % 4 = 0 := by decide
  have hmask := key w.toNat hw
  rw [UInt32.toNat_and]
  have hbit : ∀ i, i < 2 → ((host.toNat &&& (cidrMask w.toNat).toNat) % 2 ^ 2).testBit i = false := by
    intro i hi
    have hm : ((cidrMask w.toNat).toNat % 2 ^ 2).testBit i = false := by
      rw [show (2 : Nat) ^ 2 = 4 by rfl, hmask]; simp
    rw [Nat.testBit_mod_two_pow] at hm ⊢
    simp only [hi, decide_true, Bool.true_and] at hm
    simp [Nat.testBit_and, hm]
  have hzero : (host.toNat &&& (cidrMask w.toNat).toNat) % 2 ^ 2 = 0 := by
    apply Nat.eq_of_testBit_eq
    intro i
    by_cases hi : i < 2
    · rw [hbit i hi]; simp
    · rw [Nat.testBit_mod_two_pow]; simp [hi]
  simpa using hzero

/-! ## Interface names -/

/-- The FNV-1a hash of a name. -/
def nameHash (name : Text) : UInt32 :=
  name.foldl (fun hash c => (hash ^^^ UInt32.ofNat c.toNat) * 16777619) 2166136261

/-- `%06x`. -/
def hex6 (n : Nat) : Text :=
  let ds := Nat.toDigits 16 n
  List.replicate (6 - ds.length) '0' ++ ds

def tdMakeVethName (containerName : Text) : Option Text :=
  match tdValidateName containerName 127 with
  | .error _ => none
  | .ok () =>
    let output := 't' :: 'd' :: (containerName.take 6 ++
      '-' :: hex6 (nameHash containerName &&& 0x00ffffff).toNat)
    -- only a name of at least six bytes fills the 15 bytes
    if output.length = 15 then some output else none

def tdMakeVethPeerName (containerName : Text) : Option Text :=
  (tdMakeVethName containerName).map fun output => output.set 1 'p'

theorem tdMakeVethName_length {name output : Text} (h : tdMakeVethName name = some output) :
    output.length = 15 := by
  unfold tdMakeVethName at h
  split at h
  · cases h
  simp only at h
  split at h
  · rename_i hlen
    cases h
    exact hlen
  · cases h

end TinyDocker
