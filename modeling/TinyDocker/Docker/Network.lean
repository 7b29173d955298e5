import TinyDocker.Core.Process
import TinyDocker.Docker.Host

/-!
# Connecting a container (`docker/network.c`)

`connectContainer` allocates an address, creates a veth pair and configures both ends;
`disconnectContainer` removes the pair; `setContainerPortMap` and `unsetContainerPortMap` add and
remove the DNAT rules of an address.
-/

set_option autoImplicit false

namespace TinyDocker

open CText

/-! ## Addresses -/

/-- `alloc_new_ip`, with the address as text. -/
def allocNewIpText (env : Env) (network : Text) (h : Host) : Option (Host × Text) :=
  match (loadNetworks h).bind (allocNewIp network) with
  | none => none
  | some (records, allocated) =>
    if env.fails .networkWrite then none
    else some ({ h with networks := records }, Ipv4.inetNtop allocated)

/-- `release_used_ip` on the host. -/
def releaseUsedIpText (env : Env) (site : Site) (network ip : Text) (h : Host) : Host × Bool :=
  if strIpToInt ip = 0 ∨ env.fails site then (h, false)
  else match (loadNetworks h).bind (releaseUsedIp network (strIpToInt ip)) with
    | none => (h, false)
    | some records => ({ h with networks := records }, true)

/-! ## Interfaces -/

def findLink (name : Text) (h : Host) : Option Link := h.links.find? fun l => decide (l.name = name)

/-- `build_interface_alias("container", ...)`. -/
def containerAlias (name : Text) : Text := "tinydocker-container:".toList ++ name

/-- `verify_interface_ownership` of an existing interface that need not be a bridge. -/
def ownsInterface (env : Env) (l : Link) (expectedAlias : Text) : Bool :=
  !env.fails .aliasRead && decide (l.ifalias = expectedAlias)

/-- `ip link delete`: the other end goes with it. -/
def deleteLink (l : Link) (h : Host) : Host :=
  { h with links := h.links.filter fun x => decide (x.name ≠ l.name ∧ some x.name ≠ l.peer) }

/-- `delete_owned_veth`. -/
def deleteOwnedVeth (env : Env) (site : Site) (name expectedAlias : Text) (h : Host) : Host × Bool :=
  match findLink name h with
  | none => (h, true)
  | some l =>
    if ownsInterface env l expectedAlias = false then (h, false)
    else if env.fails site then (h, false)
    else (deleteLink l h, true)

def updateLink (name : Text) (f : Link → Link) (h : Host) : Host :=
  { h with links := h.links.map fun l => if l.name = name then f l else l }

/-- The commands that configure the pair, in order: attach to the bridge, set up, move the peer,
and six that run inside the container's namespace. -/
def vethCommands (network vethHost vethPeer : Text) : List (Host → Host) :=
  [ updateLink vethHost (fun l => { l with master := some network }), id,
    fun h => updateLink vethHost (fun l => { l with peer := none })
      { h with links := h.links.filter fun l => decide (l.name ≠ vethPeer) },
    id, id, id, id, id, id]

def runVethCommands (env : Env) : Nat → List (Host → Host) → Host → Host × Bool
  | _, [], h => (h, true)
  | k, c :: cs, h => if env.fails (.vethCommand k) then (h, false) else runVethCommands env (k + 1) cs (c h)

/-- The two ends of a new pair. -/
def hostEnd (vethHost vethPeer : Text) (h : Host) : Link :=
  ⟨vethHost, h.nextIndex + 1, [], some vethPeer, none⟩

def peerEnd (vethHost vethPeer : Text) (h : Host) : Link :=
  ⟨vethPeer, h.nextIndex, [], some vethHost, none⟩

/-- `ip link add`. -/
def addVethPair (vethHost vethPeer : Text) (h : Host) : Host :=
  { h with
    links := h.links ++ [peerEnd vethHost vethPeer h, hostEnd vethHost vethPeer h]
    nextIndex := h.nextIndex + 2 }

/-- The ownership mark, then the other commands. -/
def configureVeth (env : Env) (name network vethHost vethPeer : Text) (h : Host) : Host × Bool :=
  runVethCommands env 0 (vethCommands network vethHost vethPeer)
    (updateLink vethHost (fun l => { l with ifalias := containerAlias name }) h)

/-- The pair of a container, from the check for existing interfaces to the route; a failure removes
what was created. -/
def createVeth (env : Env) (name network vethHost vethPeer : Text) (h : Host) : Host × Bool :=
  if (findLink vethHost h).isSome ∨ (findLink vethPeer h).isSome then (h, false)
  else if env.fails .vethAdd then (h, false)
  -- without an index the new pair is not deleted again
  else if env.fails .vethIndex then (addVethPair vethHost vethPeer h, false)
  else if env.fails .vethAlias then
    (if env.fails .vethRollback then addVethPair vethHost vethPeer h
      else deleteLink (hostEnd vethHost vethPeer h) (addVethPair vethHost vethPeer h), false)
  else
    let c := configureVeth env name network vethHost vethPeer (addVethPair vethHost vethPeer h)
    if c.2 then c else ((deleteOwnedVeth env .vethRollback vethHost (containerAlias name) c.1).1, false)

/-- `connect_container` after the allocation. -/
def attachContainer (env : Env) (name network : Text) (h : Host) : Host × Bool :=
  if env.fails .readProcs ∨ cgroupProcs name h = [] then (h, false)
  else match tdMakeVethName name, tdMakeVethPeerName name with
    | some vethHost, some vethPeer => createVeth env name network vethHost vethPeer h
    | _, _ => (h, false)

/-- `connect_container`: the new state, and the address on success.  Every failure after the
allocation releases the address. -/
def connectContainer (env : Env) (name network : Text) (h : Host) : Host × Option Text :=
  match allocNewIpText env network h with
  | none => (h, none)
  | some (h₁, ip) =>
    match attachContainer env name network h₁ with
    | (h₂, true) => (h₂, some ip)
    | (h₂, false) => ((releaseUsedIpText env .connectRelease network ip h₂).1, none)

/-- `disconnect_container`; a failing `brctl delif` is only logged. -/
def disconnectContainer (env : Env) (name : Text) (h : Host) : Host × Bool :=
  match tdMakeVethName name with
  | none => (h, false)
  | some vethHost =>
    match findLink vethHost h with
    | none => (h, true)
    | some l =>
      if ownsInterface env l (containerAlias name) = false then (h, false)
      else deleteOwnedVeth env .vethDelete vethHost (containerAlias name) h

/-! ## Port mappings -/

/-- `%s:%d`. -/
def dnatDestination (ip : Text) (port : Nat) : Text := ip ++ ':' :: Nat.toDigits 10 port

/-- The words of a DNAT rule in the form `iptables -S` prints. -/
def dnatRule (ip : Text) (m : PortMap) : Rule :=
  ⟨["-p".toList, "tcp".toList, "-m".toList, "tcp".toList, "--dport".toList,
    Nat.toDigits 10 m.hostPort, "-j".toList, "DNAT".toList, "--to-destination".toList,
    dnatDestination ip m.containerPort], true⟩

def setChain (chain : Chain) (rules : List Rule) (h : Host) : Host :=
  { h with nat := Function.update h.nat chain rules }

/-- Whether these are the arguments that specify the rule. -/
def Rule.isSpec (words : List Text) (r : Rule) : Bool := r.plain && decide (r.words = words)

/-- `iptables -D`: the first rule with these arguments. -/
def deleteRule (chain : Chain) (words : List Text) (h : Host) : Option Host :=
  if (h.nat chain).any (Rule.isSpec words) then
    some (setChain chain ((h.nat chain).eraseP (Rule.isSpec words)) h)
  else none

/-- The loop of `set_container_port_map`. -/
def addPortMaps (env : Env) (ip : Text) : Nat → List PortMap → Host → Host × Bool
  | _, [], h => (h, true)
  | i, m :: ms, h =>
    if env.fails (.natAppend .output i) then (h, false)
    else
      let h₁ := setChain .output (h.nat .output ++ [dnatRule ip m]) h
      if env.fails (.natAppend .prerouting i) then
        (if env.fails (.natRollback i) then h₁
          else (deleteRule .output (dnatRule ip m).words h₁).getD h₁, false)
      else addPortMaps env ip (i + 1) ms (setChain .prerouting (h₁.nat .prerouting ++ [dnatRule ip m]) h₁)

def setContainerPortMap (env : Env) (ip : Text) (maps : List PortMap) (h : Host) : Host × Bool :=
  if (Ipv4.inetPton ip).isNone then (h, false) else addPortMaps env ip 0 maps h

/-- Whether two neighbouring words are `--to-destination` and something that starts with `ip:`. -/
def matchesDestination (ip : Text) : List Text → Bool
  | option :: value :: rest =>
    (decide (option = "--to-destination".toList) && (ip ++ [':']).isPrefixOf value) ||
      matchesDestination ip (value :: rest)
  | _ => false

/-- A listed line is cut to 32 words, `-A CHAIN` included. -/
def listedWords (r : Rule) : List Text := r.words.take 30

/-- The line loop of `delete_dnat_rules_for_chain`. -/
def deleteDnatRules (env : Env) (chain : Chain) (ip : Text) : Nat → List Rule → Host → Host × Bool
  | _, [], h => (h, true)
  | i, r :: rs, h =>
    if matchesDestination ip (listedWords r) then
      match if env.fails (.natDelete chain i) then none else deleteRule chain (listedWords r) h with
      | some h' => deleteDnatRules env chain ip (i + 1) rs h'
      | none => ((deleteDnatRules env chain ip (i + 1) rs h).1, false)
    else deleteDnatRules env chain ip (i + 1) rs h

def Chain.name : Chain → Text
  | .output => "OUTPUT".toList
  | .prerouting => "PREROUTING".toList

/-- The line of a rule. -/
def Rule.line (chain : Chain) (r : Rule) : Text := "-A".toList ++ (chain.name :: r.words).flatMap (' ' :: ·)

/-- What `iptables -t nat -S CHAIN` prints: the policy, which is `ACCEPT` in this table, and the rules. -/
def natListing (chain : Chain) (rules : List Rule) : Text :=
  "-P".toList ++ [chain.name, "ACCEPT".toList].flatMap (' ' :: ·) ++
    '\n' :: rules.flatMap fun r => r.line chain ++ ['\n']

/-- `td_capture_command` returns no listing: the command fails, or prints more than the capture takes. -/
def listingFails (env : Env) (chain : Chain) (rules : List Rule) : Prop :=
  env.fails (.natList chain) = true ∨ MAX_CAPTURE_SIZE - 2 < (natListing chain rules).length

instance (env : Env) (chain : Chain) (rules : List Rule) : Decidable (listingFails env chain rules) :=
  inferInstanceAs (Decidable (_ ∨ _))

def deleteDnatRulesForChain (env : Env) (chain : Chain) (ip : Text) (h : Host) : Host × Bool :=
  if listingFails env chain (h.nat chain) then (h, false) else deleteDnatRules env chain ip 0 (h.nat chain) h

def unsetContainerPortMap (env : Env) (ip : Text) (h : Host) : Host × Bool :=
  if ip = [] then (h, true)
  else if (Ipv4.inetPton ip).isNone then (h, false)
  else
    let o := deleteDnatRulesForChain env .output ip h
    let p := deleteDnatRulesForChain env .prerouting ip o.1
    (p.1, o.2 && p.2)

end TinyDocker
