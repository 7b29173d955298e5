import TinyDocker.Docker.Effects

/-!
# Interface names (`core/safety.c`, `docker/network.c`)

`td_make_veth_name` takes six bytes of the container name and six digits of its hash, and reports success
only if it has written fifteen bytes.  `connect_container` cannot go on without both names.

Principal results:

* `tdMakeVethName_eq_some` — the exact names that get an interface name;
* `connectContainer_succeeds_iff` — everything `connect_container` needs;
* `veth_names_iff` — a valid container name gets its pair of names, and can be connected, exactly when it
  has at least six bytes.
-/

set_option autoImplicit false

namespace TinyDocker

open CText

/-! ## The names -/

/-- `td_make_veth_name` with the size of its output buffer. -/
def tdMakeVethNameInto (outputSize : Nat) (containerName : Text) : Option Text :=
  if outputSize < 16 then none
  else match tdValidateName containerName 127 with
    | .error _ => none
    | .ok () =>
      let output := 't' :: 'd' :: (containerName.take 6 ++
        '-' :: hex6 (nameHash containerName &&& 0x00ffffff).toNat)
      if output.length = 15 then some (output.take (outputSize - 1)) else none

def tdMakeVethPeerNameInto (outputSize : Nat) (containerName : Text) : Option Text :=
  (tdMakeVethNameInto outputSize containerName).map fun output => output.set 1 'p'

/-- A buffer of 16 bytes is large enough. -/
theorem tdMakeVethNameInto_eq {outputSize : Nat} (hsize : 16 ≤ outputSize) (name : Text) :
    tdMakeVethNameInto outputSize name = tdMakeVethName name := by
  unfold tdMakeVethNameInto tdMakeVethName
  rw [if_neg (Nat.not_lt.2 hsize)]
  cases tdValidateName name 127 with
  | error e => rfl
  | ok u =>
    simp only
    split
    · rename_i hlen
      rw [List.take_of_length_le (by omega)]
    · rfl

theorem tdMakeVethPeerNameInto_eq {outputSize : Nat} (hsize : 16 ≤ outputSize) (name : Text) :
    tdMakeVethPeerNameInto outputSize name = tdMakeVethPeerName name := by
  unfold tdMakeVethPeerNameInto tdMakeVethPeerName
  rw [tdMakeVethNameInto_eq hsize]

theorem hex6_length {n : Nat} (h : n < 16 ^ 6) : (hex6 n).length = 6 := by
  have hle : (Nat.toDigits 16 n).length ≤ 6 := (Nat.length_toDigits_le_iff (by decide) (by decide)).2 h
  simp only [hex6, List.length_append, List.length_replicate]
  omega

/-- The lower 24 bits of the hash fill six digits. -/
theorem hash_digits_length (name : Text) : (hex6 (nameHash name &&& 0x00ffffff).toNat).length = 6 := by
  apply hex6_length
  rw [UInt32.toNat_and]
  exact Nat.lt_of_le_of_lt Nat.and_le_right (by decide)

/-- **The names that get an interface name**: valid, and six bytes or longer. -/
theorem tdMakeVethName_eq_some {name output : Text} (hname : tdValidateName name 127 = .ok ()) :
    tdMakeVethName name = some output ↔ 6 ≤ name.length ∧
      output = 't' :: 'd' :: (name.take 6 ++ '-' :: hex6 (nameHash name &&& 0x00ffffff).toNat) := by
  have hlen : ('t' :: 'd' :: (name.take 6 ++ '-' :: hex6 (nameHash name &&& 0x00ffffff).toNat)).length =
      9 + min 6 name.length := by
    simp only [List.length_cons, List.length_append, List.length_take, hash_digits_length]
    omega
  unfold tdMakeVethName
  rw [hname]
  simp only
  rw [hlen]
  split
  · rename_i hfull
    rw [Option.some.injEq, eq_comm]
    exact ⟨fun h => ⟨by omega, h⟩, fun h => h.2⟩
  · rename_i hshort
    exact ⟨fun h => (by cases h), fun h => absurd h.1 (by omega)⟩

/-- Host ends start with `td`. -/
theorem tdMakeVethName_head {name output : Text} (h : tdMakeVethName name = some output) :
    ∃ rest, output = 't' :: 'd' :: rest := by
  unfold tdMakeVethName at h
  split at h
  · cases h
  simp only at h
  split at h
  · cases h
    exact ⟨_, rfl⟩
  · cases h

/-- Peer ends start with `tp`. -/
theorem tdMakeVethPeerName_head {name output : Text} (h : tdMakeVethPeerName name = some output) :
    ∃ rest, output = 't' :: 'p' :: rest ∧ output.length = 15 := by
  obtain ⟨host, hhost, rfl⟩ := Option.map_eq_some_iff.1 h
  have hlen := tdMakeVethName_length hhost
  obtain ⟨rest, rfl⟩ := tdMakeVethName_head hhost
  exact ⟨rest, rfl, by rw [List.length_set]; exact hlen⟩

/-- A host end and a peer end never have the same name, whatever the containers are. -/
theorem host_ne_peer {name other host peer : Text} (hh : tdMakeVethName name = some host)
    (hp : tdMakeVethPeerName other = some peer) : host ≠ peer := by
  obtain ⟨_, rfl⟩ := tdMakeVethName_head hh
  obtain ⟨_, rfl, -⟩ := tdMakeVethPeerName_head hp
  intro h
  cases h

/-! ## Connecting -/

/-- The commands all run. -/
theorem runVethCommands_succeeds_iff (env : Env) : ∀ (cs : List (Host → Host)) (k : Nat) (h : Host),
    (runVethCommands env k cs h).2 = true ↔ ∀ i < cs.length, env.fails (.vethCommand (k + i)) = false
  | [], _, _ => by simp [runVethCommands]
  | c :: cs, k, h => by
    have hsplit : (∀ i < (c :: cs).length, env.fails (.vethCommand (k + i)) = false) ↔
        env.fails (.vethCommand k) = false ∧
          ∀ i < cs.length, env.fails (.vethCommand (k + 1 + i)) = false := by
      simp only [List.length_cons, Nat.forall_lt_succ_left, Nat.add_zero, ← Nat.add_assoc,
        Nat.add_right_comm k 1]
    rw [hsplit]
    unfold runVethCommands
    split
    · rename_i hk
      exact ⟨fun hc => (by cases hc), fun hall => by rw [hall.1] at hk; cases hk⟩
    · rename_i hk
      rw [runVethCommands_succeeds_iff env cs (k + 1)]
      exact ⟨fun hall => ⟨Bool.eq_false_iff.2 hk, hall⟩, fun hall => hall.2⟩

/-- What the creation of a pair needs. -/
structure VethReady (env : Env) (name : Text) (h : Host) : Prop where
  names : ∃ vethHost vethPeer, tdMakeVethName name = some vethHost ∧ tdMakeVethPeerName name = some vethPeer ∧
    findLink vethHost h = none ∧ findLink vethPeer h = none
  add : env.fails .vethAdd = false
  index : env.fails .vethIndex = false
  mark : env.fails .vethAlias = false
  commands : ∀ k < 9, env.fails (.vethCommand k) = false

theorem createVeth_succeeds_iff (env : Env) (name network vethHost vethPeer : Text) (h : Host) :
    (createVeth env name network vethHost vethPeer h).2 = true ↔
      (findLink vethHost h = none ∧ findLink vethPeer h = none) ∧ env.fails .vethAdd = false ∧
        env.fails .vethIndex = false ∧ env.fails .vethAlias = false ∧
          ∀ k < 9, env.fails (.vethCommand k) = false := by
  unfold createVeth
  split
  · rename_i hex
    refine ⟨fun hc => (by cases hc), fun hc => ?_⟩
    rw [hc.1.1, hc.1.2] at hex
    simp at hex
  rename_i hex
  have hfree : findLink vethHost h = none ∧ findLink vethPeer h = none := by
    simpa [Option.isSome_iff_ne_none, not_or] using hex
  split
  · rename_i hf
    exact ⟨fun hc => (by cases hc), fun hc => by rw [hc.2.1] at hf; cases hf⟩
  rename_i hadd
  split
  · rename_i hf
    exact ⟨fun hc => (by cases hc), fun hc => by rw [hc.2.2.1] at hf; cases hf⟩
  rename_i hindex
  split
  · rename_i hf
    exact ⟨fun hc => (by cases hc), fun hc => by rw [hc.2.2.2.1] at hf; cases hf⟩
  rename_i hmark
  have hrun := runVethCommands_succeeds_iff env (vethCommands network vethHost vethPeer) 0
    (updateLink vethHost (fun l => { l with ifalias := containerAlias name })
      (addVethPair vethHost vethPeer h))
  simp only [Nat.zero_add] at hrun
  have hlen : (vethCommands network vethHost vethPeer).length = 9 := rfl
  rw [hlen] at hrun
  simp only
  split
  · rename_i hok
    exact ⟨fun _ => ⟨hfree, Bool.eq_false_iff.2 hadd, Bool.eq_false_iff.2 hindex, Bool.eq_false_iff.2 hmark,
      hrun.1 hok⟩, fun _ => hok⟩
  · rename_i hbad
    exact ⟨fun hc => (by cases hc), fun hc => absurd (hrun.2 hc.2.2.2.2) hbad⟩

theorem attachContainer_succeeds_iff (env : Env) (name network : Text) (h : Host) :
    (attachContainer env name network h).2 = true ↔
      env.fails .readProcs = false ∧ cgroupProcs name h ≠ [] ∧ VethReady env name h := by
  unfold attachContainer
  split
  · rename_i hprocs
    refine ⟨fun hc => (by cases hc), fun hc => ?_⟩
    rcases hprocs with hf | hnil
    · rw [hc.1] at hf
      cases hf
    · exact absurd hnil hc.2.1
  rename_i hprocs
  simp only [not_or, Bool.not_eq_true] at hprocs
  split
  · rename_i vethHost vethPeer hh hp
    rw [createVeth_succeeds_iff]
    refine ⟨fun ⟨hfree, h1, h2, h3, h4⟩ =>
      ⟨hprocs.1, hprocs.2, ⟨vethHost, vethPeer, hh, hp, hfree.1, hfree.2⟩, h1, h2, h3, h4⟩,
      fun ⟨_, _, hready⟩ => ?_⟩
    obtain ⟨vh, vp, hvh, hvp, hf1, hf2⟩ := hready.names
    rw [hh] at hvh
    rw [hp] at hvp
    cases hvh
    cases hvp
    exact ⟨⟨hf1, hf2⟩, hready.add, hready.index, hready.mark, hready.commands⟩
  · rename_i hnames
    refine ⟨fun hc => (by cases hc), fun ⟨_, _, hready⟩ => ?_⟩
    obtain ⟨vh, vp, hvh, hvp, -, -⟩ := hready.names
    exact absurd hvp (hnames vh vp hvh)

theorem allocNewIpText_isSome (env : Env) (network : Text) (h : Host) :
    (allocNewIpText env network h).isSome = true ↔
      ((loadNetworks h).bind (allocNewIp network)).isSome = true ∧ env.fails .networkWrite = false := by
  unfold allocNewIpText
  cases (loadNetworks h).bind (allocNewIp network) with
  | none => simp
  | some o => cases env.fails .networkWrite <;> simp

/-- **What `connect_container` needs**: a networks file it can load with a free address, a process of the
container, free names, and commands that work. -/
theorem connectContainer_succeeds_iff (env : Env) (name network : Text) (h : Host) :
    (connectContainer env name network h).2.isSome = true ↔
      ((loadNetworks h).bind (allocNewIp network)).isSome = true ∧ env.fails .networkWrite = false ∧
        env.fails .readProcs = false ∧ cgroupProcs name h ≠ [] ∧ VethReady env name h := by
  have hattach := fun records => attachContainer_succeeds_iff env name network { h with networks := records }
  have hready : ∀ records, VethReady env name { h with networks := records } ↔ VethReady env name h :=
    fun records => ⟨fun hr => ⟨hr.names, hr.add, hr.index, hr.mark, hr.commands⟩,
      fun hr => ⟨hr.names, hr.add, hr.index, hr.mark, hr.commands⟩⟩
  rcases connectContainer_cases env name network h with ⟨hnone, he⟩ | ⟨records, a, h₂, ok, hsome, -, hat, he⟩
  · have hbad := (allocNewIpText_isSome env network h).not.1 (by simp [hnone])
    rw [he]
    exact ⟨fun hc => (by cases hc), fun ⟨halloc, hwrite, _⟩ => absurd ⟨halloc, hwrite⟩ hbad⟩
  · have hok := hattach records
    rw [hat, hready] at hok
    obtain ⟨hload, hwrite⟩ := (allocNewIpText_isSome env network h).1 hsome
    rw [he]
    have hprocs : cgroupProcs name { h with networks := records } = cgroupProcs name h := rfl
    rw [hprocs] at hok
    cases ok with
    | true => exact ⟨fun _ => ⟨hload, hwrite, hok.1 rfl⟩, fun _ => rfl⟩
    | false =>
      refine ⟨fun hc => (by cases hc), fun ⟨_, _, hrest⟩ => ?_⟩
      have := hok.2 hrest
      cases this

/-! ## Valid names -/

/-- The two names are made, fit an interface name, and no name of the other kind, of whatever container,
is the same. -/
def VethNamed (outputSize : Nat) (name : Text) : Prop :=
  ∃ host peer, tdMakeVethNameInto outputSize name = some host ∧
    tdMakeVethPeerNameInto outputSize name = some peer ∧ host.length ≤ 15 ∧ peer.length ≤ 15 ∧ host ≠ peer ∧
    ∀ other host' peer', tdMakeVethNameInto outputSize other = some host' →
      tdMakeVethPeerNameInto outputSize other = some peer' → host ≠ peer' ∧ host' ≠ peer

/-- `connect_container` works when all calls do, the networks file can be loaded and has a free address, the
container has a process and no interface has one of its names. -/
def Connects (name : Text) : Prop :=
  ∀ (env : Env) (network : Text) (h : Host), (∀ site, env.fails site = false) →
    ((loadNetworks h).bind (allocNewIp network)).isSome = true → cgroupProcs name h ≠ [] →
    (∀ l ∈ h.links, tdMakeVethName name ≠ some l.name ∧ tdMakeVethPeerName name ≠ some l.name) →
      (connectContainer env name network h).2.isSome = true

/-- **Valid names and interface names.**  A name shorter than six bytes is valid, but the formatted text
is then shorter than the fifteen bytes that `td_make_veth_name` takes for success, and a container of that
name can never be connected. -/
theorem veth_names_iff (name : Text) (outputSize : Nat) (hname : tdValidateName name 127 = .ok ())
    (hsize : 16 ≤ outputSize) : (VethNamed outputSize name ∧ Connects name) ↔ 6 ≤ name.length := by
  have hsome := fun output => @tdMakeVethName_eq_some name output hname
  refine ⟨fun ⟨⟨host, _, hhost, _⟩, _⟩ => ?_, fun hlen => ?_⟩
  · rw [tdMakeVethNameInto_eq hsize] at hhost
    exact ((hsome host).1 hhost).1
  obtain ⟨host, hhost⟩ : ∃ host, tdMakeVethName name = some host := ⟨_, (hsome _).2 ⟨hlen, rfl⟩⟩
  have hpeer : tdMakeVethPeerName name = some (host.set 1 'p') := by
    unfold tdMakeVethPeerName
    rw [hhost]
    rfl
  refine ⟨⟨host, host.set 1 'p', ?_, ?_, ?_, ?_, host_ne_peer hhost hpeer, ?_⟩, ?_⟩
  · rw [tdMakeVethNameInto_eq hsize, hhost]
  · rw [tdMakeVethPeerNameInto_eq hsize, hpeer]
  · exact le_of_eq (tdMakeVethName_length hhost)
  · rw [List.length_set]
    exact le_of_eq (tdMakeVethName_length hhost)
  · intro other host' peer' hh hp
    rw [tdMakeVethNameInto_eq hsize] at hh
    rw [tdMakeVethPeerNameInto_eq hsize] at hp
    exact ⟨host_ne_peer hhost hp, host_ne_peer hh hpeer⟩
  · intro env network h hquiet halloc hprocs hfree
    rw [connectContainer_succeeds_iff]
    have hnone : ∀ n, (∀ l ∈ h.links, l.name ≠ n) → findLink n h = none := fun n hn =>
      List.find?_eq_none.2 fun l hl => by simpa using hn l hl
    refine ⟨halloc, hquiet _, hquiet _, hprocs, ⟨host, _, hhost, hpeer, hnone _ ?_, hnone _ ?_⟩, hquiet _,
      hquiet _, hquiet _, fun _ _ => hquiet _⟩
    · exact fun l hl he => (hfree l hl).1 (by rw [he, hhost])
    · exact fun l hl he => (hfree l hl).2 (by rw [he, hpeer])

theorem web001_named : VethNamed 16 "web001".toList ∧ Connects "web001".toList :=
  (veth_names_iff "web001".toList 16 (by decide) (by decide)).2 (by decide)

/-- The name `web` is valid and gets no interface name. -/
theorem short_name_unnamed :
    tdValidateName "web".toList 127 = .ok () ∧ tdMakeVethNameInto 16 "web".toList = none ∧
      ¬ VethNamed 16 "web".toList := by
  have hnone : tdMakeVethNameInto 16 "web".toList = none := by decide +kernel
  refine ⟨by decide, hnone, fun ⟨host, _, hhost, _⟩ => ?_⟩
  rw [hnone] at hhost
  cases hhost

end TinyDocker
