import TinyDocker.Docker.Network
import TinyDocker.Lib.Runs

/-!
# Networks and their bridges (`docker/network.c`)

A network is a record in the networks file and a bridge of the same name that carries the alias
`tinydocker-network:NAME`.  `createNetwork` makes both, `delteNetwork` (the source's spelling) removes
both, and `createDefaultBridge` is what every `docker run` begins with.  Each of them loads the networks
file anew, and does nothing when that fails.

Principal results:

* `no_orphan_bridge` — an interface with the alias of a network has its record, whatever fails, as
  long as the bridge deletion of a rollback works; only owned bridges are deleted;
* `defaultBridgeWorks_iff` — the states in which `create_default_bridge` succeeds and can be repeated.
-/

set_option autoImplicit false

namespace TinyDocker

open CText

/-- The host and the names of its bridges. -/
structure NetHost where
  host : Host
  bridges : List Text

/-- A call of the network commands that may fail. -/
inductive NetSite where
  | addBridge
  | bridgeIndex
  | setAlias
  | writeRecord
  | setAddress
  | setUp
  | readInterface
  | deleteBridge
  | deleteRecord
  | defaultUp
  | masquerade
  -- the bridge deletion of a rollback
  | rollbackRead
  | rollbackDelete
  deriving DecidableEq, Repr

abbrev NetEnv : Type := NetSite → Bool

def TINYDOCKER_DEFAULT_NETWORK_CIDR : Text := "172.11.11.0/24".toList

/-- `build_interface_alias("network", ...)`. -/
def networkAlias (name : Text) : Text := "tinydocker-network:".toList ++ name

/-! ## Interfaces -/

/-- `brctl addbr`. -/
def addBridge (name : Text) (s : NetHost) : NetHost :=
  { host := { s.host with
      links := s.host.links ++ [⟨name, s.host.nextIndex, [], none, none⟩]
      nextIndex := s.host.nextIndex + 1 }
    bridges := name :: s.bridges }

/-- The new bridge with its alias. -/
def markedBridge (name : Text) (s : NetHost) : NetHost :=
  let s₁ := addBridge name s
  { s₁ with host := updateLink name (fun l => { l with ifalias := networkAlias name }) s₁.host }

/-- `brctl delbr`: the ports of the bridge are released. -/
def removeBridge (name : Text) (s : NetHost) : NetHost :=
  { host := { s.host with
      links := (s.host.links.filter fun l => decide (l.name ≠ name)).map fun l =>
        if l.master = some name then { l with master := none } else l }
    bridges := s.bridges.filter fun n => decide (n ≠ name) }

/-- `verify_interface_ownership` of an existing interface that has to be a bridge. -/
def ownsBridge (env : NetEnv) (read : NetSite) (l : Link) (expectedAlias : Text) (s : NetHost) : Bool :=
  !env read && decide (l.name ∈ s.bridges) && decide (l.ifalias = expectedAlias)

/-- `delete_owned_bridge`; setting the bridge down may fail without effect on the result. -/
def deleteOwnedBridge (env : NetEnv) (read delete : NetSite) (name expectedAlias : Text) (s : NetHost) :
    NetHost × Bool :=
  match findLink name s.host with
  | none => (s, true)
  | some l =>
    if ownsBridge env read l expectedAlias s = false then (s, false)
    else if env delete then (s, false)
    else (removeBridge name s, true)

/-! ## Records -/

def setNetworks (records : List NetworkRecord) (s : NetHost) : NetHost :=
  { s with host := { s.host with networks := records } }

/-- `network_info_exists`; `none` for -1, when the file cannot be loaded. -/
def networkInfoExists (name : Text) (s : NetHost) : Option Bool :=
  (loadNetworks s.host).map fun records => records.any fun r => decide (r.name = name)

/-- `read_network_info`. -/
def readNetworkInfo (name : Text) (s : NetHost) : Option NetworkRecord :=
  (loadNetworks s.host).bind fun records => records.find? fun r => decide (r.name = name)

/-- `add_network_info` between load and write. -/
def addNetworkInfo (record : NetworkRecord) (records : List NetworkRecord) : Option (List NetworkRecord) :=
  if TD_NETWORK_MAX_RECORDS ≤ records.length ∨ records.any (fun r => decide (r.name = record.name)) then none
  else some (records ++ [record])

/-- `delete_network_info`. -/
def deleteRecord (env : NetEnv) (name : Text) (s : NetHost) : NetHost × Bool :=
  match loadNetworks s.host with
  | none => (s, false)
  | some records => if env .deleteRecord then (s, false) else (setNetworks (deleteNetworkInfo name records) s, true)

section Records

variable {name : Text} {s : NetHost}

/-- A record of that name was written last. -/
def NetworkRecorded (name : Text) (s : NetHost) : Bool := s.host.networks.any fun r => decide (r.name = name)

theorem networkInfoExists_eq_some {b : Bool} :
    networkInfoExists name s = some b ↔ StoreOk s.host.networks ∧ NetworkRecorded name s = b := by
  unfold networkInfoExists
  rw [Option.map_eq_bind, loadNetworks_bind, Function.comp_apply, Option.some.injEq]
  rfl

theorem readNetworkInfo_eq_some {r : NetworkRecord} : readNetworkInfo name s = some r ↔
    StoreOk s.host.networks ∧ s.host.networks.find? (fun r => decide (r.name = name)) = some r :=
  loadNetworks_bind

theorem readNetworkInfo_isSome : (readNetworkInfo name s).isSome = true ↔
    StoreOk s.host.networks ∧ NetworkRecorded name s = true := by
  rw [Option.isSome_iff_exists]
  simp only [readNetworkInfo_eq_some, exists_and_left, ← Option.isSome_iff_exists, List.find?_isSome, NetworkRecorded,
    List.any_eq_true]

/-- A record that `create_network` has checked can be added. -/
theorem StoreOk.add {records records' : List NetworkRecord} {r : NetworkRecord} (hs : StoreOk records)
    (hr : RecordOk r) (hline : '\n' ∉ r.cidr ∧ '\r' ∉ r.cidr) (h : addNetworkInfo r records = some records') :
    StoreOk records' := by
  unfold addNetworkInfo at h
  split at h
  · cases h
  rename_i hroom
  cases h
  simp only [not_or, Nat.not_le, List.any_eq_true, decide_eq_true_eq, not_exists, not_and] at hroom
  obtain ⟨hcount, hnew⟩ := hroom
  have hone : ∀ {P : NetworkRecord → Prop}, (∀ x ∈ records, P x) → P r → ∀ x ∈ records ++ [r], P x := by
    intro P hall hp x hx
    rcases List.mem_append.1 hx with hx | hx
    · exact hall x hx
    · exact List.mem_singleton.1 hx ▸ hp
  refine ⟨?_, ?_, hone hs.record hr, hone hs.line hline⟩
  · rw [List.length_append, List.length_singleton]
    exact hcount
  · rw [List.map_append, List.map_singleton]
    refine List.nodup_append.2 ⟨hs.names, List.nodup_singleton _, fun x hx y hy hxy => ?_⟩
    obtain ⟨r', hr', rfl⟩ := List.mem_map.1 hx
    exact hnew r' hr' (hxy.trans (List.mem_singleton.1 hy))

end Records

/-! ## The commands -/

/-- The rollback of `create_network`. -/
def rollbackBridge (env : NetEnv) (name : Text) (s : NetHost) : NetHost × Bool :=
  deleteOwnedBridge env .rollbackRead .rollbackDelete name (networkAlias name) s

/-- The part of `create_network` after the bridge carries its alias. -/
def finishNetwork (env : NetEnv) (record : NetworkRecord) (s : NetHost) : NetHost × Int :=
  match if env .writeRecord then none else (loadNetworks s.host).bind (addNetworkInfo record) with
  | none => ((rollbackBridge env record.name s).1, -1)
  | some records =>
    let s := setNetworks records s
    if env .setAddress ∨ env .setUp then
      match rollbackBridge env record.name s with
      | (s, true) => ((deleteRecord env record.name s).1, -1)
      | (s, false) => (s, -1)
    else (s, 0)

def createNetwork (env : NetEnv) (name cidrNetwork driver : Text) (s : NetHost) : NetHost × Int :=
  let record : NetworkRecord := ⟨name, driver, cidrNetwork, []⟩
  if TD_NETWORK_NAME_SIZE ≤ name.length ∨ TD_NETWORK_DRIVER_SIZE ≤ driver.length ∨
      TD_NETWORK_CIDR_SIZE ≤ cidrNetwork.length ∨ 256 ≤ (networkAlias name).length ∨
      (tdFormatNetworkRecord record 4096).isOk = false then (s, -1)
  -- the file cannot be loaded, or has the name
  else if networkInfoExists name s ≠ some false then (s, -1)
  else if (findLink name s.host).isSome then (s, -1)
  else if env .addBridge then (s, -1)
  -- without an index the new bridge is not deleted again
  else if env .bridgeIndex then (addBridge name s, -1)
  else if env .setAlias then
    (if env .rollbackDelete then addBridge name s
      else removeBridge name (addBridge name s), -1)
  else finishNetwork env record (markedBridge name s)

def delteNetwork (env : NetEnv) (name : Text) (s : NetHost) : NetHost × Int :=
  if (readNetworkInfo name s).isNone ∨ 256 ≤ (networkAlias name).length then (s, -1)
  else match deleteOwnedBridge env .readInterface .deleteBridge name (networkAlias name) s with
    | (s, false) => (s, -1)
    | (s, true) =>
      match deleteRecord env name s with
      | (s, true) => (s, 0)
      | (s, false) => (s, -1)

/-- The last step of `create_default_bridge`. -/
def defaultUp (env : NetEnv) (s : NetHost) : NetHost × Int := if env .defaultUp then (s, -1) else (s, 0)

def createDefaultBridge (env : NetEnv) (s : NetHost) : NetHost × Int :=
  match findLink TINYDOCKER_DEFAULT_NETWORK_NAME s.host with
  | none =>
    match createNetwork env TINYDOCKER_DEFAULT_NETWORK_NAME TINYDOCKER_DEFAULT_NETWORK_CIDR
        "bridge".toList s with
    | (s, 0) => defaultUp env s
    | (s, _) => (s, -1)
  | some l =>
    match readNetworkInfo TINYDOCKER_DEFAULT_NETWORK_NAME s with
    | none => (s, -1)
    | some existing =>
      if existing.driver ≠ "bridge".toList ∨ existing.cidr ≠ TINYDOCKER_DEFAULT_NETWORK_CIDR ∨
          ownsBridge env .readInterface l (networkAlias TINYDOCKER_DEFAULT_NETWORK_NAME) s = false then (s, -1)
      else defaultUp env s

/-- `init_docker_env`: the default bridge, then the address translation of its network. -/
def initDockerEnv (env : NetEnv) (s : NetHost) : NetHost × Bool :=
  match createDefaultBridge env s with
  | (s, 0) => (s, !env .masquerade)
  | (s, _) => (s, false)

/-! ## The interface table -/

/-- Names identify interfaces. -/
def NetHost.Table (s : NetHost) : Prop :=
  ∀ x ∈ s.host.links, ∀ y ∈ s.host.links, x.name = y.name → x = y

/-- The same interface, perhaps with another master. -/
def Link.Same (x y : Link) : Prop := x.name = y.name ∧ x.index = y.index ∧ x.ifalias = y.ifalias

/-- An interface that carries the alias of a network. -/
def NetHost.Aliased (s : NetHost) (l : Link) (n : Text) : Prop :=
  l ∈ s.host.links ∧ l.ifalias = networkAlias n

theorem networkAlias_injective {m n : Text} (h : networkAlias m = networkAlias n) : m = n :=
  List.append_cancel_left h

theorem networkAlias_ne_nil (n : Text) : networkAlias n ≠ [] :=
  List.append_ne_nil_of_left_ne_nil (by decide) n

theorem networkAlias_length (n : Text) : (networkAlias n).length = 19 + n.length :=
  List.length_append

theorem findLink_some {name : Text} {h : Host} {l : Link} (hf : findLink name h = some l) :
    l ∈ h.links ∧ l.name = name :=
  ⟨List.mem_of_find?_eq_some hf, of_decide_eq_true (List.find?_some hf :)⟩

theorem findLink_none {name : Text} {h : Host} (hf : findLink name h = none) :
    ∀ l ∈ h.links, l.name ≠ name := by
  intro l hl he
  have := List.find?_eq_none.1 hf l hl
  simp [he] at this

theorem findLink_of_mem {s : NetHost} (ht : s.Table) {l : Link} (hl : l ∈ s.host.links) :
    findLink l.name s.host = some l := by
  cases hf : findLink l.name s.host with
  | none => exact absurd rfl (findLink_none hf l hl)
  | some x =>
    obtain ⟨hx, hn⟩ := findLink_some hf
    rw [ht x hx l hl hn]

section Remove

variable {s : NetHost} {name : Text}

theorem mem_removeBridge {x : Link} (hx : x ∈ (removeBridge name s).host.links) :
    ∃ y ∈ s.host.links, y.name ≠ name ∧ x.Same y ∧
      x = if y.master = some name then { y with master := none } else y := by
  obtain ⟨y, hy, rfl⟩ := List.mem_map.1 hx
  obtain ⟨hy, hne⟩ := List.mem_filter.1 hy
  refine ⟨y, hy, of_decide_eq_true hne, ?_, rfl⟩
  split <;> exact ⟨rfl, rfl, rfl⟩

theorem removeBridge_keeps {y : Link} (hy : y ∈ s.host.links) (hne : y.name ≠ name) :
    ∃ x ∈ (removeBridge name s).host.links, x.Same y := by
  refine ⟨_, List.mem_map_of_mem (List.mem_filter.2 ⟨hy, decide_eq_true hne⟩), ?_⟩
  split <;> exact ⟨rfl, rfl, rfl⟩

theorem removeBridge_gone : ∀ x ∈ (removeBridge name s).host.links, x.name ≠ name := by
  intro x hx
  obtain ⟨y, -, hne, hsame, -⟩ := mem_removeBridge hx
  rw [hsame.1]
  exact hne

theorem NetHost.Table.removeBridge (ht : s.Table) : (removeBridge name s).Table := by
  intro x hx y hy he
  obtain ⟨x₀, hx₀, -, hsx, rfl⟩ := mem_removeBridge hx
  obtain ⟨y₀, hy₀, -, hsy, rfl⟩ := mem_removeBridge hy
  rw [ht x₀ hx₀ y₀ hy₀ (hsx.1.symm.trans (he.trans hsy.1))]

end Remove

/-- What `delete_owned_bridge` does. -/
theorem deleteOwnedBridge_cases (env : NetEnv) (read delete : NetSite) (name expectedAlias : Text)
    (s : NetHost) :
    (deleteOwnedBridge env read delete name expectedAlias s = (s, true) ∧ findLink name s.host = none) ∨
      (∃ l, findLink name s.host = some l ∧
        ((deleteOwnedBridge env read delete name expectedAlias s = (s, false) ∧
            ¬ (env read = false ∧ env delete = false ∧ l.name ∈ s.bridges ∧ l.ifalias = expectedAlias)) ∨
          (deleteOwnedBridge env read delete name expectedAlias s = (removeBridge name s, true) ∧
            l.name ∈ s.bridges ∧ l.ifalias = expectedAlias))) := by
  unfold deleteOwnedBridge
  split
  · rename_i hf
    exact Or.inl ⟨rfl, hf⟩
  rename_i l hf
  refine Or.inr ⟨l, hf, ?_⟩
  split
  · rename_i howns
    refine Or.inl ⟨rfl, fun ⟨hr, _, hb, ha⟩ => ?_⟩
    simp [ownsBridge, hr, hb, ha] at howns
  rename_i howns
  simp only [ownsBridge, Bool.not_eq_false, Bool.and_eq_true, decide_eq_true_eq] at howns
  split
  · rename_i hd
    exact Or.inl ⟨rfl, fun ⟨_, hd', _⟩ => (by rw [hd] at hd'; cases hd')⟩
  · exact Or.inr ⟨rfl, howns.1.2, howns.2⟩

/-! ## No orphan bridges -/

/-- Every interface with the alias of a network is the bridge of that name, and has its record. -/
def NetHost.Tracked (s : NetHost) : Prop :=
  ∀ l n, s.Aliased l n → (l.name = n ∧ n.length < TD_NETWORK_NAME_SIZE) ∧ l.name ∈ s.bridges ∧
    NetworkRecorded n s = true

/-- What a command on the network `name` may do to the interfaces that were there before it. -/
def DeletesOwned (name : Text) (s s' : NetHost) : Prop :=
  ∀ l ∈ s.host.links, (∃ x ∈ s'.host.links, x.Same l) ∨ (s.Aliased l name ∧ l.name ∈ s.bridges)

theorem DeletesOwned.refl (name : Text) (s : NetHost) : DeletesOwned name s s := fun l hl =>
  Or.inl ⟨l, hl, rfl, rfl, rfl⟩

/-- Tracked but for the network that a command is making. -/
def TrackedBut (name : Text) (s : NetHost) : Prop :=
  ∀ l n, s.Aliased l n → (l.name = n ∧ n.length < TD_NETWORK_NAME_SIZE) ∧ l.name ∈ s.bridges ∧
    (n ≠ name → NetworkRecorded n s = true)

theorem NetHost.Tracked.but {s : NetHost} (ht : s.Tracked) (name : Text) : TrackedBut name s :=
  fun l n hl => ⟨(ht l n hl).1, (ht l n hl).2.1, fun _ => (ht l n hl).2.2⟩

theorem TrackedBut.removeBridge {name : Text} {s : NetHost} (ht : TrackedBut name s) :
    TrackedBut name (removeBridge name s) := by
  intro x n hx
  obtain ⟨y, hy, hne, hsame, -⟩ := mem_removeBridge hx.1
  obtain ⟨hname, hbridge, hrec⟩ := ht y n ⟨hy, hsame.2.2.symm.trans hx.2⟩
  rw [hsame.1]
  exact ⟨hname, List.mem_filter.2 ⟨hbridge, decide_eq_true hne⟩, hrec⟩

/-- Without an interface of that name nothing carries its alias. -/
theorem TrackedBut.tracked {name : Text} {s : NetHost} (ht : TrackedBut name s)
    (hnone : ∀ l ∈ s.host.links, l.name ≠ name) : s.Tracked := by
  intro l n hl
  obtain ⟨hname, hbridge, hrec⟩ := ht l n hl
  exact ⟨hname, hbridge, hrec fun he => hnone l hl.1 (hname.1.trans he)⟩

theorem deleteNetworkInfo_other {name n : Text} (hne : n ≠ name) {records : List NetworkRecord}
    (h : records.any (fun r => decide (r.name = n)) = true) :
    (deleteNetworkInfo name records).any (fun r => decide (r.name = n)) = true := by
  obtain ⟨r, hr, hrn⟩ := List.any_eq_true.1 h
  have hrn' : r.name = n := of_decide_eq_true hrn
  exact List.any_eq_true.2 ⟨r, List.mem_filter.2 ⟨hr, decide_eq_true (hrn' ▸ hne)⟩, hrn⟩

/-- What `delete_network_info` does. -/
theorem deleteRecord_cases (env : NetEnv) (name : Text) (s : NetHost) :
    deleteRecord env name s = (s, false) ∨ (StoreOk s.host.networks ∧
      deleteRecord env name s = (setNetworks (deleteNetworkInfo name s.host.networks) s, true)) := by
  unfold deleteRecord
  split
  · exact Or.inl rfl
  rename_i records hload
  obtain ⟨rfl, hstore⟩ := loadNetworks_eq_some.1 hload
  split
  · exact Or.inl rfl
  · exact Or.inr ⟨hstore, rfl⟩

theorem TrackedBut.deleteRecord {name : Text} {s : NetHost} (ht : TrackedBut name s) (env : NetEnv) :
    TrackedBut name (deleteRecord env name s).1 := by
  rcases deleteRecord_cases env name s with he | ⟨-, he⟩
  · rw [he]
    exact ht
  · rw [he]
    intro l n hl
    obtain ⟨hname, hbridge, hrec⟩ := ht l n hl
    exact ⟨hname, hbridge, fun hne => deleteNetworkInfo_other hne (hrec hne)⟩

theorem deleteRecord_links (env : NetEnv) (name : Text) (s : NetHost) :
    (deleteRecord env name s).1.host.links = s.host.links ∧
      (deleteRecord env name s).1.bridges = s.bridges := by
  rcases deleteRecord_cases env name s with he | ⟨-, he⟩
  · rw [he]
    exact ⟨rfl, rfl⟩
  · rw [he]
    exact ⟨rfl, rfl⟩

theorem NetHost.Table.of_links {s s' : NetHost} (ht : s.Table) (hl : s'.host.links = s.host.links) :
    s'.Table := by
  unfold NetHost.Table
  rw [hl]
  exact ht

/-- Both `delte_network` and the rollback of `create_network` end like this. -/
theorem deleteBoth_tracked {name : Text} {s : NetHost} (htab : s.Table) (ht : TrackedBut name s)
    (hnone : ∀ l ∈ s.host.links, l.name ≠ name) (env : NetEnv) :
    (deleteRecord env name s).1.Table ∧ (deleteRecord env name s).1.Tracked := by
  obtain ⟨hl, -⟩ := deleteRecord_links env name s
  refine ⟨htab.of_links hl, (ht.deleteRecord env).tracked ?_⟩
  rw [hl]
  exact hnone

theorem delteNetwork_spec (env : NetEnv) (name : Text) {s : NetHost} (htab : s.Table) (ht : s.Tracked) :
    (delteNetwork env name s).1.Table ∧ (delteNetwork env name s).1.Tracked ∧
      DeletesOwned name s (delteNetwork env name s).1 := by
  have hend : ∀ {s' : NetHost}, s'.Table → TrackedBut name s' → (∀ l ∈ s'.host.links, l.name ≠ name) →
      DeletesOwned name s s' →
      let r := match deleteRecord env name s' with
        | (s, true) => (s, (0 : Int))
        | (s, false) => (s, -1)
      r.1.Table ∧ r.1.Tracked ∧ DeletesOwned name s r.1 := by
    intro s' htab' ht' hnone hown
    obtain ⟨h1, h2⟩ := deleteBoth_tracked htab' ht' hnone env
    obtain ⟨hl, -⟩ := deleteRecord_links env name s'
    have h3 : DeletesOwned name s (deleteRecord env name s').1 := by
      unfold DeletesOwned
      rw [hl]
      exact hown
    rcases hd : deleteRecord env name s' with ⟨s'', _ | _⟩ <;> rw [hd] at h1 h2 h3 <;> exact ⟨h1, h2, h3⟩
  have hsame : s.Table ∧ s.Tracked ∧ DeletesOwned name s s := ⟨htab, ht, .refl name s⟩
  unfold delteNetwork
  split
  · exact hsame
  rcases deleteOwnedBridge_cases env .readInterface .deleteBridge name (networkAlias name) s with
    ⟨he, hf⟩ | ⟨l, hf, ⟨he, -⟩ | ⟨he, hb, ha⟩⟩
  · rw [he]
    exact hend htab (ht.but name) (findLink_none hf) (.refl name s)
  · rw [he]
    exact hsame
  · rw [he]
    obtain ⟨hl, hn⟩ := findLink_some hf
    refine hend htab.removeBridge (ht.but name).removeBridge removeBridge_gone fun x hx => ?_
    by_cases hx' : x.name = name
    · rw [htab x hx l hl (hx'.trans hn.symm)]
      exact Or.inr ⟨⟨hl, ha⟩, hb⟩
    · exact Or.inl (removeBridge_keeps hx hx')

/-- The rollback deletions work. -/
def NetEnv.RollsBack (env : NetEnv) : Prop := env .rollbackRead = false ∧ env .rollbackDelete = false

/-- What `create_network` leaves. -/
structure Settled (name : Text) (s s' : NetHost) : Prop where
  table : s'.Table
  tracked : s'.Tracked
  keeps : ∀ l ∈ s.host.links, l.name ≠ name → ∃ x ∈ s'.host.links, x.Same l

theorem rollbackBridge_works {env : NetEnv} (hroll : env.RollsBack) {name : Text} {s : NetHost}
    (htab : s.Table) {new : Link} (hnew : new ∈ s.host.links) (hname : new.name = name)
    (hb : new.name ∈ s.bridges) (ha : new.ifalias = networkAlias name) :
    rollbackBridge env name s = (removeBridge name s, true) := by
  have hfind : findLink name s.host = some new := hname ▸ findLink_of_mem htab hnew
  rcases deleteOwnedBridge_cases env .rollbackRead .rollbackDelete name (networkAlias name) s with
    ⟨-, hf⟩ | ⟨l, hf, ⟨-, hno⟩ | ⟨he, -, -⟩⟩
  · rw [hfind] at hf
    cases hf
  · rw [hfind] at hf
    cases hf
    exact absurd ⟨hroll.1, hroll.2, hb, ha⟩ hno
  · rw [hfind] at hf
    cases hf
    exact he

theorem removed_settled {name : Text} {s : NetHost} (htab : s.Table) (ht : TrackedBut name s) :
    Settled name s (removeBridge name s) :=
  ⟨htab.removeBridge, ht.removeBridge.tracked removeBridge_gone, fun _ hl hne => removeBridge_keeps hl hne⟩

theorem finishNetwork_settled {env : NetEnv} (hroll : env.RollsBack) {record : NetworkRecord} {s : NetHost}
    (htab : s.Table) (ht : TrackedBut record.name s) {new : Link} (hnew : new ∈ s.host.links)
    (hname : new.name = record.name) (hb : new.name ∈ s.bridges)
    (ha : new.ifalias = networkAlias record.name) : Settled record.name s (finishNetwork env record s).1 := by
  unfold finishNetwork
  split
  · rw [rollbackBridge_works hroll htab hnew hname hb ha]
    exact removed_settled htab ht
  rename_i records hadd
  have hrecords : records = s.host.networks ++ [record] := by
    split at hadd
    · cases hadd
    obtain ⟨-, hadd⟩ := loadNetworks_bind.1 hadd
    unfold addNetworkInfo at hadd
    split at hadd
    · cases hadd
    · cases hadd
      rfl
  -- the record is stored
  have htab' : (setNetworks records s).Table := htab.of_links rfl
  have ht' : (setNetworks records s).Tracked := by
    intro l n hl
    obtain ⟨hl1, hl2, hl3⟩ := ht l n hl
    refine ⟨hl1, hl2, ?_⟩
    simp only [NetworkRecorded, setNetworks, hrecords, List.any_append, List.any_cons, List.any_nil,
      Bool.or_false, Bool.or_eq_true, decide_eq_true_eq]
    by_cases hn : n = record.name
    · exact Or.inr hn.symm
    · exact Or.inl (hl3 hn)
  simp only
  split
  · rw [rollbackBridge_works hroll htab' hnew hname hb ha]
    have hset := removed_settled htab' (ht'.but record.name)
    obtain ⟨h1, h2⟩ := deleteBoth_tracked hset.table (hset.tracked.but record.name) removeBridge_gone env
    refine ⟨h1, h2, fun l hl hne => ?_⟩
    rw [(deleteRecord_links env record.name _).1]
    exact hset.keeps l hl hne
  · exact ⟨htab', ht', fun l hl _ => ⟨l, hl, rfl, rfl, rfl⟩⟩

section NewBridge

variable {name : Text} {s : NetHost}

theorem addBridge_table (htab : s.Table) (hnone : ∀ l ∈ s.host.links, l.name ≠ name) :
    (addBridge name s).Table := by
  have hmem : ∀ {x : Link}, x ∈ (addBridge name s).host.links →
      x ∈ s.host.links ∨ x = ⟨name, s.host.nextIndex, [], none, none⟩ := fun hx =>
    (List.mem_append.1 hx).imp_right List.mem_singleton.1
  intro x hx y hy he
  rcases hmem hx with hx | rfl <;> rcases hmem hy with hy | rfl
  · exact htab x hx y hy he
  · exact absurd he (hnone x hx)
  · exact absurd he.symm (hnone y hy)
  · rfl

theorem addBridge_tracked (ht : s.Tracked) : (addBridge name s).Tracked := by
  intro l n hl
  rcases List.mem_append.1 hl.1 with hmem | hmem
  · obtain ⟨h1, h2, h3⟩ := ht l n ⟨hmem, hl.2⟩
    exact ⟨h1, List.mem_cons_of_mem _ h2, h3⟩
  · have ha := hl.2
    rw [List.mem_singleton.1 hmem] at ha
    exact absurd ha.symm (networkAlias_ne_nil n)

theorem markedBridge_links (hnone : ∀ l ∈ s.host.links, l.name ≠ name) :
    (markedBridge name s).host.links =
      s.host.links ++ [⟨name, s.host.nextIndex, networkAlias name, none, none⟩] := by
  have hmap : s.host.links.map (fun l => if l.name = name then { l with ifalias := networkAlias name } else l) =
      s.host.links := by
    calc _ = s.host.links.map id := List.map_congr_left fun l hl => by simp [hnone l hl]
      _ = s.host.links := List.map_id _
  simp only [markedBridge, updateLink, addBridge, List.map_append, hmap, List.map_cons, List.map_nil, if_true]

theorem markedBridge_table (htab : s.Table) (hnone : ∀ l ∈ s.host.links, l.name ≠ name) :
    (markedBridge name s).Table := by
  have hkey : ∀ y : Link,
      (if y.name = name then { y with ifalias := networkAlias name } else y).name = y.name := by
    intro y
    split <;> rfl
  intro x hx y hy he
  obtain ⟨x₀, hx₀, rfl⟩ := List.mem_map.1 hx
  obtain ⟨y₀, hy₀, rfl⟩ := List.mem_map.1 hy
  rw [hkey x₀, hkey y₀] at he
  rw [addBridge_table htab hnone x₀ hx₀ y₀ hy₀ he]

theorem markedBridge_tracked (ht : s.Tracked) (hnone : ∀ l ∈ s.host.links, l.name ≠ name)
    (hlen : name.length < TD_NETWORK_NAME_SIZE) :
    TrackedBut name (markedBridge name s) := by
  intro l n hl
  have hmem := hl.1
  rw [markedBridge_links hnone] at hmem
  rcases List.mem_append.1 hmem with hmem | hmem
  · obtain ⟨h1, h2, h3⟩ := ht l n ⟨hmem, hl.2⟩
    exact ⟨h1, List.mem_cons_of_mem _ h2, fun _ => h3⟩
  · have ha := hl.2
    rw [List.mem_singleton.1 hmem] at ha ⊢
    have hn : name = n := networkAlias_injective ha
    exact ⟨⟨hn, hn ▸ hlen⟩, List.mem_cons_self, fun hne => absurd hn.symm hne⟩

/-- The last part of `create_network`, on the bridge it has just made. -/
theorem finishNetwork_spec {env : NetEnv} (hroll : env.RollsBack) (record : NetworkRecord) (htab : s.Table)
    (ht : s.Tracked) (hnone : ∀ l ∈ s.host.links, l.name ≠ record.name)
    (hlen : record.name.length < TD_NETWORK_NAME_SIZE) :
    Settled record.name (markedBridge record.name s)
      (finishNetwork env record (markedBridge record.name s)).1 := by
  have hnew : (⟨record.name, s.host.nextIndex, networkAlias record.name, none, none⟩ : Link) ∈
      (markedBridge record.name s).host.links := by
    rw [markedBridge_links hnone]
    simp
  exact finishNetwork_settled hroll (markedBridge_table htab hnone) (markedBridge_tracked ht hnone hlen)
    hnew rfl List.mem_cons_self rfl

end NewBridge

theorem createNetwork_spec {env : NetEnv} (hroll : env.RollsBack) (name cidr driver : Text) {s : NetHost}
    (htab : s.Table) (ht : s.Tracked) :
    (createNetwork env name cidr driver s).1.Table ∧ (createNetwork env name cidr driver s).1.Tracked ∧
      ∀ l ∈ s.host.links, ∃ x ∈ (createNetwork env name cidr driver s).1.host.links, x.Same l := by
  have hsame : s.Table ∧ s.Tracked ∧ ∀ l ∈ s.host.links, ∃ x ∈ s.host.links, x.Same l :=
    ⟨htab, ht, fun l hl => ⟨l, hl, rfl, rfl, rfl⟩⟩
  unfold createNetwork
  simp only
  split
  · exact hsame
  rename_i hvalid
  have hlen : name.length < TD_NETWORK_NAME_SIZE := Nat.lt_of_not_le fun hc => hvalid (Or.inl hc)
  split
  · exact hsame
  split
  · exact hsame
  rename_i hlink
  have hnone : ∀ l ∈ s.host.links, l.name ≠ name := findLink_none (by simpa using hlink)
  split
  · exact hsame
  have htab₁ := addBridge_table htab hnone
  have ht₁ : (addBridge name s).Tracked := addBridge_tracked ht
  split
  · exact ⟨htab₁, ht₁, fun l hl => ⟨l, List.mem_append_left _ hl, rfl, rfl, rfl⟩⟩
  split
  · rw [hroll.2]
    have hset := removed_settled htab₁ (ht₁.but name)
    exact ⟨hset.table, hset.tracked, fun l hl => hset.keeps l (List.mem_append_left _ hl) (hnone l hl)⟩
  · have hset := finishNetwork_spec hroll ⟨name, driver, cidr, []⟩ htab ht hnone hlen
    refine ⟨hset.table, hset.tracked, fun l hl => hset.keeps l ?_ (hnone l hl)⟩
    rw [markedBridge_links hnone]
    exact List.mem_append_left _ hl

/-- A call of one of the two commands. -/
inductive NetCommand where
  | create (env : NetEnv) (name cidr driver : Text)
  | delete (env : NetEnv) (name : Text)

def NetCommand.network : NetCommand → Text
  | .create _ name _ _ => name
  | .delete _ name => name

/-- Everything else may fail. -/
def NetCommand.RollsBack : NetCommand → Prop
  | .create env _ _ _ => env.RollsBack
  | .delete _ _ => True

def NetHost.step (s : NetHost) : NetCommand → NetHost
  | .create env name cidr driver => (createNetwork env name cidr driver s).1
  | .delete env name => (delteNetwork env name s).1

def NetHost.run (s : NetHost) (cs : List NetCommand) : NetHost := Runs.run NetHost.step s cs

theorem NetHost.step_tracked {s : NetHost} (htab : s.Table) (ht : s.Tracked) {c : NetCommand}
    (hc : c.RollsBack) : (s.step c).Table ∧ (s.step c).Tracked ∧ DeletesOwned c.network s (s.step c) := by
  cases c with
  | create env name cidr driver =>
    obtain ⟨h1, h2, h3⟩ := createNetwork_spec hc name cidr driver htab ht
    exact ⟨h1, h2, fun l hl => Or.inl (h3 l hl)⟩
  | delete env name => exact delteNetwork_spec env name htab ht

theorem NetHost.run_tracked {cs : List NetCommand} {s : NetHost} (htab : s.Table) (ht : s.Tracked)
    (hcs : ∀ c ∈ cs, c.RollsBack) : (s.run cs).Table ∧ (s.run cs).Tracked := by
  have hkeep : ∀ (s : NetHost) (c : NetCommand), s.Table ∧ s.Tracked → c.RollsBack →
      (s.step c).Table ∧ (s.step c).Tracked := by
    rintro s c ⟨htab, ht⟩ hc
    obtain ⟨h1, h2, -⟩ := NetHost.step_tracked htab ht hc
    exact ⟨h1, h2⟩
  exact Runs.run_of_mem (I := fun s : NetHost => s.Table ∧ s.Tracked) hkeep ⟨htab, ht⟩ hcs

/-- `network rm` of a tracked bridge in a run without failures. -/
theorem delteNetwork_removes {s : NetHost} (htab : s.Table) (ht : s.Tracked) (hstore : StoreOk s.host.networks)
    {l : Link} {n : Text} (hl : s.Aliased l n) :
    (delteNetwork (fun _ => false) n s).2 = 0 ∧
      ∀ x m, (delteNetwork (fun _ => false) n s).1.Aliased x m → m ≠ n := by
  obtain ⟨⟨hname, hshort⟩, hb, hrec⟩ := ht l n hl
  have hlen : (networkAlias n).length < 256 := by
    rw [networkAlias_length]
    exact Nat.lt_trans (Nat.add_lt_add_left hshort 19) (by decide)
  have hfind : findLink n s.host = some l := hname ▸ findLink_of_mem htab hl.1
  have hdel : deleteOwnedBridge (fun _ => false) .readInterface .deleteBridge n (networkAlias n) s =
      (removeBridge n s, true) := by
    simp [deleteOwnedBridge, hfind, ownsBridge, hb, hl.2]
  have hread : (readNetworkInfo n s).isNone = false :=
    Option.isNone_eq_false_iff.2 (readNetworkInfo_isSome.2 ⟨hstore, hrec⟩)
  have hload : loadNetworks (removeBridge n s).host = some s.host.networks := loadNetworks_of_store hstore
  have heq : delteNetwork (fun _ => false) n s =
      (setNetworks (deleteNetworkInfo n s.host.networks) (removeBridge n s), 0) := by
    simp only [delteNetwork, hread, false_or, Nat.not_le.2 hlen, if_false, hdel, deleteRecord, hload,
      Bool.false_eq_true]
  rw [heq]
  refine ⟨rfl, fun x m hx hm => ?_⟩
  obtain ⟨y, hy, -, hsame, -⟩ := mem_removeBridge hx.1
  have hyn := (ht y m ⟨hy, hsame.2.2.symm.trans hx.2⟩).1.1
  exact removeBridge_gone x hx.1 ((hsame.1.trans hyn).trans hm)

/-- **No orphan bridge.**  In every run of the two commands in which the bridge deletions of rollbacks
work, an interface with the alias of a network has the record of that network in the file, so that `network rm`
can remove it when the file reads back, and a command deletes no other interface than an owned bridge of its
network. -/
theorem no_orphan_bridge (s : NetHost) (cs : List NetCommand) (htab : s.Table)
    (hforeign : ∀ l ∈ s.host.links, ∀ n, l.ifalias ≠ networkAlias n) (hroll : ∀ c ∈ cs, c.RollsBack) :
    (∀ l n, (s.run cs).Aliased l n → NetworkRecorded n (s.run cs) = true ∧
      ((loadNetworks (s.run cs).host).isSome = true → networkInfoExists n (s.run cs) = some true ∧
        (delteNetwork (fun _ => false) n (s.run cs)).2 = 0 ∧
        ∀ x m, (delteNetwork (fun _ => false) n (s.run cs)).1.Aliased x m → m ≠ n)) ∧
    ∀ c : NetCommand, c.RollsBack → ∀ l ∈ (s.run cs).host.links,
      (∃ x ∈ ((s.run cs).step c).host.links, x.name = l.name ∧ x.index = l.index ∧ x.ifalias = l.ifalias) ∨
        (l.ifalias = networkAlias c.network ∧ l.name ∈ (s.run cs).bridges) := by
  have ht : s.Tracked := fun l n hl => absurd hl.2 (hforeign l hl.1 n)
  obtain ⟨htab', ht'⟩ := NetHost.run_tracked htab ht hroll
  refine ⟨fun l n hl => ⟨(ht' l n hl).2.2, fun hread => ?_⟩, fun c hc l hl => ?_⟩
  · obtain ⟨records, hload⟩ := Option.isSome_iff_exists.1 hread
    have hstore := (loadNetworks_eq_some.1 hload).2
    exact ⟨networkInfoExists_eq_some.2 ⟨hstore, (ht' l n hl).2.2⟩, delteNetwork_removes htab' ht' hstore hl⟩
  obtain ⟨-, -, hown⟩ := NetHost.step_tracked htab' ht' hc
  exact (hown l hl).imp_right fun h => ⟨h.1.2, h.2⟩

/-- A host with one interface of its own. -/
def NetHost.uplink : NetHost :=
  ⟨{ space := ⟨fun _ _ => none, [], 1⟩, workspace := fun _ => false, cgroups := [], info := fun _ => none,
      networks := [], nat := fun _ => [], links := [⟨"eth0".toList, 1, [], none, none⟩], nextIndex := 2,
      procs := [], clock := 0, log := [] }, []⟩

theorem NetHost.uplink_table : NetHost.uplink.Table := by
  unfold NetHost.Table
  decide

/-- A network is made, made again without success, and a second one loses its record write. -/
def failingCreates : List NetCommand :=
  [.create (fun _ => false) "net0".toList "10.0.0.0/24".toList "bridge".toList,
    .create (fun _ => false) "net0".toList "10.0.1.0/24".toList "bridge".toList,
    .create (fun site => decide (site = .writeRecord)) "net1".toList "10.0.2.0/24".toList "bridge".toList]

theorem failing_creates_tracked :
    (NetHost.uplink.run failingCreates).Aliased ⟨"net0".toList, 2, networkAlias "net0".toList, none, none⟩
        "net0".toList ∧
      networkInfoExists "net0".toList (NetHost.uplink.run failingCreates) = some true := by
  have hlink : (NetHost.uplink.run failingCreates).Aliased
      ⟨"net0".toList, 2, networkAlias "net0".toList, none, none⟩ "net0".toList := ⟨by decide +kernel, rfl⟩
  refine ⟨hlink, (((no_orphan_bridge NetHost.uplink failingCreates NetHost.uplink_table ?_ ?_).1 _ _ hlink).2
    (by decide +kernel)).1⟩
  · intro l hl n he
    have hl : l = ⟨"eth0".toList, 1, [], none, none⟩ := List.mem_singleton.1 hl
    rw [hl] at he
    exact networkAlias_ne_nil n he.symm
  · intro c hc
    simp only [failingCreates, List.mem_cons, List.not_mem_nil, or_false] at hc
    rcases hc with rfl | rfl | rfl <;> exact ⟨rfl, rfl⟩

/-! ## The default bridge -/

/-- What `create_default_bridge` should do when nothing fails: make or adopt the bridge and its
record, and then do nothing. -/
def DefaultBridgeWorks (s : NetHost) : Prop :=
  let first := createDefaultBridge (fun _ => false) s
  let again := createDefaultBridge (fun _ => false) first.1
  first.2 = 0 ∧
    (∃ l ∈ first.1.host.links, l.name = TINYDOCKER_DEFAULT_NETWORK_NAME ∧ l.name ∈ first.1.bridges ∧
      l.ifalias = networkAlias TINYDOCKER_DEFAULT_NETWORK_NAME) ∧
    (∃ r, readNetworkInfo TINYDOCKER_DEFAULT_NETWORK_NAME first.1 = some r ∧
      r.name = TINYDOCKER_DEFAULT_NETWORK_NAME ∧ r.driver = "bridge".toList ∧
      r.cidr = TINYDOCKER_DEFAULT_NETWORK_CIDR) ∧
    again.2 = 0 ∧ again.1.host.networks = first.1.host.networks

/-- The networks file can be loaded, neither the interface nor the record is there, and there is room for a
record. -/
def DefaultAbsent (s : NetHost) : Prop :=
  findLink TINYDOCKER_DEFAULT_NETWORK_NAME s.host = none ∧
    networkInfoExists TINYDOCKER_DEFAULT_NETWORK_NAME s = some false ∧
    s.host.networks.length < TD_NETWORK_MAX_RECORDS

/-- The interface is a bridge with the alias, and the record that is loaded matches. -/
def DefaultPresent (s : NetHost) : Prop :=
  ∃ l r, findLink TINYDOCKER_DEFAULT_NETWORK_NAME s.host = some l ∧ l.name ∈ s.bridges ∧
    l.ifalias = networkAlias TINYDOCKER_DEFAULT_NETWORK_NAME ∧
    readNetworkInfo TINYDOCKER_DEFAULT_NETWORK_NAME s = some r ∧
    r.driver = "bridge".toList ∧ r.cidr = TINYDOCKER_DEFAULT_NETWORK_CIDR

/-- The record of the default network. -/
def defaultRecord : NetworkRecord :=
  ⟨TINYDOCKER_DEFAULT_NETWORK_NAME, "bridge".toList, TINYDOCKER_DEFAULT_NETWORK_CIDR, []⟩

theorem defaultRecord_ok : RecordOk defaultRecord := by
  have hformat : (tdFormatNetworkRecord defaultRecord 4096).toOption = some (recordText defaultRecord) := by
    decide +kernel
  cases hout : tdFormatNetworkRecord defaultRecord 4096 with
  | error e =>
    rw [hout] at hformat
    cases hformat
  | ok out => exact (tdFormatNetworkRecord_eq hout).1

theorem createDefaultBridge_present {s : NetHost} (hp : DefaultPresent s) :
    createDefaultBridge (fun _ => false) s = (s, 0) := by
  obtain ⟨l, r, hl, hb, ha, hr, hd, hc⟩ := hp
  simp [createDefaultBridge, hl, hr, hd, hc, ownsBridge, hb, ha, defaultUp]

/-- With an interface of that name and no failure, `create_default_bridge` succeeds only on a bridge
that matches. -/
theorem present_of_createDefaultBridge {s : NetHost}
    (hlink : (findLink TINYDOCKER_DEFAULT_NETWORK_NAME s.host).isSome = true)
    (h : (createDefaultBridge (fun _ => false) s).2 = 0) : DefaultPresent s := by
  obtain ⟨l, hl⟩ := Option.isSome_iff_exists.1 hlink
  unfold createDefaultBridge at h
  rw [hl] at h
  simp only at h
  split at h
  · cases h
  rename_i r hr
  split at h
  · cases h
  rename_i hok
  simp only [ne_eq, not_or, not_not, ownsBridge, Bool.not_false, Bool.true_and, Bool.not_eq_false,
    Bool.and_eq_true, decide_eq_true_eq] at hok
  exact ⟨l, r, hl, hok.2.2.1, hok.2.2.2, hr, hok.1, hok.2.1⟩

/-- The checks of `create_network` accept the default network. -/
theorem default_valid : ¬ (TD_NETWORK_NAME_SIZE ≤ TINYDOCKER_DEFAULT_NETWORK_NAME.length ∨
    TD_NETWORK_DRIVER_SIZE ≤ "bridge".toList.length ∨
    TD_NETWORK_CIDR_SIZE ≤ TINYDOCKER_DEFAULT_NETWORK_CIDR.length ∨
    256 ≤ (networkAlias TINYDOCKER_DEFAULT_NETWORK_NAME).length ∨
    (tdFormatNetworkRecord defaultRecord 4096).isOk = false) := by
  decide +kernel

/-- Without an interface of that name, it makes the network if there is no record and room for one. -/
theorem createDefaultBridge_absent {s : NetHost}
    (hlink : findLink TINYDOCKER_DEFAULT_NETWORK_NAME s.host = none) :
    (DefaultAbsent s ∧ createDefaultBridge (fun _ => false) s =
      (setNetworks (s.host.networks ++ [defaultRecord]) (markedBridge TINYDOCKER_DEFAULT_NETWORK_NAME s), 0)) ∨
    (¬ DefaultAbsent s ∧ (createDefaultBridge (fun _ => false) s).2 = -1) := by
  have hvalid := default_valid
  simp only [defaultRecord] at hvalid
  simp only [createDefaultBridge, hlink, createNetwork, hvalid, if_false]
  by_cases hrec : networkInfoExists TINYDOCKER_DEFAULT_NETWORK_NAME s = some false
  swap
  · refine Or.inr ⟨fun ha => hrec ha.2.1, ?_⟩
    simp [hrec]
  obtain ⟨hstore, hany⟩ := networkInfoExists_eq_some.1 hrec
  have hany : (s.host.networks.any fun r => decide (r.name = TINYDOCKER_DEFAULT_NETWORK_NAME)) = false := hany
  have hload : loadNetworks (markedBridge TINYDOCKER_DEFAULT_NETWORK_NAME s).host = some s.host.networks :=
    loadNetworks_of_store hstore
  simp only [hrec, ne_eq, not_true_eq_false, Bool.false_eq_true, if_false, Option.isSome_none, finishNetwork,
    addNetworkInfo, hload, Option.bind_some, hany, or_false]
  by_cases hfull : TD_NETWORK_MAX_RECORDS ≤ s.host.networks.length
  · refine Or.inr ⟨fun ha => absurd ha.2.2 (by omega), ?_⟩
    simp only [hfull, if_true]
  · refine Or.inl ⟨⟨hlink, hrec, by omega⟩, ?_⟩
    simp only [hfull, if_false]
    rfl

theorem absent_then_present {s : NetHost} (ha : DefaultAbsent s) :
    DefaultPresent
      (setNetworks (s.host.networks ++ [defaultRecord]) (markedBridge TINYDOCKER_DEFAULT_NETWORK_NAME s)) := by
  have hnone := findLink_none ha.1
  obtain ⟨hstore, hany⟩ := networkInfoExists_eq_some.1 ha.2.1
  refine ⟨⟨TINYDOCKER_DEFAULT_NETWORK_NAME, s.host.nextIndex, networkAlias TINYDOCKER_DEFAULT_NETWORK_NAME, none,
    none⟩, defaultRecord, ?_, List.mem_cons_self, rfl, readNetworkInfo_eq_some.2 ⟨?_, ?_⟩, rfl, rfl⟩
  · have hlinks := markedBridge_links hnone
    have hfind := ha.1
    simp only [findLink, setNetworks] at hfind ⊢
    rw [hlinks, List.find?_append, hfind]
    simp
  · refine hstore.add defaultRecord_ok (by decide) ?_
    have hroom : ¬ (TD_NETWORK_MAX_RECORDS ≤ s.host.networks.length ∨
        s.host.networks.any (fun r => decide (r.name = TINYDOCKER_DEFAULT_NETWORK_NAME)) = true) := by
      rw [not_or, Nat.not_le, Bool.not_eq_true]
      exact ⟨ha.2.2, hany⟩
    exact if_neg hroom
  · simp only [NetworkRecorded, List.any_eq_false, decide_eq_true_eq] at hany
    have hfind : s.host.networks.find? (fun r => decide (r.name = TINYDOCKER_DEFAULT_NETWORK_NAME)) = none :=
      List.find?_eq_none.2 fun r hr => by simpa using hany r hr
    simp only [setNetworks, List.find?_append, hfind]
    simp [defaultRecord]

/-- **When the default bridge works.** -/
theorem defaultBridgeWorks_iff (s : NetHost) : DefaultBridgeWorks s ↔ DefaultAbsent s ∨ DefaultPresent s := by
  have hdone : ∀ {t : NetHost}, DefaultPresent t → createDefaultBridge (fun _ => false) s = (t, 0) →
      DefaultBridgeWorks s := by
    intro t hp he
    unfold DefaultBridgeWorks
    simp only [he, createDefaultBridge_present hp]
    obtain ⟨l, r, hl, hb, ha, hr, hd, hc⟩ := hp
    obtain ⟨hmem, hname⟩ := findLink_some hl
    have hfound := (readNetworkInfo_eq_some.1 hr).2
    refine ⟨trivial, ⟨l, hmem, hname, hb, ha⟩, ⟨r, hr, ?_, hd, hc⟩, trivial, trivial⟩
    exact of_decide_eq_true (List.find?_some hfound :)
  constructor
  · intro hw
    by_cases hlink : (findLink TINYDOCKER_DEFAULT_NETWORK_NAME s.host).isSome = true
    · exact Or.inr (present_of_createDefaultBridge hlink hw.1)
    · rcases createDefaultBridge_absent (by simpa using hlink) with ⟨ha, -⟩ | ⟨-, hfail⟩
      · exact Or.inl ha
      · have hzero := hw.1
        rw [hfail] at hzero
        cases hzero
  · rintro (ha | hp)
    · rcases createDefaultBridge_absent ha.1 with ⟨-, he⟩ | ⟨hno, -⟩
      · exact hdone (absent_then_present ha) he
      · exact absurd ha hno
    · exact hdone hp (createDefaultBridge_present hp)

end TinyDocker
