import TinyDocker.Lib.Runs
import TinyDocker.Docker.System
import TinyDocker.Docker.NetworkRollback

/-!
# Who deletes which interface (`docker/network.c`)

Calls of `connect_container` and `disconnect_container` for any containers, one after the other, on one
interface table; everything else on the host may be anything at each of them.  The table remembers which
container's call the kernel gave an index to.  Two names may share their interface names; what keeps them
apart is the check before the pair is created, and the alias.

Principal results:

* `connectContainer_wires`, `disconnectContainer_wires` — what one call does to the table;
* `veth_ownership` — what a call deletes.
-/

set_option autoImplicit false

namespace TinyDocker

open CText

/-! ## One call -/

section Call

variable {env : Env} {name network vethHost vethPeer : Text} {h : Host}

/-- What `ip link add` and the commands after it leave of the table: the pair of this call, with its host end
unmarked or marked for the container, or nothing. -/
structure AddsPair (name vethHost vethPeer : Text) (h h' : Host) : Prop where
  free : NamesFree vethHost vethPeer h.links
  indices : h'.nextIndex = h.nextIndex + 2
  links : h'.links = h.links ∨
    Paired (fun l => l.index = h.nextIndex + 1 ∧ (l.ifalias = [] ∨ l.ifalias = containerAlias name))
      (fun p => p = peerEnd vethHost vethPeer h) vethHost vethPeer h.links h'.links

theorem configureVeth_nextIndex (env : Env) (name network vethHost vethPeer : Text) (h : Host) :
    (configureVeth env name network vethHost vethPeer h).1.nextIndex = h.nextIndex := by
  refine runVethCommands_inv (I := fun g => g.nextIndex = h.nextIndex) _ 0 (fun c hc g hg => ?_) rfl
  simp only [vethCommands, List.mem_cons, List.not_mem_nil, or_false] at hc
  rcases hc with rfl | rfl | rfl | rfl | rfl | rfl | rfl | rfl | rfl <;> exact hg

theorem createVeth_wires (env : Env) (name network : Text) (hne : vethHost ≠ vethPeer) (h : Host) :
    createVeth env name network vethHost vethPeer h = (h, false) ∨
      AddsPair name vethHost vethPeer h (createVeth env name network vethHost vethPeer h).1 := by
  unfold createVeth
  split
  · exact Or.inl rfl
  rename_i hex
  have hfree := namesFree_of_findLink hex
  have hadded : Paired (fun l => l.index = h.nextIndex + 1 ∧ (l.ifalias = [] ∨ l.ifalias = containerAlias name))
      (fun p => p = peerEnd vethHost vethPeer h) vethHost vethPeer h.links (addVethPair vethHost vethPeer h).links :=
    ⟨hostEnd vethHost vethPeer h, rfl, ⟨rfl, Or.inl rfl⟩, Or.inl ⟨_, rfl, rfl, rfl, rfl⟩⟩
  split
  · exact Or.inl rfl
  split
  · exact Or.inr ⟨hfree, rfl, Or.inr hadded⟩
  split
  · refine Or.inr ?_
    simp only
    split
    · exact ⟨hfree, rfl, Or.inr hadded⟩
    · exact ⟨hfree, rfl, Or.inl (by rw [deleteLink_addVethPair hfree])⟩
  · refine Or.inr ?_
    have hpair := configureVeth_paired env name network hfree hne
    have hindex : (configureVeth env name network vethHost vethPeer
        (addVethPair vethHost vethPeer h)).1.nextIndex = h.nextIndex + 2 :=
      configureVeth_nextIndex env name network vethHost vethPeer _
    have hmarked : Paired
        (fun l => l.index = h.nextIndex + 1 ∧ (l.ifalias = [] ∨ l.ifalias = containerAlias name))
        (fun p => p = peerEnd vethHost vethPeer h) vethHost vethPeer h.links
        (configureVeth env name network vethHost vethPeer (addVethPair vethHost vethPeer h)).1.links :=
      hpair.mono (fun l hl => ⟨hl.1, Or.inr hl.2⟩) fun p hp => hp
    simp only
    split
    · exact ⟨hfree, hindex, Or.inr hmarked⟩
    · obtain ⟨l, hfind, -, hdel⟩ := hpair.findLink hfree hne
      unfold deleteOwnedVeth
      rw [hfind]
      simp only
      split
      · exact ⟨hfree, hindex, Or.inr hmarked⟩
      split
      · exact ⟨hfree, hindex, Or.inr hmarked⟩
      · rw [hdel]
        exact ⟨hfree, hindex, Or.inl rfl⟩

/-- **What `connect_container` does to the table.** -/
theorem connectContainer_wires (env : Env) (name network : Text) (h : Host) :
    ((connectContainer env name network h).1.links = h.links ∧
      (connectContainer env name network h).1.nextIndex = h.nextIndex) ∨
    ∃ vethHost vethPeer, vethHost ≠ vethPeer ∧
      AddsPair name vethHost vethPeer h (connectContainer env name network h).1 := by
  have hattach : ∀ g : Host, (attachContainer env name network g).1 = g ∨
      ∃ vethHost vethPeer, vethHost ≠ vethPeer ∧
        AddsPair name vethHost vethPeer g (attachContainer env name network g).1 := by
    intro g
    unfold attachContainer
    split
    · exact Or.inl rfl
    split
    · rename_i vethHost vethPeer hh hp
      have hne := veth_names_ne hh hp
      rcases createVeth_wires env name network hne g with he | hadds
      · exact Or.inl (by rw [he])
      · exact Or.inr ⟨vethHost, vethPeer, hne, hadds⟩
    · exact Or.inl rfl
  rcases connectContainer_cases env name network h with ⟨-, he⟩ | ⟨records, a, h₂, ok, -, -, hat, he⟩
  · rw [he]
    exact Or.inl ⟨rfl, rfl⟩
  have hstep := hattach { h with networks := records }
  rw [hat] at hstep
  obtain ⟨networks, hrec⟩ := releaseUsedIpText_only env .connectRelease network (Ipv4.inetNtop a) h₂
  -- releasing the address does not touch the table
  have hsame : (connectContainer env name network h).1.links = h₂.links ∧
      (connectContainer env name network h).1.nextIndex = h₂.nextIndex := by
    rw [he]
    split
    · exact ⟨rfl, rfl⟩
    · rw [hrec]
      exact ⟨rfl, rfl⟩
  rcases hstep with hh | ⟨vethHost, vethPeer, hne, hadds⟩
  · have hh : h₂ = { h with networks := records } := hh
    rw [hsame.1, hsame.2, hh]
    exact Or.inl ⟨rfl, rfl⟩
  · refine Or.inr ⟨vethHost, vethPeer, hne, hadds.free, ?_, ?_⟩
    · rw [hsame.2]
      exact hadds.indices
    · rw [hsame.1]
      exact hadds.links

/-- **What `disconnect_container` does to the table.** -/
theorem disconnectContainer_wires (env : Env) (name : Text) (h : Host) :
    (disconnectContainer env name h).1 = h ∨
      ∃ l ∈ h.links, l.ifalias = containerAlias name ∧ (disconnectContainer env name h).1 = deleteLink l h := by
  unfold disconnectContainer
  split
  · exact Or.inl rfl
  split
  · exact Or.inl rfl
  rename_i l hfind
  split
  · exact Or.inl rfl
  rename_i howns
  simp only [ownsInterface, Bool.not_eq_false, Bool.and_eq_true, decide_eq_true_eq] at howns
  unfold deleteOwnedVeth
  rw [hfind]
  simp only
  split
  · exact Or.inl rfl
  split
  · exact Or.inl rfl
  · exact Or.inr ⟨l, List.mem_of_find?_eq_some hfind, howns.2, rfl⟩

end Call

/-! ## The table over all calls -/

/-- The creators after a call for `name`. -/
def created (name : Text) (creator : Nat → Option Text) (lo hi : Nat) : Nat → Option Text :=
  fun i => if lo ≤ i ∧ i < hi then some name else creator i

/-- The interfaces, and for each index the container whose call it was created in, if it was one. -/
structure Wires where
  links : List Link
  nextIndex : Nat
  creator : Nat → Option Text

inductive VethOp where
  | connect (network : Text)
  | disconnect
  deriving DecidableEq, Repr

/-- A call for the container `name`; `around` is the rest of the host at that time. -/
structure VethCall where
  name : Text
  op : VethOp
  env : Env
  around : Host

def VethCall.host (c : VethCall) (w : Wires) : Host :=
  { c.around with links := w.links, nextIndex := w.nextIndex }

def VethCall.result (c : VethCall) (w : Wires) : Host :=
  match c.op with
  | .connect network => (connectContainer c.env c.name network (c.host w)).1
  | .disconnect => (disconnectContainer c.env c.name (c.host w)).1

def Wires.step (w : Wires) (c : VethCall) : Wires where
  links := (c.result w).links
  nextIndex := (c.result w).nextIndex
  creator := created c.name w.creator w.nextIndex (c.result w).nextIndex

/-- The call deletes this interface. -/
def Deletes (w : Wires) (c : VethCall) (l : Link) : Prop :=
  l ∈ w.links ∧ ∀ l' ∈ (w.step c).links, l'.index ≠ l.index

/-- A table as the kernel keeps it: no name is used twice, an index is given once, and the two ends of a veth
pair name each other. -/
structure TableOk (w : Wires) : Prop where
  names : (w.links.map (·.name)).Nodup
  bound : ∀ l ∈ w.links, l.index < w.nextIndex
  peers : ∀ l ∈ w.links, ∀ n, l.peer = some n → ∃ x ∈ w.links, x.name = n ∧ x.peer = some l.name

/-- What the calls keep of it: an interface that a call has created is unmarked or marked for its container,
and so is the creator of both ends of a pair. -/
structure WiresOk (w : Wires) : Prop extends TableOk w where
  fresh : ∀ i, w.nextIndex ≤ i → w.creator i = none
  marks : ∀ l ∈ w.links, ∀ b, w.creator l.index = some b → l.ifalias = [] ∨ l.ifalias = containerAlias b
  pairs : ∀ l ∈ w.links, ∀ x ∈ w.links, l.peer = some x.name → w.creator l.index = w.creator x.index

theorem eq_of_name {links : List Link} (hnames : (links.map (·.name)).Nodup) {l x : Link} (hl : l ∈ links)
    (hx : x ∈ links) (h : l.name = x.name) : l = x :=
  List.inj_on_of_nodup_map hnames hl hx h

theorem containerAlias_injective {a b : Text} (h : containerAlias a = containerAlias b) : a = b :=
  List.append_cancel_left h

/-! ## A new pair -/

section Adds

variable {name vethHost vethPeer : Text} {h h' : Host} {creator : Nat → Option Text}

theorem created_old {lo hi i : Nat} (hi' : i < lo) : created name creator lo hi i = creator i :=
  if_neg fun hc => absurd hc.1 (Nat.not_le.2 hi')

/-- A call that gets no index. -/
theorem created_none (lo : Nat) : created name creator lo lo = creator := by
  funext i
  unfold created
  rw [if_neg (by omega)]

theorem created_new {lo hi i : Nat} (h1 : lo ≤ i) (h2 : i < hi) : created name creator lo hi i = some name :=
  if_pos ⟨h1, h2⟩

/-- An interface of the new pair. -/
structure NewLink (name vethHost vethPeer : Text) (h : Host) (x : Link) : Prop where
  named : x.name = vethHost ∨ x.name = vethPeer
  index : h.nextIndex ≤ x.index ∧ x.index < h.nextIndex + 2
  ifalias : x.ifalias = [] ∨ x.ifalias = containerAlias name

/-- The table is the old one with new interfaces behind it, which name each other or nothing. -/
theorem AddsPair.append (ha : AddsPair name vethHost vethPeer h h') (hne : vethHost ≠ vethPeer) :
    ∃ new, h'.links = h.links ++ new ∧ (new.map (·.name)).Nodup ∧
      (∀ x ∈ new, NewLink name vethHost vethPeer h x) ∧
      ∀ x ∈ new, ∀ n, x.peer = some n → ∃ y ∈ new, y.name = n ∧ y.peer = some x.name := by
  rcases ha.links with hsame | ⟨l, hl, ⟨hindex, hmark⟩, ⟨p, hpn, rfl, hpeer, hlinks⟩ | ⟨hpeer, hlinks⟩⟩
  · refine ⟨[], by rw [hsame, List.append_nil], List.nodup_nil, fun x hx => ?_, fun x hx => ?_⟩ <;> cases hx
  · have hnewl : NewLink name vethHost vethPeer h l := ⟨Or.inl hl, by omega, hmark⟩
    have hnewp : NewLink name vethHost vethPeer h (peerEnd vethHost vethPeer h) :=
      ⟨Or.inr rfl, ⟨Nat.le_refl _, Nat.lt_add_of_pos_right (by decide)⟩, Or.inl rfl⟩
    refine ⟨[peerEnd vethHost vethPeer h, l], hlinks, ?_, fun x hx => ?_, fun x hx n hn => ?_⟩
    · simp only [List.map_cons, List.map_nil, hl, hpn, List.nodup_cons, List.mem_singleton, List.not_mem_nil,
        not_false_eq_true, List.nodup_nil, and_true]
      exact hne.symm
    · rcases List.mem_cons.1 hx with rfl | hx
      · exact hnewp
      · rw [List.mem_singleton.1 hx]
        exact hnewl
    · rcases List.mem_cons.1 hx with rfl | hx
      · cases hn
        exact ⟨l, by simp, hl, hpeer⟩
      · rw [List.mem_singleton.1 hx] at hn ⊢
        rw [hpeer] at hn
        cases hn
        exact ⟨_, List.mem_cons_self, rfl, by rw [hl]; rfl⟩
  · refine ⟨[l], hlinks, by simp, fun x hx => ?_, fun x hx n hn => ?_⟩
    · rw [List.mem_singleton.1 hx]
      exact ⟨Or.inl hl, by omega, hmark⟩
    · rw [List.mem_singleton.1 hx, hpeer] at hn
      cases hn

/-- **A connect call** keeps the table in order. -/
theorem WiresOk.adds (hok : WiresOk ⟨h.links, h.nextIndex, creator⟩) (ha : AddsPair name vethHost vethPeer h h')
    (hne : vethHost ≠ vethPeer) :
    WiresOk ⟨h'.links, h'.nextIndex, created name creator h.nextIndex h'.nextIndex⟩ := by
  obtain ⟨new, hlinks, hnodup, hnew, hpeers⟩ := ha.append hne
  have hindices := ha.indices
  have hold : ∀ x ∈ h.links, created name creator h.nextIndex h'.nextIndex x.index = creator x.index :=
    fun x hx => created_old (hok.bound x hx)
  have hcreated : ∀ x ∈ new, created name creator h.nextIndex h'.nextIndex x.index = some name := by
    intro x hx
    have hi := (hnew x hx).index
    exact created_new hi.1 (by omega)
  have hapart : ∀ x ∈ h.links, ∀ y ∈ new, x.name ≠ y.name := by
    intro x hx y hy he
    have hfree := ha.free x hx
    rcases (hnew y hy).named with hn | hn
    · exact hfree.1 (he.trans hn)
    · exact hfree.2 (he.trans hn)
  refine ⟨⟨?_, fun x hx => ?_, fun x hx n hn => ?_⟩, fun i hi => ?_, fun x hx b hb => ?_, fun x hx y hy hxy => ?_⟩
  · show (h'.links.map (·.name)).Nodup
    rw [hlinks, List.map_append]
    refine List.nodup_append.2 ⟨hok.names, hnodup, fun a ha b hb => ?_⟩
    obtain ⟨x, hx, rfl⟩ := List.mem_map.1 ha
    obtain ⟨y, hy, rfl⟩ := List.mem_map.1 hb
    exact hapart x hx y hy
  · have hx : x ∈ h.links ++ new := hlinks ▸ hx
    show x.index < h'.nextIndex
    rcases List.mem_append.1 hx with hx | hx
    · have hb : x.index < h.nextIndex := hok.bound x hx
      omega
    · have hi := (hnew x hx).index
      omega
  · have hx : x ∈ h.links ++ new := hlinks ▸ hx
    show ∃ y ∈ h'.links, y.name = n ∧ y.peer = some x.name
    rw [hlinks]
    rcases List.mem_append.1 hx with hx | hx
    · obtain ⟨y, hy, hpair⟩ := hok.peers x hx n hn
      exact ⟨y, List.mem_append_left _ hy, hpair⟩
    · obtain ⟨y, hy, hpair⟩ := hpeers x hx n hn
      exact ⟨y, List.mem_append_right _ hy, hpair⟩
  · have hi : h'.nextIndex ≤ i := hi
    show created name creator h.nextIndex h'.nextIndex i = none
    unfold created
    rw [if_neg (by omega)]
    exact hok.fresh i (by show h.nextIndex ≤ i; omega)
  · have hx : x ∈ h.links ++ new := hlinks ▸ hx
    rcases List.mem_append.1 hx with hx | hx
    · exact hok.marks x hx b ((hold x hx).symm.trans hb)
    · have hname := (hcreated x hx).symm.trans hb
      cases hname
      exact (hnew x hx).ifalias
  · have hx : x ∈ h.links ++ new := hlinks ▸ hx
    have hy : y ∈ h.links ++ new := hlinks ▸ hy
    show created name creator h.nextIndex h'.nextIndex x.index = created name creator h.nextIndex h'.nextIndex y.index
    rcases List.mem_append.1 hx with hx | hx
    · rcases List.mem_append.1 hy with hy | hy
      · rw [hold x hx, hold y hy]
        exact hok.pairs x hx y hy hxy
      · -- the other end of an old interface is an old one
        obtain ⟨z, hz, hzn, -⟩ := hok.peers x hx _ hxy
        exact absurd hzn (hapart z hz y hy)
    · rcases List.mem_append.1 hy with hy | hy
      · obtain ⟨z, hz, hzn, -⟩ := hpeers x hx _ hxy
        exact absurd hzn.symm (hapart y hy z hz)
      · rw [hcreated x hx, hcreated y hy]

end Adds

/-! ## A deleted pair -/

/-- **A disconnect call** keeps the table in order. -/
theorem WiresOk.deletes {h : Host} {creator : Nat → Option Text} {l : Link}
    (hok : WiresOk ⟨h.links, h.nextIndex, creator⟩) (hl : l ∈ h.links) :
    WiresOk ⟨(deleteLink l h).links, h.nextIndex, creator⟩ := by
  have hkeep : ∀ {x : Link}, x ∈ (deleteLink l h).links ↔ x ∈ h.links ∧ x.name ≠ l.name ∧ some x.name ≠ l.peer := by
    intro x
    simp only [deleteLink, List.mem_filter, decide_eq_true_eq]
  refine ⟨⟨?_, fun x hx => hok.bound x (hkeep.1 hx).1, fun x hx n hn => ?_⟩, hok.fresh,
    fun x hx b hb => hok.marks x (hkeep.1 hx).1 b hb,
    fun x hx y hy hxy => hok.pairs x (hkeep.1 hx).1 y (hkeep.1 hy).1 hxy⟩
  · exact (List.filter_sublist.map _).nodup hok.names
  · obtain ⟨hx, hxl, hxp⟩ := hkeep.1 hx
    obtain ⟨y, hy, hyn, hyp⟩ := hok.peers x hx n hn
    refine ⟨y, hkeep.2 ⟨hy, fun he => ?_, fun he => ?_⟩, hyn, hyp⟩
    · -- the other end of `x` would be `l`, and `x` would have gone with it
      rw [eq_of_name hok.names hy hl he] at hyp
      exact hxp hyp.symm
    · obtain ⟨z, hz, hzn, hzp⟩ := hok.peers l hl _ he.symm
      rw [eq_of_name hok.names hz hy hzn, hyp] at hzp
      exact hxl (Option.some.inj hzp)

/-! ## All calls -/

section Table

variable {w : Wires} {c : VethCall}

/-- **The step lemma.** -/
theorem WiresOk.step (hok : WiresOk w) (c : VethCall) : WiresOk (w.step c) := by
  have hok' : WiresOk ⟨(c.host w).links, (c.host w).nextIndex, w.creator⟩ := hok
  show WiresOk ⟨(c.result w).links, (c.result w).nextIndex,
    created c.name w.creator (c.host w).nextIndex (c.result w).nextIndex⟩
  unfold VethCall.result
  split
  · rename_i network _
    rcases connectContainer_wires c.env c.name network (c.host w) with ⟨hl, hn⟩ | ⟨vethHost, vethPeer, hne, hadds⟩
    · rw [hl, hn, created_none]
      exact hok'
    · exact hok'.adds hadds hne
  · rcases disconnectContainer_wires c.env c.name (c.host w) with he | ⟨l, hl, -, he⟩
    · rw [he, created_none]
      exact hok'
    · have hindex : (deleteLink l (c.host w)).nextIndex = (c.host w).nextIndex := rfl
      rw [he, hindex, created_none]
      exact hok'.deletes hl

/-- **What one call deletes**: an interface with the alias of the container, and its other end. -/
theorem deletes_cases (hok : TableOk w) {l : Link} (hdel : Deletes w c l) :
    ∃ x ∈ w.links, x.ifalias = containerAlias c.name ∧ (l = x ∨ x.peer = some l.name) := by
  obtain ⟨hl, hgone⟩ := hdel
  have hgone : ∀ l' ∈ (c.result w).links, l'.index ≠ l.index := hgone
  have hl' : l ∈ (c.host w).links := hl
  have hstays : l ∉ (c.result w).links := fun hmem => hgone l hmem rfl
  unfold VethCall.result at hstays
  split at hstays
  · rename_i network _
    exfalso
    rcases connectContainer_wires c.env c.name network (c.host w) with ⟨hsame, -⟩ | ⟨vethHost, vethPeer, hne, hadds⟩
    · rw [hsame] at hstays
      exact hstays hl'
    · obtain ⟨new, hlinks, -⟩ := hadds.append hne
      rw [hlinks] at hstays
      exact hstays (List.mem_append_left _ hl')
  · rcases disconnectContainer_wires c.env c.name (c.host w) with he | ⟨x, hx, hmark, he⟩
    · rw [he] at hstays
      exact absurd hl' hstays
    · refine ⟨x, hx, hmark, ?_⟩
      rw [he] at hstays
      simp only [deleteLink, List.mem_filter, decide_eq_true_eq, not_and, not_not] at hstays
      by_cases hname : l.name = x.name
      · exact Or.inl (eq_of_name hok.names hl hx hname)
      · exact Or.inr (hstays hl' hname).symm

/-- **Ownership of interfaces.**  Calls for any containers follow one another on any table.  An interface that
a call for a container deletes carries the alias of that container, or is the other end of the veth pair of an
interface that does; and whatever a call for another container has created is not among them. -/
theorem veth_ownership (w₀ : Wires) (htable : TableOk w₀) (hnone : ∀ i, w₀.creator i = none)
    (cs : List VethCall) (c : VethCall) (l : Link) (hdel : Deletes (Runs.run Wires.step w₀ cs) c l) :
    (l.ifalias = containerAlias c.name ∨ ∃ x ∈ (Runs.run Wires.step w₀ cs).links,
      x.ifalias = containerAlias c.name ∧ x.peer = some l.name) ∧
    ∀ b, (Runs.run Wires.step w₀ cs).creator l.index = some b → b = c.name := by
  have hstart : WiresOk w₀ := by
    refine ⟨htable, fun i _ => hnone i, fun l _ b hb => ?_, fun l _ x _ _ => by rw [hnone, hnone]⟩
    rw [hnone] at hb
    cases hb
  have hok : WiresOk (Runs.run Wires.step w₀ cs) := Runs.run_keeps (fun _ c h => h.step c) hstart
  obtain ⟨x, hx, hmark, hcase⟩ := deletes_cases hok.toTableOk hdel
  have hcreator : ∀ b, (Runs.run Wires.step w₀ cs).creator x.index = some b → b = c.name := by
    intro b hb
    rcases hok.marks x hx b hb with hbare | hb'
    · rw [hbare] at hmark
      cases hmark
    · exact containerAlias_injective (hb'.symm.trans hmark)
  rcases hcase with rfl | hpeer
  · exact ⟨Or.inl hmark, hcreator⟩
  · refine ⟨Or.inr ⟨x, hx, hmark, hpeer⟩, fun b hb => hcreator b ?_⟩
    rw [hok.pairs x hx l hdel.1 hpeer, hb]

end Table

/-- A call for `web001`, whose process runs. -/
def webCall (op : VethOp) : VethCall :=
  ⟨"web001".toList, op, .quiet [] 20, { Host.bare with procs := [⟨20, 1, some "web001".toList, false⟩] }⟩

def Wires.empty : Wires := ⟨[], 1, fun _ => none⟩

/-- The host end of the pair of `web001`. -/
def webLink : Link :=
  ⟨"tdweb001-dd9558".toList, 2, containerAlias "web001".toList, none, some TINYDOCKER_DEFAULT_NETWORK_NAME⟩

theorem webLink_owned :
    Deletes (Runs.run Wires.step .empty [webCall (.connect TINYDOCKER_DEFAULT_NETWORK_NAME)])
        (webCall .disconnect) webLink ∧
      ∀ b, (Runs.run Wires.step .empty [webCall (.connect TINYDOCKER_DEFAULT_NETWORK_NAME)]).creator 2 = some b →
        b = "web001".toList := by
  have hdel : Deletes (Runs.run Wires.step .empty [webCall (.connect TINYDOCKER_DEFAULT_NETWORK_NAME)])
      (webCall .disconnect) webLink := by
    unfold Deletes
    decide +kernel
  have htable : TableOk .empty := ⟨List.nodup_nil, fun l hl => (by cases hl), fun l hl => by cases hl⟩
  exact ⟨hdel, (veth_ownership .empty htable (fun _ => rfl) _ _ _ hdel).2⟩

/-- Two interfaces with the names and the aliases of two containers that are the ends of one pair. -/
def Wires.crossed : Wires :=
  ⟨[⟨"tdweb001-dd9558".toList, 5, containerAlias "web001".toList, some "tdweb002-dd9a11".toList, none⟩,
    ⟨"tdweb002-dd9a11".toList, 6, containerAlias "web002".toList, some "tdweb001-dd9558".toList, none⟩], 7,
    fun _ => none⟩

/-- Disconnecting the one deletes the other with it. -/
theorem crossed_pair_deleted :
    TableOk .crossed ∧ Wires.crossed.creator 6 = none ∧
      ∃ l ∈ Wires.crossed.links, l.index = 6 ∧ l.ifalias = containerAlias "web002".toList ∧
        Deletes .crossed (webCall .disconnect) l ∧ l.ifalias ≠ containerAlias (webCall .disconnect).name := by
  refine ⟨⟨by decide +kernel, by decide +kernel, by decide +kernel⟩, rfl, _, List.mem_cons_of_mem _ List.mem_cons_self,
    rfl, rfl, ?_, by decide +kernel⟩
  unfold Deletes
  decide +kernel

end TinyDocker
