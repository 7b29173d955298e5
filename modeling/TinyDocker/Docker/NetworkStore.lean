import TinyDocker.Lib.LockedFile
import TinyDocker.Docker.NetworkRecords

/-!
# Concurrent updates of the networks file (`docker/network.c`)

`alloc_new_ip`, `release_used_ip` and `delete_network_info` as read-modify-write operations under
`lock_network_state`: an instance of `LockedFile`, with the codec of the networks file and the
three computations of `NetworkRecords`.

Principal result: `network_store_no_lost_update` — for any processes, any interleaving and any
crashes, the file is loadable and holds the sequential result of the operations whose rename
happened, with the consequences for allocated addresses, for other networks and for failed
operations.
-/

set_option autoImplicit false

namespace TinyDocker

open CText LockedFile

inductive NetworkOp where
  | alloc (name : Text)
  | release (name ip : Text)
  | delete (name : Text)
  deriving DecidableEq

inductive NetworkResult where
  | allocated (address : UInt32)
  | done
  deriving DecidableEq

/-- The network an operation is about. -/
def NetworkOp.network : NetworkOp → Text
  | .alloc name | .release name _ | .delete name => name

/-- What each operation does to the loaded records. -/
def NetworkOp.apply : NetworkOp → List NetworkRecord → Option (List NetworkRecord × NetworkResult)
  | .alloc name, records =>
    match allocNewIp name records with
    | none => none
    | some (records', allocated) => some (records', .allocated allocated)
  | .release name ip, records =>
    match releaseUsedIp name (strIpToInt ip) records with
    | none => none
    | some records' => some (records', .done)
  | .delete name, records => some (deleteNetworkInfo name records, .done)

/-- The networks file as a locked file.  `release_used_ip` refuses an address text it cannot read
before it takes the lock. -/
def networkSpec : Spec Text (List NetworkRecord) NetworkOp NetworkResult where
  decode := loadNetworkRecords
  encode := writeNetworkRecords
  admits
    | .release _ ip => decide (strIpToInt ip ≠ 0)
    | _ => true
  apply := NetworkOp.apply

/-- An operation that makes address `a` of network `name` available again. -/
def NetworkOp.Frees (name : Text) (a : UInt32) : NetworkOp → Prop
  | .alloc _ => False
  | .release n ip => n = name ∧ strIpToInt ip = a
  | .delete n => n = name

/-- An address that may be handed out on `name`: neither the network address, nor the gateway, nor
the broadcast address, and not in use. -/
def Usable (name : Text) (a : UInt32) (records : List NetworkRecord) : Prop :=
  a ∉ usedIpsOf name records ∧ ∃ r ∈ records, r.name = name ∧
    ∃ network width, tdParseIpv4Cidr r.cidr = .ok (network, width) ∧ a ≠ network ∧
      a ≠ network + 1 ∧ a ≠ network ||| ~~~(cidrMask width)

theorem NetworkOp.apply_storeOk {op : NetworkOp} {s s' : List NetworkRecord} {r : NetworkResult}
    (hs : StoreOk s) (h : op.apply s = some (s', r)) : StoreOk s' := by
  cases op with
  | alloc name =>
    simp only [NetworkOp.apply] at h
    split at h
    · cases h
    · rename_i ha; cases h; exact hs.alloc ha
  | release name ip =>
    simp only [NetworkOp.apply] at h
    split at h
    · cases h
    · rename_i hr; cases h; exact hs.release hr
  | delete name => cases h; exact hs.delete

theorem networkSpec_roundTrip : networkSpec.RoundTrip := by
  intro f s op s' r c hdec happ henc
  exact loadNetworkRecords_write (NetworkOp.apply_storeOk (loadNetworkRecords_ok hdec) happ) henc

/-- Other networks are untouched. -/
theorem NetworkOp.apply_others {op : NetworkOp} {s s' : List NetworkRecord} {r : NetworkResult}
    (hs : StoreOk s) (h : op.apply s = some (s', r)) :
    s'.filter (fun x => decide (x.name ≠ op.network)) =
      s.filter (fun x => decide (x.name ≠ op.network)) := by
  cases op with
  | alloc name =>
    simp only [NetworkOp.apply] at h
    split at h
    · cases h
    · rename_i ha
      cases h
      rw [(allocNewIp_ok hs ha).1]
      exact updateUsedIps_filter s
  | release name ip =>
    simp only [NetworkOp.apply, releaseUsedIp] at h
    split at h
    · cases h
    · rename_i hr
      cases h
      split at hr
      · cases hr; exact updateUsedIps_filter s
      · cases hr
  | delete name =>
    cases h
    unfold deleteNetworkInfo
    rw [List.filter_filter]
    congr 1
    funext x
    exact Bool.and_self _

theorem NetworkOp.apply_alloc {name : Text} {a : UInt32} {s s' : List NetworkRecord}
    (hs : StoreOk s) (h : (NetworkOp.alloc name).apply s = some (s', .allocated a)) :
    allocNewIp name s = some (s', a) ∧ Usable name a s := by
  simp only [NetworkOp.apply] at h
  split at h
  · cases h
  rename_i ha
  cases h
  obtain ⟨-, hnew, r, hfind, -, network, width, hcidr, hlo, hhi, -⟩ := allocNewIp_ok hs ha
  have hname : r.name = name := by simpa using List.find?_some hfind
  have hn := network.toNat_lt
  refine ⟨ha, hnew, r, List.mem_of_find?_eq_some hfind, hname, network, width, hcidr, ?_, ?_, ?_⟩
  · rintro rfl; omega
  · rintro rfl
    rw [UInt32.toNat_add, UInt32.toNat_one] at hlo
    omega
  · rintro rfl; omega

/-- An address in use stays in use until an operation frees it. -/
theorem NetworkOp.apply_used {name : Text} {a : UInt32} {op : NetworkOp} {r : NetworkResult}
    {s s' : List NetworkRecord} (hs : StoreOk s) (hfree : ¬ op.Frees name a)
    (hm : a ∈ usedIpsOf name s) (h : op.apply s = some (s', r)) : a ∈ usedIpsOf name s' := by
  cases op with
  | alloc n =>
    simp only [NetworkOp.apply] at h
    split at h
    · cases h
    · rename_i ha
      cases h
      rw [usedIpsOf_allocNewIp hs ha]
      split
      · rename_i hn
        exact List.mem_append_left _ (hn ▸ hm)
      · exact hm
  | release n ip =>
    simp only [NetworkOp.apply] at h
    split at h
    · cases h
    · rename_i hr
      cases h
      rw [usedIpsOf_releaseUsedIp hr]
      split
      · rename_i hn
        subst hn
        have hne : a ≠ strIpToInt ip := fun he => hfree ⟨rfl, he.symm⟩
        exact List.mem_filter.2 ⟨hm, by simpa using hne⟩
      · exact hm
  | delete n =>
    cases h
    rw [usedIpsOf_deleteNetworkInfo (fun hn => hfree hn.symm)]
    exact hm

/-- Two allocations of one address are separated by an operation that frees it. -/
theorem allocations_separated {s₀ s : List NetworkRecord} (hs : StoreOk s₀)
    {h₁ h₂ h₃ : List (Entry NetworkOp NetworkResult)} {t₁ t₂ : Nat} {name : Text} {a : UInt32}
    (hr : Replays networkSpec s₀
      (h₁ ++ ⟨t₁, .alloc name, .allocated a⟩ :: (h₂ ++ ⟨t₂, .alloc name, .allocated a⟩ :: h₃)) s) :
    ∃ e ∈ h₂, e.op.Frees name a := by
  by_contra hno
  simp only [not_exists, not_and] at hno
  have hkeep : ∀ (e : Entry NetworkOp NetworkResult) (s s' : List NetworkRecord), True → StoreOk s →
      networkSpec.apply e.op s = some (s', e.result) → StoreOk s' :=
    fun _ _ _ _ hok happ => NetworkOp.apply_storeOk hok happ
  obtain ⟨s₁, s₂, hr₁, happ₁, hr₂⟩ := hr.split
  have hs₁ : StoreOk s₁ := hr₁.preserves hkeep (fun _ _ => trivial) hs
  have happ₁' : (NetworkOp.alloc name).apply s₁ = some (s₂, .allocated a) := happ₁
  have hs₂ : StoreOk s₂ := NetworkOp.apply_storeOk hs₁ happ₁'
  obtain ⟨s₃, s₄, hr₃, happ₃, -⟩ := hr₂.split
  have hused₂ : a ∈ usedIpsOf name s₂ := by
    rw [usedIpsOf_allocNewIp hs₁ (NetworkOp.apply_alloc hs₁ happ₁).1, if_pos rfl]
    simp
  -- nothing in `h₂` frees the address, so the second allocation still sees it in use
  have hused₃ : StoreOk s₃ ∧ a ∈ usedIpsOf name s₃ := by
    have hstep : ∀ (e : Entry NetworkOp NetworkResult) (s s' : List NetworkRecord),
        ¬ e.op.Frees name a → StoreOk s ∧ a ∈ usedIpsOf name s →
          networkSpec.apply e.op s = some (s', e.result) → StoreOk s' ∧ a ∈ usedIpsOf name s' :=
      fun e s s' hf hp happ =>
        ⟨NetworkOp.apply_storeOk hp.1 happ, NetworkOp.apply_used hp.1 hf hp.2 happ⟩
    exact hr₃.preserves (P := fun s => StoreOk s ∧ a ∈ usedIpsOf name s) hstep hno ⟨hs₂, hused₂⟩
  exact (NetworkOp.apply_alloc hused₃.1 happ₃).2.1 hused₃.2

/-- **No lost update.**  Along every schedule of the three operations the networks file is loadable
and is the sequential result of the renamed operations in rename order; an operation that returned
a result is one of them, one that failed is not and no step of it changed the file.  Each renamed
operation leaves the other networks alone, an allocation returns a usable address, and one address
is allocated twice only if it was freed in between. -/
theorem network_store_no_lost_update (file : Option Text) (s₀ : List NetworkRecord)
    (h : loadNetworkRecords file = some s₀) (acts : List (Nat × Act Text NetworkOp)) :
    (∃ s, loadNetworkRecords (run networkSpec (init file) acts).file = some s ∧
      Replays networkSpec s₀ (run networkSpec (init file) acts).history s) ∧
    (∀ p t op r, (run networkSpec (init file) acts).proc p = .returned t op (some r) →
      ⟨t, op, r⟩ ∈ (run networkSpec (init file) acts).history) ∧
    (∀ p t op, (run networkSpec (init file) acts).proc p = .returned t op none →
      (∀ e ∈ (run networkSpec (init file) acts).history, e.ticket ≠ t) ∧
      ∀ before a after, acts = before ++ a :: after →
        ((run networkSpec (init file) before).proc a.1).ticket = some t →
        (step networkSpec (run networkSpec (init file) before) a.1 a.2).file =
          (run networkSpec (init file) before).file) ∧
    (∀ h₁ e h₂, (run networkSpec (init file) acts).history = h₁ ++ e :: h₂ →
      ∃ s s', Replays networkSpec s₀ h₁ s ∧ e.op.apply s = some (s', e.result) ∧
        s'.filter (fun x => decide (x.name ≠ e.op.network)) =
          s.filter (fun x => decide (x.name ≠ e.op.network)) ∧
        ∀ name a, e.op = .alloc name → e.result = .allocated a → Usable name a s) ∧
    (∀ h₁ t₁ h₂ t₂ h₃ name a, (run networkSpec (init file) acts).history =
        h₁ ++ ⟨t₁, .alloc name, .allocated a⟩ :: (h₂ ++ ⟨t₂, .alloc name, .allocated a⟩ :: h₃) →
      ∃ e ∈ h₂, e.op.Frees name a) := by
  have hinit : Inv networkSpec s₀ (init file) := init_inv h
  have hinv := run_inv networkSpec_roundTrip acts hinit
  have hs₀ := loadNetworkRecords_ok h
  obtain ⟨s, hload, hrep⟩ := hinv.file
  refine ⟨⟨s, hload, hrep⟩, ?_, ?_, ?_, ?_⟩
  · intro p t op r hp
    have ht := hinv.tickets p
    rw [hp] at ht
    exact ht.2
  · intro p t op hp
    have ht := hinv.tickets p
    rw [hp] at ht
    refine ⟨ht.2, fun before a after hacts hticket => ?_⟩
    subst hacts
    exact failed_file networkSpec_roundTrip hinit before after a hp hticket
  · intro h₁ e h₂ hh
    rw [hh] at hrep
    obtain ⟨s₁, s₂, hr₁, happ, -⟩ := hrep.split
    have hs₁ : StoreOk s₁ := by
      refine hr₁.preserves (fun e s s' _ hok hx => ?_) (fun _ _ => trivial) hs₀
      exact NetworkOp.apply_storeOk hok hx
    refine ⟨s₁, s₂, hr₁, happ, NetworkOp.apply_others hs₁ happ, fun name a hop hres => ?_⟩
    have happ' : e.op.apply s₁ = some (s₂, e.result) := happ
    rw [hop, hres] at happ'
    exact (NetworkOp.apply_alloc hs₁ happ').2
  · intro h₁ t₁ h₂ t₂ h₃ name a hh
    rw [hh] at hrep
    exact allocations_separated hs₀ hrep

/-- Two processes that race for one network; the second waits for the lock. -/
def raceSchedule : List (Nat × Act Text NetworkOp) :=
  [(1, .start (.alloc "n".toList)), (2, .start (.alloc "n".toList)), (1, .lock), (2, .lock),
    (1, .load), (1, .compute), (1, .write), (1, .rename), (2, .lock), (1, .close), (2, .lock),
    (2, .load), (2, .compute), (2, .write), (2, .rename), (2, .close)]

theorem race_no_lost_update :
    loadNetworkRecords (some "n:bridge:10.0.0.0/24:\n".toList) =
        some [⟨"n".toList, "bridge".toList, "10.0.0.0/24".toList, []⟩] ∧
      ∃ s, loadNetworkRecords (run networkSpec (init (some "n:bridge:10.0.0.0/24:\n".toList))
          raceSchedule).file = some s ∧
        Replays networkSpec [⟨"n".toList, "bridge".toList, "10.0.0.0/24".toList, []⟩]
          (run networkSpec (init (some "n:bridge:10.0.0.0/24:\n".toList)) raceSchedule).history s :=
  ⟨by decide +kernel, (network_store_no_lost_update _ _ (by decide +kernel) raceSchedule).1⟩

end TinyDocker
