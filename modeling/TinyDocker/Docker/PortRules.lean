import TinyDocker.Docker.System
import TinyDocker.Docker.NetworkRollback

/-!
# Port mappings set and unset (`docker/network.c`)

`unset_container_port_map` finds the rules of an address again in the text that `iptables -S` prints.  Every
matching line costs one deletion, and a successful deletion takes one rule of the address out of the chain.
When all deletions succeed there were no more matching lines than rules of the address, so all of these are
gone and no other rule is touched.

Principal result: `port_maps_inverse`.
-/

set_option autoImplicit false

namespace TinyDocker

open CText

/-! ## Rules of an address -/

theorem Added.pointsTo {a : UInt32} {own : List Rule} (h : Added a own) :
    ∀ r ∈ own, r.pointsTo (Ipv4.inetNtop a) = true ∧ r.listedFor (Ipv4.inetNtop a) = true := by
  intro r hr
  obtain ⟨m, rfl⟩ := h r hr
  have hmatch : matchesDestination (Ipv4.inetNtop a) (listedWords (dnatRule (Ipv4.inetNtop a) m)) = true := by
    rw [matches_dnatRule, decide_eq_true rfl]
  exact ⟨hmatch, hmatch⟩

/-! ## Deletions -/

variable {chain : Chain} {h : Host}

/-- One chain: exactly the added rules are gone. -/
theorem deleteDnatRulesForChain_added {env : Env} {a : UInt32} {others own : List Rule}
    (hothers : ∀ r ∈ others, r.pointsTo (Ipv4.inetNtop a) = false) (hown : Added a own)
    (hnat : h.nat chain = others ++ own)
    (hok : (deleteDnatRulesForChain env chain (Ipv4.inetNtop a) h).2 = true) :
    (deleteDnatRulesForChain env chain (Ipv4.inetNtop a) h).1 = setChain chain others h := by
  unfold deleteDnatRulesForChain at hok ⊢
  split
  · rename_i hlist
    rw [if_pos hlist] at hok
    cases hok
  rename_i hlist
  rw [if_neg hlist] at hok
  have hcount := deleteDnatRules_count (f := Rule.pointsTo (Ipv4.inetNtop a))
    (fun r x hr hx => (pointsTo_of_isSpec hx).trans hr) (h.nat chain) 0 hok
  have hkept := @deleteDnatRules_others (Ipv4.inetNtop a) chain (fun r => !r.pointsTo (Ipv4.inetNtop a)) env
    (fun r hr => by rw [hr]; rfl) (h.nat chain) 0 h chain
  obtain ⟨rules, hrules⟩ := deleteDnatRules_chain env (h.nat chain) 0 h
  have hset : (deleteDnatRules env chain (Ipv4.inetNtop a) 0 (h.nat chain) h).1.nat chain = rules := by
    rw [hrules, setChain_nat, if_pos rfl]
  rw [hset] at hcount hkept
  -- at least the added rules were listed, so none of them is left
  have hlisted : own.length ≤ (h.nat chain).countP (Rule.listedFor (Ipv4.inetNtop a)) := by
    rw [hnat, List.countP_append, List.countP_eq_length.2 fun r hr => (hown.pointsTo r hr).2]
    exact Nat.le_add_left _ _
  have hpoints : (h.nat chain).countP (Rule.pointsTo (Ipv4.inetNtop a)) = own.length := by
    rw [hnat, List.countP_append, List.countP_eq_zero.2 fun r hr => by simp [hothers r hr],
      List.countP_eq_length.2 fun r hr => (hown.pointsTo r hr).1, Nat.zero_add]
  have hnone : rules.countP (Rule.pointsTo (Ipv4.inetNtop a)) = 0 := by omega
  have hrules' : rules.filter (fun r => !r.pointsTo (Ipv4.inetNtop a)) = rules :=
    List.filter_eq_self.2 fun r hr => by simp [List.countP_eq_zero.1 hnone r hr]
  have hothers' : (h.nat chain).filter (fun r => !r.pointsTo (Ipv4.inetNtop a)) = others := by
    rw [hnat, List.filter_append, List.filter_eq_self.2 fun r hr => by simp [hothers r hr],
      List.filter_eq_nil_iff.2 fun r hr => by simp [(hown.pointsTo r hr).1], List.append_nil]
  rw [hrules, ← hrules', hkept, hothers']

/-! ## The inverse -/

/-- What `set_container_port_map` leaves, however far it gets. -/
theorem setContainerPortMap_added {a : UInt32} (env : Env) (maps : List PortMap) {h : Host}
    (hfree : ∀ c, ∀ r ∈ h.nat c, r.pointsTo (Ipv4.inetNtop a) = false) :
    ∃ nat, (setContainerPortMap env (Ipv4.inetNtop a) maps h).1 = { h with nat := nat } ∧
      ∀ c, ∃ own, Added a own ∧ nat c = h.nat c ++ own := by
  unfold setContainerPortMap
  rw [Ipv4.inetPton_inetNtop, if_neg (by simp)]
  obtain ⟨nat, hnat⟩ := addPortMaps_only env (Ipv4.inetNtop a) maps 0 h
  refine ⟨nat, hnat, fun c => ?_⟩
  have hspec : ∀ c m, ∀ r ∈ h.nat c, ¬ Rule.isSpec (dnatRule (Ipv4.inetNtop a) m).words r = true := by
    intro c m r hr hs
    have hpoints : r.pointsTo (Ipv4.inetNtop a) = _ := pointsTo_of_isSpec hs
    rw [hfree c r hr, show (dnatRule (Ipv4.inetNtop a) m).words =
      listedWords (dnatRule (Ipv4.inetNtop a) m) from rfl, matches_dnatRule, decide_eq_true rfl] at hpoints
    cases hpoints
  have hadd := @addPortMaps_added env a maps 0 h h.nat hspec
    (fun c => ⟨[], fun r hr => (by cases hr), (List.append_nil _).symm⟩) c
  rw [hnat] at hadd
  exact hadd

/-- **DNAT set and unset are inverse.**  No rule of either chain has the address as DNAT destination.
However far `set_container_port_map` gets, for any list of mappings, when `unset_container_port_map` succeeds
afterwards the host is as before; and it succeeds when its commands do, the listings being short enough to be
captured, and no other line looks like a rule of the address. -/
theorem port_maps_inverse (env env' : Env) (ip : Text) (maps : List PortMap) (h : Host)
    (hfree : ∀ c, ∀ r ∈ h.nat c, r.pointsTo ip = false) :
    ((unsetContainerPortMap env' ip (setContainerPortMap env ip maps h).1).2 = true →
      (unsetContainerPortMap env' ip (setContainerPortMap env ip maps h).1).1 = h) ∧
    ((Ipv4.inetPton ip).isSome = true → (∀ c, ∀ r ∈ h.nat c, r.listedFor ip = false) →
      (∀ c, ¬ listingFails env' c ((setContainerPortMap env ip maps h).1.nat c)) →
      (∀ c i, env'.fails (.natDelete c i) = false) →
      (unsetContainerPortMap env' ip (setContainerPortMap env ip maps h).1).2 = true) := by
  cases hip : Ipv4.inetPton ip with
  | none =>
    have hset : setContainerPortMap env ip maps h = (h, false) := by
      rw [setContainerPortMap, hip]
      rfl
    refine ⟨fun hok => ?_, fun hc => by cases hc⟩
    rw [hset] at hok ⊢
    unfold unsetContainerPortMap at hok ⊢
    split
    · rfl
    · rename_i hne
      rw [if_neg hne, hip] at hok
      cases hok
  | some a =>
    have htext : Ipv4.inetNtop a = ip := Ipv4.inetNtop_inetPton hip
    subst htext
    obtain ⟨nat, hnat, hadd⟩ := setContainerPortMap_added env maps hfree
    rw [hnat]
    refine ⟨fun hok => ?_, fun _ hlisted hlist hquiet => ?_⟩
    · obtain ⟨own, hown, ho⟩ := hadd .output
      obtain ⟨own', hown', hp⟩ := hadd .prerouting
      unfold unsetContainerPortMap at hok ⊢
      rw [if_neg (Ipv4.inetNtop_ne_nil a), Ipv4.inetPton_inetNtop] at hok ⊢
      simp only [Option.isNone_some, Bool.false_eq_true, if_false, Bool.and_eq_true] at hok ⊢
      have h1 := deleteDnatRulesForChain_added (h := { h with nat := nat }) (hfree .output) hown ho hok.1
      rw [h1] at hok ⊢
      have hp' : (setChain .output (h.nat .output) { h with nat := nat }).nat .prerouting =
          h.nat .prerouting ++ own' := by
        rw [setChain_nat, if_neg (by decide), ← hp]
      rw [deleteDnatRulesForChain_added (hfree .prerouting) hown' hp' hok.2, setChain_both]
    · rw [unset_own (h := { h with nat := nat }) hlist hquiet hlisted hadd]

/-- A chain with a rule of another address whose text starts alike, and a rule with a quoted comment. -/
def sharedHost : Host :=
  { Host.bare with nat := fun _ =>
    [dnatRule "10.0.0.20".toList ⟨8080, 80⟩, ⟨["-m".toList, "comment".toList, "--comment".toList,
      "\"a".toList, "b\"".toList], false⟩] }

/-- The third command fails and so does the rollback: a repeated mapping is set once and a half. -/
theorem sharedHost_restored :
    (setContainerPortMap { Env.quiet [] 20 with
        fails := fun s => decide (s = .natAppend .prerouting 1) || decide (s = .natRollback 1) }
      "10.0.0.2".toList [⟨8080, 80⟩, ⟨8080, 80⟩] sharedHost).2 = false ∧
    (unsetContainerPortMap (.quiet [] 20) "10.0.0.2".toList
      (setContainerPortMap { Env.quiet [] 20 with
          fails := fun s => decide (s = .natAppend .prerouting 1) || decide (s = .natRollback 1) }
        "10.0.0.2".toList [⟨8080, 80⟩, ⟨8080, 80⟩] sharedHost).1).1 = sharedHost := by
  have hfree : ∀ c, ∀ r ∈ sharedHost.nat c, r.pointsTo "10.0.0.2".toList = false := by
    intro c
    cases c <;> decide +kernel
  have hlisted : ∀ c, ∀ r ∈ sharedHost.nat c, r.listedFor "10.0.0.2".toList = false := by
    intro c
    cases c <;> decide +kernel
  have hshort : ∀ c, ¬ listingFails (.quiet [] 20) c ((setContainerPortMap { Env.quiet [] 20 with
      fails := fun s => decide (s = .natAppend .prerouting 1) || decide (s = .natRollback 1) }
      "10.0.0.2".toList [⟨8080, 80⟩, ⟨8080, 80⟩] sharedHost).1.nat c) := by
    intro c
    cases c <;> decide +kernel
  obtain ⟨hback, hdone⟩ := port_maps_inverse { Env.quiet [] 20 with
    fails := fun s => decide (s = .natAppend .prerouting 1) || decide (s = .natRollback 1) } (.quiet [] 20)
    "10.0.0.2".toList [⟨8080, 80⟩, ⟨8080, 80⟩] sharedHost hfree
  exact ⟨by decide +kernel, hback (hdone (by decide) hlisted hshort fun _ _ => rfl)⟩

end TinyDocker
