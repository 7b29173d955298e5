import TinyDocker.Docker.Effects

/-!
# Undoing a connection

What `unset_container_port_map`, `disconnect_container` and `release_used_ip` do to the rules, the
interfaces and the addresses of this container, and that they leave those of others alone.

Principal results:

* `unset_others` — rules that do not point to the address are kept, in order;
* `unset_own` — if the rules that point to the address are the ones `docker run` has added, they all
  go and nothing else does;
* `attachContainer_links` — a failed `connect_container` leaves no interface behind, unless the index
  of the new interface could not be read; `disconnectContainer_pair` — disconnecting removes exactly
  the pair.
-/

set_option autoImplicit false

namespace TinyDocker

open CText

/-! ## DNAT rules -/

theorem colon_not_mem_inetNtop (a : UInt32) : ':' ∉ Ipv4.inetNtop a := by
  intro h
  rcases Ipv4.inetPton_chars (Ipv4.inetPton_inetNtop a) ':' h with h | h
  · exact absurd h (by decide)
  · exact absurd h (by decide)

/-- Two texts without a colon that start the same text up to its first colon are equal. -/
theorem eq_of_colon_isPrefix : ∀ {a b rest : Text}, ':' ∉ a → ':' ∉ b →
    (a ++ [':']) <+: (b ++ ':' :: rest) → a = b
  | [], [], _, _, _, _ => rfl
  | [], c :: b, rest, _, hb, h => by
    obtain ⟨t, ht⟩ := h
    simp only [List.nil_append, List.cons_append, List.cons.injEq] at ht
    exact absurd (List.mem_cons.2 (Or.inl ht.1)) hb
  | c :: a, [], rest, ha, _, h => by
    obtain ⟨t, ht⟩ := h
    simp only [List.nil_append, List.cons_append, List.cons.injEq] at ht
    exact absurd (List.mem_cons.2 (Or.inl ht.1.symm)) ha
  | c :: a, d :: b, rest, ha, hb, h => by
    simp only [List.cons_append, List.cons_prefix_cons] at h
    obtain ⟨rfl, h⟩ := h
    rw [eq_of_colon_isPrefix (fun hm => ha (List.mem_cons_of_mem _ hm))
      (fun hm => hb (List.mem_cons_of_mem _ hm)) h]

/-- The rules of `docker run` point to their own address only. -/
theorem matches_dnatRule (a b : UInt32) (m : PortMap) :
    matchesDestination (Ipv4.inetNtop a) (listedWords (dnatRule (Ipv4.inetNtop b) m)) =
      decide (a = b) := by
  have hport : Nat.toDigits 10 m.hostPort ≠ "--to-destination".toList := by
    intro h
    have : '-' ∈ Nat.toDigits 10 m.hostPort := by rw [h]; decide
    exact absurd (isDigit_toDigits this) (by decide)
  have hdest : (Ipv4.inetNtop a ++ [':']).isPrefixOf
      (dnatDestination (Ipv4.inetNtop b) m.containerPort) = decide (a = b) := by
    by_cases hab : a = b
    · subst hab
      rw [decide_eq_true rfl, List.isPrefixOf_iff_prefix]
      exact ⟨Nat.toDigits 10 m.containerPort, by simp [dnatDestination]⟩
    · rw [decide_eq_false hab, Bool.eq_false_iff]
      intro h
      exact hab (Ipv4.inetNtop_injective (eq_of_colon_isPrefix (colon_not_mem_inetNtop a)
        (colon_not_mem_inetNtop b) (List.isPrefixOf_iff_prefix.1 h)))
  have hlist : listedWords (dnatRule (Ipv4.inetNtop b) m) = (dnatRule (Ipv4.inetNtop b) m).words := rfl
  rw [hlist]
  simp only [dnatRule, matchesDestination, hport, decide_false, Bool.false_and, Bool.false_or,
    Bool.or_false, hdest, decide_true, Bool.true_and]
  simp

/-- A rule that `iptables -D` can name and that has the address as DNAT destination. -/
def Rule.pointsTo (ip : Text) (r : Rule) : Bool := r.plain && matchesDestination ip r.words

/-- A line of `iptables -S` that `delete_dnat_rules_for_chain` takes for a rule of the address. -/
def Rule.listedFor (ip : Text) (r : Rule) : Bool := matchesDestination ip (listedWords r)

theorem pointsTo_of_isSpec {ip : Text} {words : List Text} {r : Rule} (h : Rule.isSpec words r = true) :
    r.pointsTo ip = matchesDestination ip words := by
  simp only [Rule.isSpec, Bool.and_eq_true, decide_eq_true_eq] at h
  rw [Rule.pointsTo, h.1, h.2, Bool.true_and]

/-- The rule that `iptables -D` takes out for a listed line is listed like it. -/
theorem listedFor_of_isSpec {ip : Text} {r x : Rule} (h : Rule.isSpec (listedWords r) x = true) :
    x.listedFor ip = r.listedFor ip := by
  simp only [Rule.isSpec, Bool.and_eq_true, decide_eq_true_eq] at h
  rw [Rule.listedFor, listedWords, h.2, listedWords, List.take_take, Nat.min_self]
  rfl

theorem countP_eraseP {α : Type} {p q : α → Bool} (hpq : ∀ x, p x = true → q x = true) :
    ∀ {l : List α}, l.any p = true → (l.eraseP p).countP q + 1 = l.countP q
  | x :: l, h => by
    by_cases hx : p x = true
    · rw [List.eraseP_cons_of_pos hx, List.countP_cons_of_pos (hpq x hx)]
    · have hl : l.any p = true := by simpa [hx] using h
      have ih := countP_eraseP hpq hl
      rw [List.eraseP_cons_of_neg hx, List.countP_cons, List.countP_cons]
      omega

theorem filter_eraseP_of_false {α : Type} {p f : α → Bool} (h : ∀ x, p x = true → f x = false) :
    ∀ l : List α, (l.eraseP p).filter f = l.filter f
  | [] => rfl
  | x :: l => by
    by_cases hx : p x = true
    · rw [List.eraseP_cons_of_pos hx, List.filter_cons_of_neg (by simp [h x hx])]
    · rw [List.eraseP_cons_of_neg hx, List.filter_cons, List.filter_cons,
        filter_eraseP_of_false h l]

theorem setChain_nat (chain c : Chain) (rules : List Rule) (h : Host) :
    (setChain chain rules h).nat c = if c = chain then rules else h.nat c := by
  simp [setChain, Function.update_apply]

theorem setChain_both (nat : Chain → List Rule) (h : Host) :
    setChain .prerouting (nat .prerouting) (setChain .output (nat .output) h) = { h with nat := nat } := by
  have hnat : Function.update (Function.update h.nat .output (nat .output)) .prerouting
      (nat .prerouting) = nat := by
    funext c
    cases c
    · rw [Function.update_of_ne (by decide), Function.update_self]
    · rw [Function.update_self]
  simp only [setChain, hnat]

/-! ## What the deletions do -/

section Deletions

variable {ip : Text} {chain : Chain} {f : Rule → Bool} {h h' : Host}

/-- One deletion takes out one rule of every kind that the rules with these words are of. -/
theorem deleteRule_count {words : List Text} (hf : ∀ r, Rule.isSpec words r = true → f r = true)
    (hd : deleteRule chain words h = some h') : (h'.nat chain).countP f + 1 = (h.nat chain).countP f := by
  unfold deleteRule at hd
  split at hd
  · rename_i hany
    cases hd
    rw [setChain_nat, if_pos rfl]
    exact countP_eraseP hf hany
  · cases hd

theorem setChain_self (chain : Chain) (h : Host) : setChain chain (h.nat chain) h = h := by
  simp [setChain]

theorem setChain_setChain (chain : Chain) (rules rules' : List Rule) (h : Host) :
    setChain chain rules' (setChain chain rules h) = setChain chain rules' h := by
  simp [setChain]

/-- The deletions change that chain only. -/
theorem deleteDnatRules_chain (env : Env) : ∀ (rs : List Rule) (i : Nat) (h : Host),
    ∃ rules, (deleteDnatRules env chain ip i rs h).1 = setChain chain rules h
  | [], _, h => ⟨h.nat chain, (setChain_self chain h).symm⟩
  | r :: rs, i, h => by
    unfold deleteDnatRules
    split
    · split
      · rename_i h' he
        split at he
        · cases he
        unfold deleteRule at he
        split at he
        · cases he
          obtain ⟨rules, hrules⟩ := deleteDnatRules_chain env rs (i + 1)
            (setChain chain ((h.nat chain).eraseP (Rule.isSpec (listedWords r))) h)
          exact ⟨rules, hrules.trans (setChain_setChain ..)⟩
        · cases he
      · exact deleteDnatRules_chain env rs (i + 1) h
    · exact deleteDnatRules_chain env rs (i + 1) h

theorem deleteDnatRulesForChain_other (env : Env) {c : Chain} (hc : c ≠ chain) (h : Host) :
    (deleteDnatRulesForChain env chain ip h).1.nat c = h.nat c := by
  unfold deleteDnatRulesForChain
  split
  · rfl
  · obtain ⟨rules, hrules⟩ := @deleteDnatRules_chain ip chain env (h.nat chain) 0 h
    rw [hrules, setChain_nat, if_neg hc]

/-- **A run without a failure** has deleted one rule for each matching line. -/
theorem deleteDnatRules_count {env : Env}
    (hf : ∀ r x, r.listedFor ip = true → Rule.isSpec (listedWords r) x = true → f x = true) :
    ∀ (rs : List Rule) (i : Nat) {h : Host}, (deleteDnatRules env chain ip i rs h).2 = true →
      ((deleteDnatRules env chain ip i rs h).1.nat chain).countP f + rs.countP (Rule.listedFor ip) =
        (h.nat chain).countP f
  | [], _, _, _ => rfl
  | r :: rs, i, h, hok => by
    unfold deleteDnatRules at hok ⊢
    by_cases hr : r.listedFor ip = true
    · have hmatch : matchesDestination ip (listedWords r) = true := hr
      rw [if_pos hmatch] at hok ⊢
      split at hok
      · rename_i h' hd
        split at hd
        · cases hd
        have ih := deleteDnatRules_count hf rs (i + 1) hok
        have hone := deleteRule_count (fun x => hf r x hr) hd
        rw [List.countP_cons_of_pos hr]
        omega
      · cases hok
    · have hmatch : ¬ matchesDestination ip (listedWords r) = true := hr
      rw [if_neg hmatch] at hok ⊢
      rw [List.countP_cons_of_neg hr]
      exact deleteDnatRules_count hf rs (i + 1) hok

theorem deleteRule_others {words : List Text} (he : deleteRule chain words h = some h')
    (hf : ∀ r, Rule.isSpec words r = true → f r = false) (c : Chain) :
    (h'.nat c).filter f = (h.nat c).filter f := by
  unfold deleteRule at he
  split at he
  · cases he
    rw [setChain_nat]
    split
    · rename_i hc
      subst hc
      exact filter_eraseP_of_false hf _
    · rfl
  · cases he

theorem deleteDnatRules_others (env : Env) (hf : ∀ r : Rule, r.pointsTo ip = true → f r = false) :
    ∀ (rs : List Rule) (i : Nat) (h : Host) (c : Chain),
      ((deleteDnatRules env chain ip i rs h).1.nat c).filter f = (h.nat c).filter f
  | [], _, _, _ => rfl
  | r :: rs, i, h, c => by
    unfold deleteDnatRules
    split
    · rename_i hm
      split
      · rename_i h' he
        split at he
        · cases he
        rw [deleteDnatRules_others env hf rs (i + 1) h' c]
        exact deleteRule_others he (fun x hx => hf x ((pointsTo_of_isSpec hx).trans hm)) c
      · exact deleteDnatRules_others env hf rs (i + 1) h c
    · exact deleteDnatRules_others env hf rs (i + 1) h c

/-- **Rules of other addresses stay**, whatever fails. -/
theorem unset_others (env : Env) (h : Host) (hf : ∀ r : Rule, r.pointsTo ip = true → f r = false) (c : Chain) :
    ((unsetContainerPortMap env ip h).1.nat c).filter f = (h.nat c).filter f := by
  have hchain : ∀ (chain : Chain) (h : Host),
      ((deleteDnatRulesForChain env chain ip h).1.nat c).filter f = (h.nat c).filter f := by
    intro chain h
    unfold deleteDnatRulesForChain
    split
    · rfl
    · exact deleteDnatRules_others env hf _ 0 h c
  unfold unsetContainerPortMap
  split
  · rfl
  split
  · rfl
  · simp only
    rw [hchain, hchain]

end Deletions

section Own

variable {env : Env} {a : UInt32} {chain : Chain}

/-- The rules a run has added for an address. -/
def Added (a : UInt32) (rules : List Rule) : Prop := ∀ r ∈ rules, ∃ m, r = dnatRule (Ipv4.inetNtop a) m

/-- No line is taken for a rule of the address. -/
def NoneFor (a : UInt32) (rules : List Rule) : Prop := ∀ r ∈ rules, r.listedFor (Ipv4.inetNtop a) = false

theorem deleteDnatRules_skip : ∀ {others : List Rule}, NoneFor a others → ∀ (own : List Rule) (i : Nat)
    (h : Host), deleteDnatRules env chain (Ipv4.inetNtop a) i (others ++ own) h =
      deleteDnatRules env chain (Ipv4.inetNtop a) (i + others.length) own h
  | [], _, _, _, _ => rfl
  | r :: others, hn, own, i, h => by
    have hr : matchesDestination (Ipv4.inetNtop a) (listedWords r) = false := hn r List.mem_cons_self
    have ih := deleteDnatRules_skip (fun r hr => hn r (List.mem_cons_of_mem _ hr)) own (i + 1) h
    rw [List.cons_append, deleteDnatRules, if_neg (Bool.eq_false_iff.1 hr)]
    rw [ih, List.length_cons, show i + 1 + others.length = i + (others.length + 1) by omega]

theorem NoneFor.not_isSpec {rules : List Rule} (hn : NoneFor a rules) (m : PortMap) :
    ∀ r ∈ rules, ¬ Rule.isSpec (dnatRule (Ipv4.inetNtop a) m).words r = true := by
  intro r hr hc
  simp only [Rule.isSpec, Bool.and_eq_true, decide_eq_true_eq] at hc
  have hsame : r.listedFor (Ipv4.inetNtop a) = (dnatRule (Ipv4.inetNtop a) m).listedFor (Ipv4.inetNtop a) := by
    rw [Rule.listedFor, listedWords, hc.2]
    rfl
  have hmatch : (dnatRule (Ipv4.inetNtop a) m).listedFor (Ipv4.inetNtop a) = decide (a = a) := matches_dnatRule a a m
  rw [← hsame, hn r hr] at hmatch
  simp at hmatch

theorem isSpec_self (ip : Text) (m : PortMap) : Rule.isSpec (dnatRule ip m).words (dnatRule ip m) = true := by
  simp [Rule.isSpec, dnatRule]

/-- The first rule with these words is the added one. -/
theorem deleteRule_added {others own : List Rule} {m : PortMap} {h : Host} (hn : NoneFor a others)
    (hnat : h.nat chain = others ++ dnatRule (Ipv4.inetNtop a) m :: own) :
    deleteRule chain (dnatRule (Ipv4.inetNtop a) m).words h = some (setChain chain (others ++ own) h) := by
  have hself := isSpec_self (Ipv4.inetNtop a) m
  unfold deleteRule
  rw [if_pos, hnat, List.eraseP_append_right _ (hn.not_isSpec m), List.eraseP_cons_of_pos hself]
  rw [hnat]
  exact List.any_eq_true.2 ⟨_, by simp, hself⟩

/-- **Added rules all go, the others stay.** -/
theorem deleteDnatRules_own (hquiet : ∀ i, env.fails (.natDelete chain i) = false)
    {others : List Rule} (hn : NoneFor a others) : ∀ {own : List Rule} {i : Nat} {h : Host},
      Added a own → h.nat chain = others ++ own →
      deleteDnatRules env chain (Ipv4.inetNtop a) i own h = (setChain chain others h, true)
  | [], i, h, _, hnat => by
    have hsame : setChain chain others h = h := by
      rw [List.append_nil] at hnat
      simp [setChain, ← hnat]
    rw [deleteDnatRules, hsame]
  | r :: own, i, h, hadd, hnat => by
    obtain ⟨m, rfl⟩ := hadd r List.mem_cons_self
    have hmatch := matches_dnatRule a a m
    rw [decide_eq_true rfl] at hmatch
    have hdel := deleteRule_added hn hnat
    have ih := @deleteDnatRules_own hquiet others hn own (i + 1) (setChain chain (others ++ own) h)
      (fun r hr => hadd r (List.mem_cons_of_mem _ hr)) (by simp [setChain])
    rw [deleteDnatRules, hmatch]
    simp only [if_true, hquiet, Bool.false_eq_true, if_false]
    rw [show listedWords (dnatRule (Ipv4.inetNtop a) m) = (dnatRule (Ipv4.inetNtop a) m).words from rfl,
      hdel]
    simp only
    rw [ih]
    simp [setChain]

theorem deleteDnatRulesForChain_own {others own : List Rule} {h : Host}
    (hlist : ¬ listingFails env chain (h.nat chain)) (hquiet : ∀ i, env.fails (.natDelete chain i) = false)
    (hn : NoneFor a others) (hadd : Added a own) (hnat : h.nat chain = others ++ own) :
    deleteDnatRulesForChain env chain (Ipv4.inetNtop a) h = (setChain chain others h, true) := by
  unfold deleteDnatRulesForChain
  rw [if_neg hlist, hnat, deleteDnatRules_skip hn, deleteDnatRules_own hquiet hn hadd hnat]

/-- **Undoing the port mappings of an address that had none**: both chains are as before. -/
theorem unset_own {nat : Chain → List Rule} {h : Host} (hlist : ∀ c, ¬ listingFails env c (h.nat c))
    (hquiet : ∀ c i, env.fails (.natDelete c i) = false) (hn : ∀ c, NoneFor a (nat c))
    (hadd : ∀ c, ∃ own, Added a own ∧ h.nat c = nat c ++ own) :
    unsetContainerPortMap env (Ipv4.inetNtop a) h = ({ h with nat := nat }, true) := by
  obtain ⟨own, hown, ho⟩ := hadd .output
  obtain ⟨own', hown', hp⟩ := hadd .prerouting
  have h1 := deleteDnatRulesForChain_own (hlist .output) (hquiet .output) (hn .output) hown ho
  have hp' : (setChain .output (nat .output) h).nat .prerouting = nat .prerouting ++ own' := by
    rw [setChain_nat, if_neg (by decide), hp]
  have hkeep : (setChain .output (nat .output) h).nat .prerouting = h.nat .prerouting := by
    rw [setChain_nat, if_neg (by decide)]
  have h2 := deleteDnatRulesForChain_own (hkeep.symm ▸ hlist .prerouting) (hquiet .prerouting) (hn .prerouting)
    hown' hp'
  unfold unsetContainerPortMap
  rw [if_neg (Ipv4.inetNtop_ne_nil a), Ipv4.inetPton_inetNtop]
  simp only [Option.isNone_some, Bool.false_eq_true, if_false]
  rw [h1]
  simp only
  rw [h2, setChain_both]
  rfl

/-- However far `set_container_port_map` gets, it has only added rules of its address. -/
theorem addPortMaps_added : ∀ (ms : List PortMap) (i : Nat) {h : Host} {nat : Chain → List Rule},
    (∀ c m, ∀ r ∈ nat c, ¬ Rule.isSpec (dnatRule (Ipv4.inetNtop a) m).words r = true) →
    (∀ c, ∃ own, Added a own ∧ h.nat c = nat c ++ own) →
      ∀ c, ∃ own, Added a own ∧
        (addPortMaps env (Ipv4.inetNtop a) i ms h).1.nat c = nat c ++ own
  | [], _, _, _, _, hadd => hadd
  | m :: ms, i, h, nat, hn, hadd => by
    have hpush : ∀ {h : Host} (chain : Chain), (∀ c, ∃ own, Added a own ∧ h.nat c = nat c ++ own) →
        ∀ c, ∃ own, Added a own ∧ (setChain chain (h.nat chain ++ [dnatRule (Ipv4.inetNtop a) m]) h).nat c =
          nat c ++ own := by
      intro h chain hadd c
      rw [setChain_nat]
      split
      · rename_i hc
        subst hc
        obtain ⟨own, hown, he⟩ := hadd c
        refine ⟨own ++ [dnatRule (Ipv4.inetNtop a) m], fun r hr => ?_, by rw [he, List.append_assoc]⟩
        rcases List.mem_append.1 hr with hr | hr
        · exact hown r hr
        · exact ⟨m, List.mem_singleton.1 hr⟩
      · exact hadd c
    unfold addPortMaps
    split
    · exact hadd
    simp only
    split
    · split
      · exact hpush .output hadd
      · -- the rollback takes one of the added rules out again
        cases hd : deleteRule .output (dnatRule (Ipv4.inetNtop a) m).words
            (setChain .output (h.nat .output ++ [dnatRule (Ipv4.inetNtop a) m]) h) with
        | none => exact hpush .output hadd
        | some h' =>
          intro c
          obtain ⟨own, hown, he⟩ := hpush .output hadd c
          unfold deleteRule at hd
          split at hd
          · cases hd
            rw [Option.getD_some, setChain_nat]
            split
            · rename_i hc
              subst hc
              rw [he]
              exact ⟨own.eraseP _, fun r hr => hown r (List.mem_of_mem_eraseP hr),
                List.eraseP_append_right _ (hn .output m)⟩
            · exact ⟨own, hown, he⟩
          · cases hd
    · exact addPortMaps_added ms (i + 1) hn (hpush .prerouting (hpush .output hadd))

end Own

/-! ## Interfaces -/

section Links

variable {env : Env} {name network vethHost vethPeer mark : Text} {base : List Link}

/-- The names are not in use. -/
def NamesFree (vethHost vethPeer : Text) (links : List Link) : Prop :=
  ∀ l ∈ links, l.name ≠ vethHost ∧ l.name ≠ vethPeer

theorem namesFree_of_findLink {h : Host}
    (hno : ¬ ((findLink vethHost h).isSome = true ∨ (findLink vethPeer h).isSome = true)) :
    NamesFree vethHost vethPeer h.links := by
  simp only [not_or, Bool.not_eq_true, Option.isSome_eq_false_iff, Option.isNone_iff_eq_none, findLink,
    List.find?_eq_none, decide_eq_true_eq] at hno
  exact fun l hl => ⟨hno.1 l hl, hno.2 l hl⟩

theorem veth_names_ne (hh : tdMakeVethName name = some vethHost)
    (hp : tdMakeVethPeerName name = some vethPeer) : vethHost ≠ vethPeer := by
  unfold tdMakeVethPeerName at hp
  rw [hh] at hp
  cases hp
  unfold tdMakeVethName at hh
  split at hh
  · cases hh
  simp only at hh
  split at hh
  · cases hh
    intro he
    simp at he
  · cases hh

/-- The host end of the pair is there, with its peer, or after the peer has moved. -/
def Paired (P Q : Link → Prop) (vethHost vethPeer : Text) (base links : List Link) : Prop :=
  ∃ l, l.name = vethHost ∧ P l ∧
    ((∃ p, p.name = vethPeer ∧ Q p ∧ l.peer = some vethPeer ∧ links = base ++ [p, l]) ∨
      (l.peer = none ∧ links = base ++ [l]))

/-- The pair is there and its host end is marked. -/
def PairUp (vethHost vethPeer mark : Text) (base links : List Link) : Prop :=
  ∃ l, l.name = vethHost ∧ l.ifalias = mark ∧
    ((∃ p, p.name = vethPeer ∧ l.peer = some vethPeer ∧ links = base ++ [p, l]) ∨
      (l.peer = none ∧ links = base ++ [l]))

theorem pairUp_iff {links : List Link} : PairUp vethHost vethPeer mark base links ↔
    Paired (fun l => l.ifalias = mark) (fun _ => True) vethHost vethPeer base links := by
  simp only [PairUp, Paired, true_and]

theorem map_update_base {f : Link → Link} (hfree : NamesFree vethHost vethPeer base) :
    base.map (fun l => if l.name = vethHost then f l else l) = base := by
  calc base.map (fun l => if l.name = vethHost then f l else l) = base.map id :=
        List.map_congr_left fun l hl => if_neg (hfree l hl).1
    _ = base := List.map_id base

section Paired

variable {P Q : Link → Prop}

theorem Paired.mono {P' Q' : Link → Prop} {links : List Link} (hp : Paired P Q vethHost vethPeer base links)
    (hP : ∀ l, P l → P' l) (hQ : ∀ l, Q l → Q' l) : Paired P' Q' vethHost vethPeer base links := by
  obtain ⟨l, hl, hmark, hcase⟩ := hp
  refine ⟨l, hl, hP l hmark, ?_⟩
  rcases hcase with ⟨p, hpn, hq, hrest⟩ | hmoved
  · exact Or.inl ⟨p, hpn, hQ p hq, hrest⟩
  · exact Or.inr hmoved

theorem Paired.updateLink {h : Host} (hp : Paired P Q vethHost vethPeer base h.links)
    (hfree : NamesFree vethHost vethPeer base) (hne : vethHost ≠ vethPeer) {P' : Link → Prop} {f : Link → Link}
    (hf : ∀ l, (f l).name = l.name ∧ (f l).peer = l.peer) (hP : ∀ l, P l → P' (f l)) :
    Paired P' Q vethHost vethPeer base (updateLink vethHost f h).links := by
  obtain ⟨l, hl, hmark, hcase⟩ := hp
  refine ⟨f l, (hf l).1.trans hl, hP l hmark, ?_⟩
  unfold TinyDocker.updateLink
  rcases hcase with ⟨p, hpn, hq, hpeer, hlinks⟩ | ⟨hpeer, hlinks⟩
  · have hp : p.name ≠ vethHost := fun he => hne (he.symm.trans hpn)
    refine Or.inl ⟨p, hpn, hq, (hf l).2.trans hpeer, ?_⟩
    simp only [hlinks, List.map_append, map_update_base hfree, List.map_cons, List.map_nil, hl, hp,
      if_true, if_false]
  · refine Or.inr ⟨(hf l).2.trans hpeer, ?_⟩
    simp only [hlinks, List.map_append, map_update_base hfree, List.map_cons, List.map_nil, hl, if_true]

/-- Moving the peer away. -/
theorem Paired.movePeer {h : Host} (hp : Paired P Q vethHost vethPeer base h.links)
    (hfree : NamesFree vethHost vethPeer base) (hne : vethHost ≠ vethPeer)
    (hP : ∀ l, P l → P { l with peer := none }) :
    Paired P Q vethHost vethPeer base (TinyDocker.updateLink vethHost (fun l => { l with peer := none })
      { h with links := h.links.filter fun l => decide (l.name ≠ vethPeer) }).links := by
  obtain ⟨l, hl, hmark, hcase⟩ := hp
  have hkeep : base.filter (fun l => decide (l.name ≠ vethPeer)) = base :=
    List.filter_eq_self.2 fun l hl => decide_eq_true (hfree l hl).2
  have hlinks : h.links.filter (fun l => decide (l.name ≠ vethPeer)) = base ++ [l] := by
    have hlp : l.name ≠ vethPeer := fun he => hne (hl.symm.trans he)
    rcases hcase with ⟨p, hpn, -, -, hlinks⟩ | ⟨-, hlinks⟩
    · rw [hlinks, List.filter_append, hkeep]
      simp [hpn, hlp]
    · rw [hlinks, List.filter_append, hkeep]
      simp [hlp]
  refine ⟨{ l with peer := none }, hl, hP l hmark, Or.inr ⟨rfl, ?_⟩⟩
  unfold TinyDocker.updateLink
  simp only [hlinks, List.map_append, map_update_base hfree, List.map_cons, List.map_nil, hl, if_true]

/-- Every command of the configuration keeps the pair, if its condition is about neither peer nor master. -/
theorem vethCommands_paired (hfree : NamesFree vethHost vethPeer base) (hne : vethHost ≠ vethPeer)
    (hP : ∀ l m p, P l → P { l with master := m, peer := p }) :
    ∀ c ∈ vethCommands network vethHost vethPeer, ∀ h : Host,
      Paired P Q vethHost vethPeer base h.links → Paired P Q vethHost vethPeer base (c h).links := by
  intro c hc h hp
  simp only [vethCommands, List.mem_cons, List.not_mem_nil, or_false] at hc
  rcases hc with rfl | rfl | rfl | rfl | rfl | rfl | rfl | rfl | rfl
  · exact hp.updateLink hfree hne (fun _ => ⟨rfl, rfl⟩) fun l hl => hP l (some network) l.peer hl
  · exact hp
  · exact hp.movePeer hfree hne fun l hl => hP l l.master none hl
  all_goals exact hp

/-- The host end is found by its name. -/
theorem Paired.findLink {h : Host} (hp : Paired P Q vethHost vethPeer base h.links)
    (hfree : NamesFree vethHost vethPeer base) (hne : vethHost ≠ vethPeer) :
    ∃ l, TinyDocker.findLink vethHost h = some l ∧ P l ∧ deleteLink l h = { h with links := base } := by
  obtain ⟨l, hl, hmark, hcase⟩ := hp
  have hbase : base.find? (fun x => decide (x.name = vethHost)) = none :=
    List.find?_eq_none.2 fun x hx => by simpa using (hfree x hx).1
  refine ⟨l, ?_, hmark, ?_⟩
  · unfold TinyDocker.findLink
    rcases hcase with ⟨p, hpn, -, -, hlinks⟩ | ⟨-, hlinks⟩
    · have hpv : ¬ vethPeer = vethHost := fun he => hne he.symm
      simp [hlinks, List.find?_append, hbase, hl, hpn, hpv]
    · simp [hlinks, List.find?_append, hbase, hl]
  · unfold deleteLink
    have hkeep : base.filter (fun x => decide (x.name ≠ l.name ∧ some x.name ≠ l.peer)) = base := by
      refine List.filter_eq_self.2 fun x hx => decide_eq_true ⟨?_, ?_⟩
      · rw [hl]; exact (hfree x hx).1
      · rcases hcase with ⟨-, -, -, hpeer, -⟩ | ⟨hpeer, -⟩
        · rw [hpeer]
          exact fun he => (hfree x hx).2 (Option.some.inj he)
        · rw [hpeer]
          exact fun he => by cases he
    congr 1
    rcases hcase with ⟨p, hpn, -, hpeer, hlinks⟩ | ⟨hpeer, hlinks⟩
    · rw [hlinks, List.filter_append, hkeep]
      simp [hpn, hpeer]
    · rw [hlinks, List.filter_append, hkeep]
      simp

end Paired

theorem runVethCommands_inv {I : Host → Prop} : ∀ (cs : List (Host → Host)) (k : Nat) {h : Host},
    (∀ c ∈ cs, ∀ h, I h → I (c h)) → I h → I (runVethCommands env k cs h).1
  | [], _, _, _, hI => hI
  | c :: cs, k, h, hc, hI => by
    unfold runVethCommands
    split
    · exact hI
    · exact runVethCommands_inv cs (k + 1) (fun c' hc' => hc c' (List.mem_cons_of_mem _ hc'))
        (hc c List.mem_cons_self h hI)

/-- Deleting the new pair by its host end. -/
theorem deleteLink_addVethPair {h : Host} (hfree : NamesFree vethHost vethPeer h.links) :
    deleteLink (hostEnd vethHost vethPeer h) (addVethPair vethHost vethPeer h) =
      { h with nextIndex := h.nextIndex + 2 } := by
  have hlinks : (deleteLink (hostEnd vethHost vethPeer h) (addVethPair vethHost vethPeer h)).links = h.links := by
    show List.filter _ (h.links ++ [_, _]) = h.links
    rw [List.filter_append, List.filter_eq_self.2 fun x hx => ?_]
    · simp [hostEnd, peerEnd]
    · exact decide_eq_true ⟨(hfree x hx).1, fun he => (hfree x hx).2 (Option.some.inj he)⟩
  calc deleteLink (hostEnd vethHost vethPeer h) (addVethPair vethHost vethPeer h) =
        { h with
          links := (deleteLink (hostEnd vethHost vethPeer h) (addVethPair vethHost vethPeer h)).links
          nextIndex := h.nextIndex + 2 } := rfl
    _ = { h with nextIndex := h.nextIndex + 2 } := by rw [hlinks]

/-- However far the configuration gets, the pair is there and marked, with the indices it got. -/
theorem configureVeth_paired (env : Env) (name network : Text) {h : Host}
    (hfree : NamesFree vethHost vethPeer h.links) (hne : vethHost ≠ vethPeer) :
    Paired (fun l => l.index = h.nextIndex + 1 ∧ l.ifalias = containerAlias name)
      (fun p => p = peerEnd vethHost vethPeer h) vethHost vethPeer h.links
      (configureVeth env name network vethHost vethPeer (addVethPair vethHost vethPeer h)).1.links := by
  have hadded : Paired (fun l => l.index = h.nextIndex + 1) (fun p => p = peerEnd vethHost vethPeer h) vethHost
      vethPeer h.links (addVethPair vethHost vethPeer h).links :=
    ⟨hostEnd vethHost vethPeer h, rfl, rfl, Or.inl ⟨peerEnd vethHost vethPeer h, rfl, rfl, rfl, rfl⟩⟩
  exact runVethCommands_inv (I := fun g => Paired _ _ vethHost vethPeer h.links g.links) _ 0
    (vethCommands_paired hfree hne fun _ _ _ hl => hl)
    (hadded.updateLink hfree hne (fun _ => ⟨rfl, rfl⟩) fun _ hl => ⟨hl, rfl⟩)

theorem configureVeth_pair (env : Env) (name network : Text) {h : Host}
    (hfree : NamesFree vethHost vethPeer h.links) (hne : vethHost ≠ vethPeer) :
    PairUp vethHost vethPeer (containerAlias name) h.links
      (configureVeth env name network vethHost vethPeer (addVethPair vethHost vethPeer h)).1.links := by
  obtain ⟨l, hl, ⟨-, hmark⟩, hcase⟩ := configureVeth_paired env name network hfree hne
  refine ⟨l, hl, hmark, ?_⟩
  rcases hcase with ⟨p, hpn, -, hpeer, hlinks⟩ | hmoved
  · exact Or.inl ⟨p, hpn, hpeer, hlinks⟩
  · exact Or.inr hmoved

/-- **Deleting the marked pair** leaves the other interfaces. -/
theorem deleteOwnedVeth_pair {h : Host} {site : Site} (hp : PairUp vethHost vethPeer mark base h.links)
    (hfree : NamesFree vethHost vethPeer base) (hne : vethHost ≠ vethPeer)
    (hread : env.fails .aliasRead = false) (hsite : env.fails site = false) :
    deleteOwnedVeth env site vethHost mark h = ({ h with links := base }, true) := by
  obtain ⟨l, hfind, hmark, hdel⟩ := (pairUp_iff.1 hp).findLink hfree hne
  unfold deleteOwnedVeth
  simp only [hfind, ownsInterface, hread, hmark, hsite, hdel, Bool.not_false, decide_true, Bool.and_true,
    Bool.true_eq_false, Bool.false_eq_true, if_false]

/-- The commands up to the creation of the pair succeed. -/
def PairAdded (env : Env) (name : Text) (h : Host) : Prop :=
  env.fails .readProcs = false ∧ cgroupProcs name h ≠ [] ∧ env.fails .vethAdd = false ∧
    ∃ vethHost vethPeer, tdMakeVethName name = some vethHost ∧ tdMakeVethPeerName name = some vethPeer ∧
      NamesFree vethHost vethPeer h.links

/-- The pair of a connected container. -/
def Attached (name : Text) (base links : List Link) : Prop :=
  ∃ vethHost vethPeer, tdMakeVethName name = some vethHost ∧ tdMakeVethPeerName name = some vethPeer ∧
    NamesFree vethHost vethPeer base ∧ PairUp vethHost vethPeer (containerAlias name) base links

/-- **What `connect_container` leaves of the interfaces.** -/
theorem attachContainer_links (hroll : env.fails .vethRollback = false)
    (hread : env.fails .aliasRead = false) (name network : Text) (h : Host) :
    ((attachContainer env name network h).2 = true ∧
      Attached name h.links (attachContainer env name network h).1.links ∧
      ¬ (PairAdded env name h ∧ env.fails .vethIndex = true)) ∨
    ((attachContainer env name network h).2 = false ∧
      (attachContainer env name network h).1.links = h.links ∧
      ¬ (PairAdded env name h ∧ env.fails .vethIndex = true)) ∨
    ((attachContainer env name network h).2 = false ∧
      (attachContainer env name network h).1.links ≠ h.links ∧
      PairAdded env name h ∧ env.fails .vethIndex = true) := by
  unfold attachContainer
  split
  · rename_i hno
    refine Or.inr (Or.inl ⟨rfl, rfl, fun hc => ?_⟩)
    rcases hno with hno | hno
    · rw [hc.1.1] at hno; cases hno
    · exact hc.1.2.1 hno
  rename_i hprocs
  simp only [not_or, Bool.not_eq_true] at hprocs
  split
  · rename_i vethHost vethPeer hvh hvp
    have hne := veth_names_ne hvh hvp
    have hsame : ∀ {vh vp : Text}, tdMakeVethName name = some vh → tdMakeVethPeerName name = some vp →
        vh = vethHost ∧ vp = vethPeer := by
      intro vh vp h1 h2
      exact ⟨Option.some.inj (h1.symm.trans hvh), Option.some.inj (h2.symm.trans hvp)⟩
    unfold createVeth
    split
    · rename_i hex
      refine Or.inr (Or.inl ⟨rfl, rfl, fun hc => ?_⟩)
      obtain ⟨⟨-, -, -, vh, vp, h1, h2, hfree⟩, -⟩ := hc
      obtain ⟨rfl, rfl⟩ := hsame h1 h2
      rcases hex with hex | hex
      · obtain ⟨l, hl⟩ := Option.isSome_iff_exists.1 hex
        have hname := List.find?_some hl
        exact (hfree l (List.mem_of_find?_eq_some hl)).1 (of_decide_eq_true hname)
      · obtain ⟨l, hl⟩ := Option.isSome_iff_exists.1 hex
        have hname := List.find?_some hl
        exact (hfree l (List.mem_of_find?_eq_some hl)).2 (of_decide_eq_true hname)
    rename_i hex
    have hfree := namesFree_of_findLink hex
    split
    · rename_i hadd
      refine Or.inr (Or.inl ⟨rfl, rfl, fun hc => ?_⟩)
      rw [hc.1.2.2.1] at hadd
      cases hadd
    rename_i hadd
    split
    · rename_i hidx
      refine Or.inr (Or.inr ⟨rfl, fun he => ?_, ⟨hprocs.1, hprocs.2, Bool.eq_false_iff.2 hadd, vethHost,
        vethPeer, hvh, hvp, hfree⟩, hidx⟩)
      have := congrArg List.length he
      simp [addVethPair] at this
    rename_i hidx
    have hnolookup : ¬ (PairAdded env name h ∧ env.fails .vethIndex = true) := fun hc => hidx hc.2
    split
    · refine Or.inr (Or.inl ⟨rfl, ?_, hnolookup⟩)
      simp only [hroll, Bool.false_eq_true, if_false]
      rw [deleteLink_addVethPair hfree]
    · have hpair := configureVeth_pair env name network hfree hne
      simp only
      split
      · rename_i hok
        exact Or.inl ⟨hok, ⟨vethHost, vethPeer, hvh, hvp, hfree, hpair⟩, hnolookup⟩
      · refine Or.inr (Or.inl ⟨rfl, ?_, hnolookup⟩)
        rw [deleteOwnedVeth_pair hpair hfree hne hread hroll]
  · rename_i hnames
    refine Or.inr (Or.inl ⟨rfl, rfl, fun hc => ?_⟩)
    obtain ⟨⟨-, -, -, vh, vp, h1, h2, -⟩, -⟩ := hc
    exact hnames vh vp h1 h2

/-- **Disconnecting removes exactly the pair.** -/
theorem disconnectContainer_pair {h : Host} (hat : Attached name base h.links)
    (hread : env.fails .aliasRead = false) (hdel : env.fails .vethDelete = false) :
    disconnectContainer env name h = ({ h with links := base }, true) := by
  obtain ⟨vethHost, vethPeer, hvh, hvp, hfree, hpair⟩ := hat
  have hne := veth_names_ne hvh hvp
  have hdelete := deleteOwnedVeth_pair hpair hfree hne hread hdel
  unfold disconnectContainer
  rw [hvh]
  simp only
  split
  · rename_i hfind
    rw [deleteOwnedVeth, hfind] at hdelete
    rw [← hdelete]
  · rename_i l hfind
    split
    · rename_i hown
      rw [deleteOwnedVeth, hfind] at hdelete
      simp only [hown, if_true] at hdelete
      have hflag : false = true := congrArg Prod.snd hdelete
      cases hflag
    · exact hdelete

end Links

/-! ## Addresses -/

/-- The used list of the default network. -/
def usedIps (h : Host) : List UInt32 := usedIpsOf TINYDOCKER_DEFAULT_NETWORK_NAME h.networks

theorem strIpToInt_inetNtop (a : UInt32) : strIpToInt (Ipv4.inetNtop a) = a := by
  simp [strIpToInt, Ipv4.inetPton_inetNtop]

/-- **Releasing an address that was just allocated** restores the records. -/
theorem releaseUsedIpText_alloc {env : Env} {site : Site} (hsite : env.fails site = false)
    {network : Text} {a : UInt32} {records : List NetworkRecord} {h : Host} (hs : StoreOk records)
    (ha : allocNewIp network records = some (h.networks, a)) :
    releaseUsedIpText env site network (Ipv4.inetNtop a) h = ({ h with networks := records }, true) := by
  have hne : a ≠ 0 := allocNewIp_ne_zero hs ha
  unfold releaseUsedIpText
  rw [strIpToInt_inetNtop, if_neg (by simp [hne, hsite]), loadNetworks_of_store (hs.alloc ha), Option.bind_some,
    releaseUsedIp_allocNewIp hs ha]

end TinyDocker
