import TinyDocker.Docker.Bridges
import TinyDocker.Docker.System
import TinyDocker.Lib.ReadLoop

/-!
# Deleting the interfaces that the program owns (`docker/network.c`)

`delete_owned_bridge` and `delete_owned_veth` look up an interface, compare the alias that
`/sys/class/net` has for it, look it up again and then run a command that takes its name.  Between any two of
these calls other programs may change the interfaces.

Principal results: `readInterfaceAlias_eq` — however the reads are cut, what the alias is read as;
`deletion_hits_the_checked` — what is deleted is what was checked, if nobody touches that name behind the last
check; `quiet_bridge`, `quiet_veth` — with nobody else around these are the operations of the system model.
-/

set_option autoImplicit false

namespace TinyDocker.Owned

open CText ReadLoop

/-- The file `ifalias` of an interface. -/
def ifaliasFile (l : Link) : Text := if l.ifalias = [] then [] else l.ifalias ++ ['\n']

/-- The calls of a deletion are numbered: what others do before a call, whether it fails for a reason of its
own, and what its reads return. -/
structure OwnedEnv where
  outside : Nat → NetHost → NetHost
  fails : Nat → Bool
  replies : Nat → List Reply

/-- What each call finds; until the deletion the calls change nothing themselves. -/
def OwnedEnv.found (e : OwnedEnv) (s : NetHost) : Nat → NetHost
  | 0 => e.outside 0 s
  | k + 1 => e.outside (k + 1) (e.found s k)

def ifNametoindex (name : Text) (s : NetHost) : Nat :=
  match findLink name s.host with
  | none => 0
  | some l => l.index

/-- A text up to a line break, `strcspn(alias, "\r\n")`. -/
def firstLine (contents : Text) : Text := contents.takeWhile fun c => !(c == '\x00' || c == '\r' || c == '\n')

def readInterfaceAlias (e : OwnedEnv) (k : Nat) (name : Text) (aliasSize : Nat) (s : NetHost) : Option Text :=
  if aliasSize < 2 then none
  else match findLink name s.host with
    | none => none
    | some l =>
      if e.fails k then none
      else match readFixed (aliasSize - 1) [] (ifaliasFile l) (e.replies k) with
        | .done buffer => some (firstLine buffer)
        | _ => none

/-- `verify_interface_ownership`: the calls `k`, `k + 1` (for bridges) and `k + 2`. -/
def verifyInterfaceOwnership (e : OwnedEnv) (found : Nat → NetHost) (k : Nat) (name expectedAlias : Text)
    (requireBridge : Bool) : Int :=
  if ifNametoindex name (found k) = 0 then 0
  else if requireBridge = true ∧ (e.fails (k + 1) = true ∨ name ∉ (found (k + 1)).bridges) then -1
  else match readInterfaceAlias e (k + 2) name 256 (found (k + 2)) with
    | none => -1
    | some actualAlias => if actualAlias = expectedAlias then 1 else -1

/-- How a deletion ends: there is no such interface, it is not the one, the command fails, or the command has
removed an interface. -/
inductive Deletion where
  | absent
  | refused
  | failed
  | removed (l : Link) (after : NetHost)

/-- `delete_owned_bridge`; call 4 sets the bridge down and may fail. -/
def deleteOwnedBridge (e : OwnedEnv) (name expectedAlias : Text) (s : NetHost) : Deletion :=
  let found := e.found s
  let originalIndex := ifNametoindex name (found 0)
  if originalIndex = 0 then .absent
  else if verifyInterfaceOwnership e found 1 name expectedAlias true ≠ 1 then .refused
  else if ifNametoindex name (found 5) ≠ originalIndex ∨
      verifyInterfaceOwnership e found 6 name expectedAlias true ≠ 1 then .refused
  else match findLink name (found 9).host with
    | none => .failed
    | some l =>
      if e.fails 9 = true ∨ name ∉ (found 9).bridges then .failed
      else .removed l (removeBridge name (found 9))

/-- `delete_owned_veth`. -/
def deleteOwnedVeth (e : OwnedEnv) (name expectedAlias : Text) (s : NetHost) : Deletion :=
  let found := e.found s
  let originalIndex := ifNametoindex name (found 0)
  if originalIndex = 0 then .absent
  else if verifyInterfaceOwnership e found 1 name expectedAlias false ≠ 1 ∨
      ifNametoindex name (found 4) ≠ originalIndex then .refused
  else match findLink name (found 5).host with
    | none => .failed
    | some l =>
      if e.fails 5 then .failed else .removed l { found 5 with host := deleteLink l (found 5).host }

/-! ## Reading an alias -/

section

variable {e : OwnedEnv} {k : Nat} {name : Text} {s : NetHost}

/-- An alias that has been read is the first line of the whole file. -/
theorem readInterfaceAlias_some {size : Nat} {actual : Text} (h : readInterfaceAlias e k name size s = some actual) :
    ∃ l, findLink name s.host = some l ∧ (ifaliasFile l).length < size ∧ actual = firstLine (ifaliasFile l) := by
  unfold readInterfaceAlias at h
  split at h
  · cases h
  rename_i hsize
  split at h
  · cases h
  rename_i l hl
  split at h
  · cases h
  split at h
  · rename_i buffer hread
    obtain ⟨hbuffer, hlen⟩ := readFixed_done (Nat.zero_le _) hread
    cases h
    rw [List.nil_append] at hbuffer hlen
    exact ⟨l, hl, by omega, by rw [hbuffer]⟩
  · cases h

/-- **What an alias is read as**, however the reads are cut: nothing if the file has no room. -/
theorem readInterfaceAlias_eq {size : Nat} {l : Link} (hsize : 2 ≤ size) (hl : findLink name s.host = some l)
    (hfails : e.fails k = false) (hworks : ∀ r ∈ e.replies k, r ≠ .failed)
    (hcount : (ifaliasFile l).length < (e.replies k).countP Reply.returns) :
    readInterfaceAlias e k name size s =
      if (ifaliasFile l).length < size then some (firstLine (ifaliasFile l)) else none := by
  have hread := @readFixed_result _ (size - 1) (e.replies k) [] (ifaliasFile l) (Nat.zero_le _) hworks hcount
  rw [List.nil_append] at hread
  unfold readInterfaceAlias
  rw [if_neg (Nat.not_lt.2 hsize), hl, hfails]
  simp only [Bool.false_eq_true, ↓reduceIte]
  rw [hread]
  by_cases hlen : (ifaliasFile l).length < size
  · rw [if_pos hlen, if_pos (by omega)]
  · rw [if_neg hlen, if_neg (by omega)]

theorem ifNametoindex_eq {l : Link} (h : findLink name s.host = some l) : ifNametoindex name s = l.index := by
  unfold ifNametoindex
  rw [h]

/-- The check says yes for an interface with the alias, and only for a bridge where that is asked for. -/
theorem verify_one {found : Nat → NetHost} {expectedAlias : Text} {requireBridge : Bool}
    (h : verifyInterfaceOwnership e found k name expectedAlias requireBridge = 1) :
    (requireBridge = true → name ∈ (found (k + 1)).bridges) ∧ ∃ l, findLink name (found (k + 2)).host = some l ∧
      firstLine (ifaliasFile l) = expectedAlias := by
  unfold verifyInterfaceOwnership at h
  split at h
  · cases h
  split at h
  · cases h
  rename_i hbridge
  split at h
  · cases h
  rename_i actual hread
  split at h
  · rename_i heq
    obtain ⟨l, hl, -, hactual⟩ := readInterfaceAlias_some hread
    refine ⟨fun hreq => ?_, l, hl, hactual.symm.trans heq⟩
    by_contra hnot
    exact hbridge ⟨hreq, Or.inr hnot⟩
  · cases h

end

/-! ## What a deletion deletes -/

section

variable {e : OwnedEnv} {name expectedAlias : Text} {s after : NetHost} {l : Link}

theorem bridge_removed (h : deleteOwnedBridge e name expectedAlias s = .removed l after) :
    ifNametoindex name (e.found s 5) = ifNametoindex name (e.found s 0) ∧ name ∈ (e.found s 7).bridges ∧
      (∃ l', findLink name (e.found s 8).host = some l' ∧ firstLine (ifaliasFile l') = expectedAlias) ∧
      findLink name (e.found s 9).host = some l ∧ after = removeBridge name (e.found s 9) := by
  unfold deleteOwnedBridge at h
  simp only at h
  split at h
  · cases h
  split at h
  · cases h
  split at h
  · cases h
  rename_i hchecked
  simp only [not_or, not_not] at hchecked
  split at h
  · cases h
  rename_i l' hl'
  split at h
  · cases h
  cases h
  obtain ⟨hbridge, halias⟩ := verify_one hchecked.2
  exact ⟨hchecked.1, hbridge rfl, halias, hl', rfl⟩

theorem veth_removed (h : deleteOwnedVeth e name expectedAlias s = .removed l after) :
    ifNametoindex name (e.found s 4) = ifNametoindex name (e.found s 0) ∧
      (∃ l', findLink name (e.found s 3).host = some l' ∧ firstLine (ifaliasFile l') = expectedAlias) ∧
      findLink name (e.found s 5).host = some l ∧
      after = { e.found s 5 with host := deleteLink l (e.found s 5).host } := by
  unfold deleteOwnedVeth at h
  simp only at h
  split at h
  · cases h
  split at h
  · cases h
  rename_i hchecked
  simp only [not_or, not_not] at hchecked
  split at h
  · cases h
  rename_i l' hl'
  split at h
  · cases h
  cases h
  exact ⟨hchecked.2, (verify_one hchecked.1).2, hl', rfl⟩

/-- Nobody touches the name between two calls. -/
def Untouched (name : Text) (found : Nat → NetHost) (first last : Nat) : Prop :=
  ∀ k, first ≤ k → k < last → findLink name (found (k + 1)).host = findLink name (found k).host ∧
    (name ∈ (found (k + 1)).bridges ↔ name ∈ (found k).bridges)

theorem Untouched.same {found : Nat → NetHost} {first last : Nat} (h : Untouched name found first last) :
    ∀ {k : Nat}, first ≤ k → k ≤ last → findLink name (found k).host = findLink name (found first).host ∧
      (name ∈ (found k).bridges ↔ name ∈ (found first).bridges) := by
  intro k hfirst hlast
  induction k, hfirst using Nat.le_induction with
  | base => exact ⟨rfl, Iff.rfl⟩
  | succ k hk ih =>
    obtain ⟨hlink, hbridge⟩ := ih (by omega)
    obtain ⟨hlink', hbridge'⟩ := h k hk (by omega)
    exact ⟨hlink'.trans hlink, hbridge'.trans hbridge⟩

end

/-- **A deletion hits the interface that was checked.**  Whatever other programs do before, if they leave the
name alone from the last look at the index of the bridge (call 5), or from the look at the alias of the veth
(call 3), on, then the interface that the command removes has the index found at the start and the expected
alias, and is a bridge where a bridge is to go. -/
theorem deletion_hits_the_checked (e : OwnedEnv) (name expectedAlias : Text) (s : NetHost) (l : Link)
    (after : NetHost) :
    (deleteOwnedBridge e name expectedAlias s = .removed l after → Untouched name (e.found s) 5 9 →
      l.name = name ∧ l.index = ifNametoindex name (e.found s 0) ∧ firstLine (ifaliasFile l) = expectedAlias ∧
        name ∈ (e.found s 9).bridges ∧ after = removeBridge name (e.found s 9)) ∧
    (deleteOwnedVeth e name expectedAlias s = .removed l after → Untouched name (e.found s) 3 5 →
      l.name = name ∧ l.index = ifNametoindex name (e.found s 0) ∧ firstLine (ifaliasFile l) = expectedAlias ∧
        after = { e.found s 5 with host := deleteLink l (e.found s 5).host }) := by
  constructor
  · intro h hsame
    obtain ⟨hindex, hbridge, ⟨l', hl', halias⟩, hl, hafter⟩ := bridge_removed h
    have h₉ := hsame.same (k := 9) (by omega) (by omega)
    have h₈ := hsame.same (k := 8) (by omega) (by omega)
    have h₇ := hsame.same (k := 7) (by omega) (by omega)
    have hfive : findLink name (e.found s 5).host = some l := h₉.1 ▸ hl
    obtain rfl : l' = l := Option.some.inj (hl'.symm.trans (h₈.1.trans hfive))
    exact ⟨(findLink_some hl).2, (ifNametoindex_eq hfive).symm.trans hindex, halias,
      h₉.2.2 (h₇.2.1 hbridge), hafter⟩
  · intro h hsame
    obtain ⟨hindex, ⟨l', hl', halias⟩, hl, hafter⟩ := veth_removed h
    have h₅ := hsame.same (k := 5) (by omega) (by omega)
    have h₄ := hsame.same (k := 4) (by omega) (by omega)
    have hthree : findLink name (e.found s 3).host = some l := h₅.1 ▸ hl
    obtain rfl : l' = l := Option.some.inj (hl'.symm.trans hthree)
    exact ⟨(findLink_some hl).2, (ifNametoindex_eq (h₄.1.trans hthree)).symm.trans hindex, halias, hafter⟩

/-- A host with one bridge. -/
def bridgeHost (index : Nat) (ifalias : Text) : NetHost :=
  ⟨{ Host.bare with links := [⟨"web0".toList, index, ifalias, none, none⟩] }, [ "web0".toList]⟩

/-- Nothing fails, and before call `k` the bridge gets replaced. -/
def swapBefore (k : Nat) : OwnedEnv where
  outside j s := if j = k then bridgeHost 12 "other".toList else s
  fails _ := false
  replies _ := [.count 16, .interrupted, .count 16]

/-- The first deletion is left alone.  In the second the bridge is replaced between the last check and the
command, which removes the other one. -/
theorem bridge_swapped :
    (∃ l after, deleteOwnedBridge (swapBefore 10) "web0".toList "mine".toList (bridgeHost 7 "mine".toList) =
        .removed l after ∧ l.index = 7 ∧ firstLine (ifaliasFile l) = "mine".toList) ∧
      ∃ l after, deleteOwnedBridge (swapBefore 9) "web0".toList "mine".toList (bridgeHost 7 "mine".toList) =
        .removed l after ∧ l.index = 12 ∧ firstLine (ifaliasFile l) = "other".toList := by
  constructor
  · refine ⟨⟨"web0".toList, 7, "mine".toList, none, none⟩, _, rfl, ?_⟩
    obtain ⟨-, hindex, halias, -⟩ := (deletion_hits_the_checked (swapBefore 10) "web0".toList "mine".toList
      (bridgeHost 7 "mine".toList) ⟨"web0".toList, 7, "mine".toList, none, none⟩
      (removeBridge "web0".toList (bridgeHost 7 "mine".toList))).1 rfl (fun k _ hlast => by
        have hk : k + 1 ≠ 10 := by omega
        show findLink _ (if k + 1 = 10 then _ else _ : NetHost).host = _ ∧
          (_ ∈ (if k + 1 = 10 then _ else _ : NetHost).bridges ↔ _)
        rw [if_neg hk]
        exact ⟨rfl, Iff.rfl⟩)
    exact ⟨hindex, halias⟩
  · exact ⟨⟨"web0".toList, 12, "other".toList, none, none⟩, _, rfl, rfl, rfl⟩

/-! ## With nobody else around -/

/-- An alias that its file is read back as. -/
def PlainAlias (l : Link) : Prop :=
  l.ifalias.length < 255 ∧ '\x00' ∉ l.ifalias ∧ '\r' ∉ l.ifalias ∧ '\n' ∉ l.ifalias

theorem firstLine_plain {l : Link} (h : PlainAlias l) :
    firstLine (ifaliasFile l) = l.ifalias ∧ (ifaliasFile l).length < 256 := by
  obtain ⟨hlen, hnul, hcr, hlf⟩ := h
  have hkept : ∀ c ∈ l.ifalias, (!(c == '\x00' || c == '\r' || c == '\n')) = true := by
    intro c hc
    have hne : c ≠ '\x00' ∧ c ≠ '\r' ∧ c ≠ '\n' :=
      ⟨fun h => hnul (h ▸ hc), fun h => hcr (h ▸ hc), fun h => hlf (h ▸ hc)⟩
    simp [hne]
  unfold firstLine ifaliasFile
  split
  · rename_i hnil
    rw [hnil]
    exact ⟨rfl, by decide⟩
  · refine ⟨?_, by rw [List.length_append, List.length_singleton]; omega⟩
    rw [List.takeWhile_append_of_pos hkept]
    exact List.append_nil _

/-- A host that others leave alone, with aliases that can be read back. -/
structure Quiet (e : OwnedEnv) (s : NetHost) : Prop where
  outside : ∀ k s, e.outside k s = s
  index : ∀ l ∈ s.host.links, l.index ≠ 0
  plain : ∀ l ∈ s.host.links, PlainAlias l
  replies : ∀ k, (∀ r ∈ e.replies k, r ≠ .failed) ∧ 256 < (e.replies k).countP Reply.returns

section

variable {e : OwnedEnv} {name expectedAlias : Text} {s : NetHost}

theorem Quiet.found (h : Quiet e s) : ∀ k, e.found s k = s
  | 0 => h.outside 0 s
  | k + 1 => (h.outside (k + 1) _).trans (h.found k)

theorem Quiet.verify (h : Quiet e s) {l : Link} (hl : findLink name s.host = some l) (k : Nat)
    (requireBridge : Bool) :
    verifyInterfaceOwnership e (e.found s) k name expectedAlias requireBridge = 1 ↔
      (requireBridge = true → e.fails (k + 1) = false ∧ name ∈ s.bridges) ∧ e.fails (k + 2) = false ∧
        l.ifalias = expectedAlias := by
  have hmem := (findLink_some hl).1
  have hindex : ifNametoindex name s ≠ 0 := by
    rw [ifNametoindex_eq hl]
    exact h.index l hmem
  obtain ⟨hline, hlen⟩ := firstLine_plain (h.plain l hmem)
  obtain ⟨hworks, hcount⟩ := h.replies (k + 2)
  unfold verifyInterfaceOwnership
  rw [h.found, h.found, h.found, if_neg hindex]
  split
  · rename_i hbridge
    refine ⟨fun hone => (by cases hone), fun ⟨hok, _⟩ => ?_⟩
    obtain ⟨hfails, hin⟩ := hok hbridge.1
    rcases hbridge.2 with hf | hnot
    · rw [hfails] at hf
      cases hf
    · exact absurd hin hnot
  rename_i hbridge
  have hok : requireBridge = true → e.fails (k + 1) = false ∧ name ∈ s.bridges := by
    intro hreq
    have hboth := fun hor => hbridge ⟨hreq, hor⟩
    simpa only [imp_false, not_or, Bool.not_eq_true, not_not] using hboth
  cases hf : e.fails (k + 2) with
  | true =>
    have hread : readInterfaceAlias e (k + 2) name 256 s = none := by
      unfold readInterfaceAlias
      rw [if_neg (by decide), hl]
      simp only [hf, ↓reduceIte]
    rw [hread]
    exact ⟨fun hone => (by cases hone), fun ⟨_, hno, _⟩ => (by cases hno)⟩
  | false =>
    rw [readInterfaceAlias_eq (by decide) hl hf hworks (hlen.trans hcount), if_pos hlen, hline]
    simp only
    split
    · rename_i heq
      exact ⟨fun _ => ⟨hok, trivial, heq⟩, fun _ => rfl⟩
    · rename_i heq
      exact ⟨fun hone => (by cases hone), fun ⟨_, _, hyes⟩ => absurd hyes heq⟩

/-- The result in the system model. -/
def Deletion.result (s : NetHost) : Deletion → NetHost × Bool
  | .absent => (s, true)
  | .refused | .failed => (s, false)
  | .removed _ after => (after, true)

/-- The operation of the system model, which reads the interface once. -/
theorem quiet_bridge (h : Quiet e s) (env : NetEnv) (read delete : NetSite)
    (hread : env read = (e.fails 2 || e.fails 3 || e.fails 7 || e.fails 8)) (hdelete : env delete = e.fails 9) :
    (deleteOwnedBridge e name expectedAlias s).result s =
      TinyDocker.deleteOwnedBridge env read delete name expectedAlias s := by
  unfold deleteOwnedBridge TinyDocker.deleteOwnedBridge
  cases hl : findLink name s.host with
  | none =>
    simp only
    rw [h.found, if_pos (by unfold ifNametoindex; rw [hl])]
    rfl
  | some l =>
    obtain ⟨hmem, hname⟩ := findLink_some hl
    have hindex : ifNametoindex name s ≠ 0 := by
      rw [ifNametoindex_eq hl]
      exact h.index l hmem
    have hfirst := @Quiet.verify e name expectedAlias s h l hl 1 true
    have hsecond := @Quiet.verify e name expectedAlias s h l hl 6 true
    simp only [true_implies] at hfirst hsecond
    have hboth : ownsBridge env read l expectedAlias s = true ↔
        verifyInterfaceOwnership e (e.found s) 1 name expectedAlias true = 1 ∧
          verifyInterfaceOwnership e (e.found s) 6 name expectedAlias true = 1 := by
      rw [hfirst, hsecond]
      simp only [ownsBridge, hread, hname, Bool.and_eq_true, Bool.not_eq_true', Bool.or_eq_false_iff,
        decide_eq_true_eq]
      tauto
    simp only [h.found] at hboth ⊢
    rw [if_neg hindex]
    by_cases hown : ownsBridge env read l expectedAlias s = true
    · obtain ⟨hone, hone'⟩ := hboth.1 hown
      have hin := (hfirst.1 hone).1.2
      rw [if_neg (not_not.2 hone), if_neg (by simp [hone']), hl, hown, hdelete]
      simp only [hin, not_true_eq_false, or_false, Bool.true_eq_false, ↓reduceIte]
      split
      · rfl
      · rfl
    · rw [Bool.not_eq_true] at hown
      rw [if_pos hown]
      have hnot : ¬ (verifyInterfaceOwnership e (e.found s) 1 name expectedAlias true = 1 ∧
          verifyInterfaceOwnership e (e.found s) 6 name expectedAlias true = 1) := by
        rw [← hboth, hown]
        exact Bool.false_ne_true
      split
      · rfl
      rename_i hone
      rw [if_pos (Or.inr fun hone' => hnot ⟨not_not.1 hone, hone'⟩)]
      rfl

theorem quiet_veth (h : Quiet e s) (env : Env) (site : Site) (hread : env.fails .aliasRead = e.fails 3)
    (hdelete : env.fails site = e.fails 5) :
    (deleteOwnedVeth e name expectedAlias s).result s =
      ({ s with host := (TinyDocker.deleteOwnedVeth env site name expectedAlias s.host).1 },
        (TinyDocker.deleteOwnedVeth env site name expectedAlias s.host).2) := by
  unfold deleteOwnedVeth TinyDocker.deleteOwnedVeth
  cases hl : findLink name s.host with
  | none =>
    simp only
    rw [h.found, if_pos (by unfold ifNametoindex; rw [hl])]
    rfl
  | some l =>
    have hindex : ifNametoindex name s ≠ 0 := by
      rw [ifNametoindex_eq hl]
      exact h.index l (findLink_some hl).1
    have hverify := @Quiet.verify e name expectedAlias s h l hl 1 false
    simp only [Bool.false_eq_true, false_implies, true_and] at hverify
    have hboth : ownsInterface env l expectedAlias = true ↔
        verifyInterfaceOwnership e (e.found s) 1 name expectedAlias false = 1 := by
      rw [hverify]
      simp only [ownsInterface, hread, Bool.and_eq_true, Bool.not_eq_true', decide_eq_true_eq]
    simp only [h.found]
    rw [if_neg hindex]
    by_cases hown : ownsInterface env l expectedAlias = true
    · rw [if_neg (by simp [hboth.1 hown]), hl, hown, hdelete]
      simp only [Bool.true_eq_false, ↓reduceIte]
      split
      · rfl
      · rfl
    · rw [if_pos (Or.inl fun hone => hown (hboth.2 hone))]
      rw [Bool.not_eq_true] at hown
      rw [if_pos hown]
      rfl

end

end TinyDocker.Owned
