import Mathlib.Order.Bounds.Defs
import Mathlib.Data.Set.Basic
import TinyDocker.Docker.NetworkRollback

/-!
# The address allocator (`docker/network.c`)

`alloc_new_ip` and `release_used_ip` from the networks file to the networks file, and the arithmetic of a
network's range: parser, validator and allocator compute mask and bounds in 32 bits, each for itself.

Principal results:

* `broadcast_toNat`, `CidrRange.next` — the 32-bit bounds of a network are the numbers they stand for;
* `allocNewIp_eq_none` — when `alloc_new_ip` finds nothing there is nothing;
* `allocator_correct` — the least free address, or none for one of three reasons; the new record is valid,
  and releasing the address restores the records.
-/

set_option autoImplicit false

namespace TinyDocker

open CText

/-! ## The range of a network -/

/-- A network address and its prefix length. -/
structure CidrRange (network : UInt32) (width : Nat) : Prop where
  aligned : network.toNat % 2 ^ (32 - width) = 0
  width : width ≤ 30

theorem cidrMask_toNat : ∀ width, width ≤ 32 → (cidrMask width).toNat = 2 ^ 32 - 2 ^ (32 - width) := by
  decide +kernel

theorem cidrMask_not_toNat : ∀ width, width ≤ 32 → (~~~(cidrMask width)).toNat = 2 ^ (32 - width) - 1 := by
  decide +kernel

/-- A parsed CIDR text gives a multiple of the size of the host part. -/
theorem tdParseIpv4Cidr_aligned {text : Text} {network : UInt32} {width : Nat}
    (h : tdParseIpv4Cidr text = .ok (network, width)) :
    width ≤ 32 ∧ network.toNat % 2 ^ (32 - width) = 0 := by
  unfold tdParseIpv4Cidr at h
  split at h
  · cases h
  split at h
  · cases h
  split at h
  · cases h
  split at h
  · cases h
  rename_i host _
  split at h
  · cases h
  rename_i w hlong
  simp only [Except.ok.injEq, Prod.mk.injEq] at h
  obtain ⟨rfl, rfl⟩ := h
  obtain ⟨-, hw, -⟩ := tdParseLong_ok hlong
  have hw : w.toNat ≤ 32 := by omega
  have hmask : (cidrMask w.toNat).toNat % 2 ^ (32 - w.toNat) = 0 := by
    rw [cidrMask_toNat _ hw]
    exact Nat.mod_eq_zero_of_dvd (Nat.dvd_sub (Nat.pow_dvd_pow 2 (by omega)) (Nat.dvd_refl _))
  refine ⟨hw, ?_⟩
  rw [UInt32.toNat_and, Nat.and_mod_two_pow, hmask, Nat.and_zero]

theorem RecordOk.cidrRange {r : NetworkRecord} (h : RecordOk r) {network : UInt32} {width : Nat}
    (hcidr : tdParseIpv4Cidr r.cidr = .ok (network, width)) : CidrRange network width := by
  obtain ⟨_, _, hcidr', hw⟩ := validateCidr_ok h.cidr
  rw [hcidr] at hcidr'
  cases hcidr'
  exact ⟨(tdParseIpv4Cidr_aligned hcidr).2, hw⟩

section Range

variable {network : UInt32} {width : Nat}

theorem CidrRange.room (h : CidrRange network width) : 4 ≤ 2 ^ (32 - width) := by
  have hw := h.width
  calc 4 = 2 ^ 2 := rfl
    _ ≤ 2 ^ (32 - width) := Nat.pow_le_pow_right (by decide) (by omega)

/-- The whole range fits 32 bits. -/
theorem CidrRange.fits (h : CidrRange network width) : network.toNat + 2 ^ (32 - width) ≤ 2 ^ 32 := by
  obtain ⟨q, hq⟩ := Nat.dvd_of_mod_eq_zero h.aligned
  have hlt := network.toNat_lt
  have hpow : 2 ^ 32 = 2 ^ (32 - width) * 2 ^ width := by
    rw [← Nat.pow_add, Nat.sub_add_cancel (by have := h.width; omega)]
  rw [hq, hpow] at hlt
  have hq' : q < 2 ^ width := Nat.lt_of_mul_lt_mul_left hlt
  calc network.toNat + 2 ^ (32 - width) = 2 ^ (32 - width) * (q + 1) := by rw [hq, Nat.mul_succ]
    _ ≤ 2 ^ (32 - width) * 2 ^ width := Nat.mul_le_mul_left _ hq'
    _ = 2 ^ 32 := hpow.symm

/-- **The broadcast address** is the last address of the range. -/
theorem broadcast_toNat (h : CidrRange network width) :
    (network ||| ~~~(cidrMask width)).toNat = network.toNat + (2 ^ (32 - width) - 1) := by
  obtain ⟨q, hq⟩ := Nat.dvd_of_mod_eq_zero h.aligned
  have hroom := h.room
  rw [UInt32.toNat_or, cidrMask_not_toNat _ (by have := h.width; omega), hq,
    Nat.two_pow_add_eq_or_of_lt (by omega)]

/-- Small steps from the network address do not wrap. -/
theorem CidrRange.next (h : CidrRange network width) :
    (network + 1).toNat = network.toNat + 1 ∧ (network + 2).toNat = network.toNat + 2 := by
  have hfits := h.fits
  have hroom := h.room
  rw [UInt32.toNat_add, UInt32.toNat_add, UInt32.toNat_one, show (2 : UInt32).toNat = 2 from rfl]
  omega

end Range

/-- No 32-bit computation of the validator and the allocator wraps: `network + 1`, `network + 2`, the
broadcast address, and every step of the candidate loop. -/
structure NoWrap (network : UInt32) (width : Nat) : Prop where
  gateway : (network + 1).toNat = network.toNat + 1
  first : (network + 2).toNat = network.toNat + 2
  broadcast : (network ||| ~~~(cidrMask width)).toNat = network.toNat + (2 ^ (32 - width) - 1)
  step : ∀ candidate : UInt32, candidate < network ||| ~~~(cidrMask width) →
    (candidate + 1).toNat = candidate.toNat + 1

theorem CidrRange.noWrap {network : UInt32} {width : Nat} (h : CidrRange network width) :
    NoWrap network width := by
  refine ⟨h.next.1, h.next.2, broadcast_toNat h, fun c hc => ?_⟩
  rw [UInt32.lt_iff_toNat_lt] at hc
  have hlt := (network ||| ~~~(cidrMask width)).toNat_lt
  rw [UInt32.toNat_add, UInt32.toNat_one]
  omega

/-! ## What is free -/

/-- The numbers of the addresses a container may still get. -/
def freeAddresses (network : UInt32) (width : Nat) (used : List UInt32) : Set Nat :=
  {a | network.toNat + 2 ≤ a ∧ a < network.toNat + (2 ^ (32 - width) - 1) ∧ ∀ u ∈ used, u.toNat ≠ a}

/-- When the scan returns 0 it has seen every candidate in use. -/
theorem allocScan_eq_zero (used : List UInt32) : ∀ (n : Nat) (c : UInt32), 0 < c.toNat → c.toNat + n < 2 ^ 32 →
    allocScan used n c = 0 → ∀ b : UInt32, c.toNat ≤ b.toNat → b.toNat < c.toNat + n → b ∈ used
  | 0, _, _, _, _, b, hlo, hhi => absurd hhi (Nat.not_lt.2 hlo)
  | n + 1, c, hpos, hc, h, b, hlo, hhi => by
    unfold allocScan at h
    split at h
    · rename_i hm
      have hnext : (c + 1).toNat = c.toNat + 1 := by
        rw [UInt32.toNat_add, UInt32.toNat_one]
        omega
      by_cases heq : b = c
      · rw [heq]
        exact hm
      · have hne : b.toNat ≠ c.toNat := fun hbc => heq (UInt32.toNat_inj.1 hbc)
        exact allocScan_eq_zero used n (c + 1) (by omega) (by omega) h b (by omega) (by omega)
    · rw [h] at hpos
      exact absurd hpos (by decide)

/-- Why `alloc_new_ip` returns 0: the network is unknown, its list is full, or no address is left. -/
def Exhausted (name : Text) (records : List NetworkRecord) : Prop :=
  records.find? (fun r => decide (r.name = name)) = none ∨
    ∃ r, records.find? (fun r => decide (r.name = name)) = some r ∧
      (TD_NETWORK_MAX_USED_IPS ≤ r.usedIps.length ∨
        ∃ network width, tdParseIpv4Cidr r.cidr = .ok (network, width) ∧
          freeAddresses network width r.usedIps = ∅)

theorem mem_updateUsedIps_of_find {name : Text} {g : List UInt32 → List UInt32} {r : NetworkRecord} :
    ∀ {records : List NetworkRecord}, records.find? (fun r => decide (r.name = name)) = some r →
      { r with usedIps := g r.usedIps } ∈ updateUsedIps name g records
  | [], h => nomatch h
  | r' :: rs, h => by
    unfold updateUsedIps
    by_cases hn : r'.name = name
    · rw [List.find?_cons_of_pos (by simp [hn])] at h
      cases h
      rw [if_pos hn]
      exact List.mem_cons_self
    · rw [List.find?_cons_of_neg (by simp [hn])] at h
      rw [if_neg hn]
      exact List.mem_cons_of_mem _ (mem_updateUsedIps_of_find h)

/-- **What a successful allocation returns**: the least free address. -/
theorem allocNewIp_isLeast {name : Text} {records records' : List NetworkRecord} {a : UInt32}
    (hs : StoreOk records) (h : allocNewIp name records = some (records', a)) :
    ∃ r network width, records.find? (fun r => decide (r.name = name)) = some r ∧
      tdParseIpv4Cidr r.cidr = .ok (network, width) ∧
      IsLeast (freeAddresses network width r.usedIps) a.toNat := by
  obtain ⟨-, hnew, r, hfind, -, network, width, hcidr, hlo, hhi, hbelow⟩ := allocNewIp_ok hs h
  have hrange := (hs.record r (List.mem_of_find?_eq_some hfind)).cidrRange hcidr
  rw [broadcast_toNat hrange] at hhi
  have hnew : a ∉ r.usedIps := by simpa only [usedIpsOf, hfind] using hnew
  refine ⟨r, network, width, hfind, hcidr, ⟨hlo, hhi, fun u hu he => ?_⟩, fun b hb => ?_⟩
  · exact hnew (UInt32.toNat_inj.1 he ▸ hu)
  · -- a smaller address would be in use
    by_contra hlt
    have hb32 : b < 2 ^ 32 := by have := a.toNat_lt; omega
    have hval : (UInt32.ofNat b).toNat = b := by
      rw [UInt32.toNat_ofNat']
      exact Nat.mod_eq_of_lt hb32
    have hused := hbelow (UInt32.ofNat b) (by rw [hval]; exact hb.1) (by rw [hval]; omega)
    exact hb.2.2 _ hused hval

/-- **When nothing is returned there is nothing.** -/
theorem allocNewIp_eq_none {name : Text} {records : List NetworkRecord} (hs : StoreOk records) :
    allocNewIp name records = none ↔ Exhausted name records := by
  constructor
  · intro h
    unfold allocNewIp at h
    split at h
    · rename_i hfind
      exact Or.inl hfind
    rename_i r hfind
    have hr := hs.record r (List.mem_of_find?_eq_some hfind)
    split at h
    · rename_i hfull
      exact Or.inr ⟨r, hfind, Or.inl hfull⟩
    obtain ⟨network, width, hcidr, -⟩ := validateCidr_ok hr.cidr
    have hrange := hr.cidrRange hcidr
    have hfits := hrange.fits
    have hroom := hrange.room
    have hbroadcast := broadcast_toNat hrange
    have hfirst := hrange.next.2
    have hget : getCidrRange r.cidr = some (network, network ||| ~~~(cidrMask width), width) := by
      unfold getCidrRange
      rw [hcidr]
    rw [hget] at h
    simp only at h
    rw [if_neg (by rw [UInt32.le_iff_toNat_le, hbroadcast, hfirst]; omega)] at h
    split at h
    · rename_i hzero
      refine Or.inr ⟨r, hfind, Or.inr ⟨network, width, hcidr, Set.eq_empty_iff_forall_notMem.2 ?_⟩⟩
      intro b ⟨hlo, hhi, hfree⟩
      have hspan : ((network ||| ~~~(cidrMask width)) - (network + 2)).toNat = 2 ^ (32 - width) - 3 := by
        rw [UInt32.toNat_sub_of_le _ _ (by rw [UInt32.le_iff_toNat_le, hbroadcast, hfirst]; omega),
          hbroadcast, hfirst]
        omega
      have hval : (UInt32.ofNat b).toNat = b := by
        rw [UInt32.toNat_ofNat']
        exact Nat.mod_eq_of_lt (by omega)
      have hused := allocScan_eq_zero r.usedIps _ (network + 2) (by omega) (by rw [hfirst, hspan]; omega) hzero
        (UInt32.ofNat b) (by rw [hval, hfirst]; exact hlo) (by rw [hval, hfirst, hspan]; omega)
      exact hfree _ hused hval
    · cases h
  · intro h
    cases ha : allocNewIp name records with
    | none => rfl
    | some found =>
      obtain ⟨-, -, r, hfind, hcount, -⟩ := allocNewIp_ok hs ha
      obtain ⟨r', network, width, hfind', hcidr, hleast⟩ := allocNewIp_isLeast hs ha
      rw [hfind] at hfind'
      cases hfind'
      rcases h with hnone | ⟨r', hr', hfull | ⟨network', width', hcidr', hempty⟩⟩
      · rw [hfind] at hnone
        cases hnone
      · rw [hfind] at hr'
        cases hr'
        exact absurd hfull (Nat.not_le.2 hcount)
      · rw [hfind] at hr'
        cases hr'
        rw [hcidr] at hcidr'
        cases hcidr'
        rw [hempty] at hleast
        exact hleast.1.elim

/-! ## The two commands on the networks file -/

/-- `int_to_str_ip`: `inet_ntop` writes nothing into a buffer that is too small. -/
def intToStrIp (intIp : UInt32) (ipBufSize : Int) : Option Text :=
  if ((Ipv4.inetNtop intIp).length : Int) < ipBufSize then some (Ipv4.inetNtop intIp) else none

/-- What a call of `alloc_new_ip` leaves: the networks file, the text in the buffer, the value returned. -/
structure Allocation where
  file : Option Text
  ip : Option Text
  allocated : UInt32

/-- `alloc_new_ip`, all file operations succeeding. -/
def allocNewIpFile (name : Text) (bufSize : Int) (file : Option Text) : Allocation :=
  if bufSize ≤ 0 then ⟨file, none, 0⟩
  else match loadNetworkRecords file with
    | none => ⟨file, none, 0⟩
    | some records =>
      match allocNewIp name records with
      | none => ⟨file, none, 0⟩
      | some (records, allocated) =>
        match writeNetworkRecords records with
        | none => ⟨file, none, 0⟩
        | some data => ⟨some data, intToStrIp allocated bufSize, allocated⟩

/-- `release_used_ip`, all file operations succeeding. -/
def releaseUsedIpFile (name ip : Text) (file : Option Text) : Option Text × Bool :=
  if strIpToInt ip = 0 then (file, false)
  else match loadNetworkRecords file with
    | none => (file, false)
    | some records =>
      match releaseUsedIp name (strIpToInt ip) records with
      | none => (file, false)
      | some records =>
        match writeNetworkRecords records with
        | none => (file, false)
        | some data => (some data, true)

section File

variable {name : Text} {bufSize : Int} {file : Option Text} {records : List NetworkRecord}

theorem intToStrIp_of_room (a : UInt32) (hbuf : 16 ≤ bufSize) :
    intToStrIp a bufSize = some (Ipv4.inetNtop a) := by
  have hlen := Ipv4.inetNtop_length a
  unfold intToStrIp
  rw [if_pos (by omega)]

theorem allocNewIpFile_none (hload : loadNetworkRecords file = some records)
    (ha : allocNewIp name records = none) : allocNewIpFile name bufSize file = ⟨file, none, 0⟩ := by
  unfold allocNewIpFile
  split
  · rfl
  · simp only [hload, ha]

/-- A found address is written: the file is loaded as the new records. -/
theorem allocNewIpFile_some (hload : loadNetworkRecords file = some records) (hbuf : 0 < bufSize)
    {records' : List NetworkRecord} {a : UInt32} (ha : allocNewIp name records = some (records', a)) :
    ∃ data, allocNewIpFile name bufSize file = ⟨some data, intToStrIp a bufSize, a⟩ ∧
      loadNetworkRecords (some data) = some records' := by
  have hs' := (loadNetworkRecords_ok hload).alloc ha
  have hwrite := writeNetworkRecords_of_ok hs'.record
  refine ⟨_, ?_, loadNetworkRecords_write hs' hwrite⟩
  unfold allocNewIpFile
  rw [if_neg (by omega)]
  simp only [hload, ha, hwrite]

/-- **Releasing the text of an address** that was just allocated. -/
theorem releaseUsedIpFile_alloc (hs : StoreOk records) {records' : List NetworkRecord} {a : UInt32}
    (ha : allocNewIp name records = some (records', a)) (hload : loadNetworkRecords file = some records') :
    ∃ data, releaseUsedIpFile name (Ipv4.inetNtop a) file = (some data, true) ∧
      loadNetworkRecords (some data) = some records := by
  have hwrite := writeNetworkRecords_of_ok hs.record
  refine ⟨_, ?_, loadNetworkRecords_write hs hwrite⟩
  unfold releaseUsedIpFile
  rw [strIpToInt_inetNtop, if_neg (allocNewIp_ne_zero hs ha)]
  simp only [hload, releaseUsedIp_allocNewIp hs ha, hwrite]

/-- **The allocator.**  `alloc_new_ip` returns 0 exactly when the network is unknown, its list is full or no
address of it is free, and otherwise the least free address; the record then passes
`validate_allocated_addresses`, and `release_used_ip` of the text it wrote restores the records.  Nothing
wraps in any of the networks. -/
theorem allocator_correct (name : Text) (bufSize : Int) (file : Option Text) (records : List NetworkRecord)
    (hload : loadNetworkRecords file = some records) (hbuf : 0 < bufSize) :
    ((allocNewIpFile name bufSize file).allocated = 0 ↔ Exhausted name records) ∧
    ((allocNewIpFile name bufSize file).allocated ≠ 0 →
      ∃ r network width, records.find? (fun r => decide (r.name = name)) = some r ∧
        tdParseIpv4Cidr r.cidr = .ok (network, width) ∧
        IsLeast (freeAddresses network width r.usedIps) (allocNewIpFile name bufSize file).allocated.toNat ∧
        loadNetworkRecords (allocNewIpFile name bufSize file).file =
          some (updateUsedIps name (· ++ [(allocNewIpFile name bufSize file).allocated]) records) ∧
        validateAllocatedAddresses
          { r with usedIps := r.usedIps ++ [(allocNewIpFile name bufSize file).allocated] } = .ok () ∧
        (16 ≤ bufSize → ∃ ip data, (allocNewIpFile name bufSize file).ip = some ip ∧
          releaseUsedIpFile name ip (allocNewIpFile name bufSize file).file = (some data, true) ∧
          loadNetworkRecords (some data) = some records)) ∧
    ∀ r ∈ records, ∃ network width, tdParseIpv4Cidr r.cidr = .ok (network, width) ∧ NoWrap network width := by
  have hs := loadNetworkRecords_ok hload
  refine ⟨?_, ?_, fun r hr => ?_⟩
  · cases ha : allocNewIp name records with
    | none =>
      rw [allocNewIpFile_none hload ha]
      exact ⟨fun _ => (allocNewIp_eq_none hs).1 ha, fun _ => rfl⟩
    | some found =>
      obtain ⟨records', a⟩ := found
      obtain ⟨data, hfile, -⟩ := allocNewIpFile_some hload hbuf ha
      rw [hfile, ← allocNewIp_eq_none hs, ha]
      exact ⟨fun h => absurd h (allocNewIp_ne_zero hs ha), fun h => nomatch h⟩
  · intro hne
    cases ha : allocNewIp name records with
    | none =>
      rw [allocNewIpFile_none hload ha] at hne
      exact absurd rfl hne
    | some found =>
      obtain ⟨records', a⟩ := found
      obtain ⟨data, hfile, hdata⟩ := allocNewIpFile_some hload hbuf ha
      obtain ⟨r, network, width, hfind, hcidr, hleast⟩ := allocNewIp_isLeast hs ha
      obtain ⟨hrecords, -⟩ := allocNewIp_ok hs ha
      rw [hfile]
      refine ⟨r, network, width, hfind, hcidr, hleast, hrecords ▸ hdata, ?_, fun hroom => ?_⟩
      · exact ((hs.alloc ha).record _ (hrecords ▸ mem_updateUsedIps_of_find hfind)).addresses
      · obtain ⟨data', hrelease, hback⟩ := releaseUsedIpFile_alloc hs ha hdata
        exact ⟨_, data', intToStrIp_of_room a hroom, hrelease, hback⟩
  · obtain ⟨network, width, hcidr, -⟩ := validateCidr_ok (hs.record r hr).cidr
    exact ⟨network, width, hcidr, ((hs.record r hr).cidrRange hcidr).noWrap⟩

end File

/-- The last four addresses there are, one taken. -/
def topFile : Text := "top:bridge:255.255.255.248/29:4294967290;4294967292;\n".toList

theorem topFile_allocates :
    loadNetworkRecords (some topFile) = some
      [⟨"top".toList, "bridge".toList, "255.255.255.248/29".toList, [4294967290, 4294967292]⟩] ∧
    (allocNewIpFile "top".toList 16 (some topFile)).allocated = 4294967291 ∧
    ∃ ip data, (allocNewIpFile "top".toList 16 (some topFile)).ip = some ip ∧
      releaseUsedIpFile "top".toList ip (allocNewIpFile "top".toList 16 (some topFile)).file =
        (some data, true) ∧
      loadNetworkRecords (some data) = some
        [⟨"top".toList, "bridge".toList, "255.255.255.248/29".toList, [4294967290, 4294967292]⟩] := by
  have hload : loadNetworkRecords (some topFile) = some
      [⟨"top".toList, "bridge".toList, "255.255.255.248/29".toList, [4294967290, 4294967292]⟩] := by
    decide +kernel
  have hvalue : (allocNewIpFile "top".toList 16 (some topFile)).allocated = 4294967291 := by decide +kernel
  obtain ⟨-, hfound, -⟩ := allocator_correct "top".toList 16 (some topFile) _ hload (by decide)
  obtain ⟨r, network, width, -, -, -, -, -, hback⟩ := hfound (by rw [hvalue]; decide)
  exact ⟨hload, hvalue, hback (by decide)⟩

end TinyDocker
