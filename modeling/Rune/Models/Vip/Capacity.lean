import Mathlib.Order.Interval.Finset.Nat
import Rune.Models.Vip.Range

/-!
# How many addresses a network has, and which

The allocator hands out every address between the gateway and the broadcast address
before it reports that none is left: an address is free for the scan, on the list of
released ones, or held. Whether a network is private is decided by its first address
alone, which settles the others only where the network is no larger than the private
range that address is in.
-/

namespace Rune.Vip

open Rune.Core List

variable {s cidr : String} {net : IPNet}

/-- The mask bits of an IPv4 network, counted in the four bytes of its addresses. -/
def maskBits (net : IPNet) : ℕ := net.ones - 8 * (net.mask.length - 4)

theorem drop_cidrMask (j n l : ℕ) : (cidrMask (8 * j + n) (j + l)).drop j = cidrMask n l := by
  induction j with
  | zero => simp
  | succ j ih =>
    rw [show j + 1 + l = j + l + 1 by omega, cidrMask, if_pos (by omega), drop_succ_cons,
      show 8 * (j + 1) + n - 8 = 8 * j + n by omega, ih]

/-- A network whose address is an IPv4 one has four bytes, or sixteen with the mask
covering the twelve in front. -/
theorem ones_of_to4 {b : Bytes} (h : parseCIDR s = some net) (h4 : to4 net.ip = some b) :
    net.ip.length = 4 ∨ net.ip.length = 16 ∧ 96 ≤ net.ones := by
  obtain ⟨ip, n, hn, rfl⟩ := parseCIDR_eq_some h
  rw [ones_cidrMask hn]
  unfold to4 at h4
  split_ifs at h4 with hfour hsixteen
  · exact .inl hfour
  refine .inr ⟨hsixteen.1, by_contra fun hlt => ?_⟩
  have hlen : ip.length = 16 := by simpa using hsixteen.1
  have hmask : ∀ n < 96, ∃ m, (cidrMask n 16)[11]? = some m ∧ m.toNat < 255 := by decide
  obtain ⟨m, hm, hsmall⟩ := hmask n (by omega)
  have hbyte := congrArg (fun l => l[11]?) hsixteen.2
  simp only [getElem?_take, hlen, getElem?_zipWith, hm,
    getElem?_eq_getElem (show 11 < ip.length by omega)] at hbyte
  have hand : ip[11].toNat &&& m.toNat = 255 := by
    rw [← UInt8.toNat_and]
    exact congrArg UInt8.toNat (Option.some.inj hbyte)
  have hle := @Nat.and_le_right ip[11].toNat m.toNat
  omega

/-- The mask of an IPv4 network in four bytes, by which its own address has been cut. -/
theorem mask_of_to4 {b : Bytes} (h : parseCIDR s = some net) (h4 : to4 net.ip = some b) :
    maskBits net ≤ 32 ∧
      (if net.mask.length = 16 ∧ b.length = 4 then net.mask.drop 12 else net.mask) =
        cidrMask (maskBits net) 4 ∧
      ∃ a : Bytes, a.length = 4 ∧ b = zipWith (· &&& ·) a (cidrMask (maskBits net) 4) := by
  have hcase := ones_of_to4 h h4
  have hb := length_to4 h4
  obtain ⟨ip, n, hn, rfl⟩ := parseCIDR_eq_some h
  simp only [ones_cidrMask hn, length_zipWith, length_cidrMask, min_self] at hcase
  simp only [maskBits, ones_cidrMask hn, length_cidrMask]
  rcases hcase with hlen | ⟨hlen, hlow⟩
  · simp only [to4, length_zipWith, length_cidrMask, min_self, hlen, if_true, Option.some.injEq]
      at h4
    simp only [hlen] at hn ⊢
    exact ⟨hn, rfl, ip, hlen, h4.symm⟩
  · obtain ⟨k, rfl⟩ := Nat.exists_eq_add_of_le hlow
    have hcut : (cidrMask (96 + k) 16).drop 12 = cidrMask k 4 := drop_cidrMask 12 k 4
    have hdrop : b = (zipWith (· &&& ·) ip (cidrMask (96 + k) 16)).drop 12 := by
      simp only [to4, length_zipWith, length_cidrMask, min_self, hlen] at h4
      simpa using (Option.ite_none_right_eq_some.mp h4).2.symm
    simp only [hlen, hb, and_self, if_true] at hn ⊢
    rw [show 96 + k - 8 * (16 - 4) = k by omega]
    refine ⟨by omega, hcut, ip.drop 12, by simp [hlen], ?_⟩
    rw [hdrop, drop_zipWith, hcut]

/-- Four bytes that are cut by a mask keep its bits. -/
theorem getUint_and_mask {a : Bytes} {n : ℕ} (hn : n ≤ 32) (ha : a.length = 4) :
    getUint (zipWith (· &&& ·) a (cidrMask n 4)) = 2 ^ (32 - n) * (getUint a / 2 ^ (32 - n)) := by
  have hcut := @getUint_and_cidrMask a n
  rw [ha] at hcut
  exact hcut hn

/-- The addresses of an IPv4 network agree with its own in the bits of the mask. -/
theorem contains_iff {b : Bytes} (h : parseCIDR s = some net) (h4 : to4 net.ip = some b)
    (ip : Bytes) : net.contains ip = true ↔ ∃ a, to4 ip = some a ∧
      getUint b / 2 ^ (32 - maskBits net) = getUint a / 2 ^ (32 - maskBits net) := by
  have hb := length_to4 h4
  obtain ⟨hbits, hmask, -⟩ := mask_of_to4 h h4
  have hpos : 0 < 2 ^ (32 - maskBits net) := by positivity
  rw [IPNet.contains, decide_eq_true_iff]
  simp only [h4, Option.getD_some, hmask]
  simp only [length_cidrMask, hb, true_and]
  cases ha : to4 ip with
  | none =>
    have hne : ip.length ≠ 4 := fun hlen => by simp [to4, hlen] at ha
    simp [hne]
  | some a =>
    have hlen := length_to4 ha
    simp only [Option.getD_some, hlen, true_and, Option.some.injEq, exists_eq_left']
    constructor
    · intro he
      have he := congrArg getUint he
      rw [getUint_and_mask hbits hb, getUint_and_mask hbits hlen] at he
      exact Nat.eq_of_mul_eq_mul_left hpos he
    · intro he
      refine getUint_inj (by simp [hb, hlen]) ?_
      rw [getUint_and_mask hbits hb, getUint_and_mask hbits hlen, he]

/-- The address of a network is the first of it. -/
theorem pow_dvd_of_to4 {b : Bytes} (h : parseCIDR s = some net) (h4 : to4 net.ip = some b) :
    2 ^ (32 - maskBits net) ∣ getUint b := by
  obtain ⟨hbits, -, a, ha, rfl⟩ := mask_of_to4 h h4
  rw [getUint_and_mask hbits ha]
  exact Nat.dvd_mul_right _ _

/-- The address right behind a private range is public. -/
theorem public_behind : ∀ p ∈ privateNets, ∃ c ∈ to4 p.ip,
    getUint c + 2 ^ (32 - maskBits p) < 256 ^ 4 ∧
    isPrivateOrCGNAT (putUint 4 (getUint c + 2 ^ (32 - maskBits p))) = false := by
  decide +kernel

/-- The addresses of an accepted network are all private exactly if the private range that its
first address is in is at least as large as the network. -/
theorem accepted_network_private (h : validatePrivateCIDR s = .ok net) :
    (∀ ip, net.contains ip = true → isPrivateOrCGNAT ip = true) ↔
      ∀ p ∈ privateNets, p.contains net.ip = true → maskBits p ≤ maskBits net := by
  have hparse := parseCIDR_of_validate h
  obtain ⟨b, h4, hpriv⟩ : ∃ b, to4 net.ip = some b ∧ isPrivateOrCGNAT b = true := by
    simp only [validatePrivateCIDR, hparse] at h
    cases h4 : to4 net.ip with
    | none => simp [h4] at h
    | some b =>
      simp only [h4] at h
      split_ifs at h with hpriv
      exact ⟨b, rfl, hpriv⟩
  constructor
  · intro hall p hp hbase
    by_contra! hlt
    obtain ⟨text, -, htext⟩ := mem_filterMap.mp hp
    obtain ⟨c, hc, hbound, hpublic⟩ := public_behind p hp
    obtain ⟨b', hb', hsame⟩ := (contains_iff htext hc net.ip).mp hbase
    cases h4.symm.trans hb'
    have hbits := (mask_of_to4 htext hc).1
    have hpow : 2 ^ (32 - maskBits p) < 2 ^ (32 - maskBits net) :=
      Nat.pow_lt_pow_right (by decide) (by omega)
    have hdvd : 2 ^ (32 - maskBits p) ∣ getUint b :=
      (pow_dvd_pow 2 (by omega)).trans (pow_dvd_of_to4 hparse h4)
    have heq : getUint c = getUint b := by
      rw [← Nat.div_mul_cancel (pow_dvd_of_to4 htext hc), hsame, Nat.div_mul_cancel hdvd]
    refine Bool.false_ne_true (hpublic.symm.trans (hall _ ((contains_iff hparse h4 _).mpr
      ⟨putUint 4 (getUint c + 2 ^ (32 - maskBits p)), by simp [to4], ?_⟩)))
    obtain ⟨k, hk⟩ := pow_dvd_of_to4 hparse h4
    rw [getUint_putUint, Nat.mod_eq_of_lt hbound, heq, hk,
      Nat.mul_div_cancel_left _ (by positivity), Nat.mul_add_div (by positivity),
      Nat.div_eq_of_lt hpow, add_zero]
  · intro hlong ip hip
    obtain ⟨p, hp, hpb⟩ := any_eq_true.mp hpriv
    obtain ⟨text, -, htext⟩ := mem_filterMap.mp hp
    obtain ⟨c, hc, -⟩ := public_behind p hp
    obtain ⟨a, ha, hnet⟩ := (contains_iff hparse h4 ip).mp hip
    obtain ⟨b', hb', hbase⟩ := (contains_iff htext hc b).mp hpb
    obtain rfl : b = b' := by simpa [to4, length_to4 h4] using hb'
    have hle := hlong p hp ((contains_iff htext hc net.ip).mpr ⟨b, h4, hbase⟩)
    refine any_eq_true.mpr ⟨p, hp, (contains_iff htext hc ip).mpr ⟨a, ha, ?_⟩⟩
    have hsplit : ∀ x, x / 2 ^ (32 - maskBits p) =
        x / 2 ^ (32 - maskBits net) / 2 ^ (32 - maskBits p - (32 - maskBits net)) := by
      intro x
      rw [Nat.div_div_eq_div_mul, ← pow_add, Nat.add_sub_of_le (by omega)]
    rw [hbase, hsplit, hnet, ← hsplit]

/-- One network inside a private range, and one that is larger than its range. -/
theorem accepted_network_private_slash16 :
    isPrivateOrCGNAT [10, 42, 0, 7] = true ∧
      ¬ ∀ ip, IPNet.contains ⟨[192, 168, 0, 0], [255, 254, 0, 0]⟩ ip = true →
        isPrivateOrCGNAT ip = true := by
  constructor
  · refine (accepted_network_private
      (show validatePrivateCIDR "10.42.0.0/16" =
        .ok { ip := [10, 42, 0, 0], mask := [255, 255, 0, 0] } by decide +kernel)).mpr ?_ _
      (by decide +kernel)
    decide +kernel
  · rw [accepted_network_private (show validatePrivateCIDR "192.168.0.0/15" =
      .ok { ip := [192, 168, 0, 0], mask := [255, 254, 0, 0] } by decide +kernel)]
    decide +kernel

/-- The network of seven mask bits at 10.0.0.0 is accepted, and half of it is public. -/
theorem public_network_accepted :
    validatePrivateCIDR "10.0.0.0/7" = .ok { ip := [10, 0, 0, 0], mask := [254, 0, 0, 0] } ∧
    (IPNet.mk [10, 0, 0, 0] [254, 0, 0, 0]).contains [11, 0, 0, 0] = true ∧
    isPrivateOrCGNAT [11, 0, 0, 0] = false := by
  refine ⟨by decide +kernel, by decide +kernel, by decide +kernel⟩

/-- The addresses between the gateway and the broadcast address. -/
def hosts (net : IPNet) : Finset String :=
  (Finset.Ioo (net.first + 1) net.last).image fun n => dotted (putUint 4 n)

/-- The hosts are the usable addresses. -/
theorem mem_hosts (h : parseCIDR cidr = some net) {ip : String} :
    ip ∈ hosts net ↔ Usable cidr ip := by
  simp only [hosts, Finset.mem_image, Finset.mem_Ioo]
  constructor
  · rintro ⟨n, ⟨hlow, hhigh⟩, rfl⟩
    exact ⟨net, n, h, hlow, hhigh, rfl⟩
  · rintro ⟨net', n, hnet, hlow, hhigh, rfl⟩
    cases h.symm.trans hnet
    exact ⟨n, ⟨hlow, hhigh⟩, rfl⟩

/-- A scan that finds nothing has met only addresses in use, if its fuel lasts up to its end. -/
theorem scan_eq_none {bcast : Bytes} {used : List String} {fuel : ℕ} {cur : Bytes}
    (hlen : cur.length = bcast.length) (hfuel : getUint bcast < getUint cur + fuel)
    (h : scan bcast used fuel cur = none) {n : ℕ} (hlow : getUint cur ≤ n)
    (hhigh : n < getUint bcast) : ipString (putUint cur.length n) ∈ used := by
  induction fuel generalizing cur with
  | zero => omega
  | succ fuel ih =>
    rw [scan] at h
    split_ifs at h with hend hused
    · rw [hend] at hlow
      omega
    · have hbound := getUint_lt bcast
      have hnext : getUint (incIP cur) = getUint cur + 1 :=
        getUint_incIP_of_lt (by rw [hlen]; omega)
      rcases hlow.eq_or_lt with rfl | hlt
      · rw [putUint_getUint]
        exact hused
      · have hin := ih (by simpa using hlen) (by omega) h (by omega)
        rwa [length_incIP] at hin

namespace Roomy

variable (hr : Roomy cidr) (hparse : parseCIDR cidr = some net)
include hr hparse

/-- How many there are. -/
theorem card_hosts : (hosts net).card = 2 ^ (32 - net.ones) - 3 := by
  obtain ⟨net', hval, hlen, hones⟩ := hr
  obtain rfl := Option.some.inj (hparse.symm.trans (parseCIDR_of_validate hval))
  have hbound := getUint_lt (zipWith (fun a m => a ||| ~~~m) net.ip net.mask)
  rw [getUint_broadcast hparse, length_zipWith, hlen] at hbound
  have hlast : net.last < 256 ^ 4 :=
    hbound.trans_le (Nat.pow_le_pow_right (by decide) (min_le_left _ _))
  rw [hosts, Finset.card_image_of_injOn, Nat.card_Ioo, IPNet.last, hlen, show 8 * 4 = 32 from rfl]
  · omega
  · intro m hm n hn he
    rw [Finset.coe_Ioo, Set.mem_Ioo] at hm hn
    have he := congrArg (fun t => parseIPv4 t.toList) he
    simp only [parseIPv4_dotted (length_putUint 4 _), Option.some.injEq] at he
    have he := congrArg getUint he
    rwa [getUint_putUint, getUint_putUint, Nat.mod_eq_of_lt (by omega),
      Nat.mod_eq_of_lt (by omega)] at he

/-- No address can be carved: all of them are held. -/
theorem hosts_subset_of_pickIP {m : AList fun _ : String => String} {err : VipError}
    (h : pickIP cidr [] m = .error err) :
    err = .cidrExhausted ∧ hosts net ⊆ (m.entries.map fun e => e.2).toFinset := by
  obtain ⟨net', start, bcast, hnet, hlen, hblen, hstart, hbcast, hlast, hpick⟩ := hr.pickIP_eq
  cases hparse.symm.trans hnet
  rw [hpick] at h
  split at h
  · cases h
  · rename_i hscan
    cases h
    refine ⟨rfl, fun ip hip => ?_⟩
    obtain ⟨n, hn, rfl⟩ := Finset.mem_image.mp hip
    rw [Finset.mem_Ioo] at hn
    have hbound := getUint_lt bcast
    rw [hblen] at hbound
    have hin := scan_eq_none (hlen.trans hblen.symm) (by unfold scanFuel; omega) hscan
      (show getUint start ≤ n by omega) (by omega)
    rw [hlen, ipString_of_length (length_putUint 4 n)] at hin
    exact mem_toFinset.mpr hin

end Roomy

/-- There are no more addresses than hosts. -/
theorem InNetwork.length_le {cn : ClusterNetwork} (h : InNetwork cn)
    (hparse : parseCIDR cn.cidr = some net) :
    cn.allocatedVIPs.entries.length ≤ (hosts net).card := by
  have hnodup : (cn.allocatedVIPs.entries.map fun e => e.2).Nodup :=
    (nodup_append.mp h.sound.nodup).1
  rw [← length_map (fun e => e.2), ← toFinset_card_of_nodup hnodup]
  refine Finset.card_le_card fun ip hip => (mem_hosts hparse).mpr ?_
  exact h.sound.addresses ip (mem_append_left _ (mem_toFinset.mp hip))

/-- A record keeps the network it was given. -/
theorem cidr_foldl_after {cur : ClusterNetwork} (hset : cur.cidr ≠ "") (ops : List (Op × ℕ)) :
    (ops.foldl ClusterNetwork.after cur).cidr = cur.cidr := by
  induction ops generalizing cur with
  | nil => rfl
  | cons a ops ih =>
    have hstep : (cur.after a).cidr = cur.cidr := by
      rcases after_cases cur a with he | hw
      · rw [he]
      · generalize a.1 = op at hw
        generalize cur.after a = cn at hw
        cases hw with
        | bootstrap cidr hcidr => exact absurd hcidr hset
        | allocate => rfl
        | release => rfl
    rw [foldl_cons, ih (by rwa [hstep]), hstep]

/-- In a network of at most thirty mask bits an allocation for a new service fails exactly
when all but three of the addresses are held, and then for that reason. -/
theorem allocate_exhausted_iff (hval : validatePrivateCIDR cidr = .ok net)
    (hones : net.ones ≤ 30) {ops : List (Op × ℕ)}
    (hops : ∀ c first, (Op.bootstrap c, first) ∉ ops) {cn : ClusterNetwork}
    (hcn : ClusterNetwork.run ((.bootstrap cidr, 0) :: ops) = cn)
    (hnew : cn.allocatedVIPs.lookup s = none) :
    (applyAllocate cn s = .error .cidrExhausted ↔
      cn.allocatedVIPs.entries.length = 2 ^ (32 - net.ones) - 3) ∧
    (cn.allocatedVIPs.entries.length ≠ 2 ^ (32 - net.ones) - 3 →
      ∃ cn' ip, applyAllocate cn s = .ok (.save cn') ∧ cn'.allocatedVIPs.lookup s = some ip) := by
  have hparse := parseCIDR_of_validate hval
  have hroomy : Roomy cidr := by
    refine ⟨net, hval, ?_, hones⟩
    cases h4 : to4 net.ip with
    | none => simp [validatePrivateCIDR, hparse, h4] at hval
    | some b =>
      rcases ones_of_to4 hparse h4 with hlen | ⟨-, hbig⟩
      · exact hlen
      · omega
  have hset : cidr ≠ "" := by
    rintro rfl
    cases hparse
  have hcidr : cn.cidr = cidr := by
    rw [← hcn]
    exact cidr_foldl_after hset ops
  have hin : InNetwork cn := by
    rw [← hcn]
    refine InNetwork.run fun c first hmem => ?_
    rcases mem_cons.mp hmem with he | hmem
    · cases he
      exact hroomy
    · exact absurd hmem (hops c first)
  rw [← hcidr] at hroomy hparse hset
  have hle := hin.length_le hparse
  rw [hroomy.card_hosts hparse] at hle
  simp only [applyAllocate, hset, if_false, hnew, Option.isSome_none, Bool.false_eq_true]
  cases hpick : pickIP cn.cidr cn.freeList cn.allocatedVIPs with
  | error err =>
    have hfree : cn.freeList = [] := by
      cases hfree : cn.freeList with
      | nil => rfl
      | cons ip rest =>
        rw [hfree] at hpick
        cases hpick
    rw [hfree] at hpick
    obtain ⟨rfl, hsub⟩ := hroomy.hosts_subset_of_pickIP hparse hpick
    have hge := (Finset.card_le_card hsub).trans (toFinset_card_le _)
    rw [hroomy.card_hosts hparse, length_map] at hge
    have hfull := hle.antisymm hge
    exact ⟨iff_of_true rfl hfull, fun hne => absurd hfull hne⟩
  | ok p =>
    have hmore := (hin.write (fun c hc => by cases hc)
      (.allocate s p.1 p.2 hset hnew hpick)).length_le hparse
    rw [hroomy.card_hosts hparse,
      AList.entries_insert_of_notMem (AList.lookup_eq_none.mp hnew), length_cons] at hmore
    refine ⟨iff_of_false (by simp) (by omega), fun _ => ⟨_, _, rfl, AList.lookup_insert _⟩⟩

/-- A range of one address. -/
theorem allocate_exhausted_iff_slash30 :
    applyAllocate (ClusterNetwork.run [(.bootstrap "10.0.0.0/30", 0), (.allocate "web", 0)]) "db" =
      .error .cidrExhausted := by
  have hval : validatePrivateCIDR "10.0.0.0/30" =
      .ok { ip := [10, 0, 0, 0], mask := [255, 255, 255, 252] } := by decide +kernel
  have hops : ∀ c first, (Op.bootstrap c, first) ∉ [(Op.allocate "web", 0)] := by simp
  exact (allocate_exhausted_iff hval (by decide) hops rfl (by decide +kernel)).1.mpr
    (by decide +kernel)

end Rune.Vip
