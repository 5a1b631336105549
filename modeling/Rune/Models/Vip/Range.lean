import Rune.Models.Vip.Network

/-!
# VIPs stay inside the network and are not shared

The scan starts two addresses above the network address and ends at the broadcast
address. In an IPv4 network with at most thirty mask bits every address it carves
lies between the gateway and the broadcast address. In smaller networks it starts
above its end and leaves the network, and in an IPv4 network written as an IPv6 one
the end it computes is the network address.
-/

namespace Rune.Vip

open Rune.Core

theorem getUint_concat (bs : Bytes) (b : UInt8) :
    getUint (bs ++ [b]) = getUint bs * 256 + b.toNat := by
  simp [getUint]

theorem getUint_reverse_carry (bs : Bytes) :
    getUint (carry bs).reverse = (getUint bs.reverse + 1) % 256 ^ bs.length := by
  induction bs with
  | nil => rfl
  | cons b bs ih =>
    have hlt : getUint bs.reverse < 256 ^ bs.length := by
      have hlt := getUint_lt bs.reverse
      rwa [List.length_reverse] at hlt
    have hb := b.toNat_lt
    have hsucc : (b + 1).toNat = (b.toNat + 1) % 256 := by
      rw [UInt8.toNat_add, UInt8.toNat_one]
    rw [List.reverse_cons, getUint_concat, List.length_cons, pow_succ, carry]
    split
    · rename_i hne
      have hlast : b.toNat ≠ 255 := fun he => hne (UInt8.toNat_inj.mp (by simp [he]))
      rw [List.reverse_cons, getUint_concat, hsucc, Nat.mod_eq_of_lt (by omega),
        Nat.mod_eq_of_lt (by omega), Nat.add_assoc]
    · rename_i hzero
      have hlast : b.toNat = 255 := by
        rw [not_not.mp hzero, UInt8.toNat_zero] at hsucc
        omega
      rw [List.reverse_cons, getUint_concat, ih, hsucc, hlast,
        show getUint bs.reverse * 256 + 255 + 1 = (getUint bs.reverse + 1) * 256 by ring,
        Nat.mul_mod_mul_right, Nat.add_zero]

/-- The address after another one; after the last one comes the first. -/
theorem getUint_incIP (ip : Bytes) : getUint (incIP ip) = (getUint ip + 1) % 256 ^ ip.length := by
  rw [incIP, getUint_reverse_carry, List.reverse_reverse, List.length_reverse]

theorem getUint_incIP_of_lt {ip : Bytes} (h : getUint ip + 1 < 256 ^ ip.length) :
    getUint (incIP ip) = getUint ip + 1 := by
  rw [getUint_incIP, Nat.mod_eq_of_lt h]

/-- A scan that starts below its end finds an address between the two. -/
theorem scan_in_range {bcast : Bytes} {used : List String} {fuel : ℕ} {cur ip : Bytes}
    (hlen : cur.length = bcast.length) (hle : getUint cur ≤ getUint bcast)
    (h : scan bcast used fuel cur = some ip) :
    getUint cur ≤ getUint ip ∧ getUint ip < getUint bcast := by
  induction fuel generalizing cur with
  | zero => cases h
  | succ fuel ih =>
    rw [scan] at h
    split_ifs at h with hend hused
    · have hlt : getUint cur < getUint bcast :=
        lt_of_le_of_ne hle fun he => hend (getUint_inj hlen he)
      have hbound := getUint_lt bcast
      have hnext : getUint (incIP cur) = getUint cur + 1 :=
        getUint_incIP_of_lt (by rw [hlen]; omega)
      obtain ⟨hlow, hhigh⟩ := ih (by simpa using hlen) (by omega) h
      exact ⟨by omega, hhigh⟩
    · cases h
      exact ⟨le_rfl, lt_of_le_of_ne hle fun he => hend (getUint_inj hlen he)⟩

/-- The text is accepted, and it is an IPv4 network with at most thirty mask bits. -/
def Roomy (cidr : String) : Prop :=
  ∃ net, validatePrivateCIDR cidr = .ok net ∧ net.ip.length = 4 ∧ net.ones ≤ 30

/-- The address lies between the gateway and the broadcast address of the network. -/
def Usable (cidr ip : String) : Prop :=
  ∃ net n, parseCIDR cidr = some net ∧ net.first + 1 < n ∧ n < net.last ∧
    ip = dotted (putUint 4 n)

theorem Usable.dotted {cidr ip : String} (h : Usable cidr ip) : Dotted ip := by
  obtain ⟨net, n, -, -, -, rfl⟩ := h
  exact ⟨putUint 4 n, length_putUint 4 n, rfl⟩

theorem parseCIDR_of_validate {cidr : String} {net : IPNet}
    (h : validatePrivateCIDR cidr = .ok net) : parseCIDR cidr = some net := by
  unfold validatePrivateCIDR at h
  cases hp : parseCIDR cidr with
  | none => simp [hp] at h
  | some n =>
    cases ht : to4 n.ip with
    | none => simp [hp, ht] at h
    | some ip4 =>
      simp only [hp, ht] at h
      split_ifs at h
      rw [Except.ok.inj h]

/-- In a roomy network an address is carved by a scan from the one behind the gateway up to the
broadcast address. -/
theorem Roomy.pickIP_eq {cidr : String} (hr : Roomy cidr) :
    ∃ net start bcast, parseCIDR cidr = some net ∧ start.length = 4 ∧ bcast.length = 4 ∧
      getUint start = net.first + 2 ∧ getUint bcast = net.last ∧ net.first + 3 ≤ net.last ∧
      ∀ m, pickIP cidr [] m =
        match scan bcast (m.entries.map fun e => e.2) scanFuel start with
        | some ip => .ok (ip, [])
        | none => .error .cidrExhausted := by
  obtain ⟨net, hval, hlen, hones⟩ := hr
  have hparse := parseCIDR_of_validate hval
  have h4 : to4 net.ip = some net.ip := by simp [to4, hlen]
  have hlast : net.first + 3 ≤ net.last := by
    have hpow : 2 ^ 2 ≤ 2 ^ (8 * net.ip.length - net.ones) :=
      Nat.pow_le_pow_right (by decide) (by omega)
    rw [IPNet.last]
    omega
  have hbcast := getUint_broadcast hparse
  have hmask : net.mask.length = 4 := by
    obtain ⟨ip, n, -, rfl⟩ := parseCIDR_eq_some hparse
    simpa using hlen
  have hblen : (List.zipWith (fun a m => a ||| ~~~m) net.ip net.mask).length = 4 := by
    simp [hlen, hmask]
  have hbound := getUint_lt (List.zipWith (fun a m => a ||| ~~~m) net.ip net.mask)
  rw [hblen] at hbound
  have hone : getUint (incIP net.ip) = net.first + 1 := by
    refine getUint_incIP_of_lt ?_
    change net.first + 1 < 256 ^ net.ip.length
    rw [hlen]
    omega
  have htwo : getUint (incIP (incIP net.ip)) = net.first + 2 := by
    rw [getUint_incIP_of_lt, hone]
    rw [length_incIP, hlen]
    omega
  refine ⟨net, incIP (incIP net.ip), _, hparse, by simpa using hlen, hblen, htwo, hbcast, hlast,
    fun m => ?_⟩
  rw [pickIP, hparse]
  dsimp only
  rewrite [h4]
  rfl

/-- An address carved from a roomy network is a usable one. -/
theorem Roomy.usable_of_pickIP {cidr : String} (hr : Roomy cidr)
    {m : AList fun _ : String => String} {ip : Bytes} {rest : List String}
    (h : pickIP cidr [] m = .ok (ip, rest)) : Usable cidr (ipString ip) := by
  obtain ⟨net, start, bcast, hparse, hlen, hblen, hstart, hbcast, hlast, hpick⟩ := hr.pickIP_eq
  rw [hpick] at h
  split at h
  · rename_i found hscan
    cases h
    obtain ⟨hlow, hhigh⟩ := scan_in_range (hlen.trans hblen.symm) (by omega) hscan
    have hip : ip.length = 4 := (scan_eq_some hscan).1.trans hlen
    refine ⟨net, getUint ip, hparse, by omega, by omega, ?_⟩
    rw [ipString_of_length hip, ← hip, putUint_getUint]
  · cases h

/-- What a run keeps: the network is roomy, and its addresses are usable ones that
occur once. -/
structure InNetwork (cn : ClusterNetwork) : Prop where
  roomy : cn.cidr ≠ "" → Roomy cn.cidr
  sound : Sound (Usable cn.cidr) cn

/-- One write. -/
theorem InNetwork.write {cur cn : ClusterNetwork} {op : Op} (h : InNetwork cur)
    (hop : ∀ c, op = .bootstrap c → Roomy c) (hw : Writes cur op cn) : InNetwork cn := by
  cases hw with
  | bootstrap cidr hcidr => exact ⟨fun _ => hop cidr rfl, .empty cidr⟩
  | allocate serviceID ip rest hcidr hnew hpick =>
    refine ⟨h.roomy, h.sound.write (fun ip hip => hip.dotted) ?_
      (.allocate serviceID ip rest hcidr hnew hpick)⟩
    exact fun ip rest hp => (h.roomy hcidr).usable_of_pickIP hp
  | release ip owner hne howner =>
    have hcidr : cur.cidr ≠ "" := by
      obtain ⟨net, n, hparse, -⟩ := h.sound.addresses ip
        (List.mem_append_left _ (mem_values_of_lookup howner))
      rintro he
      rw [he] at hparse
      cases hparse
    refine ⟨h.roomy, h.sound.write (fun ip hip => hip.dotted) ?_ (.release ip owner hne howner)⟩
    exact fun ip rest hp => (h.roomy hcidr).usable_of_pickIP hp

/-- Every run. -/
theorem InNetwork.run {ops : List (Op × ℕ)}
    (hops : ∀ c first, (Op.bootstrap c, first) ∈ ops → Roomy c) :
    InNetwork (ClusterNetwork.run ops) := by
  have hfold : ∀ {cur : ClusterNetwork}, InNetwork cur →
      InNetwork (ops.foldl ClusterNetwork.after cur) := by
    induction ops with
    | nil => exact fun h => h
    | cons a ops ih =>
      intro cur h
      refine ih (fun c first hmem => hops c first (List.mem_cons_of_mem _ hmem)) ?_
      rcases after_cases cur a with he | hw
      · rwa [he]
      · refine h.write (fun c hc => hops c a.2 ?_) hw
        rw [← hc]
        exact List.mem_cons_self
  exact hfold ⟨fun h => absurd rfl h, .empty ""⟩

/-- In a roomy network no two services share an address, released addresses occur once and belong
to nobody, all addresses lie between the gateway and the broadcast address, and allocating again
changes nothing. -/
theorem vips_unshared_in_range {ops : List (Op × ℕ)}
    (hops : ∀ c first, (Op.bootstrap c, first) ∈ ops → Roomy c) {cn : ClusterNetwork}
    (hcn : ClusterNetwork.run ops = cn) :
    (∀ s t ip, cn.allocatedVIPs.lookup s = some ip → cn.allocatedVIPs.lookup t = some ip →
      s = t) ∧
    cn.freeList.Nodup ∧
    (∀ s ip, cn.allocatedVIPs.lookup s = some ip → ip ∉ cn.freeList) ∧
    (∀ s ip, cn.allocatedVIPs.lookup s = some ip ∨ ip ∈ cn.freeList → Usable cn.cidr ip) ∧
    (∀ s ip, cn.allocatedVIPs.lookup s = some ip → applyAllocate cn s = .ok {}) := by
  subst hcn
  have h := InNetwork.run hops
  refine ⟨fun s t ip => h.sound.injective, h.sound.freeList_nodup,
    fun s ip => h.sound.not_mem_freeList, fun s ip hip => h.sound.addresses ip ?_,
    fun s ip hs => ?_⟩
  · rcases hip with hs | hfree
    · exact List.mem_append_left _ (mem_values_of_lookup hs)
    · exact List.mem_append_right _ hfree
  · obtain ⟨net, n, hparse, -⟩ := h.sound.addresses ip
      (List.mem_append_left _ (mem_values_of_lookup hs))
    have hcidr : (ClusterNetwork.run ops).cidr ≠ "" := by
      intro he
      rw [he] at hparse
      cases hparse
    simp [applyAllocate, hcidr, hs]

/-- A range of one address. -/
theorem vips_unshared_in_range_slash30 :
    Usable (ClusterNetwork.run [(.bootstrap "10.0.0.0/30", 0), (.allocate "web", 0)]).cidr
      "10.0.0.2" := by
  have hroomy : Roomy "10.0.0.0/30" :=
    ⟨{ ip := [10, 0, 0, 0], mask := [255, 255, 255, 252] }, by decide +kernel, rfl, by decide⟩
  refine (vips_unshared_in_range (fun c first hmem => ?_) rfl).2.2.2.1 "web" "10.0.0.2"
    (.inl (by decide +kernel))
  obtain ⟨rfl, -⟩ : c = "10.0.0.0/30" ∧ first = 0 := by simpa using hmem
  exact hroomy

/-- In a network with two addresses the first service gets an address outside it, and so does the
third one in an IPv4 network that is written as an IPv6 one. -/
theorem vip_outside_network :
    (validatePrivateCIDR "10.0.0.0/31" =
        .ok { ip := [10, 0, 0, 0], mask := [255, 255, 255, 254] } ∧
      (ClusterNetwork.run [(.bootstrap "10.0.0.0/31", 0),
        (.allocate "web", 0)]).allocatedVIPs.lookup "web" = some "10.0.0.2" ∧
      ¬ Usable "10.0.0.0/31" "10.0.0.2") ∧
    (validatePrivateCIDR "::ffff:10.0.0.0/126" = .ok
        { ip := v4InV6Prefix ++ [10, 0, 0, 0], mask := List.replicate 15 255 ++ [252] } ∧
      (ClusterNetwork.run [(.bootstrap "::ffff:10.0.0.0/126", 0), (.allocate "web", 0),
        (.allocate "db", 0), (.allocate "mail", 0)]).allocatedVIPs.lookup "mail" =
        some "10.0.0.4") := by
  refine ⟨⟨by decide +kernel, by decide +kernel, ?_⟩, by decide +kernel, by decide +kernel⟩
  rintro ⟨net, n, hparse, hlow, hhigh, -⟩
  obtain rfl : { ip := [10, 0, 0, 0], mask := [255, 255, 255, 254] } = net := by
    have hknown : parseCIDR "10.0.0.0/31" =
        some { ip := [10, 0, 0, 0], mask := [255, 255, 255, 254] } := by decide +kernel
    exact Option.some.inj (hknown.symm.trans hparse)
  have hlast : (IPNet.mk [10, 0, 0, 0] [255, 255, 255, 254]).last =
      (IPNet.mk [10, 0, 0, 0] [255, 255, 255, 254]).first + 1 := by decide
  omega

end Rune.Vip
