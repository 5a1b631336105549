import Rune.Core.Inet
import Rune.Core.Overlay
import Rune.Core.Run

/-!
# The record of the allocated VIPs

There is one `ClusterNetwork` record. The appliers of the ordered log read it in a
transaction, and either fail, leave it as it is, or write it anew. An address comes
from the list of released ones or from a scan of the network upwards from the
gateway.
-/

namespace Rune.Vip

open Rune.Core List

/-- The VIP allocation state of the cluster; the zero value is a missing record. -/
structure ClusterNetwork where
  cidr : String := ""
  /-- The address of each service, by service identifier. -/
  allocatedVIPs : AList (fun _ : String => String) := ∅
  /-- The addresses to hand out next. -/
  freeList : List String := []

/-- Why an applier or a check fails. -/
inductive VipError where
  | cidrExhausted
  | alreadyBootstrapped
  | notBootstrapped
  /-- The text is no network. -/
  | invalidCIDR
  /-- The network is not an IPv4 one. -/
  | notIPv4
  /-- The network is outside the private ranges. -/
  | notPrivate
  deriving DecidableEq

/-- The carry of an increment, from the last byte on. -/
def carry : Bytes → Bytes
  | [] => []
  | b :: bs => if b + 1 ≠ 0 then (b + 1) :: bs else (b + 1) :: carry bs

/-- The next address. -/
def incIP (ip : Bytes) : Bytes := (carry ip.reverse).reverse

/-- The loop of the scan: the first address from `cur` on that is not in use, up to
but without the broadcast address. -/
def scan (bcast : Bytes) (used : List String) : ℕ → Bytes → Option Bytes
  | 0, _ => none
  | fuel + 1, cur =>
    if cur = bcast then none
    else if ipString cur ∉ used then some cur
    else scan bcast used fuel (incIP cur)

/-- The scan passes the broadcast address within this many steps. -/
def scanFuel : ℕ := 2 ^ 32

/-- The next address, with what is left of the released ones. -/
def pickIP (cidr : String) (freeList : List String)
    (allocated : AList fun _ : String => String) : Except VipError (Bytes × List String) :=
  match freeList with
  | ip :: rest => .ok ((parseIP ip).getD [], rest)
  | [] =>
    match parseCIDR cidr with
    | none => .error .invalidCIDR
    | some ipnet =>
      match to4 ipnet.ip with
      | none => .error .notIPv4
      | some netIP =>
        let used := allocated.entries.map fun e => e.2
        let bcast := List.zipWith (fun a m => a ||| ~~~m) netIP ipnet.mask
        match scan bcast used scanFuel (incIP (incIP netIP)) with
        | some ip => .ok (ip, [])
        | none => .error .cidrExhausted

/-- The operations of the log. -/
inductive Op where
  | bootstrap (cidr : String)
  | allocate (serviceID : String)
  | release (ip : String)

/-- What an applier that does not fail does: the record it writes, if any, and the
value it gives the mirror in memory, if any. -/
structure Applied where
  saved : Option ClusterNetwork := none
  mirror : Option ClusterNetwork := none

/-- The record is written and mirrored. -/
def Applied.save (cn : ClusterNetwork) : Applied := { saved := some cn, mirror := some cn }

/-- Set the network once. -/
def applyBootstrap (cur : ClusterNetwork) (cidr : String) : Except VipError Applied :=
  if cur.cidr ≠ "" then
    if cur.cidr ≠ cidr then .error .alreadyBootstrapped else .ok { mirror := some cur }
  else .ok (.save { cidr, allocatedVIPs := ∅, freeList := [] })

/-- Give a service an address, unless it has one. -/
def applyAllocate (cur : ClusterNetwork) (serviceID : String) : Except VipError Applied :=
  if cur.cidr = "" then .error .notBootstrapped
  else if (cur.allocatedVIPs.lookup serviceID).isSome then .ok {}
  else
    match pickIP cur.cidr cur.freeList cur.allocatedVIPs with
    | .error err => .error err
    | .ok (ip, freeList) => .ok (.save { cur with
        allocatedVIPs := cur.allocatedVIPs.insert serviceID (ipString ip), freeList })

/-- The services that have the address. -/
def ClusterNetwork.owners (cn : ClusterNetwork) (ip : String) : List String :=
  (cn.allocatedVIPs.entries.filter fun e => e.2 = ip).map fun e => e.1

/-- Release an address. Which owner the loop over the map meets first is given by
`first`; an owner with the empty identifier counts as none. -/
def applyRelease (cur : ClusterNetwork) (ip : String) (first : ℕ) : Except VipError Applied :=
  match (cur.owners ip)[first % (cur.owners ip).length]? with
  | none => .ok {}
  | some owner =>
    if owner = "" then .ok {}
    else .ok (.save { cur with
      allocatedVIPs := cur.allocatedVIPs.erase owner, freeList := cur.freeList ++ [ip] })

/-- The applier of an operation. -/
def Op.apply (cur : ClusterNetwork) (first : ℕ) : Op → Except VipError Applied
  | .bootstrap cidr => applyBootstrap cur cidr
  | .allocate serviceID => applyAllocate cur serviceID
  | .release ip => applyRelease cur ip first

/-- The persisted record after an operation has been applied. -/
def ClusterNetwork.after (cur : ClusterNetwork) (a : Op × ℕ) : ClusterNetwork :=
  match a.1.apply cur a.2 with
  | .error _ => cur
  | .ok r => r.saved.getD cur

/-- The record after a sequence of operations on a new cluster. -/
def ClusterNetwork.run (ops : List (Op × ℕ)) : ClusterNetwork :=
  ops.foldl ClusterNetwork.after {}

/-- The RFC 1918 networks and the RFC 6598 one. -/
def privateNets : List IPNet :=
  ["10.0.0.0/8", "172.16.0.0/12", "192.168.0.0/16", "100.64.0.0/10"].filterMap parseCIDR

/-- The address is in a private network. -/
def isPrivateOrCGNAT (ip : Bytes) : Bool := privateNets.any fun n => n.contains ip

/-- The network of a private first address. -/
def validatePrivateCIDR (cidr : String) : Except VipError IPNet :=
  match parseCIDR cidr with
  | none => .error .invalidCIDR
  | some ipnet =>
    match to4 ipnet.ip with
    | none => .error .notIPv4
    | some ip4 => if isPrivateOrCGNAT ip4 then .ok ipnet else .error .notPrivate

/-- All addresses the record knows. -/
def ClusterNetwork.addresses (cn : ClusterNetwork) : List String :=
  cn.allocatedVIPs.entries.map (fun e => e.2) ++ cn.freeList

/-- No address occurs twice, and all of them satisfy `P`. -/
structure Sound (P : String → Prop) (cn : ClusterNetwork) : Prop where
  nodup : cn.addresses.Nodup
  addresses : ∀ ip ∈ cn.addresses, P ip

variable {ip : String} {m : AList fun _ : String => String}

theorem mem_values_of_lookup {s : String} (h : m.lookup s = some ip) :
    ip ∈ m.entries.map fun e => e.2 :=
  mem_map.mpr ⟨⟨s, ip⟩, AList.mem_lookup_iff.mp h, rfl⟩

namespace Sound

variable {P : String → Prop} {cn : ClusterNetwork}

/-- No address is held twice. -/
theorem injective (h : Sound P cn) {s t ip : String} (hs : cn.allocatedVIPs.lookup s = some ip)
    (ht : cn.allocatedVIPs.lookup t = some ip) : s = t := by
  have hnd : (cn.allocatedVIPs.entries.map fun e => e.2).Nodup := (nodup_append.mp h.nodup).1
  have he := inj_on_of_nodup_map hnd (AList.mem_lookup_iff.mp hs)
    (AList.mem_lookup_iff.mp ht) rfl
  exact congrArg Sigma.fst he

theorem freeList_nodup (h : Sound P cn) : cn.freeList.Nodup := (nodup_append.mp h.nodup).2.1

theorem not_mem_freeList (h : Sound P cn) {s ip : String}
    (hs : cn.allocatedVIPs.lookup s = some ip) : ip ∉ cn.freeList := fun hf =>
  (nodup_append.mp h.nodup).2.2 ip (mem_values_of_lookup hs) ip hf rfl

/-- The invariant depends on the addresses up to their order. -/
theorem of_perm {cn' : ClusterNetwork} (h : Sound P cn)
    (hp : cn'.addresses.Perm cn.addresses) : Sound P cn' :=
  ⟨hp.nodup_iff.mpr h.nodup, fun ip hip => h.addresses ip (hp.mem_iff.mp hip)⟩

/-- Nothing is allocated yet. -/
theorem empty (cidr : String) : Sound P { cidr } where
  nodup := nodup_nil
  addresses := by simp [ClusterNetwork.addresses]

end Sound

/-- The three ways in which a record is written. -/
inductive Writes (cur : ClusterNetwork) : Op → ClusterNetwork → Prop where
  | bootstrap (cidr : String) (hcidr : cur.cidr = "") : Writes cur (.bootstrap cidr) { cidr }
  | allocate (serviceID : String) (ip : Bytes) (rest : List String) (hcidr : cur.cidr ≠ "")
      (hnew : cur.allocatedVIPs.lookup serviceID = none)
      (hpick : pickIP cur.cidr cur.freeList cur.allocatedVIPs = .ok (ip, rest)) :
      Writes cur (.allocate serviceID) { cur with
        allocatedVIPs := cur.allocatedVIPs.insert serviceID (ipString ip), freeList := rest }
  | release (ip owner : String) (hne : owner ≠ "")
      (howner : cur.allocatedVIPs.lookup owner = some ip) :
      Writes cur (.release ip) { cur with
        allocatedVIPs := cur.allocatedVIPs.erase owner, freeList := cur.freeList ++ [ip] }

theorem lookup_of_mem_owners {cn : ClusterNetwork} {owner : String} (h : owner ∈ cn.owners ip) :
    cn.allocatedVIPs.lookup owner = some ip := by
  obtain ⟨e, he, rfl⟩ := mem_map.mp h
  obtain ⟨hmem, hip⟩ := mem_filter.mp he
  refine AList.mem_lookup_iff.mpr ?_
  obtain rfl : e.2 = ip := by simpa using hip
  exact hmem

/-- What an operation writes. -/
theorem writes_of_apply {cur cn : ClusterNetwork} {op : Op} {first : ℕ} {r : Applied}
    (h : op.apply cur first = .ok r) (hs : r.saved = some cn) : Writes cur op cn := by
  cases op with
  | bootstrap cidr =>
    simp only [Op.apply, applyBootstrap] at h
    split_ifs at h with hset hother
    · cases h
      cases hs
    · cases h
      cases hs
      exact .bootstrap cidr (not_not.mp hset)
  | allocate serviceID =>
    simp only [Op.apply, applyAllocate] at h
    split_ifs at h with hcidr hold
    · cases h
      cases hs
    · cases hp : pickIP cur.cidr cur.freeList cur.allocatedVIPs with
      | error err => simp [hp] at h
      | ok p =>
        simp only [hp] at h
        cases h
        cases hs
        exact .allocate serviceID p.1 p.2 hcidr (by simpa using hold) hp
  | release ip =>
    simp only [Op.apply, applyRelease] at h
    cases ho : (cur.owners ip)[first % (cur.owners ip).length]? with
    | none =>
      rw [ho] at h
      cases h
      cases hs
    | some owner =>
      simp only [ho] at h
      split_ifs at h with hempty
      · cases h
        cases hs
      · cases h
        cases hs
        exact .release ip owner hempty (lookup_of_mem_owners (mem_of_getElem? ho))

/-- A step of a run keeps the record or writes it. -/
theorem after_cases (cur : ClusterNetwork) (a : Op × ℕ) :
    cur.after a = cur ∨ Writes cur a.1 (cur.after a) := by
  unfold ClusterNetwork.after
  cases h : a.1.apply cur a.2 with
  | error err => exact .inl rfl
  | ok r =>
    cases hs : r.saved with
    | none => exact .inl (by simp [hs])
    | some cn => exact .inr (by simpa [hs] using writes_of_apply h hs)

/-- The text of an IPv4 address. -/
def Dotted (ip : String) : Prop := ∃ b : Bytes, b.length = 4 ∧ ip = dotted b

theorem Dotted.ipString_parseIP (h : Dotted ip) : ipString ((parseIP ip).getD []) = ip := by
  obtain ⟨b, hlen, rfl⟩ := h
  rw [parseIP_dotted hlen, Option.getD_some, ipString_v4InV6 hlen]

@[simp] theorem length_carry (bs : Bytes) : (carry bs).length = bs.length := by
  induction bs with
  | nil => rfl
  | cons b bs ih =>
    rw [carry]
    split <;> simp [ih]

@[simp] theorem length_incIP (ip : Bytes) : (incIP ip).length = ip.length := by simp [incIP]

/-- What the scan finds is as long as its start and not in use. -/
theorem scan_eq_some {bcast : Bytes} {used : List String} {fuel : ℕ} {cur ip : Bytes}
    (h : scan bcast used fuel cur = some ip) :
    ip.length = cur.length ∧ ipString ip ∉ used := by
  induction fuel generalizing cur with
  | zero => cases h
  | succ fuel ih =>
    rw [scan] at h
    split_ifs at h with hend hused
    · obtain ⟨hlen, hfree⟩ := ih h
      exact ⟨hlen.trans (length_incIP cur), hfree⟩
    · cases h
      exact ⟨rfl, hused⟩

/-- An address carved from the network. -/
theorem pickIP_nil {cidr : String} {ip : Bytes} {rest : List String}
    (h : pickIP cidr [] m = .ok (ip, rest)) :
    rest = [] ∧ ∃ net netIP, parseCIDR cidr = some net ∧ to4 net.ip = some netIP ∧
      scan (List.zipWith (fun a m => a ||| ~~~m) netIP net.mask)
        (m.entries.map fun e => e.2) scanFuel (incIP (incIP netIP)) = some ip := by
  simp only [pickIP] at h
  cases hp : parseCIDR cidr with
  | none => simp [hp] at h
  | some net =>
    cases ht : to4 net.ip with
    | none => simp [hp, ht] at h
    | some netIP =>
      simp only [hp, ht] at h
      split at h
      · rename_i found hscan
        cases h
        exact ⟨rfl, net, netIP, rfl, ht, hscan⟩
      · cases h

theorem length_to4 {ip ip4 : Bytes} (h : to4 ip = some ip4) : ip4.length = 4 := by
  unfold to4 at h
  split_ifs at h with h4 h16
  · exact Option.some.inj h ▸ h4
  · cases h
    simp [h16.1]

/-- Entries of a map without one of its keys. -/
theorem entries_perm_erase {s : String} (h : m.lookup s = some ip) :
    (m.entries.map fun e => e.2).Perm (ip :: (m.erase s).entries.map fun e => e.2) := by
  have hmem : (⟨s, ip⟩ : Σ _ : String, String) ∈ m.entries := AList.mem_lookup_iff.mp h
  obtain ⟨b, l₁, l₂, -, hl, herase⟩ := exists_of_kerase (mem_keys_of_mem hmem)
  have hb : b = ip := by
    have hb : m.lookup s = some b := AList.mem_lookup_iff.mpr (by rw [hl]; simp)
    exact Option.some.inj (hb.symm.trans h)
  have hentries : (m.erase s).entries = l₁ ++ l₂ := herase
  rw [hentries, hl, hb, map_append, map_append]
  exact perm_middle

/-- A write keeps the invariant as soon as carved addresses satisfy the property. -/
theorem Sound.write {P : String → Prop} {cur cn : ClusterNetwork} {op : Op} (h : Sound P cur)
    (hP : ∀ ip, P ip → Dotted ip)
    (hcarve : ∀ ip rest, pickIP cur.cidr [] cur.allocatedVIPs = .ok (ip, rest) →
      P (ipString ip))
    (hw : Writes cur op cn) : Sound P cn := by
  cases hw with
  | bootstrap cidr hcidr => exact .empty cidr
  | release ip owner hne howner =>
    refine h.of_perm ?_
    have hlast : (((cur.allocatedVIPs.erase owner).entries.map fun e => e.2) ++
        (cur.freeList ++ [ip])).Perm
        (ip :: ((cur.allocatedVIPs.erase owner).entries.map fun e => e.2) ++ cur.freeList) := by
      rw [← append_assoc]
      exact perm_append_singleton ip _
    exact hlast.trans ((entries_perm_erase howner).symm.append_right cur.freeList)
  | allocate serviceID ip rest hcidr hnew hpick =>
    have hentries : ∀ vip, (cur.allocatedVIPs.insert serviceID vip).entries =
        ⟨serviceID, vip⟩ :: cur.allocatedVIPs.entries := fun vip =>
      AList.entries_insert_of_notMem (AList.lookup_eq_none.mp hnew)
    cases hfree : cur.freeList with
    | cons head tail =>
      rw [hfree] at hpick
      obtain ⟨rfl, rfl⟩ : (parseIP head).getD [] = ip ∧ tail = rest := by
        simpa [pickIP] using hpick
      have hhead := (hP head (h.addresses head (by simp [ClusterNetwork.addresses, hfree])))
      refine h.of_perm ?_
      simp only [ClusterNetwork.addresses, hentries, hfree, map_cons, hhead.ipString_parseIP]
      exact perm_middle.symm
    | nil =>
      rw [hfree] at hpick
      obtain ⟨rfl, net, netIP, -, -, hscan⟩ := pickIP_nil hpick
      have hnodup := h.nodup
      have haddr := h.addresses
      simp only [ClusterNetwork.addresses, hfree, append_nil] at hnodup haddr
      constructor
      · simp only [ClusterNetwork.addresses, hentries, map_cons, append_nil]
        exact nodup_cons.mpr ⟨(scan_eq_some hscan).2, hnodup⟩
      · simp only [ClusterNetwork.addresses, hentries, map_cons, append_nil, forall_mem_cons]
        exact ⟨hcarve ip [] hpick, haddr⟩

end Rune.Vip
