import Rune.Models.Gpu.Admission

/-!
# The ledger never overcommits

Seen from one device, a ledger is the list of claims on it, and every write of an
admission call changes that list by the moves of a resource that is shared or held
exclusively. So the accounts of every device stay sound through every interleaving
of calls. A call that ends in an error has left every claim as it was.
-/

namespace Rune.Gpu

open Rune.Core Relation

/-- The claim a reservation makes on its device. -/
def GPURes.claim (r : GPURes) : Claim := ⟨r.wholeDevice, r.vramBytes⟩

/-- The claims on a device. -/
def NodeDeviceLedger.claimsOn (l : NodeDeviceLedger) (uuid : String) : List Claim :=
  (l.findReservations uuid).map GPURes.claim

/-- The moves on the claims of a device with the system reserve of every device. -/
abbrev DeviceMove (dev : GPUDevice) : List Claim → List Claim → Prop :=
  ClaimMove reservedVRAMFloor reservedVRAMPerInstance dev.vramBytes

/-- The accounts of a device with the system reserve of every device. -/
abbrev DeviceSound (dev : GPUDevice) : List Claim → Prop :=
  SoundClaims reservedVRAMFloor reservedVRAMPerInstance dev.vramBytes

section Device

variable {l : NodeDeviceLedger} {dev : GPUDevice} {uuid : String}

theorem shared_claimsOn (h : l.hasWholeDeviceHolder uuid = false) : Shared (l.claimsOn uuid) := by
  intro c hc
  obtain ⟨r, hr, rfl⟩ := List.mem_map.mp hc
  simpa [GPURes.claim] using List.any_eq_false.mp h r hr

/-- Where no holder is exclusive, the requested bytes are all that is claimed. -/
theorem requestedBytes_eq (h : l.hasWholeDeviceHolder uuid = false) :
    l.requestedBytes uuid = claimed (l.claimsOn uuid) := by
  have hall : (l.findReservations uuid).filter (fun r => !r.wholeDevice) =
      l.findReservations uuid := by
    refine List.filter_eq_self.mpr fun r hr => ?_
    simpa using List.any_eq_false.mp h r hr
  rw [NodeDeviceLedger.requestedBytes, hall, claimed, NodeDeviceLedger.claimsOn, List.map_map]
  rfl

/-- A positive amount that fits the usable memory has room beside the present holders. -/
theorem room_of_usable {need : Int} (hpos : 0 < need)
    (hwhole : l.hasWholeDeviceHolder dev.uuid = false) (h : need ≤ usable l dev 1) :
    need ≤ dev.vramBytes - (reservedVRAMFloor +
      reservedVRAMPerInstance * ((l.claimsOn dev.uuid).length + 1)) -
      claimed (l.claimsOn dev.uuid) := by
  have hfree : usable l dev 1 = 0 ∨ usable l dev 1 =
      dev.vramBytes - l.reservedBytesWith dev.uuid 1 - l.requestedBytes dev.uuid := by
    simp only [usable]
    split_ifs
    · exact Or.inl rfl
    · exact Or.inr rfl
  rcases hfree with hzero | heq
  · omega
  · rw [heq, requestedBytes_eq hwhole, NodeDeviceLedger.reservedBytesWith] at h
    simpa [NodeDeviceLedger.claimsOn] using h

end Device

/-- A change of the ledger is made of moves on each device of the inventory, and
claims nothing outside it. -/
structure LedgerMove (devices : List GPUDevice) (l l' : NodeDeviceLedger) : Prop where
  known : ∀ r' ∈ l'.reservations,
    (∃ r ∈ l.reservations, r.deviceUUID = r'.deviceUUID) ∨
      ∃ dev ∈ devices, dev.uuid = r'.deviceUUID
  moves : ∀ dev ∈ devices,
    ReflTransGen (DeviceMove dev) (l.claimsOn dev.uuid) (l'.claimsOn dev.uuid)

section Moves

variable {devices : List GPUDevice} {l l' l'' : NodeDeviceLedger}

/-- An untouched ledger. -/
theorem LedgerMove.refl (l : NodeDeviceLedger) : LedgerMove devices l l :=
  ⟨fun r hr => Or.inl ⟨r, hr, rfl⟩, fun _ _ => .refl⟩

/-- Moves compose. -/
theorem LedgerMove.trans (h : LedgerMove devices l l') (h' : LedgerMove devices l' l'') :
    LedgerMove devices l l'' := by
  refine ⟨fun r'' hr'' => ?_, fun dev hdev => (h.moves dev hdev).trans (h'.moves dev hdev)⟩
  rcases h'.known r'' hr'' with ⟨r', hr', heq⟩ | hdev
  · rw [← heq]
    exact h.known r' hr'
  · exact Or.inr hdev

/-- Dropping rows lets holders leave. -/
theorem dropWhere_move (l : NodeDeviceLedger) (p : GPURes → Bool) :
    LedgerMove devices l (dropWhere l p).1 := by
  refine ⟨fun r hr => Or.inl ⟨r, List.mem_of_mem_filter hr, rfl⟩, fun dev _ => .single (.drop ?_)⟩
  exact (List.filter_sublist.filter _).map _

/-- What the claims are read from: the device and the claim of every row. -/
def NodeDeviceLedger.tags (l : NodeDeviceLedger) : List (String × Claim) :=
  l.reservations.map fun r => (r.deviceUUID, r.claim)

theorem claimsOn_eq (l : NodeDeviceLedger) (uuid : String) :
    l.claimsOn uuid = (l.tags.filter fun t => t.1 = uuid).map Prod.snd := by
  rw [NodeDeviceLedger.tags, List.filter_map, List.map_map]
  rfl

/-- A write that keeps the device and the claim of every row moves nothing. -/
theorem LedgerMove.of_tags (h : l'.tags = l.tags) : LedgerMove devices l l' := by
  refine ⟨fun r' hr' => Or.inl ?_, fun dev _ => ?_⟩
  · have hmem : (r'.deviceUUID, r'.claim) ∈ l.tags := h ▸ List.mem_map_of_mem hr'
    obtain ⟨r, hr, he⟩ := List.mem_map.mp hmem
    exact ⟨r, hr, congrArg Prod.fst he⟩
  · rw [claimsOn_eq, claimsOn_eq, h]

theorem stamp_tags (instanceID : String) (rows : List GPURes) (i : ℕ) :
    (stamp instanceID rows i).map (fun r => (r.deviceUUID, r.claim)) =
      rows.map fun r => (r.deviceUUID, r.claim) := by
  refine List.ext_getElem? fun j => ?_
  rw [stamp, List.getElem?_map, List.getElem?_map, List.getElem?_modify]
  rcases rows[j]? with _ | r
  · rfl
  · by_cases hij : i = j <;> simp [hij, GPURes.claim]

theorem foldl_stamp_tags (instanceID : String) (targets : List ℕ) (rows : List GPURes) :
    (targets.foldl (stamp instanceID) rows).map (fun r => (r.deviceUUID, r.claim)) =
      rows.map fun r => (r.deviceUUID, r.claim) := by
  induction targets generalizing rows with
  | nil => rfl
  | cons i targets ih => rw [List.foldl_cons, ih, stamp_tags]

/-- Binding changes who holds a claim, never what is claimed. -/
theorem bindRows_move {ns service instanceID : String} {named : List String}
    (h : (bindRows ns service instanceID named l).1 = some l') : LedgerMove devices l l' := by
  unfold bindRows at h
  simp only at h
  split_ifs at h
  cases h
  exact .of_tags (foldl_stamp_tags instanceID _ l.reservations)

variable {parseMemory : MemoryParser} {req : Request} {p : Placement}

theorem claimsOn_appendReservations (l : NodeDeviceLedger) (uuid : String) :
    (appendReservations parseMemory l p req).claimsOn uuid = l.claimsOn uuid ++
      List.replicate (p.deviceUUIDs.count uuid)
        ⟨!req.gpu.sharesDevice, vramBytes parseMemory req.gpu⟩ := by
  have hsame : p.deviceUUIDs.filter (fun u => u = uuid) =
      List.replicate (p.deviceUUIDs.count uuid) uuid := by
    simpa only [eq_comm, beq_eq_decide] using List.filter_beq (l := p.deviceUUIDs) uuid
  rw [NodeDeviceLedger.claimsOn, NodeDeviceLedger.findReservations, appendReservations,
    List.filter_append, List.map_append, List.filter_map, List.map_map]
  refine congrArg (l.claimsOn uuid ++ ·) ?_
  change (p.deviceUUIDs.filter fun u => u = uuid).map _ = _
  rw [hsame, List.map_replicate]
  rfl

/-- Recording a placement adds one holder to each chosen device. -/
theorem appendReservations_move (hd : DistinctKeys GPUDevice.uuid devices)
    (hvalid : req.gpu.Validated parseMemory)
    (h : chooseDevices parseMemory devices (some l) req.ns req.gpu = .ok p) :
    LedgerMove devices l (appendReservations parseMemory l p req) := by
  obtain ⟨need, hneed, hnodup, htake, hone⟩ := chooseDevices_spec hd h
  refine ⟨fun r hr => ?_, fun dev hdev => ?_⟩
  · rcases List.mem_append.mp hr with hr | hr
    · exact Or.inl ⟨r, hr, rfl⟩
    · obtain ⟨uuid, hu, rfl⟩ := List.mem_map.mp hr
      obtain ⟨dev, hdev, he, _⟩ := htake uuid hu
      exact Or.inr ⟨dev, hdev, he⟩
  rw [claimsOn_appendReservations]
  by_cases hu : dev.uuid ∈ p.deviceUUIDs
  · obtain ⟨dev', hdev', he, hcan⟩ := htake dev.uuid hu
    obtain rfl : dev' = dev := hd.eq_of_key hdev' hdev he
    rw [List.count_eq_one_of_mem hnodup hu]
    refine .single ?_
    cases hs : req.gpu.sharesDevice with
    | false =>
      have hempty : l.claimsOn dev'.uuid = [] := by
        rw [NodeDeviceLedger.claimsOn, hcan.free hs, List.map_nil]
      rw [hempty]
      exact .exclusive rfl (by simp [vramBytes, hs])
    | true =>
      obtain ⟨v, hparse, hpos⟩ := hvalid.vram_pos hs
      obtain rfl : v = need := by simpa [neededBytes, hs, hparse] using hneed
      have hbytes : vramBytes parseMemory req.gpu = v := by simp [vramBytes, hs, hparse]
      rw [hbytes]
      exact .share (shared_claimsOn hcan.notExclusive) rfl hpos.le
        (room_of_usable hpos hcan.notExclusive (hcan.room hs))
  · rw [List.count_eq_zero_of_not_mem hu, List.replicate_zero, List.append_nil]

end Moves

/-- The ledger claims devices of the inventory only, and the accounts of each are sound. -/
structure Accounted (devices : List GPUDevice) (l : NodeDeviceLedger) : Prop where
  known : ∀ r ∈ l.reservations, ∃ dev ∈ devices, dev.uuid = r.deviceUUID
  sound : ∀ dev ∈ devices, DeviceSound dev (l.claimsOn dev.uuid)

/-- Every move keeps the accounts. -/
theorem LedgerMove.accounted {devices : List GPUDevice} {l l' : NodeDeviceLedger}
    (hm : LedgerMove devices l l') (h : Accounted devices l) : Accounted devices l' := by
  refine ⟨fun r' hr' => ?_, fun dev hdev => ?_⟩
  · rcases hm.known r' hr' with ⟨r, hr, heq⟩ | hdev
    · rw [← heq]
      exact h.known r hr
    · exact hdev
  · exact (h.sound dev hdev).moves (by decide) (hm.moves dev hdev)

/-- An empty ledger. -/
theorem accounted_of_empty {devices : List GPUDevice} {l : NodeDeviceLedger}
    (h : l.reservations = []) : Accounted devices l := by
  have hclaims : ∀ uuid, l.claimsOn uuid = [] := fun uuid => by
    simp [NodeDeviceLedger.claimsOn, NodeDeviceLedger.findReservations, h]
  refine ⟨fun r hr => ?_, fun dev _ => ?_⟩
  · rw [h] at hr
    exact absurd hr List.not_mem_nil
  · rw [hclaims]
    exact ⟨fun c hc => absurd hc List.not_mem_nil, fun hne => absurd rfl hne⟩

/-- Every ledger in the store is accounted for against the inventory of its node. -/
def StoreSound (inventory : String → List GPUDevice) (s : Store) : Prop :=
  ∀ nodeID l, s nodeID = some l → Accounted (inventory nodeID) l

section Accesses

variable {α : Type} {inventory : String → List GPUDevice} {nodeID : String}

/-- One ledger is written. -/
theorem StoreSound.update {s : Store} {l : NodeDeviceLedger} (h : StoreSound inventory s)
    (hl : Accounted (inventory nodeID) l) :
    StoreSound inventory (Function.update s nodeID (some l)) := by
  intro id' l' hl'
  by_cases he : id' = nodeID
  · subst he
    obtain rfl : l = l' := by simpa using hl'
    exact hl
  · exact h id' l' (by simpa [he] using hl')

/-- An update leaves the store as it is, or writes what its callback made of the
row and succeeds. -/
theorem updateRow_cases (fault : Option StoreFault) (nodeID : String)
    (mutate : NodeDeviceLedger → Mutated α) (s : Store) :
    (updateRow fault nodeID mutate s).1 = s ∨
      ∃ l l' seen, s nodeID = some l ∧ mutate l = .write l' seen ∧
        updateRow fault nodeID mutate s =
          (Function.update s nodeID (some l'), ⟨some seen, none⟩) := by
  fun_cases updateRow fault nodeID mutate s <;> try exact Or.inl rfl
  split
  · exact Or.inl rfl
  · exact Or.inr ⟨_, _, _, ‹_›, ‹_›, rfl⟩

/-- A write of a row. -/
theorem updateRow_sound {fault : Option StoreFault} {mutate : NodeDeviceLedger → Mutated α}
    (hm : ∀ l l' seen, mutate l = .write l' seen → LedgerMove (inventory nodeID) l l')
    {s : Store} (h : StoreSound inventory s) :
    StoreSound inventory (updateRow fault nodeID mutate s).1 := by
  rcases updateRow_cases fault nodeID mutate s with heq | ⟨l, l', seen, hl, hw, heq⟩
  · rwa [heq]
  · rw [heq]
    exact h.update ((hm l l' seen hw).accounted (h nodeID l hl))

/-- A first row. -/
theorem createRow_sound {fault : Option Err} {s : Store} (h : StoreSound inventory s) :
    StoreSound inventory (createRow fault ⟨nodeID, []⟩ s).1 := by
  fun_cases createRow fault ⟨nodeID, []⟩ s <;> try exact h
  exact h.update (accounted_of_empty rfl)

/-- The update loop. -/
theorem updateLedger_keeps {faults : Faults} {mutate : NodeDeviceLedger → Mutated α}
    (hm : ∀ l l' seen, mutate l = .write l' seen → LedgerMove (inventory nodeID) l l') :
    (updateLedger faults nodeID mutate).Keeps (StoreSound inventory) := by
  refine Prog.Keeps.bind (.of_atomic fun s hs => updateRow_sound hm hs) fun r => ?_
  split
  · exact Prog.Keeps.bind (.of_atomic fun s hs => createRow_sound hs)
      fun _ => .of_atomic fun s hs => updateRow_sound hm hs
  · trivial

theorem mutate_keeps {fault : Option StoreFault}
    {fn : NodeDeviceLedger → Option NodeDeviceLedger × α}
    (hm : ∀ l l', (fn l).1 = some l' → LedgerMove (inventory nodeID) l l') :
    (mutate fault nodeID fn).Keeps (StoreSound inventory) := by
  refine Prog.Keeps.bind (.of_atomic fun s hs => updateRow_sound ?_ hs) fun _ => trivial
  intro l l' seen hw
  rcases hfn : fn l with ⟨_ | l₁, seen₁⟩
  · simp [hfn] at hw
  · obtain ⟨rfl, _⟩ : { l₁ with nodeID := nodeID } = l' ∧ seen₁ = seen := by simpa [hfn] using hw
    have h₁ := hm l l₁ (by rw [hfn])
    exact ⟨h₁.known, h₁.moves⟩

end Accesses

section Calls

variable (parseMemory : MemoryParser) (inventory : String → List GPUDevice)

/-- The request has passed validation, and is checked against the inventory of
the node whose ledger it is recorded in. -/
def Request.Valid (node : Option Node) (req : Request) : Prop :=
  req.gpu.Validated parseMemory ∧ ∀ n, node = some n → n.devices = inventory req.nodeID

/-- The request of a call, where it has one, is valid. -/
def Call.Valid : Call → Prop
  | .reserve _ node req => req.Valid parseMemory inventory node
  | .reserveReplacing _ node _ req => req.Valid parseMemory inventory node
  | _ => True

variable {parseMemory inventory}

/-- A reservation. -/
theorem reserveAfter_keeps {prepare : NodeDeviceLedger → NodeDeviceLedger} {faults : Faults}
    {node : Option Node} {req : Request} (hd : ∀ id, DistinctKeys GPUDevice.uuid (inventory id))
    (hprepare : ∀ l, LedgerMove (inventory req.nodeID) l (prepare l))
    (hvalid : req.Valid parseMemory inventory node) :
    (reserveAfter parseMemory prepare faults node req).Keeps (StoreSound inventory) := by
  unfold reserveAfter
  split
  · trivial
  · rename_i hcheck
    rcases node with _ | n
    · cases hcheck
    have hdev : ((some n).map Node.devices).getD [] = inventory req.nodeID := hvalid.2 n rfl
    refine Prog.Keeps.bind (updateLedger_keeps fun l l' seen hw => ?_) fun _ => trivial
    rw [hdev, placeOn] at hw
    rcases hp : chooseDevices parseMemory (inventory req.nodeID) (some (prepare l)) req.ns req.gpu
      with e | p
    · simp [hp] at hw
    · obtain ⟨rfl, _⟩ : appendReservations parseMemory (prepare l) p req = l' ∧ p = seen := by
        simpa [hp] using hw
      exact (hprepare l).trans (appendReservations_move (hd _) hvalid.1 hp)

/-- A release. -/
theorem releaseWhere_keeps (fault : Option StoreFault) (nodeID : String) (p : GPURes → Bool) :
    (releaseWhere fault nodeID p).Keeps (StoreSound inventory) := by
  refine Prog.Keeps.bind (mutate_keeps fun l l' hl' => ?_) fun _ => trivial
  split_ifs at hl'
  cases hl'
  exact dropWhere_move l p

/-- A binding. -/
theorem bindInstance_keeps (fault : Option StoreFault) (nodeID ns service instanceID : String)
    (devices : List String) :
    (bindInstance fault nodeID ns service instanceID devices).Keeps (StoreSound inventory) := by
  fun_cases bindInstance fault nodeID ns service instanceID devices <;> try trivial
  exact Prog.Keeps.bind (mutate_keeps fun _ _ h => bindRows_move h) fun _ => trivial

/-- Every access of every valid call keeps every ledger sound. -/
theorem Call.code_keeps (hd : ∀ id, DistinctKeys GPUDevice.uuid (inventory id)) {c : Call}
    (hc : c.Valid parseMemory inventory) :
    (c.code parseMemory).Keeps (StoreSound inventory) := by
  cases c with
  | reserve faults node req =>
    exact (reserveAfter_keeps hd (fun l => .refl l) hc).bind fun _ => trivial
  | reserveReplacing faults node releaseInstanceID req =>
    refine (reserveAfter_keeps hd (fun l => ?_) hc).bind fun _ => trivial
    split
    · exact dropWhere_move l _
    · exact .refl l
  | bindInstance fault nodeID ns service instanceID devices =>
    exact (bindInstance_keeps fault nodeID ns service instanceID devices).bind fun _ => trivial
  | release fault nodeID instanceID =>
    refine Prog.Keeps.bind ?_ fun _ => trivial
    unfold Gpu.release
    split
    · trivial
    · exact releaseWhere_keeps fault nodeID _
  | releaseService fault nodeID ns service =>
    exact (releaseWhere_keeps fault nodeID _).bind fun _ => trivial

end Calls

/-- The reservations that the store has for a node. -/
def reservationsOf (s : Store) (nodeID : String) : List GPURes :=
  ((s nodeID).map NodeDeviceLedger.reservations).getD []

/-- No ledger is changed; an absent one may have been created empty. -/
structure Unchanged (s s' : Store) : Prop where
  rows : ∀ nodeID l, s nodeID = some l → s' nodeID = some l
  reservations : ∀ nodeID, reservationsOf s' nodeID = reservationsOf s nodeID

theorem Unchanged.refl (s : Store) : Unchanged s s := ⟨fun _ _ h => h, fun _ => rfl⟩

/-- All accesses of a program on the way to a result leave the ledgers unchanged. -/
def AllUnchanged (accesses : List (Store × Store)) : Prop :=
  ∀ access ∈ accesses, Unchanged access.1 access.2

section Errors

variable {α : Type} {nodeID : String}

theorem AllUnchanged.append {as bs : List (Store × Store)} (ha : AllUnchanged as)
    (hb : AllUnchanged bs) : AllUnchanged (as ++ bs) := fun access h =>
  (List.mem_append.mp h).elim (ha access) (hb access)

theorem AllUnchanged.singleton {s s' : Store} (h : Unchanged s s') : AllUnchanged [(s, s')] := by
  intro access hmem
  obtain rfl := List.mem_singleton.mp hmem
  exact h

theorem AllUnchanged.nil : AllUnchanged [] := fun _ h => absurd h List.not_mem_nil

/-- Creating a row changes no row that is there, and no reservation. -/
theorem createRow_unchanged (fault : Option Err) (s : Store) :
    Unchanged s (createRow fault ⟨nodeID, []⟩ s).1 := by
  fun_cases createRow fault ⟨nodeID, []⟩ s <;> try exact .refl s
  rename_i hnone
  refine ⟨fun id' l hl => ?_, fun id' => ?_⟩
  · have hne : id' ≠ nodeID := by
      rintro rfl
      simp [hnone] at hl
    simpa [hne] using hl
  · by_cases he : id' = nodeID
    · subst he
      simp_all [reservationsOf]
    · simp [reservationsOf, he]

variable {fault : Option StoreFault}

/-- An update that reports an error has not written. -/
theorem updateRow_unchanged {mutate : NodeDeviceLedger → Mutated α} {s : Store}
    (herr : (updateRow fault nodeID mutate s).2.err ≠ none) :
    Unchanged s (updateRow fault nodeID mutate s).1 := by
  rcases updateRow_cases fault nodeID mutate s with heq | ⟨_, _, _, _, _, heq⟩
  · rw [heq]
    exact .refl s
  · rw [heq] at herr
    exact absurd rfl herr

theorem updateLedger_unchanged {faults : Faults} {mutate : NodeDeviceLedger → Mutated α}
    {accesses : List (Store × Store)} {r : Updated α}
    (h : (updateLedger faults nodeID mutate).Trace accesses r) (herr : r.err ≠ none) :
    AllUnchanged accesses := by
  obtain ⟨r₁, first, rest, rfl, hfirst, hrest⟩ := h.of_bind
  obtain ⟨s, rfl, rfl⟩ := hfirst.of_atomic
  split at hrest
  · rename_i hmissing
    obtain ⟨_, second, third, rfl, hsecond, hthird⟩ := hrest.of_bind
    obtain ⟨s₂, rfl, _⟩ := hsecond.of_atomic
    obtain ⟨s₃, rfl, rfl⟩ := hthird.of_atomic
    have herr₁ : (updateRow faults.update nodeID mutate s).2.err ≠ none := by
      intro hnone
      simp [hnone] at hmissing
    exact (AllUnchanged.singleton (updateRow_unchanged herr₁)).append
      ((AllUnchanged.singleton (createRow_unchanged _ s₂)).append
        (.singleton (updateRow_unchanged herr)))
  · obtain ⟨rfl, rfl⟩ := hrest.of_ret
    exact (AllUnchanged.singleton (updateRow_unchanged herr)).append .nil

/-- What a `mutate` comes to: no ledger is changed, or its callback wrote and it succeeded. -/
theorem mutate_trace {fn : NodeDeviceLedger → Option NodeDeviceLedger × α}
    {accesses : List (Store × Store)} {r : Updated α}
    (h : (mutate fault nodeID fn).Trace accesses r) :
    AllUnchanged accesses ∨ ∃ l l' seen, fn l = (some l', seen) ∧ r = ⟨some seen, none⟩ := by
  obtain ⟨r₁, hfirst, rfl⟩ := h.of_bind_ret
  obtain ⟨s, rfl, rfl⟩ := hfirst.of_atomic
  rcases updateRow_cases fault nodeID _ s with heq | ⟨l, l', seen, _, hw, heq⟩
  · left
    rw [heq]
    exact .singleton (.refl s)
  · right
    rcases hfn : fn l with ⟨_ | l₁, seen₁⟩
    · simp [hfn] at hw
    · obtain ⟨_, rfl⟩ : { l₁ with nodeID := nodeID } = l' ∧ seen₁ = seen := by simpa [hfn] using hw
      exact ⟨l, l₁, seen₁, hfn, by simp [heq]⟩

theorem bindRows_unmatched {ns service instanceID : String} {devices unmatched : List String}
    {l l' : NodeDeviceLedger}
    (h : bindRows ns service instanceID devices l = (some l', unmatched)) : unmatched = [] := by
  unfold bindRows at h
  simp only at h
  split_ifs at h with hnone
  · cases h
  · have hun := congrArg Prod.snd h
    simp only at hun
    rw [hun] at hnone
    exact List.length_eq_zero_iff.mp (by omega)

variable {accesses : List (Store × Store)} {e : Err}

/-- A failed reservation changes nothing. -/
theorem reserveAfter_error {parseMemory : MemoryParser}
    {prepare : NodeDeviceLedger → NodeDeviceLedger} {faults : Faults} {node : Option Node}
    {req : Request}
    (h : (reserveAfter parseMemory prepare faults node req).Trace accesses (.error e)) :
    AllUnchanged accesses := by
  unfold reserveAfter at h
  split at h
  · obtain ⟨rfl, _⟩ := h.of_ret
    exact .nil
  · obtain ⟨r, hupdate, hr⟩ := h.of_bind_ret
    refine updateLedger_unchanged hupdate fun hnone => ?_
    simp [hnone] at hr

/-- Nor does a failed release. -/
theorem releaseWhere_error {p : GPURes → Bool}
    (h : (releaseWhere fault nodeID p).Trace accesses (.error e)) : AllUnchanged accesses := by
  obtain ⟨r, hmutate, hr⟩ := h.of_bind_ret
  rcases mutate_trace hmutate with hun | ⟨_, _, _, _, rfl⟩
  · exact hun
  · cases hr

/-- Nor does a failed binding. -/
theorem bindInstance_error {ns service instanceID : String} {devices : List String}
    (h : (bindInstance fault nodeID ns service instanceID devices).Trace accesses (.error e)) :
    AllUnchanged accesses := by
  revert h
  fun_cases bindInstance fault nodeID ns service instanceID devices <;> intro h <;>
    try (obtain ⟨rfl, _⟩ := h.of_ret; exact .nil)
  obtain ⟨r, hmutate, hr⟩ := h.of_bind_ret
  rcases mutate_trace hmutate with hun | ⟨l, l', seen, hfn, rfl⟩
  · exact hun
  · obtain rfl := bindRows_unmatched hfn
    simp at hr

theorem map_eq_error {β γ : Type} {r : Except Err β} {f : β → γ} (h : .error e = r.map f) :
    r = .error e := by
  cases r with
  | error e' =>
    cases h
    rfl
  | ok a => cases h

/-- A call that ends in an error has changed no ledger on its way. -/
theorem Call.error_unchanged {parseMemory : MemoryParser} {c : Call}
    (h : (c.code parseMemory).Trace accesses (.error e)) : AllUnchanged accesses := by
  cases c with
  | reserve faults node req =>
    obtain ⟨r, hcall, hr⟩ := Prog.Trace.of_bind_ret h
    exact reserveAfter_error (map_eq_error hr ▸ hcall)
  | reserveReplacing faults node releaseInstanceID req =>
    obtain ⟨r, hcall, hr⟩ := Prog.Trace.of_bind_ret h
    exact reserveAfter_error (map_eq_error hr ▸ hcall)
  | bindInstance fault nodeID ns service instanceID devices =>
    obtain ⟨r, hcall, hr⟩ := Prog.Trace.of_bind_ret h
    exact bindInstance_error (map_eq_error hr ▸ hcall)
  | release fault nodeID instanceID =>
    obtain ⟨r, hcall, hr⟩ := Prog.Trace.of_bind_ret h
    rw [map_eq_error hr] at hcall
    unfold Gpu.release at hcall
    split at hcall
    · obtain ⟨rfl, _⟩ := hcall.of_ret
      exact .nil
    · exact releaseWhere_error hcall
  | releaseService fault nodeID ns service =>
    obtain ⟨r, hcall, hr⟩ := Prog.Trace.of_bind_ret h
    exact releaseWhere_error (map_eq_error hr ▸ hcall)

end Errors

/-- What the holders of a device must satisfy: one of them has it to itself, or
their shares and the memory withheld from them fit the device. -/
def NotOvercommitted (dev : GPUDevice) (held : List GPURes) : Prop :=
  (∃ r, held = [r] ∧ r.wholeDevice = true) ∨
    (∀ r ∈ held, r.wholeDevice = false) ∧
      (held.map GPURes.vramBytes).sum + 512 * 2 ^ 20 + held.length * (400 * 2 ^ 20) ≤ dev.vramBytes

/-- What fits is not overcommitted. -/
theorem notOvercommitted_of_fits {l : NodeDeviceLedger} {dev : GPUDevice}
    (h : Fits reservedVRAMFloor reservedVRAMPerInstance dev.vramBytes (l.claimsOn dev.uuid)) :
    NotOvercommitted dev (l.findReservations dev.uuid) := by
  rcases h with ⟨c, hone, hc⟩ | ⟨hshared, hle⟩
  · obtain ⟨r, hr, rfl⟩ := List.map_eq_singleton_iff.mp hone
    exact Or.inl ⟨r, hr, hc⟩
  · refine Or.inr ⟨fun r hr => hshared _ (List.mem_map_of_mem hr), ?_⟩
    have hsum : ((l.findReservations dev.uuid).map GPURes.vramBytes).sum =
        claimed (l.claimsOn dev.uuid) := by
      rw [claimed, NodeDeviceLedger.claimsOn, List.map_map]
      rfl
    rw [NodeDeviceLedger.claimsOn, List.length_map] at hle
    rw [hsum]
    simp only [reservedVRAMFloor, reservedVRAMPerInstance] at hle
    rw [NodeDeviceLedger.claimsOn]
    linarith

/-- On a sound ledger the terms of the usable memory stay within one reserve of
the device's own size, so no machine integer overflows on the way. -/
theorem usable_terms_bounded {l : NodeDeviceLedger} {dev : GPUDevice}
    (hsound : DeviceSound dev (l.claimsOn dev.uuid))
    (hwhole : l.hasWholeDeviceHolder dev.uuid = false) (hpos : 0 ≤ dev.vramBytes) :
    (0 ≤ l.reservedBytesWith dev.uuid 1 ∧
      l.reservedBytesWith dev.uuid 1 ≤ dev.vramBytes + 912 * 2 ^ 20) ∧
    (0 ≤ l.requestedBytes dev.uuid ∧ l.requestedBytes dev.uuid ≤ dev.vramBytes) ∧
    -(912 * 2 ^ 20) ≤
      dev.vramBytes - l.reservedBytesWith dev.uuid 1 - l.requestedBytes dev.uuid := by
  have hlen : (l.claimsOn dev.uuid).length = (l.findReservations dev.uuid).length :=
    List.length_map _
  have hclaimed : 0 ≤ claimed (l.claimsOn dev.uuid) := by
    refine List.sum_nonneg fun a ha => ?_
    obtain ⟨c, hc, rfl⟩ := List.mem_map.mp ha
    exact hsound.nonneg c hc
  have hfit : l.claimsOn dev.uuid = [] ∨ claimed (l.claimsOn dev.uuid) + reservedVRAMFloor +
      reservedVRAMPerInstance * (l.claimsOn dev.uuid).length ≤ dev.vramBytes := by
    by_cases hne : l.claimsOn dev.uuid = []
    · exact Or.inl hne
    · rcases hsound.fits hne with ⟨c, hone, hc⟩ | ⟨_, hle⟩
      · have hshared := shared_claimsOn hwhole c (hone ▸ List.mem_cons_self)
        simp [hc] at hshared
      · exact Or.inr hle
  rw [requestedBytes_eq hwhole, NodeDeviceLedger.reservedBytesWith, ← hlen]
  simp only [reservedVRAMFloor, reservedVRAMPerInstance] at hfit ⊢
  rcases hfit with hnil | hle
  · simp only [hnil, claimed, List.length_nil, List.map_nil, List.sum_nil]
    omega
  · omega

section Runs

variable {parseMemory : MemoryParser} {inventory : String → List GPUDevice} {s : Store}

/-- In a store of empty ledgers there is nothing to account for. -/
theorem storeSound_of_empty (h : ∀ nodeID, reservationsOf s nodeID = []) :
    StoreSound inventory s := fun nodeID l hl =>
  accounted_of_empty (by simpa [reservationsOf, hl] using h nodeID)

/-- Every interleaving of valid calls keeps every ledger sound. -/
theorem storeSound_interleaved (hd : ∀ id, DistinctKeys GPUDevice.uuid (inventory id))
    (hs : StoreSound inventory s) {acts : List (Sched Call)}
    (hvalid : ∀ c, Sched.start c ∈ acts → c.Valid parseMemory inventory)
    {p : Pool Store (Except Err (Option Placement))}
    (h : exec (Pool.step (Call.code parseMemory)) ⟨s, []⟩ acts = some p) :
    StoreSound inventory p.shared :=
  Pool.invariant (fun c hc => Call.code_keeps hd (hvalid c hc))
    ⟨hs, fun _ ht => absurd ht List.not_mem_nil⟩ h

/-- From empty ledgers, no interleaving of valid calls overcommits a device, and
a call that ends in an error has changed no ledger. -/
theorem ledger_never_overcommits (hd : ∀ id, DistinctKeys GPUDevice.uuid (inventory id))
    (hempty : ∀ nodeID, reservationsOf s nodeID = []) {acts : List (Sched Call)}
    (hvalid : ∀ c, Sched.start c ∈ acts → c.Valid parseMemory inventory)
    {p : Pool Store (Except Err (Option Placement))}
    (h : exec (Pool.step (Call.code parseMemory)) ⟨s, []⟩ acts = some p) :
    (∀ nodeID l, p.shared nodeID = some l → ∀ r ∈ l.reservations,
      ∃ dev ∈ inventory nodeID, dev.uuid = r.deviceUUID) ∧
    (∀ nodeID l, p.shared nodeID = some l → ∀ dev ∈ inventory nodeID,
      l.findReservations dev.uuid ≠ [] → NotOvercommitted dev (l.findReservations dev.uuid)) ∧
    ∀ (c : Call) accesses e, (c.code parseMemory).Trace accesses (.error e) →
      ∀ access ∈ accesses, Unchanged access.1 access.2 := by
  have hsound := storeSound_interleaved hd (storeSound_of_empty hempty) hvalid h
  refine ⟨fun nodeID l hl => (hsound nodeID l hl).known, fun nodeID l hl dev hdev hheld => ?_,
    fun c accesses e htrace => Call.error_unchanged htrace⟩
  have hne : l.claimsOn dev.uuid ≠ [] := by
    simpa only [NodeDeviceLedger.claimsOn, ne_eq, List.map_eq_nil_iff] using hheld
  exact notOvercommitted_of_fits (((hsound nodeID l hl).sound dev hdev).fits hne)

/-- Two services race for the first card of a node that has no ledger yet: both
find no row, both try to create it, and both reservations are kept. -/
theorem ledger_never_overcommits_race :
    let card : GPUDevice := ⟨"GPU-a", "L40S", 48 * 2 ^ 30, false⟩
    let parse : MemoryParser := fun _ => .ok (20 * 2 ^ 30)
    let call (service : String) : Call := .reserve ⟨none, none, none⟩
      (some ⟨"node-1", [card], true⟩)
      ⟨"node-1", "default", service, "", none, ⟨0, "20Gi", false⟩⟩
    let acts : List (Sched Call) := [.start (call "chat"), .start (call "embed"), .resume 0,
      .resume 1, .resume 0, .resume 0, .resume 1, .resume 1]
    ∃ (p : Pool Store (Except Err (Option Placement))) (l : NodeDeviceLedger),
      exec (Pool.step (Call.code parse)) ⟨fun _ => none, []⟩ acts = some p ∧
      p.shared "node-1" = some l ∧
      (l.findReservations "GPU-a").map GPURes.serviceName = ["chat", "embed"] ∧
      NotOvercommitted card (l.findReservations "GPU-a") := by
  intro card parse call acts
  have hvalid : ∀ c, Sched.start c ∈ acts → c.Valid parse fun _ => [card] := by
    have hreq : (⟨0, "20Gi", false⟩ : GPURequest).Validated parse :=
      ⟨⟨some ⟨0, "20Gi", false⟩, none, []⟩, rfl, by decide⟩
    have hcall : ∀ service, (call service).Valid parse fun _ => [card] := by
      refine fun service => ⟨hreq, fun n hn => ?_⟩
      cases hn
      rfl
    intro c hc
    simp only [acts, List.mem_cons, Sched.start.injEq, reduceCtorEq, List.not_mem_nil,
      or_false] at hc
    rcases hc with rfl | rfl
    · exact hcall "chat"
    · exact hcall "embed"
  obtain ⟨p, hrun, hnames⟩ : ∃ p : Pool Store (Except Err (Option Placement)),
      exec (Pool.step (Call.code parse)) ⟨fun _ => none, []⟩ acts = some p ∧
      (p.shared "node-1").map (fun l => (l.findReservations "GPU-a").map GPURes.serviceName) =
        some ["chat", "embed"] :=
    ⟨_, rfl, by decide⟩
  obtain ⟨l, hl, hheld⟩ := Option.map_eq_some_iff.mp hnames
  have hne : l.findReservations "GPU-a" ≠ [] := by
    intro hnil
    simp [hnil] at hheld
  have hsound := ledger_never_overcommits (fun _ => by decide) (fun _ => rfl) hvalid hrun
  exact ⟨p, l, hrun, hl, hheld, hsound.2.1 "node-1" l hl card List.mem_cons_self hne⟩

end Runs

end Rune.Gpu
