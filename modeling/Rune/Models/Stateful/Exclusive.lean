import Rune.Models.Stateful.Slots

/-!
# One container for each slot

A slot is orderly when one instance holds it, or none, and every other one is
retired for good. A restart and the slot's part of a pass each keep an orderly slot
orderly, with at most one container started, if nothing else works on it meanwhile.
No lock keeps them apart, so the condition on a run is that a restart overlaps on a
slot neither with a pass nor with another restart.
-/

namespace Rune.Stateful

open Rune.Core List

/-- At most one instance has a started container. -/
def Slot.Exclusive (s : Slot) : Prop := ∀ j ∈ s.started, ∀ k ∈ s.started, j = k

/-- Nothing will start the instance again. -/
def Instance.IsRetired (x : Instance) : Prop :=
  x.status = .deleted ∨ x.status = .failed ∧ x.failedAt = true ∧ x.containerEverCreatedAt = true

/-- The instance is listed, and its container has been created or the attempts
to create it have failed. -/
structure Instance.IsSettled (x : Instance) : Prop where
  listed : x.isListed = true
  created : x.containerEverCreatedAt = true ∨ x.isStuckInCreate = true ∧ x.failedAt = false

theorem Instance.isSettled_launched (x : Instance) (a : Attempt) : (x.launched a).IsSettled where
  listed := by cases ha : a.readiness <;> simp [Instance.launched, Instance.isListed, ha]
  created := .inl rfl

/-- A failed attempt leaves the instance settled, for it sets no failure time. -/
theorem Instance.isSettled_of_failed {x : Instance} (hx : x.failedAt = false) (exhausted : Bool) :
    Instance.IsSettled { x with status := if exhausted then .stalled else .failed } where
  listed := by cases exhausted <;> simp [Instance.isListed, hx]
  created := by
    cases x.containerEverCreatedAt with
    | true => exact .inl rfl
    | false => exact .inr ⟨by cases exhausted <;> simp [Instance.isStuckInCreate], hx⟩

namespace Slot

/-- Only this instance is not retired. -/
structure HeldBy (k : ℕ) (s : Slot) : Prop where
  inside : k < s.instances.length
  others : ∀ j x, j ≠ k → s.instances[j]? = some x → x.IsRetired
  started : ∀ j ∈ s.started, j = k

/-- No instance holds the slot. -/
structure Vacant (s : Slot) : Prop where
  retired : ∀ x ∈ s.instances, x.IsRetired
  started : s.started = []

/-- The instance holds the slot and nothing is happening to it. -/
structure OccupiedBy (k : ℕ) (s : Slot) : Prop where
  held : s.HeldBy k
  settled : ∃ x, s.instances[k]? = some x ∧ x.IsSettled

/-- The instance holds the slot and its container is being brought up. -/
structure CreatingIn (k : ℕ) (s : Slot) : Prop where
  held : s.HeldBy k
  failedAt : ∃ x, s.instances[k]? = some x ∧ x.failedAt = false

/-- The slot has one instance, or none. -/
def Orderly (s : Slot) : Prop := s.Vacant ∨ ∃ k, s.OccupiedBy k

variable {s : Slot} {k : ℕ} {inst : Instance}

theorem HeldBy.exclusive (h : s.HeldBy k) : s.Exclusive :=
  fun i hi j hj => (h.started i hi).trans (h.started j hj).symm

theorem Vacant.exclusive (h : s.Vacant) : s.Exclusive := by
  intro i hi
  rw [h.started] at hi
  cases hi

theorem Orderly.exclusive (h : s.Orderly) : s.Exclusive := by
  rcases h with h | ⟨k, h⟩
  · exact h.exclusive
  · exact h.held.exclusive

@[simp] theorem getElem?_put (hk : k < s.instances.length) :
    (s.put k inst).instances[k]? = some inst := getElem?_set_self hk

theorem getElem?_modify {f : Instance → Instance} {x : Instance} :
    (s.modify k f).instances[k]? = some x ↔ ∃ y, s.instances[k]? = some y ∧ f y = x := by
  rw [Slot.modify, getElem?_modify_eq, Option.map_eq_map, Option.map_eq_some_iff]

theorem HeldBy.put (h : s.HeldBy k) : (s.put k inst).HeldBy k where
  inside := by simpa [Slot.put] using h.inside
  others j x hj hx := h.others j x hj (by rwa [Slot.put, getElem?_set_ne hj.symm] at hx)
  started := h.started

theorem HeldBy.modify (h : s.HeldBy k) (f : Instance → Instance) : (s.modify k f).HeldBy k where
  inside := by simpa [Slot.modify] using h.inside
  others j x hj hx :=
    h.others j x hj (by rwa [Slot.modify, getElem?_modify_ne _ _ hj.symm] at hx)
  started := h.started

theorem HeldBy.start (h : s.HeldBy k) : (s.start k).HeldBy k :=
  { h with started := fun j hj => (mem_cons.mp hj).elim id (h.started j) }

theorem HeldBy.stop (h : s.HeldBy k) : (s.stop k).HeldBy k :=
  { h with started := fun j hj => h.started j (mem_of_mem_filter hj) }

theorem HeldBy.stopped (h : s.HeldBy k) : (s.stop k).started = [] :=
  filter_eq_nil_iff.mpr fun j hj => by simp [h.started j hj]

theorem HeldBy.creatingIn (h : s.HeldBy k) (hi : inst.failedAt = false) :
    (s.put k inst).CreatingIn k := ⟨h.put, inst, getElem?_put h.inside, hi⟩

theorem HeldBy.occupiedBy (h : s.HeldBy k) (hi : inst.IsSettled) : (s.put k inst).OccupiedBy k :=
  ⟨h.put, inst, getElem?_put h.inside, hi⟩

/-- The slot is vacant once its holder is stopped and retired. -/
theorem HeldBy.vacant (h : s.HeldBy k) (hs : s.started = [])
    (hk : ∀ x, s.instances[k]? = some x → x.IsRetired) : s.Vacant where
  retired x hx := by
    obtain ⟨j, hj⟩ := getElem?_of_mem hx
    by_cases he : j = k
    · exact hk x (he ▸ hj)
    · exact h.others j x he hj
  started := hs

/-- A new instance holds a vacant slot. -/
theorem Vacant.add (h : s.Vacant) : (s.add inst).HeldBy s.instances.length where
  inside := by simp [Slot.add]
  others j x hj hx := by
    rcases lt_or_gt_of_ne hj with hlt | hgt
    · rw [Slot.add, getElem?_append_left hlt] at hx
      exact h.retired x (mem_of_getElem? hx)
    · rw [Slot.add, getElem?_eq_none (by simpa [Nat.succ_le_iff] using hgt)] at hx
      cases hx
  started j hj := by
    have hnil : j ∈ s.started := hj
    rw [h.started] at hnil
    cases hnil

end Slot

section Programs

variable {s : Slot} {k : ℕ} {inst : Instance} {α : Type} {post : α → Slot → Prop}

/-- The rule for a program that begins with a change of the slot. -/
theorem upholds_change {f : Slot → Slot} {p : Unit → Prog Slot α} (hinv : (f s).Exclusive)
    (hrest : (p ()).Upholds Slot.Exclusive post (f s)) :
    (change f >>= p).Upholds Slot.Exclusive post s := ⟨hinv, hrest⟩

/-- A delete vacates the slot that its instance holds. -/
theorem upholds_deleteInstance (h : s.HeldBy k) :
    (deleteInstance k inst).Upholds Slot.Exclusive (fun _ t => t.Vacant) s := by
  have hstop : ∀ t : Slot, t.HeldBy k → (change (·.stop k) >>= fun _ =>
      change (·.put k { inst with status := .deleted })).Upholds Slot.Exclusive
        (fun _ t => t.Vacant) t := by
    intro t ht
    have hvacant : ((t.stop k).put k { inst with status := .deleted }).Vacant := by
      refine ht.stop.put.vacant ht.stopped fun x hx => ?_
      rw [Slot.getElem?_put ht.stop.inside] at hx
      cases hx
      exact .inl rfl
    exact upholds_change ht.stop.exclusive (.of_atomic hvacant.exclusive hvacant)
  unfold deleteInstance
  split
  · exact upholds_change h.put.exclusive (hstop _ h.put)
  · exact hstop s h

/-- After an attempt the instance occupies the slot. -/
def Attempted (k : ℕ) (result : Option Instance) (t : Slot) : Prop :=
  t.OccupiedBy k ∧ ∀ x, result = some x → x.IsSettled

theorem upholds_recordCreateFailure (h : s.CreatingIn k) (a : Attempt) :
    (recordCreateFailure k a).Upholds Slot.Exclusive (fun _ t => t.OccupiedBy k) s := by
  obtain ⟨x, hx, hf⟩ := h.failedAt
  have hheld := h.held.modify fun fresh =>
    { fresh with status := if a.exhausted then .stalled else .failed }
  refine .of_atomic hheld.exclusive ⟨hheld, _, ?_, Instance.isSettled_of_failed hf a.exhausted⟩
  exact Slot.getElem?_modify.mpr ⟨x, hx, rfl⟩

theorem upholds_failure (h : s.CreatingIn k) (a : Attempt) :
    (recordCreateFailure k a >>= fun _ => (return none : Prog Slot (Option Instance))).Upholds
      Slot.Exclusive (Attempted k) s :=
  (upholds_recordCreateFailure h a).bind fun _ _ ht => ⟨ht, nofun⟩

/-- A launch. -/
theorem upholds_launch (h : s.HeldBy k) (hi : inst.failedAt = false) (a : Attempt) :
    (launch k inst a).Upholds Slot.Exclusive (Attempted k) s := by
  have hput : (s.put k { inst with status := .starting }).CreatingIn k := h.creatingIn hi
  refine upholds_change hput.held.exclusive ?_
  cases a.accepted with
  | false => exact upholds_failure hput a
  | true =>
    have hstart := hput.held.start
    refine upholds_change hstart.exclusive (upholds_change hstart.put.exclusive ?_)
    refine ⟨hstart.occupiedBy (inst.isSettled_launched a), fun x hx => ?_⟩
    cases hx
    exact inst.isSettled_launched a

/-- A create. -/
theorem upholds_runCreateAttempt (h : s.CreatingIn k) (hi : inst.failedAt = false) (a : Attempt) :
    (runCreateAttempt k inst a).Upholds Slot.Exclusive (Attempted k) s := by
  unfold runCreateAttempt
  split
  · have hinit : (s.put k { inst with status := .initializing }).CreatingIn k :=
      h.held.creatingIn hi
    split
    · exact upholds_launch h.held hi a
    · exact upholds_change hinit.held.exclusive (upholds_launch hinit.held hi a)
    · have hfail : ((s.put k { inst with status := .initializing }).put k
          { inst with status := .failed }).CreatingIn k := hinit.held.creatingIn hi
      exact upholds_change hinit.held.exclusive
        (upholds_change hfail.held.exclusive (upholds_failure hfail a))
  · exact upholds_failure h a

/-- A vacant slot gets a new instance. -/
theorem upholds_createInstance (h : s.Vacant) (a : Attempt) :
    (createInstance a).Upholds Slot.Exclusive
      (fun r t => t.Orderly ∧ ∀ j x, r = some (j, x) → t.OccupiedBy j ∧ x.IsSettled) s := by
  have hadd : (s.add { status := .pending }).CreatingIn s.instances.length :=
    ⟨h.add, { status := .pending }, by simp [Slot.add], rfl⟩
  refine ⟨hadd.held.exclusive, ?_⟩
  refine (upholds_runCreateAttempt hadd rfl a).bind fun r t ht => ⟨.inr ⟨_, ht.1⟩, ?_⟩
  intro j x hx
  obtain ⟨y, hy, he⟩ := Option.map_eq_some_iff.mp hx
  cases he
  exact ⟨ht.1, ht.2 _ hy⟩

/-- A create tried again. -/
theorem upholds_retryCreateInstance (h : s.HeldBy k) (hi : inst.failedAt = false) (a : Attempt) :
    (retryCreateInstance k inst a).Upholds Slot.Exclusive (fun _ t => t.Orderly) s := by
  have hput : (s.put k { inst with status := .pending }).CreatingIn k := h.creatingIn hi
  refine upholds_change hput.held.exclusive ?_
  cases a.cleared with
  | true => exact (upholds_runCreateAttempt hput hi a).bind fun _ _ ht => .inr ⟨k, ht.1⟩
  | false =>
    exact Prog.Upholds.mono (fun _ _ ht => .inr ⟨k, ht⟩) (upholds_recordCreateFailure hput a)

/-- A restart. -/
theorem upholds_stopAndReplace (h : s.HeldBy k) (a : RestartAnswers)
    (hcreated : ∀ x, s.instances[k]? = some x → x.containerEverCreatedAt = true) :
    (stopAndReplace k a).Upholds Slot.Exclusive (fun _ t => t.Orderly) s := by
  have hvacant : ((s.stop k).modify k fun fresh =>
      { fresh with status := .failed, failedAt := true }).Vacant := by
    refine (h.stop.modify _).vacant h.stopped fun x hx => ?_
    obtain ⟨y, hy, rfl⟩ := Slot.getElem?_modify.mp hx
    exact .inr ⟨rfl, rfl, hcreated y hy⟩
  refine upholds_change h.stop.exclusive (upholds_change hvacant.exclusive ?_)
  refine (upholds_createInstance hvacant a.attempt).bind fun r u hu => ?_
  cases r with
  | none => exact hu.1
  | some created =>
    obtain ⟨hocc, hset⟩ := hu.2 created.1 created.2 rfl
    exact .of_atomic hocc.held.put.exclusive (.inr ⟨_, hocc.held.occupiedBy hset⟩)

/-- A restart that gets past its checks puts a new instance into the slot. -/
theorem upholds_replace (h : s.OccupiedBy k) (a : RestartAnswers)
    (hcreated : ∀ x, s.instances[k]? = some x → x.containerEverCreatedAt = true) :
    (replace k inst a).Upholds Slot.Exclusive (fun _ t => t.Orderly) s := by
  unfold replace
  split
  · refine upholds_change (h.held.modify _).exclusive
      (upholds_stopAndReplace (h.held.modify _) a fun x hx => ?_)
    obtain ⟨y, hy, rfl⟩ := Slot.getElem?_modify.mp hx
    split
    · exact hcreated y hy
    · exact hcreated y hy
  · exact upholds_stopAndReplace h.held a hcreated

/-- A settled instance that is stuck has no failure time. -/
theorem Instance.IsSettled.failedAt {x : Instance} (h : x.IsSettled)
    (hs : x.isStuckInCreate = true) : x.failedAt = false := by
  rcases h.created with hc | hc
  · simp [Instance.isStuckInCreate, hc] at hs
  · exact hc.2

/-- Retired instances are not restarted. -/
theorem restartFrom_of_retired {x : Instance} (h : x.IsRetired) (a : RestartAnswers) :
    restartFrom k a (some x) = .ret () := by
  rcases h with h | ⟨h, -, hc⟩
  · simp [restartFrom, Instance.isStuckInCreate, h, pure]
  · simp [restartFrom, Instance.isStuckInCreate, h, hc, pure]

/-- A restart alone in an orderly slot leaves it orderly. -/
theorem upholds_restartInstance (h : s.Orderly) (a : RestartAnswers) :
    (restartInstance k a).Upholds Slot.Exclusive (fun _ t => t.Orderly) s := by
  refine ⟨h.exclusive, ?_⟩
  change (restartFrom k a s.instances[k]?).Upholds _ _ s
  cases hx : s.instances[k]? with
  | none => exact h
  | some x =>
    by_cases hr : x.IsRetired
    · rw [restartFrom_of_retired hr]
      exact h
    obtain ⟨j, hocc⟩ : ∃ j, s.OccupiedBy j :=
      h.resolve_left fun hv => hr (hv.retired x (mem_of_getElem? hx))
    obtain rfl : k = j := by
      by_contra hne
      exact hr (hocc.held.others k x hne hx)
    obtain ⟨y, hy, hset⟩ := hocc.settled
    cases hx.symm.trans hy
    simp only [restartFrom]
    split_ifs with hstuck hw hstatus
    · exact upholds_retryCreateInstance hocc.held (hset.failedAt hstuck) a.attempt
    · exact h
    · exact h
    · refine upholds_replace hocc a fun y hy => ?_
      cases hx.symm.trans hy
      exact hset.created.resolve_right fun hc => hstuck hc.1
    · exact h

theorem mem_listed {x : ℕ × Instance} :
    x ∈ s.listed ↔ s.instances[x.1]? = some x.2 ∧ x.2.isListed = true := by
  obtain ⟨j, y⟩ := x
  simp [Slot.listed, mem_zipIdx_iff_getElem?]

theorem listed_nodup : s.listed.Nodup := by
  refine ((List.Nodup.of_map Prod.snd ?_).filter _).map Prod.swap_injective
  rw [zipIdx_map_snd]
  exact nodup_range'

theorem Instance.IsRetired.not_listed {x : Instance} (h : x.IsRetired) : x.isListed = false := by
  rcases h with hd | ⟨hf, ha, -⟩
  · simp [Instance.isListed, hd]
  · simp [Instance.isListed, hf, ha]

theorem listed_of_vacant (h : s.Vacant) : s.listed = [] := by
  refine eq_nil_iff_forall_not_mem.mpr fun x hx => ?_
  obtain ⟨hx, hl⟩ := mem_listed.mp hx
  simp [(h.retired x.2 (mem_of_getElem? hx)).not_listed] at hl

theorem listed_of_occupiedBy (h : s.OccupiedBy k) :
    ∃ x, s.listed = [(k, x)] ∧ s.instances[k]? = some x ∧ x.IsSettled := by
  obtain ⟨x, hx, hset⟩ := h.settled
  have hmem : ∀ y, y ∈ s.listed ↔ y ∈ [(k, x)] := by
    rintro ⟨j, y⟩
    rw [mem_listed, mem_singleton]
    constructor
    · rintro ⟨hy, hl⟩
      obtain rfl : j = k := by
        by_contra hne
        simp [(h.held.others j y hne hy).not_listed] at hl
      cases hy.symm.trans hx
      rfl
    · rintro ⟨⟩
      exact ⟨hx, hset.listed⟩
  have hperm := (perm_ext_iff_of_nodup listed_nodup (nodup_singleton _)).2 hmem
  exact ⟨x, perm_singleton.1 hperm, hx, hset⟩

/-- Its part of a pass leaves an orderly slot orderly, if the listing still fits. -/
theorem upholds_fillSlot (h : s.Orderly) (a : SlotAnswers) :
    (fillSlot a s.listed).Upholds Slot.Exclusive (fun _ t => t.Orderly) s := by
  have hcreate : ∀ t : Slot, t.Vacant → (createInstance a.attempt >>= fun _ =>
      (return () : Prog Slot Unit)).Upholds Slot.Exclusive (fun _ t => t.Orderly) t :=
    fun t ht => (upholds_createInstance ht a.attempt).bind fun _ _ hu => hu.1
  rcases h with hv | ⟨k, hocc⟩
  · rw [listed_of_vacant hv]
    exact hcreate s hv
  obtain ⟨x, hl, hx, hset⟩ := listed_of_occupiedBy hocc
  have hdelete := @upholds_deleteInstance s k x hocc.held
  have hstays : s.Orderly := .inr ⟨k, hocc⟩
  rw [hl, fillSlot, reconcileExistingInstance]
  split_ifs with hcompat hstuck hdue hrec
  · exact upholds_retryCreateInstance hocc.held (hset.failedAt hstuck) a.attempt
  · exact hstays
  · refine hdelete.bind fun _ t ht => ?_
    split
    · exact hcreate t ht
    · exact .inl ht
  · exact hstays
  · exact hdelete.bind fun _ t ht => hcreate t ht

end Programs

/-- The program keeps the slot exclusive and ends with it orderly, if nothing else
works on it. -/
def Works (p : Prog Slot Unit) (s : Slot) : Prop :=
  s.Exclusive ∧ p.Upholds Slot.Exclusive (fun _ t => t.Orderly) s

theorem Works.next {upd : Slot → Slot} {next : Slot → Prog Slot Unit} {s : Slot}
    (h : Works (.act upd next) s) : Works (next s) (upd s) := h.2

theorem Works.orderly {p : Prog Slot Unit} {s : Slot} (h : Works p s)
    (hp : p.isActive = false) : s.Orderly := by
  cases p with
  | ret a => exact h.2
  | act upd next => cases hp

namespace Node

/-- The step does not make a restart overlap on a slot with a pass that has listed
it, or with another restart. -/
def Apart (scale : ℕ) (n : Node) : Step → Prop
  | .beginPass _ => ∀ t ∈ n.restarts, t.body.isActive = true → scale ≤ t.ordinal
  | .beginRestart i _ _ => (∀ p ∈ n.pass, p.slot ≤ i → scale ≤ i) ∧
      ∀ t ∈ n.restarts, t.body.isActive = true → t.ordinal ≠ i
  | .pass => True
  | .restart _ => True

instance (scale : ℕ) (n : Node) (a : Step) : Decidable (n.Apart scale a) := by
  cases a <;> unfold Apart <;> infer_instance

/-- Nothing works on the slot. -/
def Free (n : Node) (i : ℕ) : Prop :=
  (∀ t ∈ n.restarts, t.body.isActive = true → t.ordinal ≠ i) ∧ ∀ p ∈ n.pass, p.slot ≠ i

/-- Every slot that is worked on is worked on by one program alone, and all others
are orderly. -/
structure Ordered (scale : ℕ) (n : Node) : Prop where
  free : ∀ i, n.Free i → (n.slots i).Orderly
  restarts : ∀ t ∈ n.restarts, t.body.isActive = true → Works t.body (n.slots t.ordinal)
  single : ∀ (j k : ℕ) (a b : Restart), n.restarts[j]? = some a → n.restarts[k]? = some b →
    a.body.isActive = true → b.body.isActive = true → a.ordinal = b.ordinal → j = k
  inside : ∀ p ∈ n.pass, p.slot < scale
  pass : ∀ p ∈ n.pass, Works p.body (n.slots p.slot)
  listing : ∀ p ∈ n.pass, ∀ j, p.slot < j → j < scale → p.listing j = (n.slots j).listed
  apart : ∀ p ∈ n.pass, ∀ t ∈ n.restarts, t.body.isActive = true →
    t.ordinal < p.slot ∨ scale ≤ t.ordinal

variable {scale : ℕ} {n m : Node}

/-- What the order gives. -/
theorem Ordered.exclusive (h : n.Ordered scale) (i : ℕ) : (n.slots i).Exclusive := by
  by_cases hr : ∃ t ∈ n.restarts, t.body.isActive = true ∧ t.ordinal = i
  · obtain ⟨t, ht, ha, rfl⟩ := hr
    exact (h.restarts t ht ha).1
  by_cases hp : ∃ p ∈ n.pass, p.slot = i
  · obtain ⟨p, hp, rfl⟩ := hp
    exact (h.pass p hp).1
  exact (h.free i ⟨fun t ht ha he => hr ⟨t, ht, ha, he⟩, fun p hp' he => hp ⟨p, hp', he⟩⟩).exclusive

/-- Where a run starts. -/
theorem Ordered.of_orderly {slots : ℕ → Slot} (h : ∀ i, (slots i).Orderly) :
    Ordered scale { slots := slots } where
  free i _ := h i
  restarts := nofun
  single := nofun
  inside := nofun
  pass := nofun
  listing := nofun
  apart := nofun

/-- A pass that has done its slot may be dropped. -/
theorem Ordered.without_pass (h : n.Ordered scale)
    (hdone : ∀ p ∈ n.pass, p.body.isActive = false) :
    Ordered scale { n with pass := none } := by
  refine { h with
    free := fun i hi => ?_, inside := nofun, pass := nofun, listing := nofun, apart := nofun }
  by_cases hp : ∃ p ∈ n.pass, p.slot = i
  · obtain ⟨p, hp, rfl⟩ := hp
    exact (h.pass p hp).orderly (hdone p hp)
  · exact h.free i ⟨hi.1, fun p hp' he => hp ⟨p, hp', he⟩⟩

/-- A pass may come to a slot that no restart works on, with a listing that fits
this slot and those after it. -/
theorem Ordered.enter (h : Ordered scale { n with pass := none })
    {listing : ℕ → List (ℕ × Instance)} {answers : ℕ → SlotAnswers} {i : ℕ}
    (hlist : ∀ j, i ≤ j → j < scale → listing j = (n.slots j).listed)
    (hapart : ∀ t ∈ n.restarts, t.body.isActive = true → t.ordinal < i ∨ scale ≤ t.ordinal) :
    Ordered scale { n with pass := Node.enter scale listing answers i } := by
  unfold Node.enter
  split_ifs with hi
  · have hslot : (n.slots i).Orderly :=
      h.free i ⟨fun t ht ha => by have := hapart t ht ha; omega, nofun⟩
    refine ⟨fun j hj => h.free j ⟨hj.1, nofun⟩, h.restarts, h.single,
      ?_, ?_, ?_, ?_⟩
    · rintro p ⟨⟩
      exact hi
    · rintro p ⟨⟩
      refine ⟨hslot.exclusive, ?_⟩
      rw [hlist i le_rfl hi]
      exact upholds_fillSlot hslot (answers i)
    · rintro p ⟨⟩ j hij hj
      exact hlist j (le_of_lt hij) hj
    · rintro p ⟨⟩ t ht ha
      exact hapart t ht ha
  · exact h

/-- A step of the pass. -/
theorem Ordered.pass_access (h : n.Ordered scale) {p : Pass} (hp : n.pass = some p)
    {upd : Slot → Slot} {next : Slot → Prog Slot Unit} (hbody : p.body = .act upd next) :
    Ordered scale { n.setSlot p.slot (upd (n.slots p.slot)) with
      pass := some { p with body := next (n.slots p.slot) } } := by
  have hworks := h.pass p hp
  rw [hbody] at hworks
  have hsame : ∀ j, j ≠ p.slot →
      Function.update n.slots p.slot (upd (n.slots p.slot)) j = n.slots j :=
    fun j hj => Function.update_of_ne hj _ _
  refine ⟨fun j hj => ?_, fun t ht ha => ?_, h.single, ?_, ?_, ?_, ?_⟩
  · have hne : p.slot ≠ j := hj.2 { p with body := next (n.slots p.slot) } rfl
    have hfree : n.Free j := ⟨hj.1, fun q hq => by cases hp.symm.trans hq; exact hne⟩
    simpa only [setSlot, hsame j hne.symm] using h.free j hfree
  · have hne : t.ordinal ≠ p.slot := by
      have hin := h.inside p hp
      have := h.apart p hp t ht ha
      omega
    simpa only [setSlot, hsame _ hne] using h.restarts t ht ha
  · rintro q ⟨⟩
    exact h.inside p hp
  · rintro q ⟨⟩
    simpa only [setSlot, Function.update_self] using hworks.next
  · rintro q ⟨⟩ j hlt hj
    simpa only [setSlot, hsame j (ne_of_gt hlt)] using h.listing p hp j hlt hj
  · rintro q ⟨⟩ t ht ha
    exact h.apart p hp t ht ha

/-- A restart begins. -/
theorem Ordered.beginRestart (h : n.Ordered scale) {i k : ℕ} {a : RestartAnswers}
    (hc : n.Apart scale (.beginRestart i k a)) :
    Ordered scale { n with restarts := n.restarts ++ [⟨i, restartInstance k a⟩] } := by
  obtain ⟨hpass, hother⟩ := hc
  have hfree : n.Free i := by
    refine ⟨hother, fun p hp he => ?_⟩
    have hin := h.inside p hp
    have := hpass p hp (le_of_eq he)
    omega
  have hslot := h.free i hfree
  refine ⟨fun j hj => ?_, fun t ht ha => ?_, ?_, h.inside, h.pass, h.listing,
    fun p hp t ht ha => ?_⟩
  · exact h.free j ⟨fun t ht => hj.1 t (mem_append_left _ ht), hj.2⟩
  · rcases mem_append.mp ht with ht | ht
    · exact h.restarts t ht ha
    · obtain rfl := mem_singleton.mp ht
      exact ⟨hslot.exclusive, upholds_restartInstance hslot a⟩
  · intro j k a b hja hkb ha hb hab
    rcases getElem?_concat_cases hja with hja | ⟨rfl, rfl⟩ <;>
      rcases getElem?_concat_cases hkb with hkb | ⟨rfl, rfl⟩
    · exact h.single j k a b hja hkb ha hb hab
    · exact absurd hab (hother a (mem_of_getElem? hja) ha)
    · exact absurd hab.symm (hother b (mem_of_getElem? hkb) hb)
    · rfl
  · rcases mem_append.mp ht with ht | ht
    · exact h.apart p hp t ht ha
    · obtain rfl := mem_singleton.mp ht
      by_cases hle : p.slot ≤ i
      · exact .inr (hpass p hp hle)
      · exact .inl (not_le.mp hle)

/-- A thread that is still at work after an access was at work on the same slot before. -/
theorem active_of_set {restarts : List Restart} {j k i : ℕ} {new : Prog Slot Unit} {t : Restart}
    {body : Prog Slot Unit} (hk : restarts[k]? = some ⟨i, body⟩) (hb : body.isActive = true)
    (ht : (restarts.set k ⟨i, new⟩)[j]? = some t) (ha : t.body.isActive = true) :
    ∃ u, restarts[j]? = some u ∧ u.body.isActive = true ∧ u.ordinal = t.ordinal := by
  rcases getElem?_set_cases ht with ⟨rfl, rfl⟩ | ⟨-, ht⟩
  · exact ⟨_, hk, hb, rfl⟩
  · exact ⟨t, ht, ha, rfl⟩

/-- A step of a restart. -/
theorem Ordered.restart_access (h : n.Ordered scale) {k i : ℕ} {upd : Slot → Slot}
    {next : Slot → Prog Slot Unit} (hk : n.restarts[k]? = some ⟨i, .act upd next⟩) :
    Ordered scale { n.setSlot i (upd (n.slots i)) with
      restarts := n.restarts.set k ⟨i, next (n.slots i)⟩ } := by
  have hmem := mem_of_getElem? hk
  have hlen : k < n.restarts.length := (List.getElem?_eq_some_iff.mp hk).1
  have hworks := (h.restarts _ hmem rfl).next
  have hsame : ∀ j, j ≠ i → Function.update n.slots i (upd (n.slots i)) j = n.slots j :=
    fun j hj => Function.update_of_ne hj _ _
  refine ⟨fun j hj => ?_, fun t ht ha => ?_, ?_, h.inside, fun p hp => ?_, fun p hp j hlt hj => ?_,
    fun p hp t ht ha => ?_⟩
  · by_cases hji : j = i
    · subst hji
      have hdone : (next (n.slots j)).isActive = false := by
        by_contra hact
        exact hj.1 ⟨j, next (n.slots j)⟩ (mem_set hlen _) (by simpa using hact) rfl
      simpa only [setSlot, Function.update_self] using hworks.orderly hdone
    · have hfree : n.Free j := by
        refine ⟨fun t ht ha => ?_, hj.2⟩
        obtain ⟨l, hl⟩ := getElem?_of_mem ht
        by_cases hlk : l = k
        · subst hlk
          cases hk.symm.trans hl
          exact Ne.symm hji
        · exact hj.1 t (mem_of_getElem? ((getElem?_set_ne (Ne.symm hlk)).trans hl)) ha
      simpa only [setSlot, hsame j hji] using h.free j hfree
  · obtain ⟨j, hj⟩ := getElem?_of_mem ht
    rcases getElem?_set_cases hj with ⟨rfl, rfl⟩ | ⟨hjk, hj⟩
    · simpa only [setSlot, Function.update_self] using hworks
    · have hne : t.ordinal ≠ i := fun he => hjk (h.single j k t _ hj hk ha rfl he)
      simpa only [setSlot, hsame _ hne] using h.restarts t (mem_of_getElem? hj) ha
  · intro j l a b hja hlb ha hb hab
    obtain ⟨u, hu, hua, hou⟩ := active_of_set hk rfl hja ha
    obtain ⟨v, hv, hva, hov⟩ := active_of_set hk rfl hlb hb
    exact h.single j l u v hu hv hua hva (hou.trans (hab.trans hov.symm))
  · have hne : p.slot ≠ i := by
      have hin := h.inside p hp
      have := h.apart p hp _ hmem rfl
      dsimp only at this
      omega
    simpa only [setSlot, hsame _ hne] using h.pass p hp
  · have hne : j ≠ i := by
      have := h.apart p hp _ hmem rfl
      dsimp only at this
      omega
    simpa only [setSlot, hsame _ hne] using h.listing p hp j hlt hj
  · obtain ⟨j, hj⟩ := getElem?_of_mem ht
    obtain ⟨u, hu, hua, hou⟩ := active_of_set hk rfl hj ha
    exact hou ▸ h.apart p hp u (mem_of_getElem? hu) hua

/-- One step. -/
theorem Ordered.step (h : n.Ordered scale) {a : Step} (hc : n.Apart scale a)
    (hstep : n.step scale a = some m) : m.Ordered scale := by
  revert hstep
  fun_cases n.step scale a <;> rintro ⟨⟩
  · rename_i hp
    have hnone := h.without_pass (by simp [hp])
    exact hnone.enter (fun _ _ _ => rfl) fun t ht ha => .inr (hc t ht ha)
  · rename_i p hp upd next hbody
    exact h.pass_access hp hbody
  · rename_i p hp a hbody
    have hnone := h.without_pass fun q hq => by
      cases hp.symm.trans hq
      rw [hbody]
      rfl
    refine hnone.enter (fun j hj hjs => h.listing p hp j hj hjs) fun t ht ha => ?_
    have := h.apart p hp t ht ha
    omega
  · exact h.beginRestart hc
  · rename_i hk
    exact h.restart_access hk

/-- In every run in which the work on a slot does not overlap, no slot ever has two
started containers. -/
theorem exclusive_along_run {slots : ℕ → Slot} (hslots : ∀ i, (slots i).Orderly)
    {run : List Step} (hc : Along (Node.step scale) (Apart scale) { slots := slots } run)
    (h : exec (Node.step scale) { slots := slots } run = some n) (i : ℕ) :
    (n.slots i).Exclusive :=
  (exec_invariant_along (fun _ _ _ hi hcond hs => Ordered.step hi hcond hs)
    (Ordered.of_orderly hslots) hc h).exclusive i

end Node

/-- An attempt that succeeds at once. -/
def smoothAttempt : Attempt where
  cleared := true
  prepared := true
  initSteps := none
  accepted := true
  readiness := false
  exhausted := false

/-- A restart that meets no failure. -/
def restartAnswers : RestartAnswers := ⟨true, true, smoothAttempt⟩

/-- A pass that meets no failure. -/
def passAnswers : SlotAnswers := ⟨fun _ => true, true, false, true, smoothAttempt⟩

/-- The first slot has a running replica and there are no others. -/
def oneReplica : ℕ → Slot
  | 0 => ⟨[{ status := .running, containerEverCreatedAt := true }], [0]⟩
  | _ + 1 => {}

/-- The example's slots. -/
theorem oneReplica_orderly (i : ℕ) : (oneReplica i).Orderly := by
  cases i with
  | zero =>
    refine .inr ⟨0, ⟨by decide, fun j x hj hx => ?_, by decide⟩, _, rfl, by decide, .inl rfl⟩
    obtain ⟨l, rfl⟩ := Nat.exists_eq_succ_of_ne_zero hj
    cases hx
  | succ i => exact .inl ⟨nofun, rfl⟩

/-- The replica is restarted; a pass then leaves it as it is, and while the pass fills the second
slot the replica is restarted once more. -/
def restartsAroundPass : List Step :=
  .beginRestart 0 0 restartAnswers :: replicate 9 (.restart 0) ++
    .beginPass (fun _ => passAnswers) :: replicate 2 .pass ++
    .beginRestart 0 1 restartAnswers :: replicate 4 (.restart 1) ++
    replicate 3 .pass ++ replicate 5 (.restart 1)

/-- Restarts before and after a pass. -/
theorem Node.exclusive_of_restartsAroundPass :
    ∃ n, exec (Node.step 2) { slots := oneReplica } restartsAroundPass = some n ∧
      (n.slots 0).started = [2] ∧ (n.slots 1).started = [0] ∧ ∀ i, (n.slots i).Exclusive := by
  have hapart : Along (Node.step 2) (Node.Apart 2) { slots := oneReplica } restartsAroundPass := by
    decide
  exact ⟨_, rfl, rfl, rfl, Node.exclusive_along_run oneReplica_orderly hapart rfl⟩

/-- A pass lists between the tombstone of a restart and its replacement: it finds the
slot empty, and both start a container. -/
theorem Node.restart_overlaps_pass :
    (∀ i, (oneReplica i).Orderly) ∧
    ∃ n, exec (Node.step 1) { slots := oneReplica }
        (.beginRestart 0 0 restartAnswers :: List.replicate 4 (.restart 0) ++
          .beginPass (fun _ => passAnswers) :: List.replicate 3 .pass ++
          List.replicate 3 (.restart 0)) = some n ∧
      (n.slots 0).started = [2, 1] ∧ ¬ (n.slots 0).Exclusive := by
  refine ⟨oneReplica_orderly, _, rfl, rfl, fun h => ?_⟩
  exact absurd (h 2 (.head _) 1 (.tail _ (.head _))) (by decide)

end Rune.Stateful
