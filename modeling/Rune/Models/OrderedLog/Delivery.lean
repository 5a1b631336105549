import Rune.Models.OrderedLog.Channels

/-!
# Delivery without gaps

What a consumer receives is what was put into its channel, so the argument is about
the numbers in front of and inside the buffer. A live subscription has been sent
everything that is published, but for the number that the publication under way
still owes it. The hand-over from the stored events to the live ones is complete if
the backfill finds everything behind the position retained and has room for it:
short of room it stops without an error, and the pruner may delete between the check
of the position and the scan.
-/

namespace Rune.OrderedLog

open Rune.Core List

/-- With room for all of them, the stored events are delivered in key order. -/
theorem deliverBackfill_spec {capacity : ℕ} {es : List (ℕ × Bytes)} {buffer buffer' : List Event}
    {sent sent' : ℕ}
    (hown : ∀ e ∈ es, e.1 < 2 ^ 64 ∧ ∃ ev : Event, ev.seq = e.1 ∧ encodeEvent ev = .ok e.2)
    (hroom : buffer.length + es.length ≤ capacity)
    (h : deliverBackfill capacity es buffer sent = .ok (buffer', sent')) :
    buffer'.map Event.seq = buffer.map Event.seq ++ es.map Prod.fst := by
  fun_induction deliverBackfill capacity es buffer sent with
  | case1 => cases h; simp
  | case2 => cases h
  | case3 e es buffer _ ev hdec _ ih =>
    obtain ⟨hlt, ev₀, hseq, henc⟩ := hown e mem_cons_self
    have hev : ev.seq = e.1 := by
      rw [decodeEvent_seq henc (by rw [hseq]; exact hlt) hdec, hseq]
    have hrest := ih (fun e' he' => hown e' (mem_cons_of_mem _ he'))
      (by simp at hroom ⊢; omega) h
    simpa [hev] using hrest
  | case4 => simp only [length_cons] at hroom; omega

theorem dropWhile_range' (low len k : ℕ) (hlow : low ≤ k) (hk : k ≤ low + len) :
    (List.range' low len).dropWhile (fun n => decide (n < k)) = List.range' k (low + len - k) := by
  induction len generalizing low with
  | zero =>
    obtain rfl : k = low := by omega
    simp
  | succ len ih =>
    rw [range'_succ, dropWhile_cons]
    by_cases h : low < k
    · rw [if_pos (by simpa using h), ih (low + 1) h (by omega)]
      congr 1
      omega
    · obtain rfl : k = low := by omega
      rw [if_neg (by simp), ← range'_succ]
      congr 1
      omega

/-- A backfill that finds everything behind the position and has room for it delivers
exactly the numbers up to the head. -/
theorem backfill_spec {keep capacity head fromSeq sent : ℕ} {d : Disk} {buffer : List Event}
    (hlog : d.LogOf head keep) (hhead : head < 2 ^ 64)
    (hretained : ∀ k, fromSeq < k → k ≤ head → k ∈ d.events.map Prod.fst)
    (hroom : head - fromSeq ≤ capacity)
    (h : backfill capacity head fromSeq d.events = .ok (buffer, sent)) :
    buffer.map Event.seq = List.range' (fromSeq + 1) (head - fromSeq) := by
  unfold backfill at h
  split at h
  · rename_i hle
    cases h
    rw [Nat.sub_eq_zero_of_le hle]
    rfl
  · have hle := hlog.length_le
    have hlow : head + 1 - d.events.length ≤ fromSeq + 1 := by
      have hmem := hretained (fromSeq + 1) (by omega) (by omega)
      rw [hlog.keys_eq, mem_range'_1] at hmem
      exact hmem.1
    have hkeys : (d.events.dropWhile fun e => e.1 < fromSeq + 1).map Prod.fst =
        range' (fromSeq + 1) (head - fromSeq) := by
      have hmap : (d.events.dropWhile fun e => e.1 < fromSeq + 1).map Prod.fst =
          (d.events.map Prod.fst).dropWhile fun n => decide (n < fromSeq + 1) := by
        rw [dropWhile_map]
        rfl
      rw [hmap, hlog.keys_eq, dropWhile_range' _ _ _ hlow (by omega)]
      congr 1
      omega
    have hlen : (d.events.dropWhile fun e => e.1 < fromSeq + 1).length = head - fromSeq := by
      rw [← length_map (f := Prod.fst), hkeys, length_range']
    have hown : ∀ e ∈ d.events.dropWhile fun e => e.1 < fromSeq + 1,
        e.1 < 2 ^ 64 ∧ ∃ ev : Event, ev.seq = e.1 ∧ encodeEvent ev = .ok e.2 := by
      intro e he
      have hmem : e ∈ d.events := (dropWhile_sublist _).subset he
      have hkey := (hlog.mem_keys hmem).2
      exact ⟨by omega, hlog.own_event e hmem⟩
    rw [deliverBackfill_spec hown (by rw [hlen]; simpa using hroom) h, hkeys]
    rfl

/-- The numbers that were put into the channel, received or not. -/
def Watch.seqs (w : Watch) : List ℕ := (w.received ++ w.buffer).map Event.seq

/-- The last number that was put into the channel, if there was no gap. -/
def Watch.upto (w : Watch) : ℕ := w.fromSeq + w.seqs.length

/-- The numbers in the channel follow the position without a gap. -/
def Watch.Consecutive (w : Watch) : Prop := w.seqs = List.range' (w.fromSeq + 1) w.seqs.length

/-- The watch has filled its channel and has not failed. -/
def WatchPhase.delivers : WatchPhase → Bool
  | .backfilled | .live | .detached => true
  | _ => false

/-- The watch has not touched its channel. -/
def WatchPhase.unfilled : WatchPhase → Bool
  | .entered | .checked => true
  | _ => false

/-- What the subscriptions have been sent: everything up to the target, apart from the
last number for those that the publication has still on its list. -/
structure Deliveries (subs pending : List ℕ) (target : ℕ) (ws : List Watch) : Prop where
  consecutive : ∀ (i : ℕ) (w : Watch), ws[i]? = some w → w.phase.delivers = true →
    w.fromSeq ≤ w.head → w.Consecutive
  unfilled : ∀ (i : ℕ) (w : Watch), ws[i]? = some w → w.phase.unfilled = true →
    w.received = [] ∧ w.buffer = []
  subs_live : ∀ i ∈ subs, ∃ w, ws[i]? = some w ∧ w.phase = .live
  synced : ∀ i ∈ subs, i ∉ pending → ∀ w, ws[i]? = some w → w.fromSeq ≤ w.head →
    w.upto = target
  owed : ∀ i ∈ pending, ∀ w, ws[i]? = some w → w.fromSeq ≤ w.head → w.upto + 1 = target
  filled : ∀ i ∈ pending, ∃ w, ws[i]? = some w ∧ w.phase.unfilled = false
  subs_nodup : subs.Nodup
  pending_nodup : pending.Nodup

/-- What the deliveries say of one watch. -/
structure Served (subs pending : List ℕ) (target i : ℕ) (w : Watch) : Prop where
  consecutive : w.phase.delivers = true → w.fromSeq ≤ w.head → w.Consecutive
  unfilled : w.phase.unfilled = true → w.received = [] ∧ w.buffer = []
  live : i ∈ subs → w.phase = .live
  synced : i ∈ subs → i ∉ pending → w.fromSeq ≤ w.head → w.upto = target
  owed : i ∈ pending → w.fromSeq ≤ w.head → w.upto + 1 = target
  filled : i ∈ pending → w.phase.unfilled = false

namespace Deliveries

variable {subs pending : List ℕ} {target : ℕ} {ws : List Watch} {i : ℕ} {w w' : Watch}

/-- What one watch was sent. -/
theorem served (h : Deliveries subs pending target ws) (hw : ws[i]? = some w) :
    Served subs pending target i w where
  consecutive := h.consecutive i w hw
  unfilled := h.unfilled i w hw
  live hi := by
    obtain ⟨v, hv, hlive⟩ := h.subs_live i hi
    exact Option.some.inj (hv.symm.trans hw) ▸ hlive
  synced hi hn := h.synced i hi hn w hw
  owed hi := h.owed i hi w hw
  filled hi := by
    obtain ⟨v, hv, hfilled⟩ := h.filled i hi
    exact Option.some.inj (hv.symm.trans hw) ▸ hfilled

/-- The watches that are registered or on the list of the publication are there. -/
theorem lt_length (h : Deliveries subs pending target ws) (hi : i ∈ subs ∨ i ∈ pending) :
    i < ws.length := by
  rcases hi with hi | hi
  · obtain ⟨w, hw, -⟩ := h.subs_live i hi
    exact (List.getElem?_eq_some_iff.mp hw).1
  · obtain ⟨w, hw, -⟩ := h.filled i hi
    exact (List.getElem?_eq_some_iff.mp hw).1

/-- It is enough to look at one watch at a time. -/
theorem of_served (hserved : ∀ i w, ws[i]? = some w → Served subs pending target i w)
    (hlt : ∀ i, i ∈ subs ∨ i ∈ pending → i < ws.length) (hsubs : subs.Nodup)
    (hpending : pending.Nodup) : Deliveries subs pending target ws where
  consecutive i w hw := (hserved i w hw).consecutive
  unfilled i w hw := (hserved i w hw).unfilled
  subs_live i hi :=
    have hw := getElem?_eq_getElem (hlt i (.inl hi))
    ⟨_, hw, (hserved i _ hw).live hi⟩
  synced i hi hn w hw := (hserved i w hw).synced hi hn
  owed i hi w hw := (hserved i w hw).owed hi
  filled i hi :=
    have hw := getElem?_eq_getElem (hlt i (.inr hi))
    ⟨_, hw, (hserved i _ hw).filled hi⟩
  subs_nodup := hsubs
  pending_nodup := hpending

/-- One watch changes. -/
theorem setServed (h : Deliveries subs pending target ws)
    (hw' : i < ws.length → Served subs pending target i w') :
    Deliveries subs pending target (ws.set i w') := by
  refine of_served (fun j v hv => ?_) (by simpa using fun j => h.lt_length) h.subs_nodup
    h.pending_nodup
  rcases getElem?_set_cases hv with ⟨rfl, rfl⟩ | ⟨-, hv⟩
  · exact hw' (by simpa using (List.getElem?_eq_some_iff.mp hv).1)
  · exact h.served hv

/-- A change of a watch that leaves its position and its numbers alone. -/
theorem set (h : Deliveries subs pending target ws) (hw : ws[i]? = some w)
    (hfrom : w'.fromSeq = w.fromSeq) (hhead : w'.head = w.head) (hseqs : w'.seqs = w.seqs)
    (hdel : w'.phase.delivers = true → w.phase.delivers = true)
    (hunf : w'.phase.unfilled = true →
      w.phase.unfilled = true ∧ w'.received = w.received ∧ w'.buffer = w.buffer)
    (hlive : i ∈ subs → w'.phase = .live) : Deliveries subs pending target (ws.set i w') := by
  have hs := h.served hw
  have hupto : w'.upto = w.upto := by rw [Watch.upto, Watch.upto, hfrom, hseqs]
  refine h.setServed fun _ => ⟨?_, ?_, hlive, ?_, ?_, ?_⟩
  · rw [Watch.Consecutive, hfrom, hhead, hseqs]
    exact fun hp => hs.consecutive (hdel hp)
  · intro hp
    obtain ⟨hp', hr, hb⟩ := hunf hp
    rw [hr, hb]
    exact hs.unfilled hp'
  · rw [hfrom, hhead, hupto]
    exact hs.synced
  · rw [hfrom, hhead, hupto]
    exact hs.owed
  · intro hi
    refine Bool.eq_false_iff.mpr fun hp => ?_
    exact Bool.false_ne_true ((hs.filled hi).symm.trans (hunf hp).1)

/-- Subscriptions leave the map, and the publisher's list with them. -/
theorem shrink {subs' pending' : List ℕ} (h : Deliveries subs pending target ws)
    (hsubs : subs'.Sublist subs) (hpending : pending'.Sublist pending)
    (hout : ∀ j ∈ subs', j ∉ pending' → j ∉ pending) : Deliveries subs' pending' target ws :=
  { h with
    subs_live := fun j hj => h.subs_live j (hsubs.subset hj)
    synced := fun j hj hn => h.synced j (hsubs.subset hj) (hout j hj hn)
    owed := fun j hj => h.owed j (hpending.subset hj)
    filled := fun j hj => h.filled j (hpending.subset hj)
    subs_nodup := h.subs_nodup.sublist hsubs
    pending_nodup := h.pending_nodup.sublist hpending }

/-- A subscriber leaves. -/
theorem erase (h : Deliveries subs pending target ws) (i : ℕ) :
    Deliveries (subs.erase i) pending target ws :=
  h.shrink erase_sublist (.refl _) fun _ _ hn => hn

/-- The publisher gives up on the head of its list. -/
theorem drop {todo : List ℕ} (h : Deliveries subs (i :: todo) target ws) :
    Deliveries (subs.erase i) todo target ws := by
  refine h.shrink erase_sublist (sublist_cons_self i todo) fun j hj hn => ?_
  exact not_mem_cons_of_ne_of_not_mem (h.subs_nodup.mem_erase_iff.mp hj).1 hn

/-- All of them leave. -/
theorem dropSubs (h : Deliveries subs pending target ws) : Deliveries [] pending target ws :=
  h.shrink (nil_sublist _) (.refl _) nofun

/-- Without subscribers any target is met. -/
theorem noSubs (h : Deliveries subs pending target ws) (target' : ℕ) :
    Deliveries [] [] target' ws :=
  { h with
    subs_live := nofun, synced := nofun, owed := nofun, filled := nofun
    subs_nodup := nodup_nil, pending_nodup := nodup_nil }

/-- A publication owes its event to every subscriber of the moment. -/
theorem snapshot {order : List ℕ} (h : Deliveries subs [] target ws) (hp : order.Perm subs) :
    Deliveries subs order (target + 1) ws :=
  { h with
    synced := fun j hj hn => absurd (hp.symm.subset hj) hn
    owed := fun j hj v hv hle => by rw [h.synced j (hp.subset hj) not_mem_nil v hv hle]
    filled := fun j hj =>
      have ⟨v, hv, hlive⟩ := h.subs_live j (hp.subset hj)
      ⟨v, hv, by rw [hlive]; rfl⟩
    pending_nodup := hp.symm.nodup h.subs_nodup }

/-- One delivery pays what was owed. -/
theorem send {todo : List ℕ} {ev : Event} (h : Deliveries subs (i :: todo) target ws)
    (hev : ev.seq = target) (hw : ws[i]? = some w) :
    Deliveries subs todo target
      (ws.set i { w with buffer := w.buffer ++ [ev], sent := ev.seq }) := by
  subst hev
  have hs := h.served hw
  have hseqs : ({ w with buffer := w.buffer ++ [ev], sent := ev.seq } : Watch).seqs =
      w.seqs ++ [ev.seq] := by
    simp only [Watch.seqs, ← append_assoc, map_append, map_singleton]
  have hupto : ({ w with buffer := w.buffer ++ [ev], sent := ev.seq } : Watch).upto =
      w.upto + 1 := by
    rw [Watch.upto, hseqs, length_append]
    rfl
  have hfilled := hs.filled mem_cons_self
  obtain ⟨hi, htodo⟩ := nodup_cons.mp h.pending_nodup
  refine of_served (fun j v hv => ?_) (fun j hj => ?_) h.subs_nodup htodo
  · rcases getElem?_set_cases hv with ⟨rfl, rfl⟩ | ⟨hij, hv⟩
    · refine ⟨fun hp hle => ?_, fun hp => ?_, hs.live, fun _ _ hle => ?_, fun hj => ?_,
        fun _ => hfilled⟩
      · have hc : w.seqs = range' (w.fromSeq + 1) w.seqs.length := hs.consecutive hp hle
        have hnext : ev.seq = w.fromSeq + 1 + w.seqs.length := by
          have hdue := hs.owed mem_cons_self hle
          rw [Watch.upto] at hdue
          omega
        rw [Watch.Consecutive, hseqs, length_append, length_singleton, range'_1_concat, ← hnext]
        rw [← hc]
      · exact absurd (hfilled.symm.trans hp) Bool.false_ne_true
      · rw [hupto]
        exact hs.owed mem_cons_self hle
      · exact absurd hj hi
    · have hv := h.served hv
      exact ⟨hv.consecutive, hv.unfilled, hv.live, fun hj hn =>
        hv.synced hj (not_mem_cons_of_ne_of_not_mem hij hn),
        fun hj => hv.owed (mem_cons_of_mem _ hj),
        fun hj => hv.filled (mem_cons_of_mem _ hj)⟩
  · rw [length_set]
    exact h.lt_length (hj.imp_right (mem_cons_of_mem _))

/-- A backfill fills the channel of a watch that is not registered. -/
theorem backfill {buffer : List Event} {sent head : ℕ} (h : Deliveries subs [] target ws)
    (hw : ws[i]? = some w) (hp : w.phase = .checked)
    (hbuffer : w.fromSeq ≤ head →
      buffer.map Event.seq = List.range' (w.fromSeq + 1) (head - w.fromSeq)) :
    Deliveries subs [] target
      (ws.set i { w with phase := .backfilled, buffer, sent, head }) := by
  have hempty : w.received = [] := ((h.served hw).unfilled (by rw [hp]; rfl)).1
  have hsubs : i ∉ subs := fun hi => by
    have hlive := (h.served hw).live hi
    rw [hp] at hlive
    cases hlive
  refine h.setServed fun _ => ⟨fun _ hle => ?_, nofun,
    fun hi => absurd hi hsubs, fun hi => absurd hi hsubs, fun hi => absurd hi not_mem_nil,
    fun hi => absurd hi not_mem_nil⟩
  have hseqs := hbuffer hle
  simp only [Watch.Consecutive, Watch.seqs, hempty, nil_append]
  rw [hseqs, length_range']

/-- A watch registers with everything up to the target in its channel. -/
theorem register (h : Deliveries subs [] target ws) (hw : ws[i]? = some w)
    (hp : w.phase = .backfilled) (hupto : w.fromSeq ≤ w.head → w.upto = target) :
    Deliveries (i :: subs) [] target (ws.set i { w with phase := .live }) := by
  have hs := h.served hw
  have hsubs : i ∉ subs := fun hi => by
    have hlive := hs.live hi
    rw [hp] at hlive
    cases hlive
  have hlt : i < ws.length := (List.getElem?_eq_some_iff.mp hw).1
  refine of_served (fun j v hv => ?_) (fun j hj => ?_)
    (nodup_cons.mpr ⟨hsubs, h.subs_nodup⟩) nodup_nil
  · rcases getElem?_set_cases hv with ⟨rfl, rfl⟩ | ⟨hij, hv⟩
    · exact ⟨fun _ => hs.consecutive (by rw [hp]; rfl), nofun, fun _ => rfl,
        fun _ _ => hupto, hs.owed, fun hj => absurd hj not_mem_nil⟩
    · have hv := h.served hv
      exact ⟨hv.consecutive, hv.unfilled, fun hj => hv.live (mem_of_ne_of_mem hij hj),
        fun hj => hv.synced (mem_of_ne_of_mem hij hj), hv.owed, hv.filled⟩
  · rw [length_set]
    rcases hj with hj | hj
    · rcases mem_cons.mp hj with rfl | hj
      · exact hlt
      · exact h.lt_length (.inl hj)
    · exact absurd hj not_mem_nil

/-- A new watch has an empty channel. -/
theorem append (h : Deliveries subs pending target ws) (fromSeq : ℕ) :
    Deliveries subs pending target (ws ++ [newWatch fromSeq]) := by
  refine of_served (fun j v hv => ?_) (fun j hj => ?_) h.subs_nodup h.pending_nodup
  · rcases getElem?_concat_cases hv with hv | ⟨rfl, rfl⟩
    · exact h.served hv
    · have hnew : ws.length ∉ subs ∧ ws.length ∉ pending :=
        not_or.mp fun hi => lt_irrefl _ (h.lt_length hi)
      exact ⟨nofun, fun _ => ⟨rfl, rfl⟩, fun hi => absurd hi hnew.1,
        fun hi => absurd hi hnew.1, fun hi => absurd hi hnew.2, fun hi => absurd hi hnew.2⟩
  · exact Nat.lt_of_lt_of_le (h.lt_length hj) (by simp)

/-- Cancelling contexts changes no channel. -/
theorem cancelSubs (h : Deliveries subs pending target ws) (subs' : List ℕ) :
    Deliveries subs pending target (cancelSubs subs' ws) := by
  refine of_served (fun j v hv => ?_) (fun j hj => ?_) h.subs_nodup h.pending_nodup
  · obtain ⟨u, hu, rfl | rfl⟩ := getElem?_cancelSubs_cases hv
    · have hu := h.served hu
      exact ⟨hu.consecutive, hu.unfilled, hu.live, hu.synced, hu.owed, hu.filled⟩
    · exact h.served hu
  · rw [OrderedLog.cancelSubs, length_mapIdx]
    exact h.lt_length hj

end Deliveries

/-- The last number whose event is on disk. -/
def Machine.written (m : Machine) : ℕ :=
  match m.lock with
  | .committed ev => ev.seq
  | _ => m.lastSeq

/-- The last number that the subscribers have been sent or are being sent. -/
def Machine.target (m : Machine) : ℕ :=
  match m.lock with
  | .stored _ | .swapped _ => m.lastSeq - 1
  | _ => m.lastSeq

/-- How the event of the proposal under way relates to the counter. -/
def Machine.LockSeq (m : Machine) : Prop :=
  match m.lock with
  | .committed ev => ev.seq = m.lastSeq + 1
  | .stored ev | .swapped ev => ev.seq = m.lastSeq ∧ 0 < ev.seq
  | .sending ev _ | .dropping ev _ _ => ev.seq = m.lastSeq
  | _ => True

/-- Nothing is being committed, stored or published. -/
def Lock.quiet : Lock → Bool
  | .free | .proposing | .registering _ => true
  | _ => false

/-- The invariant of the machine. -/
structure DeliveryInv (m : Machine) : Prop where
  log : m.disk.LogOf m.written m.opts.retentionMaxEvents
  room : m.written < 2 ^ 64
  lockSeq : m.LockSeq
  floors : ∀ p ∈ m.pruners, ∀ floor, p = .deleting floor →
    floor + m.opts.retentionMaxEvents ≤ m.lastSeq + 1
  deliveries : Deliveries (m.subs.getD []) m.lock.pending m.target m.watches
  handover : ∀ i, m.lock = .registering i →
    ∃ w, m.watches[i]? = some w ∧ (w.fromSeq ≤ w.head → w.upto = m.lastSeq)

/-- A backfill finds every event behind its position retained and has room for all
of them. -/
def BackfillComplete (m : Machine) (a : Action) : Prop :=
  match a with
  | .watch i .backfill => ∀ w, m.watches[i]? = some w →
    (∀ k, w.fromSeq < k → k ≤ m.lastSeq → k ∈ m.disk.events.map Prod.fst) ∧
      m.lastSeq - w.fromSeq ≤ m.capacity
  | _ => True

/-- Batches in flight keep their floor, and the other steps of a pass have none. -/
theorem floors_set {ps : List Pruner} {n j bound : ℕ} {q : Pruner}
    (h : ∀ p ∈ ps, ∀ floor, p = .deleting floor → floor + bound ≤ n + 1)
    (hq : ∀ floor, q = .deleting floor → floor + bound ≤ n + 1) :
    ∀ p ∈ ps.set j q, ∀ floor, p = .deleting floor → floor + bound ≤ n + 1 := by
  intro p hp floor hfloor
  rcases mem_or_eq_of_mem_set hp with hp | rfl
  · exact h p hp floor hfloor
  · exact hq floor hfloor

namespace DeliveryInv

variable {m : Machine}

/-- While nothing is being committed or stored, disk, counter and target agree. -/
theorem of_quiet (h : DeliveryInv m) (hquiet : m.lock.quiet = true) :
    m.disk.LogOf m.lastSeq m.opts.retentionMaxEvents ∧ m.lastSeq < 2 ^ 64 ∧
      Deliveries (m.subs.getD []) [] m.lastSeq m.watches := by
  have hlog := h.log
  have hroom := h.room
  have hdel := h.deliveries
  unfold Machine.written at hlog hroom
  unfold Machine.target at hdel
  cases hl : m.lock <;> rw [hl] at hquiet hlog hroom hdel <;> first
    | exact ⟨hlog, hroom, hdel⟩
    | cases hquiet

/-- A step of a watch that leaves its position and its numbers alone. -/
theorem setWatch (h : DeliveryInv m) {i : ℕ} {w w' : Watch} (hw : m.watches[i]? = some w)
    (hfrom : w'.fromSeq = w.fromSeq) (hhead : w'.head = w.head) (hseqs : w'.seqs = w.seqs)
    (hdel : w'.phase.delivers = true → w.phase.delivers = true)
    (hunf : w'.phase.unfilled = true →
      w.phase.unfilled = true ∧ w'.received = w.received ∧ w'.buffer = w.buffer)
    (hlive : i ∈ m.subs.getD [] → w'.phase = .live) :
    DeliveryInv { m with watches := m.watches.set i w' } := by
  refine { h with
    deliveries := h.deliveries.set hw hfrom hhead hseqs hdel hunf hlive
    handover := fun j hl => ?_ }
  obtain ⟨v, hv, hupto⟩ := h.handover j hl
  by_cases hij : i = j
  · subst hij
    cases hw.symm.trans hv
    have hi : i < m.watches.length := (List.getElem?_eq_some_iff.mp hw).1
    refine ⟨w', getElem?_set_self hi, ?_⟩
    rw [hhead, Watch.upto, hfrom, hseqs]
    exact hupto
  · exact ⟨v, by rw [getElem?_set_ne hij, hv], hupto⟩

/-- A subscription that is not live yet is not registered. -/
theorem not_mem_subs (h : DeliveryInv m) {i : ℕ} {w : Watch} (hw : m.watches[i]? = some w)
    (hp : w.phase ≠ .live) : i ∉ m.subs.getD [] := by
  exact fun hi => hp ((h.deliveries.served hw).live hi)

end DeliveryInv

/-- Taking a subscription out of the map, whether or not its channel can be closed. -/
theorem Machine.removeSub_cases (m : Machine) (i : ℕ) (w : Watch) :
    m.removeSub i w = { m with
        subs := m.subs.map fun l : List ℕ => l.erase i
        panicked := some .closeOfClosed } ∨
      m.removeSub i w = { m with
        subs := m.subs.map fun l : List ℕ => l.erase i
        watches := m.watches.set i { w with chClosed := true } } := by
  cases ho : w.chClosed with
  | true =>
    left
    rw [removeSub, ho, if_pos rfl]
  | false => exact Or.inr (m.removeSub_open ho)

/-- Where a run starts. -/
theorem opened_deliveryInv {opts : BackendOptions} {d : Disk} {n : ℕ}
    (hlog : d.LogOf n opts.defaults.retentionMaxEvents) (hn : n < 2 ^ 64) :
    DeliveryInv (.opened opts d) := by
  have hseq : (Machine.opened opts d).lastSeq = n := hlog.seq_eq
  refine ⟨?_, ?_, trivial, nofun, .of_served nofun nofun nodup_nil nodup_nil, nofun⟩
  · change d.LogOf (Machine.opened opts d).lastSeq _
    rwa [hseq]
  · change (Machine.opened opts d).lastSeq < _
    rwa [hseq]

namespace DeliveryInv

variable {m m' : Machine}

/-- The steps of a proposal. -/
theorem proposeStep {a : ProposeStep} (h : DeliveryInv m) (hm : Moves m (.propose a) m') :
    DeliveryInv m' := by
  obtain ⟨hlog, hroom, hlock, hfloors, hdel, hhandover⟩ := h
  cases m
  cases hm with
  | begin hl | commitFailed hl | finish hl =>
    cases hl
    exact ⟨hlog, hroom, trivial, hfloors, hdel, nofun⟩
  | @commit opType applier d ev hl hfits htxn =>
    cases hl
    obtain ⟨hev, hseq, raw, henc, hevents⟩ := proposeTxn_ok htxn
    refine ⟨?_, ?_, hev, hfloors, hdel, nofun⟩
    · change d.LogOf ev.seq _
      rw [hev]
      exact hlog.append hev henc hseq hevents
    · change ev.seq < _
      rw [hev]
      exact hfits
  | @storeLastSeq ev hl =>
    cases hl
    simp only [Machine.LockSeq] at hlock hfloors
    refine ⟨hlog, hroom, ⟨rfl, by omega⟩, fun p hp floor hfloor => ?_, ?_, nofun⟩
    · have hle := hfloors p hp floor hfloor
      simp only
      omega
    · change Deliveries _ [] (ev.seq - 1) _
      rw [hlock]
      exact hdel
  | swapMinSeq hl | sendFull hl =>
    cases hl
    exact ⟨hlog, hroom, hlock, hfloors, hdel, nofun⟩
  | snapshotClosed hl hs =>
    cases hl
    cases hs
    exact ⟨hlog, hroom, trivial, hfloors, hdel.noSubs _, nofun⟩
  | @snapshot ev order subs hl hs hp =>
    cases hl
    cases hs
    refine ⟨hlog, hroom, hlock.1, hfloors, ?_, nofun⟩
    have hstart : Deliveries _ order _ _ := hdel.snapshot hp
    rw [Machine.target, Nat.sub_add_cancel (hlock.1 ▸ hlock.2)] at hstart
    exact hstart
  | sendClosed => exact ⟨hlog, hroom, hlock, hfloors, hdel, hhandover⟩
  | @send ev i todo w hl hw ho =>
    cases hl
    exact ⟨hlog, hroom, hlock, hfloors, hdel.send hlock hw, nofun⟩
  | @drop ev i todo w hl hw =>
    cases hl
    have hdrop := hdel.drop
    rw [← getD_map_erase] at hdrop
    rcases Machine.removeSub_cases _ i w with hr | hr <;> rw [hr]
    · exact ⟨hlog, hroom, hlock, hfloors, hdrop, nofun⟩
    · refine ⟨hlog, hroom, hlock, hfloors, ?_, nofun⟩
      exact hdrop.set hw rfl rfl rfl id (fun hu => ⟨hu, rfl, rfl⟩) (hdrop.served hw).live

/-- The steps of a watch, its goroutine and its consumer. -/
theorem watchStep {i : ℕ} {a : WatchStep} (h : DeliveryInv m)
    (hc : BackfillComplete m (.watch i a)) (hm : Moves m (.watch i a) m') : DeliveryInv m' := by
  cases hm with
  | checkFailed hw hp | backfillFailed hw hp =>
    have hi := h.not_mem_subs hw (by simp [hp])
    exact h.setWatch hw rfl rfl rfl nofun nofun fun hmem => absurd hmem hi
  | check hw hp =>
    have hi := h.not_mem_subs hw (by simp [hp])
    exact h.setWatch hw rfl rfl rfl nofun (fun _ => ⟨by rw [hp]; rfl, rfl, rfl⟩)
      fun hmem => absurd hmem hi
  | @backfill _ w buffer sent hw hp hl hb =>
    obtain ⟨hlog, hroom, hdel⟩ := h.of_quiet (by rw [hl]; rfl)
    obtain ⟨hretained, hfits⟩ := hc w hw
    have hseqs := backfill_spec hlog hroom hretained hfits hb
    refine ⟨hlog, hroom, trivial, h.floors, hdel.backfill hw hp fun _ => hseqs, ?_⟩
    rintro _ ⟨⟩
    have hi : i < m.watches.length := (List.getElem?_eq_some_iff.mp hw).1
    have hempty := (hdel.unfilled i w hw (by rw [hp]; rfl)).1
    refine ⟨_, getElem?_set_self hi, ?_⟩
    intro hle
    simp only at hle
    simp only [Watch.upto, Watch.seqs, hempty, nil_append, hseqs, length_range']
    omega
  | registerClosed hw hp hl ho =>
    have hi := h.not_mem_subs hw (by simp [hp])
    obtain ⟨hlog, hroom, hdel⟩ := h.of_quiet (by rw [hl]; rfl)
    refine ⟨hlog, hroom, trivial, h.floors, ?_, nofun⟩
    exact hdel.set hw rfl rfl rfl nofun nofun fun hmem => absurd hmem hi
  | registerPanic => exact { h with }
  | @register _ w subs hw hp hl hs =>
    obtain ⟨hlog, hroom, hdel⟩ := h.of_quiet (by rw [hl]; rfl)
    obtain ⟨v, hv, hupto⟩ := h.handover i hl
    cases hw.symm.trans hv
    rw [hs] at hdel
    exact ⟨hlog, hroom, trivial, h.floors, hdel.register hw hp hupto, nofun⟩
  | @detach _ w hw hp hd =>
    have herase := h.deliveries.erase i
    rw [← getD_map_erase] at herase
    have hout : i ∉ (m.subs.map fun l : List ℕ => l.erase i).getD [] := by
      rw [getD_map_erase]
      exact h.deliveries.subs_nodup.not_mem_erase
    have hmid : DeliveryInv { m with subs := m.subs.map fun l : List ℕ => l.erase i } :=
      { h with deliveries := herase }
    rcases m.removeSub_cases i { w with phase := .detached } with hr | hr <;> rw [hr]
    · exact { hmid with }
    · exact hmid.setWatch hw rfl rfl rfl (fun _ => by rw [hp]; rfl) nofun
        fun hmem => absurd hmem hout
  | @read _ w ev rest hw hb =>
    refine h.setWatch hw rfl rfl ?_ id ?_ (h.deliveries.served hw).live
    · simp only [Watch.seqs, hb, append_assoc, singleton_append]
    · intro hu
      have hempty := (h.deliveries.unfilled i w hw hu).2
      rw [hb] at hempty
      cases hempty
  | @cancel _ w hw =>
    exact h.setWatch hw rfl rfl rfl id (fun hu => ⟨hu, rfl, rfl⟩) (h.deliveries.served hw).live

/-- Steps of the pruner only delete what is out of retention. -/
theorem pruneStep {j : ℕ} {a : PruneStep} (h : DeliveryInv m) (hm : Moves m (.prune j a) m') :
    DeliveryInv m' := by
  cases hm with
  | @batch _ floor next hp hn =>
    have hfloor := h.floors _ (mem_of_getElem? hp) floor rfl
    obtain ⟨hdrop, hbelow⟩ := pruneBatch_spec floor batchSize m.disk.events
    have hwritten : m.lastSeq ≤ m.written := by
      have hlock := h.lockSeq
      unfold Machine.LockSeq at hlock
      unfold Machine.written
      split
      · rename_i hl
        rw [hl] at hlock
        omega
      · exact le_rfl
    have hlog := h.log.drop (pruneBatch floor batchSize m.disk.events).1 (by
      intro e he
      have hlt := hbelow e he
      omega)
    rw [← hdrop] at hlog
    refine { h with log := hlog, floors := floors_set h.floors fun floor' hfloor' => ?_ }
    rcases hn with rfl | rfl <;> cases hfloor'
    exact hfloor
  | _ => exact { h with floors := floors_set h.floors nofun }

/-- One step of any party, in which a backfill is complete. -/
theorem step {a : Action} (h : DeliveryInv m) (hc : BackfillComplete m a)
    (hst : m.step a = some m') : DeliveryInv m' := by
  obtain ⟨_, hm⟩ := Machine.step_moves hst
  cases a with
  | propose a => exact h.proposeStep hm
  | watch i a => exact h.watchStep hc hm
  | prune j a => exact h.pruneStep hm
  | newWatch fromSeq =>
    cases hm
    refine { h with deliveries := h.deliveries.append fromSeq, handover := fun i hl => ?_ }
    obtain ⟨w, hw, hupto⟩ := h.handover i hl
    exact ⟨w, getElem?_newWatch hw, hupto⟩
  | close a =>
    cases hm with
    | closeFlag | closeDone => exact { h with }
    | dropSubs hcl =>
      refine { h with
        deliveries := (h.deliveries.cancelSubs _).dropSubs, handover := fun i hl => ?_ }
      obtain ⟨w, hw, hupto⟩ := h.handover i hl
      obtain ⟨v, hv, rfl | rfl⟩ := getElem?_cancelSubs hw
      · exact ⟨_, hv, hupto⟩
      · exact ⟨_, hv, hupto⟩
  | newPruner =>
    cases hm with
    | @newPruner floor hf =>
      refine { h with floors := fun p hp floor' hfloor' => ?_ }
      rcases mem_append.mp hp with hp | hp
      · exact h.floors p hp floor' hfloor'
      · rw [mem_singleton.mp hp] at hfloor'
        cases hfloor'
        exact pruneFloor_le hf

end DeliveryInv

/-- A watch that has returned its channel. -/
def Watch.Succeeded (w : Watch) : Prop := w.phase = .live ∨ w.phase = .detached

/-- In every run whose backfills are complete, what the consumer of a successful watch receives,
and what is still in its channel, are the numbers behind its position in order, none skipped or
repeated. -/
theorem watch_has_no_gap (opts : BackendOptions) (d : Disk) (n : ℕ)
    (hlog : d.LogOf n opts.defaults.retentionMaxEvents) (hn : n < 2 ^ 64) (acts : List Action)
    (m : Machine) (hcomplete : Along Machine.step BackfillComplete (.opened opts d) acts)
    (hrun : exec Machine.step (.opened opts d) acts = some m) :
    ∀ w ∈ m.watches, w.Succeeded → w.fromSeq ≤ w.head →
      w.received.map Event.seq = List.range' (w.fromSeq + 1) w.received.length ∧
      (w.received ++ w.buffer).map Event.seq =
        List.range' (w.fromSeq + 1) (w.received ++ w.buffer).length := by
  have hinv := exec_invariant_along (fun _ _ _ hm hc hst => DeliveryInv.step hm hc hst)
    (opened_deliveryInv hlog hn) hcomplete hrun
  intro w hw hsucc hle
  obtain ⟨i, hi⟩ := getElem?_of_mem hw
  have hdel : w.phase.delivers = true := by
    rcases hsucc with hp | hp
    · rw [hp]
      rfl
    · rw [hp]
      rfl
  have hall : (w.received ++ w.buffer).map Event.seq =
      range' (w.fromSeq + 1) (w.received ++ w.buffer).length := by
    have hc := hinv.deliveries.consecutive i w hi hdel hle
    simpa only [Watch.Consecutive, Watch.seqs, length_map] using hc
  refine ⟨?_, hall⟩
  have htake := congrArg (take w.received.length) hall
  rw [map_append, take_left' (length_map _),
    take_range'_of_length_ge (by rw [length_append]; omega)] at htake
  exact htake

/-- A log of two events behind which a watch starts. -/
def twoProposals : List Action :=
  proposeSteps.take 4 ++ [.propose (.snapshot []), .propose .finish] ++
    proposeSteps.take 4 ++ [.propose (.snapshot []), .propose .finish]

theorem emptyDisk_logOf (keep : ℕ) : (Disk.empty fun _ => none).LogOf 0 keep :=
  ⟨rfl, le_rfl, rfl, fun _ he => absurd he not_mem_nil, by simp [Disk.empty]⟩

/-- Only a backfill is asked for anything. -/
theorem backfillComplete_of_ne {m : Machine} {a : Action} (h : ∀ i, a ≠ .watch i .backfill) :
    BackfillComplete m a := by
  unfold BackfillComplete
  split
  · exact absurd rfl (h _)
  · trivial

/-- A watch behind two events gets both of them from its backfill and then the next one. -/
theorem watch_has_no_gap_bufferTwo :
    ∃ m, exec Machine.step (.opened ⟨2, 100⟩ (.empty fun _ => none))
        (twoProposals ++ watchSteps 0 ++ ([.watch 0 .read] ++ proposeSteps ++
          [.watch 0 .read, .watch 0 .read])) = some m ∧
      ∃ w ∈ m.watches, w.Succeeded ∧ w.received.length = 3 ∧
        w.received.map Event.seq = [1, 2, 3] := by
  have hcomplete : Along Machine.step BackfillComplete (.opened ⟨2, 100⟩ (.empty fun _ => none))
      (twoProposals ++ watchSteps 0 ++ ([.watch 0 .read] ++ proposeSteps ++
        [.watch 0 .read, .watch 0 .read])) := by
    have hquiet : ∀ {s : Machine} {as : List Action}, (∀ a ∈ as, ∀ i, a ≠ .watch i .backfill) →
        Along Machine.step BackfillComplete s as := fun h =>
      Along.of_forall (fun a ha _ => backfillComplete_of_ne (h a ha)) _
    refine .append (.append (hquiet ?_) fun s hs => ?_) fun _ _ => hquiet ?_
    · simp [twoProposals, proposeSteps]
    · cases hs
      refine ⟨trivial, fun s₁ h₁ => ⟨trivial, fun s₂ h₂ => ⟨?_, fun _ _ => ⟨trivial, fun _ _ =>
        trivial⟩⟩⟩⟩
      cases h₁
      cases h₂
      rintro w hw
      cases hw
      refine ⟨fun k hlow hk => ?_, by decide⟩
      change k ∈ [1, 2]
      change 0 < k at hlow
      change k ≤ 2 at hk
      rw [mem_pair]
      omega
    · simp [proposeSteps]
  obtain ⟨m, w, hrun, hw, hsucc, hhead, hfrom, hlen⟩ : ∃ m w,
      exec Machine.step (.opened ⟨2, 100⟩ (.empty fun _ => none)) (twoProposals ++ watchSteps 0 ++
        ([.watch 0 .read] ++ proposeSteps ++ [.watch 0 .read, .watch 0 .read])) = some m ∧
      w ∈ m.watches ∧ w.Succeeded ∧ w.fromSeq ≤ w.head ∧ w.fromSeq = 0 ∧
      w.received.length = 3 :=
    ⟨_, _, rfl, mem_singleton_self _, .inl rfl, Nat.zero_le _, rfl, rfl⟩
  have hseqs := (watch_has_no_gap _ _ 0 (emptyDisk_logOf _) (by decide) _ m hcomplete hrun w hw
    hsucc hhead).1
  rw [hfrom, hlen] at hseqs
  exact ⟨m, hrun, w, hw, hsucc, hlen, hseqs⟩

/-- Two events do not fit the buffer of one: the watch succeeds, and the event delivered after the
first is the third. -/
theorem watch_gap_bufferOne :
    ∃ m, exec Machine.step (.opened bufferOne (.empty fun _ => none))
        (twoProposals ++ watchSteps 0 ++ [.watch 0 .read] ++ proposeSteps ++
          [.propose .finish, .watch 0 .read]) = some m ∧
      ∃ w ∈ m.watches, w.Succeeded ∧ w.fromSeq ≤ w.head ∧
        w.received.map Event.seq = [1, 3] := by
  refine ⟨_, rfl, _, mem_singleton_self _, Or.inl rfl, Nat.zero_le _, rfl⟩

/-- A pass of the pruner between the check and the backfill of a watch takes away the
first event that the watch was promised. -/
example :
    ∃ m, exec Machine.step (.opened ⟨10, 1⟩ (.empty fun _ => none))
        (twoProposals ++ [.newWatch 0, .watch 0 .check, .newPruner, .prune 0 .batch,
          .watch 0 .backfill, .watch 0 .register, .watch 0 .read]) = some m ∧
      ∃ w ∈ m.watches, w.Succeeded ∧ w.received.map Event.seq = [2] := by
  refine ⟨_, rfl, _, mem_singleton_self _, Or.inl rfl, rfl⟩

end Rune.OrderedLog
