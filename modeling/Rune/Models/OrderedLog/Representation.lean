import Rune.Core.Run
import Rune.Models.OrderedLog.Backend

/-!
# The representation of the log

The counter on disk, the counter in memory and the number of successful proposals
agree in every state, the retained keys are an interval that ends at the counter,
and every key holds the event of its own number. The smallest retained number in
memory is right as long as no pass of the pruner fails after it has deleted: such
a pass returns without looking the number up again.
-/

namespace Rune.OrderedLog

open Rune.Core List

/-- The log's part of the database after `n` proposals. -/
structure Disk.LogOf (n keep : ℕ) (d : Disk) : Prop where
  seq_eq : d.seq.getD 0 = n
  length_le : d.events.length ≤ n
  keys_eq : d.events.map Prod.fst = List.range' (n + 1 - d.events.length) d.events.length
  own_event : ∀ e ∈ d.events, ∃ ev : Event, ev.seq = e.1 ∧ encodeEvent ev = .ok e.2
  retained : min n keep ≤ d.events.length

theorem BackendOptions.retentionMaxEvents_pos (o : BackendOptions) :
    0 < o.defaults.retentionMaxEvents := by
  simp only [defaults]
  split <;> omega

/-- The first key is the lower end of the interval. -/
theorem firstSeq_of_keys {es : List (ℕ × Bytes)} {low len : ℕ} (hne : es ≠ [])
    (h : es.map Prod.fst = List.range' low len) : firstSeq es = low := by
  cases es with
  | nil => exact absurd rfl hne
  | cons e es =>
    cases len with
    | zero => cases h
    | succ len =>
      exact (cons.inj h).1

namespace Disk.LogOf

variable {n keep : ℕ} {d : Disk}

theorem mem_keys (h : d.LogOf n keep) {e : ℕ × Bytes} (he : e ∈ d.events) :
    n + 1 - d.events.length ≤ e.1 ∧ e.1 ≤ n := by
  have hmem : e.1 ∈ d.events.map Prod.fst := mem_map_of_mem he
  rw [h.keys_eq, mem_range'_1] at hmem
  have hle := h.length_le
  omega

theorem firstSeq_eq (h : d.LogOf n keep) (he : d.events ≠ []) :
    firstSeq d.events = n + 1 - d.events.length := firstSeq_of_keys he h.keys_eq

/-- A proposal appends the event of the next number. -/
theorem append (h : d.LogOf n keep) {d' : Disk} {raw : Bytes} {ev : Event}
    (hev : ev.seq = n + 1) (henc : encodeEvent ev = .ok raw) (hseq : d'.seq = some (n + 1))
    (hevents : d'.events = setEvent (n + 1) raw d.events) : d'.LogOf (n + 1) keep := by
  have happend : d'.events = d.events ++ [(n + 1, raw)] := by
    rw [hevents, setEvent_append]
    intro e he
    have hle := (h.mem_keys he).2
    omega
  have hlen : d'.events.length = d.events.length + 1 := by
    rw [happend, length_append, length_singleton]
  have hle := h.length_le
  refine { seq_eq := by rw [hseq]; rfl, length_le := by omega, keys_eq := ?_, own_event := ?_,
           retained := ?_ }
  · have hlow : n + 1 + 1 - (d.events.length + 1) = n + 1 - d.events.length := by omega
    have hend : n + 1 - d.events.length + d.events.length = n + 1 := by omega
    rw [hlen, happend, map_append, h.keys_eq, hlow, range'_1_concat, hend]
    rfl
  · intro e he
    rw [happend] at he
    rcases mem_append.mp he with he | he
    · exact h.own_event e he
    · rw [mem_singleton.mp he]
      exact ⟨ev, hev, henc⟩
  · have hret := h.retained
    omega

/-- Deleting keys from the front that are out of retention keeps the log. -/
theorem drop (h : d.LogOf n keep) (k : ℕ)
    (hout : ∀ e ∈ d.events.take k, e.1 + keep ≤ n) :
    ({ d with events := d.events.drop k } : Disk).LogOf n keep := by
  have hle := h.length_le
  refine { seq_eq := h.seq_eq, length_le := ?_, keys_eq := ?_, own_event := ?_, retained := ?_ }
  · simp only [length_drop]
    omega
  · simp only [length_drop, map_drop, h.keys_eq, drop_range']
    by_cases hk : k ≤ d.events.length
    · congr 1
      omega
    · rw [Nat.sub_eq_zero_of_le (Nat.le_of_not_le hk), range'_zero, range'_zero]
  · intro e he
    exact h.own_event e (mem_of_mem_drop he)
  · have hret := h.retained
    simp only [length_drop]
    rcases Nat.eq_zero_or_pos (min k d.events.length) with hzero | hpos
    · omega
    have htake : (d.events.take k).map Prod.fst =
        range' (n + 1 - d.events.length) (min k d.events.length) := by
      rw [take_eq_take_min, map_take, h.keys_eq, take_range'_of_length_ge (Nat.min_le_right _ _)]
    have hlast : n + 1 - d.events.length + (min k d.events.length - 1) ∈
        (d.events.take k).map Prod.fst := by
      rw [htake, mem_range'_1]
      omega
    obtain ⟨e, he, hkey⟩ := mem_map.mp hlast
    have hbound := hout e he
    omega

/-- A log that keeps its first number has lost nothing. -/
theorem drop_eq_self (h : d.LogOf n keep) (hkeep : 0 < keep) {k : ℕ}
    (hdrop : ({ d with events := d.events.drop k } : Disk).LogOf n keep)
    (hfirst : d.events.drop k ≠ [] → firstSeq (d.events.drop k) = firstSeq d.events) :
    d.events.drop k = d.events := by
  have hretained := hdrop.retained
  have hle := h.length_le
  by_cases hnil : d.events.drop k = []
  · simp only [hnil, length_nil] at hretained
    have hzero : d.events = [] := length_eq_zero_iff.mp (by omega)
    simp only [hzero, drop_nil]
  · have hne : d.events ≠ [] := fun he => hnil (by rw [he, drop_nil])
    have hbefore := h.firstSeq_eq hne
    have hafter := hdrop.firstSeq_eq hnil
    have hsame := hfirst hnil
    have hpos : 0 < (d.events.drop k).length := length_pos_iff.mpr hnil
    simp only [length_drop] at hafter hpos
    obtain rfl : k = 0 := by omega
    rfl

end Disk.LogOf

/-- The number of keys that a pass has to delete. -/
def belowFloor (floor : ℕ) (es : List (ℕ × Bytes)) : ℕ :=
  (es.takeWhile fun e => e.1 < floor).length

/-- The number of batches that commit before one fails. -/
def commitsBefore : List BatchOutcome → ℕ
  | .committed :: outcomes => commitsBefore outcomes + 1
  | .txnTooBig :: outcomes => commitsBefore outcomes
  | _ => 0

/-- The error of the first batch that fails. -/
def firstFailure : List BatchOutcome → Option LogError
  | [] => none
  | .failed err :: _ => some err
  | _ :: outcomes => firstFailure outcomes

/-- What one batch takes. -/
theorem pruneBatch_eq (floor room : ℕ) (es : List (ℕ × Bytes)) :
    pruneBatch floor room es =
      (min (belowFloor floor es) room, es.drop (min (belowFloor floor es) room)) := by
  fun_induction pruneBatch floor room es with
  | case1 es => simp
  | case2 room => simp [belowFloor]
  | case3 room e es hfloor => simp [belowFloor, hfloor]
  | case4 room e es hfloor ih => simp [belowFloor, not_le.mp hfloor, ih, Nat.add_min_add_right]

/-- The keys that are left to delete after some of them. -/
theorem belowFloor_drop {floor k : ℕ} {es : List (ℕ × Bytes)} (h : k ≤ belowFloor floor es) :
    belowFloor floor (es.drop k) = belowFloor floor es - k := by
  induction k generalizing es with
  | zero => rfl
  | succ k ih =>
    cases es with
    | nil => simp [belowFloor] at h
    | cons e es =>
      by_cases hlt : e.1 < floor
      · have hcons : belowFloor floor (e :: es) = belowFloor floor es + 1 := by
          simp [belowFloor, hlt]
        rw [hcons] at h ⊢
        rw [drop_succ_cons, ih (Nat.le_of_succ_le_succ h), Nat.add_sub_add_right]
      · simp [belowFloor, hlt] at h

theorem lt_of_mem_take {floor k : ℕ} {es : List (ℕ × Bytes)} {e : ℕ × Bytes}
    (he : e ∈ es.take (min (belowFloor floor es) k)) : e.1 < floor := by
  have htake : e ∈ es.takeWhile fun e => e.1 < floor := by
    rw [prefix_iff_eq_take.mp ( takeWhile_prefix fun e : ℕ × Bytes => decide (e.1 < floor))]
    exact mem_of_mem_take (by rwa [take_take, min_comm])
  simpa using all_eq_true.mp all_takeWhile e htake

/-- The batches that commit before a failure cut full pieces off the front, below the floor, and
the pass has finished when one of them is not full. -/
theorem pruneBatches_eq (floor : ℕ) (outcomes : List BatchOutcome) (es : List (ℕ × Bytes)) :
    pruneBatches floor outcomes es =
      (es.drop (min (belowFloor floor es) (commitsBefore outcomes * batchSize)),
        if belowFloor floor es / batchSize < commitsBefore outcomes then .finished
        else (firstFailure outcomes).elim .cut .failed) := by
  have hsize : 0 < batchSize := by decide
  induction outcomes generalizing es with
  | nil => simp [pruneBatches, commitsBefore, firstFailure]
  | cons outcome outcomes ih =>
    cases outcome with
    | txnTooBig => exact ih es
    | failed err => simp [pruneBatches, commitsBefore, firstFailure]
    | committed =>
      simp only [pruneBatches, pruneBatch_eq, commitsBefore, firstFailure, Nat.add_one_mul]
      by_cases hfull : batchSize ≤ belowFloor floor es
      · have hdiv : (belowFloor floor es - batchSize) / batchSize < commitsBefore outcomes ↔
            belowFloor floor es / batchSize < commitsBefore outcomes + 1 := by
          rw [Nat.div_eq_sub_div hsize hfull, Nat.add_lt_add_iff_right]
        have hmin : batchSize + min (belowFloor floor es - batchSize)
            (commitsBefore outcomes * batchSize) =
            min (belowFloor floor es) (commitsBefore outcomes * batchSize + batchSize) := by
          rw [Nat.add_comm, ← Nat.add_min_add_right, Nat.sub_add_cancel hfull]
        rw [min_eq_right hfull, if_neg (lt_irrefl _), ih, belowFloor_drop hfull, drop_drop, hmin]
        exact Prod.ext rfl (if_congr hdiv rfl rfl)
      · have hlt : belowFloor floor es < batchSize := not_le.mp hfull
        rw [min_eq_left hlt.le, if_pos hlt, min_eq_left (hlt.le.trans (Nat.le_add_left _ _))]
        refine Prod.ext rfl (if_pos ?_).symm
        rw [Nat.div_eq_of_lt hlt]
        exact Nat.succ_pos _

theorem pruneFloor_le {keep head floor : ℕ} (h : pruneFloor keep head = some floor) :
    floor + keep ≤ head + 1 := by
  revert h
  fun_cases pruneFloor keep head <;> rintro ⟨⟩
  omega

/-- What a pass does to the database and to the object: the object is only updated
at the end of a pass that went through. -/
theorem Backend.pruneOnce_spec {b b' : Backend} {d d' : Disk} {outcomes : List BatchOutcome}
    {scanErr : Option LogError} {fin : PassEnd}
    (h : b.pruneOnce d outcomes scanErr = (d', b', fin)) :
    ∃ k, d' = { d with events := d.events.drop k } ∧
      (∀ e ∈ d.events.take k, e.1 + b.opts.retentionMaxEvents ≤ b.lastSeq) ∧
      (b' = b ∧ (fin = .finished → d.events.drop k = d.events) ∨
        b' = { b with minSeq := firstSeq (d.events.drop k) } ∧ fin = .finished) := by
  unfold pruneOnce at h
  split at h
  · cases h
    exact ⟨0, rfl, fun _ he => absurd he not_mem_nil, Or.inl ⟨rfl, fun _ => rfl⟩⟩
  · rename_i floor hfloor
    obtain ⟨k, hk, hbelow⟩ : ∃ k, (pruneBatches floor outcomes d.events).1 = d.events.drop k ∧
        ∀ e ∈ d.events.take k, e.1 < floor :=
      ⟨_, by rw [pruneBatches_eq], fun _ => lt_of_mem_take⟩
    have hout : ∀ e ∈ d.events.take k, e.1 + b.opts.retentionMaxEvents ≤ b.lastSeq := by
      intro e he
      have hlt := hbelow e he
      have hle := pruneFloor_le hfloor
      omega
    simp only [hk] at h
    refine ⟨k, ?_⟩
    repeat' split at h
    all_goals cases h
    · exact ⟨rfl, hout, Or.inl ⟨rfl, nofun⟩⟩
    · exact ⟨rfl, hout, Or.inr ⟨rfl, rfl⟩⟩
    · exact ⟨rfl, hout, Or.inl ⟨rfl, nofun⟩⟩
    · exact ⟨rfl, hout, Or.inl ⟨rfl, nofun⟩⟩

/-- A proposal that fails changes nothing. -/
theorem Backend.propose_error {b b' : Backend} {d d' : Disk} {ctxErr commitErr : Option LogError}
    {op : Option Op} {err : LogError}
    (h : b.propose d ctxErr op commitErr = (d', b', .error err)) : d' = d ∧ b' = b := by
  revert h
  fun_cases b.propose d ctxErr op commitErr <;> rintro ⟨⟩ <;> exact ⟨rfl, rfl⟩

/-- A proposal that succeeds stores the event of the next number. -/
theorem Backend.propose_ok {b b' : Backend} {d d' : Disk} {ctxErr commitErr : Option LogError}
    {op : Option Op} {seq : ℕ} (h : b.propose d ctxErr op commitErr = (d', b', .ok seq)) :
    b' = b.committed (b.lastSeq + 1) ∧ d'.seq = some (b.lastSeq + 1) ∧
      ∃ (ev : Event) (raw : Bytes), ev.seq = b.lastSeq + 1 ∧ encodeEvent ev = .ok raw ∧
        d'.events = setEvent (b.lastSeq + 1) raw d.events := by
  simp only [propose] at h
  repeat' split at h
  all_goals cases h
  obtain ⟨hev, hseq, raw, henc, hevents⟩ := proposeTxn_ok ‹_›
  exact ⟨rfl, hseq, _, raw, hev, henc, hevents⟩

/-- The counters agree, the retained keys are the interval from the smallest number to the
counter, every key holds its own event, and enough events are retained. -/
structure Session.Represents (keep : ℕ) (s : Session) : Prop where
  persisted : s.disk.seq.getD 0 = s.proposed
  lastSeq : ∀ b, s.backend = some b → b.lastSeq = s.proposed
  contiguous : ∃ low, s.disk.events.map Prod.fst = List.range' low (s.proposed + 1 - low)
  interval : ∀ b, s.backend = some b → s.disk.events = [] ∨
    s.disk.events.map Prod.fst = List.range' b.minSeq (b.lastSeq + 1 - b.minSeq)
  ownEvent : ∀ e ∈ s.disk.events, ∃ ev : Event, ev.seq = e.1 ∧ encodeEvent ev = .ok e.2
  retained : min s.proposed keep ≤ s.disk.events.length

/-- A failed proposal changes nothing, and a pass of the pruner deletes only what is out of
retention. -/
def Session.CallKeeps (keep : ℕ) (s : Session) (c : Call) (t : Session) : Prop :=
  match c with
  | .propose ctxErr op commitErr => ∀ b err, s.backend = some b →
      (b.propose s.disk ctxErr op commitErr).2.2 = .error err →
      t.disk = s.disk ∧ t.backend = s.backend
  | .prune _ _ => ∀ e ∈ s.disk.events, e ∉ t.disk.events → e.1 + keep ≤ s.proposed
  | _ => True

/-- A pass that has keys to delete does not fail after it has deleted one: where enough batches
commit before one fails the scan at the end succeeds, and otherwise no batch fails after one has
committed. -/
def Session.PassCompletes (s : Session) (c : Call) : Prop :=
  match c with
  | .prune outcomes scanErr => ∀ b floor, s.backend = some b →
      pruneFloor b.opts.retentionMaxEvents b.lastSeq = some floor →
      0 < belowFloor floor s.disk.events →
      (belowFloor floor s.disk.events / batchSize < commitsBefore outcomes → scanErr = none) ∧
      (commitsBefore outcomes ≤ belowFloor floor s.disk.events / batchSize →
        firstFailure outcomes = none ∨ commitsBefore outcomes = 0)
  | _ => True

/-- In terms of the pass: one that fails has not deleted anything. -/
theorem Session.passCompletes_iff {s : Session} {outcomes : List BatchOutcome}
    {scanErr : Option LogError} : s.PassCompletes (.prune outcomes scanErr) ↔
      ∀ b err, s.backend = some b → (b.pruneOnce s.disk outcomes scanErr).2.2 = .failed err →
        (b.pruneOnce s.disk outcomes scanErr).1.events = s.disk.events := by
  refine forall_congr' fun b => ?_
  cases hfloor : pruneFloor b.opts.retentionMaxEvents b.lastSeq with
  | none => simp [Backend.pruneOnce, hfloor]
  | some floor =>
    have hdrop : ∀ k, s.disk.events.drop (min (belowFloor floor s.disk.events) k) =
        s.disk.events ↔ belowFloor floor s.disk.events = 0 ∨ k = 0 := by
      intro k
      refine ⟨fun h => ?_, fun h => by rcases h with h | h <;> simp [h]⟩
      have hlen := congrArg length h
      have hle : belowFloor floor s.disk.events ≤ s.disk.events.length :=
        ( takeWhile_prefix _).length_le
      rw [length_drop] at hlen
      omega
    have hsize : batchSize ≠ 0 := by decide
    by_cases hbatches : belowFloor floor s.disk.events / batchSize < commitsBefore outcomes
    · have hsome : commitsBefore outcomes ≠ 0 := (Nat.zero_lt_of_lt hbatches).ne'
      have hlt := Nat.not_le_of_lt hbatches
      cases scanErr <;>
        simp [Backend.pruneOnce, hfloor, pruneBatches_eq, hbatches, hlt, hdrop, hsize, hsome]
    · have hle := Nat.le_of_not_lt hbatches
      cases hfailure : firstFailure outcomes <;>
        simp [Backend.pruneOnce, hfloor, pruneBatches_eq, hbatches, hfailure, hle, hdrop, hsize,
          Nat.pos_iff_ne_zero, or_iff_not_imp_left]

/-- The object's counters are those of the database. -/
structure Backend.Mirrors (opts : BackendOptions) (d : Disk) (n : ℕ) (b : Backend) : Prop where
  opts_eq : b.opts = opts.defaults
  lastSeq_eq : b.lastSeq = n
  minSeq_eq : b.minSeq = firstSeq d.events

/-- The inductive form: the database holds the log of the proposals so far, and the
object mirrors it. -/
structure Session.Inv (opts : BackendOptions) (s : Session) : Prop where
  log : s.disk.LogOf s.proposed opts.defaults.retentionMaxEvents
  mirrors : ∀ b, s.backend = some b → b.Mirrors opts s.disk s.proposed

namespace Backend

variable {opts : BackendOptions} {d : Disk} {n : ℕ} {b : Backend}

/-- A registration. -/
theorem Mirrors.register (h : b.Mirrors opts d n) (opType : Bytes)
    (applier : Option (Op → Script)) (hasUnmarshaler : Bool) :
    (b.register opType applier hasUnmarshaler).1.Mirrors opts d n := by
  fun_cases b.register opType applier hasUnmarshaler <;> try exact h
  exact ⟨h.opts_eq, h.lastSeq_eq, h.minSeq_eq⟩

/-- A close. -/
theorem Mirrors.close (h : b.Mirrors opts d n) {b' : Backend} (hc : b.close = some b') :
    b'.Mirrors opts d n := by
  revert hc
  fun_cases Backend.close b <;> rintro ⟨⟩
  · exact h
  · exact ⟨h.opts_eq, h.lastSeq_eq, h.minSeq_eq⟩

/-- Opening again keeps the mirror, whether or not it succeeds. -/
theorem Mirrors.openLog (h : b.Mirrors opts d n) (hseq : d.seq.getD 0 = n)
    (loadErr scanErr : Option LogError) : (b.openLog d loadErr scanErr).1.Mirrors opts d n := by
  cases loadErr with
  | some err => exact h
  | none =>
    cases scanErr with
    | some err => exact ⟨h.opts_eq, hseq, h.minSeq_eq⟩
    | none => exact ⟨h.opts_eq, hseq, rfl⟩

/-- A new object mirrors the database as soon as its open succeeds. -/
theorem mirrors_of_openLog_new (hseq : d.seq.getD 0 = n) {loadErr scanErr : Option LogError}
    (h : (newBadgerBackend opts).openLog d loadErr scanErr = (b, .ok ())) :
    b.Mirrors opts d n := by
  cases loadErr with
  | some err => cases h
  | none =>
    cases scanErr with
    | some err => cases h
    | none =>
      cases h
      exact ⟨rfl, hseq, rfl⟩

/-- The first commit into an empty log defines the smallest number. -/
theorem Mirrors.committed (h : b.Mirrors opts d n) {keep : ℕ} (hlog : d.LogOf n keep)
    {d' : Disk} {raw : Bytes} (hevents : d'.events = setEvent (n + 1) raw d.events) :
    (b.committed (n + 1)).Mirrors opts d' (n + 1) := by
  refine ⟨h.opts_eq, rfl, ?_⟩
  have happend : d'.events = d.events ++ [(n + 1, raw)] := by
    rw [hevents, setEvent_append]
    intro e he
    have hle := (hlog.mem_keys he).2
    omega
  have hmin := h.minSeq_eq
  rw [happend, Backend.committed]
  cases he : d.events with
  | nil =>
    rw [he, firstSeq] at hmin
    rw [hmin]
    rfl
  | cons e es =>
    have hpos : 0 < e.1 := by
      have hmem : e ∈ d.events := he ▸ mem_cons_self
      have hlow := (hlog.mem_keys hmem).1
      have hle := hlog.length_le
      omega
    rw [he, firstSeq] at hmin
    simp only [hmin]
    rw [if_neg (by omega)]
    rfl

end Backend

namespace Session

variable {opts : BackendOptions} {s t : Session} {c : Call}

/-- What the invariant says of the disk. -/
theorem Inv.represents (h : s.Inv opts) : s.Represents opts.defaults.retentionMaxEvents := by
  have hle := h.log.length_le
  have hkeys := h.log.keys_eq
  have hspan : s.proposed + 1 - (s.proposed + 1 - s.disk.events.length) =
      s.disk.events.length := by omega
  refine { persisted := h.log.seq_eq, lastSeq := fun b hb => (h.mirrors b hb).lastSeq_eq,
           contiguous := ?_, interval := ?_, ownEvent := h.log.own_event,
           retained := h.log.retained }
  · exact ⟨s.proposed + 1 - s.disk.events.length, by rw [hspan, hkeys]⟩
  · intro b hb
    by_cases he : s.disk.events = []
    · exact Or.inl he
    · right
      have hmin := (h.mirrors b hb).minSeq_eq
      rw [h.log.firstSeq_eq he] at hmin
      rw [hmin, (h.mirrors b hb).lastSeq_eq, hspan, hkeys]

/-- A session that runs. -/
theorem inv_running {d : Disk} {b : Backend} {n : ℕ}
    (hlog : d.LogOf n opts.defaults.retentionMaxEvents) (hm : b.Mirrors opts d n) :
    ({ disk := d, backend := some b, proposed := n } : Session).Inv opts := by
  refine ⟨hlog, ?_⟩
  intro b' hb'
  cases hb'
  exact hm

/-- A session that is stopped. -/
theorem inv_stopped {d : Disk} {n : ℕ} (hlog : d.LogOf n opts.defaults.retentionMaxEvents) :
    ({ disk := d, backend := none, proposed := n } : Session).Inv opts :=
  ⟨hlog, nofun⟩

/-- Where a run starts. -/
theorem init_inv (opts : BackendOptions) (data : Bytes → Option Bytes) :
    (init opts data).Inv opts := by
  refine inv_running ⟨rfl, le_rfl, rfl, fun _ he => absurd he not_mem_nil, Nat.le_of_eq ?_⟩
    ⟨rfl, rfl, rfl⟩
  exact Nat.zero_min _

/-- A proposal appends one event and counts itself, or changes nothing. -/
theorem Inv.step_propose {ctxErr : Option LogError} {op : Option Op}
    {commitErr : Option LogError} (h : s.Inv opts)
    (hst : Session.step opts s (.propose ctxErr op commitErr) = some t) : t.Inv opts := by
  obtain ⟨b, hroom, ht⟩ := Option.map_eq_some_iff.mp hst
  have hm := h.mirrors b (Option.filter_eq_some_iff.mp hroom).1
  rcases hprop : b.propose s.disk ctxErr op commitErr with ⟨d', b', result⟩
  rw [hprop] at ht
  cases result with
  | error err =>
    obtain ⟨rfl, rfl⟩ := Backend.propose_error hprop
    cases ht
    exact inv_running h.log hm
  | ok seq =>
    obtain ⟨rfl, hseq, ev, raw, hev, henc, hevents⟩ := Backend.propose_ok hprop
    rw [hm.lastSeq_eq] at hseq hev hevents ht
    cases ht
    exact inv_running (h.log.append hev henc hseq hevents) (hm.committed h.log hevents)

/-- A pass that has not failed after deleting leaves the smallest number right. -/
theorem Inv.step_prune {outcomes : List BatchOutcome} {scanErr : Option LogError}
    (h : s.Inv opts) (hc : s.PassCompletes (.prune outcomes scanErr))
    (hst : Session.step opts s (.prune outcomes scanErr) = some t) : t.Inv opts := by
  obtain ⟨b, hb, ht⟩ := Option.map_eq_some_iff.mp hst
  have hm := h.mirrors b hb
  rcases hprune : b.pruneOnce s.disk outcomes scanErr with ⟨d', b', fin⟩
  have hcomplete := Session.passCompletes_iff.mp hc b
  rw [hprune] at ht hcomplete
  obtain ⟨k, rfl, hout, hend⟩ := Backend.pruneOnce_spec hprune
  rw [hm.opts_eq, hm.lastSeq_eq] at hout
  have hlog := h.log.drop k hout
  cases fin with
  | cut =>
    cases ht
    exact inv_stopped hlog
  | finished =>
    cases ht
    refine inv_running hlog ?_
    rcases hend with ⟨rfl, hsame⟩ | ⟨rfl, _⟩
    · refine ⟨hm.opts_eq, hm.lastSeq_eq, ?_⟩
      simp only [hsame rfl, hm.minSeq_eq]
    · exact ⟨hm.opts_eq, hm.lastSeq_eq, rfl⟩
  | failed err =>
    cases ht
    have hsame : s.disk.events.drop k = s.disk.events := hcomplete err hb rfl
    refine inv_running hlog ?_
    rcases hend with ⟨rfl, _⟩ | ⟨_, hf⟩
    · refine ⟨hm.opts_eq, hm.lastSeq_eq, ?_⟩
      simp only [hsame, hm.minSeq_eq]
    · cases hf

/-- Every call but a pass of the pruner keeps the invariant, and so does a pass
that has not failed after deleting. -/
theorem Inv.step (h : s.Inv opts) (hc : s.PassCompletes c)
    (hst : Session.step opts s c = some t) : t.Inv opts := by
  have hstep := hst
  revert hst
  fun_cases Session.step opts s c <;> intro hst <;> try cases hst
  · exact inv_running h.log (Backend.mirrors_of_openLog_new h.log.seq_eq ‹_›)
  · exact inv_stopped h.log
  · obtain ⟨b, hb, rfl⟩ := Option.map_eq_some_iff.mp hst
    exact inv_running h.log ((h.mirrors b hb).register _ _ _)
  · exact h.step_propose hstep
  · exact h.step_prune hc hstep
  · obtain ⟨b, hb, rfl⟩ := Option.map_eq_some_iff.mp hst
    exact ⟨h.log, fun b' hb' => (h.mirrors b hb).close hb'⟩
  · exact inv_running h.log ((h.mirrors _ ‹_›).openLog h.log.seq_eq _ _)

/-- No call leaves more behind than it should or takes more than it may. -/
theorem Inv.callKeeps (h : s.Inv opts) (hst : Session.step opts s c = some t) :
    s.CallKeeps opts.defaults.retentionMaxEvents c t := by
  cases c with
  | propose ctxErr op commitErr =>
    intro b err hb herr
    obtain ⟨b₁, hroom, ht⟩ := Option.map_eq_some_iff.mp hst
    cases hb.symm.trans (Option.filter_eq_some_iff.mp hroom).1
    rcases hprop : b.propose s.disk ctxErr op commitErr with ⟨d', b', result⟩
    rw [hprop] at ht herr
    cases herr
    obtain ⟨rfl, rfl⟩ := Backend.propose_error hprop
    cases ht
    exact ⟨rfl, hb.symm⟩
  | prune outcomes scanErr =>
    intro e he hgone
    obtain ⟨b, hb, ht⟩ := Option.map_eq_some_iff.mp hst
    have hm := h.mirrors b hb
    rcases hprune : b.pruneOnce s.disk outcomes scanErr with ⟨d', b', fin⟩
    rw [hprune] at ht
    obtain ⟨k, rfl, hout, _⟩ := Backend.pruneOnce_spec hprune
    rw [hm.opts_eq, hm.lastSeq_eq] at hout
    have hevents : t.disk.events = s.disk.events.drop k := by
      cases fin <;> cases ht <;> rfl
    rw [hevents] at hgone
    have hmem : e ∈ s.disk.events.take k ++ s.disk.events.drop k := by
      rwa [take_append_drop]
    rcases mem_append.mp hmem with hm' | hm'
    · exact hout e hm'
    · exact absurd hm' hgone
  | register opType applier hasUnmarshaler => trivial
  | close => trivial
  | reopen loadErr scanErr => trivial
  | restart loadErr scanErr => trivial

/-- A pass that fails after deleting leaves the smallest number behind the keys. -/
theorem Inv.passCompletes_of_represents (h : s.Inv opts)
    (hrep : ∀ t, Session.step opts s c = some t → t.Represents opts.defaults.retentionMaxEvents) :
    s.PassCompletes c := by
  cases c with
  | prune outcomes scanErr =>
    refine Session.passCompletes_iff.mpr fun b err hb hfailed => ?_
    have hm := h.mirrors b hb
    rcases hprune : b.pruneOnce s.disk outcomes scanErr with ⟨d', b', fin⟩
    rw [hprune] at hfailed
    cases hfailed
    obtain ⟨k, rfl, hout, hend⟩ := Backend.pruneOnce_spec hprune
    rw [hm.opts_eq, hm.lastSeq_eq] at hout
    have hlog := h.log.drop k hout
    rcases hend with ⟨rfl, _⟩ | ⟨_, hf⟩
    · have hrep' := hrep { s with disk := { s.disk with events := s.disk.events.drop k },
                                  backend := some b' } (by simp [Session.step, hb, hprune])
      refine h.log.drop_eq_self opts.retentionMaxEvents_pos hlog fun hnil => ?_
      rw [firstSeq_of_keys hnil ((hrep'.interval b' rfl).resolve_left hnil)]
      exact hm.minSeq_eq
    · cases hf
  | propose ctxErr op commitErr => trivial
  | register opType applier hasUnmarshaler => trivial
  | close => trivial
  | reopen loadErr scanErr => trivial
  | restart loadErr scanErr => trivial

end Session

/-- The representation is right in every state and every call keeps its promise exactly if no pass
of the pruner fails after it has deleted. -/
theorem representation_iff (opts : BackendOptions) (data : Bytes → Option Bytes)
    (calls : List Call) :
    (Session.init opts data).Represents opts.defaults.retentionMaxEvents ∧
    (Along (Session.step opts) (fun s c => ∀ t, Session.step opts s c = some t →
        s.CallKeeps opts.defaults.retentionMaxEvents c t ∧
          t.Represents opts.defaults.retentionMaxEvents) (Session.init opts data) calls ↔
      Along (Session.step opts) Session.PassCompletes (Session.init opts data) calls) := by
  refine ⟨(Session.init_inv opts data).represents, ?_⟩
  refine along_iff (Session.Inv opts) ?_ ?_ (Session.init_inv opts data)
  · intro s c _ hs
    constructor
    · intro hp
      exact hs.passCompletes_of_represents fun t ht => (hp t ht).2
    · intro hq t ht
      exact ⟨hs.callKeeps ht, (hs.step hq ht).represents⟩
  · intro s c _ t hs hq ht
    exact hs.step hq ht

/-- An applier that stores the operation's body under one key. -/
def putApplier (op : Op) : Script :=
  .set (ascii "data/k") op.body fun
    | none => .ret (.ok [⟨1, ascii "test", [], ascii "k", op.body⟩])
    | some err => .ret (.error err)

/-- An operation that `putApplier` applies. -/
def putOp : Op where
  opType := ascii "test.put"
  body := ascii "v"
  marshal := .ok (ascii "v")

/-- Two proposals into a log that keeps one event, and a pass of the pruner. -/
def prunedCalls (scanErr : Option LogError) : List Call :=
  [.register (ascii "test.put") (some putApplier) true, .propose none (some putOp) none,
    .propose none (some putOp) none, .prune [.committed] scanErr]

/-- A log that keeps one event. -/
def keepOne : BackendOptions := ⟨1024, 1⟩

/-- A pass whose last scan fails leaves the smallest number at a deleted key. -/
theorem representation_fails_prunedCalls : ∃ t,
    exec (Session.step keepOne) (Session.init keepOne fun _ => none)
      (prunedCalls (some (.external "DB Closed"))) = some t ∧
    ¬ t.Represents keepOne.defaults.retentionMaxEvents := by
  refine ⟨_, rfl, ?_⟩
  intro h
  exact absurd (h.interval _ rfl) (by decide)

/-- The same calls with a scan that succeeds. -/
theorem representation_iff_prunedCalls :
    Along (Session.step keepOne) (fun s c => ∀ t, Session.step keepOne s c = some t →
        s.CallKeeps keepOne.defaults.retentionMaxEvents c t ∧
          t.Represents keepOne.defaults.retentionMaxEvents)
      (Session.init keepOne fun _ => none) (prunedCalls none) := by
  refine (representation_iff keepOne (fun _ => none) (prunedCalls none)).2.mpr ?_
  refine ⟨trivial, fun s₁ h₁ => ⟨trivial, fun s₂ h₂ => ⟨trivial, fun s₃ h₃ => ⟨?_, ?_⟩⟩⟩⟩
  · cases h₁
    cases h₂
    cases h₃
    rintro b floor ⟨⟩ ⟨⟩ -
    exact ⟨fun _ => rfl, fun _ => .inl rfl⟩
  · intro s₄ _
    trivial

end Rune.OrderedLog
