import Rune.Models.OrderedLog.Event

/-!
# The database under the ordered log

The log owns the keys below `_olog/`: the counter and one key for each retained
event, whose big-endian suffix makes the key order the sequence order. Appliers work
inside a transaction through `Get`, `Set` and `Delete` and may branch on what these
return, so an applier is a tree of such calls. Transactions are functions on the
database.
-/

namespace Rune.OrderedLog

open Rune.Core

/-- The bytes of an ASCII text. -/
def ascii (s : String) : Bytes := s.toList.map fun c => UInt8.ofNat c.toNat

/-- Every key below this one is reserved. -/
def keyPrefix : Bytes := ascii "_olog/"

/-- The key of the counter. -/
def seqKey : Bytes := keyPrefix ++ ascii "seq"

/-- What the keys of events start with. -/
def eventKeyPrefix : Bytes := keyPrefix ++ ascii "event/"

/-- The key of a given sequence number. -/
def eventKey (seq : ℕ) : Bytes := eventKeyPrefix ++ putUint 8 seq

/-- The content of the database. -/
structure Disk where
  /-- The persisted counter. -/
  seq : Option ℕ
  /-- The retained events, by sequence number, in key order. -/
  events : List (ℕ × Bytes)
  /-- Everything outside the reserved prefix. -/
  data : Bytes → Option Bytes

namespace Disk

/-- A database that no log has been opened on. -/
def empty (data : Bytes → Option Bytes) : Disk where
  seq := none
  events := []
  data := data

/-- The value of a key. -/
def get (d : Disk) (key : Bytes) : Option Bytes :=
  if key = seqKey then d.seq.map (putUint 8)
  else match d.events.find? fun e => eventKey e.1 == key with
    | some e => some e.2
    | none => d.data key

end Disk

/-- Write one event key, in key order. -/
def setEvent (seq : ℕ) (raw : Bytes) : List (ℕ × Bytes) → List (ℕ × Bytes)
  | [] => [(seq, raw)]
  | e :: es =>
    if seq < e.1 then (seq, raw) :: e :: es
    else if seq = e.1 then (seq, raw) :: es
    else e :: setEvent seq raw es

/-- An applier's calls on its transaction, and what it returns in the end. -/
inductive Script
  | ret (result : Except LogError (List Mutation))
  | get (key : Bytes) (next : Except LogError Bytes → Script)
  | set (key value : Bytes) (next : Option LogError → Script)
  | delete (key : Bytes) (next : Option LogError → Script)

/-- Run an applier in a transaction. Writes below the reserved prefix are refused,
and it is up to the applier what it does about that. -/
def Script.run : Script → Disk → Disk × Except LogError (List Mutation)
  | .ret result, d => (d, result)
  | .get key next, d =>
    match d.get key with
    | some v => (next (.ok v)).run d
    | none => (next (.error (.notExist key))).run d
  | .set key value next, d =>
    if keyPrefix.isPrefixOf key then (next (some (.wroteReservedKey key))).run d
    else (next none).run { d with data := Function.update d.data key (some value) }
  | .delete key next, d =>
    if keyPrefix.isPrefixOf key then (next (some (.deletedReservedKey key))).run d
    else (next none).run { d with data := Function.update d.data key none }

/-- An applier cannot touch the log's own keys. -/
theorem Script.run_reserved (s : Script) (d : Disk) :
    (s.run d).1.seq = d.seq ∧ (s.run d).1.events = d.events := by
  fun_induction Script.run s d with
  | case1 => exact ⟨rfl, rfl⟩
  | _ => assumption

/-- The transaction of a proposal: apply, store the event, bump the counter. An
error leaves nothing behind. -/
def proposeTxn (d : Disk) (seq : ℕ) (opType : Bytes) (applier : Script) :
    Except LogError (Disk × Event) :=
  match applier.run d with
  | (_, .error err) => .error err
  | (d', .ok mutations) =>
    let ev : Event := { seq, opType, mutations }
    match encodeEvent ev with
    | .error err => .error (.encodeEvent err)
    | .ok raw => .ok ({ d' with seq := some seq, events := setEvent seq raw d'.events }, ev)

/-- What a proposal's transaction writes. -/
theorem proposeTxn_ok {d d' : Disk} {seq : ℕ} {opType : Bytes} {applier : Script} {ev : Event}
    (h : proposeTxn d seq opType applier = .ok (d', ev)) :
    ev.seq = seq ∧ d'.seq = some seq ∧
      ∃ raw, encodeEvent ev = .ok raw ∧ d'.events = setEvent seq raw d.events := by
  have hkeep := Script.run_reserved applier d
  simp only [proposeTxn] at h
  repeat' split at h
  all_goals cases h
  rename_i hrun _ raw henc
  rw [hrun] at hkeep
  exact ⟨rfl, rfl, raw, henc, by rw [hkeep.2]⟩

/-- How many keys the pruner deletes in one transaction. -/
def batchSize : ℕ := 1024

/-- One transaction of the pruner: delete keys from the first one on, stop at the
floor or when the batch is full, and count. -/
def pruneBatch (floor : ℕ) : ℕ → List (ℕ × Bytes) → ℕ × List (ℕ × Bytes)
  | 0, es => (0, es)
  | _ + 1, [] => (0, [])
  | room + 1, e :: es =>
    if floor ≤ e.1 then (0, e :: es)
    else ((pruneBatch floor room es).1 + 1, (pruneBatch floor room es).2)

/-- The smallest retained sequence number, or zero. -/
def firstSeq : List (ℕ × Bytes) → ℕ
  | [] => 0
  | e :: _ => e.1

/-- A batch cuts a piece off the front, and only below the floor. -/
theorem pruneBatch_spec (floor room : ℕ) (es : List (ℕ × Bytes)) :
    (pruneBatch floor room es).2 = es.drop (pruneBatch floor room es).1 ∧
      ∀ e ∈ es.take (pruneBatch floor room es).1, e.1 < floor := by
  induction room generalizing es with
  | zero => exact ⟨rfl, nofun⟩
  | succ room ih =>
    cases es with
    | nil => exact ⟨rfl, nofun⟩
    | cons e es =>
      rw [pruneBatch]
      split
      · exact ⟨rfl, nofun⟩
      · rename_i hlt
        obtain ⟨hdrop, htake⟩ := ih es
        refine ⟨by rw [List.drop_succ_cons]; exact hdrop, ?_⟩
        intro e' he'
        rcases List.mem_cons.mp he' with rfl | he'
        · exact not_le.mp hlt
        · exact htake e' he'

/-- A number above all keys is appended. -/
theorem setEvent_append {seq : ℕ} {raw : Bytes} {es : List (ℕ × Bytes)}
    (h : ∀ e ∈ es, e.1 < seq) : setEvent seq raw es = es ++ [(seq, raw)] := by
  induction es with
  | nil => rfl
  | cons e es ih =>
    have he : e.1 < seq := h e List.mem_cons_self
    have hes : ∀ e' ∈ es, e'.1 < seq := fun e' he' => h e' (List.mem_cons_of_mem _ he')
    rw [setEvent, if_neg (by omega), if_neg (by omega), ih hes, List.cons_append]

end Rune.OrderedLog
