import Rune.Core.BigEndian
import Rune.Core.Guard
import Rune.Core.Reader

/-!
# Events of the ordered log and their stored form

An event is stored with a simple length-prefixed framing. Strings are byte
strings, lengths and the sequence number are big-endian fields of fixed width.
The framing starts with the sequence number, so what is read back under a key
carries the number that was written there, whatever follows it.
-/

namespace Rune.OrderedLog

open Rune.Core

/-- The errors of the package, with the values that their texts print. -/
inductive LogError
  /-- `orderedlog: closed` -/
  | closed
  /-- `orderedlog: requested sequence has been compacted` -/
  | compacted
  /-- `orderedlog: unknown op type: %q` -/
  | unknownOpType (opType : Bytes)
  /-- `orderedlog: op type already registered: %q` -/
  | alreadyRegistered (opType : Bytes)
  /-- `orderedlog: empty op type` -/
  | emptyOpType
  /-- `orderedlog: nil applier or unmarshaler` -/
  | nilApplier
  /-- `orderedlog: nil op` -/
  | nilOp
  /-- `orderedlog: op marshal: %w` -/
  | opMarshal (cause : LogError)
  /-- `orderedlog: encode event: %w` -/
  | encodeEvent (cause : LogError)
  /-- `orderedlog: op type too long` -/
  | opTypeTooLong
  /-- `orderedlog: too many mutations` -/
  | tooManyMutations
  /-- `orderedlog: string too long (%d)` -/
  | stringTooLong (length : ℕ)
  /-- `orderedlog: applier wrote reserved key %q` -/
  | wroteReservedKey (key : Bytes)
  /-- `orderedlog: applier deleted reserved key %q` -/
  | deletedReservedKey (key : Bytes)
  /-- `%w: %s` with `os.ErrNotExist` and the key -/
  | notExist (key : Bytes)
  /-- `orderedlog: load seq: %w` -/
  | loadSeq (cause : LogError)
  /-- `orderedlog: scan min seq: %w` -/
  | scanMinSeq (cause : LogError)
  /-- `orderedlog: decode backfill event: %w` -/
  | decodeBackfillEvent (cause : LogError)
  /-- `EOF` -/
  | eof
  /-- `unexpected EOF` -/
  | unexpectedEOF
  /-- An error of a caller, an applier, a context or the database. -/
  | external (text : String)

/-- One committed change of a resource. -/
structure Mutation where
  /-- `MutationPut` is 1 and `MutationDelete` is 2. -/
  kind : UInt8
  resourceType : Bytes
  ns : Bytes
  name : Bytes
  payload : Bytes

/-- One committed entry of the log. -/
structure Event where
  seq : ℕ
  opType : Bytes
  mutations : List Mutation

/-- A string with its length in two bytes. -/
def writeShortString (s : Bytes) : Except LogError Bytes :=
  if 0xFFFF < s.length then .error (.stringTooLong s.length)
  else .ok (putUint 2 s.length ++ s)

/-- The bytes of a mutation. -/
def encodeMutation (m : Mutation) : Except LogError Bytes := do
  let rtype ← writeShortString m.resourceType
  let ns ← writeShortString m.ns
  let name ← writeShortString m.name
  return m.kind :: rtype ++ ns ++ name ++ putUint 4 m.payload.length ++ m.payload

/-- The bytes of the mutations. -/
def encodeMutations : List Mutation → Except LogError Bytes
  | [] => .ok []
  | m :: ms => do
    let head ← encodeMutation m
    let tail ← encodeMutations ms
    return head ++ tail

/-- The bytes of an event. -/
def encodeEvent (ev : Event) : Except LogError Bytes :=
  if 0xFFFF < ev.opType.length then .error .opTypeTooLong
  else if 0xFFFF < ev.mutations.length then .error .tooManyMutations
  else do
    let opType ← writeShortString ev.opType
    let mutations ← encodeMutations ev.mutations
    return putUint 8 ev.seq ++ (opType ++ putUint 2 ev.mutations.length ++ mutations)

/-- Read exactly `n` bytes. -/
def readFull (n : ℕ) (data : Bytes) : Except LogError (Bytes × Bytes) :=
  if n ≤ data.length then .ok (data.take n, data.drop n)
  else if data.isEmpty then .error .eof
  else .error .unexpectedEOF

/-- Read a string with its length. -/
def readShortString (data : Bytes) : Except LogError (Bytes × Bytes) := do
  let (l, rest) ← readFull 2 data
  let n := getUint l
  if n = 0 then return ([], rest)
  readFull n rest

/-- Read a mutation. -/
def decodeMutation (data : Bytes) : Except LogError (Mutation × Bytes) := do
  let (kind, r) ← readFull 1 data
  let (resourceType, r) ← readShortString r
  let (ns, r) ← readShortString r
  let (name, r) ← readShortString r
  let (pl, r) ← readFull 4 r
  let plen := getUint pl
  if plen = 0 then return (⟨kind.headD 0, resourceType, ns, name, []⟩, r)
  let (payload, r) ← readFull plen r
  return (⟨kind.headD 0, resourceType, ns, name, payload⟩, r)

/-- Read a number of mutations. -/
def decodeMutations : ℕ → Bytes → Except LogError (List Mutation × Bytes)
  | 0, data => .ok ([], data)
  | n + 1, data => do
    let (m, r) ← decodeMutation data
    let (ms, r) ← decodeMutations n r
    return (m :: ms, r)

/-- Bytes behind the last mutation are ignored. -/
def decodeEvent (data : Bytes) : Except LogError Event := do
  let (hdr, r) ← readFull 8 data
  let (opType, r) ← readShortString r
  let (nMut, r) ← readFull 2 r
  let (mutations, _) ← decodeMutations (getUint nMut) r
  return ⟨getUint hdr, opType, mutations⟩

/-- An event starts with its number. -/
theorem encodeEvent_header {ev : Event} {raw : Bytes} (h : encodeEvent ev = .ok raw) :
    ∃ rest, raw = putUint 8 ev.seq ++ rest := by
  unfold encodeEvent at h
  split at h
  · cases h
  · split at h
    · cases h
    · obtain ⟨opType, _, h⟩ := bind_eq_ok h
      obtain ⟨mutations, _, h⟩ := bind_eq_ok h
      cases h
      exact ⟨_, rfl⟩

/-- Whatever else is read, the sequence number is the one in the first eight bytes. -/
theorem decodeEvent_seq_eq {n : ℕ} {rest : Bytes} {ev : Event}
    (h : decodeEvent (putUint 8 n ++ rest) = .ok ev) : ev.seq = n % 2 ^ 64 := by
  obtain ⟨⟨hdr, r⟩, hread, h⟩ := bind_eq_ok h
  have hhdr : hdr = putUint 8 n := by
    have hlen : 8 ≤ (putUint 8 n ++ rest).length := by simp
    cases hread
    exact List.take_left' (length_putUint 8 n)
  obtain ⟨⟨opType, r⟩, _, h⟩ := bind_eq_ok h
  obtain ⟨⟨nMut, r⟩, _, h⟩ := bind_eq_ok h
  obtain ⟨⟨mutations, _⟩, _, h⟩ := bind_eq_ok h
  cases h
  rw [hhdr, getUint_putUint]
  norm_num

/-- A stored event that can be read at all is read with its own number. -/
theorem decodeEvent_seq {ev ev' : Event} {raw : Bytes} (h : encodeEvent ev = .ok raw)
    (hseq : ev.seq < 2 ^ 64) (hd : decodeEvent raw = .ok ev') : ev'.seq = ev.seq := by
  obtain ⟨rest, rfl⟩ := encodeEvent_header h
  rw [decodeEvent_seq_eq hd, Nat.mod_eq_of_lt hseq]

theorem accepts_readFull (s : Bytes) : Accepts (readFull s.length) s fun rest => (s, rest) where
  whole rest := by simp [readFull]
  start p hp hne := by
    have hlt : p.length < s.length :=
      lt_of_le_of_ne hp.length_le fun he => hne (hp.eq_of_length he)
    rw [readFull, if_neg (by omega)]
    split <;> exact ⟨_, rfl⟩

theorem accepts_putUint (w n : ℕ) :
    Accepts (readFull w) (putUint w n) fun rest => (putUint w n, rest) := by
  have h := accepts_readFull (putUint w n)
  rwa [length_putUint] at h

theorem accepts_readShortString {s enc : Bytes} (h : writeShortString s = .ok enc) :
    Accepts readShortString enc fun rest => (s, rest) := by
  unfold writeShortString at h
  split_ifs at h with hlong
  cases h
  refine (accepts_putUint 2 s.length).bind ?_
  have hlen : getUint (putUint 2 s.length) = s.length := by
    rw [getUint_putUint, Nat.mod_eq_of_lt (by omega)]
  simp only [hlen]
  cases s with
  | nil => exact .ok _
  | cons b s => exact accepts_readFull (b :: s)

/-- One mutation. -/
theorem accepts_decodeMutation {m : Mutation} {enc : Bytes} (h : encodeMutation m = .ok enc)
    (hsize : m.payload.length < 2 ^ 32) : Accepts decodeMutation enc fun rest => (m, rest) := by
  obtain ⟨rtype, hrtype, h⟩ := bind_eq_ok h
  obtain ⟨ns, hns, h⟩ := bind_eq_ok h
  obtain ⟨name, hname, h⟩ := bind_eq_ok h
  cases h
  have hlen : getUint (putUint 4 m.payload.length) = m.payload.length := by
    rw [getUint_putUint, Nat.mod_eq_of_lt (by omega)]
  simp only [List.cons_append, List.append_assoc]
  refine (accepts_readFull [m.kind]).bind ((accepts_readShortString hrtype).bind
    ((accepts_readShortString hns).bind ((accepts_readShortString hname).bind
      ((accepts_putUint 4 _).bind ?_))))
  simp only [hlen]
  obtain ⟨kind, resourceType, ns, name, payload⟩ := m
  cases payload with
  | nil => exact .ok _
  | cons b bs => exact (accepts_readFull (b :: bs)).map fun _ => rfl

/-- All of them. -/
theorem accepts_decodeMutations {ms : List Mutation} {enc : Bytes}
    (h : encodeMutations ms = .ok enc) (hsize : ∀ m ∈ ms, m.payload.length < 2 ^ 32) :
    Accepts (decodeMutations ms.length) enc fun rest => (ms, rest) := by
  induction ms generalizing enc with
  | nil =>
    cases h
    exact .ok _
  | cons m ms ih =>
    obtain ⟨head, hhead, h⟩ := bind_eq_ok h
    obtain ⟨tail, htail, h⟩ := bind_eq_ok h
    cases h
    obtain ⟨hm, hms⟩ := List.forall_mem_cons.mp hsize
    exact (accepts_decodeMutation hhead hm).bind ((ih htail hms).map fun _ => rfl)

/-- An encoded event is read back as it was, and nothing that breaks off before its end is
read. -/
theorem decodeEvent_encodeEvent {ev : Event} {raw : Bytes} (h : encodeEvent ev = .ok raw)
    (hseq : ev.seq < 2 ^ 64) (hsize : ∀ m ∈ ev.mutations, m.payload.length < 2 ^ 32) :
    decodeEvent raw = .ok ev ∧
      ∀ p, p <+: raw → p ≠ raw → ∃ err, decodeEvent p = .error err := by
  unfold encodeEvent at h
  split_ifs at h with htype hmany
  obtain ⟨opType, hopType, h⟩ := bind_eq_ok h
  obtain ⟨mutations, hmutations, h⟩ := bind_eq_ok h
  cases h
  have hlen : getUint (putUint 2 ev.mutations.length) = ev.mutations.length := by
    rw [getUint_putUint, Nat.mod_eq_of_lt (by omega)]
  have hnum : getUint (putUint 8 ev.seq) = ev.seq := by
    rw [getUint_putUint, Nat.mod_eq_of_lt (by omega)]
  have hev : Accepts decodeEvent
      (putUint 8 ev.seq ++ (opType ++ putUint 2 ev.mutations.length ++ mutations))
      fun _ => ev := by
    rw [List.append_assoc]
    refine (accepts_putUint 8 _).bind ((accepts_readShortString hopType).bind
      ((accepts_putUint 2 _).bind ?_))
    simp only [hlen, hnum]
    exact (accepts_decodeMutations hmutations hsize).map fun _ => rfl
  refine ⟨?_, hev.start⟩
  have hwhole := hev.whole []
  rwa [List.append_nil] at hwhole

/-- An event with one put. -/
theorem decodeEvent_encodeEvent_put :
    decodeEvent (putUint 8 7 ++ [0, 1, 42, 0, 1, 1, 0, 0, 0, 0, 0, 0, 0, 0, 0, 1, 9]) =
      .ok ⟨7, [42], [⟨1, [], [], [], [9]⟩]⟩ :=
  (decodeEvent_encodeEvent rfl (by decide) (by decide)).1

end Rune.OrderedLog
