import Rune.Core.Run
import Mathlib.Data.List.Perm.Basic

/-!
# The disk spool of the log forwarder

Log taps push records, and one loop pops a batch, ingests it and puts it back when that fails. The
spool keeps the records in memory and appends a line per record to a file, under a lock of its
own; a `Pop` that leaves the memory empty truncates the file, and a crash reads it again. A record
is lost where its line is truncated before it is ingested: with the batch of the truncating `Pop`,
or where it reached the file between the look at the memory and the truncation.
-/

namespace Rune.Forwarder

open Rune.Core List

/-- A record with the number of its `Push`. The number is for telling pushes of equal
records apart; nothing reads it. -/
structure Entry (R : Type) where
  serial : ℕ
  record : R
  deriving DecidableEq

/-- A line of the file, with the number of the push that wrote it. -/
structure Line (L : Type) where
  serial : ℕ
  text : L

/-- The bound of a spool that is configured without one. -/
def defaultSpoolCapacity : ℕ := 100000

/-- The bound that `NewMemSpool` sets. -/
def spoolCap (capacity : ℤ) : ℕ := if capacity ≤ 0 then defaultSpoolCapacity else capacity.toNat

section MemSpool

variable {E : Type} (cap : ℕ)

/-- `MemSpool.Push`: at the bound the oldest record is dropped. -/
def memPush (buf : List E) (e : E) : List E :=
  (if cap ≤ buf.length then buf.tail else buf) ++ [e]

/-- `MemSpool.Pop`: the batch and what stays. -/
def memPop (max : ℤ) (buf : List E) : List E × List E :=
  let n := if 0 < max ∧ max < buf.length then max.toNat else buf.length
  (buf.take n, buf.drop n)

/-- `MemSpool.Requeue`: the batch goes to the front, the oldest records are dropped. -/
def memRequeue (batch buf : List E) : List E :=
  if batch = [] then buf else (batch ++ buf).drop ((batch ++ buf).length - cap)

end MemSpool

/-- Where the flush loop is. -/
inductive Flush (R : Type) where
  | idle
  /-- `Pop` has taken the batch and looks at the memory next. -/
  | popped (batch : List (Entry R))
  /-- The memory was empty, and the file is truncated next. -/
  | draining (batch : List (Entry R))
  /-- The batch is with the ingester; `cut` says that its `Pop` truncated the file. -/
  | sending (batch : List (Entry R)) (cut : Bool)
  /-- The ingestion failed, and the batch is put back next. -/
  | failing (batch : List (Entry R)) (cut : Bool)

namespace Flush

variable {R : Type}

/-- The records in the hands of the loop. -/
def batch : Flush R → List (Entry R)
  | idle => []
  | popped b | draining b | sending b _ | failing b _ => b

/-- Those of them whose lines the loop has truncated. -/
def cutBatch : Flush R → List (Entry R)
  | sending b true | failing b true => b
  | _ => []

/-- After `Pop`: an empty batch ends the round. -/
def send (b : List (Entry R)) (cut : Bool) : Flush R := if b = [] then idle else sending b cut

end Flush

/-- The spool with the calls under way, and what has happened so far. -/
structure Spool (R L : Type) where
  mem : List (Entry R) := []
  file : List (Line L) := []
  /-- The pushes that are done with the memory and not with the file. -/
  writing : List (Entry R) := []
  flush : Flush R := .idle
  pushes : ℕ := 0
  /-- The records whose `Push` has returned. -/
  returned : List (Entry R) := []
  /-- The records of the batches whose ingestion succeeded. -/
  ingested : List (Entry R) := []

/-- What can happen. -/
inductive SpoolAction (R : Type) where
  /-- `Push`, up to the memory. -/
  | push (record : R)
  /-- A `Push` writes its line and returns. -/
  | write (call : ℕ)
  | pop
  /-- `Pop` looks at the memory again. -/
  | measure
  | truncate (ok : Bool)
  | ingest (ok : Bool)
  | requeue
  /-- The process ends, and a new one opens the file. -/
  | crash

namespace Spool

variable {R L : Type} (marshal : R → Option L) (unmarshal : L → Option R) (cap : ℕ) (batchN : ℤ)

/-- The record that a line stands for. -/
def readLine (l : Line L) : Option (Entry R) :=
  (unmarshal l.text).map fun r => { serial := l.serial, record := r }

/-- The memory of `NewDiskSpool`: the lines are pushed one by one. -/
def replay (file : List (Line L)) : List (Entry R) :=
  (file.filterMap (readLine unmarshal)).foldl (memPush cap) []

/-- Append the line of a record, if it has one. -/
def appendLine (file : List (Line L)) (e : Entry R) : List (Line L) :=
  match marshal e.record with
  | some text => file ++ [{ serial := e.serial, text }]
  | none => file

/-- The spool after a crash; only the file is left. -/
def reopen (s : Spool R L) : Spool R L :=
  { s with mem := replay unmarshal cap s.file, writing := [], flush := .idle }

/-- One step, if it is possible. -/
def step (s : Spool R L) : SpoolAction R → Option (Spool R L)
  | .push record =>
    let e : Entry R := { serial := s.pushes, record }
    some { s with
      mem := memPush cap s.mem e, writing := s.writing ++ [e], pushes := s.pushes + 1 }
  | .write call =>
    (s.writing[call]?).map fun e => { s with
      file := appendLine marshal s.file e
      writing := s.writing.eraseIdx call
      returned := s.returned ++ [e] }
  | .pop =>
    match s.flush with
    | .idle =>
      let r := memPop batchN s.mem
      some { s with mem := r.2, flush := .popped r.1 }
    | _ => none
  | .measure =>
    match s.flush with
    | .popped b => some { s with flush := if s.mem = [] then .draining b else .send b false }
    | _ => none
  | .truncate ok =>
    match s.flush with
    | .draining b => some { s with file := if ok then [] else s.file, flush := .send b ok }
    | _ => none
  | .ingest ok =>
    match s.flush with
    | .sending b cut =>
      if ok then some { s with ingested := s.ingested ++ b, flush := .idle }
      else some { s with flush := .failing b cut }
    | _ => none
  | .requeue =>
    match s.flush with
    | .failing b _ => some { s with mem := memRequeue cap b s.mem, flush := .idle }
    | _ => none
  | .crash => some (s.reopen unmarshal cap)

/-- The records on their way to the ingester. -/
def outstanding (s : Spool R L) : ℕ := s.mem.length + s.flush.batch.length

/-- A crash finds the lines of all records in hand, and not more lines than fit. -/
def Recoverable (s : Spool R L) : Prop := s.flush.cutBatch = [] ∧ s.file.length ≤ cap

instance Recoverable.decidable [DecidableEq R] (s : Spool R L) : Decidable (s.Recoverable cap) :=
  inferInstanceAs (Decidable (_ ∧ _))

/-- The runs that lose nothing: there is room for every push, no record in the memory has a line
that is truncated, a batch whose lines were truncated is not put back, and crashes find everything
in the file. -/
def Careful (s : Spool R L) : SpoolAction R → Prop
  | .push _ => s.outstanding < cap
  | .truncate ok => ok = true → ∀ e ∈ s.mem, e ∈ s.writing
  | .requeue => s.flush.cutBatch = []
  | .crash => s.Recoverable cap
  | .write _ | .pop | .measure | .ingest _ => True

instance Careful.decidable [DecidableEq R] (s : Spool R L) :
    (a : SpoolAction R) → Decidable (s.Careful cap a)
  | .push _ => inferInstanceAs (Decidable (s.outstanding < cap))
  | .truncate _ => inferInstanceAs (Decidable (_ → _))
  | .requeue => inferInstanceAs (Decidable (s.flush.cutBatch = []))
  | .crash => Recoverable.decidable cap s
  | .write _ | .pop | .measure | .ingest _ => isTrue trivial

variable {marshal unmarshal cap batchN}

theorem memPush_of_lt {E : Type} {buf : List E} {e : E} (h : buf.length < cap) :
    memPush cap buf e = buf ++ [e] := by
  rw [memPush, if_neg (by omega)]

theorem memPop_append {E : Type} (max : ℤ) (buf : List E) :
    (memPop max buf).1 ++ (memPop max buf).2 = buf := take_append_drop _ _

theorem memRequeue_of_le {E : Type} {batch buf : List E} (h : batch.length + buf.length ≤ cap) :
    memRequeue cap batch buf = batch ++ buf := by
  unfold memRequeue
  split_ifs with hnil
  · rw [hnil, nil_append]
  · rw [Nat.sub_eq_zero_of_le (by rw [length_append]; omega), drop_zero]

/-- A file that fits is read completely. -/
theorem replay_of_le {file : List (Line L)} (h : file.length ≤ cap) :
    replay unmarshal cap file = file.filterMap (readLine unmarshal) := by
  have hfold : ∀ (es buf : List (Entry R)), buf.length + es.length ≤ cap →
      es.foldl (memPush cap) buf = buf ++ es := by
    intro es
    induction es with
    | nil => simp
    | cons e es ih =>
      intro buf hle
      rw [length_cons] at hle
      rw [foldl_cons, memPush_of_lt (by omega), ih _ (by simp; omega), append_assoc,
        singleton_append]
  have hlen := length_filterMap_le (readLine unmarshal) file
  rw [replay, hfold _ [] (by simp; omega), nil_append]

/-- Pushes are numbered: one that has returned is not under way any more. -/
structure Numbered (s : Spool R L) : Prop where
  below : ∀ e, e ∈ s.writing ++ s.returned → e.serial < s.pushes
  nodup : (s.writing ++ s.returned).Nodup

theorem Numbered.not_returned {s : Spool R L} (h : s.Numbered) {e : Entry R}
    (he : e ∈ s.writing) : e ∉ s.returned := fun hr =>
  (nodup_append.mp h.nodup).2.2 e he e hr rfl

theorem Numbered.push {s : Spool R L} (h : s.Numbered) (r : R) :
    Numbered { s with
      mem := memPush cap s.mem ⟨s.pushes, r⟩
      writing := s.writing ++ [⟨s.pushes, r⟩]
      pushes := s.pushes + 1 } := by
  have hnew : Entry.mk s.pushes r ∉ s.writing ++ s.returned := fun hmem =>
    lt_irrefl _ (h.below _ hmem)
  have hperm : (s.writing ++ [Entry.mk s.pushes r] ++ s.returned).Perm
      (Entry.mk s.pushes r :: (s.writing ++ s.returned)) := by
    rw [append_assoc]
    exact perm_middle
  refine ⟨fun e he => ?_, hperm.nodup_iff.mpr (nodup_cons.mpr ⟨hnew, h.nodup⟩)⟩
  rcases mem_cons.mp (hperm.mem_iff.mp he) with rfl | he
  · exact Nat.lt_succ_self _
  · exact Nat.lt_succ_of_lt (h.below e he)

theorem Numbered.write {s : Spool R L} (h : s.Numbered) {call : ℕ} {e : Entry R}
    (he : s.writing[call]? = some e) (file : List (Line L)) :
    Numbered { s with
      file := file, writing := s.writing.eraseIdx call, returned := s.returned ++ [e] } := by
  obtain ⟨hlt, rfl⟩ := List.getElem?_eq_some_iff.mp he
  have hperm : (s.writing.eraseIdx call ++ (s.returned ++ [s.writing[call]])).Perm
      (s.writing ++ s.returned) := by
    rw [← append_assoc]
    refine (perm_append_singleton _ _).trans ?_
    exact (getElem_cons_eraseIdx_perm hlt).append_right _
  exact ⟨fun e he => h.below e (hperm.mem_iff.mp he), hperm.nodup_iff.mpr h.nodup⟩

/-- The invariant of careful runs. -/
structure Sound (unmarshal : L → Option R) (cap : ℕ) (s : Spool R L) : Prop where
  numbered : s.Numbered
  room : s.outstanding ≤ cap
  /-- A record that was pushed has been ingested, or the loop will come to it. -/
  held : ∀ e, e ∈ s.returned ∨ e ∈ s.writing →
    e ∈ s.ingested ∨ e ∈ s.mem ∨ e ∈ s.flush.batch
  /-- A record whose push returned has been ingested, or it is in the file, or its
  line was truncated by the loop that has it in hand. -/
  kept : ∀ e ∈ s.returned, e ∈ s.ingested ∨ e ∈ s.file.filterMap (readLine unmarshal) ∨
    e ∈ s.flush.cutBatch

namespace Sound

variable {s t : Spool R L}

theorem start : Sound unmarshal cap ({} : Spool R L) where
  numbered := ⟨by simp, nodup_nil⟩
  room := Nat.zero_le _
  held := by simp
  kept := by simp

theorem push (h : Sound unmarshal cap s) (r : R) (hroom : s.outstanding < cap)
    (ht : step marshal unmarshal cap batchN s (.push r) = some t) : Sound unmarshal cap t := by
  cases ht
  have hmem := memPush_of_lt (e := (⟨s.pushes, r⟩ : Entry R))
    (show s.mem.length < cap by rw [outstanding] at hroom; omega)
  refine ⟨h.numbered.push r, ?_, fun e he => ?_, h.kept⟩
  · simp only [outstanding, hmem, length_append, length_singleton] at hroom ⊢
    omega
  · rw [hmem]
    rw [mem_append, ← or_assoc] at he
    rcases he with he | he
    · rcases h.held e he with hi | hm | hb
      · exact .inl hi
      · exact .inr (.inl (mem_append_left _ hm))
      · exact .inr (.inr hb)
    · exact .inr (.inl (mem_append_right _ he))

theorem write (h : Sound unmarshal cap s)
    (hjson : ∀ r, ∃ text, marshal r = some text ∧ unmarshal text = some r) {call : ℕ}
    (ht : step marshal unmarshal cap batchN s (.write call) = some t) : Sound unmarshal cap t := by
  simp only [step, Option.map_eq_some_iff] at ht
  obtain ⟨e, he, rfl⟩ := ht
  have hwriting := mem_of_getElem? he
  obtain ⟨text, hm, hu⟩ := hjson e.record
  refine ⟨h.numbered.write he _, h.room, fun x hx => h.held x ?_, fun x hx => ?_⟩
  · rcases hx with hx | hx
    · rcases mem_append.mp hx with hx | hx
      · exact .inl hx
      · exact .inr (mem_singleton.mp hx ▸ hwriting)
    · exact .inr (mem_of_mem_eraseIdx hx)
  · simp only [appendLine, hm, filterMap_append, mem_append]
    rcases mem_append.mp hx with hx | hx
    · rcases h.kept x hx with hi | hf | hc
      · exact .inl hi
      · exact .inr (.inl (.inl hf))
      · exact .inr (.inr hc)
    · obtain rfl := mem_singleton.mp hx
      exact .inr (.inl (.inr (by simp [readLine, hu])))

/-- The loop passes records on, and takes no line that is still needed. -/
theorem turn (h : Sound unmarshal cap s) {mem ingested : List (Entry R)} {file : List (Line L)}
    {f : Flush R} (hroom : mem.length + f.batch.length ≤ s.outstanding)
    (hingested : s.ingested ⊆ ingested)
    (hheld : ∀ e, e ∈ s.mem ∨ e ∈ s.flush.batch → e ∈ ingested ∨ e ∈ mem ∨ e ∈ f.batch)
    (hkept : ∀ e ∈ s.returned, e ∈ ingested ∨ e ∈ file.filterMap (readLine unmarshal) ∨
      e ∈ f.cutBatch) :
    Sound unmarshal cap { s with mem := mem, file := file, flush := f, ingested := ingested } where
  numbered := ⟨h.numbered.below, h.numbered.nodup⟩
  room := hroom.trans h.room
  held e he := (h.held e he).elim (fun hi => .inl (hingested hi)) (hheld e)
  kept := hkept

/-- The loop goes on without touching the memory, the file or its batch. -/
theorem goOn (h : Sound unmarshal cap s) {f : Flush R} (hb : f.batch = s.flush.batch)
    (hc : f.cutBatch = s.flush.cutBatch) : Sound unmarshal cap { s with flush := f } := by
  refine h.turn (by rw [hb]; exact le_rfl) (List.Subset.refl _) (fun e he => ?_) fun e he => ?_
  · rw [hb]
    exact .inr he
  · rw [hc]
    exact h.kept e he

theorem pop (h : Sound unmarshal cap s)
    (ht : step marshal unmarshal cap batchN s .pop = some t) : Sound unmarshal cap t := by
  simp only [step] at ht
  split at ht
  case h_2 => cases ht
  rename_i hf
  cases ht
  have hsplit := memPop_append batchN s.mem
  refine h.turn ?_ (List.Subset.refl _) (fun e he => ?_) fun e he => ?_
  · have hlen := congrArg length hsplit
    simp only [outstanding, hf, Flush.batch, length_append, length_nil] at hlen ⊢
    omega
  · rw [hf, ← hsplit, mem_append] at he
    exact .inr ((he.resolve_right not_mem_nil).symm)
  · have hkept := h.kept e he
    rw [hf] at hkept
    exact hkept

@[simp] theorem batch_send (b : List (Entry R)) (cut : Bool) : (Flush.send b cut).batch = b := by
  unfold Flush.send
  split_ifs with hb
  · exact hb.symm
  · rfl

theorem cutBatch_send (b : List (Entry R)) (cut : Bool) :
    (Flush.send b cut).cutBatch = if cut then b else [] := by
  unfold Flush.send
  split_ifs with hb hcut hcut
  · exact hb.symm
  · rfl
  · rw [hcut]
    rfl
  · rw [Bool.not_eq_true] at hcut
    rw [hcut]
    rfl

theorem measure (h : Sound unmarshal cap s)
    (ht : step marshal unmarshal cap batchN s .measure = some t) : Sound unmarshal cap t := by
  simp only [step] at ht
  split at ht
  case h_2 => cases ht
  rename_i b hf
  cases ht
  split_ifs
  · exact h.goOn (by rw [hf]; rfl) (by rw [hf]; rfl)
  · exact h.goOn (by rw [hf, batch_send]; rfl) (by rw [hf, cutBatch_send]; rfl)

/-- A truncation that takes no line of a record in the memory: what was ingested needs
no line, and the loop has the rest in hand. -/
theorem truncate (h : Sound unmarshal cap s) {ok : Bool}
    (hsafe : ok = true → ∀ e ∈ s.mem, e ∈ s.writing)
    (ht : step marshal unmarshal cap batchN s (.truncate ok) = some t) :
    Sound unmarshal cap t := by
  simp only [step] at ht
  split at ht
  case h_2 => cases ht
  rename_i b hf
  cases ht
  cases ok with
  | false => exact h.goOn (by rw [hf, batch_send]; rfl) (by rw [hf, cutBatch_send]; rfl)
  | true =>
    refine h.turn ?_ (List.Subset.refl _) (fun e he => ?_) fun e he => ?_
    · rw [batch_send, outstanding, hf]
      exact le_rfl
    · rw [batch_send]
      rw [hf] at he
      exact .inr he
    · rw [cutBatch_send]
      rcases h.held e (.inl he) with hi | hm | hb
      · exact .inl hi
      · exact absurd he (h.numbered.not_returned (hsafe rfl e hm))
      · rw [hf] at hb
        exact .inr (.inr hb)

theorem ingest (h : Sound unmarshal cap s) {ok : Bool}
    (ht : step marshal unmarshal cap batchN s (.ingest ok) = some t) : Sound unmarshal cap t := by
  simp only [step] at ht
  split at ht
  case h_2 => cases ht
  rename_i b cut hf
  have hkept := h.kept
  rw [hf] at hkept
  split_ifs at ht with hok
  · cases ht
    refine h.turn ?_ (subset_append_left _ _) (fun e he => ?_) fun e he => ?_
    · exact Nat.add_le_add_left (Nat.zero_le _) _
    · rw [hf] at he
      exact he.symm.imp (mem_append_right _) .inl
    · rcases hkept e he with hi | hl | hb
      · exact .inl (mem_append_left _ hi)
      · exact .inr (.inl hl)
      · refine .inl (mem_append_right _ ?_)
        cases cut with
        | true => exact hb
        | false => cases hb
  · cases ht
    exact h.goOn (by rw [hf]; rfl) (by rw [hf]; cases cut <;> rfl)

/-- A batch whose lines are in the file goes back to the memory. -/
theorem requeue (h : Sound unmarshal cap s) (hcut : s.flush.cutBatch = [])
    (ht : step marshal unmarshal cap batchN s .requeue = some t) : Sound unmarshal cap t := by
  have hroom := h.room
  have hkept := h.kept
  rw [hcut] at hkept
  simp only [step] at ht
  split at ht
  case h_2 => cases ht
  rename_i b cut hf
  cases ht
  simp only [outstanding, hf, Flush.batch] at hroom
  have hmem : memRequeue cap b s.mem = b ++ s.mem := memRequeue_of_le (by omega)
  refine h.turn ?_ (List.Subset.refl _) (fun e he => ?_) hkept
  · simp only [outstanding, hmem, hf, Flush.batch, length_append, length_nil]
    omega
  · rw [hf] at he
    rw [hmem]
    exact .inr (.inl (mem_append.mpr he.symm))

/-- A crash that finds everything in the file. -/
theorem crash (h : Sound unmarshal cap s) (hrec : s.Recoverable cap) :
    Sound unmarshal cap (s.reopen unmarshal cap) := by
  have hreplay : replay unmarshal cap s.file = s.file.filterMap (readLine unmarshal) :=
    replay_of_le hrec.2
  have hfound : ∀ e ∈ s.returned, e ∈ s.ingested ∨
      e ∈ s.file.filterMap (readLine unmarshal) := by
    intro e he
    rcases h.kept e he with hi | hl | hc
    · exact .inl hi
    · exact .inr hl
    · rw [hrec.1] at hc
      cases hc
  refine ⟨?_, ?_, fun e he => ?_, fun e he => ?_⟩
  · exact ⟨fun e he => h.numbered.below e (mem_append_right _ he),
      (nodup_append.mp h.numbered.nodup).2.1⟩
  · have hlen := length_filterMap_le (readLine unmarshal) s.file
    have hfit := hrec.2
    simp only [outstanding, reopen, hreplay, Flush.batch, length_nil]
    omega
  · simp only [reopen, not_mem_nil, or_false] at he
    rcases hfound e he with hi | hl
    · exact .inl hi
    · refine .inr (.inl ?_)
      simp only [reopen, hreplay]
      exact hl
  · rcases hfound e he with hi | hl
    · exact .inl hi
    · exact .inr (.inl hl)

theorem step (h : Sound unmarshal cap s)
    (hjson : ∀ r, ∃ text, marshal r = some text ∧ unmarshal text = some r)
    {a : SpoolAction R} (hc : s.Careful cap a)
    (ht : Spool.step marshal unmarshal cap batchN s a = some t) : Sound unmarshal cap t := by
  cases a with
  | push r => exact h.push r hc ht
  | write call => exact h.write hjson ht
  | pop => exact h.pop ht
  | measure => exact h.measure ht
  | truncate ok => exact h.truncate hc ht
  | ingest ok => exact h.ingest ht
  | requeue => exact h.requeue hc ht
  | crash =>
    cases ht
    exact h.crash hc

end Sound

/-- After a careful run and a crash that finds the file complete, every record whose `Push`
returned and whose batch was not ingested is in the reopened spool. -/
theorem unacknowledged_survive_crash {capacity : ℤ}
    (hjson : ∀ r, ∃ text, marshal r = some text ∧ unmarshal text = some r)
    {acts : List (SpoolAction R)} {s : Spool R L}
    (hcareful : Along (step marshal unmarshal (spoolCap capacity) batchN)
      (Careful (spoolCap capacity)) {} acts)
    (h : exec (step marshal unmarshal (spoolCap capacity) batchN) {} acts = some s)
    (hrec : s.Recoverable (spoolCap capacity))
    {e : Entry R} (hpush : e ∈ s.returned) (hack : e ∉ s.ingested) :
    e ∈ (s.reopen unmarshal (spoolCap capacity)).mem := by
  have hsound : Sound unmarshal (spoolCap capacity) s :=
    exec_invariant_along (fun _ _ _ h hc ht => h.step hjson hc ht) .start hcareful h
  rcases (hsound.crash hrec).held e (.inl hpush) with hi | hm | hb
  · exact absurd hi hack
  · exact hm
  · cases hb

theorem unacknowledged_survive_crash_two :
    ∃ s : Spool ℕ ℕ, exec (step some some (spoolCap 10) 1) {}
        [.push 7, .write 0, .push 8, .write 0, .pop, .measure] = some s ∧
      ({ serial := 0, record := 7 } : Entry ℕ) ∈ (s.reopen some (spoolCap 10)).mem := by
  have hcareful : Along (step some some (spoolCap 10) 1) (Careful (spoolCap 10)) ({} : Spool ℕ ℕ)
      [.push 7, .write 0, .push 8, .write 0, .pop, .measure] := by decide
  exact ⟨_, rfl, unacknowledged_survive_crash (fun r => ⟨r, rfl, rfl⟩) hcareful rfl
    (by decide) (by decide) (by decide)⟩

/-- Three ways to lose a record, with room for ten: the process ends while the batch of a
truncating `Pop` is with the ingester, or after that batch is put back; a record reaches the file
between the look at the memory and the truncation. -/
theorem unacknowledged_lost :
    (∃ s : Spool ℕ ℕ, exec (step some some (spoolCap 10) 1) {}
        [.push 7, .write 0, .pop, .measure, .truncate true] = some s ∧
      s.returned = [{ serial := 0, record := 7 }] ∧ s.ingested = [] ∧
      (s.reopen some (spoolCap 10)).mem = []) ∧
    (∃ s : Spool ℕ ℕ, exec (step some some (spoolCap 10) 1) {}
        [.push 7, .write 0, .pop, .measure, .truncate true, .ingest false, .requeue] = some s ∧
      s.returned = [{ serial := 0, record := 7 }] ∧ s.ingested = [] ∧
      (s.reopen some (spoolCap 10)).mem = []) ∧
    ∃ s : Spool ℕ ℕ, exec (step some some (spoolCap 10) 1) {}
        [.push 7, .write 0, .pop, .measure, .push 8, .write 0, .truncate true, .ingest true] =
          some s ∧
      s.returned = [{ serial := 0, record := 7 }, { serial := 1, record := 8 }] ∧
      s.ingested = [{ serial := 0, record := 7 }] ∧ (s.reopen some (spoolCap 10)).mem = [] :=
  ⟨⟨_, rfl, rfl, rfl, rfl⟩, ⟨_, rfl, rfl, rfl, rfl⟩, ⟨_, rfl, rfl, rfl, rfl⟩⟩

end Spool

end Rune.Forwarder
