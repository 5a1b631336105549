import Mathlib.Algebra.Order.Ring.Int
import Rune.Core.Search

/-!
# The embedded log store

The store appends batches to a buffer and drops the oldest records over its bound. The sweep
looks for the first record that is not expired by a binary search, as if the buffer were in
the order of its timestamps, and drops what stands before it.
-/

namespace Rune.LogStore

open Rune.Core

/-- Text as characters. -/
abbrev Text := List Char

/-- A line with its time, in nanoseconds since the zero time, and its identity. -/
structure LogRecord where
  timestamp : ℤ
  line : Text := []
  stream : Text := []
  level : Text := []
  namespaceName : Text := []
  service : Text := []
  instanceId : Text := []
  node : Text := []
  labels : List (Text × Text) := []
deriving DecidableEq

/-- The limits as they are configured. -/
structure Config where
  maxRecords : ℤ
  retention : ℤ

/-- The limits in force and the records. -/
structure Store where
  maxRecords : ℕ
  retention : ℤ
  buf : List LogRecord

/-- The number kept where none is configured. -/
def defaultMaxRecords : ℕ := 500000

/-- Seven days. -/
def defaultRetention : ℤ := 7 * 24 * 3600 * 10 ^ 9

/-- A store without a directory. -/
def new (cfg : Config) : Store where
  maxRecords := if cfg.maxRecords ≤ 0 then defaultMaxRecords else cfg.maxRecords.toNat
  retention := if cfg.retention = 0 then defaultRetention else cfg.retention
  buf := []

/-- The time of arrival stands in for a zero timestamp. -/
def fill (now : ℤ) (r : LogRecord) : LogRecord :=
  if r.timestamp = 0 then { r with timestamp := now } else r

/-- Append a batch and drop what is too much. -/
def Store.write (s : Store) (cancelled : Bool) (batch : List LogRecord) (now : ℤ) : Store :=
  if batch = [] ∨ cancelled then s
  else
    let buf := s.buf ++ batch.map (fill now)
    { s with buf := buf.drop (buf.length - s.maxRecords) }

/-- The record is not before the cutoff. -/
def retained (cutoff : ℤ) (r : LogRecord) : Bool := !decide (r.timestamp < cutoff)

/-- Drop what is too old. -/
def Store.sweep (s : Store) (now : ℤ) : Store :=
  if 0 ≤ s.retention then
    { s with buf := s.buf.drop (searchList (retained (now - s.retention)) s.buf) }
  else s

/-- What happens to a store between its start and its end. -/
inductive Op where
  | write (cancelled : Bool) (batch : List LogRecord) (now : ℤ)
  | sweep (now : ℤ)

/-- One operation. -/
def Store.step (s : Store) : Op → Store
  | .write cancelled batch now => s.write cancelled batch now
  | .sweep now => s.sweep now

/-- A sequence of operations. -/
def Store.run (s : Store) (ops : List Op) : Store := ops.foldl Store.step s

/-- No step changes the retention. -/
theorem retention_step (s : Store) (op : Op) : (s.step op).retention = s.retention := by
  cases op with
  | write => simp only [Store.step, Store.write]; split <;> rfl
  | sweep => simp only [Store.step, Store.sweep]; split <;> rfl

/-- Nor does a run. -/
theorem retention_run (s : Store) (ops : List Op) : (s.run ops).retention = s.retention := by
  induction ops generalizing s with
  | nil => rfl
  | cons op ops ih => exact (ih _).trans (retention_step s op)

/-- Whatever was written and swept before, a sweep leaves the records that are not expired, in
their order, if and only if no expired record stands behind one that is not. -/
theorem sweep_buf_eq_filter_iff (cfg : Config) (hcfg : 0 ≤ cfg.retention) (ops : List Op)
    (now : ℤ) :
    (((new cfg).run ops).sweep now).buf =
        ((new cfg).run ops).buf.filter (retained (now - (new cfg).retention)) ↔
      Parted (retained (now - (new cfg).retention)) ((new cfg).run ops).buf := by
  have hret : 0 ≤ (new cfg).retention := by
    simp only [new]
    split
    · decide
    · exact hcfg
  rw [← drop_searchList_eq_filter_iff, Store.sweep, retention_run, if_pos hret]

/-- A buffer in the order of its timestamps is parted at every cutoff. -/
theorem parted_of_sorted {buf : List LogRecord} (cutoff : ℤ)
    (h : buf.Pairwise fun a b => a.timestamp ≤ b.timestamp) : Parted (retained cutoff) buf := by
  refine h.imp fun {a b} hab ha => ?_
  simp only [retained, Bool.not_eq_true', decide_eq_false_iff_not, not_lt] at ha ⊢
  exact le_trans ha hab

/-- Two writers in the order of their clocks. -/
theorem sweep_buf_eq_filter_sorted :
    (((new ⟨10, 50⟩).run [.write false [{ timestamp := 10 }] 10,
        .write false [{ timestamp := 60 }] 60]).sweep 100).buf = [{ timestamp := 60 }] :=
  ((sweep_buf_eq_filter_iff ⟨10, 50⟩ (by decide) _ 100).mpr
    (parted_of_sorted _ (by decide))).trans (by decide)

/-- A record that is not expired is dropped with the expired one that arrived after it. -/
theorem sweep_drops_unexpired :
    (((new ⟨10, 50⟩).run [.write false [{ timestamp := 60 }, { timestamp := 10 }] 60]).sweep
        100).buf = [] ∧
      retained (100 - 50) { timestamp := 60 } = true := by
  refine ⟨?_, by decide⟩
  simp [Store.run, Store.step, Store.write, Store.sweep, new, fill, searchList, searchBetween,
    retained]

end Rune.LogStore
