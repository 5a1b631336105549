import Rune.Core.BigEndian
import Rune.Core.Mvcc

/-!
# The calls of the resource store

A call of the store runs in a transaction that reads from one snapshot. What it does
there depends on the snapshot alone: it fails, skips the write, or has changes to commit,
each with the event that tells the watchers of it.
-/

namespace Rune.Store

open Rune.Core

/-- The types of resource. -/
inductive ResourceType where
  | service
  | instanceKind
  | namespaceKind
  | scalingOperation
  | deletionOperation
  | secret
  | configmap
  | user
  | token
  | policy
  | auditEvent
  | volume
  | storageClass
  | snapshot
  | release
  | savedView
  | alertRule
  | channel
  | node
  | nodeLedger
  deriving DecidableEq

/-- The text of a type. -/
def ResourceType.text : ResourceType → String
  | service => "service"
  | instanceKind => "instance"
  | namespaceKind => "namespace"
  | scalingOperation => "scaling_operation"
  | deletionOperation => "deletion_operation"
  | secret => "secret"
  | configmap => "configmap"
  | user => "user"
  | token => "token"
  | policy => "policy"
  | auditEvent => "audit_event"
  | volume => "volume"
  | storageClass => "storage_class"
  | snapshot => "snapshot"
  | release => "release"
  | savedView => "saved_view"
  | alertRule => "alert_rule"
  | channel => "channel"
  | node => "node"
  | nodeLedger => "node_ledger"

/-- Where a resource is stored. -/
structure Coord where
  resourceType : ResourceType
  ns : String
  name : String

/-- The key of a resource. -/
def makeKey (c : Coord) : String := c.resourceType.text ++ "/" ++ c.ns ++ "/" ++ c.name

/-- What an event tells. -/
inductive WatchEventType where
  | created
  | updated
  | deleted
  deriving DecidableEq

/-- An event carries the object that the caller passed or, for a deletion, the decoded
value that was stored. -/
structure WatchEvent (R : Type) where
  type : WatchEventType
  coord : Coord
  resource : Option R
  source : String := ""

/-- A write of a transaction, and the event that tells of it. A deletion writes `none`. -/
structure Change (R : Type) where
  event : WatchEvent R
  value : Option Bytes

/-- The key that is changed. -/
def Change.key {R : Type} (ch : Change R) : String := makeKey ch.event.coord

/-- The JSON encoding of the objects. -/
structure Encoding (R : Type) where
  marshal : R → Option Bytes
  /-- Decode into an object. What the bytes do not mention stays as it was. -/
  unmarshal : Bytes → R → Option R
  /-- Decode into an empty interface. -/
  decode : Bytes → Option R

/-- How a mutate function ends a call. -/
inductive MutateError where
  | skipUpdate
  /-- An error that is, or wraps, the conflict error of the database. -/
  | conflict
  | other
  deriving DecidableEq

/-- Why a call fails. -/
inductive Failure where
  /-- `resource <type>/<ns>/<name> not found` -/
  | notFound
  /-- `resource <type>/<ns>/<name> already exists` -/
  | alreadyExists
  /-- `failed to serialize resource` -/
  | serialize
  /-- `failed to deserialize resource` -/
  | deserialize
  /-- The conflict error of the database. -/
  | conflict
  /-- An error of the function that the caller passed. -/
  | callback
  /-- Any other error of the database. -/
  | database
  deriving DecidableEq

/-- The body of a transaction with several operations, which may depend on what it has
read and on the errors it was given. -/
inductive Tx (R : Type) where
  | ret (failed : Bool)
  | get (coord : Coord) (next : Option Bytes → Tx R)
  | create (coord : Coord) (resource : R) (next : Option Failure → Tx R)
  | update (coord : Coord) (resource : R) (next : Option Failure → Tx R)
  | delete (coord : Coord) (next : Option Failure → Tx R)

/-- The calls of the store. -/
inductive Call (R : Type) where
  | create (coord : Coord) (resource : R)
  | update (coord : Coord) (resource : R) (source : String)
  /-- The target is `none` if it is not a pointer that can be set. The zero value is the
  one of its type. -/
  | updateFunc (coord : Coord) (zero : R) (target : Option R)
      (mutate : R → R × Option MutateError) (source : String)
  | delete (coord : Coord)
  | transaction (fn : Tx R)

/-- What a transaction does with its snapshot. -/
inductive Attempt (R : Type) where
  | fails (e : Failure)
  | skips
  | commits (reads : List String) (changes : List (Change R))

variable {R : Type} (enc : Encoding R) (db : String → Option Bytes)

/-- The keys and values of the changes. -/
def writes (changes : List (Change R)) : List (String × Option Bytes) :=
  changes.map fun ch => (ch.key, ch.value)

namespace Call

/-- Create, if there is none. -/
def createAttempt (coord : Coord) (resource : R) : Attempt R :=
  match enc.marshal resource with
  | none => .fails .serialize
  | some data =>
    if (db (makeKey coord)).isSome then .fails .alreadyExists
    else .commits [makeKey coord] [⟨⟨.created, coord, some resource, ""⟩, some data⟩]

/-- Update, if there is one. -/
def updateAttempt (coord : Coord) (resource : R) (source : String) : Attempt R :=
  match enc.marshal resource with
  | none => .fails .serialize
  | some data =>
    if (db (makeKey coord)).isSome then
      .commits [makeKey coord] [⟨⟨.updated, coord, some resource, source⟩, some data⟩]
    else .fails .notFound

/-- Delete, if there is one that decodes. -/
def deleteAttempt (coord : Coord) : Attempt R :=
  match db (makeKey coord) with
  | none => .fails .notFound
  | some val =>
    match enc.decode val with
    | none => .fails .deserialize
    | some resource => .commits [makeKey coord] [⟨⟨.deleted, coord, some resource, ""⟩, none⟩]

/-- Zero the target. A target that cannot be set is left alone. -/
def resetTarget (zero : R) (target : Option R) : Option R := target.map fun _ => zero

/-- An attempt of `UpdateFunc`, and the target as it leaves it. -/
def updateFuncAttempt (coord : Coord) (zero : R) (mutate : R → R × Option MutateError)
    (source : String) (target : Option R) : Attempt R × Option R :=
  match db (makeKey coord) with
  | none => (.fails .notFound, target)
  | some val =>
    match (resetTarget zero target).bind (enc.unmarshal val) with
    | none => (.fails .deserialize, resetTarget zero target)
    | some decoded =>
      match mutate decoded with
      | (mutated, some .skipUpdate) => (.skips, some mutated)
      | (mutated, some .conflict) => (.fails .conflict, some mutated)
      | (mutated, some .other) => (.fails .callback, some mutated)
      | (mutated, none) =>
        match enc.marshal mutated with
        | none => (.fails .serialize, some mutated)
        | some data =>
          (.commits [makeKey coord] [⟨⟨.updated, coord, some mutated, source⟩, some data⟩],
            some mutated)

end Call

/-- The keys that a transaction has read from its snapshot, and its writes so far. -/
structure TxState (R : Type) where
  reads : List String := []
  changes : List (Change R) := []

namespace TxState

/-- Read a key: a write of the transaction itself comes first. -/
def get (s : TxState R) (key : String) : Option Bytes := replay db (writes s.changes) key

/-- Note a read of the snapshot. -/
def noted (s : TxState R) (key : String) : TxState R :=
  if key ∈ s.changes.map Change.key then s else { s with reads := s.reads ++ [key] }

/-- Add a change. -/
def write (s : TxState R) (ch : Change R) : TxState R := { s with changes := s.changes ++ [ch] }

/-- Create within a transaction. -/
def create (s : TxState R) (coord : Coord) (resource : R) : Option Failure × TxState R :=
  match enc.marshal resource with
  | none => (some .serialize, s)
  | some data =>
    if (s.get db (makeKey coord)).isSome then (some .alreadyExists, s.noted (makeKey coord))
    else (none, (s.noted (makeKey coord)).write
      ⟨⟨.created, coord, some resource, ""⟩, some data⟩)

/-- Update within a transaction. -/
def update (s : TxState R) (coord : Coord) (resource : R) : Option Failure × TxState R :=
  match enc.marshal resource with
  | none => (some .serialize, s)
  | some data =>
    if (s.get db (makeKey coord)).isSome then
      (none, (s.noted (makeKey coord)).write ⟨⟨.updated, coord, some resource, ""⟩, some data⟩)
    else (some .notFound, s.noted (makeKey coord))

/-- Delete within a transaction. -/
def delete (s : TxState R) (coord : Coord) : Option Failure × TxState R :=
  match s.get db (makeKey coord) with
  | none => (some .notFound, s.noted (makeKey coord))
  | some val => (none, (s.noted (makeKey coord)).write
      ⟨⟨.deleted, coord, enc.decode val, ""⟩, none⟩)

end TxState

/-- Run a transaction on a snapshot. -/
def Tx.attempt : Tx R → TxState R → Attempt R
  | .ret failed, s => if failed then .fails .callback else .commits s.reads s.changes
  | .get coord next, s =>
    (next (s.get db (makeKey coord))).attempt (s.noted (makeKey coord))
  | .create coord resource next, s =>
    (next (s.create enc db coord resource).1).attempt (s.create enc db coord resource).2
  | .update coord resource next, s =>
    (next (s.update enc db coord resource).1).attempt (s.update enc db coord resource).2
  | .delete coord next, s =>
    (next (s.delete enc db coord).1).attempt (s.delete enc db coord).2

namespace Call

/-- What the call does in a transaction, and its target after that. -/
def attempt (call : Call R) (target : Option R) : Attempt R × Option R :=
  match call with
  | .create coord resource => (createAttempt enc db coord resource, target)
  | .update coord resource source => (updateAttempt enc db coord resource source, target)
  | .updateFunc coord zero _ mutate source =>
    updateFuncAttempt enc db coord zero mutate source target
  | .delete coord => (deleteAttempt enc db coord, target)
  | .transaction fn => (fn.attempt enc db {}, target)

/-- The call is a transaction. -/
def isTransaction : Call R → Bool
  | .transaction _ => true
  | _ => false

/-- The call is an `UpdateFunc`. -/
def isUpdateFunc : Call R → Bool
  | .updateFunc .. => true
  | _ => false

/-- The target that the caller passed. -/
def passedTarget : Call R → Option R
  | .updateFunc _ _ target _ _ => target
  | _ => none

end Call

end Rune.Store
