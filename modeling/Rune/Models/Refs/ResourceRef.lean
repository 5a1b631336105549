import Rune.Core.Delimited
import Rune.Core.Quote

/-!
# References to resources

A reference is a URI, a name with its type in front and possibly a namespace and a key behind, or,
where the caller supplies a type, a bare name. What the standard library makes of a URI is a
parameter.
-/

namespace Rune.Refs

open Rune.Core

/-- The types that a reference names. -/
inductive ResourceType where
  | secret
  | configmap
  | volume
  | snapshot
  | other (text : String)
  deriving DecidableEq

/-- The type of a text. -/
def ResourceType.ofString (text : String) : ResourceType :=
  if text = "secret" then .secret
  else if text = "configmap" then .configmap
  else if text = "volume" then .volume
  else if text = "snapshot" then .snapshot
  else .other text

/-- A parsed reference. -/
structure ResourceRef where
  type : ResourceType
  ns : String := ""
  name : String := ""
  id : String := ""
  key : String := ""

/-- Fill the namespace in. -/
def ResourceRef.withDefaultNamespace (r : ResourceRef) (ns : String) : ResourceRef :=
  { r with ns := if r.ns = "" then ns else r.ns }

/-- What the standard library knows of texts. -/
structure TextRules where
  /-- The host and the path of a URI. -/
  parseURI : String → Except String (String × String)
  /-- A part of a path without its escapes; empty where one of them is not valid. -/
  pathUnescape : String → String
  printable : Printable

variable (rules : TextRules)

/-- A quoted text. -/
def TextRules.quote (s : String) : String := String.ofList (Core.quote rules.printable s.toList)

/-- The part of a text before the first occurrence of a character, and the part behind it. -/
def cutAt (c : Char) (s : String) : Option (String × String) :=
  (cut [c] s.toList).map fun p => (String.ofList p.1, String.ofList p.2)

/-- The parts between the separators. -/
def parts (c : Char) (s : String) : List String := (s.toList.splitOn c).map String.ofList

/-- The reference that the path of a URI stands for. -/
def parsePath (s : String) (type : ResourceType) (path : String) : Except String ResourceRef :=
  let trimmed := if path.toList.head? = some '/' then String.ofList path.toList.tail else path
  match parts '/' trimmed with
  | ns :: "id" :: id :: rest =>
    if rules.pathUnescape id = "" then .error ("invalid ref: missing id in " ++ s)
    else .ok
      { type, ns, id := rules.pathUnescape id, key := (rest.head?.map rules.pathUnescape).getD "" }
  | ns :: name :: rest => .ok
      { type, ns, name := rules.pathUnescape name
        key := (rest.head?.map rules.pathUnescape).getD "" }
  | _ => .error ("invalid ref: " ++ s)

/-- The reference that a name stands for, which may have its namespace behind. -/
def parseName (s : String) (type : ResourceType) (rest key : String) : Except String ResourceRef :=
  if ['.', 'r', 'u', 'n', 'e'] <:+ rest.toList then
    match (parts '.' rest).reverse with
    | _ :: ns :: name :: names =>
      let full := joinWith '.' (name :: names).reverse
      if ns = "" ∨ full = "" then .error ("invalid fqdn: missing name or namespace in " ++ s)
      else .ok { type, ns, name := full, key }
    | _ => .error ("invalid fqdn: " ++ s)
  else if rest = "" then .error ("invalid minimal ref: missing name in " ++ s)
  else .ok { type, name := rest, key }

/-- Parse a reference in one of its two forms. -/
def parseResourceRef (s : String) : Except String ResourceRef :=
  if "rune://".toList <+: s.toList then
    match rules.parseURI s with
    | .error e => .error e
    | .ok (host, path) => parsePath rules s (.ofString host) path
  else
    let (front, key) := (cutAt '/' s).getD (s, "")
    match cutAt ':' front with
    | some (type, rest) =>
      if type = "" then .error ("unknown ref format: " ++ front)
      else parseName front (.ofString type) rest key
    | none => .error ("unknown ref format: " ++ front)

/-- Parse a reference that may be a bare name. -/
def parseResourceRefWithDefaults (s : String) (type : ResourceType) (ns : String) :
    Except String ResourceRef :=
  if s = "" then .error "empty ref"
  else if ¬ "rune://".toList <+: s.toList ∧ ':' ∉ s.toList then
    match parts '/' s with
    | [name] => .ok { type, ns, name }
    | [ns, name] =>
      if ns = "" ∨ name = "" then
        .error ("invalid ref " ++ rules.quote s ++
          ": namespace and name both required in ns/name shorthand")
      else .ok { type, ns, name }
    | _ =>
      .error ("invalid ref " ++ rules.quote s ++ ": bare name must not contain more than one '/'")
  else
    (parseResourceRef rules s).map fun r =>
      let r : ResourceRef := { r with type := if r.type = .other "" then type else r.type }
      r.withDefaultNamespace ns

end Rune.Refs
