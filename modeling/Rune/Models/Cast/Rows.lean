import Rune.Models.Services.Record
import Rune.Models.Volumes.Row

/-!
# The rows that releases are made of

Services, secrets, configmaps and volumes are stored under the key of their
reference. Secrets, configmaps and volumes are written through a repository,
which decides what a create and an update store; a repository comes with the
proof that writing a row back restores it.
-/

namespace Rune.Cast

open Rune.Core
open Rune.Services
open Rune.Volumes

/-- A stored secret, decrypted. -/
structure Secret where
  ns : String
  name : String
  data : Entries := []
  version : ℕ := 0
  ownedBy : Option OwnedBy := none

/-- A stored configmap. -/
structure Configmap where
  id : String := ""
  ns : String
  name : String
  data : Entries := []
  version : ℕ := 0
  ownedBy : Option OwnedBy := none

/-- A stored resource. -/
inductive Row where
  | service (s : Service)
  | secret (s : Secret)
  | configmap (c : Configmap)
  | volume (v : Volume)

/-- The stored resources, by key. -/
abbrev Rows := String → Option Row

/-- The ownership stamp of a row. -/
def Row.ownedBy : Row → Option OwnedBy
  | service s => s.metadata.ownedBy
  | secret s => s.ownedBy
  | configmap c => c.ownedBy
  | volume v => v.ownedBy

/-- The service of a row. -/
def Row.service? : Row → Option Service
  | service s => some s
  | _ => none

/-- The secret of a row. -/
def Row.secret? : Row → Option Secret
  | secret s => some s
  | _ => none

/-- The configmap of a row. -/
def Row.configmap? : Row → Option Configmap
  | configmap c => some c
  | _ => none

/-- The volume of a row. -/
def Row.volume? : Row → Option Volume
  | volume v => some v
  | _ => none

/-- The two rows hold the same resource: the same content and owner for secrets, configmaps and
volumes, the same hash, identity and address for services. -/
def Row.Same : Row → Row → Prop
  | service s, service t =>
    s.calculateHash = t.calculateHash ∧ s.id = t.id ∧ vipOf s.discovery = vipOf t.discovery
  | secret s, secret t => s.data = t.data ∧ s.ownedBy = t.ownedBy
  | configmap c, configmap d => c.data = d.data ∧ c.ownedBy = d.ownedBy
  | volume v, volume w => v.content = w.content
  | _, _ => False

@[simp] theorem Row.same_self (r : Row) : r.Same r := by cases r <;> simp [Row.Same]

/-- What a repository stores. Kinds with an identity of their own fill it in on
create and refuse to change it on update. -/
structure Repo (α : Type) where
  toRow : α → Row
  ofRow : Row → Option α
  stamped : α → OwnedBy → α
  create : α → Except String α
  update : α → α → Except String α
  identity : α → Option String
  ofRow_eq_some : ∀ {r x}, ofRow r = some x ↔ r = toRow x
  update_identity : ∀ {p cur new}, update p cur = .ok new → identity new = identity cur
  update_same : ∀ {p cur new}, update p cur = .ok new → identity cur = identity p →
    (toRow p).Same (toRow new)
  create_same : ∀ {p new}, create p = .ok new →
    ((toRow p).Same (toRow new) ↔ identity p ≠ some "")
  create_identity : ∀ {p new}, create p = .ok new → identity new ≠ some ""
  same_identity : ∀ {p q}, (toRow p).Same (toRow q) → identity p = identity q
  stamped_owned : ∀ {p stamp}, (toRow (stamped p stamp)).ownedBy = some stamp
  create_owned : ∀ {p new}, create p = .ok new → (toRow new).ownedBy = (toRow p).ownedBy
  update_owned : ∀ {p cur new}, update p cur = .ok new →
    (toRow new).ownedBy = (toRow p).ownedBy

/-- The limits on the data of a secret or a configmap. -/
structure Limits where
  maxKeyNameLength : ℕ
  maxObjectBytes : ℕ

/-- The data checks of one kind, over the entries with the bytes counted so far. -/
def validateData (kind : String) (limits : Limits) : ℕ → Entries → Except String Unit
  | _, [] => .ok ()
  | total, (k, v) :: rest =>
    if limits.maxKeyNameLength < k.utf8ByteSize then .error (kind ++ " key name too long: " ++ k)
    else if limits.maxObjectBytes < total + v.utf8ByteSize then
      .error (kind ++ " data exceeds 1MiB limit")
    else validateData kind limits (total + v.utf8ByteSize) rest

/-- The first version of a secret. -/
def createSecret (limits : Limits) (s : Secret) : Except String Secret := do
  refuseIf (s.name = "" ∨ s.ns = "") "invalid secret"
  (validateDNS1123Name s.name).mapError fun e => "secret name validation failed: " ++ e
  validateData "secret" limits 0 s.data
  pure { s with version := 1 }

/-- The next version of a secret. -/
def updateSecret (limits : Limits) (s cur : Secret) : Except String Secret := do
  (validateDNS1123Name s.name).mapError fun e => "secret name validation failed: " ++ e
  validateData "secret" limits 0 s.data
  pure { s with version := cur.version + 1 }

/-- The first version of a configmap. -/
def createConfigmap (limits : Limits) (fresh : String) (c : Configmap) :
    Except String Configmap := do
  (validateDNS1123Name c.name).mapError fun e => "configmap name validation failed: " ++ e
  validateData "config" limits 0 c.data
  pure { c with id := if c.id = "" then fresh else c.id }

/-- The next version of a configmap. -/
def updateConfigmap (limits : Limits) (c cur : Configmap) : Except String Configmap := do
  validateData "config" limits 0 c.data
  pure { c with version := cur.version + 1 }

variable {limits : Limits}

theorem createSecret_eq_ok {s new : Secret} (h : createSecret limits s = .ok new) :
    { s with version := 1 } = new := by
  obtain ⟨_, -, h⟩ := bind_eq_ok h
  obtain ⟨_, -, h⟩ := bind_eq_ok h
  obtain ⟨_, -, h⟩ := bind_eq_ok h
  exact Except.ok.inj h

theorem updateSecret_eq_ok {s cur new : Secret} (h : updateSecret limits s cur = .ok new) :
    { s with version := cur.version + 1 } = new := by
  obtain ⟨_, -, h⟩ := bind_eq_ok h
  obtain ⟨_, -, h⟩ := bind_eq_ok h
  exact Except.ok.inj h

theorem createConfigmap_eq_ok {fresh : String} {c new : Configmap}
    (h : createConfigmap limits fresh c = .ok new) :
    { c with id := if c.id = "" then fresh else c.id } = new := by
  obtain ⟨_, -, h⟩ := bind_eq_ok h
  obtain ⟨_, -, h⟩ := bind_eq_ok h
  exact Except.ok.inj h

theorem updateConfigmap_eq_ok {c cur new : Configmap} (h : updateConfigmap limits c cur = .ok new) :
    { c with version := cur.version + 1 } = new := by
  obtain ⟨_, -, h⟩ := bind_eq_ok h
  exact Except.ok.inj h

/-- Secrets have no identity beside their key. -/
def secretRepo (limits : Limits) : Repo Secret where
  toRow := .secret
  ofRow := Row.secret?
  stamped s stamp := { s with ownedBy := some stamp }
  create := createSecret limits
  update := updateSecret limits
  identity _ := none
  ofRow_eq_some {r} := by cases r <;> simp [Row.secret?]
  update_identity _ := rfl
  update_same h _ := by
    rw [← updateSecret_eq_ok h]
    exact ⟨rfl, rfl⟩
  create_same h := by
    rw [← createSecret_eq_ok h]
    simp [Row.Same]
  create_identity _ := by simp
  same_identity _ := rfl
  stamped_owned := rfl
  create_owned h := by
    rw [← createSecret_eq_ok h]
    rfl
  update_owned h := by
    rw [← updateSecret_eq_ok h]
    rfl

/-- The identifier of a configmap is not part of its content. -/
def configmapRepo (limits : Limits) (fresh : String) : Repo Configmap where
  toRow := .configmap
  ofRow := Row.configmap?
  stamped c stamp := { c with ownedBy := some stamp }
  create := createConfigmap limits fresh
  update := updateConfigmap limits
  identity _ := none
  ofRow_eq_some {r} := by cases r <;> simp [Row.configmap?]
  update_identity _ := rfl
  update_same h _ := by
    rw [← updateConfigmap_eq_ok h]
    exact ⟨rfl, rfl⟩
  create_same h := by
    rw [← createConfigmap_eq_ok h]
    simp [Row.Same]
  create_identity _ := by simp
  same_identity _ := rfl
  stamped_owned := rfl
  create_owned h := by
    rw [← createConfigmap_eq_ok h]
    rfl
  update_owned h := by
    rw [← updateConfigmap_eq_ok h]
    rfl

/-- The repository of volumes. -/
def volumeRepo (fresh : Uuid) : Repo Volume where
  toRow := .volume
  ofRow := Row.volume?
  stamped v stamp := { v with ownedBy := some stamp }
  create := createVolume fresh.text
  update := updateVolume
  identity v := some v.id
  ofRow_eq_some {r} := by cases r <;> simp [Row.volume?]
  update_identity h := congrArg some (updateVolume_eq_ok h).2
  update_same {p cur new} h hid := by
    obtain ⟨rfl, -⟩ := updateVolume_eq_ok h
    have hid : cur.id = p.id := Option.some.inj hid
    by_cases hp : p.id = "" <;> simp [Row.Same, Volume.content, Volume.identified, hp, hid]
  create_same {p new} h := by
    obtain rfl := createVolume_eq_ok h
    by_cases hp : p.id = ""
    · have hne : "" ≠ fresh.text := fresh.nonempty.symm
      simp [Row.Same, Volume.content, Volume.identified, hp, hne]
    · by_cases hs : p.status = .unset <;>
        simp [Row.Same, Volume.content, Volume.identified, hp, hs]
  create_identity {p new} h := by
    obtain rfl := createVolume_eq_ok h
    by_cases hp : p.id = "" <;>
      simp [Volume.content, Volume.identified, hp, fresh.nonempty]
  same_identity {p q} h := by
    have hcontent : p.content = q.content := h
    have hid : p.content.id = q.content.id := by rw [hcontent]
    exact congrArg some hid
  stamped_owned := rfl
  create_owned h := by
    rw [← createVolume_eq_ok h]
    rfl
  update_owned h := by
    rw [← (updateVolume_eq_ok h).1]
    rfl

end Rune.Cast
