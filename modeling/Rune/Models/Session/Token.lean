import Rune.Core.Keyed
import Rune.Models.Policy.Compile

/-!
# Stored tokens

A token is stored under its identifier with the hash of its secret. A refresh grant also
keeps the hash of the secret before. A presented secret is found by going through all tokens
in the order of their keys.
-/

namespace Rune.Session

open Rune.Core Policy

/-- Text as characters. -/
abbrev Text := List Char

/-- What a token is for. -/
inductive TokenKind where
  | static
  | access
  | refresh
  deriving DecidableEq

/-- A stored token. -/
structure Token where
  id : String
  name : String
  subjectID : String
  subjectType : String
  description : String
  issuedAt : ℤ
  /-- `none` for a token that does not expire. -/
  expiresAt : Option ℤ
  revoked : Bool
  secretHash : String
  kind : TokenKind
  /-- Empty as long as the grant has not been rotated. -/
  prevSecretHash : String
  lastUsedAt : Option ℤ

/-- The hash that is stored in place of a secret, as a text that is never empty. -/
structure Hash where
  hashSecret : Text → String
  hashSecret_ne_empty : ∀ s, hashSecret s ≠ ""

/-- What every secret starts with. -/
def tokenSecretPrefix : Text := "rune_".toList

/-- A new secret from two random identifiers. -/
def newSecret (u v : Text) : Text := tokenSecretPrefix ++ u ++ '.' :: v

namespace Tokens

/-- The row of an ID. -/
def get (rows : List Token) (id : String) : Option Token := rows.find? (·.id = id)

/-- `Create` refuses a key that is taken. -/
def create (rows : List Token) (tok : Token) : Option (List Token) :=
  if tok.id ∈ rows.map Token.id then none
  else some (rows.orderedInsert (fun a b => a.id ≤ b.id) tok)

/-- `Update` replaces the whole row, and refuses a key that is not there. -/
def update (rows : List Token) (tok : Token) : Option (List Token) :=
  if tok.id ∈ rows.map Token.id then some (rows.map fun t => if t.id = tok.id then tok else t)
  else none

/-- The rows without an ID. -/
def delete (rows : List Token) (id : String) : List Token := rows.filter (·.id ≠ id)

variable {rows rows' : List Token} {tok t : Token} {id : String}

theorem mem_of_get (h : get rows id = some t) : t ∈ rows ∧ t.id = id :=
  ⟨List.mem_of_find?_eq_some h, by simpa using List.find?_some h⟩

theorem create_eq_some (h : create rows tok = some rows') :
    tok.id ∉ rows.map Token.id ∧ rows'.Perm (tok :: rows) := by
  rw [create] at h
  split_ifs at h with hid
  cases h
  exact ⟨hid, List.perm_orderedInsert _ tok rows⟩

theorem mem_create (h : create rows tok = some rows') : t ∈ rows' ↔ t = tok ∨ t ∈ rows := by
  rw [(create_eq_some h).2.mem_iff, List.mem_cons]

theorem update_eq_some (h : update rows tok = some rows') :
    tok.id ∈ rows.map Token.id ∧ rows' = rows.map fun t => if t.id = tok.id then tok else t := by
  rw [update] at h
  split_ifs at h with hid
  exact ⟨hid, (Option.some.inj h).symm⟩

/-- After an update the row is the new one, and the other rows are as they were. -/
theorem mem_update (h : update rows tok = some rows') :
    t ∈ rows' ↔ t = tok ∨ (t ∈ rows ∧ t.id ≠ tok.id) := by
  obtain ⟨hid, rfl⟩ := update_eq_some h
  rw [List.mem_map]
  constructor
  · rintro ⟨u, hu, rfl⟩
    by_cases he : u.id = tok.id
    · simp [he]
    · simp [he, hu]
  · rintro (rfl | ⟨ht, hne⟩)
    · obtain ⟨u, hu, he⟩ := List.mem_map.1 hid
      exact ⟨u, hu, if_pos he⟩
    · exact ⟨t, ht, if_neg hne⟩

theorem map_id_update (h : update rows tok = some rows') :
    rows'.map Token.id = rows.map Token.id := by
  obtain ⟨-, rfl⟩ := update_eq_some h
  rw [List.map_map]
  refine List.map_congr_left fun t _ => ?_
  simp only [Function.comp_apply]
  split_ifs with he
  · exact he.symm
  · rfl

theorem mem_delete : t ∈ delete rows id ↔ t ∈ rows ∧ t.id ≠ id := by simp [delete]

theorem distinct_create (hd : DistinctKeys Token.id rows) (h : create rows tok = some rows') :
    DistinctKeys Token.id rows' := by
  obtain ⟨hid, hperm⟩ := create_eq_some h
  refine DistinctKeys.perm ?_ hperm.symm
  exact List.nodup_cons.2 ⟨hid, hd⟩

theorem distinct_update (hd : DistinctKeys Token.id rows) (h : update rows tok = some rows') :
    DistinctKeys Token.id rows' := by
  rwa [DistinctKeys, map_id_update h]

theorem distinct_delete (hd : DistinctKeys Token.id rows) :
    DistinctKeys Token.id (delete rows id) := hd.sublist List.filter_sublist

end Tokens

variable (H : Hash)

/-- The row that `issue` creates. -/
def issue (name subjectID subjectType desc : String) (ttl : ℤ) (kind : TokenKind) (id : String)
    (secret : Text) (now : ℤ) : Token where
  id := id
  name := name
  subjectID := subjectID
  subjectType := subjectType
  description := desc
  issuedAt := now
  expiresAt := if 0 < ttl then some (now + ttl) else none
  revoked := false
  secretHash := H.hashSecret secret
  kind := kind
  prevSecretHash := ""
  lastUsedAt := none

/-- The listing is `none` where the store fails to list. -/
def lookupBySecret (listing : Option (List Token)) (now : ℤ) (secret : Text) : Option Token :=
  let secret := trimSpace secret
  if ¬ tokenSecretPrefix <+: secret then none
  else listing.bind fun rows => rows.find? fun t =>
    t.secretHash = H.hashSecret secret ∧ t.revoked = false ∧ ∀ e ∈ t.expiresAt, now < e

/-- The refresh token of a secret. -/
def findRefreshGrant (listing : Option (List Token)) (now : ℤ) (secret : Text) : Option Token :=
  (lookupBySecret H listing now secret).filter (·.kind = .refresh)

/-- An expired grant is found here too. -/
def findRefreshGrantByPrevHash (listing : Option (List Token)) (secret : Text) : Option Token :=
  let secret := trimSpace secret
  if ¬ tokenSecretPrefix <+: secret then none
  else listing.bind fun rows => rows.find? fun t =>
    t.kind = .refresh ∧ t.revoked = false ∧ t.prevSecretHash = H.hashSecret secret

/-- The row that `RotateGrantSecret` writes over the grant. -/
def rotateGrantSecret (grant : Token) (newPlain : Text) (now slidingTTL : ℤ) : Token :=
  { grant with
    prevSecretHash := grant.secretHash
    secretHash := H.hashSecret newPlain
    lastUsedAt := some now
    expiresAt := if 0 < slidingTTL then some (now + slidingTTL) else grant.expiresAt }

/-- The row that `Revoke` writes over the one it has read. -/
def Token.revoke (t : Token) : Token := { t with revoked := true }

variable {H}

theorem findRefreshGrant_eq_some {listing : Option (List Token)} {now : ℤ} {secret : Text}
    {t : Token} (h : findRefreshGrant H listing now secret = some t) :
    tokenSecretPrefix <+: trimSpace secret ∧ t.kind = .refresh ∧ t.revoked = false ∧
      t.secretHash = H.hashSecret (trimSpace secret) ∧ ∃ rows ∈ listing, t ∈ rows := by
  obtain ⟨hlookup, hkind⟩ := Option.filter_eq_some_iff.1 h
  simp only [lookupBySecret] at hlookup
  split_ifs at hlookup with hp
  obtain ⟨rows, hrows, hfind⟩ := Option.bind_eq_some_iff.1 hlookup
  have hsat := List.find?_some hfind
  simp only [decide_eq_true_eq] at hsat hkind
  exact ⟨hp, hkind, hsat.2.1, hsat.1, rows, hrows, List.mem_of_find?_eq_some hfind⟩

end Rune.Session
