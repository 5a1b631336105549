import Rune.Core.Run
import Rune.Models.Session.Token

/-!
# The session manager

`Rotate` exchanges a refresh secret for its successor. The manager's lock lets one call at a time
in, but a call makes several accesses to the store, and `Revoke` and the other writers of tokens
do not take the lock. So the call that holds the lock is a state, and each of its accesses is a
step. The successor of an exchanged secret is answered from memory while the grace window is open.
-/

namespace Rune.Session

open Rune.Core Policy

/-- What `Rotate` hands out. -/
structure Out where
  access : Text := []
  refresh : Text := []
  accessExp : Option ℤ := none

/-- How a `Rotate` ends. -/
inductive Result where
  | ok
  | breach
  | invalid
  | error
  deriving DecidableEq

/-- What an exchanged secret was answered with, and until when. -/
structure GraceEntry where
  out : Out
  graceExp : ℤ

/-- The lifetimes. -/
structure Config where
  accessTTL : ℤ
  refreshTTL : ℤ
  graceWindow : ℤ

/-- Where the `Rotate` call that holds the lock stands: what its next access is. -/
inductive Phase where
  /-- The listing of `FindRefreshGrant`. -/
  | lookup
  /-- The creation of an access token, with the grant that was found. -/
  | issue (grant : Token)
  /-- The update of the grant, with the access token that was created. -/
  | rotate (grant : Token) (access : Text) (accessExp : Option ℤ)
  /-- The listing of `FindRefreshGrantByPrevHash`. -/
  | detect
  /-- The read of `Revoke`. -/
  | revokeGet (id : String)
  /-- The update of `Revoke`, with the row that was read. -/
  | revokePut (row : Token)

/-- The grant that a call has read and will overwrite with a new secret. -/
def Phase.grant : Phase → Option Token
  | .issue grant | .rotate grant _ _ => some grant
  | .lookup | .detect | .revokeGet _ | .revokePut _ => none

/-- A secret of a grant that was exchanged for its successor. -/
structure Exchange where
  grant : String
  secret : Text
  time : ℤ
  out : Out

/-- What has happened so far; nothing of it is stored. -/
structure History where
  /-- The hashes of all secrets, each with the token that it was made for. -/
  minted : List (String × String) := []
  /-- The exchanges, the last one first. -/
  exchanges : List Exchange := []
  /-- The tokens for which a `Revoke` has returned `nil`. -/
  revoked : List String := []

/-- A call that holds the lock. `begun` is what had happened when it took the lock. -/
structure Call where
  secret : Text
  now : ℤ
  begun : History
  phase : Phase

/-- A `Rotate` that has returned. -/
structure Answer where
  secret : Text
  now : ℤ
  begun : History
  out : Out
  result : Result

/-- The stored tokens, the calls in progress and the answers. -/
structure State where
  tokens : List Token := []
  grace : String → Option GraceEntry := fun _ => none
  holder : Option Call := none
  /-- The rows that the calls of `Revoke` in progress have read. -/
  revokes : List Token := []
  clock : ℤ := 0
  history : History := {}
  /-- The answers of `Rotate`, the last one first. -/
  answers : List Answer := []

/-- What is random in an access. -/
structure Nonce where
  id : String
  left : Text
  right : Text

/-- The secret that is made of it. -/
def Nonce.secret (n : Nonce) : Text := newSecret n.left n.right

/-- What can happen. -/
inductive Action where
  /-- A call of `Rotate` takes the lock and reads the clock. -/
  | rotate (secret : Text) (now : ℤ)
  /-- The next access of the call that holds the lock; it fails unless `ok`. -/
  | access (ok : Bool) (now : ℤ) (nonce : Nonce)
  /-- `Revoke` reads the row. -/
  | revoke (id : String)
  /-- A call of `Revoke` in progress updates the row. -/
  | put (i : ℕ) (ok : Bool)
  | issue (name subjectID subjectType desc : String) (ttl : ℤ) (kind : TokenKind) (nonce : Nonce)
      (now : ℤ)
  | delete (id : String)
  /-- A new process: the lock, the cache and the calls in progress are lost. -/
  | restart

/-- `gcGraceLocked`. -/
def gcGrace (now : ℤ) (grace : String → Option GraceEntry) : String → Option GraceEntry :=
  fun h => (grace h).filter fun e => ¬ e.graceExp < now

namespace State

variable (H : Hash) (cfg : Config)

/-- The clock shows `now`. -/
def tick (s : State) (now : ℤ) : State := { s with clock := now }

/-- The call goes on to its next access. -/
def goto (s : State) (c : Call) (phase : Phase) : State :=
  { s with holder := some { c with phase } }

/-- The call returns and gives the lock back. -/
def answer (s : State) (c : Call) (out : Out) (result : Result) : State :=
  { s with
    holder := none
    answers := ⟨c.secret, c.now, c.begun, out, result⟩ :: s.answers }

/-- A token was made with a new secret. -/
def mint (s : State) (secret : Text) (id : String) : State :=
  { s with history := { s.history with minted := (H.hashSecret secret, id) :: s.history.minted } }

/-- `Revoke` returns `nil`. -/
def recordRevoked (s : State) (id : String) : State :=
  { s with history := { s.history with revoked := id :: s.history.revoked } }

/-- The grant was rotated: the successor is cached, and expired entries go. -/
def exchange (s : State) (c : Call) (grant : Token) (out : Out) : State :=
  let secret := trimSpace c.secret
  { s with
    grace := gcGrace c.now (Function.update s.grace (H.hashSecret secret)
      (some ⟨out, c.now + cfg.graceWindow⟩))
    history := { s.history with
      exchanges := ⟨grant.id, secret, c.now, out⟩ :: s.history.exchanges } }

/-- One access of `Rotate`. -/
def access (s : State) (c : Call) (ok : Bool) (now : ℤ) (n : Nonce) : State :=
  let listing := if ok then some s.tokens else none
  match c.phase with
  | .lookup =>
    match findRefreshGrant H listing now c.secret with
    | some grant => s.goto c (.issue grant)
    | none =>
      let h := H.hashSecret (trimSpace c.secret)
      match s.grace h with
      | none => s.goto c .detect
      | some e =>
        if c.now < e.graceExp then s.answer c e.out .ok
        else { s with grace := Function.update s.grace h none }.goto c .detect
  | .issue grant =>
    let tok := Session.issue H "access" grant.subjectID grant.subjectType "" cfg.accessTTL .access
      n.id n.secret now
    match if ok then Tokens.create s.tokens tok else none with
    | none => s.answer c {} .error
    | some tokens =>
      ({ s with tokens }.mint H n.secret n.id).goto c (.rotate grant n.secret tok.expiresAt)
  | .rotate grant access accessExp =>
    let row := rotateGrantSecret H grant n.secret now cfg.refreshTTL
    match if ok then Tokens.update s.tokens row else none with
    | none => s.answer c {} .error
    | some tokens =>
      let out : Out := ⟨access, n.secret, accessExp⟩
      (({ s with tokens }.mint H n.secret grant.id).exchange H cfg c grant out).answer c out .ok
  | .detect =>
    match findRefreshGrantByPrevHash H listing c.secret with
    | some grant => s.goto c (.revokeGet grant.id)
    | none => s.answer c {} .invalid
  | .revokeGet id =>
    match if ok then Tokens.get s.tokens id else none with
    | some row => s.goto c (.revokePut row)
    | none => s.answer c {} .breach
  | .revokePut row =>
    match if ok then Tokens.update s.tokens row.revoke else none with
    | some tokens => ({ s with tokens }.recordRevoked row.id).answer c {} .breach
    | none => s.answer c {} .breach

/-- One step. Time does not run backwards, and the lock is held by one call. -/
def step (s : State) : Action → Option State
  | .rotate secret now =>
    if s.holder.isSome ∨ now < s.clock then none
    else some { s.tick now with holder := some ⟨secret, now, s.history, .lookup⟩ }
  | .access ok now n =>
    match s.holder with
    | none => none
    | some c => if now < s.clock then none else some ((s.tick now).access H cfg c ok now n)
  | .revoke id =>
    match Tokens.get s.tokens id with
    | some row => some { s with revokes := s.revokes ++ [row] }
    | none => some s
  | .put i ok =>
    match s.revokes[i]? with
    | none => none
    | some row =>
      let s := { s with revokes := s.revokes.eraseIdx i }
      match if ok then Tokens.update s.tokens row.revoke else none with
      | some tokens => some ({ s with tokens }.recordRevoked row.id)
      | none => some s
  | .issue name subjectID subjectType desc ttl kind n now =>
    let tok := Session.issue H name subjectID subjectType desc ttl kind n.id n.secret now
    match Tokens.create s.tokens tok with
    | some tokens => some ({ s with tokens }.mint H n.secret n.id)
    | none => some s
  | .delete id => some { s with tokens := Tokens.delete s.tokens id }
  | .restart => some { s with grace := fun _ => none, holder := none, revokes := [] }

end State

end Rune.Session
