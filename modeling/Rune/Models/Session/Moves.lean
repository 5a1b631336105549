import Rune.Models.Session.Manager

/-!
# What a step of the session manager can do

`Access` lists what an access of `Rotate` can do, and `Move` what a step can do. Every
token that is stored, or held by a call in progress, carries hashes that were made for it:
so no secret opens two tokens.
-/

namespace Rune.Session

open Rune.Core Policy List

variable {H : Hash} {cfg : Config}

/-- Why an access ends the call without new credentials. -/
inductive Rejects (H : Hash) (s : State) (c : Call) : Prop where
  /-- The grant was found, but the access token or the new secret could not be stored. -/
  | rotating (grant : Token) (hphase : c.phase.grant = some grant)
  | undetected (hphase : c.phase = .detect)
      (hfind : findRefreshGrantByPrevHash H (some s.tokens) c.secret = none)
  | unfetched (id : String) (hphase : c.phase = .revokeGet id)
      (hget : Tokens.get s.tokens id = none)
  | unwritten (row : Token) (hphase : c.phase = .revokePut row)
      (hupdate : Tokens.update s.tokens row.revoke = none)

/-- What the access of a call can do. -/
inductive Access (H : Hash) (cfg : Config) (s : State) (c : Call) (ok : Bool) (now : ℤ)
    (n : Nonce) : State → Prop where
  | found (grant : Token) (hphase : c.phase = .lookup)
      (hfind : findRefreshGrant H (some s.tokens) now c.secret = some grant) :
      Access H cfg s c ok now n (s.goto c (.issue grant))
  | served (e : GraceEntry) (hphase : c.phase = .lookup)
      (hgrace : s.grace (H.hashSecret (trimSpace c.secret)) = some e) (hopen : c.now < e.graceExp) :
      Access H cfg s c ok now n (s.answer c e.out .ok)
  | missed (hphase : c.phase = .lookup)
      (hclosed : ∀ e ∈ s.grace (H.hashSecret (trimSpace c.secret)), e.graceExp ≤ c.now) :
      Access H cfg s c ok now n ({ s with
        grace := Function.update s.grace (H.hashSecret (trimSpace c.secret)) none }.goto c .detect)
  | created (grant : Token) (tokens : List Token) (hphase : c.phase = .issue grant)
      (hcreate : Tokens.create s.tokens (issue H "access" grant.subjectID grant.subjectType ""
        cfg.accessTTL .access n.id n.secret now) = some tokens) (accessExp : Option ℤ) :
      Access H cfg s c ok now n
        (({ s with tokens }.mint H n.secret n.id).goto c (.rotate grant n.secret accessExp))
  | exchanged (grant : Token) (access : Text) (accessExp : Option ℤ) (tokens : List Token)
      (hphase : c.phase = .rotate grant access accessExp)
      (hupdate : Tokens.update s.tokens (rotateGrantSecret H grant n.secret now cfg.refreshTTL) =
        some tokens) :
      Access H cfg s c ok now n
        ((({ s with tokens }.mint H n.secret grant.id).exchange H cfg c grant
          ⟨access, n.secret, accessExp⟩).answer c ⟨access, n.secret, accessExp⟩ .ok)
  | detected (grant : Token) (hphase : c.phase = .detect)
      (hfind : findRefreshGrantByPrevHash H (some s.tokens) c.secret = some grant) :
      Access H cfg s c ok now n (s.goto c (.revokeGet grant.id))
  | fetched (id : String) (row : Token) (hphase : c.phase = .revokeGet id)
      (hget : Tokens.get s.tokens id = some row) :
      Access H cfg s c ok now n (s.goto c (.revokePut row))
  | breached (row : Token) (tokens : List Token) (hphase : c.phase = .revokePut row)
      (hupdate : Tokens.update s.tokens row.revoke = some tokens) :
      Access H cfg s c ok now n (({ s with tokens }.recordRevoked row.id).answer c {} .breach)
  | rejected (result : Result) (hresult : result ≠ .ok) (hwhy : ok = false ∨ Rejects H s c) :
      Access H cfg s c ok now n (s.answer c {} result)

theorem findRefreshGrant_none (now : ℤ) (secret : Text) :
    findRefreshGrant H none now secret = none := by
  simp [findRefreshGrant, lookupBySecret]

theorem findRefreshGrantByPrevHash_none (secret : Text) :
    findRefreshGrantByPrevHash H none secret = none := by
  simp [findRefreshGrantByPrevHash]

/-- A store operation that may fail has a result only if it does not. -/
theorem of_ite_eq_some {α : Type*} {ok : Bool} {x : Option α} {a : α}
    (h : (if ok then x else none) = some a) : ok = true ∧ x = some a := by
  cases ok with
  | true => exact ⟨rfl, h⟩
  | false => cases h

theorem of_ite_eq_none {α : Type*} {ok : Bool} {x : Option α}
    (h : (if ok then x else none) = none) : ok = false ∨ x = none := by
  cases ok with
  | true => exact .inr h
  | false => exact .inl rfl

/-- Every access is one of these. -/
theorem access_cases (s : State) (c : Call) (ok : Bool) (now : ℤ) (n : Nonce) :
    Access H cfg s c ok now n (s.access H cfg c ok now n) := by
  fun_cases s.access H cfg c ok now n with
  | case1 _ hphase grant hfind =>
    cases ok with
    | true => exact .found grant hphase hfind
    | false => exact nomatch (findRefreshGrant_none now c.secret).symm.trans hfind
  | case2 _ hphase _ _ hgrace =>
    have hmissed : Access H cfg s c ok now n _ := .missed hphase fun _ he =>
      nomatch hgrace.symm.trans he
    rwa [Function.update_eq_iff.mpr ⟨hgrace.symm, fun _ _ => rfl⟩] at hmissed
  | case3 _ hphase _ _ e hgrace hopen => exact .served e hphase hgrace hopen
  | case4 _ hphase _ _ e hgrace hopen =>
    refine .missed hphase fun _ he => ?_
    cases hgrace.symm.trans he
    exact not_lt.mp hopen
  | case5 grant hphase | case7 grant _ _ hphase =>
    exact .rejected .error (by decide) (.inr (.rotating grant (by rw [hphase]; rfl)))
  | case6 grant hphase _ tokens hcreate =>
    exact .created grant tokens hphase (of_ite_eq_some hcreate).2 _
  | case8 grant access accessExp hphase _ tokens hupdate =>
    exact .exchanged grant access accessExp tokens hphase (of_ite_eq_some hupdate).2
  | case9 _ hphase grant hfind =>
    cases ok with
    | true => exact .detected grant hphase hfind
    | false => exact nomatch (findRefreshGrantByPrevHash_none c.secret).symm.trans hfind
  | case10 _ hphase hfind =>
    refine .rejected .invalid (by decide) ?_
    cases ok with
    | true => exact .inr (.undetected hphase hfind)
    | false => exact .inl rfl
  | case11 id hphase row hget => exact .fetched id row hphase (of_ite_eq_some hget).2
  | case12 id hphase hget =>
    exact .rejected .breach (by decide) ((of_ite_eq_none hget).imp_right (.unfetched id hphase))
  | case13 row hphase tokens hupdate =>
    exact .breached row tokens hphase (of_ite_eq_some hupdate).2
  | case14 row hphase hupdate =>
    exact .rejected .breach (by decide)
      ((of_ite_eq_none hupdate).imp_right (.unwritten row hphase))

/-- What a step can do. -/
inductive Move (H : Hash) (cfg : Config) (s : State) : Action → State → Prop where
  | began {secret : Text} {now : ℤ} (hidle : s.holder = none) (hclock : s.clock ≤ now) :
      Move H cfg s (.rotate secret now)
        { s.tick now with holder := some ⟨secret, now, s.history, .lookup⟩ }
  | access {ok : Bool} {now : ℤ} {n : Nonce} {t : State} (c : Call) (hc : s.holder = some c)
      (hclock : s.clock ≤ now) (h : Access H cfg (s.tick now) c ok now n t) :
      Move H cfg s (.access ok now n) t
  | read {id : String} (row : Token) (hget : Tokens.get s.tokens id = some row) :
      Move H cfg s (.revoke id) { s with revokes := s.revokes ++ [row] }
  | put {i : ℕ} {ok : Bool} (row : Token) (tokens : List Token) (hrow : s.revokes[i]? = some row)
      (hupdate : Tokens.update s.tokens row.revoke = some tokens) :
      Move H cfg s (.put i ok)
        ({ s with tokens, revokes := s.revokes.eraseIdx i }.recordRevoked row.id)
  | putFailed {i : ℕ} {ok : Bool} :
      Move H cfg s (.put i ok) { s with revokes := s.revokes.eraseIdx i }
  | issued {name subjectID subjectType desc : String} {ttl now : ℤ} {kind : TokenKind} {n : Nonce}
      (tokens : List Token)
      (hcreate : Tokens.create s.tokens
        (issue H name subjectID subjectType desc ttl kind n.id n.secret now) = some tokens) :
      Move H cfg s (.issue name subjectID subjectType desc ttl kind n now)
        ({ s with tokens }.mint H n.secret n.id)
  | deleted {id : String} :
      Move H cfg s (.delete id) { s with tokens := Tokens.delete s.tokens id }
  | restarted :
      Move H cfg s .restart { s with grace := fun _ => none, holder := none, revokes := [] }
  | nothing {a : Action} : Move H cfg s a s

/-- Every step is a move. -/
theorem step_move {s t : State} {a : Action} (h : s.step H cfg a = some t) : Move H cfg s a t := by
  revert h
  fun_cases s.step H cfg a <;> intro h <;> try cases h
  · rename_i hbusy
    rw [not_or, not_lt, Option.not_isSome_iff_eq_none] at hbusy
    exact .began hbusy.1 hbusy.2
  · exact .access _ ‹_› (not_lt.1 ‹_›) (access_cases _ _ _ _ _)
  · exact .read _ ‹_›
  · exact .nothing
  · rename_i hrow _ _ hupdate
    exact .put _ _ hrow (of_ite_eq_some hupdate).2
  · obtain rfl := Option.some.inj h
    exact .putFailed
  · exact .issued _ ‹_›
  · exact .nothing
  · exact .deleted
  · exact .restarted

namespace History

/-- The secret with this hash was made for the token. -/
def Made (h : History) (hash id : String) : Prop := (hash, id) ∈ h.minted

instance (h : History) (hash id : String) : Decidable (h.Made hash id) :=
  inferInstanceAs (Decidable (_ ∈ _))

/-- The hashes that the token carries were made for it. -/
structure Owns (h : History) (t : Token) : Prop where
  current : h.Made t.secretHash t.id
  previous : t.prevSecretHash ≠ "" → h.Made t.prevSecretHash t.id

theorem Owns.mono {h h' : History} {t : Token} (ht : h.Owns t) (hsub : h.minted ⊆ h'.minted) :
    h'.Owns t :=
  ⟨hsub ht.current, fun hne => hsub (ht.previous hne)⟩

end History

/-- The random secret and the identifier of an access have not been drawn before. -/
def Nonce.Fresh (H : Hash) (h : History) (n : Nonce) : Prop :=
  H.hashSecret n.secret ∉ h.minted.map Prod.fst ∧ n.id ∉ h.minted.map Prod.snd

instance (h : History) (n : Nonce) : Decidable (n.Fresh H h) :=
  inferInstanceAs (Decidable (_ ∧ _))

/-- Random secrets and identifiers never come twice. -/
def FreshNonce (H : Hash) (s : State) : Action → Prop
  | .access _ _ n | .issue _ _ _ _ _ _ n _ => n.Fresh H s.history
  | .rotate _ _ | .revoke _ | .put _ _ | .delete _ | .restart => True

instance (s : State) (a : Action) : Decidable (FreshNonce H s a) := by
  cases a <;> unfold FreshNonce <;> infer_instance

/-- The rows that a call in progress holds. -/
def Phase.rows : Phase → List Token
  | .issue grant | .rotate grant _ _ => [grant]
  | .revokePut row => [row]
  | .lookup | .detect | .revokeGet _ => []

/-- The rows that are stored, or held by a call in progress. -/
def State.rows (s : State) : List Token :=
  s.tokens ++ s.revokes ++ s.holder.elim [] fun c => c.phase.rows

theorem State.mem_rows {s : State} {t : Token} :
    t ∈ s.rows ↔ t ∈ s.tokens ∨ t ∈ s.revokes ∨ ∃ c ∈ s.holder, t ∈ c.phase.rows := by
  rw [State.rows, mem_append, mem_append, or_assoc]
  cases s.holder <;> simp

theorem State.not_mem_holder_answer {s : State} {c d : Call} {out : Out} {result : Result} :
    d ∉ (s.answer c out result).holder := Option.not_mem_none d

theorem State.mem_rows_goto {s : State} {c : Call} {phase : Phase} {t : Token} :
    t ∈ (s.goto c phase).rows ↔ t ∈ s.tokens ∨ t ∈ s.revokes ∨ t ∈ phase.rows := by
  simp [State.mem_rows, State.goto]

theorem State.mem_rows_answer {s : State} {c : Call} {out : Out} {result : Result} {t : Token} :
    t ∈ (s.answer c out result).rows ↔ t ∈ s.tokens ∨ t ∈ s.revokes := by
  simp [State.mem_rows, State.answer]

theorem Phase.mem_rows_of_grant {phase : Phase} {grant : Token} (h : phase.grant = some grant) :
    grant ∈ phase.rows := by
  cases phase <;> simp_all [Phase.grant, Phase.rows]

/-- Every token, stored or held by a call in progress, carries hashes made for it. -/
structure State.Owned (s : State) : Prop where
  hashes : DistinctKeys Prod.fst s.history.minted
  ids : DistinctKeys Token.id s.tokens
  rows : ∀ t ∈ s.rows, s.history.Owns t

namespace State.Owned

variable {s : State} (h : s.Owned)

include h

/-- No secret was made for two tokens. -/
theorem eq_of_made {hash id id' : String} (hid : s.history.Made hash id)
    (hid' : s.history.Made hash id') : id = id' :=
  congrArg Prod.snd (h.hashes.eq_of_key hid hid' rfl)

theorem held {c : Call} (hc : s.holder = some c) {t : Token} (ht : t ∈ c.phase.rows) :
    s.history.Owns t :=
  h.rows t (mem_rows.2 (.inr (.inr ⟨c, hc, ht⟩)))

/-- A row that stays one of the rows stays owned, and so does a row that is written. -/
theorem of_rows {t : State} (hminted : t.history.minted = s.history.minted)
    (hids : DistinctKeys Token.id t.tokens)
    (hrows : ∀ u ∈ t.rows, u ∈ s.rows ∨ s.history.Owns u) : t.Owned where
  hashes := hminted ▸ h.hashes
  ids := hids
  rows u hu :=
    have hu' : s.history.Owns u := (hrows u hu).elim (h.rows u) id
    hu'.mono (by rw [hminted]; exact fun _ => id)

/-- The same where a secret is made. -/
theorem of_mint {t : State} {secret : Text} {id : String}
    (hfresh : H.hashSecret secret ∉ s.history.minted.map Prod.fst)
    (hminted : t.history.minted = (H.hashSecret secret, id) :: s.history.minted)
    (hids : DistinctKeys Token.id t.tokens)
    (hrows : ∀ u ∈ t.rows, u ∈ s.rows ∨ t.history.Owns u) : t.Owned where
  hashes := by
    rw [hminted]
    exact nodup_cons.2 ⟨hfresh, h.hashes⟩
  ids := hids
  rows u hu := (hrows u hu).elim
    (fun hs => (h.rows u hs).mono (by rw [hminted]; exact subset_cons_self _ _)) fun ho => ho

omit h in
/-- A revoked row is still owned. -/
theorem owns_revoke {history : History} {row : Token} (hrow : history.Owns row) :
    history.Owns row.revoke := ⟨hrow.current, hrow.previous⟩

theorem access {c : Call} {ok : Bool} {now : ℤ} {n : Nonce} {t : State}
    (hc : s.holder = some c) (hn : n.Fresh H s.history) (ht : Access H cfg s c ok now n t) :
    t.Owned := by
  have hstored : ∀ {u : Token}, u ∈ s.tokens → u ∈ s.rows := fun hu => mem_rows.2 (.inl hu)
  have hread : ∀ {u : Token}, u ∈ s.revokes → u ∈ s.rows := fun hu => mem_rows.2 (.inr (.inl hu))
  have hheld : ∀ {u : Token}, u ∈ c.phase.rows → u ∈ s.rows :=
    fun hu => mem_rows.2 (.inr (.inr ⟨c, hc, hu⟩))
  cases ht with
  | found grant hphase hfind =>
    obtain ⟨-, -, -, -, rows, hrows, hmem⟩ := findRefreshGrant_eq_some hfind
    cases hrows
    refine h.of_rows rfl h.ids fun u hu => .inl ?_
    rcases mem_rows_goto.1 hu with hu | hu | hu
    · exact hstored hu
    · exact hread hu
    · rw [mem_singleton.1 hu]
      exact hstored hmem
  | served | rejected =>
    refine h.of_rows rfl h.ids fun u hu => .inl ?_
    exact (mem_rows_answer.1 hu).elim hstored hread
  | missed | detected =>
    refine h.of_rows rfl h.ids fun u hu => .inl ?_
    rcases mem_rows_goto.1 hu with hu | hu | hu
    exacts [hstored hu, hread hu, absurd hu not_mem_nil]
  | created grant tokens hphase hcreate =>
    refine h.of_mint hn.1 rfl (Tokens.distinct_create h.ids hcreate) fun u hu => ?_
    rcases mem_rows_goto.1 hu with hu | hu | hu
    · rcases (Tokens.mem_create hcreate).1 hu with rfl | hu
      · exact .inr ⟨mem_cons_self, fun hne => absurd rfl hne⟩
      · exact .inl (hstored hu)
    · exact .inl (hread hu)
    · exact .inl (hheld (by rw [hphase]; exact hu))
  | exchanged grant access accessExp tokens hphase hupdate =>
    have hgrant := h.rows grant (hheld (by rw [hphase]; exact mem_cons_self))
    refine h.of_mint hn.1 rfl (Tokens.distinct_update h.ids hupdate) fun u hu => ?_
    rcases mem_rows_answer.1 hu with hu | hu
    · rcases (Tokens.mem_update hupdate).1 hu with rfl | ⟨hu, -⟩
      · exact .inr ⟨mem_cons_self, fun _ => mem_cons_of_mem _ hgrant.current⟩
      · exact .inl (hstored hu)
    · exact .inl (hread hu)
  | fetched id row hphase hget =>
    refine h.of_rows rfl h.ids fun u hu => .inl ?_
    rcases mem_rows_goto.1 hu with hu | hu | hu
    · exact hstored hu
    · exact hread hu
    · rw [mem_singleton.1 hu]
      exact hstored (Tokens.mem_of_get hget).1
  | breached row tokens hphase hupdate =>
    have hrow := h.rows row (hheld (by rw [hphase]; exact mem_cons_self))
    refine h.of_rows rfl (Tokens.distinct_update h.ids hupdate) fun u hu => ?_
    rcases mem_rows_answer.1 hu with hu | hu
    · rcases (Tokens.mem_update hupdate).1 hu with rfl | ⟨hu, -⟩
      · exact .inr (owns_revoke hrow)
      · exact .inl (hstored hu)
    · exact .inl (hread hu)

theorem step {a : Action} {t : State} (hfresh : FreshNonce H s a)
    (hstep : s.step H cfg a = some t) : t.Owned := by
  cases step_move hstep with
  | began hidle hclock =>
    refine h.of_rows rfl h.ids fun u hu => .inl ?_
    obtain hu | hu | ⟨c, hc, hu⟩ := mem_rows.1 hu
    · exact mem_rows.2 (.inl hu)
    · exact mem_rows.2 (.inr (.inl hu))
    · cases hc
      exact absurd hu not_mem_nil
  | @access _ now _ _ c hc hclock haccess =>
    exact access (s := s.tick now) ⟨h.hashes, h.ids, h.rows⟩ hc hfresh haccess
  | read row hget =>
    refine h.of_rows rfl h.ids fun u hu => .inl ?_
    obtain hu | hu | hu := mem_rows.1 hu
    · exact mem_rows.2 (.inl hu)
    · rcases mem_append.1 hu with hu | hu
      · exact mem_rows.2 (.inr (.inl hu))
      · rw [mem_singleton.1 hu]
        exact mem_rows.2 (.inl (Tokens.mem_of_get hget).1)
    · exact mem_rows.2 (.inr (.inr hu))
  | put row tokens hrow hupdate =>
    have howns := h.rows row (mem_rows.2 (.inr (.inl (mem_of_getElem? hrow))))
    refine h.of_rows rfl (Tokens.distinct_update h.ids hupdate) fun u hu => ?_
    obtain hu | hu | hu := mem_rows.1 hu
    · rcases (Tokens.mem_update hupdate).1 hu with rfl | ⟨hu, -⟩
      · exact .inr (owns_revoke howns)
      · exact .inl (mem_rows.2 (.inl hu))
    · exact .inl (mem_rows.2 (.inr (.inl (mem_of_mem_eraseIdx hu))))
    · exact .inl (mem_rows.2 (.inr (.inr hu)))
  | putFailed =>
    refine h.of_rows rfl h.ids fun u hu => .inl ?_
    obtain hu | hu | hu := mem_rows.1 hu
    exacts [mem_rows.2 (.inl hu), mem_rows.2 (.inr (.inl (mem_of_mem_eraseIdx hu))),
      mem_rows.2 (.inr (.inr hu))]
  | issued tokens hcreate =>
    refine h.of_mint hfresh.1 rfl (Tokens.distinct_create h.ids hcreate) fun u hu => ?_
    obtain hu | hu := mem_rows.1 hu
    · rcases (Tokens.mem_create hcreate).1 hu with rfl | hu
      · exact .inr ⟨mem_cons_self, fun hne => absurd rfl hne⟩
      · exact .inl (mem_rows.2 (.inl hu))
    · exact .inl (mem_rows.2 (.inr hu))
  | deleted =>
    refine h.of_rows rfl (Tokens.distinct_delete h.ids) fun u hu => .inl ?_
    obtain hu | hu := mem_rows.1 hu
    exacts [mem_rows.2 (.inl (Tokens.mem_delete.1 hu).1), mem_rows.2 (.inr hu)]
  | restarted =>
    refine h.of_rows rfl h.ids fun u hu => .inl ?_
    obtain hu | hu | ⟨c, hc, -⟩ := mem_rows.1 hu
    exacts [mem_rows.2 (.inl hu), absurd hu not_mem_nil, nomatch hc]
  | nothing => exact h

end State.Owned

/-- What the call that holds the lock knows. Only this call exchanges secrets, so the
exchanges are those that there were when it began. -/
structure State.Follows (H : Hash) (s : State) (c : Call) : Prop where
  minted : c.begun.minted ⊆ s.history.minted
  revoked : c.begun.revoked ⊆ s.history.revoked
  exchanges : c.begun.exchanges = s.history.exchanges
  /-- The grant that the call is about to rotate is the one that the secret opens. -/
  grant : ∀ g ∈ c.phase.grant, tokenSecretPrefix <+: trimSpace c.secret ∧ g.kind = .refresh ∧
    g.revoked = false ∧ g.secretHash = H.hashSecret (trimSpace c.secret)

namespace State.Follows

variable {s : State} {c : Call}

/-- What others do to the store does not touch what the call knows. -/
theorem of_history {t : State} (h : s.Follows H c) (hminted : s.history.minted ⊆ t.history.minted)
    (hrevoked : s.history.revoked ⊆ t.history.revoked)
    (hexchanges : t.history.exchanges = s.history.exchanges) : t.Follows H c where
  minted := List.Subset.trans h.minted hminted
  revoked := List.Subset.trans h.revoked hrevoked
  exchanges := h.exchanges.trans hexchanges.symm
  grant := h.grant

theorem access (h : s.Follows H c) {ok : Bool} {now : ℤ} {n : Nonce} {t : State}
    (ht : Access H cfg s c ok now n t) : ∀ d ∈ t.holder, t.Follows H d := by
  intro d hd
  cases ht with
  | found grant hphase hfind =>
    obtain ⟨hp, hkind, hrevoked, hhash, -⟩ := findRefreshGrant_eq_some hfind
    cases hd
    refine ⟨h.minted, h.revoked, h.exchanges, fun g hg => ?_⟩
    cases hg
    exact ⟨hp, hkind, hrevoked, hhash⟩
  | served | rejected | exchanged | breached => exact absurd hd State.not_mem_holder_answer
  | missed | detected | fetched =>
    cases hd
    exact ⟨h.minted, h.revoked, h.exchanges, nofun⟩
  | created grant tokens hphase hcreate =>
    cases hd
    refine ⟨subset_cons_of_subset _ h.minted, h.revoked, h.exchanges, fun g hg => ?_⟩
    cases hg
    exact h.grant grant (by rw [hphase]; rfl)

theorem step {a : Action} {t : State} (h : ∀ c ∈ s.holder, s.Follows H c)
    (hstep : s.step H cfg a = some t) : ∀ d ∈ t.holder, t.Follows H d := by
  intro d hd
  cases step_move hstep with
  | began hidle hclock =>
    cases hd
    exact ⟨fun _ => id, fun _ => id, rfl, nofun⟩
  | @access _ now _ _ c hc hclock haccess =>
    exact access (s := s.tick now) ((h c hc).of_history (fun _ => id) (fun _ => id) rfl) haccess
      d hd
  | read | putFailed | deleted | nothing =>
    exact (h d hd).of_history (fun _ => id) (fun _ => id) rfl
  | put row tokens hrow hupdate =>
    exact (h d hd).of_history (fun _ => id) (subset_cons_self _ _) rfl
  | issued tokens hcreate => exact (h d hd).of_history (subset_cons_self _ _) (fun _ => id) rfl
  | restarted => exact absurd hd (Option.not_mem_none d)

end State.Follows

/-- Where a run starts. -/
theorem State.owned_init : ({} : State).Owned where
  hashes := nodup_nil
  ids := nodup_nil
  rows u hu := by simp [State.rows] at hu

end Rune.Session
