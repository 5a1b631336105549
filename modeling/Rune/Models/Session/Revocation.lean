import Rune.Models.Session.Moves

/-!
# Revocation

`Revoke` reads the row of a token and writes it back as revoked, and the last write wins. A
`Rotate` call that found the grant before writes its own copy over it, and the grant is as good as
new. A revocation that lands while no rotation of the grant is under way is final, and once the
grace windows are closed no secret of the grant is answered.
-/

namespace Rune.Session

open Rune.Core Policy

variable {H : Hash} {cfg : Config} {G : String}

/-- No revocation of the grant lands while a call is about to rotate it, and nobody presents
one of its exchanged secrets after a revocation while the grace window is open. -/
def Undisturbed (H : Hash) (G : String) (s : State) : Action → Prop
  | .rotate secret now =>
    G ∈ s.history.revoked → s.history.Made (H.hashSecret (trimSpace secret)) G →
      ∀ e ∈ s.grace (H.hashSecret (trimSpace secret)), e.graceExp ≤ now
  | .put i _ => ∀ row ∈ s.revokes[i]?, row.id = G →
      ∀ c ∈ s.holder, ∀ g ∈ c.phase.grant, g.id ≠ G
  | .access _ _ _ | .revoke _ | .issue _ _ _ _ _ _ _ _ | .delete _ | .restart => True

instance (s : State) : ∀ a, Decidable (Undisturbed H G s a)
  | .rotate secret now => inferInstanceAs (Decidable
      (G ∈ s.history.revoked → s.history.Made (H.hashSecret (trimSpace secret)) G →
        ∀ e ∈ s.grace (H.hashSecret (trimSpace secret)), e.graceExp ≤ now))
  | .put i _ => inferInstanceAs (Decidable (∀ row ∈ s.revokes[i]?, row.id = G →
      ∀ c ∈ s.holder, ∀ g ∈ c.phase.grant, g.id ≠ G))
  | .access _ _ _ | .revoke _ | .issue _ _ _ _ _ _ _ _ | .delete _ | .restart => isTrue trivial

/-- What holds of the grant once a `Revoke` of it has returned `nil`. -/
structure State.Barred (G : String) (s : State) : Prop where
  made : G ∈ s.history.minted.map Prod.snd
  rows : ∀ t ∈ s.tokens, t.id = G → t.revoked = true
  free : ∀ c ∈ s.holder, ∀ g ∈ c.phase.grant, g.id ≠ G

namespace State.Barred

variable {s : State}

/-- The update of `Revoke` bars the grant, if no call is about to rotate it. -/
theorem of_update {t : State} {rows : List Token} {row : Token} (hrow : t.history.Owns row)
    (hupdate : Tokens.update rows row.revoke = some t.tokens)
    (hfree : ∀ c ∈ t.holder, ∀ g ∈ c.phase.grant, g.id ≠ row.id) : t.Barred row.id where
  made := List.mem_map.2 ⟨_, hrow.current, rfl⟩
  rows u hu hid := by
    rcases (Tokens.mem_update hupdate).1 hu with rfl | ⟨-, hne⟩
    exacts [rfl, absurd hid hne]
  free := hfree

variable (h : s.Barred G)

include h

/-- No row of the grant is found by its secret. -/
theorem id_ne_of_mem {t : Token} (ht : t ∈ s.tokens) (hrevoked : t.revoked = false) : t.id ≠ G := by
  intro hid
  rw [h.rows t ht hid] at hrevoked
  cases hrevoked

/-- A step that keeps the rows of the grant, or writes a revoked one, and that leaves no call
with a copy of it. -/
theorem of_rows {t : State} (hminted : s.history.minted ⊆ t.history.minted)
    (hrows : ∀ u ∈ t.tokens, u.id = G → u ∈ s.tokens ∨ u.revoked = true)
    (hfree : ∀ c ∈ t.holder, ∀ g ∈ c.phase.grant, g.id ≠ G) : t.Barred G where
  made := List.map_subset _ hminted h.made
  rows u hu hid := (hrows u hu hid).elim (fun hs => h.rows u hs hid) fun hr => hr
  free := hfree

theorem access {c : Call} {ok : Bool} {now : ℤ} {n : Nonce} {t : State}
    (hc : s.holder = some c) (hn : n.Fresh H s.history) (ht : Access H cfg s c ok now n t) :
    t.Barred G := by
  have hfresh : n.id ≠ G := fun he => hn.2 (he ▸ h.made)
  cases ht with
  | found grant hphase hfind =>
    obtain ⟨-, -, hrevoked, -, rows, hrows, hmem⟩ := findRefreshGrant_eq_some hfind
    cases hrows
    refine h.of_rows (fun _ => id) (fun u hu _ => .inl hu) fun d hd g hg => ?_
    cases hd
    cases hg
    exact h.id_ne_of_mem hmem hrevoked
  | served | rejected =>
    exact h.of_rows (fun _ => id) (fun u hu _ => .inl hu) fun d hd =>
      absurd hd not_mem_holder_answer
  | missed | detected | fetched =>
    refine h.of_rows (fun _ => id) (fun u hu _ => .inl hu) fun d hd g hg => ?_
    cases hd
    cases hg
  | created grant tokens hphase hcreate =>
    refine h.of_rows (List.subset_cons_self _ _) (fun u hu hid => .inl ?_) fun d hd g hg => ?_
    · rcases (Tokens.mem_create hcreate).1 hu with rfl | hu
      · exact absurd hid hfresh
      · exact hu
    · cases hd
      cases hg
      exact h.free c hc grant (by rw [hphase]; rfl)
  | exchanged grant access accessExp tokens hphase hupdate =>
    refine h.of_rows (List.subset_cons_self _ _) (fun u hu hid => .inl ?_) fun d hd =>
      absurd hd not_mem_holder_answer
    rcases (Tokens.mem_update hupdate).1 hu with rfl | ⟨hu, -⟩
    · exact absurd hid (h.free c hc grant (by rw [hphase]; rfl))
    · exact hu
  | breached row tokens hphase hupdate =>
    refine h.of_rows (fun _ => id) (fun u hu _ => ?_) fun d hd => absurd hd not_mem_holder_answer
    rcases (Tokens.mem_update hupdate).1 hu with rfl | ⟨hu, -⟩
    exacts [.inr rfl, .inl hu]

/-- A revocation is undone by no step. -/
theorem step {a : Action} {t : State} (hfresh : FreshNonce H s a)
    (hstep : s.step H cfg a = some t) : t.Barred G := by
  cases step_move hstep with
  | began hidle hclock =>
    refine h.of_rows (fun _ => id) (fun u hu _ => .inl hu) fun d hd g hg => ?_
    cases hd
    cases hg
  | @access _ now _ _ c hc hclock haccess =>
    exact access (s := s.tick now) ⟨h.made, h.rows, h.free⟩ hc hfresh haccess
  | read | putFailed | nothing => exact ⟨h.made, h.rows, h.free⟩
  | put row tokens hrow hupdate =>
    refine h.of_rows (fun _ => id) (fun u hu _ => ?_) h.free
    rcases (Tokens.mem_update hupdate).1 hu with rfl | ⟨hu, -⟩
    exacts [.inr rfl, .inl hu]
  | issued tokens hcreate =>
    refine h.of_rows (List.subset_cons_self _ _) (fun u hu hid => .inl ?_) h.free
    rcases (Tokens.mem_create hcreate).1 hu with rfl | hu
    · subst hid
      exact absurd h.made hfresh.2
    · exact hu
  | deleted => exact h.of_rows (fun _ => id) (fun u hu _ => .inl (Tokens.mem_delete.1 hu).1) h.free
  | restarted =>
    exact h.of_rows (fun _ => id) (fun u hu _ => .inl hu) fun d hd =>
      absurd hd (Option.not_mem_none d)

end State.Barred

/-- What a revocation leaves: the grant is barred, and it was answered to no call that began
later. -/
structure State.Final (H : Hash) (G : String) (s : State) : Prop where
  owned : s.Owned
  follows : ∀ c ∈ s.holder, s.Follows H c
  barred : G ∈ s.history.revoked → s.Barred G
  /-- The call in progress will not be served from memory. -/
  closed : ∀ c ∈ s.holder, c.phase = .lookup → G ∈ c.begun.revoked →
    c.begun.Made (H.hashSecret (trimSpace c.secret)) G →
    ∀ e ∈ s.grace (H.hashSecret (trimSpace c.secret)), e.graceExp ≤ c.now
  answers : ∀ a ∈ s.answers, a.result = .ok → G ∈ a.begun.revoked →
    ¬ a.begun.Made (H.hashSecret (trimSpace a.secret)) G

namespace State.Final

variable {s : State} (h : s.Final H G)

include h

/-- A call that returns adds its answer. -/
theorem answers_cons {c : Call} {out : Out} {result : Result}
    (hok : result = .ok → G ∈ c.begun.revoked →
      ¬ c.begun.Made (H.hashSecret (trimSpace c.secret)) G) :
    ∀ a ∈ ⟨c.secret, c.now, c.begun, out, result⟩ :: s.answers, a.result = .ok →
      G ∈ a.begun.revoked → ¬ a.begun.Made (H.hashSecret (trimSpace a.secret)) G := by
  intro a ha
  rcases List.mem_cons.1 ha with rfl | ha
  · exact hok
  · exact h.answers a ha

/-- The grant that a call is about to rotate is not one that was revoked before the call. -/
theorem not_made_of_grant {c : Call} (hc : s.holder = some c) {grant : Token}
    (hgrant : c.phase.grant = some grant) (hG : G ∈ c.begun.revoked) :
    ¬ c.begun.Made (H.hashSecret (trimSpace c.secret)) G := by
  intro hmade
  have hfollows := h.follows c hc
  have howns := h.owned.held hc (Phase.mem_rows_of_grant hgrant)
  have hhash := (hfollows.grant grant hgrant).2.2.2
  have hid : grant.id = G := h.owned.eq_of_made (hhash ▸ howns.current) (hfollows.minted hmade)
  exact (h.barred (hfollows.revoked hG)).free c hc grant hgrant hid

theorem access {c : Call} {ok : Bool} {now : ℤ} {n : Nonce} {t : State}
    (hc : s.holder = some c) (hn : n.Fresh H s.history) (ht : Access H cfg s c ok now n t) :
    t.Final H G := by
  have howned := h.owned.access hc hn ht
  have hfollows := (h.follows c hc).access ht
  have hbarred : G ∈ s.history.revoked → t.Barred G := fun hG => (h.barred hG).access hc hn ht
  cases ht with
  | found | missed | created | detected | fetched =>
    refine ⟨howned, hfollows, hbarred, fun d hd hlookup => ?_, h.answers⟩
    cases hd
    cases hlookup
  | served e hphase hgrace hopen =>
    refine ⟨howned, hfollows, hbarred, fun d hd => absurd hd not_mem_holder_answer,
      h.answers_cons fun _ hG hmade => ?_⟩
    exact absurd hopen (not_lt.2 (h.closed c hc hphase hG hmade e hgrace))
  | rejected result hresult hwhy =>
    exact ⟨howned, hfollows, hbarred, fun d hd => absurd hd not_mem_holder_answer,
      h.answers_cons fun hok => absurd hok hresult⟩
  | exchanged grant access accessExp tokens hphase hupdate =>
    refine ⟨howned, hfollows, hbarred, fun d hd => absurd hd not_mem_holder_answer,
      h.answers_cons fun _ hG => ?_⟩
    exact h.not_made_of_grant hc (by rw [hphase]; rfl) hG
  | breached row tokens hphase hupdate =>
    refine ⟨howned, hfollows, fun hG => ?_, fun d hd => absurd hd not_mem_holder_answer,
      h.answers_cons nofun⟩
    rcases List.mem_cons.1 hG with rfl | hG
    · have hrow := h.owned.held hc (t := row) (by rw [hphase]; exact List.mem_cons_self)
      exact .of_update (hrow.mono fun _ => id) hupdate fun d hd => absurd hd not_mem_holder_answer
    · exact hbarred hG

theorem step {a : Action} {t : State} (hfresh : FreshNonce H s a) (ha : Undisturbed H G s a)
    (hstep : s.step H cfg a = some t) : t.Final H G := by
  have howned := h.owned.step hfresh hstep
  have hfollows := State.Follows.step h.follows hstep
  have hbarred : G ∈ s.history.revoked → t.Barred G := fun hG => (h.barred hG).step hfresh hstep
  cases step_move hstep with
  | began hidle hclock =>
    refine ⟨howned, hfollows, hbarred, fun d hd _ => ?_, h.answers⟩
    cases hd
    exact ha
  | @access _ now _ _ c hc hclock haccess =>
    refine access (s := s.tick now) ⟨?_, ?_, ?_, h.closed, h.answers⟩ hc hfresh haccess
    · exact ⟨h.owned.hashes, h.owned.ids, h.owned.rows⟩
    · exact fun c hc => (h.follows c hc).of_history (fun _ => id) (fun _ => id) rfl
    · exact fun hG => ⟨(h.barred hG).made, (h.barred hG).rows, (h.barred hG).free⟩
  | read | putFailed | issued | deleted | nothing =>
    exact ⟨howned, hfollows, hbarred, h.closed, h.answers⟩
  | put row tokens hrow hupdate =>
    refine ⟨howned, hfollows, fun hG => ?_, h.closed, h.answers⟩
    rcases List.mem_cons.1 hG with rfl | hG
    · have howns := h.owned.rows row (mem_rows.2 (.inr (.inl (List.mem_of_getElem? hrow))))
      exact .of_update (howns.mono fun _ => id) hupdate (ha row hrow rfl)
    · exact hbarred hG
  | restarted =>
    exact ⟨howned, hfollows, hbarred, fun d hd => absurd hd (Option.not_mem_none d), h.answers⟩

end State.Final

/-- Where a run starts. -/
theorem State.final_init : ({} : State).Final H G where
  owned := State.owned_init
  follows c hc := absurd hc (Option.not_mem_none c)
  barred hG := absurd hG List.not_mem_nil
  closed c hc := absurd hc (Option.not_mem_none c)
  answers _ ha := absurd ha List.not_mem_nil

/-- Revoking a grant is final as long as no revocation lands while a call is about to rotate the
grant and no exchanged secret is presented while its grace window is open: the row stays revoked,
and no call that begins after a `Revoke` has returned `nil` is answered with new credentials for a
secret of the grant. -/
theorem revocation_is_final {acts : List Action} {s : State}
    (hfresh : Along (State.step H cfg) (FreshNonce H) {} acts)
    (hquiet : Along (State.step H cfg) (Undisturbed H G) {} acts)
    (hrun : exec (State.step H cfg) {} acts = some s) :
    (G ∈ s.history.revoked → ∀ t ∈ s.tokens, t.id = G → t.revoked = true) ∧
      ∀ a ∈ s.answers, G ∈ a.begun.revoked → a.begun.Made (H.hashSecret (trimSpace a.secret)) G →
        a.result ≠ .ok := by
  have hboth := hfresh.and hquiet
  have hfinal : s.Final H G := exec_invariant_along
    (fun _ _ _ h hc hstep => h.step hc.1 hc.2 hstep) State.final_init hboth hrun
  refine ⟨fun hG => (hfinal.barred hG).rows, fun a ha hG hmade hok => ?_⟩
  exact hfinal.answers a ha hok hG hmade

/-- A hash for runs on fixed secrets. -/
def plainHash : Hash where
  hashSecret s := String.ofList ('#' :: s)
  hashSecret_ne_empty s := by
    intro h
    simpa using congrArg String.toList h

/-- The lifetimes by default, in seconds. -/
def defaultConfig : Config where
  accessTTL := 15 * 60
  refreshTTL := 30 * 24 * 60 * 60
  graceWindow := 30

/-- Random values that are told apart by one character. -/
def nonce (c : Char) : Nonce where
  id := String.ofList [c]
  left := [c]
  right := [c]

/-- A grant with the secret of the nonce `g` is made. -/
def issueGrant : Action :=
  .issue "laptop" "alice" "user" "" (60 * 60) .refresh (nonce 'g') 0

/-- The accesses of a `Rotate` that succeeds; the successor is the secret of `b`. -/
def rotating (now : ℤ) (a b : Char) : List Action :=
  [.access true now (nonce 'x'), .access true now (nonce a), .access true now (nonce b)]

/-- The grant is revoked when its grace window is closed, and its secret presented later. -/
def revokedInTime : List Action :=
  issueGrant :: .rotate (nonce 'g').secret 0 :: rotating 0 'a' 'b' ++
    [.revoke "g", .put 0 true, .rotate (nonce 'b').secret 40,
      .access true 40 (nonce 'x'), .access true 40 (nonce 'x')]

/-- A grant revoked in time. -/
theorem revokedInTime_is_final :
    ∃ s, exec (State.step plainHash defaultConfig) {} revokedInTime = some s ∧
      (∀ t ∈ s.tokens, t.id = "g" → t.revoked = true) ∧
      ∀ a ∈ s.answers.head?, a.secret = (nonce 'b').secret ∧ a.result ≠ .ok := by
  have hfresh :
      Along (State.step plainHash defaultConfig) (FreshNonce plainHash) {} revokedInTime := by
    decide +kernel
  have hquiet :
      Along (State.step plainHash defaultConfig) (Undisturbed plainHash "g") {} revokedInTime := by
    decide +kernel
  refine ⟨_, rfl, (revocation_is_final hfresh hquiet rfl).1 (by decide +kernel), ?_⟩
  intro a ha
  have hmem := List.mem_of_head? ha
  refine ⟨by rw [← Option.some.inj ha], (revocation_is_final hfresh hquiet rfl).2 a hmem ?_ ?_⟩
  all_goals
    cases ha
    decide +kernel

/-- A rotation that has found the grant writes over the revocation, and the successor is exchanged
later. A grant whose row stays revoked is still answered from memory. -/
theorem revocation_undone :
    (∃ s, exec (State.step plainHash defaultConfig) {}
        (issueGrant :: .rotate (nonce 'g').secret 0 :: .access true 0 (nonce 'x') ::
          [.revoke "g", .put 0 true, .access true 0 (nonce 'a'), .access true 0 (nonce 'b'),
            .rotate (nonce 'b').secret 60] ++ rotating 60 'c' 'd') = some s ∧
      "g" ∈ s.history.revoked ∧ (∃ t ∈ s.tokens, t.id = "g" ∧ t.revoked = false) ∧
      ∃ a ∈ s.answers, "g" ∈ a.begun.revoked ∧
        a.begun.Made (plainHash.hashSecret (Policy.trimSpace a.secret)) "g" ∧ a.result = .ok) ∧
    ∃ s, exec (State.step plainHash defaultConfig) {}
        (issueGrant :: .rotate (nonce 'g').secret 0 :: rotating 0 'a' 'b' ++
          [.revoke "g", .put 0 true, .rotate (nonce 'g').secret 1, .access true 1 (nonce 'x')]) =
        some s ∧
      (∀ t ∈ s.tokens, t.id = "g" → t.revoked = true) ∧
      ∃ a ∈ s.answers, "g" ∈ a.begun.revoked ∧
        a.begun.Made (plainHash.hashSecret (Policy.trimSpace a.secret)) "g" ∧ a.result = .ok :=
  ⟨⟨_, rfl, by decide +kernel, by decide +kernel, by decide +kernel⟩,
    _, rfl, by decide +kernel, by decide +kernel⟩

/-- The secret opens the token, or did so before it was exchanged. -/
def Token.Carries (H : Hash) (t : Token) (secret : Text) : Prop :=
  H.hashSecret secret ∈ [t.secretHash, t.prevSecretHash]

/-- Whatever is issued, rotated, revoked and deleted, in any order and across restarts, no secret
belongs to two stored tokens, be it a current one or one that was exchanged. -/
theorem secret_carried_once {acts : List Action} {s : State}
    (hfresh : Along (State.step H cfg) (FreshNonce H) {} acts)
    (hrun : exec (State.step H cfg) {} acts = some s) (secret : Text) :
    ∀ t ∈ s.tokens, t.Carries H secret → ∀ u ∈ s.tokens, u.Carries H secret → t = u := by
  have howned : s.Owned := exec_invariant_along
    (fun _ _ _ h hc hstep => h.step hc hstep) State.owned_init hfresh hrun
  have hmade : ∀ t ∈ s.tokens, t.Carries H secret → s.history.Made (H.hashSecret secret) t.id := by
    intro t ht hcarries
    have howns := howned.rows t (State.mem_rows.2 (.inl ht))
    rcases List.mem_pair.1 hcarries with hcurrent | hprevious
    · rw [hcurrent]
      exact howns.current
    · have hne := H.hashSecret_ne_empty secret
      rw [hprevious] at hne ⊢
      exact howns.previous hne
  intro t ht htcarries u hu hucarries
  have hid : t.id = u.id := howned.eq_of_made (hmade t ht htcarries) (hmade u hu hucarries)
  exact howned.ids.eq_of_key ht hu hid

/-- The successor of an exchanged secret belongs to the grant. -/
theorem successor_carried_once : ∃ s t, exec (State.step plainHash defaultConfig) {} revokedInTime =
    some s ∧ t ∈ s.tokens ∧ t.Carries plainHash (nonce 'b').secret ∧
      ∀ u ∈ s.tokens, u.Carries plainHash (nonce 'b').secret → t = u := by
  have hfresh :
      Along (State.step plainHash defaultConfig) (FreshNonce plainHash) {} revokedInTime := by
    decide +kernel
  obtain ⟨s, t, hs, ht, hcarries⟩ : ∃ s t, exec (State.step plainHash defaultConfig) {}
      revokedInTime = some s ∧ s.tokens[1]? = some t ∧ t.Carries plainHash (nonce 'b').secret :=
    ⟨_, _, rfl, rfl, List.mem_cons_self⟩
  have hmem := List.mem_of_getElem? ht
  exact ⟨s, t, hs, hmem, hcarries, secret_carried_once hfresh hs _ t hmem hcarries⟩

end Rune.Session
