import Rune.Models.Cast.Casting

/-!
# What a revert restores

A cast that fails sends every change it has begun back through the applier. This
module follows one resource through one change and through its revert, which does
not fail. Whether the resource comes back depends on what was there and on what
went wrong in the change.
-/

namespace Rune.Cast

open Rune.Core
open Rune.Services
open Rune.Volumes

/-- The row is what it was: the same resource where there was one; where there was
none, none again, or a service on its way out. -/
def Restored (before after : Option Row) : Prop :=
  match before with
  | none => isGone after = true
  | some r => ∃ r', after = some r' ∧ r.Same r'

/-- An untouched row is restored. -/
theorem restored_refl (row : Option Row) : Restored row row := by
  cases row with
  | none => rfl
  | some r => exact ⟨r, rfl, r.same_self⟩

theorem restored_some {r r' : Row} : Restored (some r) (some r') ↔ r.Same r' := by
  simp [Restored]

section Via

variable {α : Type} {repo : Repo α} {f : Fault} {row : Option Row} {cur x : α}

/-- A change to a row of the kind can be taken back. A failed read hides the row from the change
and from its pre-image. A deleted row comes back under its own identity only if it had one. -/
def RecoverableVia (repo : Repo α) (rendered : Bool) (s : Strike) (row : Option Row) : Prop :=
  ∀ cur, row.bind repo.ofRow = some cur →
    if s.change.action = .prune then
      s.fault ≠ .read ∧ (s.fault ≠ .write false → repo.identity cur ≠ some "")
    else rendered = true → s.fault ≠ .read

@[simp] theorem ofRow_toRow (repo : Repo α) (x : α) : repo.ofRow (repo.toRow x) = some x :=
  repo.ofRow_eq_some.mpr rfl

theorem eq_toRow_of_bind (h : row.bind repo.ofRow = some cur) : row = some (repo.toRow cur) := by
  obtain ⟨r, rfl, hr⟩ := Option.bind_eq_some_iff.mp h
  rw [repo.ofRow_eq_some.mp hr]

/-- A write that nothing strikes stores what the call arrived at. -/
theorem commit_none_eq_ok {e : Except String Row} (h : (commit .none row e).2 = none) :
    ∃ new, e = .ok new ∧ (commit .none row e).1 = some new := by
  rcases e with e | new
  · simp [commit] at h
  · exact ⟨new, rfl, rfl⟩

/-- Reverting over a row that is still there updates it. -/
theorem revertVia_present
    (h : (revertVia repo (some (repo.toRow cur)) .none (some (repo.toRow x))).2 = none) :
    ∃ y, repo.update cur x = .ok y ∧
      (revertVia repo (some (repo.toRow cur)) .none (some (repo.toRow x))).1 =
        some (repo.toRow y) := by
  simp only [revertVia, ofRow_toRow, Fault.sees, Option.bind_some] at h ⊢
  obtain ⟨new, hnew, hrow⟩ := commit_none_eq_ok h
  obtain ⟨y, hy, rfl⟩ := map_eq_ok hnew
  exact ⟨y, hy, hrow⟩

/-- Reverting a deletion creates the row again. -/
theorem revertVia_gone (h : (revertVia repo (some (repo.toRow cur)) .none none).2 = none) :
    ∃ y, repo.create cur = .ok y ∧
      (revertVia repo (some (repo.toRow cur)) .none none).1 = some (repo.toRow y) := by
  simp only [revertVia, ofRow_toRow, Fault.sees, Option.bind_none] at h ⊢
  obtain ⟨new, hnew, hrow⟩ := commit_none_eq_ok h
  obtain ⟨y, hy, rfl⟩ := map_eq_ok (unlessTaken_eq_ok hnew).1
  exact ⟨y, hy, hrow⟩

/-- Reverting a creation deletes the row. -/
theorem revertVia_created :
    revertVia repo none .none (some (repo.toRow x)) = (none, none) := by
  simp [revertVia, Fault.sees, commitDelete]

theorem revertVia_absent (h : row.bind repo.ofRow = none) :
    revertVia repo none .none row = (row, none) := by
  simp [revertVia, Fault.sees, h]

/-- An apply that found a row to update is taken back. -/
theorem revertVia_updated {p : α}
    (h : (revertVia repo (some (repo.toRow cur)) .none
      (commit f (some (repo.toRow cur)) ((repo.update p cur).map repo.toRow)).1).2 = none) :
    Restored (some (repo.toRow cur)) (revertVia repo (some (repo.toRow cur)) .none
      (commit f (some (repo.toRow cur)) ((repo.update p cur).map repo.toRow)).1).1 := by
  rcases commit_row f (some (repo.toRow cur)) ((repo.update p cur).map repo.toRow) with
    hrow | ⟨new, hnew, hrow⟩ <;> rw [hrow] at h ⊢
  · obtain ⟨y, hy, hback⟩ := revertVia_present h
    rw [hback, restored_some]
    exact repo.update_same hy rfl
  · obtain ⟨x, hx, rfl⟩ := map_eq_ok hnew
    obtain ⟨y, hy, hback⟩ := revertVia_present h
    rw [hback, restored_some]
    exact repo.update_same hy (repo.update_identity hx)

/-- An apply that found the key free is taken back. -/
theorem revertVia_new {p : α} (hnone : row.bind repo.ofRow = none) :
    Restored row (revertVia repo none .none
      (commit f row (unlessTaken row ((repo.create p).map repo.toRow))).1).1 := by
  rcases commit_row f row (unlessTaken row ((repo.create p).map repo.toRow)) with
    hrow | ⟨new, hnew, hrow⟩ <;> rw [hrow]
  · rw [revertVia_absent hnone]
    exact restored_refl row
  · obtain ⟨hcreate, rfl⟩ := unlessTaken_eq_ok hnew
    obtain ⟨y, -, rfl⟩ := map_eq_ok hcreate
    rw [revertVia_created]
    rfl

/-- An apply is taken back unless it failed to read a row that is there. -/
theorem applyVia_restored_iff {stamp : OwnedBy} {p : α} {what : String} {image : Option Row}
    (himage : (applyVia repo stamp (some p) what f row).captured = some image)
    (hback : (revertVia repo image .none (applyVia repo stamp (some p) what f row).row).2 = none) :
    Restored row (revertVia repo image .none (applyVia repo stamp (some p) what f row).row).1 ↔
      ∀ cur, row.bind repo.ofRow = some cur → f ≠ .read := by
  cases hrow : row.bind repo.ofRow with
  | none =>
    have hsees : f.sees (row.bind repo.ofRow) = none := by cases f <;> simp [hrow, Fault.sees]
    simp only [applyVia, hsees] at himage hback ⊢
    cases himage
    simp [revertVia_new hrow]
  | some cur =>
    obtain rfl := eq_toRow_of_bind hrow
    by_cases hread : f = .read
    · subst hread
      have hsees : Fault.read.sees ((some (repo.toRow cur)).bind repo.ofRow) = none := rfl
      simp only [applyVia, hsees] at himage hback ⊢
      cases himage
      have htaken : (commit .read (some (repo.toRow cur)) (unlessTaken (some (repo.toRow cur))
          ((repo.create (repo.stamped p stamp)).map repo.toRow))).1 = some (repo.toRow cur) := by
        rcases commit_row .read (some (repo.toRow cur)) (unlessTaken (some (repo.toRow cur))
          ((repo.create (repo.stamped p stamp)).map repo.toRow)) with h | ⟨new, hnew, -⟩
        · exact h
        · exact absurd (unlessTaken_eq_ok hnew).2 (by simp)
      rw [htaken, revertVia_created]
      simp [Restored]
    · have hsees : f.sees ((some (repo.toRow cur)).bind repo.ofRow) = some cur := by
        cases f <;> simp_all [Fault.sees]
      simp only [applyVia, hsees] at himage hback ⊢
      cases himage
      simp [revertVia_updated hback, hread]

end Via

section Services

variable {a : Applier} {key : String} {fresh : Uuid} {f : Fault} {row : Option Row}
  {s t cur next pre : Service}

/-- A change to a service can be taken back. An update that lands and reports an error is not
remembered, so it must not have moved the spec; and a record without an identity must not have
been given one. -/
def RecoverableService (payload : Option Service) (s : Strike) (row : Option Row) : Prop :=
  ∀ svc stored, s.change.action ≠ .prune → payload = some svc →
    row.bind Row.service? = some stored →
    stored.metadata.deletionTimestamp = false → stored.metadata.generation ≠ maxInt64 →
    (s.fault = .none ∨ s.fault = .write true → stored.id ≠ "" ∨ svc.id = "") ∧
      (s.fault = .write true →
        stored.calculateHash =
          svc.spec.calculateHash (mergeServiceDiscovery stored.discovery svc.discovery))

theorem eq_service_of_bind (h : row.bind Row.service? = some s) : row = some (.service s) := by
  obtain ⟨r, rfl, hr⟩ := Option.bind_eq_some_iff.mp h
  cases r <;> cases hr
  rfl

/-- The outcome of an update of a service: the spec of the payload, and the
identity and the address of the record. -/
theorem same_carried_iff (h : carryServerState s t = .ok next) :
    (Row.service s).Same (.service next) ↔
      (s.id ≠ "" ∨ t.id = "") ∧
        s.calculateHash = t.spec.calculateHash (mergeServiceDiscovery s.discovery t.discovery) := by
  obtain ⟨-, rfl⟩ := carryServerState_eq_ok.mp h
  have hid : s.id = (if s.id ≠ "" then s.id else t.id) ↔ s.id ≠ "" ∨ t.id = "" := by
    by_cases hs : s.id = ""
    · simp [hs]
    · simp [hs]
  simp only [Row.Same, carriedFields, resetObservedState, Service.calculateHash,
    vipOf_mergeServiceDiscovery, and_true]
  rw [hid, and_comm]

/-- A revert over a live record restores the spec. The identity is the live one
where there is one. -/
theorem same_reverted_iff {pruned : Bool} (hvip : vipOf s.discovery = vipOf cur.discovery)
    (h : revertedService s cur pruned = .ok next) :
    (Row.service s).Same (.service next) ↔ cur.id = "" ∨ cur.id = s.id := by
  obtain ⟨carried, hcarry, h⟩ := bind_eq_ok h
  obtain ⟨-, rfl⟩ := carryServerState_eq_ok.mp hcarry
  have hhash : s.calculateHash = s.spec.calculateHash
      (restoreDiscovery s.discovery (vipOf cur.discovery)) := by
    rw [Service.calculateHash, calculateHash_eq_iff]
    simp
  have hid : s.id = (if cur.id ≠ "" then cur.id else s.id) ↔ cur.id = "" ∨ cur.id = s.id := by
    by_cases hc : cur.id = ""
    · simp [hc]
    · simpa [hc] using eq_comm
  have hnext : next.calculateHash = s.spec.calculateHash
        (restoreDiscovery s.discovery (vipOf cur.discovery)) ∧
      next.id = (if cur.id ≠ "" then cur.id else s.id) ∧
      vipOf next.discovery = vipOf cur.discovery := by
    cases pruned <;> cases h <;>
      simp [Service.calculateHash, carriedFields, resetObservedState]
  rw [Row.Same, hnext.1, hnext.2.1, hnext.2.2, hid]
  simp [hhash.symm, hvip]

/-- Asking for a teardown changes neither spec nor identity nor address. -/
theorem same_deleted (h : deleteService s = .ok t) : (Row.service s).Same (.service t) := by
  rcases deleteService_eq_ok.mp h with ⟨-, rfl⟩ | ⟨-, -, rfl⟩
  · exact Row.same_self _
  · exact ⟨rfl, rfl, rfl⟩

theorem same_trans {r r' r'' : Row} (h : r.Same r') (h' : r'.Same r'') : r.Same r'' := by
  cases r <;> cases r' <;> first | exact h.elim | skip
  all_goals cases r'' <;> first | exact h'.elim | skip
  · exact ⟨h.1.trans h'.1, h.2.1.trans h'.2.1, h.2.2.trans h'.2.2⟩
  · exact ⟨h.1.trans h'.1, h.2.trans h'.2⟩
  · exact ⟨h.1.trans h'.1, h.2.trans h'.2⟩
  · exact Eq.trans h h'

/-- Asking for the teardown of the service in a row leaves the same service. -/
theorem deleteServiceRow_same :
    ∃ t, (deleteServiceRow f (some (.service s))).1 = some (.service t) ∧
      (Row.service s).Same (.service t) := by
  simp only [deleteServiceRow, Option.bind_some, Row.service?]
  rcases commit_row f (some (.service s)) ((deleteService s).map .service) with
    hrow | ⟨new, hnew, hrow⟩ <;> rw [hrow]
  · exact ⟨s, rfl, Row.same_self _⟩
  · obtain ⟨t, ht, rfl⟩ := map_eq_ok hnew
    exact ⟨t, rfl, same_deleted ht⟩

/-- A revert over a live service, with or without a pre-image. -/
theorem revertService_present {pi : PreImage} (hs : (Row.service s).Same (.service cur))
    (himage : pi.image = none ∨ pi.image = some (.service s))
    (h : (revertService fresh pi .none (some (.service cur))).2 = none) :
    ∃ t, (revertService fresh pi .none (some (.service cur))).1 = some (.service t) ∧
      (Row.service s).Same (.service t) := by
  rcases himage with himage | himage
  · simp only [revertService, himage, Fault.sees, Option.bind_some, Row.service?,
      Option.isSome_some, if_true]
    obtain ⟨t, hrow, ht⟩ := @deleteServiceRow_same .none cur
    exact ⟨t, hrow, same_trans hs ht⟩
  · simp only [revertService, himage, Row.service?, Option.bind_some, reduceCtorEq, if_false] at h ⊢
    obtain ⟨new, hnew, hrow⟩ := commit_none_eq_ok h
    obtain ⟨t, ht, rfl⟩ := map_eq_ok hnew
    exact ⟨t, hrow, (same_reverted_iff hs.2.2 ht).mpr (Or.inr hs.2.1.symm)⟩

theorem appliedService_isOk {svc stored : Service}
    (hdel : stored.metadata.deletionTimestamp = false)
    (hgen : stored.metadata.generation ≠ maxInt64) :
    ∃ next, appliedService key svc stored = .ok next :=
  ⟨_, by
    simp only [appliedService, carryServerState, hdel, hgen, if_false]
    rfl⟩

/-- The revert of one call on a service that nothing has touched before. -/
def backFrom (fresh : Uuid) (t : Touch) : Option Row × Option String :=
  match remember none t with
  | none => (t.row, none)
  | some pi => revertService fresh pi .none t.row

theorem backFrom_uncaptured {t : Touch} (h : t.captured = none) :
    backFrom fresh t = (t.row, none) := by
  simp [backFrom, remember, h]

theorem backFrom_captured {t : Touch} {image : Option Row} (h : t.captured = some image) :
    ∃ pi : PreImage, pi.image = image ∧ backFrom fresh t = revertService fresh pi .none t.row := by
  simp only [backFrom, remember, h]
  exact ⟨_, rfl, rfl⟩

/-- An update of a service, taken back. -/
theorem backFrom_updated_iff {svc stored : Service} (hread : f ≠ .read)
    (hpay : a.payloads.services key = some svc) (hrow : row = some (.service stored))
    (hnext : appliedService key (stampedService a.stamp svc) stored = .ok next)
    (hback : (backFrom fresh (applyService a key f row)).2 = none) :
    Restored row (backFrom fresh (applyService a key f row)).1 ↔
      (f = .none ∨ f = .write true → stored.id ≠ "" ∨ svc.id = "") ∧
        (f = .write true → stored.calculateHash =
          svc.spec.calculateHash (mergeServiceDiscovery stored.discovery svc.discovery)) := by
  subst hrow
  obtain ⟨-, hcarry⟩ := appliedService_eq_ok hnext
  have hsame := same_carried_iff hcarry
  rcases f with _ | _ | landed
  · have hcall : (applyService a key .none (some (.service stored))).captured =
          some (some (.service stored)) ∧
        (applyService a key .none (some (.service stored))).row = some (.service next) := by
      simp [applyService, hpay, Row.service?, hnext, commit]
    obtain ⟨pi, hpi, hrev⟩ := @backFrom_captured fresh _ _ hcall.1
    rw [hrev, hcall.2] at hback ⊢
    simp only [revertService, hpi, Row.service?, Option.bind_some, reduceCtorEq,
      if_false] at hback ⊢
    obtain ⟨new, hnew, hback⟩ := commit_none_eq_ok hback
    obtain ⟨t, ht, rfl⟩ := map_eq_ok hnew
    obtain ⟨-, rfl⟩ := carryServerState_eq_ok.mp hcarry
    rw [hback, restored_some, same_reverted_iff (by simp [carriedFields]) ht]
    by_cases hid : stored.id = "" <;>
      simp [carriedFields, resetObservedState, stampedService, hid]
  · exact absurd rfl hread
  · have huncaptured :
        (applyService a key (.write landed) (some (.service stored))).captured = none ∧
        (applyService a key (.write landed) (some (.service stored))).row =
          if landed then some (.service next) else some (.service stored) := by
      simp [applyService, hpay, Row.service?, hnext, commit]
    rw [backFrom_uncaptured huncaptured.1, huncaptured.2]
    cases landed
    · simp [restored_refl]
    · simpa [restored_some, stampedService] using hsame

/-- A service that the cast created is on its way out after the revert. -/
theorem isGone_deleteServiceRow {admission : Service → Option String} {svc new : Service}
    (h : createdService admission fresh svc = .ok new) :
    isGone (deleteServiceRow .none (some (.service new))).1 = true := by
  obtain rfl := createdService_eq_ok h
  rfl

/-- A creation of a service, taken back. -/
theorem backFrom_created (hrow : row.bind Row.service? = none) {svc : Service}
    (hread : f ≠ .read) (hpay : a.payloads.services key = some svc) :
    Restored row (backFrom fresh (applyService a key f row)).1 := by
  have hcall : (applyService a key f row).captured = some none ∧
      (applyService a key f row).row = (commit f row (unlessTaken row
        ((createdService a.admitService (a.fresh key) (stampedService a.stamp svc)).map
          .service))).1 := by
    simp [applyService, hpay, hread, hrow]
  obtain ⟨pi, hpi, hback⟩ := @backFrom_captured fresh _ _ hcall.1
  rw [hback, hcall.2]
  rcases commit_row f row (unlessTaken row ((createdService a.admitService (a.fresh key)
    (stampedService a.stamp svc)).map .service)) with hsame | ⟨new, hnew, hsame⟩ <;> rw [hsame]
  · simp [revertService, hpi, Fault.sees, hrow, restored_refl]
  · obtain ⟨hcreate, rfl⟩ := unlessTaken_eq_ok hnew
    obtain ⟨s, hs, rfl⟩ := map_eq_ok hcreate
    simpa [revertService, hpi, Fault.sees, Row.service?, Restored] using
      isGone_deleteServiceRow hs

/-- An apply of a service is taken back, but for an identity or a spec that
cannot be told any more. -/
theorem applyService_restored_iff {s : Strike} (hs : s.change.action ≠ .prune)
    (hback : (backFrom fresh (applyService a key s.fault row)).2 = none) :
    Restored row (backFrom fresh (applyService a key s.fault row)).1 ↔
      RecoverableService (a.payloads.services key) s row := by
  cases hpay : a.payloads.services key with
  | none =>
    have hcall : applyService a key s.fault row =
        { row := row, error := some ("no rendered payload for service " ++ key) } := by
      simp [applyService, hpay]
    rw [hcall, backFrom_uncaptured rfl]
    simp [restored_refl, RecoverableService]
  | some svc =>
    by_cases hread : s.fault = .read
    · have hcall : applyService a key s.fault row = { row := row, error := some storeError } := by
        simp [applyService, hpay, hread]
      rw [hcall, backFrom_uncaptured rfl]
      simp [restored_refl, RecoverableService, hread]
    cases hrow : row.bind Row.service? with
    | none =>
      have hrec : RecoverableService (some svc) s row := by
        intro svc' stored _ _ hstored
        rw [hrow] at hstored
        cases hstored
      simp [backFrom_created hrow hread hpay, hrec]
    | some stored =>
      have hrow' := eq_service_of_bind hrow
      rcases hcall : appliedService key (stampedService a.stamp svc) stored with e | next
      · have hrec : RecoverableService (some svc) s row := by
          intro svc' stored' _ hsvc hstored hdel hgen
          rw [hrow] at hstored
          cases hsvc
          cases hstored
          obtain ⟨next, hnext⟩ := @appliedService_isOk key (stampedService a.stamp svc) _ hdel hgen
          cases hcall.symm.trans hnext
        have htouch : applyService a key s.fault row = { row := row, error := some e } := by
          simp [applyService, hpay, hread, hrow, hcall]
        rw [htouch, backFrom_uncaptured rfl]
        simp [restored_refl, hrec]
      · rw [backFrom_updated_iff hread hpay hrow' hcall hback]
        obtain ⟨hdel, hcarry⟩ := appliedService_eq_ok hcall
        have hgen := (carryServerState_eq_ok.mp hcarry).1
        constructor
        · intro h svc' stored' _ hsvc hstored _ _
          rw [hrow] at hstored
          cases hsvc
          cases hstored
          exact h
        · intro h
          exact h svc stored hs rfl hrow hdel hgen

end Services

/-- The change can be taken back from the row it meets. -/
def Applier.Recoverable (a : Applier) (s : Strike) (row : Option Row) : Prop :=
  match s.change.ref.resourceType with
  | .service => RecoverableService (a.payloads.services s.key) s row
  | .secret => RecoverableVia (secretRepo a.secretLimits) (a.payloads.secrets s.key).isSome s row
  | .configmap =>
    RecoverableVia (configmapRepo a.configLimits (a.fresh s.key).text)
      (a.payloads.configmaps s.key).isSome s row
  | .volume => RecoverableVia (volumeRepo (a.fresh s.key)) (a.payloads.volumes s.key).isSome s row
  | _ => True

/-- The revert of a change, which nothing strikes. -/
def Strike.undo (s : Strike) : Strike := ⟨s.change, .none⟩

section Changes

variable {a : Applier} {ref : OwnerRef} {s : Strike} {row : Option Row} {c : Cell}

theorem remember_image (pre : Option PreImage) (t : Touch) :
    (remember pre t).map PreImage.image = (pre.map PreImage.image <|> t.captured) := by
  rcases pre with _ | pi
  · cases hc : t.captured <;> simp [remember, hc]
  · simp [remember]

/-- The calls of a reference go through a repository. -/
structure Handles {α : Type} (a : Applier) (repo : Repo α) (payload : Option α) (s : Strike) :
    Prop where
  apply : ∃ what, ∀ f row, a.apply s.change.ref f row = applyVia repo a.stamp payload what f row
  prune : ∀ f row, a.prune s.change.ref f row = pruneVia repo f row
  revert : ∀ f row pi, a.revertRow s.change.ref f ⟨row, some pi⟩ = revertVia repo pi.image f row
  kind : ∀ x, (repo.toRow x).kind = s.change.ref.resourceType
  found : ∀ r, r.kind = s.change.ref.resourceType → (repo.ofRow r).isSome = true
  recoverable : ∀ row, a.Recoverable s row ↔ RecoverableVia repo payload.isSome s row

/-- What a change of a kind that releases own goes through. -/
theorem service_or_handles (a : Applier) (s : Strike)
    (h : ownedKind s.change.ref.resourceType = true) :
    s.change.ref.resourceType = .service ∨
      ∃ (α : Type) (repo : Repo α) (payload : Option α), Handles a repo payload s := by
  cases hkind : s.change.ref.resourceType
  case service => exact .inl rfl
  case namespaceKind | storageClass | other => simp [hkind, ownedKind] at h
  on_goal 1 => refine .inr ⟨_, volumeRepo (a.fresh s.key), a.payloads.volumes s.key, ?_⟩
  on_goal 2 => refine .inr ⟨_, configmapRepo a.configLimits (a.fresh s.key).text,
    a.payloads.configmaps s.key, ?_⟩
  on_goal 3 => refine .inr ⟨_, secretRepo a.secretLimits, a.payloads.secrets s.key, ?_⟩
  all_goals
    constructor <;>
      simp [Applier.apply, Applier.prune, Applier.revertRow, Applier.Recoverable, hkind, Strike.key,
        secretRepo, configmapRepo, volumeRepo, Row.kind]
    · exact ⟨_, fun _ _ => rfl⟩
    · rintro (_ | _ | _ | _) h <;> first | rfl | cases h

/-- One apply and its revert. -/
theorem apply_restored_iff (hs : s.change.action ≠ .prune)
    (howned : ownedKind s.change.ref.resourceType = true)
    (hback : a.revertFails s.undo (a.performCell s ⟨row, none⟩) = none) :
    Restored row (a.revertCell s.undo (a.performCell s ⟨row, none⟩)).row ↔
      a.Recoverable s row := by
  have hperform : ∀ row, a.perform s row = a.apply s.change.ref s.fault row := fun row =>
    if_neg hs
  simp only [Applier.revertFails, Applier.revertCell, Applier.performCell, Strike.undo, hperform]
    at hback ⊢
  rcases service_or_handles a s howned with hkind | ⟨α, repo, payload, h⟩
  · have hcell : ∀ row, a.revertRow s.change.ref .none
        ⟨(a.apply s.change.ref s.fault row).row, remember none (a.apply s.change.ref s.fault row)⟩ =
          backFrom (a.fresh s.key) (applyService a s.key s.fault row) := by
      intro row
      simp only [Applier.apply, Applier.revertRow, hkind]
      rfl
    rw [hcell] at hback ⊢
    rw [applyService_restored_iff hs hback]
    simp [Applier.Recoverable, hkind]
  · obtain ⟨what, happly⟩ := h.apply
    rw [happly] at hback ⊢
    rw [h.recoverable]
    cases payload with
    | none =>
      simp [applyVia, remember, Applier.revertRow, restored_refl, RecoverableVia, hs]
    | some p =>
      obtain ⟨image, himage⟩ : ∃ image,
          (applyVia repo a.stamp (some p) what s.fault row).captured = some image := by
        simp only [applyVia]
        split <;> exact ⟨_, rfl⟩
      obtain ⟨pi, hpi, hremember⟩ : ∃ pi : PreImage, pi.image = image ∧
          remember none (applyVia repo a.stamp (some p) what s.fault row) = some pi := by
        simp only [remember, himage]
        exact ⟨_, rfl, rfl⟩
      rw [hremember, h.revert, hpi] at hback ⊢
      rw [applyVia_restored_iff himage hback]
      simp [RecoverableVia, hs]

/-- The pre-image of a cell, once there is one. -/
def Cell.image (c : Cell) : Option (Option Row) := c.pre.map PreImage.image

theorem performCell_image (s : Strike) (c : Cell) :
    (a.performCell s c).image = (c.image <|> (a.perform s c.row).captured) :=
  remember_image _ _

/-- Reverting a change of another kind than the pre-image's does nothing, or fails. -/
theorem revertCell_of_other_kind {img : Row} (himage : c.image = some (some img))
    (hkind : img.kind ≠ s.change.ref.resourceType) (h : a.revertFails s.undo c = none) :
    (a.revertCell s.undo c).row = c.row := by
  obtain ⟨row, _ | pi⟩ := c
  · rfl
  have hpi : pi.image = some img := Option.some.inj himage
  simp only [Applier.revertFails, Applier.revertCell, Strike.undo, Applier.revertRow] at h ⊢
  cases hs : s.change.ref.resourceType <;> rw [hs] at hkind <;> simp only [hs] at h
  all_goals cases img <;>
    simp_all [Row.kind, revertService, revertVia, Row.service?, secretRepo, configmapRepo,
      volumeRepo, Row.secret?, Row.configmap?, Row.volume?]

/-- Without a row of its kind there is no creation to revert. -/
theorem revertCell_of_absent (himage : c.image = some none)
    (hrow : rowOf s.change.ref c.row = none) : (a.revertCell s.undo c).row = c.row := by
  obtain ⟨row, _ | pi⟩ := c
  · rfl
  have hpi : pi.image = none := Option.some.inj himage
  simp only [Applier.revertCell, Strike.undo, Applier.revertRow, hpi]
  split <;> rename_i hkind
  · have hnone : row.bind Row.service? = none :=
      bind_eq_none_of_kind (fun r hr => by cases r <;> simp_all [Row.kind, Row.service?]) hkind hrow
    simp [revertService, hpi, Fault.sees, hnone]
  on_goal 4 => rfl
  all_goals
    rw [revertVia_absent (bind_eq_none_of_kind (fun r hr => by
      cases r <;> simp_all [Row.kind, secretRepo, Row.secret?, configmapRepo, Row.configmap?,
        volumeRepo, Row.volume?]) hkind hrow)]

/-- Changes of kinds that no release owns leave a cell that nothing has touched. -/
theorem performCell_of_not_owned (h : ownedKind s.change.ref.resourceType = false) :
    a.performCell s ⟨row, none⟩ = ⟨row, none⟩ := by
  have hperform : a.perform s row = { row := row } := by
    unfold Applier.perform Applier.prune Applier.apply
    cases hkind : s.change.ref.resourceType <;> simp_all [ownedKind]
  simp [Applier.performCell, hperform, remember]

theorem revertCell_of_not_owned (h : ownedKind s.change.ref.resourceType = false) :
    a.revertCell s.undo c = c := by
  obtain ⟨row, pre⟩ := c
  cases pre with
  | none => rfl
  | some pi =>
    simp only [Applier.revertCell, Strike.undo, Applier.revertRow]
    cases hkind : s.change.ref.resourceType <;> simp_all [ownedKind]

/-- The revert of a change goes by its kind and its key. -/
theorem revertCell_congr {s t : Strike}
    (hkind : t.change.ref.resourceType = s.change.ref.resourceType) (hkey : t.key = s.key) :
    a.revertCell t.undo = a.revertCell s.undo ∧ a.revertFails t.undo = a.revertFails s.undo := by
  have hrow : a.revertRow t.change.ref .none = a.revertRow s.change.ref .none := by
    funext c
    simp only [Strike.key] at hkey
    simp only [Applier.revertRow, hkind, hkey]
  constructor <;> funext c <;>
    simp only [Applier.revertCell, Applier.revertFails, Strike.undo, hrow]

end Changes

end Rune.Cast
