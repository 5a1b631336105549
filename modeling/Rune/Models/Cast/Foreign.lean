import Rune.Models.Cast.Releases

/-!
# Resources of other releases

A cast that may not adopt has to leave alone what carries the stamp of another
release. The plan goes by the record of the previous revision where that lists
a resource, and by the live stamp only where it does not. So the stamps that
other releases have put on recorded resources meanwhile decide whether a cast
stays within its own release.
-/

namespace Rune.Cast

open Rune.Core
open Rune.Services
open Rune.Volumes

/-- The row of the reference carries the stamp of a release of another name. -/
def isForeign (name : String) (ref : OwnerRef) (row : Option Row) : Bool :=
  ((rowOf ref row).bind Row.ownedBy).any fun ob => ob.release ≠ name

/-- What makes a row foreign. -/
theorem isForeign_iff {name : String} {ref : OwnerRef} {row : Option Row} :
    isForeign name ref row = true ↔
      ∃ r ob, row = some r ∧ r.kind = ref.resourceType ∧ r.ownedBy = some ob ∧
        ob.release ≠ name := by
  rcases row with _ | r
  · simp [isForeign]
  · by_cases hk : r.kind = ref.resourceType
    · cases ho : r.ownedBy <;> simp [isForeign, hk, ho]
    · simp [isForeign, hk]

/-- The stamp of the new row is the given one or that of the old row. -/
def Inherits (stamp : OwnedBy) (row row' : Option Row) : Prop :=
  ∀ r', row' = some r' → r'.ownedBy = some stamp ∨
    ∃ r, row = some r ∧ r'.kind = r.kind ∧ r'.ownedBy = r.ownedBy

section Inherits

variable {α : Type} {repo : Repo α} {a : Applier} {stamp : OwnedBy} {f : Fault}
  {row row' : Option Row}

/-- An untouched row. -/
theorem Inherits.refl (stamp : OwnedBy) (row : Option Row) : Inherits stamp row row :=
  fun r' h => Or.inr ⟨r', h, rfl, rfl⟩

/-- A deleted row. -/
theorem Inherits.gone (stamp : OwnedBy) (row : Option Row) : Inherits stamp row none := by
  intro r' h
  cases h

/-- A row under the stamp. -/
theorem Inherits.of_owned {new : Row} (h : new.ownedBy = some stamp) :
    Inherits stamp row (some new) := by
  intro r' hr'
  cases hr'
  exact Or.inl h

/-- A write of a stamped row passes the stamp on. -/
theorem commit_inherits {x : Except String Row}
    (h : ∀ new, x = .ok new → Inherits stamp row (some new)) :
    Inherits stamp row (commit f row x).1 := by
  rcases commit_row f row x with hrow | ⟨new, hx, hrow⟩ <;> rw [hrow]
  · exact Inherits.refl stamp row
  · exact h new hx

theorem commitDelete_inherits (found : Bool) :
    Inherits stamp row (commitDelete found f row).1 := by
  rcases commitDelete_row found f row with hrow | hrow <;> rw [hrow]
  · exact Inherits.refl stamp row
  · exact Inherits.gone stamp row

theorem applyVia_inherits (payload : Option α) (what : String) :
    Inherits stamp row (applyVia repo stamp payload what f row).row := by
  cases payload with
  | none => exact Inherits.refl stamp row
  | some p =>
    simp only [applyVia]
    split
    · refine commit_inherits fun new hnew => Inherits.of_owned ?_
      obtain ⟨x, hx, rfl⟩ := map_eq_ok hnew
      rw [repo.update_owned hx, repo.stamped_owned]
    · refine commit_inherits fun new hnew => Inherits.of_owned ?_
      obtain ⟨x, hx, rfl⟩ := map_eq_ok (unlessTaken_eq_ok hnew).1
      rw [repo.create_owned hx, repo.stamped_owned]

/-- The service branch. -/
theorem applyService_inherits (key : String) :
    Inherits a.stamp row (applyService a key f row).row := by
  simp only [applyService]
  split
  · exact Inherits.refl _ _
  · split_ifs
    · exact Inherits.refl _ _
    · split
      · split
        · exact Inherits.refl _ _
        · rename_i next hnext
          have hinh : Inherits a.stamp row (commit f row (.ok (.service next))).1 := by
            refine commit_inherits fun new hnew => ?_
            cases hnew
            refine Inherits.of_owned ?_
            obtain ⟨-, hcarry⟩ := appliedService_eq_ok hnext
            obtain ⟨-, rfl⟩ := carryServerState_eq_ok.mp hcarry
            rfl
          split <;> exact hinh
      · refine commit_inherits fun new hnew => Inherits.of_owned ?_
        obtain ⟨x, hx, rfl⟩ := map_eq_ok (unlessTaken_eq_ok hnew).1
        rw [← createdService_eq_ok hx]
        rfl

theorem deleteServiceRow_inherits : Inherits stamp row (deleteServiceRow f row).1 := by
  simp only [deleteServiceRow]
  split
  · exact Inherits.refl _ _
  · rename_i s hs
    obtain ⟨r, rfl, hr⟩ := Option.bind_eq_some_iff.mp hs
    refine commit_inherits fun new hnew => ?_
    obtain ⟨t, ht, rfl⟩ := map_eq_ok hnew
    intro r' hr'
    cases hr'
    refine Or.inr ⟨r, rfl, ?_⟩
    cases r <;> cases hr
    rcases deleteService_eq_ok.mp ht with ⟨-, rfl⟩ | ⟨-, -, rfl⟩ <;> exact ⟨rfl, rfl⟩

/-- Carrying out a change stamps its row for the cast, or leaves the stamp. -/
theorem perform_inherits (a : Applier) (s : Strike) (row : Option Row) :
    Inherits a.stamp row (a.perform s row).row := by
  unfold Applier.perform
  split_ifs
  · unfold Applier.prune
    split
    · exact deleteServiceRow_inherits
    · exact commitDelete_inherits _
    · exact commitDelete_inherits _
    · exact commitDelete_inherits _
    · exact Inherits.refl _ _
  · unfold Applier.apply
    split
    · exact applyService_inherits _
    · exact applyVia_inherits _ _
    · exact applyVia_inherits _ _
    · exact applyVia_inherits _ _
    · exact Inherits.refl _ _

end Inherits

section Executed

variable {a : Applier}

/-- Changes of a cast make no row foreign to its release. -/
theorem isForeign_of_perform {s : Strike} {row : Option Row} {ref : OwnerRef}
    (h : isForeign a.stamp.release ref (a.perform s row).row = true) :
    isForeign a.stamp.release ref row = true := by
  obtain ⟨r', ob, hrow, hkind, hown, hne⟩ := isForeign_iff.mp h
  rcases perform_inherits a s row r' hrow with hstamp | ⟨r, rfl, hk, hsame⟩
  · cases hown.symm.trans hstamp
    exact absurd rfl hne
  · exact isForeign_iff.mpr ⟨r, ob, rfl, hk.symm.trans hkind, hsame.symm.trans hown, hne⟩

theorem isForeign_of_touchAll {cells : String → Cell} {l : List Strike} {ref : OwnerRef}
    {k : String}
    (h : isForeign a.stamp.release ref (touchAll Strike.key a.performCell cells l k).row = true) :
    isForeign a.stamp.release ref (cells k).row = true := by
  induction l generalizing cells with
  | nil => exact h
  | cons s l ih =>
    have hs := ih h
    by_cases hk : s.key = k
    · subst hk
      rw [touch_self] at hs
      exact isForeign_of_perform hs
    · rwa [touch_of_ne hk] at hs

end Executed

section Planned

variable {name ns : String} {owned : List String} {rows : Rows} {unread : OwnerRef → Bool}

/-- Only the four owned kinds have rows, so that a foreign resource is not of a
shared kind. -/
theorem not_shared_of_isForeign {ref : OwnerRef} {row : Option Row}
    (h : isForeign name ref row = true) : isSharedClusterKind ref.resourceType = false := by
  obtain ⟨r, -, -, hkind, -⟩ := isForeign_iff.mp h
  rw [← hkind]
  cases r <;> rfl

/-- Lookups over the rows never fail. -/
theorem liveLookup_isOk (d : OwnerRef) : ∃ state, liveLookup rows unread d = .ok state := by
  unfold liveLookup
  split_ifs
  · exact ⟨_, rfl⟩
  · split <;> exact ⟨_, rfl⟩

theorem planDesired_liveLookup_isOk (adopt : Bool) (d : OwnerRef) :
    ∃ c, planDesired name owned (liveLookup rows unread) adopt d = .ok c := by
  obtain ⟨state, hstate⟩ := @liveLookup_isOk rows unread d
  unfold planDesired
  rw [hstate]
  dsimp only
  split_ifs <;> exact ⟨_, rfl⟩

/-- A foreign resource is planned as a conflict, unless the record lists it or
its row could not be read. -/
theorem planDesired_conflict_iff {d : OwnerRef} {c : PlannedChange}
    (hc : planDesired name owned (liveLookup rows unread) false d = .ok c)
    (hforeign : isForeign name d (rows d.key) = true) :
    c.conflict.isSome = true ↔ d.key ∉ owned ∧ unread d = false := by
  have hshared := not_shared_of_isForeign hforeign
  obtain ⟨r, ob, hr, hkind, hown, hne⟩ := isForeign_iff.mp hforeign
  by_cases howned : d.key ∈ owned
  · simp only [planDesired, hshared, howned] at hc
    cases hc
    simp [howned]
  · cases hread : unread d
    · have hlive : liveLookup rows unread d = .ok ⟨true, some ob⟩ := by
        simp [liveLookup, hread, hr, hkind, hown]
      simp only [planDesired, hshared, howned, hlive] at hc
      simp [hne] at hc
      cases hc
      simp [howned]
    · have hlive : liveLookup rows unread d = .ok ⟨false, none⟩ := by
        simp [liveLookup, hread]
      simp only [planDesired, hshared, howned, hlive] at hc
      cases hc
      simp

end Planned

/-- The cast leaves other releases alone: every resource of another release in
the plan is a conflict, and no executed change meets the row of one. -/
structure CastSpares (w : Fleet) (r : CastRequest) : Prop where
  planned : ∀ p, w.planOf r = .ok p → ∀ c ∈ p.changes,
    isForeign r.spec.name c.ref (w.rows c.ref.key) = true → c.conflict.isSome = true
  executed : ∀ p, w.prepared r = .ok p → ∀ before s after,
    ((w.applier r).run p.plan r.strikes w.rows).done = before ++ s :: after →
      isForeign r.spec.name s.change.ref
        (touchAll Strike.key (w.applier r).performCell (untouched w.rows) before s.key).row = false

/-- Nothing that the record lists, desired or dropped, has been stamped by another release since.
What the record does not list can be read. -/
structure Undisputed (w : Fleet) (r : CastRequest) : Prop where
  desired : ∀ d ∈ r.spec.resources, d.key ∈ (ownsOf (w.recordSeen r)).map OwnerRef.key →
    isForeign r.spec.name d (w.rows d.key) = false
  dropped : ∀ ref ∈ ownsOf (w.recordSeen r), ref.key ∉ r.spec.resources.map OwnerRef.key →
    isForeign r.spec.name ref (w.rows ref.key) = false
  readable : ∀ d ∈ r.spec.resources, r.unread d = true →
    isForeign r.spec.name d (w.rows d.key) = false

namespace Fleet

variable {w : Fleet} {r : CastRequest}

/-- A plan is always found. -/
theorem planOf_isOk (w : Fleet) (r : CastRequest) : ∃ p, w.planOf r = .ok p := by
  obtain ⟨cs, hcs⟩ := @planAll_isOk r.spec.name ((ownsOf (w.recordSeen r)).map OwnerRef.key)
    (liveLookup w.rows r.unread) r.spec.adopt r.spec.resources
    (planDesired_liveLookup_isOk r.spec.adopt)
  exact ⟨_, by simp [planOf, buildPlan, hcs, bind, Except.bind, pure, Except.pure]; rfl⟩

/-- A plan without foreign resources stays clear of them while it is executed. -/
theorem executed_of_planned
    (h : ∀ p, w.planOf r = .ok p → ∀ c ∈ p.changes,
      isForeign r.spec.name c.ref (w.rows c.ref.key) = true → c.conflict.isSome = true) :
    CastSpares w r := by
  refine ⟨h, fun p hp before s after hdone => ?_⟩
  obtain ⟨hplan, hfree⟩ := prepared_eq_ok hp
  have hmem : s.change ∈ p.plan.changes :=
    mem_changes_of_mem_done (by rw [hdone]; simp)
  by_contra hforeign
  rw [Bool.not_eq_false] at hforeign
  have hstart : isForeign r.spec.name s.change.ref (w.rows s.change.ref.key) = true :=
    isForeign_of_touchAll (a := w.applier r) hforeign
  have hconflict := h p.plan hplan s.change hmem hstart
  rw [hfree s.change hmem] at hconflict
  cases hconflict

/-- A cast without adoption leaves other releases alone exactly where nothing it
takes for its own is disputed. -/
theorem castSpares_iff (hadopt : r.spec.adopt = false) : CastSpares w r ↔ Undisputed w r := by
  obtain ⟨p, hp⟩ := w.planOf_isOk r
  constructor
  · intro h
    have hplan := h.planned p hp
    refine ⟨fun d hd howned => ?_, fun ref href hdrop => ?_, fun d hd hunread => ?_⟩
    · by_contra hforeign
      rw [Bool.not_eq_false] at hforeign
      obtain ⟨c, hc⟩ := planDesired_liveLookup_isOk r.spec.adopt d
      have hconf := hplan c ((mem_planOf hp c).mpr (Or.inl ⟨d, hd, hc⟩))
        (by rwa [(planDesired_spec hc).1])
      rw [hadopt] at hc
      exact ((planDesired_conflict_iff hc hforeign).mp hconf).1 howned
    · by_contra hforeign
      rw [Bool.not_eq_false] at hforeign
      have hconf := hplan ⟨ref, .prune, none⟩
        ((mem_planOf hp _).mpr (Or.inr ⟨ref, href, hdrop, rfl⟩)) hforeign
      cases hconf
    · by_contra hforeign
      rw [Bool.not_eq_false] at hforeign
      obtain ⟨c, hc⟩ := @planDesired_liveLookup_isOk r.spec.name
        ((ownsOf (w.recordSeen r)).map OwnerRef.key) w.rows r.unread r.spec.adopt d
      have hconf := hplan c ((mem_planOf hp c).mpr (Or.inl ⟨d, hd, hc⟩))
        (by rwa [(planDesired_spec hc).1])
      rw [hadopt] at hc
      have hread := ((planDesired_conflict_iff hc hforeign).mp hconf).2
      rw [hunread] at hread
      cases hread
  · intro h
    refine executed_of_planned fun p' hp' c hc hforeign => ?_
    rcases (mem_planOf hp' c).mp hc with ⟨d, hd, hplanned⟩ | ⟨ref, href, hdrop, rfl⟩
    · obtain ⟨rfl, -, -⟩ := planDesired_spec hplanned
      rw [hadopt] at hplanned
      refine (planDesired_conflict_iff hplanned hforeign).mpr ⟨fun howned => ?_, ?_⟩
      · rw [h.desired _ hd howned] at hforeign
        cases hforeign
      · by_contra hread
        rw [h.readable _ hd (by simpa using hread)] at hforeign
        cases hforeign
    · rw [h.dropped ref href hdrop] at hforeign
      cases hforeign

/-- The step, if it is a cast without adoption, leaves other releases alone. -/
def SparesOthers (w : Fleet) : Step → Prop
  | .cast r => r.spec.adopt = false → CastSpares w r
  | _ => True

/-- The step, if it is a cast without adoption, takes nothing disputed for its
own. -/
def TakesOwn (w : Fleet) : Step → Prop
  | .cast r => r.spec.adopt = false → Undisputed w r
  | _ => True

/-- The casts of a run that do not adopt leave other releases alone exactly where none of them
finds a resource that its record lists, or that it cannot read, under the stamp of another
release. -/
theorem casts_spare_others_iff (w : Fleet) (run : List Step) :
    Along step SparesOthers w run ↔ Along step TakesOwn w run := by
  refine along_iff (fun _ => True) (fun w a _ _ => ?_) (fun _ _ _ _ _ _ _ => trivial) trivial
  cases a with
  | cast r => exact forall_congr' fun hadopt => castSpares_iff hadopt
  | _ => exact Iff.rfl

end Fleet

/-- A secret that two releases want. -/
def sharedSecret : OwnerRef := ⟨.secret, "prod", "db"⟩

/-- A cast of a release that consists of the shared secret. -/
def secretCast (name : String) (adopt : Bool) : CastRequest where
  spec := ⟨name, "prod", [sharedSecret], adopt, false, false⟩
  payloads := ⟨fun _ => none, fun _ => some { ns := "prod", name := "db" }, fun _ => none,
    fun _ => none⟩
  secretLimits := ⟨64, 1024⟩
  configLimits := ⟨64, 1024⟩
  fresh := fun _ => mintedId

/-- The secret is created by one release and adopted by another. The next cast of
the first one still plans an update of it. -/
theorem former_owner_updates_adopted_secret :
    ¬ Along Fleet.step Fleet.SparesOthers ⟨fun _ => none, fun _ => none⟩
      [.cast (secretCast "api" false), .cast (secretCast "web" true),
        .cast (secretCast "api" false)] := by
  intro h
  have hthird := ((h.2 _ rfl).2 _ rfl).1 rfl
  have hconflict := hthird.planned ⟨"api", "prod", [⟨sharedSecret, .update, none⟩]⟩ (by decide)
    ⟨sharedSecret, .update, none⟩ (by decide) (by decide)
  cases hconflict

end Rune.Cast
