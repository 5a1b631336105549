import Rune.Models.Cast.Foreign

/-!
# Uninstalling a release

An uninstall prunes what the record lists, services first and volumes last, and
stops at the first prune that fails. A prune of a row that is already gone is
such a failure. It goes by the record alone, so it deletes what another release
has adopted meanwhile, and it leaves what carries the stamp of the release
without being listed.
-/

namespace Rune.Cast

open Rune.Core
open Rune.Services
open Rune.Volumes

section Prune

variable {a : Applier} {ref : OwnerRef} {f : Fault} {row : Option Row}

/-- The row can be pruned: it is there, and it is not a service that has lost the timestamp of its
deletion. Only owned kinds are pruned. -/
def Prunable (ref : OwnerRef) (row : Option Row) : Prop :=
  ownedKind ref.resourceType = true →
    ∃ r, row = some r ∧ r.kind = ref.resourceType ∧
      ∀ s, r = .service s → s.metadata.deletionTimestamp = true ∨ s.status ≠ .deleted

/-- A prune that nothing disturbs succeeds on such a row and makes it go. -/
theorem prune_of_prunable (h : Prunable ref row) :
    (a.prune ref .none row).error = none ∧
      (ownedKind ref.resourceType = true → isGone (a.prune ref .none row).row = true) := by
  cases howned : ownedKind ref.resourceType with
  | false =>
    rw [prune_of_not_owned howned]
    exact ⟨rfl, fun h => absurd h (by decide)⟩
  | true =>
    obtain ⟨r, rfl, hkind, hservice⟩ := h howned
    unfold Applier.prune
    rw [← hkind]
    cases r with
    | service s =>
      cases hd : s.metadata.deletionTimestamp with
      | true =>
        simp [Row.kind, pruneService, deleteServiceRow, Row.service?, deleteService, hd, commit,
          Except.map, isGone, terminatingImage]
      | false =>
        have hst : s.status ≠ .deleted := (hservice s rfl).resolve_left (by simp [hd])
        simp [Row.kind, pruneService, deleteServiceRow, Row.service?, deleteService, hd, hst,
          commit, Except.map, isGone, terminatingImage, Service.tombstone]
    | secret s => simp [Row.kind, pruneVia, commitDelete, secretRepo, Row.secret?, isGone]
    | configmap c =>
      simp [Row.kind, pruneVia, commitDelete, configmapRepo, Row.configmap?, isGone]
    | volume v => simp [Row.kind, pruneVia, commitDelete, volumeRepo, Row.volume?, isGone]

end Prune

/-- The row carries the stamp of a release of the given name. -/
def stampedBy (name : String) (row : Option Row) : Bool :=
  (row.bind Row.ownedBy).any fun ob => ob.release = name

/-- The row carries the stamp of a release of another name. -/
def stampedByOther (name : String) (row : Option Row) : Bool :=
  (row.bind Row.ownedBy).any fun ob => ob.release ≠ name

/-- The row is that of a volume. -/
def isVolume (row : Option Row) : Bool := (row.bind Row.volume?).isSome

/-- Nothing goes wrong in the uninstall beyond rows being gone. -/
structure UninstallRequest.Undisturbed (u : UninstallRequest) (rel : Release) : Prop where
  read : u.recordUnread = false
  admitted : u.admission (u.prunes rel) = none
  faults : ∀ i, u.faults i = .none
  settled : u.settled = true

/-- A later cast of the release plans an update of the volume, without adopting. -/
def Reachable (name : String) (rows : Rows) (key : String) : Prop :=
  ∀ ref : OwnerRef, ref.resourceType = .volume → ref.key = key → ∀ owned,
    planDesired name owned (liveLookup rows fun _ => false) false ref = .ok ⟨ref, .update, none⟩

/-- The uninstall stays inside the release, and where nothing goes wrong it leaves no resource of
the release, apart from volumes it was told to keep, and a record that says so. -/
structure Uninstalls (w : Fleet) (u : UninstallRequest) : Prop where
  inside : ∀ key, stampedByOther u.name (w.rows key) = true →
    (w.uninstall u).1.rows key = w.rows key
  completes : ∀ rel, w.records (releaseKey u.ns u.name) = some rel → u.Undisturbed rel →
    (w.uninstall u).2 = none ∧
      (w.uninstall u).1.records (releaseKey u.ns u.name) = u.retired rel ∧
      ∀ key, stampedBy u.name ((w.uninstall u).1.rows key) = true →
        isGone ((w.uninstall u).1.rows key) = false →
          u.keepVolumes = true ∧ isVolume (w.rows key) = true ∧
            (w.uninstall u).1.rows key = w.rows key ∧
            Reachable u.name (w.uninstall u).1.rows key

/-- The record is the truth about the release: what is to be pruned is listed once, can be pruned,
and is not another release's, and everything stamped by the release is listed. -/
structure Accounted (w : Fleet) (u : UninstallRequest) (rel : Release) : Prop where
  once : ((u.prunes rel).map fun c => c.ref.key).Nodup
  prunable : ∀ c ∈ u.prunes rel, Prunable c.ref (w.rows c.ref.key)
  own : ∀ c ∈ u.prunes rel, isForeign u.name c.ref (w.rows c.ref.key) = false
  listed : ∀ key, stampedBy u.name (w.rows key) = true → isGone (w.rows key) = false →
    (u.keepVolumes = true ∧ isVolume (w.rows key) = true) ∨
      ∃ c ∈ u.prunes rel, c.ref.key = key ∧ ownedKind c.ref.resourceType = true

namespace Fleet

variable {w : Fleet} {u : UninstallRequest} {rel : Release}

/-- Every change of an uninstall is one of its prunes. -/
theorem mem_prunes_of_mem_done {s : Strike} (h : s ∈ (w.pruned u rel).done) :
    s.change ∈ u.prunes rel := by
  have hmem := List.mem_map_of_mem (f := Strike.change)
    ((done_prefix_of_attempt (untouched w.rows) (strike u.faults (u.prunes rel))).subset h)
  rwa [map_change_strike] at hmem

theorem action_prune {c : PlannedChange} (h : c ∈ u.prunes rel) : c.action = .prune := by
  obtain ⟨ref, -, rfl⟩ := List.mem_map.mp h
  rfl

/-- What the prunes do to a row that none of them may touch. -/
theorem pruned_row_of_forall {key : String} {l : List Strike}
    (h : ∀ s ∈ l, s.change ∈ u.prunes rel ∧
      (s.key = key → rowOf s.change.ref (w.rows key) = none)) :
    (touchAll Strike.key bareApplier.performCell (untouched w.rows) l key).row = w.rows key := by
  suffices hgen : ∀ cells : String → Cell, (cells key).row = w.rows key →
      (touchAll Strike.key bareApplier.performCell cells l key).row = w.rows key from
    hgen _ rfl
  induction l with
  | nil => exact fun cells hc => hc
  | cons s l ih =>
    intro cells hc
    have hl := ih fun t ht => h t (List.mem_cons_of_mem s ht)
    refine hl _ ?_
    obtain ⟨hs, hkind⟩ := h s List.mem_cons_self
    by_cases hk : s.key = key
    · subst hk
      rw [touch_self]
      simp only [Applier.performCell, Applier.perform, action_prune hs, if_true]
      rw [hc]
      exact prune_row_of_other_kind (hkind rfl)
    · rw [touch_of_ne hk, hc]

theorem kind_of_rowOf {ref : OwnerRef} {row : Option Row} {r : Row} (h : rowOf ref row = some r) :
    r.kind = ref.resourceType := by
  cases row with
  | none => simp at h
  | some r' =>
    by_cases hk : r'.kind = ref.resourceType
    · obtain rfl : r' = r := by simpa [hk] using h
      exact hk
    · simp [hk] at h

theorem isForeign_of_stampedByOther {name key : String} {ref : OwnerRef} {r : Row}
    (hrow : rowOf ref (w.rows key) = some r) (h : stampedByOther name (w.rows key) = true) :
    isForeign name ref (w.rows key) = true := by
  cases hw : w.rows key with
  | none => simp [hw] at hrow
  | some r' =>
    rw [hw] at hrow h
    by_cases hk : r'.kind = ref.resourceType
    · simpa [isForeign, hk, stampedByOther] using h
    · simp [hk] at hrow

/-- A row stays as it was where no prune finds its resource there. -/
theorem rows_pruned {key : String}
    (h : ∀ c ∈ u.prunes rel, ∀ r, rowOf c.ref (w.rows key) = some r → c.ref.key ≠ key) :
    rowsOf (w.pruned u rel).store key = w.rows key := by
  rw [pruned, Applier.attemptChanges, attempt_store]
  refine @pruned_row_of_forall w u rel key _ fun s hs => ⟨mem_prunes_of_mem_done hs, fun hk => ?_⟩
  exact Option.eq_none_iff_forall_ne_some.mpr fun r hr => h _ (mem_prunes_of_mem_done hs) r hr hk

/-- Rows of other releases are not touched where no prune is about one. -/
theorem pruned_inside
    (hown : ∀ c ∈ u.prunes rel, isForeign u.name c.ref (w.rows c.ref.key) = false)
    {key : String} (hkey : stampedByOther u.name (w.rows key) = true) :
    rowsOf (w.pruned u rel).store key = w.rows key := by
  refine rows_pruned fun c hc r hr hk => ?_
  have hforeign := isForeign_of_stampedByOther hr hkey
  rw [← hk, hown c hc] at hforeign
  cases hforeign

/-- A prune that nothing strikes, on a cell that nothing has touched. -/
theorem perform_prune {c : PlannedChange} (hc : c ∈ u.prunes rel) (row : Option Row) :
    bareApplier.perform ⟨c, .none⟩ row = bareApplier.prune c.ref .none row := by
  rw [Applier.perform, if_pos (action_prune hc)]

/-- An uninstall of what the record truly lists prunes all of it. -/
theorem pruned_ok (h : Accounted w u rel) (hf : ∀ i, u.faults i = .none) :
    (w.pruned u rel).error = none ∧
      ∀ c ∈ u.prunes rel, ownedKind c.ref.resourceType = true →
        isGone (rowsOf (w.pruned u rel).store c.ref.key) = true := by
  have hkeys : (((u.prunes rel).map fun c => (⟨c, .none⟩ : Strike)).map Strike.key).Nodup := by
    rw [List.map_map]
    exact h.once
  unfold pruned Applier.attemptChanges
  rw [strike_of_forall_none hf]
  set l := (u.prunes rel).map fun c => (⟨c, .none⟩ : Strike) with hl
  have hok : (attempt Strike.key bareApplier.performCell bareApplier.performFails
      (untouched w.rows) l).error = none := by
    refine attempt_ok fun before s after hsplit => ?_
    obtain ⟨c, hc, rfl⟩ := List.mem_map.mp (show s ∈ l by simp [hsplit])
    have hfirst : touchAll Strike.key bareApplier.performCell (untouched w.rows) before
        (Strike.key ⟨c, .none⟩) = untouched w.rows c.ref.key := by
      refine touchAll_of_forall_ne fun b hb he => ?_
      rw [hsplit, List.map_append] at hkeys
      exact (List.nodup_append.mp hkeys).2.2 _ (List.mem_map_of_mem hb) _ List.mem_cons_self he
    rw [hfirst, Applier.performFails, perform_prune hc]
    exact (prune_of_prunable (h.prunable c hc)).1
  refine ⟨hok, fun c hc howned => ?_⟩
  have hmem : (⟨c, .none⟩ : Strike) ∈ l := List.mem_map_of_mem hc
  have hcell : touchAll Strike.key bareApplier.performCell (untouched w.rows) l
      (Strike.key ⟨c, .none⟩) = bareApplier.performCell ⟨c, .none⟩ (untouched w.rows c.ref.key) :=
    touchAll_of_mem hkeys hmem
  have hgone := (@prune_of_prunable bareApplier _ _ (h.prunable c hc)).2 howned
  rw [attempt_store, attempt_done_of_ok hok]
  refine (congrArg (fun cell : Cell => isGone cell.row) hcell).trans ?_
  rw [Applier.performCell, perform_prune hc]
  exact hgone

/-- The outcome of an uninstall that nothing disturbs. -/
theorem uninstall_of_undisturbed (hrec : w.records (releaseKey u.ns u.name) = some rel)
    (hu : u.Undisturbed rel) (hok : (w.pruned u rel).error = none) :
    w.uninstall u = (⟨rowsOf (w.pruned u rel).store,
      Function.update w.records (releaseKey u.ns u.name) (u.retired rel)⟩, none) := by
  have hfound : w.recordFound u = some rel := by simp [recordFound, hu.read, hrec]
  simp [uninstall, hfound, hu.admitted, hok, hu.settled]

/-- The rows after an uninstall are those it found or those its prunes left. -/
theorem uninstall_rows (w : Fleet) (u : UninstallRequest) :
    (w.uninstall u).1.rows = w.rows ∨ ∃ rel, w.recordFound u = some rel ∧
      (w.uninstall u).1.rows = rowsOf (w.pruned u rel).store := by
  fun_cases w.uninstall u <;> try exact Or.inl rfl
  all_goals exact Or.inr ⟨_, ‹_›, rfl⟩

/-- A row that is stamped for the release can be cast again without adopting. -/
theorem reachable_of_stampedBy {name key : String} {rows : Rows}
    (h : stampedBy name (rows key) = true) (hvol : isVolume (rows key) = true) :
    Reachable name rows key := by
  rintro ref hkind rfl owned
  cases hrow : rows ref.key with
  | none => simp [hrow, isVolume] at hvol
  | some r =>
    rw [hrow] at h hvol
    cases r with
    | volume v =>
      have hown : v.ownedBy.any (fun ob => ob.release = name) = true := by
        simpa [stampedBy, Row.ownedBy] using h
      have hlive : liveLookup rows (fun _ => false) ref = .ok ⟨true, v.ownedBy⟩ := by
        simp [liveLookup, hrow, hkind, Row.kind, Row.ownedBy]
      by_cases howned : ref.key ∈ owned
      · simp [planDesired, hkind, isSharedClusterKind, howned]
      · simp [planDesired, hkind, isSharedClusterKind, howned, hlive, hown]
    | _ => simp [isVolume, Row.volume?] at hvol

/-- An uninstall of a release whose record is the truth about it stays inside the
release and completes. -/
theorem uninstalls_of_accounted
    (h : ∀ rel, w.records (releaseKey u.ns u.name) = some rel → Accounted w u rel) :
    Uninstalls w u := by
  constructor
  · intro key hkey
    rcases w.uninstall_rows u with hrows | ⟨rel, hfound, hrows⟩ <;> rw [hrows]
    have hrec : w.records (releaseKey u.ns u.name) = some rel := by
      cases hread : u.recordUnread <;> simp [recordFound, hread] at hfound
      exact hfound
    exact pruned_inside (h rel hrec).own hkey
  · intro rel hrec hu
    have hacc := h rel hrec
    obtain ⟨hok, hgone⟩ := pruned_ok hacc hu.faults
    rw [uninstall_of_undisturbed hrec hu hok]
    refine ⟨rfl, by simp, fun key hstamp hlive => ?_⟩
    dsimp only at hstamp hlive ⊢
    have hsame : rowsOf (w.pruned u rel).store key = w.rows key := by
      refine rows_pruned fun c hc r hr hk => ?_
      have howned : ownedKind c.ref.resourceType = true := by
        rw [← kind_of_rowOf hr]
        exact ownedKind_kind r
      rw [← hk, hgone c hc howned] at hlive
      cases hlive
    rw [hsame] at hstamp hlive
    rcases hacc.listed key hstamp hlive with ⟨hkeep, hvol⟩ | ⟨c, hc, rfl, howned⟩
    · refine ⟨hkeep, hvol, hsame, reachable_of_stampedBy ?_ ?_⟩
      · rwa [hsame]
      · rwa [hsame]
    · have := hgone c hc howned
      rw [hsame, hlive] at this
      cases this

/-- The step, if it is an uninstall, stays inside its release and completes. -/
def UninstallsProperly (w : Fleet) : Step → Prop
  | .uninstall u => Uninstalls w u
  | _ => True

/-- The step, if it is an uninstall, finds a record that is the truth about its
release. -/
def RecordAccounts (w : Fleet) : Step → Prop
  | .uninstall u => ∀ rel, w.records (releaseKey u.ns u.name) = some rel → Accounted w u rel
  | _ => True

end Fleet

/-- Two releases of one namespace: `api` has a secret, a configmap and a volume, and `web` a
configmap of its own. -/
def twoReleases : Fleet where
  rows key :=
    if key = sharedSecret.key then
      some (.secret { ns := "prod", name := "db", ownedBy := some ⟨"api", 1, "runeset"⟩ })
    else if key = (⟨.configmap, "prod", "cfg"⟩ : OwnerRef).key then
      some (.configmap { ns := "prod", name := "cfg", ownedBy := some ⟨"api", 1, "runeset"⟩ })
    else if key = (⟨.volume, "prod", "data"⟩ : OwnerRef).key then
      some (.volume { ns := "prod", name := "data", ownedBy := some ⟨"api", 1, "runeset"⟩ })
    else if key = (⟨.configmap, "prod", "site"⟩ : OwnerRef).key then
      some (.configmap { ns := "prod", name := "site", ownedBy := some ⟨"web", 1, "runeset"⟩ })
    else none
  records key :=
    if key = releaseKey "prod" "api" then some ⟨"id", "api", "prod", .deployed, 1,
      [sharedSecret, ⟨.configmap, "prod", "cfg"⟩, ⟨.volume, "prod", "data"⟩], []⟩
    else if key = releaseKey "prod" "web" then some ⟨"id", "web", "prod", .deployed, 1,
      [⟨.configmap, "prod", "site"⟩], []⟩
    else none

/-- Uninstall `api` and keep its volume. -/
def uninstallApi : UninstallRequest := { ns := "prod", name := "api", keepVolumes := true }

/-- The hypothesis at the example. -/
theorem twoReleases_accounted (rel : Release)
    (h : twoReleases.records (releaseKey "prod" "api") = some rel) :
    Accounted twoReleases uninstallApi rel := by
  simp only [twoReleases, if_true, Option.some.injEq] at h
  subst h
  have hprunes : uninstallApi.prunes ⟨"id", "api", "prod", .deployed, 1,
      [sharedSecret, ⟨.configmap, "prod", "cfg"⟩, ⟨.volume, "prod", "data"⟩], []⟩ =
      [⟨sharedSecret, .prune, none⟩, ⟨⟨.configmap, "prod", "cfg"⟩, .prune, none⟩] := by decide
  refine ⟨by decide, ?_, by decide, fun key hstamp _ => ?_⟩
  · rintro c hc -
    rw [hprunes] at hc
    rcases List.mem_pair.mp hc with rfl | rfl
    · simp only [twoReleases, if_true]
      exact ⟨_, rfl, rfl, fun s hs => by cases hs⟩
    · have hne : (⟨.configmap, "prod", "cfg"⟩ : OwnerRef).key ≠ sharedSecret.key := by decide
      simp only [twoReleases, hne, if_true, if_false]
      exact ⟨_, rfl, rfl, fun s hs => by cases hs⟩
  · simp only [twoReleases] at hstamp ⊢
    split_ifs at hstamp ⊢ with hsecret hconfig hvolume
    · exact Or.inr ⟨⟨sharedSecret, .prune, none⟩, hprunes ▸ .head _, hsecret.symm, rfl⟩
    · exact Or.inr ⟨⟨⟨.configmap, "prod", "cfg"⟩, .prune, none⟩, hprunes ▸ .tail _ (.head _),
        hconfig.symm, rfl⟩
    · exact Or.inl ⟨rfl, rfl⟩
    · cases hstamp
    · cases hstamp

/-- A cast of a release of one secret and one configmap. -/
def pairCast : CastRequest where
  spec := ⟨"api", "prod", [sharedSecret, ⟨.configmap, "prod", "cfg"⟩], false, false, false⟩
  payloads := ⟨fun _ => none, fun _ => some { ns := "prod", name := "db" },
    fun _ => some { ns := "prod", name := "cfg" }, fun _ => none⟩
  secretLimits := ⟨64, 1024⟩
  configLimits := ⟨64, 1024⟩
  fresh := fun _ => mintedId

end Rune.Cast
