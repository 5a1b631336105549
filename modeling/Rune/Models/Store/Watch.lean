import Mathlib.Data.List.Nodup
import Rune.Models.Store.UpdateFunc

/-!
# Committed changes and the watchers

An event is dispatched under four texts, one for each scope that may cover it. For a
resource in a namespace these are four different texts, and a watcher that covers it is
registered under one of them. Without a namespace two of the texts are the other two, and
every watcher that covers the resource is told twice. A transaction of several operations
tells nobody.
-/

namespace Rune.Store

open Rune.Core List

variable {R : Type} {enc : Encoding R}

theorem ResourceType.text_ne_empty (t : ResourceType) : t.text ≠ "" := by cases t <;> decide

theorem ResourceType.colon_notMem_text (t : ResourceType) : ':' ∉ t.text.toList := by
  cases t <;> decide

/-- The type behind a text. -/
def ResourceType.ofText (text : String) : Option ResourceType :=
  [service, instanceKind, namespaceKind, scalingOperation, deletionOperation, secret, configmap,
    user, token, policy, auditEvent, volume, storageClass, snapshot, release, savedView,
    alertRule, channel, node, nodeLedger].find? fun t => t.text = text

theorem ResourceType.ofText_text (t : ResourceType) : ofText t.text = some t := by
  cases t <;> decide

/-- A text determines its type. -/
theorem ResourceType.text_injective {t t' : ResourceType} (h : t.text = t'.text) : t = t' := by
  have hsome := ofText_text t
  rw [h, ofText_text] at hsome
  exact (Option.some.inj hsome).symm

/-- What comes before the first separator, and what comes after it. -/
theorem append_separator_inj {α : Type} {a : α} {l l' m m' : List α} (hl : a ∉ l) (hl' : a ∉ l')
    (h : l ++ a :: m = l' ++ a :: m') : l = l' ∧ m = m' := by
  induction l generalizing l' with
  | nil =>
    cases l' with
    | nil => exact ⟨rfl, (cons.inj h).2⟩
    | cons b l' =>
      obtain ⟨rfl, -⟩ := cons.inj h
      exact absurd mem_cons_self hl'
  | cons b l ih =>
    cases l' with
    | nil =>
      obtain ⟨rfl, -⟩ := cons.inj h
      exact absurd mem_cons_self hl
    | cons b' l' =>
      obtain ⟨rfl, hrest⟩ := cons.inj h
      obtain ⟨rfl, hm⟩ := ih (fun hmem => hl (mem_cons_of_mem _ hmem))
        (fun hmem => hl' (mem_cons_of_mem _ hmem)) hrest
      exact ⟨rfl, hm⟩

/-- The text of a scope determines it. -/
theorem WatchSub.scopeKey_inj {t t' : Option ResourceType} {ns ns' : String} :
    scopeKey t ns = scopeKey t' ns' ↔ t = t' ∧ ns = ns' := by
  constructor
  swap
  · rintro ⟨rfl, rfl⟩
    rfl
  intro h
  have hcolon : ∀ t : Option ResourceType,
      ':' ∉ ((t.map ResourceType.text).getD "").toList := by
    intro t
    cases t with
    | none => simp
    | some t => exact t.colon_notMem_text
  have hlist : ((t.map ResourceType.text).getD "").toList ++ ':' :: ns.toList =
      ((t'.map ResourceType.text).getD "").toList ++ ':' :: ns'.toList := by
    have := congrArg String.toList h
    simpa [scopeKey, String.toList_append] using this
  obtain ⟨htype, hns⟩ := append_separator_inj (hcolon t) (hcolon t') hlist
  refine ⟨?_, String.toList_injective hns⟩
  have htext := String.toList_injective htype
  cases t with
  | none =>
    cases t' with
    | none => rfl
    | some t' => exact absurd htext.symm t'.text_ne_empty
  | some t =>
    cases t' with
    | none => exact absurd htext t.text_ne_empty
    | some t' => exact congrArg some (ResourceType.text_injective htext)

/-- The watcher asked for the events of the resource. -/
def WatchSub.Covers (s : WatchSub R) (c : Coord) : Prop :=
  (s.resourceType = none ∨ s.resourceType = some c.resourceType) ∧ (s.ns = "" ∨ s.ns = c.ns)

instance (s : WatchSub R) (c : Coord) : Decidable (s.Covers c) := by
  unfold WatchSub.Covers
  infer_instance

/-- How often an event is dispatched to a watcher. -/
theorem count_scopes (s : WatchSub R) (c : Coord) :
    (scopes c).count s.key = if s.Covers c then (if c.ns = "" then 2 else 1) else 0 := by
  obtain ⟨t, ns, name⟩ := c
  obtain ⟨type, sns, buf, held, delivered⟩ := s
  simp only [scopes, WatchSub.key, count_cons, count_nil, beq_iff_eq,
    WatchSub.scopeKey_inj, WatchSub.Covers]
  cases type with
  | none => by_cases hs : sns = "" <;> by_cases hn : ns = "" <;> grind
  | some type => by_cases ht : type = t <;> grind

/-- A subscription is in the list of its own key, once. -/
theorem count_watchConns {keys : List String} {j : ℕ} {key : String} (hj : keys[j]? = some key)
    (k : String) : (watchConns keys k).count j = if k = key then 1 else 0 := by
  have hlt : j < keys.length := (List.getElem?_eq_some_iff.mp hj).1
  unfold watchConns
  split
  · subst_vars
    rw [count_filter (by simp [hj])]
    exact count_eq_one_of_mem nodup_range (mem_range.mpr hlt)
  · rename_i hne
    refine count_eq_zero.mpr fun hmem => hne ?_
    have hk := (mem_filter.mp hmem).2
    rw [hj] at hk
    simpa using (of_decide_eq_true hk).symm

/-- How often an event is sent. -/
theorem count_dispatch {keys : List String} {j : ℕ} {key : String} (hj : keys[j]? = some key)
    (c : Coord) : (dispatch keys c).count j = (scopes c).count key := by
  unfold dispatch
  induction scopes c with
  | nil => rfl
  | cons k ks ih =>
    rw [flatMap_cons, count_append, ih, count_watchConns hj, count_cons, Nat.add_comm]
    simp

/-- The events of a commit that concern a watcher. -/
def Commit.eventsFor (s : WatchSub R) (c : Commit R) : List (Tagged R) :=
  (c.changes.filter fun ch => s.Covers ch.event.coord).map fun ch => (c.call, ch.event)

/-- The event tells of the change that was committed, given what was stored before. -/
def Change.Describes (enc : Encoding R) (before : Option Bytes) (ch : Change R) : Prop :=
  match ch.event.type with
  | .created => before = none ∧ ∃ r data, ch.event.resource = some r ∧
      enc.marshal r = some data ∧ ch.value = some data
  | .updated => before.isSome ∧ ∃ r data, ch.event.resource = some r ∧
      enc.marshal r = some data ∧ ch.value = some data
  | .deleted => ch.value = none ∧ ∃ val r, before = some val ∧ enc.decode val = some r ∧
      ch.event.resource = some r

/-- All calls have returned. -/
def World.Quiescent (w : World R) : Prop := ∀ r ∈ w.running, ∃ result, r.phase = .done result

/-- Every committed change that a watcher covers has been enqueued to it once, with what was
committed, and nothing else has. -/
structure World.ExactlyOnce (enc : Encoding R) (w : World R) : Prop where
  enqueued : ∀ s ∈ w.subs, s.enqueued.Perm (w.commits.flatMap (Commit.eventsFor s))
  described : ∀ s ∈ w.subs, ∀ ev ∈ s.enqueued, ∃ (n : ℕ) (ch : Change R),
    w.commits[n]? = some ⟨ev.1, [ch]⟩ ∧ ch.event = ev.2 ∧
      ch.Describes enc (view w.init (w.commits.take n) ch.key)

/-- Every committed change that some watcher covers is in a namespace, and no transaction
of several operations made it. -/
def World.Announced (w : World R) : Prop :=
  ∀ c ∈ w.commits, ∀ r, w.running[c.call]? = some r → ∀ ch ∈ c.changes,
    (∃ s ∈ w.subs, s.Covers ch.event.coord) → r.call.isTransaction = false ∧ ch.event.coord.ns ≠ ""

theorem describes_of_attempt {call : Call R} {target t : Option R} {db : String → Option Bytes}
    {reads : List String} {ch : Change R} (hcall : call.isTransaction = false)
    (h : call.attempt enc db target = (.commits reads [ch], t)) : ch.Describes enc (db ch.key) := by
  cases call with
  | create coord resource =>
    simp only [Call.attempt, Call.createAttempt] at h
    repeat' split at h
    all_goals cases h
    exact ⟨Option.not_isSome_iff_eq_none.mp ‹_›, resource, _, rfl, ‹_›, rfl⟩
  | update coord resource source =>
    simp only [Call.attempt, Call.updateAttempt] at h
    repeat' split at h
    all_goals cases h
    exact ⟨‹_›, resource, _, rfl, ‹_›, rfl⟩
  | updateFunc coord zero passed mutate source =>
    obtain ⟨ch', hch, happlied⟩ := applied_of_attempt h
    obtain rfl := singleton_inj.mp hch
    obtain ⟨val, decoded, mutated, hval, -, -, hdata, hsome, hevent⟩ := happlied.result
    obtain ⟨data, hvalue⟩ := Option.isSome_iff_exists.mp hsome
    simp only [Change.Describes, Change.key, hevent, hval]
    exact ⟨rfl, mutated, data, rfl, hdata.trans hvalue, hvalue⟩
  | delete coord =>
    simp only [Call.attempt, Call.deleteAttempt] at h
    repeat' split at h
    all_goals cases h
    exact ⟨rfl, _, _, ‹_›, ‹_›, rfl⟩
  | transaction fn => cases hcall

section Streams

variable {α : Type*} {l l' : List α}

theorem filter_eq_singleton {p : α → Bool} {n : ℕ} {a : α} (ha : l[n]? = some a) (hp : p a)
    (hunique : ∀ m b, l[m]? = some b → p b → m = n) : l.filter p = [a] := by
  induction l generalizing n with
  | nil => cases ha
  | cons b l ih =>
    cases n with
    | zero =>
      cases ha
      have hrest : l.filter p = [] := by
        refine filter_eq_nil_iff.mpr fun c hc hpc => ?_
        obtain ⟨m, hm⟩ := mem_iff_getElem?.mp hc
        exact absurd (hunique (m + 1) c hm hpc) (Nat.succ_ne_zero m)
      rw [filter_cons_of_pos hp, hrest]
    | succ n =>
      have hb : ¬ p b := fun hpb => absurd (hunique 0 b rfl hpb) (Nat.succ_ne_zero n).symm
      rw [filter_cons_of_neg hb]
      exact ih ha fun m c hm hpc => Nat.succ.inj (hunique (m + 1) c hm hpc)

/-- Lists whose parts are rearrangements of each other are rearrangements of each other. -/
theorem perm_of_parts (part : α → ℕ)
    (h : ∀ i, (l.filter fun a => part a = i).Perm (l'.filter fun a => part a = i)) :
    l.Perm l' := by
  classical
  refine perm_iff_count.mpr fun a => ?_
  have hcount := (h (part a)).count_eq a
  rwa [count_filter (by simp), count_filter (by simp)] at hcount

end Streams

section Exactly

variable {w : World R} {i n : ℕ} {s : WatchSub R} {call : Call R} {changes : List (Change R)}

/-- Once all calls have returned, each has changed and told nothing, or has committed and
told. -/
theorem World.fate (hs : w.Sound enc) (hq : w.Quiescent) (i : ℕ) :
    w.Silent i ∨ ∃ r n changes, w.running[i]? = some r ∧ w.Landed enc i r.call n changes ∧
      w.Told i r.call changes := by
  rcases hr : w.running[i]? with _ | r
  · exact .inl (hs.unborn i (List.getElem?_eq_none_iff.mp hr))
  · obtain ⟨result, hphase⟩ := hq r (mem_of_getElem? hr)
    have hsound := hs.calls i r hr
    unfold World.CallSound at hsound
    rw [hphase] at hsound
    cases result with
    | succeeded =>
      obtain ⟨n, changes, hlanded, htold⟩ := hsound
      exact .inr ⟨r, n, changes, rfl, hlanded, htold⟩
    | skipped | failed e => exact .inl hsound

/-- The events of a call that a watcher should be told come from its commits. -/
theorem filter_eventsFor (commits : List (Commit R)) (s : WatchSub R) (i : ℕ) :
    (commits.flatMap (Commit.eventsFor s)).filter (fun ev => ev.1 = i) =
      (commits.filter fun c => c.call = i).flatMap (Commit.eventsFor s) := by
  induction commits with
  | nil => rfl
  | cons c commits ih =>
    rw [flatMap_cons, filter_append, ih]
    by_cases hc : c.call = i
    · have hall : (c.eventsFor s).filter (fun ev => ev.1 = i) = c.eventsFor s := by
        refine filter_eq_self.mpr fun ev hev => ?_
        obtain ⟨ch, _, rfl⟩ := mem_map.mp hev
        simpa using hc
      simp [hc, hall]
    · have hnone : (c.eventsFor s).filter (fun ev => ev.1 = i) = [] := by
        refine filter_eq_nil_iff.mpr fun ev hev => ?_
        obtain ⟨ch, _, rfl⟩ := mem_map.mp hev
        simpa using hc
      simp [hc, hnone]

theorem World.Landed.eq_of_mem (h : w.Landed enc i call n changes) {c : Commit R}
    (hc : c ∈ w.commits) (hcall : c.call = i) : c = ⟨i, changes⟩ := by
  obtain ⟨m, hm⟩ := mem_iff_getElem?.mp hc
  obtain rfl := h.once m c hm hcall
  exact Option.some.inj (hm.symm.trans h.here)

/-- What a landed call sends. -/
theorem World.Landed.eventsFor (h : w.Landed enc i call n changes) (s : WatchSub R) :
    (w.commits.flatMap (Commit.eventsFor s)).filter (fun ev => ev.1 = i) =
      Commit.eventsFor s ⟨i, changes⟩ := by
  have hone : w.commits.filter (fun c => c.call = i) = [⟨i, changes⟩] :=
    filter_eq_singleton h.here (by simp) fun m c hm hc => h.once m c hm (by simpa using hc)
  rw [filter_eventsFor, hone, flatMap_singleton]

/-- A silent call sends nothing. -/
theorem World.Silent.eventsFor (h : w.Silent i) (s : WatchSub R) :
    (w.commits.flatMap (Commit.eventsFor s)).filter (fun ev => ev.1 = i) = [] := by
  rw [filter_eventsFor, filter_eq_nil_iff.mpr, flatMap_nil]
  intro c hc
  simpa using h.commits c hc

theorem World.mem_heard (hs : s ∈ w.subs) : s.eventsOf i ∈ w.heard i :=
  mem_map_of_mem hs

/-- A watcher is told the one event of a call as often as it is dispatched to it. -/
theorem World.Telling.eventsOf {event : WatchEvent R} (h : w.Telling i event [])
    (hs : s ∈ w.subs) : s.eventsOf i =
      List.replicate (if s.Covers event.coord then (if event.coord.ns = "" then 2 else 1) else 0)
        (i, event) := by
  obtain ⟨j, hj⟩ := mem_iff_getElem?.mp hs
  obtain ⟨k, hk, hcount⟩ := h j (s.eventsOf i) (by simp [World.heard, hj])
  have hkey : w.keys[j]? = some s.key := by simp [World.keys, hj]
  rw [count_nil, Nat.add_zero, count_dispatch hkey, count_scopes] at hcount
  rw [hk, hcount]

/-- For one call and one watcher, the events that should be told are told exactly if the call is
no transaction and its change is in a namespace, where the watcher covers it. -/
theorem World.Landed.perm_iff (hlanded : w.Landed enc i call n changes)
    (htold : w.Told i call changes) (hs : s ∈ w.subs) :
    (s.eventsOf i).Perm ((w.commits.flatMap (Commit.eventsFor s)).filter fun ev => ev.1 = i) ↔
      ∀ ch ∈ changes, s.Covers ch.event.coord →
        call.isTransaction = false ∧ ch.event.coord.ns ≠ "" := by
  rw [hlanded.eventsFor, Commit.eventsFor]
  unfold World.Told at htold
  cases htx : call.isTransaction with
  | true =>
    rw [if_pos htx] at htold
    rw [htold _ (World.mem_heard hs), nil_perm, map_eq_nil_iff]
    simp
  | false =>
    rw [htx] at htold
    obtain ⟨ch, rfl, htelling⟩ := htold
    rw [htelling.eventsOf hs]
    by_cases hcover : s.Covers ch.event.coord <;> by_cases hns : ch.event.coord.ns = "" <;>
      simp [hcover, hns]

/-- Whatever is enqueued describes a committed change. -/
theorem World.described (hs : w.Sound enc) (hq : w.Quiescent) (hsub : s ∈ w.subs)
    {ev : Tagged R} (hev : ev ∈ s.enqueued) : ∃ (n : ℕ) (ch : Change R),
      w.commits[n]? = some ⟨ev.1, [ch]⟩ ∧ ch.event = ev.2 ∧
        ch.Describes enc (view w.init (w.commits.take n) ch.key) := by
  have hmem : ev ∈ s.eventsOf ev.1 := mem_filter.mpr ⟨hev, by simp⟩
  have hsome : s.eventsOf ev.1 ≠ [] := ne_nil_of_mem hmem
  rcases World.fate hs hq ev.1 with hsilent | ⟨r, n, changes, hr, hlanded, htold⟩
  · exact absurd (hsilent.events _ (World.mem_heard hsub)) hsome
  · unfold World.Told at htold
    cases htx : r.call.isTransaction with
    | true =>
      rw [if_pos htx] at htold
      exact absurd (htold _ (World.mem_heard hsub)) hsome
    | false =>
      rw [htx] at htold
      obtain ⟨ch, rfl, htelling⟩ := htold
      obtain ⟨reads, target, target', hattempt⟩ := hlanded.serial (by simp)
      rw [htelling.eventsOf hsub] at hmem
      have heq := eq_of_mem_replicate hmem
      exact ⟨n, ch, hlanded.here, (congrArg Prod.snd heq).symm, describes_of_attempt htx hattempt⟩

end Exactly

/-- Once all calls have returned, every committed change has reached every watcher that covers it
exactly once if and only if each of these changes is in a namespace and not of a transaction. -/
theorem exactlyOnce_iff_announced {init : String → Option Bytes}
    {subscribed : List (Option ResourceType × String)} {run : List (Action R)} {w : World R}
    (h : exec (World.step enc) (World.start init subscribed) run = some w) (hq : w.Quiescent) :
    w.ExactlyOnce enc ↔ w.Announced := by
  have hs := World.sound_of_exec h
  constructor
  · rintro hexact c hc r hr ch hch ⟨s, hsub, hcover⟩
    rcases World.fate hs hq c.call with hsilent | ⟨r', n, changes, hr', hlanded, htold⟩
    · exact absurd rfl (hsilent.commits c hc)
    · cases hr.symm.trans hr'
      have hchanges : c.changes = changes :=
        congrArg Commit.changes (hlanded.eq_of_mem hc rfl)
      have hperm := (hexact.enqueued s hsub).filter fun ev => ev.1 = c.call
      exact (hlanded.perm_iff htold hsub).mp hperm ch (hchanges ▸ hch) hcover
  · intro hannounced
    refine ⟨fun s hsub => perm_of_parts Prod.fst fun i => ?_,
      fun s hsub ev hev => World.described hs hq hsub hev⟩
    rcases World.fate hs hq i with hsilent | ⟨r, n, changes, hr, hlanded, htold⟩
    · rw [hsilent.eventsFor]
      exact .of_eq (hsilent.events _ (World.mem_heard hsub))
    · refine (hlanded.perm_iff htold hsub).mpr fun ch hch hcover => ?_
      exact hannounced _ (mem_of_getElem? hlanded.here) r hr ch hch ⟨s, hsub, hcover⟩

/-- The creation of a resource, up to its return. -/
def creation (coord : Coord) : List (Action Bytes) :=
  [.call (.create coord [1]), .begin 0, .finish 0 .ok, .emit 0, .emit 0, .emit 0]

theorem World.quiescent_of_single {w : World R} {r : Running R} {result : Result}
    (hw : w.running = [r]) (hr : r.phase = .done result) : w.Quiescent := by
  intro r' hr'
  rw [hw] at hr'
  obtain rfl := mem_singleton.mp hr'
  exact ⟨result, hr⟩

/-- A resource in a namespace, and two watchers. -/
theorem exactlyOnce_iff_announced_counter :
    ∃ w, exec (World.step plainEncoding)
        (World.start (fun _ => none) [(some .configmap, "default"), (none, "")])
        (creation counter) = some w ∧ w.Quiescent ∧ w.ExactlyOnce plainEncoding := by
  have hrun : ∃ w r ch, exec (World.step plainEncoding)
      (World.start (fun _ => none) [(some .configmap, "default"), (none, "")])
      (creation counter) = some w ∧ w.running = [r] ∧ r.phase = .done .succeeded ∧
      r.call = .create counter [1] ∧ w.commits = [⟨0, [ch]⟩] ∧ ch.event.coord = counter :=
    ⟨_, _, _, rfl, rfl, rfl, rfl, rfl, rfl⟩
  obtain ⟨w, r, ch, hw, hrunning, hphase, hcall, hcommits, hcoord⟩ := hrun
  have hq := World.quiescent_of_single hrunning hphase
  refine ⟨w, hw, hq, (exactlyOnce_iff_announced hw hq).mpr ?_⟩
  intro c hc r' hr' ch' hch' _
  rw [hcommits, mem_singleton] at hc
  subst hc
  obtain rfl : r = r' := by simpa [hrunning] using hr'
  obtain rfl := mem_singleton.mp hch'
  rw [hcall, hcoord]
  exact ⟨rfl, by decide⟩

/-- A resource of the empty namespace. -/
def nodeLedger : Coord := ⟨.nodeLedger, "", "node-1"⟩

/-- The ledger of a node has no namespace. Its watcher is told twice of one creation. -/
theorem ledger_told_twice :
    ∃ w s, exec (World.step plainEncoding) (World.start (fun _ => none) [(some .nodeLedger, "")])
        (creation nodeLedger) = some w ∧ w.Quiescent ∧ w.subs = [s] ∧
      (w.commits.flatMap (Commit.eventsFor s)) = [(0, ⟨.created, nodeLedger, some [1], ""⟩)] ∧
      s.enqueued = [(0, ⟨.created, nodeLedger, some [1], ""⟩),
        (0, ⟨.created, nodeLedger, some [1], ""⟩)] ∧ ¬ w.ExactlyOnce plainEncoding := by
  refine ⟨_, _, rfl, World.quiescent_of_single rfl rfl, rfl, rfl, rfl, fun hexact => ?_⟩
  have hlength := (hexact.enqueued _ mem_cons_self).length_eq
  cases hlength

end Rune.Store
