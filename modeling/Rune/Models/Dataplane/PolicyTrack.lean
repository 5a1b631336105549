import Mathlib.Data.List.Perm.Basic
import Rune.Models.Dataplane.PolicySync

/-!
# Policies follow the stored services

What is known of one name is the news still on its way: the events in the queue and those not yet
announced. If replaying them over the tables gives what is stored, the tables are right once there
is no news. A write between the reading and the subscription breaks this, as does the event of a
deletion, which carries no service record and is ignored.
-/

namespace Rune.Dataplane

open Rune.Core Rune.Policy Rune.Services List
open Rune.Store (WatchEventType scopes)

/-- What the events say about a name, in order. -/
def news (k : NamespacedName) (evs : List ServiceEvent) : List (Option Service) :=
  (evs.filter (·.key = k)).map ServiceEvent.resource

/-- What is registered under a name after the next piece of news. It must not be about
another service than the one that is registered. -/
def follow {Net : Type} (parseCIDR : String → Option Net) (o r : Option Service) :
    Option (Option Service) :=
  match r with
  | none => some o
  | some svc => if ∀ s ∈ o, s.id = svc.id then some (policed parseCIDR svc) else none

variable {Net : Type} {parseCIDR : String → Option Net} {home : String → NamespacedName}
  {w v : PolicyWorld Net} {k : NamespacedName}

@[simp] theorem news_append (k : NamespacedName) (evs evs' : List ServiceEvent) :
    news k (evs ++ evs') = news k evs ++ news k evs' := by
  simp [news]

theorem news_cons_self (e : ServiceEvent) (evs : List ServiceEvent) :
    news e.key (e :: evs) = e.resource :: news e.key evs := by
  simp [news]

theorem news_cons_ne {e : ServiceEvent} (h : e.key ≠ k) (evs : List ServiceEvent) :
    news k (e :: evs) = news k evs := by
  simp [news, h]

theorem news_replicate (k : NamespacedName) (n : ℕ) (e : ServiceEvent) :
    news k (List.replicate n e) = if e.key = k then List.replicate n e.resource else [] := by
  simp only [news, filter_replicate, decide_eq_true_eq]
  split <;> simp

/-- Where all events of a name say the same, so does the news. -/
theorem news_eq_replicate {evs : List ServiceEvent} {r : Option Service}
    (hr : ∀ e ∈ evs, e.key = k → e.resource = r) :
    news k evs = List.replicate (news k evs).length r := by
  refine eq_replicate_of_mem fun x hx => ?_
  obtain ⟨e, he, rfl⟩ := mem_map.mp hx
  obtain ⟨hmem, hkey⟩ := mem_filter.mp he
  exact hr e hmem (by simpa using hkey)

/-- Then the order of the events does not matter. -/
theorem news_eq_of_perm {evs evs' : List ServiceEvent} {r : Option Service}
    (hperm : evs.Perm evs') (hr : ∀ e ∈ evs, e.key = k → e.resource = r) :
    news k evs = news k evs' := by
  have hnews : (news k evs).Perm (news k evs') := (hperm.filter _).map _
  rw [news_eq_replicate hr, news_eq_replicate fun e he => hr e (hperm.mem_iff.mpr he),
    hnews.length_eq]

/-- Hearing of a record again changes nothing. -/
theorem exec_follow_replicate (r : Option Service) (n : ℕ) :
    exec (follow parseCIDR) (r.bind (policed parseCIDR)) (List.replicate n r) =
      some (r.bind (policed parseCIDR)) := by
  induction n with
  | zero => rfl
  | succ n ih =>
    have hsame : follow parseCIDR (r.bind (policed parseCIDR)) r =
        some (r.bind (policed parseCIDR)) := by
      cases r with
      | none => rfl
      | some svc =>
        refine if_pos fun s hs => ?_
        rw [(policed_eq_some.mp hs).1]
    exact exec_cons.mpr ⟨_, hsame, ih⟩

theorem deliveries_pos (k : NamespacedName) : 0 < deliveries k := by
  rw [deliveries, Store.count_scopes, if_pos ⟨Or.inr rfl, Or.inl rfl⟩]
  split <;> decide

/-- A service that an event carries is filed under its name and was not deleted. -/
def ServiceEvent.Filed (home : String → NamespacedName) (e : ServiceEvent) : Prop :=
  ∀ svc ∈ e.resource, Dataplane.Filed home e.key svc ∧ e.type ≠ .deleted

/-- The key under which a record is stored. -/
def keyOf (svc : Service) : NamespacedName := ⟨svc.ns, svc.name⟩

namespace PolicyWorld

/-- The service whose policy should hold under a name. -/
def wanted (parseCIDR : String → Option Net) (w : PolicyWorld Net) : Registry :=
  fun k => (w.rows.lookup k).bind (policed parseCIDR)

/-- How the tables stand to the store while the listed rows are taken over. -/
structure Reading (parseCIDR : String → Option Net) (home : String → NamespacedName)
    (w : PolicyWorld Net) (todo : List Service) : Prop where
  queue : w.queue = []
  nodup : (todo.map keyOf).Nodup
  row : ∀ svc ∈ todo, w.rows.lookup (keyOf svc) = some svc
  deleted : ∀ svc ∈ todo, svc.status = .deleted → compile parseCIDR svc = none
  holds : w.tables.Holds parseCIDR home fun k =>
    if k ∈ todo.map keyOf then none else w.wanted parseCIDR k

/-- The news of every name leads from what the tables hold to what they should hold. -/
def Following (parseCIDR : String → Option Net) (home : String → NamespacedName)
    (w : PolicyWorld Net) : Prop :=
  ∃ o, w.tables.Holds parseCIDR home o ∧
    ∀ k, exec (follow parseCIDR) (o k) (news k (w.queue ++ w.announcing)) =
      some (w.wanted parseCIDR k)

/-- What holds in every phase. -/
structure Sound (parseCIDR : String → Option Net) (home : String → NamespacedName)
    (w : PolicyWorld Net) : Prop where
  rows : ∀ k svc, w.rows.lookup k = some svc → Filed home k svc
  queued : ∀ e ∈ w.queue, e.Filed home
  announced : ∀ e ∈ w.announcing, e.Filed home ∧ e.resource = w.rows.lookup e.key
  stopped : w.phase = .stopped → w.queue = [] ∧ w.tables = {}
  listed : ∀ todo, w.phase = .listed todo → w.Reading parseCIDR home todo
  watching : w.phase = .watching → w.Following parseCIDR home

variable {r : Option Service}

/-- A commit writes one row. -/
theorem lookup_commit (k' : NamespacedName) :
    (w.commit k r).rows.lookup k' = if k' = k then r else w.rows.lookup k' := by
  cases r with
  | none => exact lookup_erase_ite _ _ _
  | some svc => exact lookup_insert_ite _ _ _ _

/-- A commit announces its row. -/
theorem news_commit (k' : NamespacedName) :
    news k' (w.commit k r).announcing =
      news k' w.announcing ++ if k = k' then List.replicate (deliveries k) r else [] := by
  simp [commit, news_replicate]

/-- A write that can be followed becomes the last news of its name. -/
theorem Following.commit (h : w.Following parseCIDR home)
    (hmay : w.MayCommit parseCIDR home k r) : (w.commit k r).Following parseCIDR home := by
  obtain ⟨o, ho, hnews⟩ := h
  refine ⟨o, ho, fun k' => ?_⟩
  have hqueue : (w.commit k r).queue = w.queue := rfl
  rw [news_append, news_commit, ← append_assoc, ← news_append, exec_append]
  refine ⟨_, hnews k', ?_⟩
  unfold wanted
  rw [lookup_commit]
  by_cases hk : k' = k
  · subst hk
    obtain ⟨n, hn⟩ := Nat.exists_eq_succ_of_ne_zero (deliveries_pos k').ne'
    rw [if_pos rfl, if_pos rfl, hn]
    refine exec_cons.mpr ⟨_, ?_, exec_follow_replicate r n⟩
    cases r with
    | none =>
      cases hold : w.rows.lookup k' with
      | none => rfl
      | some old =>
        cases hpol : policed parseCIDR old with
        | none => simp [follow, hpol]
        | some s =>
          obtain ⟨svc, hsvc, -⟩ := hmay.same old hold s hpol
          cases hsvc
    | some svc =>
      refine if_pos fun s hs => ?_
      obtain ⟨old, hold, hpol⟩ := Option.bind_eq_some_iff.mp hs
      obtain ⟨svc', hsvc', hid⟩ := hmay.same old hold s hpol
      rw [hid, Option.some.inj hsvc']
  · rw [if_neg (Ne.symm hk), if_neg hk]
    rfl

/-- A commit of the store. -/
theorem Sound.commit (h : w.Sound parseCIDR home) (hmay : w.MayCommit parseCIDR home k r) :
    (w.commit k r).Sound parseCIDR home where
  rows k' svc hlookup := by
    rw [lookup_commit] at hlookup
    split at hlookup
    · rename_i hk
      rw [hk]
      exact hmay.filed svc hlookup
    · exact h.rows k' svc hlookup
  queued := h.queued
  announced e he := by
    rw [lookup_commit]
    rcases mem_append.mp he with hold | hnew
    · rw [if_neg (hmay.announced e hold)]
      exact h.announced e hold
    · rw [eq_of_mem_replicate hnew]
      refine ⟨fun svc hsvc => ⟨hmay.filed svc hsvc, ?_⟩, by simp⟩
      obtain rfl : r = some svc := hsvc
      rw [if_neg (Option.some_ne_none svc)]
      split <;> simp
  stopped := h.stopped
  listed todo hphase := by
    rcases hmay.noGap with hstopped | hwatching
    · exact absurd (hstopped.symm.trans hphase) (by simp)
    · exact absurd (hwatching.symm.trans hphase) (by simp)
  watching hphase := (h.watching hphase).commit hmay

/-- An announcement to a subscriber moves news on and does not change it. -/
theorem Following.emitWatchEvent {i : ℕ} {e : ServiceEvent} (h : w.Following parseCIDR home)
    (hwatching : w.phase = .watching)
    (htold : ∀ e ∈ w.announcing, e.resource = w.rows.lookup e.key)
    (he : w.announcing[i]? = some e) : (w.emitWatchEvent i e).Following parseCIDR home := by
  obtain ⟨o, ho, hnews⟩ := h
  refine ⟨o, ho, fun k => ?_⟩
  obtain ⟨hi, rfl⟩ := List.getElem?_eq_some_iff.mp he
  have hmoved : news k w.announcing = news k (w.announcing[i] :: w.announcing.eraseIdx i) := by
    refine news_eq_of_perm (r := w.rows.lookup k)
      (getElem_cons_eraseIdx_perm hi).symm fun e he hk => ?_
    rw [htold e he, hk]
  have hsame : news k ((w.emitWatchEvent i w.announcing[i]).queue ++ w.announcing.eraseIdx i) =
      news k (w.queue ++ w.announcing) := by
    rw [PolicyWorld.emitWatchEvent, if_pos hwatching, append_assoc, singleton_append,
      news_append, ← hmoved, news_append]
  exact (congrArg _ hsame).trans (hnews k)

/-- The store sends an event. -/
theorem Sound.emitWatchEvent {i : ℕ} {e : ServiceEvent} (h : w.Sound parseCIDR home)
    (he : w.announcing[i]? = some e) : (w.emitWatchEvent i e).Sound parseCIDR home := by
  have hmem : e ∈ w.announcing := mem_of_getElem? he
  refine ⟨h.rows, fun e' he' => ?_, fun e' he' => h.announced e' (mem_of_mem_eraseIdx he'),
    fun hphase => ?_, fun todo hphase => ?_, fun hphase => ?_⟩
  · unfold PolicyWorld.emitWatchEvent at he'
    split at he'
    · rcases mem_append.mp he' with hold | hnew
      · exact h.queued e' hold
      · rw [mem_singleton.mp hnew]
        exact (h.announced e hmem).1
    · exact h.queued e' he'
  · have hstopped : w.phase = .stopped := hphase
    simpa [PolicyWorld.emitWatchEvent, hstopped] using h.stopped hstopped
  · have hlisted : w.phase = .listed todo := hphase
    obtain ⟨hqueue, hnodup, hrow, hdeleted, hholds⟩ := h.listed todo hlisted
    have hqueue' : (w.emitWatchEvent i e).queue = [] := by
      simpa [PolicyWorld.emitWatchEvent, hlisted] using hqueue
    exact ⟨hqueue', hnodup, hrow, hdeleted, hholds⟩
  · have hwatching : w.phase = .watching := hphase
    exact (h.watching hwatching).emitWatchEvent hwatching (fun e' he' => (h.announced e' he').2) he

/-- The rows that are listed. -/
theorem mem_values_iff {svc : Service}
    (hrows : ∀ k svc, w.rows.lookup k = some svc → Filed home k svc) :
    svc ∈ w.rows.entries.map Sigma.snd ↔ w.rows.lookup (keyOf svc) = some svc := by
  constructor
  · intro hmem
    obtain ⟨⟨k, svc'⟩, hentry, rfl⟩ := mem_map.mp hmem
    have hlookup : w.rows.lookup k = some svc' := AList.mem_lookup_iff.mpr hentry
    rw [keyOf, ← (hrows k svc' hlookup).key_eq]
    exact hlookup
  · intro hlookup
    exact mem_map.mpr ⟨⟨keyOf svc, svc⟩, AList.mem_lookup_iff.mp hlookup, rfl⟩

theorem map_keyOf_values (hrows : ∀ k svc, w.rows.lookup k = some svc → Filed home k svc) :
    (w.rows.entries.map Sigma.snd).map keyOf = w.rows.keys := by
  rw [map_map]
  refine map_congr_left fun ⟨k, svc⟩ hentry => ?_
  have hlookup : w.rows.lookup k = some svc := AList.mem_lookup_iff.mpr hentry
  exact (hrows k svc hlookup).key_eq.symm

/-- The list the agent starts with. -/
theorem Sound.list {order : List Service} (h : w.Sound parseCIDR home)
    (hstopped : w.phase = .stopped) (hperm : order.Perm (w.rows.entries.map Sigma.snd))
    (hdeleted : ∀ svc ∈ order, svc.status = .deleted → compile parseCIDR svc = none) :
    { w with phase := .listed order }.Sound parseCIDR home where
  rows := h.rows
  queued := h.queued
  announced := h.announced
  stopped := nofun
  listed todo hphase := by
    obtain rfl : order = todo := by simpa using hphase
    obtain ⟨hqueue, htables⟩ := h.stopped hstopped
    have hkeys : (order.map keyOf).Perm w.rows.keys :=
      map_keyOf_values h.rows ▸ hperm.map keyOf
    refine ⟨hqueue, hkeys.nodup_iff.mpr w.rows.nodupKeys, fun svc hsvc => ?_, hdeleted, ?_⟩
    · exact (mem_values_iff h.rows).mp (hperm.mem_iff.mp hsvc)
    · have hnone : (fun k => if k ∈ order.map keyOf then none else w.wanted parseCIDR k) =
          fun _ => none := by
        funext k
        split
        · rfl
        · rename_i hk
          have hmissing : k ∉ w.rows := fun hin => hk (hkeys.mem_iff.mpr hin)
          simp [wanted, AList.lookup_eq_none.mpr hmissing]
      change w.tables.Holds parseCIDR home
        fun k => if k ∈ order.map keyOf then none else w.wanted parseCIDR k
      rw [hnone, htables]
      exact PolicyTables.holds_empty
  watching := nofun

/-- Where the reading fails there is nothing to take over. -/
theorem Sound.listFails (h : w.Sound parseCIDR home) (hstopped : w.phase = .stopped)
    (hnone : ∀ row ∈ w.rows.entries, policed parseCIDR row.2 = none) :
    { w with phase := .listed [] }.Sound parseCIDR home where
  rows := h.rows
  queued := h.queued
  announced := h.announced
  stopped := nofun
  listed todo hphase := by
    obtain rfl : [] = todo := by simpa using hphase
    obtain ⟨hqueue, htables⟩ := h.stopped hstopped
    have hwanted : w.wanted parseCIDR = fun _ => none := by
      funext k
      cases hrow : w.rows.lookup k with
      | none => simp [wanted, hrow]
      | some svc => simpa [wanted, hrow] using hnone _ (AList.mem_lookup_iff.mp hrow)
    refine ⟨hqueue, nodup_nil, by simp, by simp, ?_⟩
    change w.tables.Holds parseCIDR home fun k => if k ∈ [] then none else w.wanted parseCIDR k
    rw [hwanted, htables]
    simpa using PolicyTables.holds_empty
  watching := nofun

/-- One listed service. -/
theorem Sound.reconcile {svc : Service} {todo : List Service} (h : w.Sound parseCIDR home)
    (hphase : w.phase = .listed (svc :: todo)) (vip : Option String) (bound : Bool) :
    { w with
      phase := .listed todo
      tables := w.tables.reconcileOneService parseCIDR vip bound svc }.Sound parseCIDR home where
  rows := h.rows
  queued := h.queued
  announced := h.announced
  stopped := nofun
  listed todo' hphase' := by
    obtain rfl : todo = todo' := by simpa using hphase'
    have hread := h.listed _ hphase
    have hrow : w.rows.lookup (keyOf svc) = some svc := hread.row svc (by simp)
    have hfiled : Filed home (keyOf svc) svc := h.rows _ _ hrow
    obtain ⟨hnew, hnodup⟩ := nodup_cons.mp hread.nodup
    refine ⟨hread.queue, hnodup, fun s hs => hread.row s (mem_cons_of_mem _ hs),
      fun s hs => hread.deleted s (mem_cons_of_mem _ hs), ?_⟩
    have hholds := hread.holds.reconcileOneService_policed hfiled (by simp)
      (hread.deleted svc (by simp)) vip bound
    have hnext : Function.update
        (fun k => if k ∈ (svc :: todo).map keyOf then none else w.wanted parseCIDR k)
        (keyOf svc) (policed parseCIDR svc) =
        fun k => if k ∈ todo.map keyOf then none else w.wanted parseCIDR k := by
      funext k
      by_cases hk : k = keyOf svc
      · subst hk
        simp [hnew, wanted, hrow]
      · simp [hk]
    rw [hnext] at hholds
    exact hholds
  watching := nofun

/-- The subscription. -/
theorem Sound.subscribe (h : w.Sound parseCIDR home) (hphase : w.phase = .listed []) :
    { w with phase := .watching }.Sound parseCIDR home where
  rows := h.rows
  queued := h.queued
  announced := h.announced
  stopped := nofun
  listed := nofun
  watching _ := by
    have hread := h.listed _ hphase
    refine ⟨w.wanted parseCIDR, by simpa using hread.holds, fun k => ?_⟩
    have hnews : news k w.announcing =
        replicate (news k w.announcing).length (w.rows.lookup k) :=
      news_eq_replicate fun e he hk => by rw [(h.announced e he).2, hk]
    rw [hread.queue, nil_append, hnews]
    exact exec_follow_replicate _ _

end PolicyWorld

/-- Handling an event registers what the news asks for. -/
theorem PolicyTables.Holds.handleServiceWatchEvent {t : PolicyTables Net} {o : Registry}
    {e : ServiceEvent} {next : Option Service} (h : t.Holds parseCIDR home o)
    (hfiled : e.Filed home) (hnext : follow parseCIDR (o e.key) e.resource = some next)
    (vip : Option String) (bound : Bool) :
    (t.handleServiceWatchEvent parseCIDR vip bound e).Holds parseCIDR home
      (Function.update o e.key next) := by
  unfold PolicyTables.handleServiceWatchEvent
  cases hr : e.resource with
  | none =>
    rw [hr] at hnext
    cases hnext
    rw [Function.update_eq_self]
    exact h
  | some svc =>
    obtain ⟨hf, htype⟩ := hfiled svc hr
    simp only [hr, follow] at hnext
    split at hnext
    · rename_i hid
      cases hnext
      dsimp only
      split
      · rename_i hgone
        have hstatus : svc.status = .deleted := hgone.resolve_left htype
        rw [policed_of_deleted hstatus]
        exact h.dropPolicy hf.home_eq hid
      · rename_i hlive
        exact h.reconcileOneService_policed hf hid (fun hs => absurd (Or.inr hs) hlive) vip bound
    · cases hnext

namespace PolicyWorld

/-- Handle the event at the head of the queue. -/
theorem Following.handle {e : ServiceEvent} {queue : List ServiceEvent}
    (h : w.Following parseCIDR home) (hqueue : w.queue = e :: queue) (hfiled : e.Filed home)
    (vip : Option String) (bound : Bool) :
    { w with
      queue := queue
      tables := w.tables.handleServiceWatchEvent parseCIDR vip bound e }.Following
        parseCIDR home := by
  obtain ⟨o, ho, hnews⟩ := h
  have hhead := hnews e.key
  rw [hqueue, cons_append, news_cons_self] at hhead
  obtain ⟨next, hnext, hrest⟩ := exec_cons.mp hhead
  refine ⟨_, ho.handleServiceWatchEvent hfiled hnext vip bound, fun k => ?_⟩
  by_cases hk : k = e.key
  · subst hk
    rw [Function.update_self]
    exact hrest
  · have hother := hnews k
    rw [hqueue, cons_append, news_cons_ne (Ne.symm hk)] at hother
    rw [Function.update_of_ne hk]
    exact hother

/-- One event. -/
theorem Sound.handle {e : ServiceEvent} {queue : List ServiceEvent}
    (h : w.Sound parseCIDR home) (hqueue : w.queue = e :: queue) (vip : Option String)
    (bound : Bool) :
    { w with
      queue := queue
      tables := w.tables.handleServiceWatchEvent parseCIDR vip bound e }.Sound
        parseCIDR home where
  rows := h.rows
  queued e' he' := h.queued e' (by rw [hqueue]; exact mem_cons_of_mem _ he')
  announced := h.announced
  stopped hphase := by
    have hempty := (h.stopped hphase).1
    simp [hqueue] at hempty
  listed todo hphase := by
    have hempty := (h.listed todo hphase).queue
    simp [hqueue] at hempty
  watching hphase := (h.watching hphase).handle hqueue (h.queued e (by simp [hqueue])) vip bound

/-- Only a service record is written back, and under its own name. -/
theorem Sound.writeBack {svc : Service} (h : w.Sound parseCIDR home)
    (hmay : (w.rows.lookup ⟨svc.ns, svc.name⟩).isSome →
      w.MayCommit parseCIDR home ⟨svc.ns, svc.name⟩ (some svc)) :
    (w.writeBack svc).Sound parseCIDR home := by
  unfold PolicyWorld.writeBack
  split
  · rename_i hrow
    exact h.commit (hmay hrow)
  · exact h

/-- One step of an orderly run keeps the invariant. -/
theorem Sound.step {a : Action} (h : w.Sound parseCIDR home)
    (hc : w.Orderly parseCIDR home a) (hstep : w.step parseCIDR a = some v) :
    v.Sound parseCIDR home := by
  revert hstep
  fun_cases w.step parseCIDR a <;> intro hstep <;> try cases hstep
  · exact h.commit hc
  · exact h.commit hc
  · obtain ⟨e, he, rfl⟩ := Option.map_eq_some_iff.mp hstep
    exact h.emitWatchEvent he
  · rename_i hguard
    exact h.list hguard.1 hguard.2 hc
  · exact h.listFails ‹_› hc
  · exact h.reconcile ‹_› _ _
  · exact h.subscribe ‹_›
  · obtain rfl := Option.some.inj hstep
    exact h.handle ‹_› _ _
  · rename_i stored e queue hqueue _ svc hback
    cases stored with
    | false => exact h.handle hqueue _ _
    | true =>
      refine (h.handle hqueue _ _).writeBack fun hrow => ?_
      obtain ⟨hgap, hannounced, hfiled, hsame⟩ := hc rfl e (by simp [hqueue]) svc hback hrow
      exact ⟨hgap, hannounced, hfiled, hsame⟩

/-- Where nothing is on its way the tables hold what they should. -/
theorem Following.holds (h : w.Following parseCIDR home) (hannouncing : w.announcing = [])
    (hqueue : w.queue = []) : w.tables.Holds parseCIDR home (w.wanted parseCIDR) := by
  obtain ⟨o, ho, hnews⟩ := h
  obtain rfl : o = w.wanted parseCIDR := by
    funext k
    have hk := hnews k
    rw [hqueue, hannouncing] at hk
    exact Option.some.inj hk
  exact ho

/-- What the tables then enforce. -/
theorem enforced_of_holds (hrows : ∀ k svc, w.rows.lookup k = some svc → Filed home k svc)
    (h : w.tables.Holds parseCIDR home (w.wanted parseCIDR)) : w.Enforced parseCIDR where
  stored k svc hrow hlive := by
    have hwanted : w.wanted parseCIDR k = policed parseCIDR svc := by simp [wanted, hrow]
    rw [h.policies, h.byName, (hrows k svc hrow).home_eq, hwanted]
    unfold policed
    by_cases hnone : compile parseCIDR svc = none
    · simp [hnone]
    · simp [hnone, hlive]
  only_ids id c hc := by
    rw [h.policies] at hc
    obtain ⟨s, hs, hif⟩ := Option.bind_eq_some_iff.mp hc
    obtain ⟨svc, hrow, hpol⟩ := Option.bind_eq_some_iff.mp hs
    obtain ⟨rfl, hlive, -⟩ := policed_eq_some.mp hpol
    split at hif
    · rename_i hid
      exact ⟨home id, s, hrow, hlive, hid⟩
    · cases hif
  only_names k c hc := by
    rw [h.byName] at hc
    obtain ⟨s, hs, -⟩ := Option.bind_eq_some_iff.mp hc
    obtain ⟨svc, hrow, hpol⟩ := Option.bind_eq_some_iff.mp hs
    obtain ⟨rfl, hlive, -⟩ := policed_eq_some.mp hpol
    exact ⟨s, hrow, hlive⟩

/-- No service with rules for its own connections is without a policy. -/
theorem Enforced.egress {svc : Service} (h : w.Enforced parseCIDR)
    (hrow : w.rows.lookup k = some svc) (hlive : svc.status ≠ .deleted)
    (hrules : egressRules svc ≠ []) :
    ∃ c, w.tables.policies.lookup svc.id = some c ∧ w.tables.policyByName.lookup k = some c ∧
      c.hasEgress := by
  obtain ⟨hid, hname⟩ := h.stored k svc hrow hlive
  obtain ⟨c, hc, hegress⟩ : ∃ c, compile parseCIDR svc = some c ∧ c.hasEgress :=
    compile_of_egressRules hrules
  exact ⟨c, hid.trans hc, hname.trans hc, hegress⟩

/-- Where a run starts. -/
theorem sound_start {rows : AList fun _ : NamespacedName => Service}
    (hrows : ∀ k svc, rows.lookup k = some svc → Filed home k svc) :
    ({ rows } : PolicyWorld Net).Sound parseCIDR home where
  rows := hrows
  queued _ he := nomatch he
  announced _ he := nomatch he
  stopped _ := ⟨rfl, rfl⟩
  listed _ hphase := nomatch hphase
  watching hphase := nomatch hphase

/-- Along every orderly run, whenever all events have been handled the tables hold exactly the
policies of the stored services, so no service with egress rules is unpoliced. -/
theorem policies_track_services {rows : AList fun _ : NamespacedName => Service}
    {acts : List Action} (hrows : ∀ k svc, rows.lookup k = some svc → Filed home k svc)
    (hc : Along (step parseCIDR) (Orderly parseCIDR home) { rows } acts)
    (h : exec (step parseCIDR) { rows } acts = some w) (hsettled : w.Settled) :
    w.Enforced parseCIDR ∧
      ∀ k svc, w.rows.lookup k = some svc → svc.status ≠ .deleted → egressRules svc ≠ [] →
        ∃ c, w.tables.policies.lookup svc.id = some c ∧
          w.tables.policyByName.lookup k = some c ∧ c.hasEgress := by
  have hsound : w.Sound parseCIDR home :=
    exec_invariant_along (fun _ _ _ hs ho hstep => hs.step ho hstep) (sound_start hrows) hc h
  obtain ⟨hwatching, hannouncing, hqueue⟩ := hsettled
  have henforced : w.Enforced parseCIDR :=
    enforced_of_holds hsound.rows ((hsound.watching hwatching).holds hannouncing hqueue)
  exact ⟨henforced, fun k svc => henforced.egress⟩

/-- The name of the service. -/
def webKey : NamespacedName := ⟨"default", "web"⟩

/-- A service that may open connections to `db` only. -/
def webCalling : Service where
  id := "web-1"
  ns := "default"
  name := "web"
  status := .running
  spec := { networkPolicy := some { egress := [{ peers := [{ service := "db" }] }] } }

/-- None of the rules has an address range. -/
def noRange (_ : String) : Option Unit := none

/-- The service is read at the start, and later deleted, forgotten and created again. -/
def recreated : List Action :=
  [.write webKey webCalling, .announce 0, .list [webCalling], .reconcile none true, .subscribe,
    .write webKey { webCalling with status := .deleted }, .announce 0, .handle none true true,
    .remove webKey, .announce 0, .write webKey { webCalling with id := "web-2" },
    .handle none true true, .announce 0, .handle none true true]

/-- A service deleted and created again. -/
theorem policies_track_services_recreated :
    ∃ w, exec (step noRange) { rows := ∅ } recreated = some w ∧ w.Settled ∧
      w.Enforced noRange ∧
      ∀ k svc, w.rows.lookup k = some svc → svc.status ≠ .deleted → egressRules svc ≠ [] →
        ∃ c, w.tables.policies.lookup svc.id = some c ∧
          w.tables.policyByName.lookup k = some c ∧ c.hasEgress := by
  have hc : Along (step noRange) (Orderly noRange fun _ => webKey) { rows := ∅ } recreated := by
    decide
  obtain ⟨w, h, hsettled⟩ : ∃ w, exec (step noRange) { rows := ∅ } recreated = some w ∧
      w.Settled := ⟨_, rfl, rfl, rfl, rfl⟩
  exact ⟨w, h, hsettled, policies_track_services (by simp) hc h hsettled⟩

/-- The service is created after the rows were read and before there is a subscription. -/
def createdInTheGap : List Action :=
  [.list [], .write webKey webCalling, .announce 0, .subscribe]

/-- The row of a service with a policy is deleted without being marked first. -/
def deletedOutright : List Action :=
  [.list [], .subscribe, .write webKey webCalling, .announce 0, .handle none true true,
    .remove webKey, .announce 0, .handle none true true]

/-- A running service with egress rules is left without a policy, and the policy of a service
that is gone stays. -/
theorem unpoliced_and_left_behind :
    (∃ w, exec (step noRange) { rows := ∅ } createdInTheGap = some w ∧ w.Settled ∧
      w.rows.lookup webKey = some webCalling ∧ webCalling.status = .running ∧
      egressRules webCalling ≠ [] ∧ w.tables.policies.lookup webCalling.id = none ∧
      w.tables.policyByName.lookup webKey = none ∧ ¬ w.Enforced noRange) ∧
    ∃ w, exec (step noRange) { rows := ∅ } deletedOutright = some w ∧ w.Settled ∧
      w.rows = ∅ ∧ (w.tables.policies.lookup webCalling.id).isSome ∧
      (w.tables.policyByName.lookup webKey).isSome ∧ ¬ w.Enforced noRange := by
  constructor
  · obtain ⟨w, h, hsettled, hrow, hid, hname⟩ :
        ∃ w, exec (step noRange) { rows := ∅ } createdInTheGap = some w ∧ w.Settled ∧
          w.rows.lookup webKey = some webCalling ∧ w.tables.policies.lookup webCalling.id = none ∧
          w.tables.policyByName.lookup webKey = none :=
      ⟨_, rfl, ⟨rfl, rfl, rfl⟩, by decide, rfl, rfl⟩
    refine ⟨w, h, hsettled, hrow, rfl, by decide, hid, hname, fun henforced => ?_⟩
    obtain ⟨c, hc, -⟩ := henforced.egress hrow (by decide) (by decide)
    rw [hid] at hc
    cases hc
  · obtain ⟨w, h, hsettled, hrows, hid, hname⟩ :
        ∃ w, exec (step noRange) { rows := ∅ } deletedOutright = some w ∧ w.Settled ∧
          w.rows = ∅ ∧ (w.tables.policies.lookup webCalling.id).isSome ∧
          (w.tables.policyByName.lookup webKey).isSome :=
      ⟨_, rfl, ⟨rfl, rfl, rfl⟩, rfl, by decide, by decide⟩
    refine ⟨w, h, hsettled, hrows, hid, hname, fun henforced => ?_⟩
    obtain ⟨c, hc⟩ := Option.isSome_iff_exists.mp hname
    obtain ⟨svc, hrow, -⟩ := henforced.only_names webKey c hc
    rw [hrows] at hrow
    cases hrow

end PolicyWorld

end Rune.Dataplane
