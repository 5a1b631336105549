import Rune.Models.Store.Watch

/-!
# Watchers and the order of the commits

A call commits and then enqueues its event, with nothing held in between. Two calls on
one key may therefore enqueue in the other order than they committed. If no call commits
on the key while another one has its event of the key still to tell, a subscription holds
the events of the key one commit after the other, and the last event describes what is
stored.
-/

namespace Rune.Store

open Rune.Core List

variable {R : Type} {enc : Encoding R}

/-- The commit writes the key. -/
def Commit.Touches (k : String) (c : Commit R) : Prop := ∃ ch ∈ c.changes, ch.key = k

instance (k : String) (c : Commit R) : Decidable (c.Touches k) := by
  unfold Commit.Touches
  infer_instance

namespace World

/-- The commits that write the key, in order. -/
def commitsOn (w : World R) (k : String) : List (Commit R) :=
  w.commits.filter fun c => c.Touches k

/-- Some call has committed on the key and not told everyone. -/
def Pending (w : World R) (k : String) (i : ℕ) : Prop :=
  ∃ r event todo, w.running[i]? = some r ∧ r.phase = .emitting event todo ∧ makeKey event.coord = k

/-- No call commits on the key while another one has its event still to tell. -/
def Unhurried (enc : Encoding R) (k : String) (w : World R) (a : Action R) : Prop :=
  ∀ v c, w.step enc a = some v → v.commits = w.commits ++ [c] → c.Touches k →
    ∀ i, ¬ w.Pending k i

/-- The commit of one event does not come after the commit of the other. -/
def CommittedBefore (w : World R) (a b : Tagged R) : Prop :=
  ∀ (m n : ℕ) (c d : Commit R), w.commits[m]? = some c → c.call = a.1 →
    w.commits[n]? = some d → d.call = b.1 → m ≤ n

end World

/-- The events of a key at a subscription. -/
def onKey (k : String) (evs : List (Tagged R)) : List (Tagged R) :=
  evs.filter fun ev => makeKey ev.2.coord = k

/-- The event says what is stored. -/
def WatchEvent.Tells (enc : Encoding R) (value : Option Bytes) (event : WatchEvent R) : Prop :=
  match event.type with
  | .deleted => value = none
  | _ => ∃ r data, event.resource = some r ∧ enc.marshal r = some data ∧ value = some data

namespace World

/-- While nobody hurries, a subscription has the events of the key commit by commit, and only the
last commit has its event still to tell. -/
structure Ordered (w : World R) (k : String) : Prop where
  events : ∀ s ∈ w.subs, onKey k s.enqueued = (w.commitsOn k).flatMap fun c => s.eventsOf c.call
  last : ∀ i, w.Pending k i → ∃ earlier c, w.commitsOn k = earlier ++ [c] ∧ c.call = i

variable {w v : World R} {k : String} {i n : ℕ} {r : Running R} {call : Call R}
  {changes : List (Change R)}

/-- A commit is found at one place only. -/
theorem Sound.landed_of_mem (hs : w.Sound enc) {c : Commit R} (hc : c ∈ w.commits) :
    ∃ n call, w.Landed enc c.call call n c.changes := by
  have hborn : ¬ w.Silent c.call := fun hsilent => hsilent.commits c hc rfl
  have hmatch : ∀ {call n changes}, w.Landed enc c.call call n changes →
      ∃ n call, w.Landed enc c.call call n c.changes := by
    intro call n changes hlanded
    have heq := congrArg Commit.changes (hlanded.eq_of_mem hc rfl)
    exact ⟨n, call, heq ▸ hlanded⟩
  rcases hr : w.running[c.call]? with _ | r
  · exact absurd (hs.unborn _ (List.getElem?_eq_none_iff.mp hr)) hborn
  · have hsound := hs.calls _ r hr
    unfold CallSound at hsound
    split at hsound
    case h_5 =>
      obtain ⟨-, n, ch, hlanded, -⟩ := hsound
      exact hmatch hlanded
    case h_6 =>
      obtain ⟨n, changes, hlanded, -⟩ := hsound
      exact hmatch hlanded
    all_goals exact absurd hsound hborn

theorem Sound.place_unique (hs : w.Sound enc) {m n : ℕ} {c d : Commit R}
    (hc : w.commits[m]? = some c) (hd : w.commits[n]? = some d) (hcall : c.call = d.call) :
    m = n := by
  obtain ⟨p, call, hlanded⟩ := hs.landed_of_mem (mem_of_getElem? hc)
  exact (hlanded.once m c hc rfl).trans (hlanded.once n d hd hcall.symm).symm

theorem Sound.nodup_calls (hs : w.Sound enc) : (w.commits.map Commit.call).Nodup := by
  refine pairwise_map.mpr (pairwise_iff_getElem.mpr fun m n hm hn hlt heq => ?_)
  have hplace := hs.place_unique (getElem?_eq_getElem hm) (getElem?_eq_getElem hn) heq
  omega

/-- A step that commits nothing and enqueues nothing keeps the order. -/
theorem Ordered.of_same (ho : w.Ordered k) (hcommits : v.commits = w.commits)
    (hsubs : ∀ s ∈ v.subs, ∃ s' ∈ w.subs, s'.enqueued = s.enqueued)
    (hpending : ∀ i, v.Pending k i → w.Pending k i) : v.Ordered k := by
  have hon : v.commitsOn k = w.commitsOn k := by rw [commitsOn, hcommits, commitsOn]
  refine ⟨fun s hsub => ?_, fun i hi => hon ▸ ho.last i (hpending i hi)⟩
  obtain ⟨s', hs', henqueued⟩ := hsubs s hsub
  have hevents := ho.events s' hs'
  simp only [WatchSub.eventsOf, henqueued] at hevents ⊢
  rw [hon]
  exact hevents

theorem pending_of_set_ne {r' : Running R} (hv : v.running = w.running.set i r') {j : ℕ}
    (hij : i ≠ j) (h : v.Pending k j) : w.Pending k j := by
  obtain ⟨r, event, todo, hr, hp, hkey⟩ := h
  rw [hv, getElem?_set_ne hij] at hr
  exact ⟨r, event, todo, hr, hp, hkey⟩

/-- A call that has nothing to tell after a step is not pending because of it. -/
theorem pending_of_set {r' : Running R} (hv : v.running = w.running.set i r')
    (hphase : ∀ event todo, r'.phase = .emitting event todo → makeKey event.coord ≠ k) {j : ℕ}
    (h : v.Pending k j) : w.Pending k j := by
  by_cases hij : i = j
  · obtain ⟨r, event, todo, hr, hp, hkey⟩ := h
    subst hij
    rw [hv] at hr
    obtain ⟨hi, heq⟩ := List.getElem?_eq_some_iff.mp hr
    rw [getElem_set_self] at heq
    exact absurd hkey (hphase event todo (heq ▸ hp))
  · exact pending_of_set_ne hv hij h

theorem Ordered.of_set (ho : w.Ordered k) {r' : Running R}
    (hphase : ∀ event todo, r'.phase ≠ .emitting event todo) : (w.set i r').Ordered k :=
  ho.of_same rfl (fun s hs => ⟨s, hs, rfl⟩) fun _ hj =>
    pending_of_set rfl (fun event todo hp => absurd hp (hphase event todo)) hj

/-- A commit. -/
theorem Ordered.committed {c : Commit R} {r' : Running R} (ho : w.Ordered k)
    (hsilent : w.Silent c.call) (hv : v.running = w.running.set c.call r')
    (hphase : ∀ event todo, r'.phase = .emitting event todo → ∃ ch ∈ c.changes, ch.event = event)
    (hcommits : v.commits = w.commits ++ [c]) (hsubs : v.subs = w.subs)
    (hunhurried : c.Touches k → ∀ i, ¬ w.Pending k i) : v.Ordered k := by
  by_cases htouch : c.Touches k
  · have hon : v.commitsOn k = w.commitsOn k ++ [c] := by
      rw [commitsOn, hcommits, commitsOn]
      simp [htouch]
    refine ⟨fun s hsub => ?_, fun i hi => ?_⟩
    · rw [hsubs] at hsub
      rw [hon, flatMap_append, flatMap_singleton,
        hsilent.events _ (World.mem_heard hsub), append_nil]
      exact ho.events s hsub
    · by_cases hic : i = c.call
      · exact ⟨_, c, hon, hic.symm⟩
      · exact absurd (pending_of_set_ne hv (Ne.symm hic) hi) (hunhurried htouch i)
  · have hon : v.commitsOn k = w.commitsOn k := by
      rw [commitsOn, hcommits, commitsOn]
      simp [htouch]
    refine ⟨fun s hsub => ?_, fun i hi => ?_⟩
    · rw [hon]
      exact ho.events s (hsubs ▸ hsub)
    · rw [hon]
      refine ho.last i (pending_of_set hv (fun event todo hp hkey => htouch ?_) hi)
      obtain ⟨ch, hch, rfl⟩ := hphase event todo hp
      exact ⟨ch, hch, hkey⟩

theorem enqueued_enqueue (s : WatchSub R) (ev : Tagged R) :
    (s.enqueue ev).enqueued = s.enqueued ++ [ev] := by
  simp [WatchSub.enqueue, WatchSub.enqueued]

theorem eventsOf_enqueue (s : WatchSub R) (ev : Tagged R) (i : ℕ) :
    (s.enqueue ev).eventsOf i = s.eventsOf i ++ if ev.1 = i then [ev] else [] := by
  split <;> simp_all [WatchSub.eventsOf, enqueued_enqueue]

theorem onKey_enqueue (s : WatchSub R) (ev : Tagged R) :
    onKey k (s.enqueue ev).enqueued =
      onKey k s.enqueued ++ if makeKey ev.2.coord = k then [ev] else [] := by
  split <;> simp_all [onKey, enqueued_enqueue]

theorem mem_modify {α : Type*} {l : List α} {f : α → α} {j : ℕ} {a : α} (h : a ∈ l.modify j f) :
    a ∈ l ∨ ∃ b ∈ l, a = f b := by
  obtain ⟨m, hm⟩ := mem_iff_getElem?.mp h
  rw [getElem?_modify] at hm
  obtain ⟨b, hb, rfl⟩ := Option.map_eq_some_iff.mp hm
  split
  · exact .inr ⟨b, mem_of_getElem? hb, rfl⟩
  · exact .inl (mem_of_getElem? hb)

/-- An event that is enqueued comes after all others of its key. -/
theorem Ordered.enqueued {event : WatchEvent R} (hs : w.Sound enc) (ho : w.Ordered k)
    (hlanded : ∃ n ch, w.Landed enc i call n [ch] ∧ ch.event = event)
    (hpending : makeKey event.coord = k → w.Pending k i) {s : WatchSub R} (hsub : s ∈ w.subs) :
    onKey k (s.enqueue (i, event)).enqueued =
      (w.commitsOn k).flatMap fun c => (s.enqueue (i, event)).eventsOf c.call := by
  obtain ⟨n, ch, hlanded, rfl⟩ := hlanded
  have hnodup : ((w.commitsOn k).map Commit.call).Nodup :=
    hs.nodup_calls.sublist ((filter_sublist).map _)
  have hothers : ∀ cs : List (Commit R), (∀ c ∈ cs, c.call ≠ i) →
      (cs.flatMap fun c => (s.enqueue (i, ch.event)).eventsOf c.call) =
        cs.flatMap fun c => s.eventsOf c.call := by
    intro cs hcs
    refine flatMap_congr fun c hc => ?_
    rw [eventsOf_enqueue, if_neg (Ne.symm (hcs c hc)), append_nil]
  rw [onKey_enqueue, ho.events s hsub]
  by_cases hkey : makeKey ch.event.coord = k
  · obtain ⟨earlier, c, hon, rfl⟩ := ho.last i (hpending hkey)
    rw [hon, map_append, nodup_append] at hnodup
    have hearlier : ∀ c' ∈ earlier, c'.call ≠ c.call := fun c' hc' =>
      hnodup.2.2 _ (mem_map_of_mem hc') _ (by simp)
    rw [hon, flatMap_append, flatMap_append, hothers earlier hearlier, if_pos hkey,
      flatMap_singleton, flatMap_singleton, eventsOf_enqueue, if_pos rfl, append_assoc]
  · rw [if_neg hkey, append_nil, hothers]
    intro c hc hcall
    obtain ⟨hmem, htouch⟩ := mem_filter.mp hc
    obtain rfl := hlanded.eq_of_mem hmem hcall
    obtain ⟨ch', hch', hkey'⟩ := of_decide_eq_true htouch
    obtain rfl := mem_singleton.mp hch'
    exact hkey hkey'

/-- One unhurried move. -/
theorem Ordered.move {a : Action R} (hs : w.Sound enc) (ho : w.Ordered k)
    (hm : Moves enc w a v)
    (hunhurried : ∀ c, v.commits = w.commits ++ [c] → c.Touches k → ∀ i, ¬ w.Pending k i) :
    v.Ordered k := by
  cases hm with
  | called call =>
    refine ho.of_same rfl (fun s hs => ⟨s, hs, rfl⟩) fun i hi => ?_
    obtain ⟨r, event, todo, hr, hp, hkey⟩ := hi
    rcases Nat.lt_or_ge i w.running.length with hlt | hge
    · rw [getElem?_append_left hlt] at hr
      exact ⟨r, event, todo, hr, hp, hkey⟩
    · rw [getElem?_append_right hge] at hr
      obtain rfl := mem_singleton.mp (mem_of_getElem? hr)
      cases hp
  | began | returned => exact ho.of_set nofun
  | gaveUp hr hphase hcall hafter =>
    refine ho.of_set fun _ _ hp => ?_
    rcases hafter with hq | hq | ⟨e, hq⟩ <;> cases hq.symm.trans hp
  | @committed i snapshot r reads changes target hr hphase hattempt hvalid =>
    have hsilent := hs.silent hr (.inr ⟨snapshot, hphase⟩)
    refine ho.committed hsilent rfl ?_ rfl rfl (hunhurried _ rfl)
    intro event todo hp
    simp only [Running.afterCommit] at hp
    split at hp
    · rename_i ch
      split at hp
      · cases hp
      · cases hp
        exact ⟨ch, mem_singleton_self ch, rfl⟩
    · cases hp
  | @enqueued i j r event todo hr hphase =>
    have hsound := hs.calls i r hr
    unfold CallSound at hsound
    rw [hphase] at hsound
    obtain ⟨-, n, ch, hlanded, hevent, -⟩ := hsound
    have hpending : makeKey event.coord = k → w.Pending k i := fun hkey =>
      ⟨r, event, j :: todo, hr, hphase, hkey⟩
    refine ⟨fun s hsub => ?_, fun m hm => ho.last m ?_⟩
    · rcases mem_modify hsub with hsub | ⟨s', hs', rfl⟩
      · exact ho.events s hsub
      · exact ho.enqueued hs ⟨n, ch, hlanded, hevent⟩ hpending hs'
    · by_cases hkey : makeKey event.coord = k
      · by_cases him : m = i
        · exact him ▸ hpending hkey
        · exact pending_of_set_ne rfl (Ne.symm him) hm
      · refine pending_of_set rfl (fun event' todo' hp => ?_) hm
        cases hp
        exact hkey
  | @pumped _ j s s' _ hj _ henqueued =>
    refine ho.of_same rfl (fun t ht => ?_) fun _ hi => hi
    rcases mem_or_eq_of_mem_set ht with ht | rfl
    · exact ⟨t, ht, rfl⟩
    · exact ⟨s, mem_of_getElem? hj, henqueued.symm⟩

/-- Where a run starts. -/
theorem ordered_start (init : String → Option Bytes)
    (subscribed : List (Option ResourceType × String)) (k : String) :
    (World.start (R := R) init subscribed).Ordered k := by
  refine ⟨fun s hs => ?_, fun i hi => ?_⟩
  · obtain ⟨scope, _, rfl⟩ := mem_map.mp hs
    rfl
  · obtain ⟨r, event, todo, hr, -⟩ := hi
    cases hr

/-- Where nobody hurries, every run keeps the order. -/
theorem ordered_of_exec {init : String → Option Bytes}
    {subscribed : List (Option ResourceType × String)} {run : List (Action R)}
    (hcond : Along (World.step enc) (World.Unhurried enc k) (World.start init subscribed) run)
    (h : exec (World.step enc) (World.start init subscribed) run = some w) : w.Ordered k := by
  have hstep : ∀ (u : World R) a v, u.Sound enc ∧ u.Ordered k → u.Unhurried enc k a →
      u.step enc a = some v → v.Sound enc ∧ v.Ordered k := by
    rintro u a v ⟨hs, ho⟩ hu hv
    have hm := moves_of_step hv
    exact ⟨hs.move hm, ho.move hs hm fun c => hu v c hv⟩
  exact (exec_invariant_along hstep
    ⟨sound_start enc init subscribed, ordered_start init subscribed k⟩ hcond h).2

/-- Events that stand commit by commit stand in the order of the commits. -/
theorem Ordered.pairwise (hs : w.Sound enc) (ho : w.Ordered k) {s : WatchSub R}
    (hsub : s ∈ w.subs) : (onKey k s.enqueued).Pairwise w.CommittedBefore := by
  rw [ho.events s hsub, pairwise_flatMap]
  have htag : ∀ {j ev}, ev ∈ s.eventsOf j → ev.1 = j := fun hev => by
    simpa using (mem_filter.mp hev).2
  constructor
  · intro c _
    refine pairwise_of_forall_mem_list fun a ha b hb m n d e hd had he hbe => ?_
    have hcall : d.call = e.call := by rw [had, hbe, htag ha, htag hb]
    exact (hs.place_unique hd he hcall).le
  · have hpositions : w.commits.Pairwise fun c d => ∀ a ∈ s.eventsOf c.call,
        ∀ b ∈ s.eventsOf d.call, w.CommittedBefore a b := by
      refine pairwise_iff_getElem.mpr fun m n hm hn hlt a ha b hb m' n' d e hd had he hbe => ?_
      have hm' := hs.place_unique hd (getElem?_eq_getElem hm) (had.trans (htag ha))
      have hn' := hs.place_unique he (getElem?_eq_getElem hn) (hbe.trans (htag hb))
      omega
    exact hpositions.filter _

theorem exists_last_of_mem {α : Type*} {l : List α} {p : α → Prop} [DecidablePred p]
    (h : ∃ a ∈ l, p a) : ∃ before a after, l = before ++ a :: after ∧ p a ∧ ∀ b ∈ after, ¬ p b := by
  obtain ⟨a, ha, hp⟩ := h
  have hfind : (l.reverse.find? fun a => decide (p a)).isSome :=
    find?_isSome.mpr ⟨a, mem_reverse.mpr ha, decide_eq_true hp⟩
  obtain ⟨b, hb⟩ := Option.isSome_iff_exists.mp hfind
  obtain ⟨hpb, after, before, hl, hafter⟩ := find?_eq_some_iff_append.mp hb
  refine ⟨before.reverse, b, after.reverse, ?_, of_decide_eq_true hpb, by simpa using hafter⟩
  simpa using congrArg reverse hl

/-- The value under a key is the one that the last commit on it has left. -/
theorem view_of_last {init : String → Option Bytes} {before after : List (Commit R)} {i : ℕ}
    {ch : Change R} (hafter : ∀ c ∈ after, ¬ c.Touches ch.key) :
    view init (before ++ ⟨i, [ch]⟩ :: after) ch.key = ch.value := by
  have hsplit : before ++ ⟨i, [ch]⟩ :: after = (before ++ [⟨i, [ch]⟩]) ++ after := by simp
  rw [hsplit, view, stored, flatMap_append, replay_append, replay_of_unwritten]
  · exact view_concat_single
  · intro w hw hkey
    obtain ⟨c, hc, hwc⟩ := mem_flatMap.mp hw
    obtain ⟨ch', hch', rfl⟩ := mem_map.mp hwc
    exact hafter c hc ⟨ch', hch', hkey⟩

theorem tells_of_describes {ch : Change R} {before : Option Bytes}
    (h : ch.Describes enc before) : ch.event.Tells enc ch.value := by
  unfold Change.Describes at h
  unfold WatchEvent.Tells
  cases htype : ch.event.type <;> rw [htype] at h
  · exact h.2
  · exact h.2
  · exact h.1

/-- Once all calls have returned, the last event of the key says what is stored. -/
theorem Ordered.last_tells (hs : w.Sound enc) (ho : w.Ordered k) (hq : w.Quiescent)
    (hcalls : ∀ r ∈ w.running, r.call.isTransaction = false) {s : WatchSub R} (hsub : s ∈ w.subs)
    (hcover : ∀ c ∈ w.commits, ∀ ch ∈ c.changes, ch.key = k → s.Covers ch.event.coord)
    (hsome : ∃ c ∈ w.commits, c.Touches k) :
    ∃ ev, (onKey k s.enqueued).getLast? = some ev ∧ ev.2.Tells enc (view w.init w.commits k) := by
  obtain ⟨before, c, after, hcommits, htouch, hafter⟩ := exists_last_of_mem hsome
  have hmem : c ∈ w.commits := by simp [hcommits]
  rcases World.fate hs hq c.call with hsilent | ⟨r, n, changes, hr, hlanded, htold⟩
  · exact absurd rfl (hsilent.commits c hmem)
  have htx := hcalls r (mem_of_getElem? hr)
  rw [World.Told, htx] at htold
  obtain ⟨ch, rfl, htelling⟩ := htold
  obtain ⟨reads, target, target', hattempt⟩ := hlanded.serial (by simp)
  have hc : c = ⟨c.call, [ch]⟩ := hlanded.eq_of_mem hmem rfl
  have hkey : ch.key = k := by
    rw [hc] at htouch
    obtain ⟨ch', hch', hkey⟩ := htouch
    exact mem_singleton.mp hch' ▸ hkey
  have hcovers : s.Covers ch.event.coord :=
    hcover c hmem ch (by rw [hc]; exact mem_singleton_self ch) hkey
  refine ⟨(c.call, ch.event), ?_, ?_⟩
  · have hnone : (after.filter fun c => c.Touches k) = [] :=
      filter_eq_nil_iff.mpr (by simpa using hafter)
    have hon : w.commitsOn k = (before.filter fun c => c.Touches k) ++ [c] := by
      rw [commitsOn, hcommits, filter_append, filter_cons_of_pos (by simpa using htouch), hnone]
    rw [ho.events s hsub, hon, flatMap_append, flatMap_singleton,
      htelling.eventsOf hsub, if_pos hcovers]
    split <;> simp [getLast?_append]
  · have hvalue : view w.init w.commits k = ch.value := by
      rw [hcommits, hc, ← hkey]
      exact view_of_last (hkey ▸ hafter)
    rw [hvalue]
    exact tells_of_describes (describes_of_attempt htx hattempt)

end World

/-- Where no call commits on the key while another one has its event still to tell, a watcher
receives the events of the key in the order of the commits, and the last one it has when all is
quiet says what is stored. -/
theorem delivered_in_commit_order {init : String → Option Bytes}
    {subscribed : List (Option ResourceType × String)} {run : List (Action R)} {w : World R}
    {k : String} (h : exec (World.step enc) (World.start init subscribed) run = some w)
    (hcalls : ∀ r ∈ w.running, r.call.isTransaction = false)
    (hcond : Along (World.step enc) (World.Unhurried enc k) (World.start init subscribed) run)
    {s : WatchSub R} (hsub : s ∈ w.subs)
    (hcover : ∀ c ∈ w.commits, ∀ ch ∈ c.changes, ch.key = k → s.Covers ch.event.coord) :
    (onKey k s.delivered).Pairwise w.CommittedBefore ∧
      (w.Quiescent → s.buf = [] → s.held = none → (∃ c ∈ w.commits, c.Touches k) →
        ∃ ev, (onKey k s.delivered).getLast? = some ev ∧
          ev.2.Tells enc (view w.init w.commits k)) := by
  have hs := World.sound_of_exec h
  have ho := World.ordered_of_exec hcond h
  constructor
  · refine (ho.pairwise hs hsub).sublist (List.Sublist.filter _ ?_)
    rw [WatchSub.enqueued, append_assoc]
    exact sublist_append_left _ _
  · intro hq hbuf hheld hsome
    have hall : s.enqueued = s.delivered := by simp [WatchSub.enqueued, hbuf, hheld]
    rw [← hall]
    exact ho.last_tells hs hq hcalls hsub hcover hsome

theorem World.unhurried_of_idle {w : World R} {k : String} {a : Action R}
    (h : ∀ r ∈ w.running, ∀ event todo, r.phase ≠ .emitting event todo) :
    w.Unhurried enc k a := by
  rintro v c - - - i ⟨r, event, todo, hr, hp, -⟩
  exact h r (mem_of_getElem? hr) event todo hp

/-- Only the end of a transaction can be a commit. -/
theorem World.unhurried_of_ne {w : World R} {k : String} {a : Action R}
    (h : ∀ i answer, a ≠ .finish i answer) : w.Unhurried enc k a := by
  intro v c hv hc
  have hsame : v.commits = w.commits := by
    cases moves_of_step hv with
    | gaveUp | committed => exact absurd rfl (h _ _)
    | _ => rfl
  simp [hsame] at hc

/-- Call `i` updates the counter and tells the one watcher. -/
def updateSteps (i : ℕ) (v : Bytes) : List (Action Bytes) :=
  [Action.call (.update counter v ""), Action.begin i] ++ Action.finish i .ok ::
    [Action.emit i, Action.emit i]

/-- Two updates, one after the other, and the watcher reads both events. -/
def twoUpdates : List (Action Bytes) :=
  updateSteps 0 [1] ++ (updateSteps 1 [2] ++ [.take 0, .deliver 0, .take 0, .deliver 0])

/-- An update that commits while nobody has an event to tell is unhurried. -/
theorem unhurried_updateSteps {w : World Bytes} {i : ℕ} {v : Bytes} {k : String}
    (hidle : ∀ t, exec (World.step plainEncoding) w
        [Action.call (.update counter v ""), Action.begin i] = some t →
      ∀ r ∈ t.running, ∀ event todo, r.phase ≠ .emitting event todo) :
    Along (World.step plainEncoding) (World.Unhurried plainEncoding k) w (updateSteps i v) := by
  refine Along.append (Along.of_forall (fun a ha _ => World.unhurried_of_ne ?_) _) fun t ht =>
    ⟨World.unhurried_of_idle (hidle t ht), fun u _ =>
      Along.of_forall (fun a ha _ => World.unhurried_of_ne ?_) u⟩
  · rintro i answer rfl
    simp at ha
  · rintro i answer rfl
    simp at ha

theorem unhurried_twoUpdates :
    Along (World.step plainEncoding) (World.Unhurried plainEncoding (makeKey counter))
      (World.start (fun _ => some []) [(some .configmap, "default")]) twoUpdates := by
  refine .append (unhurried_updateSteps fun t ht r hr event todo hp => ?_) fun u hu =>
    .append (unhurried_updateSteps fun t ht r hr event todo hp => ?_) fun _ _ =>
      Along.of_forall (fun a ha _ => World.unhurried_of_ne ?_) _
  · cases ht
    obtain rfl := mem_singleton.mp hr
    cases hp
  · cases hu
    cases ht
    obtain rfl | rfl := mem_pair.mp hr <;> cases hp
  · rintro i answer rfl
    simp at ha

/-- The watcher has the two events in the order of the two commits, and the second one says what
is stored. -/
theorem delivered_in_commit_order_twoUpdates :
    ∃ w s, exec (World.step plainEncoding)
        (World.start (fun _ => some []) [(some .configmap, "default")]) twoUpdates = some w ∧
      s ∈ w.subs ∧ (onKey (makeKey counter) s.delivered).length = 2 ∧
      (onKey (makeKey counter) s.delivered).Pairwise w.CommittedBefore ∧
      ∃ ev, (onKey (makeKey counter) s.delivered).getLast? = some ev ∧
        ev.2.Tells plainEncoding (some [2]) := by
  obtain ⟨w, s, c, d, hw, hsubs, hcalls, hbuf, hheld, hlen, hcommits, hc, hd, hview⟩ :
      ∃ w s c d, exec (World.step plainEncoding)
        (World.start (fun _ => some []) [(some .configmap, "default")]) twoUpdates = some w ∧
      w.subs = [s] ∧
      w.running.map (fun r => (r.call.isTransaction, r.phase)) =
        [(false, .done .succeeded), (false, .done .succeeded)] ∧
      s.buf = [] ∧ s.held = none ∧ (onKey (makeKey counter) s.delivered).length = 2 ∧
      w.commits = [⟨0, [c]⟩, ⟨1, [d]⟩] ∧
      (c.key = makeKey counter ∧ s.Covers c.event.coord) ∧ s.Covers d.event.coord ∧
      view w.init w.commits (makeKey counter) = some [2] :=
    ⟨_, _, _, _, rfl, rfl, rfl, rfl, rfl, rfl, rfl, by decide, by decide, rfl⟩
  have hrunning : ∀ r ∈ w.running, r.call.isTransaction = false ∧ r.phase = .done .succeeded := by
    intro r hr
    have hmem := mem_map_of_mem (f := fun r => (r.call.isTransaction, r.phase)) hr
    rw [hcalls] at hmem
    simpa using hmem
  have hsub : s ∈ w.subs := by simp [hsubs]
  obtain ⟨hpairs, hlast⟩ := delivered_in_commit_order hw (fun r hr => (hrunning r hr).1)
    unhurried_twoUpdates hsub (by simp [hcommits, hc.2, hd])
  rw [hview] at hlast
  refine ⟨w, s, hw, hsub, hlen, hpairs, hlast (fun r hr => ⟨_, (hrunning r hr).2⟩) hbuf hheld
    ⟨⟨0, [c]⟩, ?_, c, mem_singleton_self c, hc.1⟩⟩
  rw [hcommits]
  exact mem_cons_self

/-- Two updates of one key whose events overtake each other. -/
def overtaking : List (Action Bytes) :=
  [.call (.update counter [1] ""), .call (.update counter [2] ""), .begin 0, .finish 0 .ok,
    .begin 1, .finish 1 .ok, .emit 1, .emit 0, .emit 1, .emit 0,
    .take 0, .deliver 0, .take 0, .deliver 0]

/-- The last event delivered says the value of the first commit. -/
theorem last_event_is_stale :
    ∃ w s, exec (World.step plainEncoding)
        (World.start (fun _ => some []) [(some .configmap, "default")]) overtaking = some w ∧
      w.running.map (fun r => r.phase) = [.done .succeeded, .done .succeeded] ∧ w.subs = [s] ∧
      s.buf = [] ∧ s.held = none ∧ w.commits.map Commit.call = [0, 1] ∧
      s.delivered = [(1, ⟨.updated, counter, some [2], ""⟩),
        (0, ⟨.updated, counter, some [1], ""⟩)] ∧
      view w.init w.commits (makeKey counter) = some [2] :=
  ⟨_, _, rfl, rfl, rfl, rfl, rfl, rfl, rfl, rfl⟩

end Rune.Store
