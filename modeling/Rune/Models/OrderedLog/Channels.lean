import Rune.Models.OrderedLog.Machine

/-!
# Watch channels under concurrent ends

Three parties end a subscription: the publisher that finds its buffer full, the
watch's own goroutine, and `Close` through that goroutine. The publisher works on a
snapshot of the subscribers and leaves the goroutine of a dropped subscription
behind. No channel is closed twice or written after closing in a run where no
goroutine detaches a subscription that was dropped or that a publication still has
on its list.
-/

namespace Rune.OrderedLog

open Rune.Core List

/-- The subscriptions that the publication under way will still touch. -/
def Lock.pending : Lock → List ℕ
  | .sending _ todo => todo
  | .dropping _ i todo => i :: todo
  | _ => []

/-- The watch has not handed out its channel. -/
def WatchPhase.early : WatchPhase → Bool
  | .entered | .checked | .backfilled => true
  | _ => false

/-- The subscription `i` is registered or was, and its channel is open. -/
def OpenLive (ws : List Watch) (i : ℕ) : Prop :=
  ∃ w, ws[i]? = some w ∧ w.phase = .live ∧ w.chClosed = false

/-- A channel that was never handed out is open. -/
def EarlyOpen (ws : List Watch) : Prop :=
  ∀ (i : ℕ) (w : Watch), ws[i]? = some w → w.phase.early = true → w.chClosed = false

/-- Everything that is registered or about to be written has an open channel. -/
structure Channels (subs pending : List ℕ) (ws : List Watch) : Prop where
  subs_live : ∀ i ∈ subs, OpenLive ws i
  pending_live : ∀ i ∈ pending, OpenLive ws i
  subs_nodup : subs.Nodup
  pending_nodup : pending.Nodup
  early_open : EarlyOpen ws

variable {subs pending : List ℕ} {ws : List Watch} {i : ℕ} {w w' : Watch}

theorem OpenLive.set {j : ℕ} (h : OpenLive ws j) (hw : ws[i]? = some w)
    (hkeep : w.phase = .live → w.chClosed = false → w'.phase = .live ∧ w'.chClosed = false) :
    OpenLive (ws.set i w') j := by
  obtain ⟨v, hv, hp, ho⟩ := h
  by_cases hij : i = j
  · subst hij
    cases hw.symm.trans hv
    have hi : i < ws.length := (List.getElem?_eq_some_iff.mp hw).1
    exact ⟨w', getElem?_set_self hi, hkeep hp ho⟩
  · exact ⟨v, by rw [getElem?_set_ne hij, hv], hp, ho⟩

theorem OpenLive.set_ne {j : ℕ} (h : OpenLive ws j) (hij : i ≠ j) : OpenLive (ws.set i w') j := by
  obtain ⟨v, hv, hp, ho⟩ := h
  exact ⟨v, by rw [getElem?_set_ne hij, hv], hp, ho⟩

theorem EarlyOpen.set (h : EarlyOpen ws) (hearly : w'.phase.early = true → w'.chClosed = false) :
    EarlyOpen (ws.set i w') := by
  intro j v hv hp
  rcases getElem?_set_cases hv with ⟨-, rfl⟩ | ⟨-, hv⟩
  · exact hearly hp
  · exact h j v hv hp

namespace Channels

variable (h : Channels subs pending ws)
include h

/-- A watch may change as long as its channel stays open. -/
theorem set (hw : ws[i]? = some w)
    (hlive : w.phase = .live → w.chClosed = false → w'.phase = .live ∧ w'.chClosed = false)
    (hearly : w'.phase.early = true → w'.chClosed = false) :
    Channels subs pending (ws.set i w') :=
  { h with
    subs_live := fun j hj => (h.subs_live j hj).set hw hlive
    pending_live := fun j hj => (h.pending_live j hj).set hw hlive
    early_open := h.early_open.set hearly }

/-- A watch that has not handed out its channel may go on or fail. -/
theorem set_early (hw : ws[i]? = some w) (hp : w.phase.early = true)
    (hopen : w'.phase.early = true → w'.chClosed = w.chClosed) :
    Channels subs pending (ws.set i w') := by
  apply h.set hw
  · intro hlive
    rw [hlive] at hp
    cases hp
  · intro he
    rw [hopen he]
    exact h.early_open i w hw hp

/-- A subscription that no publication has on its list may be removed. -/
theorem remove (hi : i ∉ pending) (hlate : w'.phase.early = false) :
    Channels (subs.erase i) pending (ws.set i w') := by
  refine ⟨?_, ?_, h.subs_nodup.erase i, h.pending_nodup, h.early_open.set ?_⟩
  · intro j hj
    obtain ⟨hne, hmem⟩ := (List.Nodup.mem_erase_iff h.subs_nodup).mp hj
    exact (h.subs_live j hmem).set_ne hne.symm
  · intro j hj
    have hne : i ≠ j := fun he => hi (he ▸ hj)
    exact (h.pending_live j hj).set_ne hne
  · intro he
    rw [hlate] at he
    cases he

theorem pending_sublist {pending' : List ℕ} (hs : pending'.Sublist pending) :
    Channels subs pending' ws :=
  { h with
    pending_live := fun j hj => h.pending_live j (hs.subset hj)
    pending_nodup := h.pending_nodup.sublist hs }

/-- A publication starts with the subscribers of the moment. -/
theorem snapshot {order : List ℕ} (hp : order.Perm subs) : Channels subs order ws :=
  { h with
    pending_live := fun j hj => h.subs_live j (hp.subset hj)
    pending_nodup := hp.symm.nodup h.subs_nodup }

/-- A watch is not registered before it registers. -/
theorem register (hw : ws[i]? = some w) (hp : w.phase = .backfilled) :
    Channels (i :: subs) pending (ws.set i { w with phase := .live }) := by
  have hopen : w.chClosed = false := h.early_open i w hw (by rw [hp]; rfl)
  have hkeep : w.phase = .live → w.chClosed = false →
      ({ w with phase := .live } : Watch).phase = .live ∧
        ({ w with phase := .live } : Watch).chClosed = false := fun _ ho => ⟨rfl, ho⟩
  refine ⟨?_, fun j hj => (h.pending_live j hj).set hw hkeep, ?_, h.pending_nodup,
    h.early_open.set fun _ => hopen⟩
  · intro j hj
    rcases mem_cons.mp hj with rfl | hj
    · have hi : j < ws.length := (List.getElem?_eq_some_iff.mp hw).1
      exact ⟨_, getElem?_set_self hi, rfl, hopen⟩
    · exact (h.subs_live j hj).set hw hkeep
  · refine nodup_cons.mpr ⟨?_, h.subs_nodup⟩
    intro hmem
    obtain ⟨v, hv, hlive, _⟩ := h.subs_live i hmem
    cases hw.symm.trans hv
    rw [hp] at hlive
    cases hlive

/-- A new watch. -/
theorem append (fromSeq : ℕ) : Channels subs pending (ws ++ [newWatch fromSeq]) := by
  have hold : ∀ j, OpenLive ws j → OpenLive (ws ++ [newWatch fromSeq]) j := by
    rintro j ⟨v, hv, hp, ho⟩
    exact ⟨v, getElem?_newWatch hv, hp, ho⟩
  refine ⟨fun j hj => hold j (h.subs_live j hj), fun j hj => hold j (h.pending_live j hj),
    h.subs_nodup, h.pending_nodup, ?_⟩
  intro j v hv hp
  rcases getElem?_concat_cases hv with hv | ⟨-, rfl⟩
  · exact h.early_open j v hv hp
  · rfl

/-- `Close` drops the map and only cancels contexts. -/
theorem cancelSubs (subs' : List ℕ) : Channels [] pending (cancelSubs subs' ws) := by
  refine ⟨nofun, fun j hj => ?_, nodup_nil, h.pending_nodup, fun j v hv hp => ?_⟩
  · obtain ⟨v, hv, hp, ho⟩ := h.pending_live j hj
    obtain ⟨u, hu, rfl | rfl⟩ := getElem?_cancelSubs hv
    · exact ⟨_, hu, hp, ho⟩
    · exact ⟨_, hu, hp, ho⟩
  · obtain ⟨u, hu, rfl | rfl⟩ := getElem?_cancelSubs_cases hv
    · exact h.early_open j u hu hp
    · exact h.early_open j v hu hp

end Channels

/-- The invariant of the machine: it has not panicked, and its channels are open
where they are used. -/
structure ChannelInv (m : Machine) : Prop where
  no_panic : m.panicked = none
  channels : Channels (m.subs.getD []) m.lock.pending m.watches

/-- A goroutine detaches its subscription only while the channel is open and no
publication has the subscription on its list. -/
def OrderlyDetach (m : Machine) (a : Action) : Prop :=
  match a with
  | .watch i .detach =>
    i ∉ m.lock.pending ∧ ∀ w, m.watches[i]? = some w → w.chClosed = false
  | _ => True

theorem getD_map_erase (subs : Option (List ℕ)) (i : ℕ) :
    (subs.map fun l : List ℕ => l.erase i).getD [] = (subs.getD []).erase i := by
  cases subs <;> rfl

/-- Removing an open subscription is one close. -/
theorem Machine.removeSub_open (m : Machine) {i : ℕ} {w : Watch} (ho : w.chClosed = false) :
    m.removeSub i w = { m with subs := m.subs.map fun l : List ℕ => l.erase i,
                               watches := m.watches.set i { w with chClosed := true } } := by
  rw [removeSub, ho]
  rfl

/-- Where a run starts. -/
theorem opened_channelInv (opts : BackendOptions) (d : Disk) : ChannelInv (.opened opts d) :=
  ⟨rfl, nofun, nofun, nodup_nil, nodup_nil, nofun⟩

/-- One step, in which a goroutine detaches in order. -/
theorem ChannelInv.step {m m' : Machine} {a : Action} (h : ChannelInv m) (hc : OrderlyDetach m a)
    (hst : m.step a = some m') : ChannelInv m' := by
  obtain ⟨hp, hm⟩ := Machine.step_moves hst
  have hch := h.channels
  cases hm with
  | begin | commit | commitFailed | storeLastSeq | swapMinSeq | snapshotClosed | finish =>
    exact ⟨hp, hch.pending_sublist (nil_sublist _)⟩
  | @snapshot ev order subs hl hs horder =>
    rw [hs] at hch
    exact ⟨hp, by rw [hs]; exact hch.snapshot horder⟩
  | @sendClosed ev i todo w hl hw hclosed =>
    rw [hl] at hch
    obtain ⟨v, hv, _, ho⟩ := hch.pending_live i mem_cons_self
    cases hw.symm.trans hv
    rw [hclosed] at ho
    cases ho
  | @send ev i todo w hl hw ho =>
    rw [hl] at hch
    have htodo := hch.pending_sublist (sublist_cons_self i todo)
    exact ⟨hp, htodo.set hw (fun h₁ h₂ => ⟨h₁, h₂⟩) (fun _ => ho)⟩
  | sendFull hl =>
    rw [hl] at hch
    exact ⟨hp, hch⟩
  | @drop ev i todo w hl hw =>
    rw [hl] at hch
    obtain ⟨v, hv, hlive, ho⟩ := hch.pending_live i mem_cons_self
    cases hw.symm.trans hv
    rw [m.removeSub_open ho]
    refine ⟨hp, ?_⟩
    have hi : i ∉ todo := (nodup_cons.mp hch.pending_nodup).1
    have htodo := hch.pending_sublist (sublist_cons_self i todo)
    simp only [getD_map_erase]
    exact htodo.remove hi (by simp only [hlive, WatchPhase.early])
  | newWatch fromSeq => exact ⟨hp, hch.append fromSeq⟩
  | checkFailed hw hphase | backfillFailed hw hphase =>
    exact ⟨hp, hch.set_early hw (by rw [hphase]; rfl) nofun⟩
  | check hw hphase => exact ⟨hp, hch.set_early hw (by rw [hphase]; rfl) fun _ => rfl⟩
  | backfill hw hphase hl =>
    rw [hl] at hch
    exact ⟨hp, hch.set_early hw (by rw [hphase]; rfl) fun _ => rfl⟩
  | registerClosed hw hphase hl =>
    rw [hl] at hch
    exact ⟨hp, hch.set_early hw (by rw [hphase]; rfl) nofun⟩
  | registerPanic hw hphase hl hclosed =>
    have ho := hch.early_open _ _ hw (by rw [hphase]; rfl)
    rw [hclosed] at ho
    cases ho
  | register hw hphase hl hs =>
    rw [hs, hl] at hch
    exact ⟨hp, hch.register hw hphase⟩
  | @detach i w hw hphase _ =>
    obtain ⟨hi, hopen⟩ := hc
    rw [m.removeSub_open (w := { w with phase := .detached }) (hopen w hw)]
    refine ⟨hp, ?_⟩
    simp only [getD_map_erase]
    exact hch.remove hi rfl
  | @read i w _ _ hw | @cancel i w hw =>
    exact ⟨hp, hch.set hw (fun h₁ h₂ => ⟨h₁, h₂⟩) (hch.early_open i w hw)⟩
  | dropSubs => exact ⟨hp, hch.cancelSubs _⟩
  | _ => exact ⟨hp, hch⟩

/-- In every run in which goroutines detach in order, no channel is closed twice or
written after it was closed. -/
theorem channels_never_panic (opts : BackendOptions) (d : Disk) (acts : List Action)
    (m : Machine) (horderly : Along Machine.step OrderlyDetach (.opened opts d) acts)
    (hrun : exec Machine.step (.opened opts d) acts = some m) : m.panicked = none :=
  (exec_invariant_along (fun _ _ _ hm hc hst => ChannelInv.step hm hc hst)
    (opened_channelInv opts d) horderly hrun).no_panic

/-- A watch of everything from now on. -/
def watchSteps (fromSeq : ℕ) : List Action :=
  [.newWatch fromSeq, .watch 0 .check, .watch 0 .backfill, .watch 0 .register]

/-- A proposal up to its first delivery, with one subscriber. -/
def proposeSteps : List Action :=
  [.propose .begin, .propose (.commit (ascii "test.put") (.ret (.ok [])) none),
    .propose .storeLastSeq, .propose .swapMinSeq, .propose (.snapshot [0]), .propose .send]

/-- The caller gives up, and the goroutine follows. -/
def cancelSteps : List Action := [.watch 0 .cancel, .watch 0 .detach]

/-- A backend whose watchers buffer one event. -/
def bufferOne : BackendOptions := ⟨1, 100⟩

/-- A watch that is cancelled. -/
theorem channels_never_panic_cancelled :
    ∃ m, exec Machine.step (.opened bufferOne (.empty fun _ => none))
        (watchSteps 0 ++ cancelSteps) = some m ∧ m.panicked = none := by
  refine ⟨_, rfl, channels_never_panic bufferOne (.empty fun _ => none)
    (watchSteps 0 ++ cancelSteps) _ ?_ rfl⟩
  refine ⟨trivial, fun s₁ h₁ => ⟨trivial, fun s₂ h₂ => ⟨trivial, fun s₃ h₃ => ⟨trivial,
    fun s₄ h₄ => ⟨trivial, fun s₅ h₅ => ⟨?_, fun s₆ _ => trivial⟩⟩⟩⟩⟩⟩
  cases h₁
  cases h₂
  cases h₃
  cases h₄
  cases h₅
  refine ⟨not_mem_nil, ?_⟩
  intro w hw
  cases hw
  rfl

/-- The second event finds the buffer full, the publisher closes the channel, and the
goroutine closes it again when the caller cancels. -/
theorem channels_panic_dropped :
    ∃ m, exec Machine.step (.opened bufferOne (.empty fun _ => none))
        (watchSteps 0 ++ proposeSteps ++ [.propose .finish] ++ proposeSteps ++
          [.propose .drop, .propose .finish] ++ cancelSteps) = some m ∧
      m.panicked = some .closeOfClosed :=
  ⟨_, rfl, rfl⟩

/-- A goroutine that detaches between the snapshot and the send lets the publisher
write to a closed channel. -/
example : ∃ m, exec Machine.step (.opened bufferOne (.empty fun _ => none))
    (watchSteps 0 ++ proposeSteps.take 5 ++ cancelSteps ++ proposeSteps.drop 5) = some m ∧
      m.panicked = some .sendOnClosed :=
  ⟨_, rfl, rfl⟩

end Rune.OrderedLog
