import Rune.Models.Vip.Mirror
import Mathlib.Data.List.Perm.Basic

/-!
# Giving up a VIP

`Release` queues the address of a service, and a worker releases it when a cooldown is over, by
address and without looking who has it then. Calls and the worker interleave at every access to
the mirror, the queue and the log. A service that allocates again inside the cooldown gets the
address it is about to lose; one whose calls begin only when no earlier release of it is under way
keeps what it was given.
-/

namespace Rune.Vip

open Rune.Core List

/-- A call of `Allocate` or `Release`, at the access it makes next. -/
inductive Goroutine where
  /-- `Allocate` is about to look into the mirror. -/
  | allocating (serviceID : String)
  | proposing (serviceID : String)
  /-- The proposal succeeded, and the mirror is read again. -/
  | proposed (serviceID : String)
  /-- `Allocate` has returned this address. -/
  | allocated (serviceID ip : String)
  /-- `Allocate` has returned an error. -/
  | failed (serviceID : String)
  /-- `Release` is about to look into the mirror. -/
  | releasing (serviceID : String)
  | queueing (serviceID ip : String)
  /-- `Release` has returned. -/
  | released (serviceID : String)
  deriving DecidableEq

namespace Goroutine

/-- The service of a call. -/
def serviceID : Goroutine → String
  | allocating s | proposing s | proposed s | allocated s _ | failed s | releasing s
  | queueing s _ | released s => s

/-- A call of `Allocate` that has not failed. -/
def isAllocate : Goroutine → Bool
  | allocating _ | proposing _ | proposed _ | allocated _ _ => true
  | _ => false

/-- The call is a `Release`. -/
def isRelease : Goroutine → Bool
  | releasing _ | queueing _ _ | released _ => true
  | _ => false

/-- A call of `Release` that has not returned. -/
def isBusy : Goroutine → Bool
  | releasing _ | queueing _ _ => true
  | _ => false

end Goroutine

/-- The allocator with its queue, its release worker and the calls made so far, in the
order in which they began. -/
structure World where
  alloc : Allocator
  /-- The addresses in their cooldown, with the time it ends. -/
  pending : List (String × ℤ) := []
  /-- What the worker has taken off the queue and not proposed yet. -/
  ready : List String := []
  calls : List Goroutine := []

/-- How long an address waits, in nanoseconds as all times. -/
def releaseCooldown : ℤ := 60000000000

/-- How long it waits after a failed proposal. -/
def retryDelay : ℤ := 1000000000

/-- What can happen. -/
inductive Move where
  | beginAllocate (serviceID : String)
  | beginRelease (serviceID : String)
  /-- A call makes its next access. -/
  | advance (call : ℕ) (fault : Fault) (now : ℤ)
  /-- A tick of the worker takes what is ready off the queue. -/
  | flush (now : ℤ)
  /-- The worker proposes one of the releases. -/
  | proposeRelease (entry : ℕ) (first : ℕ) (fault : Fault) (now : ℤ)

namespace World

/-- The address in the mirror. -/
def lookup (w : World) (serviceID : String) : Option String :=
  w.alloc.mirror.allocatedVIPs.lookup serviceID

/-- The call goes on at another access. -/
def goOn (w : World) (call : ℕ) (g : Goroutine) : World := { w with calls := w.calls.set call g }

/-- The queue after a `Release` of the address. -/
def enqueue (w : World) (ip : String) (now : ℤ) : World :=
  if w.pending.any fun e => e.1 = ip then w
  else { w with pending := w.pending ++ [(ip, now + releaseCooldown)] }

/-- The queue after a proposal for the address failed. -/
def requeue (w : World) (ip : String) (now : ℤ) : World :=
  { w with pending := (w.pending.filter fun e => e.1 ≠ ip) ++ [(ip, now + retryDelay)] }

/-- The next access of a call. -/
def advance (w : World) (call : ℕ) (fault : Fault) (now : ℤ) : Goroutine → Option World
  | .allocating s =>
    if s = "" then some (w.goOn call (.failed s))
    else match w.lookup s with
      | some ip => some (w.goOn call (.allocated s ip))
      | none => some (w.goOn call (.proposing s))
  | .proposing s =>
    match w.alloc.propose (.allocate s) 0 fault with
    | (a, .ok ()) => some ({ w with alloc := a }.goOn call (.proposed s))
    | (a, .error _) => some ({ w with alloc := a }.goOn call (.failed s))
  | .proposed s =>
    match w.lookup s with
    | some ip => some (w.goOn call (.allocated s ip))
    | none => some (w.goOn call (.failed s))
  | .releasing s =>
    match w.lookup s with
    | some ip => some (w.goOn call (.queueing s ip))
    | none => some (w.goOn call (.released s))
  | .queueing s ip => some ((w.enqueue ip now).goOn call (.released s))
  | .allocated _ _ | .failed _ | .released _ => none

/-- One step, if it is possible. -/
def step (w : World) : Move → Option World
  | .beginAllocate s => some { w with calls := w.calls ++ [.allocating s] }
  | .beginRelease s => some { w with calls := w.calls ++ [.releasing s] }
  | .advance call fault now => (w.calls[call]?).bind (w.advance call fault now)
  | .flush now =>
    if w.ready ≠ [] then none
    else some { w with
      ready := (w.pending.filter fun e => e.2 ≤ now).map fun e => e.1
      pending := w.pending.filter fun e => ¬ e.2 ≤ now }
  | .proposeRelease entry first fault now =>
    match w.ready[entry]? with
    | none => none
    | some ip =>
      match w.alloc.propose (.release ip) first fault with
      | (a, .ok ()) => some { w with alloc := a, ready := w.ready.eraseIdx entry }
      | (a, .error _) =>
        some ({ w with alloc := a, ready := w.ready.eraseIdx entry }.requeue ip now)

/-- The addresses on their way to the free list. -/
def draining (w : World) : List String := w.pending.map (fun e => e.1) ++ w.ready

/-- No release of the service is under way. -/
def Idle (w : World) (s : String) : Prop :=
  (∀ g ∈ w.calls, ¬ (g.isBusy = true ∧ g.serviceID = s)) ∧ ∀ ip ∈ w.lookup s, ip ∉ w.draining

instance Idle.decidable (w : World) (s : String) : Decidable (w.Idle s) :=
  inferInstanceAs (Decidable (_ ∧ _))

/-- Calls for a service begin when no release of it is under way, and proposals do not
fail after their applier. -/
def Calm (w : World) : Move → Prop
  | .beginAllocate s | .beginRelease s => w.Idle s
  | .advance _ fault _ => fault.late = false
  | .flush _ => True
  | .proposeRelease _ _ fault _ => fault.late = false

instance Calm.decidable (w : World) : (m : Move) → Decidable (w.Calm m)
  | .beginAllocate s | .beginRelease s => Idle.decidable w s
  | .advance _ fault _ | .proposeRelease _ _ fault _ =>
    inferInstanceAs (Decidable (fault.late = false))
  | .flush _ => isTrue trivial

end World

/-- No release of the service is under way: `L` is what the mirror holds, `D` the
draining addresses, `C` the calls. -/
def IdleIn (L : String → Option String) (D : List String) (C : List Goroutine)
    (s : String) : Prop :=
  (∀ g ∈ C, ¬ (g.isBusy = true ∧ g.serviceID = s)) ∧ ∀ ip ∈ L s, ip ∉ D

/-- How a call goes on without ending a release, where `L` is what the mirror holds. -/
structure Goroutine.Follows (L : String → Option String) (g g' : Goroutine) : Prop where
  service : g'.serviceID = g.serviceID
  release : g'.isRelease = g.isRelease
  allocate : g'.isAllocate = true → g.isAllocate = true
  busy : g'.isBusy = true → g.isBusy = true
  queueing : ∀ s ip, g' = .queueing s ip → L s = some ip
  allocated : ∀ s ip, g' = .allocated s ip → L s = some ip

/-- What calm runs keep. -/
structure Orderly (L : String → Option String) (D : List String) (C : List Goroutine) : Prop where
  nodup : D.Nodup
  owned : ∀ ip ∈ D, ∃ s, L s = some ip
  queueing : ∀ (i : ℕ) s ip, C[i]? = some (Goroutine.queueing s ip) → L s = some ip
  /-- A service has one release under way, in a call or in the queue. -/
  alone : ∀ (i j : ℕ) (g g' : Goroutine), C[i]? = some g → C[j]? = some g' →
    g.isBusy = true → g'.isBusy = true → g.serviceID = g'.serviceID → i = j
  busy : ∀ (i : ℕ) (g : Goroutine), C[i]? = some g → g.isBusy = true →
    ∀ ip ∈ L g.serviceID, ip ∉ D
  /-- A call of `Allocate` that no call of `Release` has followed. -/
  kept : ∀ (i : ℕ) (g : Goroutine), C[i]? = some g → g.isAllocate = true →
    (∀ (j : ℕ) (g' : Goroutine), i < j → C[j]? = some g' → g'.isRelease = true →
      g'.serviceID ≠ g.serviceID) →
    IdleIn L D C g.serviceID ∧ ∀ s ip, g = .allocated s ip → L s = some ip

namespace Orderly

variable {L L' : String → Option String} {D D' : List String} {C : List Goroutine}

/-- The mirror and the queue change. A service whose address is not draining keeps it, and it
does not begin to drain. -/
theorem change (h : Orderly L D C) (hnodup : D'.Nodup) (howned : ∀ ip ∈ D', ∃ s, L' s = some ip)
    (hkeep : ∀ s, (∀ ip ∈ L s, ip ∉ D) → (∀ ip ∈ L' s, ip ∉ D') ∧ ∀ ip ∈ L s, L' s = some ip) :
    Orderly L' D' C where
  nodup := hnodup
  owned := howned
  queueing i s ip hq := (hkeep s (h.busy i _ hq rfl)).2 ip (h.queueing i s ip hq)
  alone := h.alone
  busy i g hg hb := (hkeep _ (h.busy i g hg hb)).1
  kept i g hg ha hno := by
    obtain ⟨⟨hidle, hdrain⟩, hip⟩ := h.kept i g hg ha hno
    refine ⟨⟨hidle, (hkeep _ hdrain).1⟩, ?_⟩
    rintro s ip rfl
    exact (hkeep s hdrain).2 ip (hip s ip rfl)

theorem perm (h : Orderly L D C) (hp : D.Perm D') : Orderly L D' C :=
  h.change (hp.nodup_iff.mp h.nodup) (fun ip hip => h.owned ip (hp.mem_iff.mpr hip)) fun _ hs =>
    ⟨fun ip hip hd => hs ip hip (hp.mem_iff.mpr hd), fun _ => id⟩

/-- A service that had no address gets one that is not draining. -/
theorem extend (h : Orderly L D C)
    (hL : ∀ s, L' s = L s ∨ L s = none ∧ ∀ ip ∈ L' s, ip ∉ D) : Orderly L' D C := by
  refine h.change h.nodup (fun ip hip => ?_) fun s hs => ?_
  · obtain ⟨s, hs⟩ := h.owned ip hip
    rcases hL s with he | ⟨hnone, -⟩
    · exact ⟨s, he.trans hs⟩
    · rw [hs] at hnone
      cases hnone
  · rcases hL s with he | ⟨hnone, hnew⟩
    · rw [he]
      exact ⟨hs, fun _ => id⟩
    · exact ⟨hnew, by simp [hnone]⟩

/-- A draining address becomes free, or is dropped from the queue. -/
theorem free {ip : String} (h : Orderly L (ip :: D) C)
    (hL : ∀ s, L' s = L s ∨ L s = some ip ∧ L' s = none) : Orderly L' D C := by
  obtain ⟨hnew, hnodup⟩ := nodup_cons.mp h.nodup
  refine h.change hnodup (fun vip hv => ?_) fun s hs => ?_
  · obtain ⟨s, hs⟩ := h.owned vip (mem_cons_of_mem _ hv)
    rcases hL s with he | ⟨hip, -⟩
    · exact ⟨s, he.trans hs⟩
    · cases hs.symm.trans hip
      exact absurd hv hnew
  · rcases hL s with he | ⟨hip, -⟩
    · rw [he]
      exact ⟨fun vip hv hd => hs vip hv (mem_cons_of_mem _ hd), fun _ => id⟩
    · exact absurd mem_cons_self (hs ip hip)

/-- Where a call goes on as a call of the same kind, the releases stay where they were. -/
theorem releases_of_set {i j : ℕ} {g g' : Goroutine} {t : String} (hg : C[i]? = some g)
    (hno : ∀ (k : ℕ) (c : Goroutine), j < k → (C.set i g')[k]? = some c → c.isRelease = true →
      c.serviceID ≠ t)
    (hservice : g'.serviceID = g.serviceID) (hrelease : g'.isRelease = g.isRelease) :
    ∀ (k : ℕ) (c : Goroutine), j < k → C[k]? = some c → c.isRelease = true → c.serviceID ≠ t := by
  intro k c hk hc hr
  by_cases hki : i = k
  · subst hki
    cases hg.symm.trans hc
    have hlt : i < C.length := (List.getElem?_eq_some_iff.mp hg).1
    rw [← hservice]
    exact hno i g' hk (getElem?_set_self hlt) (by rw [hrelease, hr])
  · exact hno k c hk (by rw [getElem?_set_ne hki, hc]) hr

/-- A call goes on to another access without ending a release. -/
theorem set (h : Orderly L D C) {i : ℕ} {g g' : Goroutine} (hg : C[i]? = some g)
    (hgo : g.Follows L g') : Orderly L D (C.set i g') := by
  have hold : ∀ {j : ℕ} {c : Goroutine}, (C.set i g')[j]? = some c → c.isBusy = true →
      ∃ c', C[j]? = some c' ∧ c'.isBusy = true ∧ c'.serviceID = c.serviceID := by
    intro j c hc hb
    rcases getElem?_set_cases hc with ⟨rfl, rfl⟩ | ⟨-, hc⟩
    · exact ⟨g, hg, hgo.busy hb, hgo.service.symm⟩
    · exact ⟨c, hc, hb, rfl⟩
  have hidle : ∀ {s}, IdleIn L D C s → IdleIn L D (C.set i g') s := by
    rintro s ⟨hb, hd⟩
    refine ⟨?_, hd⟩
    rintro c hc ⟨hcb, rfl⟩
    obtain ⟨j, hj⟩ := mem_iff_getElem?.mp hc
    obtain ⟨c', hc', hb', hs'⟩ := hold hj hcb
    exact hb c' (mem_of_getElem? hc') ⟨hb', hs'⟩
  exact {
    nodup := h.nodup
    owned := h.owned
    queueing := by
      intro j s ip hj
      rcases getElem?_set_cases hj with ⟨rfl, he⟩ | ⟨-, hj⟩
      · exact hgo.queueing s ip he.symm
      · exact h.queueing j s ip hj
    alone := by
      intro j k c c' hj hk hb hb' he
      obtain ⟨d, hd, hdb, hds⟩ := hold hj hb
      obtain ⟨d', hd', hdb', hds'⟩ := hold hk hb'
      exact h.alone j k d d' hd hd' hdb hdb' (by rw [hds, hds', he])
    busy := by
      intro j c hj hb
      obtain ⟨d, hd, hdb, hds⟩ := hold hj hb
      rw [← hds]
      exact h.busy j d hd hdb
    kept := by
      intro j c hj ha hno
      have hno' := releases_of_set hg hno hgo.service hgo.release
      rcases getElem?_set_cases hj with ⟨rfl, rfl⟩ | ⟨-, hj⟩
      · obtain ⟨hi, -⟩ := h.kept j g hg (hgo.allocate ha) (by rwa [hgo.service] at hno')
        exact ⟨hgo.service ▸ hidle hi, hgo.allocated⟩
      · obtain ⟨hi, hip'⟩ := h.kept j c hj ha hno'
        exact ⟨hidle hi, hip'⟩ }

/-- A call begins while no release of its service is under way. -/
theorem begin (h : Orderly L D C) {s : String} (hidle : IdleIn L D C s) {g : Goroutine}
    (hg : g = .allocating s ∨ g = .releasing s) : Orderly L D (C ++ [g]) := by
  have hs : g.serviceID = s := by rcases hg with rfl | rfl <;> rfl
  have hmem : ∀ {j : ℕ} {c : Goroutine}, C[j]? = some c → (C ++ [g])[j]? = some c := by
    intro j c hj
    rw [getElem?_append_left (List.getElem?_eq_some_iff.mp hj).1, hj]
  have hfree : ∀ {j : ℕ} {c : Goroutine}, C[j]? = some c → c.isBusy = true →
      c.serviceID ≠ s := fun hj hb he => hidle.1 _ (mem_of_getElem? hj) ⟨hb, he⟩
  exact {
    nodup := h.nodup
    owned := h.owned
    queueing := by
      intro j t ip hj
      rcases getElem?_concat_cases hj with hj | ⟨-, he⟩
      · exact h.queueing j t ip hj
      · rcases hg with rfl | rfl <;> cases he
    alone := by
      intro j k c c' hj hk hb hb' he
      rcases getElem?_concat_cases hj with hj' | ⟨rfl, rfl⟩
      · rcases getElem?_concat_cases hk with hk' | ⟨rfl, rfl⟩
        · exact h.alone j k c c' hj' hk' hb hb' he
        · exact absurd (he.trans hs) (hfree hj' hb)
      · rcases getElem?_concat_cases hk with hk' | ⟨rfl, -⟩
        · exact absurd (he.symm.trans hs) (hfree hk' hb')
        · rfl
    busy := by
      intro j c hj hb
      rcases getElem?_concat_cases hj with hj | ⟨-, rfl⟩
      · exact h.busy j c hj hb
      · rw [hs]
        exact hidle.2
    kept := by
      intro j c hj ha hno
      have hstill : ∀ {t}, IdleIn L D C t → (g.isRelease = true → g.serviceID ≠ t) →
          IdleIn L D (C ++ [g]) t := by
        rintro t ⟨hb, hd⟩ hne
        refine ⟨?_, hd⟩
        rintro c hc ⟨hcb, hct⟩
        rcases mem_append.mp hc with hc | hc
        · exact hb c hc ⟨hcb, hct⟩
        · obtain rfl := mem_singleton.mp hc
          refine hne ?_ hct
          rcases hg with rfl | rfl
          · cases hcb
          · rfl
      rcases getElem?_concat_cases hj with hj | ⟨rfl, rfl⟩
      · obtain ⟨hi, hip⟩ := h.kept j c hj ha fun k c' hk hc' => hno k c' hk (hmem hc')
        refine ⟨hstill hi fun hr => hno C.length g ?_ (by simp) hr, hip⟩
        exact (List.getElem?_eq_some_iff.mp hj).1
      · rcases hg with rfl | rfl
        · exact ⟨hstill hidle (by simp [Goroutine.isRelease]), by simp⟩
        · cases ha }

/-- A `Release` puts the address of its service into the queue and returns. -/
theorem enqueue (h : Orderly L D C) (hinj : ∀ s t ip, L s = some ip → L t = some ip → s = t)
    {i : ℕ} {s ip : String} (hg : C[i]? = some (.queueing s ip)) :
    Orderly L (ip :: D) (C.set i (.released s)) := by
  have hlookup := h.queueing i s ip hg
  have hfresh : ip ∉ D := h.busy i _ hg rfl ip hlookup
  have hset : Orderly L D (C.set i (.released s)) := h.set hg ⟨rfl, rfl, nofun, nofun, nofun, nofun⟩
  have hother : ∀ {t}, t ≠ s → (∀ vip ∈ L t, vip ∉ D) → ∀ vip ∈ L t, vip ∉ ip :: D := by
    intro t hne hd vip hv hmem
    rcases mem_cons.mp hmem with rfl | hmem
    · exact hne (hinj t s vip hv hlookup)
    · exact hd vip hv hmem
  exact {
    nodup := nodup_cons.mpr ⟨hfresh, h.nodup⟩
    owned := by
      intro vip hv
      rcases mem_cons.mp hv with rfl | hv
      · exact ⟨s, hlookup⟩
      · exact h.owned vip hv
    queueing := hset.queueing
    alone := hset.alone
    busy := by
      intro j c hj hb
      rcases getElem?_set_cases hj with ⟨-, rfl⟩ | ⟨hij, hj⟩
      · cases hb
      · refine hother (fun he => hij ?_) (h.busy j c hj hb)
        exact (h.alone i j _ c hg hj rfl hb he.symm).symm
    kept := by
      intro j c hj ha hno
      obtain ⟨hi, hip⟩ := hset.kept j c hj ha hno
      refine ⟨⟨hi.1, hother ?_ hi.2⟩, hip⟩
      intro he
      rcases getElem?_set_cases hj with ⟨-, rfl⟩ | ⟨-, hj⟩
      · cases ha
      · obtain ⟨⟨hbusy, -⟩, -⟩ := h.kept j c hj ha (releases_of_set hg hno rfl rfl)
        exact hbusy _ (mem_of_getElem? hg) ⟨rfl, he.symm⟩ }

end Orderly

namespace Allocator

variable {a : Allocator} {fault : Fault}

/-- What an allocation without a late fault does to the mirror: a service without an
address may get one that the record did not have. -/
theorem Agree.lookup_propose_allocate (h : a.Agree) (s t : String) (hf : fault.late = false) :
    let a' := (a.propose (.allocate s) 0 fault).1
    a'.mirror.allocatedVIPs.lookup t = a.mirror.allocatedVIPs.lookup t ∨
      a.mirror.allocatedVIPs.lookup t = none ∧
        ∀ ip ∈ a'.mirror.allocatedVIPs.lookup t, ∀ u,
          a.mirror.allocatedVIPs.lookup u ≠ some ip := by
  rcases h.propose_writes (.allocate s) 0 hf with he | ⟨cn, hw, he⟩ <;> rw [he]
  · exact .inl rfl
  · have hsound := sound_of_writes h.sound hw
    rw [h.mirror]
    cases hw with
    | allocate _ ip rest hcidr hnew hpick =>
      by_cases hts : t = s
      · subst hts
        refine .inr ⟨hnew, fun vip hvip u hu => ?_⟩
        have hu' : u ≠ t := by
          rintro rfl
          rw [hnew] at hu
          cases hu
        refine hu' (hsound.injective ?_ hvip)
        rw [lookup_insert_ite, if_neg hu', hu]
      · exact .inl (by rw [lookup_insert_ite, if_neg hts])

/-- What a release without a late fault does to the mirror: if it takes an address from
a service, it is the released one. -/
theorem Agree.lookup_propose_release (h : a.Agree) (ip t : String) (first : ℕ)
    (hf : fault.late = false) :
    let a' := (a.propose (.release ip) first fault).1
    a'.mirror.allocatedVIPs.lookup t = a.mirror.allocatedVIPs.lookup t ∨
      a.mirror.allocatedVIPs.lookup t = some ip ∧ a'.mirror.allocatedVIPs.lookup t = none := by
  rcases h.propose_writes (.release ip) first hf with he | ⟨cn, hw, he⟩ <;> rw [he]
  · exact .inl rfl
  · rw [h.mirror]
    cases hw with
    | release _ owner hne howner =>
      by_cases hto : t = owner
      · subst hto
        exact .inr ⟨howner, by rw [lookup_erase_ite, if_pos rfl]⟩
      · exact .inl (by rw [lookup_erase_ite, if_neg hto])

/-- A proposal that fails without a late fault changes nothing. -/
theorem propose_of_error {op : Op} {first : ℕ} {a' : Allocator} {err : ProposeError}
    (hf : fault.late = false) (h : a.propose op first fault = (a', .error err)) : a' = a := by
  rcases a.propose_cases op first hf with ⟨he, -⟩ | ⟨r, -, hok, -⟩
  · rw [h] at he
    exact he
  · rw [h] at hok
    cases hok

end Allocator

namespace World

variable {w w' : World}

/-- The invariant of calm runs. -/
structure Steady (w : World) : Prop where
  agree : w.alloc.Agree
  orderly : Orderly w.lookup w.draining w.calls

variable {ip : String} {fault : Fault}

/-- No address is held twice. -/
theorem Steady.injective (h : w.Steady) {s t : String} (hs : w.lookup s = some ip)
    (ht : w.lookup t = some ip) : s = t := by
  refine (h.agree.mirror ▸ h.agree.sound).injective hs ht

/-- The record after an allocation without a late fault. -/
theorem Steady.propose_allocate (h : w.Steady) (s : String) (hf : fault.late = false) :
    ({ w with alloc := (w.alloc.propose (.allocate s) 0 fault).1 } : World).Steady := by
  refine ⟨h.agree.propose _ _ hf, h.orderly.extend fun t => ?_⟩
  rcases h.agree.lookup_propose_allocate s t hf with he | ⟨hnone, hnew⟩
  · exact .inl he
  · refine .inr ⟨hnone, fun ip hip hd => ?_⟩
    obtain ⟨u, hu⟩ := h.orderly.owned ip hd
    exact hnew ip hip u hu

theorem draining_enqueue (hip : ip ∉ w.draining) (now : ℤ) :
    (ip :: w.draining).Perm (w.enqueue ip now).draining := by
  have hany : (w.pending.any fun e => e.1 = ip) = false := by
    simp only [any_eq_false, decide_eq_true_eq]
    rintro e he rfl
    exact hip (mem_append_left _ (mem_map_of_mem he))
  simp only [enqueue, hany, draining, map_append, map_cons, map_nil,
    append_assoc, singleton_append, Bool.false_eq_true, if_false]
  exact perm_middle.symm

@[simp] theorem enqueue_lookup (ip : String) (now : ℤ) : (w.enqueue ip now).lookup = w.lookup := by
  unfold enqueue
  split <;> rfl

@[simp] theorem enqueue_calls (ip : String) (now : ℤ) : (w.enqueue ip now).calls = w.calls := by
  unfold enqueue
  split <;> rfl

@[simp] theorem enqueue_alloc (ip : String) (now : ℤ) : (w.enqueue ip now).alloc = w.alloc := by
  unfold enqueue
  split <;> rfl

/-- What one access of a call does: the call goes on after a look at the mirror or a
proposal, or it queues its address and returns. -/
theorem advance_cases {i : ℕ} {now : ℤ} {g : Goroutine} (ht : w.advance i fault now g = some w') :
    (∃ g', w' = w.goOn i g' ∧ g.Follows w.lookup g') ∨
      (∃ s g', w' = { w with alloc := (w.alloc.propose (.allocate s) 0 fault).1 }.goOn i g' ∧
        ∀ L, g.Follows L g') ∨
      ∃ s ip, g = .queueing s ip ∧ w' = (w.enqueue ip now).goOn i (.released s) := by
  revert ht
  fun_cases w.advance i fault now g <;> rintro ⟨⟩
  · exact .inl ⟨_, rfl, rfl, rfl, nofun, nofun, nofun, nofun⟩
  · exact .inl ⟨_, rfl, rfl, rfl, id, nofun, nofun, by simp [*]⟩
  · exact .inl ⟨_, rfl, rfl, rfl, id, nofun, nofun, nofun⟩
  · rename_i s a hp
    exact .inr (.inl ⟨s, .proposed s, by rw [hp], fun _ => ⟨rfl, rfl, id, nofun, nofun, nofun⟩⟩)
  · rename_i s a _ hp
    exact .inr (.inl ⟨s, .failed s, by rw [hp], fun _ => ⟨rfl, rfl, nofun, nofun, nofun, nofun⟩⟩)
  · exact .inl ⟨_, rfl, rfl, rfl, id, nofun, nofun, by simp [*]⟩
  · exact .inl ⟨_, rfl, rfl, rfl, nofun, nofun, nofun, nofun⟩
  · exact .inl ⟨_, rfl, rfl, rfl, nofun, id, by simp [*], nofun⟩
  · exact .inl ⟨_, rfl, rfl, rfl, nofun, nofun, nofun, nofun⟩
  · exact .inr (.inr ⟨_, _, rfl, rfl⟩)

/-- One access of a call. -/
theorem Steady.advance (h : w.Steady) {i : ℕ} {now : ℤ} {g : Goroutine} (hf : fault.late = false)
    (hg : w.calls[i]? = some g) (ht : w.advance i fault now g = some w') : w'.Steady := by
  rcases advance_cases ht with ⟨g', rfl, hgo⟩ | ⟨s, g', rfl, hgo⟩ | ⟨s, ip, rfl, rfl⟩
  · exact ⟨h.agree, h.orderly.set hg hgo⟩
  · have hafter := h.propose_allocate s hf
    exact ⟨hafter.agree, hafter.orderly.set hg (hgo _)⟩
  · have hlookup := h.orderly.queueing i s ip hg
    have hfresh := h.orderly.busy i _ hg rfl ip hlookup
    have horderly := (h.orderly.enqueue (fun _ _ _ => h.injective) hg).perm
      (draining_enqueue hfresh now)
    refine ⟨by simpa [goOn] using h.agree, ?_⟩
    change Orderly (w.enqueue ip now).lookup (w.enqueue ip now).draining
      ((w.enqueue ip now).calls.set i (.released s))
    rwa [enqueue_lookup, enqueue_calls]

/-- A tick moves addresses from the queue to the worker. -/
theorem draining_flush (now : ℤ) (hready : w.ready = []) :
    w.draining.Perm (({ w with
      ready := (w.pending.filter fun e => e.2 ≤ now).map fun e => e.1
      pending := w.pending.filter fun e => ¬ e.2 ≤ now } : World).draining) := by
  simp only [draining, hready, append_nil, ← map_append]
  refine List.Perm.map _ ?_
  have hsplit := filter_append_perm (fun e : String × ℤ => decide (e.2 ≤ now)) w.pending
  simp only [decide_not]
  exact hsplit.symm.trans perm_append_comm

/-- Taking an entry off the worker's list. -/
theorem draining_eraseIdx {j : ℕ} (hj : w.ready[j]? = some ip) :
    w.draining.Perm (ip :: (w.pending.map (fun e => e.1) ++ w.ready.eraseIdx j)) := by
  obtain ⟨hlt, rfl⟩ := List.getElem?_eq_some_iff.mp hj
  refine (List.Perm.append_left _ (getElem_cons_eraseIdx_perm hlt).symm).trans ?_
  exact perm_middle

/-- The worker proposes a release. -/
theorem Steady.proposeRelease (h : w.Steady) {j first : ℕ} {now : ℤ} (hf : fault.late = false)
    (ht : w.step (.proposeRelease j first fault now) = some w') : w'.Steady := by
  simp only [step] at ht
  cases hj : w.ready[j]? with
  | none => simp [hj] at ht
  | some ip =>
    have hperm := draining_eraseIdx hj
    have horderly := h.orderly.perm hperm
    simp only [hj] at ht
    rcases hp : w.alloc.propose (.release ip) first fault with ⟨a, err | _⟩
    · obtain rfl := Allocator.propose_of_error hf hp
      simp only [hp] at ht
      cases ht
      have hnot : ip ∉ w.pending.map fun e => e.1 := fun hmem =>
        (nodup_cons.mp horderly.nodup).1 (mem_append_left _ hmem)
      have hfilter : (w.pending.filter fun e => e.1 ≠ ip) = w.pending := by
        refine filter_eq_self.mpr fun e he => ?_
        simp only [decide_eq_true_eq]
        rintro rfl
        exact hnot (mem_map_of_mem he)
      refine ⟨h.agree, horderly.perm ?_⟩
      simp only [requeue, draining, hfilter, map_append, map_cons, map_nil,
        append_assoc, singleton_append]
      exact perm_middle.symm
    · have hagree := h.agree.propose (.release ip) first hf
      have hlookup := fun t => h.agree.lookup_propose_release ip t first hf
      rw [hp] at hagree hlookup
      simp only [hp] at ht
      cases ht
      exact ⟨hagree, horderly.free hlookup⟩

/-- One calm step. -/
theorem Steady.step (h : w.Steady) {m : Move} (hc : w.Calm m) (ht : w.step m = some w') :
    w'.Steady := by
  cases m with
  | beginAllocate s =>
    cases ht
    exact ⟨h.agree, h.orderly.begin hc (.inl rfl)⟩
  | beginRelease s =>
    cases ht
    exact ⟨h.agree, h.orderly.begin hc (.inr rfl)⟩
  | advance call fault now =>
    obtain ⟨g, hg, ht⟩ := Option.bind_eq_some_iff.mp ht
    exact h.advance hc hg ht
  | flush now =>
    simp only [World.step] at ht
    split_ifs at ht with hready
    cases ht
    exact ⟨h.agree, h.orderly.perm (draining_flush now (not_not.mp hready))⟩
  | proposeRelease entry first fault now => exact h.proposeRelease hc ht

/-- Where a run starts. -/
theorem Steady.start {a : Allocator} (h : a.Agree) : ({ alloc := a } : World).Steady :=
  ⟨h, nodup_nil, by simp [draining], by simp, by simp, by simp, by simp⟩

/-- An access of a call changes the state of that call alone; where it returns an address,
the mirror holds it for the service. -/
theorem calls_advance {i : ℕ} {now : ℤ} {g : Goroutine} (ht : w.advance i fault now g = some w') :
    ∃ g', w'.calls = w.calls.set i g' ∧ ∀ t ip, g' = .allocated t ip → w.lookup t = some ip := by
  rcases advance_cases ht with ⟨g', rfl, hgo⟩ | ⟨s, g', rfl, hgo⟩ | ⟨s, vip, rfl, rfl⟩
  · exact ⟨g', rfl, hgo.allocated⟩
  · exact ⟨g', rfl, (hgo _).allocated⟩
  · exact ⟨.released s, by simp only [goOn, enqueue_calls], by simp⟩

/-- How a step can change the calls: another one begins, one goes on, or none does. -/
theorem calls_step {m : Move} (ht : w.step m = some w') :
    (∃ g, w'.calls = w.calls ++ [g] ∧ ∀ t ip, g ≠ .allocated t ip) ∨
      (∃ i g, w'.calls = w.calls.set i g ∧ ∀ t ip, g = .allocated t ip → w.lookup t = some ip) ∨
      w'.calls = w.calls := by
  revert ht
  fun_cases w.step m <;> intro ht <;> try cases ht
  · exact .inl ⟨_, rfl, by simp⟩
  · exact .inl ⟨_, rfl, by simp⟩
  · obtain ⟨g, -, hadvance⟩ := Option.bind_eq_some_iff.mp ht
    obtain ⟨g', hcalls, hlookup⟩ := calls_advance hadvance
    exact .inr (.inl ⟨_, g', hcalls, hlookup⟩)
  all_goals exact .inr (.inr rfl)

/-- An `Allocate` that returns in a step returns what the mirror holds for its service. -/
theorem lookup_of_returns {m : Move} (ht : w.step m = some w') {j : ℕ} {t : String}
    (hj : w'.calls[j]? = some (.allocated t ip)) :
    w.calls[j]? = some (.allocated t ip) ∨ w.lookup t = some ip := by
  rcases calls_step ht with ⟨g, hcalls, hg⟩ | ⟨i, g, hcalls, hg⟩ | hcalls <;> rw [hcalls] at hj
  · rcases getElem?_concat_cases hj with hj | ⟨-, he⟩
    · exact .inl hj
    · exact absurd he.symm (hg t ip)
  · rcases getElem?_set_cases hj with ⟨-, he⟩ | ⟨-, hj⟩
    · exact .inr (hg t ip he.symm)
    · exact .inl hj
  · exact .inl hj

/-- In a calm run, a service to which `Allocate` returned an address and for which no `Release`
was called since has the address, in the record and in the mirror, and no `Allocate` of another
service returns it. -/
theorem vip_kept_until_released {a : Allocator} (ha : a.Agree) {moves : List Move}
    (hcalm : Along step Calm { alloc := a } moves) (h : exec step { alloc := a } moves = some w)
    {i : ℕ} {s ip : String} (hi : w.calls[i]? = some (.allocated s ip))
    (hno : ∀ (j : ℕ) g, i < j → w.calls[j]? = some g → g.isRelease = true → g.serviceID ≠ s) :
    w.alloc.persisted.allocatedVIPs.lookup s = some ip ∧
      w.alloc.mirror.allocatedVIPs.lookup s = some ip ∧
      ∀ m w' (j : ℕ) t vip, w.step m = some w' → w'.calls[j]? = some (.allocated t vip) →
        w.calls[j]? ≠ w'.calls[j]? → t ≠ s → vip ≠ ip := by
  have hsteady : w.Steady := exec_invariant_along (fun _ _ _ h hc ht => h.step hc ht)
    (.start ha) hcalm h
  have hlookup : w.lookup s = some ip := (hsteady.orderly.kept i _ hi rfl hno).2 s ip rfl
  refine ⟨?_, hlookup, ?_⟩
  · rw [← hsteady.agree.mirror]
    exact hlookup
  · rintro m w' j t vip ht hj hnew hne rfl
    rcases lookup_of_returns ht hj with hold | hold
    · exact hnew (hold.trans hj.symm)
    · exact hne (hsteady.injective hold hlookup)

/-- The allocator of a new cluster. -/
def fresh : Allocator := (({} : Allocator).bootstrap "10.96.0.0/16" true .none).1

/-- The example's allocator. -/
theorem fresh_agree : fresh.Agree := by
  have hclean : Along Allocator.step Allocator.Clean {} [.restart "10.96.0.0/16" true .none] := by
    decide +kernel
  exact Allocator.agree_of_exec hclean rfl

/-- A first `Allocate` for a service: read, propose, read again. -/
def firstAllocate (call : ℕ) (s : String) : List Move :=
  [.beginAllocate s, .advance call .none 0, .advance call .none 0, .advance call .none 0]

/-- `web` and `db` get addresses; `db` is released, its cooldown passes, and `cache` gets the
address that `db` had. -/
def releaseBeside : List Move :=
  firstAllocate 0 "web" ++ firstAllocate 1 "db" ++
    [.beginRelease "db", .advance 2 .none 0, .advance 2 .none 0,
      .flush releaseCooldown, .proposeRelease 0 0 .none releaseCooldown] ++
    firstAllocate 3 "cache"

/-- A release beside it. -/
theorem vip_kept_until_released_web :
    ∃ w, exec step { alloc := fresh } releaseBeside = some w ∧
      w.calls = [.allocated "web" "10.96.0.2", .allocated "db" "10.96.0.3", .released "db",
        .allocated "cache" "10.96.0.3"] ∧
      w.alloc.persisted.allocatedVIPs.lookup "web" = some "10.96.0.2" := by
  obtain ⟨w, hw, hcalls⟩ : ∃ w, exec step { alloc := fresh } releaseBeside = some w ∧
      w.calls = [.allocated "web" "10.96.0.2", .allocated "db" "10.96.0.3", .released "db",
        .allocated "cache" "10.96.0.3"] := ⟨_, rfl, by decide +kernel⟩
  have hcalm : Along step Calm { alloc := fresh } releaseBeside := by decide +kernel
  have hcall : w.calls[0]? = some (.allocated "web" "10.96.0.2") := by rw [hcalls]; rfl
  refine ⟨w, hw, hcalls, (vip_kept_until_released fresh_agree hcalm hw hcall ?_).1⟩
  intro j g hj hg hrelease
  have hothers : ∀ g ∈ w.calls.drop 1, g.isRelease = true → g.serviceID ≠ "web" := by
    rw [hcalls]
    decide
  refine hothers g (List.mem_of_getElem? (i := j - 1) ?_) hrelease
  rw [List.getElem?_drop, Nat.add_sub_cancel' hj]
  exact hg

/-- `web` allocates again inside the cooldown and gets the same address; the worker then frees it,
although no `Release` has followed, and `db` gets it. -/
theorem vip_lost_after_reallocation :
    ∃ w, exec step { alloc := fresh } (firstAllocate 0 "web" ++
        [.beginRelease "web", .advance 1 .none 0, .advance 1 .none 0,
          .beginAllocate "web", .advance 2 .none 0,
          .flush releaseCooldown, .proposeRelease 0 0 .none releaseCooldown] ++
        firstAllocate 3 "db") = some w ∧
      w.calls = [.allocated "web" "10.96.0.2", .released "web", .allocated "web" "10.96.0.2",
        .allocated "db" "10.96.0.2"] ∧
      w.alloc.persisted.allocatedVIPs.lookup "web" = none := by
  refine ⟨_, rfl, ?_, ?_⟩ <;> decide +kernel

end World

end Rune.Vip
