import Rune.Models.Acme.Orchestrator

/-!
# Certificates that are still good

The run loop asks for a certificate when the state of a request is pending or failed. That
state stands for what the store has only if nobody else works for the same entry of the
store, and only once `Submit` has written down what it has found there.
-/

namespace Rune.Acme

open Rune.Core List

section States

variable (cfg : Config)

/-- The certificate is absent, cannot be read, or expires within the renewal window. -/
def Replaceable (stored : Option Bundle) (now : ℤ) : Prop :=
  ∀ cert ∈ stored, ∀ expiry ∈ cert.notAfter, expiry ≤ now + cfg.renewBefore

instance (stored : Option Bundle) (now : ℤ) : Decidable (Replaceable cfg stored now) := by
  unfold Replaceable
  infer_instance

/-- What the state of a request says about the certificate that is stored for it. -/
def RequestState.Backed (stored : Option Bundle) (now : ℤ) (r : RequestState) : Prop :=
  match r.state with
  | .pending | .failed => Replaceable cfg stored now
  | .issued => ∀ expiry ∈ r.expiresAt,
      Replaceable cfg stored now ∨ stored.bind (·.notAfter) = some expiry
  | .unknown => False

variable {cfg} {stored : Option Bundle} {now later : ℤ} {r : RequestState}

theorem Replaceable.mono (h : Replaceable cfg stored now) (hle : now ≤ later) :
    Replaceable cfg stored later :=
  fun cert hcert expiry hexpiry => (h cert hcert expiry hexpiry).trans (by omega)

/-- An expiry inside the window. -/
theorem replaceable_of_expiry {expiry : ℤ} (h : stored.bind (·.notAfter) = some expiry)
    (hle : expiry ≤ now + cfg.renewBefore) : Replaceable cfg stored now := by
  intro cert hcert e he
  obtain rfl : stored = some cert := hcert
  obtain rfl : e = expiry := by simpa [Option.mem_def.mp he] using h
  exact hle

theorem RequestState.req_maybeRenew : (r.maybeRenew cfg now).1.req = r.req := by
  unfold RequestState.maybeRenew
  split
  · rfl
  · split_ifs <;> rfl

namespace RequestState.Backed

theorem mono (h : r.Backed cfg stored now) (hle : now ≤ later) : r.Backed cfg stored later := by
  unfold RequestState.Backed at h ⊢
  split at h
  · exact h.mono hle
  · exact h.mono hle
  · exact fun expiry hexpiry => (h expiry hexpiry).imp_left (·.mono hle)
  · exact h

theorem fail (h : Replaceable cfg stored now) {time : ℤ} {err : String} :
    (r.fail cfg time err).Backed cfg stored now := h

theorem reuse {expiry : ℤ} (h : stored.bind (·.notAfter) = some expiry) :
    (r.reuse cfg expiry).Backed cfg stored now := by
  intro e he
  cases he
  exact .inr h

/-- Where the certificate that is stored is the one that was obtained, or is not complete, its
expiry is the one that is written down. -/
theorem succeed {cert : Bundle} {time : ℤ} :
    (r.succeed cfg time cert).Backed cfg ((some cert).filter (·.complete)) now := by
  intro expiry hexpiry
  by_cases hcomplete : cert.complete
  · rw [Option.filter_some_pos hcomplete]
    cases hcert : cert.notAfter with
    | none => exact .inl fun c hc e he => by simp_all
    | some e => exact .inr (by simp_all [RequestState.succeed])
  · rw [Option.filter_some_neg (Bool.eq_false_iff.mpr hcomplete)]
    exact .inl fun c hc => absurd hc (Option.not_mem_none c)

theorem maybeRenew (h : r.Backed cfg stored now) (hissued : r.state = .issued) :
    (r.maybeRenew cfg now).1.Backed cfg stored now := by
  have hstored : ∀ expiry ∈ r.expiresAt,
      Replaceable cfg stored now ∨ stored.bind (·.notAfter) = some expiry := by
    simpa [RequestState.Backed, hissued] using h
  unfold RequestState.maybeRenew
  split
  · simpa [RequestState.Backed, hissued] using hstored
  · rename_i expiry hexpiry
    split_ifs with hearly
    · simpa [RequestState.Backed, hissued] using hstored
    · exact (hstored expiry hexpiry).elim id fun he => replaceable_of_expiry he (by omega)

theorem replaceable (h : r.Backed cfg stored now) (hne : r.state ≠ .issued) :
    Replaceable cfg stored now := by
  unfold RequestState.Backed at h
  split at h
  · exact h
  · exact h
  · exact absurd ‹_› hne
  · exact h.elim

end RequestState.Backed

end States

/-- The request for which `Issue` has been called, up to the moment the certificate is
stored. -/
def Loop.asking : Loop → Option ℕ
  | .issuing ptr _ | .storing ptr _ _ _ => some ptr
  | .awake | .working _ | .recording _ _ _ _ | .asleep _ => none

/-- The request whose certificate has been stored and not yet been recorded. -/
def Loop.saved : Loop → Option (ℕ × Bundle)
  | .recording ptr cert _ _ => some (ptr, cert)
  | .awake | .working _ | .issuing _ _ | .storing _ _ _ _ | .asleep _ => none

theorem Loop.head_of_saved {l : Loop} {p q : ℕ} {cert : Bundle} {work : List ℕ}
    (hsaved : l.saved = some (q, cert)) (hwork : l.work = p :: work) : q = p := by
  cases l <;> simp_all [Loop.saved, Loop.work]

theorem Loop.mem_work_of_asking {l : Loop} {p : ℕ} (h : p ∈ l.asking) : p ∈ l.work := by
  cases l <;> simp_all [Loop.asking, Loop.work]

theorem Loop.mem_work_of_saved {l : Loop} {p : ℕ} {cert : Bundle} (h : l.saved = some (p, cert)) :
    p ∈ l.work := by
  cases l <;> simp_all [Loop.saved, Loop.work]

theorem Submitting.ptr_tell {p : ℕ} {found : Option ℤ} (sub : Submitting) :
    (sub.tell p found).ptr = sub.ptr := by
  unfold Submitting.tell
  split_ifs <;> rfl

/-- What the probe of a `Submit` has found still holds of the store. -/
def Submitting.Tells (cfg : Config) (stored : Option Bundle) (now : ℤ) (sub : Submitting) : Prop :=
  match sub.probe with
  | none => True
  | some none => Replaceable cfg stored now
  | some (some expiry) => stored.bind (·.notAfter) = some expiry

theorem Submitting.Tells.mono {cfg : Config} {stored : Option Bundle} {now later : ℤ}
    {sub : Submitting} (h : sub.Tells cfg stored now) (hle : now ≤ later) :
    sub.Tells cfg stored later := by
  unfold Submitting.Tells at h ⊢
  split at h
  · trivial
  · exact h.mono hle
  · exact h

namespace System

/-- The requests whose states somebody may still use. -/
def live (s : System) : List ℕ := s.tracked ++ s.loop.work ++ s.submits.map (·.ptr)

variable (cfg : Config)

/-- The entry of the store that a request works for. -/
def entry (s : System) (p : ℕ) : String := cfg.certNameFor (s.heap p).req.host

/-- A new request has its entry of the store for itself, no tick takes up a request whose
`Submit` has not returned, and no probe of the store fails. -/
def Orderly (s : System) : Action → Prop
  | .submit req =>
    req.host = "" ∨ (∃ p ∈ s.tracked, (s.heap p).req.key = req.key) ∨
      ∀ p ∈ s.live, s.entry cfg p ≠ cfg.certNameFor req.host
  | .tick work => ∀ p ∈ work, p ∉ s.submits.map (·.ptr)
  | .probe _ ok => ok = true
  | _ => True

/-- The state of every request that is in use stands for what the store has. -/
structure Sound (s : System) : Prop where
  inUse : ∀ p ∈ s.live, p < s.size
  alone : ∀ p ∈ s.live, ∀ q ∈ s.live, s.entry cfg p = s.entry cfg q → p = q
  apart : ∀ sub ∈ s.submits, sub.ptr ∉ s.loop.work
  backed : ∀ p ∈ s.live, p ∉ s.submits.map (·.ptr) → (∀ cert, s.loop.saved ≠ some (p, cert)) →
    (s.heap p).Backed cfg (s.stored cfg (s.heap p).req.host) s.clock
  asking : ∀ p ∈ s.loop.asking, (s.heap p).state ≠ .issued
  saved : ∀ p cert, s.loop.saved = some (p, cert) → s.certs (s.entry cfg p) = some cert
  probing : ∀ sub ∈ s.submits, sub.now ≤ s.clock ∧ (s.heap sub.ptr).state = .pending ∧
    sub.Tells cfg (s.stored cfg (s.heap sub.ptr).req.host) s.clock
  calls : ∀ call ∈ s.calls, Replaceable cfg call.stored call.time

variable {cfg} {s t : System} {p : ℕ} {work : List ℕ}

theorem mem_live : p ∈ s.live ↔ p ∈ s.tracked ∨ p ∈ s.loop.work ∨ p ∈ s.submits.map (·.ptr) := by
  simp only [live, mem_append, or_assoc]

theorem mem_live_of_tracked (h : p ∈ s.tracked) : p ∈ s.live := mem_live.mpr (.inl h)

theorem mem_live_of_work (h : p ∈ s.loop.work) : p ∈ s.live := mem_live.mpr (.inr (.inl h))

variable {sub : Submitting}

theorem mem_live_of_submitting (h : sub ∈ s.submits) : sub.ptr ∈ s.live :=
  mem_live.mpr (.inr (.inr (mem_map_of_mem h)))

theorem Sound.not_submitting (hs : s.Sound cfg) (h : p ∈ s.loop.work) :
    p ∉ s.submits.map (·.ptr) := by
  intro hp
  obtain ⟨sub, hsub, rfl⟩ := mem_map.mp hp
  exact hs.apart sub hsub h

/-- A step that leaves the states, the store and the calls of `Submit` alone. -/
theorem Sound.frame (hs : s.Sound cfg) (hheap : t.heap = s.heap) (hsize : t.size = s.size)
    (hcerts : t.certs = s.certs) (hclock : s.clock ≤ t.clock) (hsubmits : t.submits = s.submits)
    (hlive : ∀ p ∈ t.live, p ∈ s.live) (hapart : ∀ p ∈ t.loop.work, p ∉ s.submits.map (·.ptr))
    (hsaved : t.loop.saved = s.loop.saved)
    (hasking : ∀ p ∈ t.loop.asking, (s.heap p).state ≠ .issued)
    (hcalls : ∀ call ∈ t.calls, Replaceable cfg call.stored call.time) : t.Sound cfg := by
  have hstored : ∀ host, t.stored cfg host = s.stored cfg host := by simp [stored, hcerts]
  have hentry : ∀ p, t.entry cfg p = s.entry cfg p := by simp [entry, hheap]
  constructor
  · exact fun p hp => hsize ▸ hs.inUse p (hlive p hp)
  · intro p hp q hq heq
    rw [hentry, hentry] at heq
    exact hs.alone p (hlive p hp) q (hlive q hq) heq
  · intro sub hsub hwork
    exact hapart _ hwork (mem_map_of_mem (hsubmits ▸ hsub))
  · intro p hp hsub hrec
    rw [hheap, hstored]
    exact (hs.backed p (hlive p hp) (hsubmits ▸ hsub) (hsaved ▸ hrec)).mono hclock
  · exact fun p hp => hheap ▸ hasking p hp
  · intro p cert h
    rw [hentry, hcerts]
    exact hs.saved p cert (hsaved ▸ h)
  · intro sub hsub
    obtain ⟨hnow, hstate, htells⟩ := hs.probing sub (hsubmits ▸ hsub)
    rw [hheap, hstored]
    exact ⟨hnow.trans hclock, hstate, htells.mono hclock⟩
  · exact hcalls

/-- The run loop writes the state of the request at hand and goes on to the next one. -/
theorem Sound.modify (hs : s.Sound cfg) (hwork : s.loop.work = p :: work)
    {f : RequestState → RequestState} (hreq : (f (s.heap p)).req = (s.heap p).req)
    (hbacked : (f (s.heap p)).Backed cfg (s.stored cfg (s.heap p).req.host) s.clock)
    (woken : Bool) (failure : ℕ → Option (ℤ × ℕ)) :
    Sound cfg { s.modify p f with loop := .working work, woken, failure } := by
  have hp : p ∈ s.loop.work := hwork ▸ mem_cons_self
  have hreq' : ∀ q, (Function.update s.heap p (f (s.heap p)) q).req = (s.heap q).req := by
    intro q
    obtain rfl | hne := eq_or_ne q p
    · rw [Function.update_self, hreq]
    · rw [Function.update_of_ne hne]
  have hlive : ∀ q ∈ s.tracked ++ work ++ s.submits.map (·.ptr), q ∈ s.live := by
    intro q hq
    simp only [live, hwork, mem_append, mem_cons] at hq ⊢
    tauto
  constructor
  · exact fun q hq => hs.inUse q (hlive q hq)
  · intro q hq r hr heq
    simp only [entry, System.modify, hreq'] at heq
    exact hs.alone q (hlive q hq) r (hlive r hr) heq
  · exact fun sub hsub hq => hs.apart sub hsub (hwork ▸ mem_cons_of_mem _ hq)
  · intro q hq hsub _
    simp only [System.modify, System.stored, hreq']
    obtain rfl | hne := eq_or_ne q p
    · rw [Function.update_self]
      exact hbacked
    · rw [Function.update_of_ne hne]
      exact hs.backed q (hlive q hq) hsub fun cert h => hne (Loop.head_of_saved h hwork)
  · exact fun q hq => absurd hq (Option.not_mem_none q)
  · exact nofun
  · intro sub hsub
    have hne : sub.ptr ≠ p := fun h => hs.apart sub hsub (h ▸ hp)
    simp only [System.modify, System.stored, Function.update_of_ne hne]
    exact hs.probing sub hsub
  · exact hs.calls

/-- Registering makes one state live. -/
theorem mem_live_register {req : Request} (h : p ∈ (s.register req).live) :
    p ∈ s.live ∨ p = s.size := by
  simp only [live, register, map_append, map_cons, map_nil, mem_append, mem_singleton] at h ⊢
  tauto

/-- A new request. -/
theorem Sound.register (hs : s.Sound cfg) {req : Request}
    (hfree : ∀ p ∈ s.live, s.entry cfg p ≠ cfg.certNameFor req.host) :
    (s.register req).Sound cfg := by
  have hne : ∀ p ∈ s.live, p ≠ s.size := fun p hp => (hs.inUse p hp).ne
  have hheap : ∀ p ∈ s.live, (s.register req).heap p = s.heap p :=
    fun p hp => Function.update_of_ne (hne p hp) _ _
  have hnew : (s.register req).heap s.size = .new req s.clock := Function.update_self _ _ _
  constructor
  · intro p hp
    obtain h | rfl := mem_live_register hp
    · exact Nat.lt_succ_of_lt (hs.inUse p h)
    · exact Nat.lt_succ_self _
  · intro p hp q hq heq
    simp only [entry] at heq
    obtain h | rfl := mem_live_register hp <;> obtain h' | rfl := mem_live_register hq
    · rw [hheap p h, hheap q h'] at heq
      exact hs.alone p h q h' heq
    · rw [hheap p h, hnew] at heq
      exact absurd heq (hfree p h)
    · rw [hheap q h', hnew] at heq
      exact absurd heq.symm (hfree q h')
    · rfl
  · intro sub h
    obtain h | h := mem_append.mp h
    · exact hs.apart sub h
    · rw [mem_singleton.mp h]
      exact fun hwork => hne _ (mem_live_of_work hwork) rfl
  · intro p hp hnot hrec
    simp only [System.register, map_append, map_cons, map_nil, mem_append,
      mem_singleton, not_or] at hnot
    have h := (mem_live_register hp).resolve_right hnot.2
    rw [hheap p h]
    exact hs.backed p h hnot.1 hrec
  · intro p hp
    rw [hheap p (mem_live_of_work (Loop.mem_work_of_asking hp))]
    exact hs.asking p hp
  · intro p cert h
    rw [entry, hheap p (mem_live_of_work (Loop.mem_work_of_saved h))]
    exact hs.saved p cert h
  · intro sub h
    obtain h | h := mem_append.mp h
    · rw [hheap _ (mem_live_of_submitting h)]
      exact hs.probing sub h
    · obtain rfl := mem_singleton.mp h
      exact ⟨le_rfl, by rw [hnew]; rfl, trivial⟩
  · exact hs.calls

theorem expiry_of_find {now expiry : ℤ}
    (h : (s.find cfg p now true).bind (·.notAfter) = some expiry) :
    (s.stored cfg (s.heap p).req.host).bind (·.notAfter) = some expiry := by
  obtain ⟨cert, hcert, hexpiry⟩ := Option.bind_eq_some_iff.mp h
  have hstored := (Option.filter_eq_some_iff.mp hcert).1
  rw [if_pos rfl] at hstored
  rw [hstored]
  exact hexpiry

theorem replaceable_of_find {now : ℤ} (h : (s.find cfg p now true).bind (·.notAfter) = none) :
    Replaceable cfg (s.stored cfg (s.heap p).req.host) now := by
  intro cert hcert expiry hexpiry
  by_contra hlt
  have hfind : s.find cfg p now true = some cert :=
    Option.filter_eq_some_iff.mpr
      ⟨by simpa using hcert, decide_eq_true ⟨expiry, hexpiry, by omega⟩⟩
  exact absurd (Option.mem_def.mp hexpiry) (by simp_all)

theorem submitting_eq (h : s.submitting p = some sub) :
    sub ∈ s.submits ∧ sub.ptr = p :=
  ⟨mem_of_find?_eq_some h, by simpa using find?_some h⟩

theorem map_ptr_probed {now : ℤ} {ok : Bool} :
    (s.probed cfg p now ok).submits.map (·.ptr) = s.submits.map (·.ptr) := by
  simp only [System.probed, map_map]
  exact map_congr_left fun sub _ => sub.ptr_tell

/-- The probe of a `Submit` writes down what the store has. -/
theorem Sound.probed (hs : s.Sound cfg) (hsub : s.submitting p = some sub) :
    (s.probed cfg p sub.now true).Sound cfg := by
  obtain ⟨hmem, hptr⟩ := submitting_eq hsub
  obtain ⟨hnow, hstate, -⟩ := hs.probing _ hmem
  have hlive : (s.probed cfg p sub.now true).live = s.live := by
    rw [live, map_ptr_probed]
    rfl
  constructor
  · intro q hq
    exact hs.inUse q (hlive ▸ hq)
  · intro q hq r hr
    exact hs.alone q (hlive ▸ hq) r (hlive ▸ hr)
  · intro sub' h
    obtain ⟨old, hold, rfl⟩ := mem_map.mp h
    rw [Submitting.ptr_tell]
    exact hs.apart old hold
  · intro q hq hnot
    exact hs.backed q (hlive ▸ hq) (map_ptr_probed ▸ hnot)
  · exact hs.asking
  · exact hs.saved
  · intro sub' h
    obtain ⟨old, hold, rfl⟩ := mem_map.mp h
    obtain ⟨hnow', hstate', htells⟩ := hs.probing old hold
    unfold Submitting.tell
    split_ifs with heq
    · refine ⟨hnow', hstate', ?_⟩
      rw [heq]
      cases hfound : (s.find cfg p sub.now true).bind (·.notAfter) with
      | none => exact (replaceable_of_find hfound).mono hnow
      | some expiry => exact expiry_of_find hfound
    · exact ⟨hnow', hstate', htells⟩
  · exact hs.calls

/-- A `Submit` returns. What its probe has found still holds, as nobody else works for the
entry. -/
theorem Sound.settle (hs : s.Sound cfg) (hsub : s.submitting p = some sub) {r : RequestState}
    (hreq : r.req = (s.heap p).req)
    (hbacked : r.Backed cfg (s.stored cfg (s.heap p).req.host) s.clock) :
    Sound cfg { s with
      heap := Function.update s.heap p r
      submits := s.submits.filter (·.ptr ≠ p)
      woken := true } := by
  obtain ⟨hmem, rfl⟩ := submitting_eq hsub
  have hnot : sub.ptr ∉ s.loop.work := hs.apart sub hmem
  have hreq' : ∀ q, (Function.update s.heap sub.ptr r q).req = (s.heap q).req := by
    intro q
    obtain rfl | hne := eq_or_ne q sub.ptr
    · rw [Function.update_self, hreq]
    · rw [Function.update_of_ne hne]
  have hlive : ∀ q ∈ s.tracked ++ s.loop.work ++ (s.submits.filter (·.ptr ≠ sub.ptr)).map (·.ptr),
      q ∈ s.live := by
    intro q hq
    simp only [live, mem_append] at hq ⊢
    exact hq.imp_right fun h => (filter_sublist.map _).subset h
  constructor
  · exact fun q hq => hs.inUse q (hlive q hq)
  · intro q hq q' hq' heq
    simp only [entry, hreq'] at heq
    exact hs.alone q (hlive q hq) q' (hlive q' hq') heq
  · exact fun sub' h => hs.apart sub' (mem_of_mem_filter h)
  · intro q hq hnot hrec
    simp only [System.stored, hreq']
    obtain rfl | hne := eq_or_ne q sub.ptr
    · rw [Function.update_self]
      exact hbacked
    · rw [Function.update_of_ne hne]
      refine hs.backed q (hlive q hq) (fun h => hnot ?_) hrec
      obtain ⟨sub', hsub', rfl⟩ := mem_map.mp h
      exact mem_map_of_mem (mem_filter.mpr ⟨hsub', by simpa using hne⟩)
  · intro q hq
    have hne : q ≠ sub.ptr := fun h => hnot (h ▸ Loop.mem_work_of_asking hq)
    simp only [Function.update_of_ne hne]
    exact hs.asking q hq
  · intro q cert h
    have hne : q ≠ sub.ptr := fun h' => hnot (h' ▸ Loop.mem_work_of_saved h)
    simp only [entry, Function.update_of_ne hne]
    exact hs.saved q cert h
  · intro sub' h
    obtain ⟨hsub', hne⟩ := mem_filter.mp h
    simp only [System.stored, Function.update_of_ne (of_decide_eq_true hne)]
    exact hs.probing sub' hsub'
  · exact hs.calls

/-- The end of a `Submit`. -/
theorem Sound.settled (hs : s.Sound cfg) {found : Option ℤ} (hsub : s.submitting p = some sub)
    (hfound : sub.probe = some found) : (s.settled cfg p found).Sound cfg := by
  obtain ⟨hmem, rfl⟩ := submitting_eq hsub
  obtain ⟨-, hstate, htells⟩ := hs.probing _ hmem
  rw [Submitting.Tells, hfound] at htells
  cases found with
  | some expiry =>
    exact hs.settle hsub (r := (s.heap sub.ptr).reuse cfg expiry) rfl (.reuse htells)
  | none =>
    have hbacked : (s.heap sub.ptr).Backed cfg
        (s.stored cfg (s.heap sub.ptr).req.host) s.clock := by
      rw [RequestState.Backed, hstate]
      exact htells
    have h := hs.settle hsub rfl hbacked
    rwa [Function.update_eq_self] at h

/-- A certificate is stored. It is nobody else's entry that is written. -/
theorem Sound.keep (hs : s.Sound cfg) {cert : Bundle} {now : ℤ}
    (hloop : s.loop = .storing p cert now work) : (s.keep cfg p cert now work).Sound cfg := by
  have hp : p ∈ s.loop.work := by
    rw [hloop]
    exact mem_cons_self
  have hstored : ∀ q ∈ s.live, q ≠ p →
      (s.keep cfg p cert now work).stored cfg (s.heap q).req.host =
        s.stored cfg (s.heap q).req.host := fun q hq hne =>
    congrArg _ <| Function.update_of_ne (fun h => hne (hs.alone q hq p (mem_live_of_work hp) h)) _ _
  have hlive : ∀ q ∈ s.tracked ++ (p :: work) ++ s.submits.map (·.ptr), q ∈ s.live := by
    intro q hq
    simpa only [live, hloop, Loop.work] using hq
  constructor
  · exact fun q hq => hs.inUse q (hlive q hq)
  · exact fun q hq r hr => hs.alone q (hlive q hq) r (hlive r hr)
  · intro sub hsub
    have h := hs.apart sub hsub
    rwa [hloop] at h
  · intro q hq hnot hrec
    have hne : q ≠ p := fun h => hrec cert (by rw [h]; rfl)
    rw [show (s.keep cfg p cert now work).heap = s.heap from rfl, hstored q (hlive q hq) hne]
    exact hs.backed q (hlive q hq) hnot fun c hc => by simp [hloop, Loop.saved] at hc
  · exact fun q hq => absurd hq (Option.not_mem_none q)
  · intro q c h
    obtain ⟨rfl, rfl⟩ : p = q ∧ cert = c := by
      simpa [System.keep, Loop.saved] using h
    exact Function.update_self _ _ _
  · intro sub hsub
    have hne : sub.ptr ≠ p := fun h => hs.apart sub hsub (h ▸ hp)
    rw [show (s.keep cfg p cert now work).heap = s.heap from rfl,
      hstored _ (mem_live_of_submitting hsub) hne]
    exact hs.probing sub hsub
  · exact hs.calls

/-- The run loop goes to sleep or wakes up. -/
theorem Sound.idle (hs : s.Sound cfg) (hwork : s.loop.work = []) {l : Loop} (hl : l.work = [])
    (hsaved : l.saved = none) (hasking : l.asking = none) (woken : Bool) :
    Sound cfg { s with loop := l, woken } := by
  have hnone : s.loop.saved = none := by
    cases h : s.loop <;> simp_all [Loop.work, Loop.saved]
  refine hs.frame rfl rfl rfl le_rfl rfl (fun p hp => ?_) (fun p hp => ?_)
    (hsaved.trans hnone.symm) (fun p hp => ?_) hs.calls
  · simpa only [live, hwork, hl] using hp
  · exact absurd (hl ▸ hp) not_mem_nil
  · exact absurd (hasking ▸ hp) (Option.not_mem_none p)

/-- Nothing but the store outlives the process, so only the calls that were made matter. -/
theorem Sound.fresh (hcalls : ∀ call ∈ s.calls, Replaceable cfg call.stored call.time) :
    Sound cfg { s with tracked := [], submits := [], loop := .awake, woken := false } where
  inUse _ hp := absurd hp not_mem_nil
  alone _ hp := absurd hp not_mem_nil
  apart _ hsub := absurd hsub not_mem_nil
  backed _ hp := absurd hp not_mem_nil
  asking p hp := absurd hp (Option.not_mem_none p)
  saved := nofun
  probing _ hsub := absurd hsub not_mem_nil
  calls := hcalls

/-- The run loop takes a request up. -/
theorem Sound.process (hs : s.Sound cfg) (hloop : s.loop = .working (p :: work)) :
    (s.process cfg p work).Sound cfg := by
  have hwork : s.loop.work = p :: work := by rw [hloop]; rfl
  have hp : p ∈ s.loop.work := hwork ▸ mem_cons_self
  have hbacked := hs.backed p (mem_live_of_work hp) (hs.not_submitting hp)
    fun cert h => by simp [hloop, Loop.saved] at h
  have hask : (s.heap p).state ≠ .issued → Sound cfg { s with
      loop := .issuing p work
      calls := ⟨p, (s.heap p).req.host, s.clock, s.stored cfg (s.heap p).req.host, s.failure p⟩ ::
        s.calls } := by
    intro hne
    refine hs.frame rfl rfl rfl le_rfl rfl (fun q hq => ?_) (fun q hq => ?_)
      (by rw [hloop]; rfl) (fun q hq => ?_) (forall_mem_cons.mpr ⟨?_, hs.calls⟩)
    · simpa only [live, hloop, Loop.work] using hq
    · exact hs.not_submitting (by rwa [hwork])
    · cases hq
      exact hne
    · exact hbacked.replaceable hne
  unfold System.process
  split
  · exact hask (by simp_all)
  · exact hask (by simp_all)
  · exact hs.modify hwork (f := fun _ => ((s.heap p).maybeRenew cfg s.clock).1)
      RequestState.req_maybeRenew (hbacked.maybeRenew ‹_›) _ _
  · simp [RequestState.Backed, *] at hbacked

/-- An attempt fails. -/
theorem Sound.failed (hs : s.Sound cfg) (hask : s.loop.asking = some p)
    (hwork : s.loop.work = p :: work) (now : ℤ) (err : String) :
    (s.failed cfg p now err work).Sound cfg := by
  have hp : p ∈ s.loop.work := hwork ▸ mem_cons_self
  have hbacked := hs.backed p (mem_live_of_work hp) (hs.not_submitting hp) fun cert h => by
    cases hl : s.loop <;> simp_all [Loop.saved, Loop.asking]
  exact hs.modify hwork rfl (.fail (hbacked.replaceable (hs.asking p hask))) _ _

/-- One step of an orderly run. -/
theorem Sound.step (hs : s.Sound cfg) {a : Action} (ha : s.Orderly cfg a)
    (hstep : s.step cfg a = some t) : t.Sound cfg := by
  cases step_move hstep with
  | ignore => exact hs
  | register hhost hnew =>
    exact hs.register ((ha.resolve_left hhost).resolve_left fun ⟨p, hp, heq⟩ => hnew p hp heq)
  | probe hsub =>
    obtain rfl := ha
    exact hs.probed hsub
  | settle hsub hfound => exact hs.settled hsub hfound
  | forget =>
    refine hs.frame rfl rfl rfl le_rfl rfl (fun p hp => ?_) (fun p => hs.not_submitting) rfl
      hs.asking hs.calls
    simp only [live, mem_append] at hp ⊢
    exact hp.imp_left (·.imp_left mem_of_mem_filter)
  | tick hloop hwork =>
    refine hs.frame rfl rfl rfl le_rfl rfl (fun p hp => ?_) ha (by rw [hloop]; rfl)
      (fun p hp => absurd hp (Option.not_mem_none p)) hs.calls
    obtain hp | hp | hp := mem_live.mp hp
    · exact mem_live_of_tracked hp
    · exact mem_live_of_tracked (mem_of_mem_filter (hwork.subset hp))
    · exact mem_live.mpr (.inr (.inr hp))
  | standBy hloop => exact hs.idle (by rw [hloop]; rfl) rfl rfl rfl _
  | process hloop => exact hs.process hloop
  | refuse hloop => exact hs.failed (by rw [hloop]; rfl) (by rw [hloop]; rfl) _ _
  | receive hloop =>
    refine hs.frame rfl rfl rfl le_rfl rfl (fun p hp => ?_) (fun p hp => ?_)
      (by rw [hloop]; rfl) (fun p hp => hs.asking p (by rw [hloop]; exact hp)) hs.calls
    · simpa only [live, received, hloop, Loop.work] using hp
    · exact hs.not_submitting (by rw [hloop]; exact hp)
  | lose hloop => exact hs.failed (by rw [hloop]; rfl) (by rw [hloop]; rfl) _ _
  | keep hloop => exact hs.keep hloop
  | @record p cert now work hloop =>
    refine hs.modify (by rw [hloop]; rfl) rfl ?_ _ _
    rw [System.stored, show s.certs (cfg.certNameFor (s.heap p).req.host) = some cert from
      hs.saved p cert (by rw [hloop]; rfl)]
    exact .succeed
  | sleep hloop => exact hs.idle (by rw [hloop]; rfl) rfl rfl rfl _
  | wake hloop => exact hs.idle (by rw [hloop]; rfl) rfl rfl rfl _
  | timer hloop => exact hs.idle (by rw [hloop]; rfl) rfl rfl rfl _
  | advance hnow =>
    exact hs.frame rfl rfl rfl hnow rfl (fun _ => id) (fun p => hs.not_submitting) rfl
      hs.asking hs.calls
  | restart => exact .fresh hs.calls

/-- A process starts over the given store. -/
def start (certs : String → Option Bundle) (now : ℤ) : System := { clock := now, certs }

/-- Where a run starts. -/
theorem sound_start {certs : String → Option Bundle} {now : ℤ} : (start certs now).Sound cfg :=
  .fresh (s := start certs now) fun _ hcall => absurd hcall not_mem_nil

instance (s : System) (a : Action) : Decidable (s.Orderly cfg a) := by
  cases a <;> unfold Orderly <;> infer_instance

end System

/-- As long as a new request has its entry of the store for itself, no tick takes up a request
whose `Submit` has not returned and no probe fails: whenever `Issue` is called, the stored
certificate is absent, cannot be read, or expires within the renewal window. -/
theorem good_cert_never_reissued {cfg : Config} {certs : String → Option Bundle} {now : ℤ}
    {acts : List Action} {s : System}
    (horderly : Along (System.step cfg) (System.Orderly cfg) (.start certs now) acts)
    (hrun : exec (System.step cfg) (.start certs now) acts = some s) :
    ∀ call ∈ s.calls, Replaceable cfg call.stored call.time := by
  have hsound : s.Sound cfg := exec_invariant_along
    (fun _ _ _ h ha hstep => h.step ha hstep) System.sound_start horderly hrun
  exact hsound.calls

/-- The configuration that `New` makes out of one with nothing set. -/
def standardConfig : Config :=
  Config.defaults
    { retry := ⟨0, 0, 0⟩, renewBefore := 0, float64 := id, certNameFor := ("acme-cert-" ++ ·) }

/-- The service of a name, with one host. -/
def webRequest (name : String) : Request := ⟨"default", name, "a.example"⟩

/-- A certificate is found by a new process and is issued again when it is due. -/
def renewedAfterRestart : List Action :=
  [.submit (webRequest "web"), .probe 0 true, .settle 0, .tick [0], .process,
    .issued (.ok ⟨some (90 * day), true⟩), .saved none, .record, .restart,
    .submit (webRequest "web"), .probe 1 true, .settle 1, .tick [], .sleep, .advance (60 * day),
    .timer, .tick [1], .process, .sleep, .timer, .tick [1], .process]

/-- A renewal, which a restart does not repeat. -/
theorem renewedAfterRestart_replaceable :
    ∃ s, exec (System.step standardConfig) (.start (fun _ => none) 0) renewedAfterRestart = some s ∧
      s.calls.map (fun call => (call.time, call.stored)) =
        [(60 * day, some ⟨some (90 * day), true⟩), (0, none)] ∧
      ∀ call ∈ s.calls, Replaceable standardConfig call.stored call.time := by
  have horderly : Along (System.step standardConfig) (System.Orderly standardConfig)
      (.start (fun _ => none) 0) renewedAfterRestart := by
    decide +kernel
  exact ⟨_, rfl, by decide +kernel, good_cert_never_reissued horderly rfl⟩

/-- A certificate that is good for 90 days is issued again at once: for the second of two services
that name its host, and by a new process whose first tick comes before `Submit` has written what
it found. -/
theorem good_cert_reissued :
    (∃ s, exec (System.step standardConfig) (.start (fun _ => none) 0)
        [.submit (webRequest "web"), .probe 0 true, .settle 0,
          .submit (webRequest "api"), .probe 1 true, .settle 1, .tick [0, 1], .process,
          .issued (.ok ⟨some (90 * day), true⟩), .saved none, .record, .process] = some s ∧
      ∃ call ∈ s.calls, ¬ Replaceable standardConfig call.stored call.time) ∧
    ∃ s, exec (System.step standardConfig) (.start (fun _ => some ⟨some (90 * day), true⟩) 0)
        [.submit (webRequest "web"), .tick [0], .process] = some s ∧
      ∃ call ∈ s.calls, ¬ Replaceable standardConfig call.stored call.time :=
  ⟨⟨_, rfl, by decide +kernel⟩, _, rfl, by decide +kernel⟩

end Rune.Acme
