import Rune.Models.Vip.Network

/-!
# The allocator's copy of the record

The allocator answers from a mirror of the record in memory. An applier sets the
mirror inside the transaction of its proposal, before the event is encoded and the
transaction commits; a failure after that point leaves the mirror ahead of the log.
Without one the mirror and the persisted record agree after every call.
-/

namespace Rune.Vip

open Rune.Core

/-- Where a proposal fails, if at all. An applier may fail by itself too. -/
inductive Fault where
  | none
  /-- Before the transaction: the log is closed, the context cancelled. -/
  | refused
  /-- The write of the record inside the transaction. -/
  | save
  /-- The encoding of the event, after the applier. -/
  | encode
  /-- The commit. -/
  | commit
  deriving DecidableEq

/-- The fault hits after an applier has succeeded. -/
def Fault.late : Fault → Bool
  | .encode | .commit => true
  | .none | .refused | .save => false

/-- Why a proposal fails. -/
inductive ProposeError where
  | refused
  | applier (err : VipError)
  | save
  | encode
  | commit
  deriving DecidableEq

/-- Why `Allocate` fails. -/
inductive AllocateError where
  | emptyServiceID
  | propose (err : ProposeError)
  | vanished
  deriving DecidableEq

/-- Why `Bootstrap` fails. -/
inductive BootstrapError where
  | alreadyBootstrapped
  | noCIDR
  | invalid (err : VipError)
  | cidrCollision
  | propose (err : ProposeError)
  deriving DecidableEq

/-- The record in the log and its mirror in the allocator. -/
structure Allocator where
  persisted : ClusterNetwork := {}
  mirror : ClusterNetwork := {}

namespace Allocator

/-- `Propose`: apply, encode the event, commit. -/
def propose (a : Allocator) (op : Op) (first : ℕ) (fault : Fault) :
    Allocator × Except ProposeError Unit :=
  if fault = .refused then (a, .error .refused)
  else match op.apply a.persisted first with
    | .error err => (a, .error (.applier err))
    | .ok r =>
      if fault = .save ∧ r.saved.isSome then (a, .error .save)
      else
        let a := { a with mirror := r.mirror.getD a.mirror }
        if fault = .encode then (a, .error .encode)
        else if fault = .commit then (a, .error .commit)
        else ({ a with persisted := r.saved.getD a.persisted }, .ok ())

/-- `Allocate`, with the address it returns. -/
def allocate (a : Allocator) (serviceID : String) (fault : Fault) :
    Allocator × Except AllocateError Bytes :=
  if serviceID = "" then (a, .error .emptyServiceID)
  else match a.mirror.allocatedVIPs.lookup serviceID with
    | some existing => (a, .ok ((parseIP existing).getD []))
    | none =>
      match a.propose (.allocate serviceID) 0 fault with
      | (a, .error err) => (a, .error (.propose err))
      | (a, .ok ()) =>
        match a.mirror.allocatedVIPs.lookup serviceID with
        | some ip => (a, .ok ((parseIP ip).getD []))
        | none => (a, .error .vanished)

/-- `Bootstrap` with the configured network; `routeOk` is the outcome of the check
against the routes of the host. -/
def bootstrap (a : Allocator) (desired : String) (routeOk : Bool) (fault : Fault) :
    Allocator × Except BootstrapError Unit :=
  if a.mirror.cidr ≠ "" then
    if desired ≠ "" ∧ a.mirror.cidr ≠ desired then (a, .error .alreadyBootstrapped)
    else (a, .ok ())
  else if desired = "" then (a, .error .noCIDR)
  else match validatePrivateCIDR desired with
    | .error err => (a, .error (.invalid err))
    | .ok _ =>
      if routeOk = false then (a, .error .cidrCollision)
      else match a.propose (.bootstrap desired) 0 fault with
        | (a, .error err) => (a, .error (.propose err))
        | (a, .ok ()) => (a, .ok ())

/-- The calls on an allocator, and a new process that calls `Bootstrap` first. -/
inductive Call where
  | propose (op : Op) (first : ℕ) (fault : Fault)
  | allocate (serviceID : String) (fault : Fault)
  | restart (desired : String) (routeOk : Bool) (fault : Fault)

/-- One call. -/
def step (a : Allocator) : Call → Option Allocator
  | .propose op first fault => some (a.propose op first fault).1
  | .allocate serviceID fault => some (a.allocate serviceID fault).1
  | .restart desired routeOk fault =>
    some ({ a with mirror := {} }.bootstrap desired routeOk fault).1

/-- No proposal fails after its applier, and a new process comes up. -/
def Clean (a : Allocator) : Call → Prop
  | .propose _ _ fault => fault.late = false
  | .allocate _ fault => fault.late = false
  | .restart desired routeOk fault =>
    fault.late = false ∧
      ({ a with mirror := {} }.bootstrap desired routeOk fault).2 = .ok ()

instance Clean.decidable (a : Allocator) : (c : Call) → Decidable (a.Clean c)
  | .propose _ _ fault => inferInstanceAs (Decidable (fault.late = false))
  | .allocate _ fault => inferInstanceAs (Decidable (fault.late = false))
  | .restart _ _ _ => inferInstanceAs (Decidable (_ ∧ _))

variable {a a' : Allocator} {op : Op} {first : ℕ} {fault : Fault} {cur cn : ClusterNetwork}

/-- What an applier puts into the mirror is what it writes, or what it read. -/
theorem mirror_of_apply {r : Applied} (h : op.apply cur first = .ok r) :
    r.mirror = r.saved ∨ r.saved = none ∧ r.mirror = some cur ∧ ∃ c, op = .bootstrap c := by
  cases op with
  | bootstrap cidr =>
    simp only [Op.apply, applyBootstrap] at h
    split_ifs at h <;> cases h
    · exact .inr ⟨rfl, rfl, cidr, rfl⟩
    · exact .inl rfl
  | allocate | release =>
    simp only [Op.apply, applyAllocate, applyRelease] at h
    repeat' split at h
    all_goals cases h
    all_goals exact .inl rfl

theorem mirror_of_saved {r : Applied} (h : op.apply cur first = .ok r) (hs : r.saved = some cn) :
    r.mirror = some cn := by
  rcases mirror_of_apply h with hm | ⟨hnone, -⟩
  · rw [hm, hs]
  · rw [hs] at hnone
    cases hnone

/-- A proposal without a late fault fails and changes nothing, or it applies its
operation to the record and to the mirror. -/
theorem propose_cases (a : Allocator) (op : Op) (first : ℕ) (hf : fault.late = false) :
    ((a.propose op first fault).1 = a ∧ ∃ err, (a.propose op first fault).2 = .error err) ∨
    ∃ r, op.apply a.persisted first = .ok r ∧ (a.propose op first fault).2 = .ok () ∧
      (a.propose op first fault).1 =
        { persisted := r.saved.getD a.persisted, mirror := r.mirror.getD a.mirror } := by
  have hencode : fault ≠ .encode := fun he => by simp [he, Fault.late] at hf
  have hcommit : fault ≠ .commit := fun he => by simp [he, Fault.late] at hf
  unfold propose
  split_ifs with hrefused
  · exact .inl ⟨rfl, _, rfl⟩
  · cases happly : op.apply a.persisted first with
    | error err => exact .inl ⟨rfl, _, rfl⟩
    | ok r =>
      dsimp only
      by_cases hsave : fault = .save ∧ r.saved.isSome
      · rw [if_pos hsave]
        exact .inl ⟨rfl, _, rfl⟩
      · rw [if_neg hsave]
        exact .inr ⟨r, rfl, rfl, rfl⟩

/-- The invariant of clean runs. -/
structure Agree (a : Allocator) : Prop where
  mirror : a.mirror = a.persisted
  sound : Sound Dotted a.persisted
  /-- Without a network there is no record. -/
  blank : a.persisted.cidr = "" → a.persisted = {}

theorem dotted_of_pickIP {cidr : String} {m : AList fun _ : String => String} {ip : Bytes}
    {rest : List String} (h : pickIP cidr [] m = .ok (ip, rest)) : Dotted (ipString ip) := by
  obtain ⟨-, net, netIP, -, h4, hscan⟩ := pickIP_nil h
  have hlen : ip.length = 4 := by simpa [length_to4 h4] using (scan_eq_some hscan).1
  exact ⟨ip, hlen, ipString_of_length hlen⟩

/-- What a write keeps of a record, whatever its network. -/
theorem sound_of_writes (h : Sound Dotted cur) (hw : Writes cur op cn) : Sound Dotted cn :=
  h.write (fun _ hip => hip) (fun _ _ => dotted_of_pickIP) hw

theorem blank_of_writes (h : cur.cidr = "" → cur = {}) (hw : Writes cur op cn) :
    cn.cidr = "" → cn = {} := by
  cases hw with
  | bootstrap cidr hcidr =>
    rintro rfl
    rfl
  | allocate serviceID ip rest hcidr => exact fun he => absurd he hcidr
  | release ip owner hne howner =>
    intro he
    have := h he
    subst this
    cases howner

/-- A proposal without a late fault changes nothing, or leaves what it wrote in the record
and in the mirror. -/
theorem Agree.propose_writes (h : a.Agree) (op : Op) (first : ℕ) (hf : fault.late = false) :
    (a.propose op first fault).1 = a ∨
      ∃ cn, Writes a.persisted op cn ∧
        (a.propose op first fault).1 = { persisted := cn, mirror := cn } := by
  rcases a.propose_cases op first hf with ⟨he, -⟩ | ⟨r, happly, -, he⟩
  · exact .inl he
  · rw [he]
    cases hs : r.saved with
    | none =>
      left
      rcases mirror_of_apply happly with hm | ⟨-, hm, -⟩
      · rw [hm, hs]
        rfl
      · rw [hm]
        exact congrArg (Allocator.mk a.persisted) h.mirror.symm
    | some cn =>
      refine .inr ⟨cn, writes_of_apply happly hs, ?_⟩
      rw [mirror_of_saved happly hs]
      rfl

/-- A proposal without a late fault keeps the two copies equal. -/
theorem Agree.propose (h : a.Agree) (op : Op) (first : ℕ) (hf : fault.late = false) :
    (a.propose op first fault).1.Agree := by
  rcases h.propose_writes op first hf with he | ⟨cn, hw, he⟩ <;> rw [he]
  · exact h
  · exact ⟨rfl, sound_of_writes h.sound hw, blank_of_writes h.blank hw⟩

/-- `Allocate` answers from the mirror or proposes. -/
theorem allocate_fst (a : Allocator) (serviceID : String) (fault : Fault) :
    (a.allocate serviceID fault).1 = a ∨
      (a.allocate serviceID fault).1 = (a.propose (.allocate serviceID) 0 fault).1 := by
  unfold allocate
  split_ifs
  · exact .inl rfl
  · cases a.mirror.allocatedVIPs.lookup serviceID with
    | some existing => exact .inl rfl
    | none =>
      rcases hp : a.propose (.allocate serviceID) 0 fault with ⟨a', _ | _⟩
      · exact .inr rfl
      · right
        dsimp only
        split <;> rfl

/-- An allocation. -/
theorem Agree.allocate (h : a.Agree) (serviceID : String) (hf : fault.late = false) :
    (a.allocate serviceID fault).1.Agree := by
  rcases a.allocate_fst serviceID fault with he | he
  · rwa [he]
  · rw [he]
    exact h.propose _ _ hf

/-- `Bootstrap` with an empty mirror succeeds only by its proposal. -/
theorem bootstrap_of_blank {desired : String} {routeOk : Bool} (hblank : a.mirror.cidr = "")
    (hok : (a.bootstrap desired routeOk fault).2 = .ok ()) :
    (a.propose (.bootstrap desired) 0 fault).2 = .ok () ∧
      (a.bootstrap desired routeOk fault).1 = (a.propose (.bootstrap desired) 0 fault).1 := by
  unfold bootstrap at hok ⊢
  rw [if_neg (not_not.mpr hblank)] at hok ⊢
  by_cases hdesired : desired = ""
  · simp [hdesired] at hok
  · rw [if_neg hdesired] at hok ⊢
    cases hval : validatePrivateCIDR desired with
    | error err => simp [hval] at hok
    | ok net =>
      cases routeOk with
      | false => simp [hval] at hok
      | true =>
        rcases hp : a.propose (.bootstrap desired) 0 fault with ⟨a', err | _⟩
        · simp [hval, hp] at hok
        · exact ⟨rfl, by simp⟩

/-- A new process that comes up has read the record. -/
theorem Agree.restart (h : a.Agree) {desired : String} {routeOk : Bool}
    (hf : fault.late = false)
    (hok : ({ a with mirror := {} }.bootstrap desired routeOk fault).2 = .ok ()) :
    ({ a with mirror := {} }.bootstrap desired routeOk fault).1.Agree := by
  obtain ⟨hdone, he⟩ := bootstrap_of_blank rfl hok
  rw [he]
  rcases propose_cases { a with mirror := {} } (.bootstrap desired) 0 hf with
    ⟨-, err, herr⟩ | ⟨r, happly, -, he⟩
  · rw [herr] at hdone
    cases hdone
  · have hmirror : r.mirror = some (r.saved.getD a.persisted) := by
      simp only [Op.apply, applyBootstrap] at happly
      split_ifs at happly <;> cases happly <;> rfl
    rw [he, hmirror]
    cases hs : r.saved with
    | none => exact ⟨rfl, h.sound, h.blank⟩
    | some cn =>
      have hw := writes_of_apply happly hs
      exact ⟨rfl, sound_of_writes h.sound hw, blank_of_writes h.blank hw⟩

/-- One clean call. -/
theorem Agree.step (h : a.Agree) {c : Call} (hc : a.Clean c) (ht : a.step c = some a') :
    a'.Agree := by
  cases c with
  | propose op first fault =>
    cases ht
    exact h.propose op first hc
  | allocate serviceID fault =>
    cases ht
    exact h.allocate serviceID hc
  | restart desired routeOk fault =>
    cases ht
    exact h.restart hc.1 hc.2

/-- Every clean run. -/
theorem agree_of_exec {calls : List Call} (hclean : Along step Clean {} calls)
    (h : exec step {} calls = some a) : a.Agree :=
  exec_invariant_along (fun _ _ _ h hc ht => h.step hc ht)
    ⟨rfl, .empty "", fun _ => rfl⟩ hclean h

/-- An address that is answered is in the mirror afterwards. -/
theorem lookup_of_allocate {serviceID : String} {ip : Bytes}
    (h : (a.allocate serviceID fault).2 = .ok ip) :
    ∃ text, (a.allocate serviceID fault).1.mirror.allocatedVIPs.lookup serviceID = some text ∧
      ip = (parseIP text).getD [] := by
  unfold allocate at h ⊢
  split_ifs at h ⊢ with hempty
  cases hl : a.mirror.allocatedVIPs.lookup serviceID with
  | some existing =>
    simp only [hl, Except.ok.injEq] at h
    exact ⟨existing, hl, h.symm⟩
  | none =>
    simp only [hl] at h ⊢
    rcases hp : a.propose (.allocate serviceID) 0 fault with ⟨a', err | _⟩
    · simp [hp] at h
    · simp only [hp] at h ⊢
      cases hl' : a'.mirror.allocatedVIPs.lookup serviceID with
      | none => simp [hl'] at h
      | some text =>
        simp only [hl', Except.ok.injEq] at h
        exact ⟨text, hl', h.symm⟩

/-- A call with a late fault gives an address only if it made no proposal. -/
theorem allocate_of_late {serviceID : String} {ip : Bytes} (hf : fault.late = true)
    (h : (a.allocate serviceID fault).2 = .ok ip) : (a.allocate serviceID fault).1 = a := by
  have hpropose : ∀ op first, (a.propose op first fault).2 ≠ .ok () := by
    intro op first
    unfold propose
    cases fault with
    | none | refused | save => cases hf
    | encode | commit => cases op.apply a.persisted first <;> simp
  unfold allocate at h ⊢
  split_ifs at h ⊢ with hempty
  cases hl : a.mirror.allocatedVIPs.lookup serviceID with
  | some existing => rfl
  | none =>
    simp only [hl] at h ⊢
    rcases hp : a.propose (.allocate serviceID) 0 fault with ⟨a', err | _⟩
    · simp [hp] at h
    · exact absurd (by rw [hp]) (hpropose (.allocate serviceID) 0)

/-- When no proposal fails after its applier has succeeded and every new process comes up, the
mirror is the persisted record after every call, and `Allocate` returns what the record assigns to
the service. -/
theorem mirror_never_ahead {calls : List Call} (hclean : Along step Clean {} calls)
    (h : exec step {} calls = some a) :
    a.mirror = a.persisted ∧
      ∀ serviceID fault ip, (a.allocate serviceID fault).2 = .ok ip →
        (a.allocate serviceID fault).1.persisted.allocatedVIPs.lookup serviceID =
          some (ipString ip) := by
  have hagree := agree_of_exec hclean h
  refine ⟨hagree.mirror, fun serviceID fault ip hip => ?_⟩
  obtain ⟨text, hlookup, rfl⟩ := lookup_of_allocate hip
  have hafter : (a.allocate serviceID fault).1.Agree := by
    cases hf : fault.late with
    | false => exact hagree.allocate serviceID hf
    | true => rwa [allocate_of_late hf hip]
  rw [hafter.mirror] at hlookup
  have hdotted := hafter.sound.addresses text
    (List.mem_append_left _ (mem_values_of_lookup hlookup))
  rw [hdotted.ipString_parseIP, hlookup]

/-- A first allocation. -/
theorem mirror_never_ahead_web :
    ∃ a, exec step {} [.restart "10.96.0.0/16" true .none] = some a ∧
      (a.allocate "web" .none).1.persisted.allocatedVIPs.lookup "web" =
        some (ipString (v4InV6Prefix ++ [10, 96, 0, 2])) := by
  have hclean : Along step Clean {} [.restart "10.96.0.0/16" true .none] := by decide +kernel
  exact ⟨_, rfl, (mirror_never_ahead hclean rfl).2 "web" .none _ (by decide +kernel)⟩

/-- A commit fails after the applier: the failed `Allocate` gives an error, the next call gets the
address from the mirror, and the record does not have it. -/
theorem mirror_ahead_after_failed_commit :
    ∃ a, exec step {} [.restart "10.96.0.0/16" true .none, .allocate "web" .commit] = some a ∧
      (a.allocate "web" .none).2 = .ok (v4InV6Prefix ++ [10, 96, 0, 2]) ∧
      (a.allocate "web" .none).1.persisted.allocatedVIPs.lookup "web" = none := by
  refine ⟨_, rfl, ?_, ?_⟩ <;> decide +kernel

end Allocator

end Rune.Vip
