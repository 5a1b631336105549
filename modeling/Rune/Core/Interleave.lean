import Rune.Core.Run

/-!
# Programs of atomic accesses and their interleavings

A program is a finite tree of atomic accesses to one shared state, each
continued by the state it found. A pool runs any number of programs, one access
at a time in any order. What every access of every program preserves holds in
every state of the pool, and a program that nothing interrupts does what its
accesses do one after the other.
-/

namespace Rune.Core

open List

/-- A program over the shared state `σ` that ends in a result of type `α`. -/
inductive Prog (σ α : Type) where
  | ret (a : α)
  | act (upd : σ → σ) (next : σ → Prog σ α)

namespace Prog

variable {σ α β : Type}

/-- Run the first program and continue with its result. -/
def bind : Prog σ α → (α → Prog σ β) → Prog σ β
  | ret a, f => f a
  | act upd next, f => act upd fun s => (next s).bind f

instance : Monad (Prog σ) where
  pure := ret
  bind := bind

/-- A program that is one access. -/
def atomic (op : σ → σ × α) : Prog σ α :=
  act (fun s => (op s).1) fun s => ret (op s).2

/-- The accesses a program makes on the way to a result, with the states it found and left; what
happens between two of them is open. -/
inductive Trace : Prog σ α → List (σ × σ) → α → Prop where
  | ret (a : α) : Trace (.ret a) [] a
  | act {upd : σ → σ} {next : σ → Prog σ α} {accesses : List (σ × σ)} {a : α} (s : σ)
      (h : Trace (next s) accesses a) : Trace (.act upd next) ((s, upd s) :: accesses) a

variable {accesses : List (σ × σ)} {op : σ → σ × α} {f : α → Prog σ β} {p : Prog σ α}

theorem Trace.of_ret {a b : α} (h : Trace (.ret a) accesses b) : accesses = [] ∧ b = a := by
  cases h
  exact ⟨rfl, rfl⟩

theorem Trace.of_atomic {a : α} (h : Trace (atomic op) accesses a) :
    ∃ s, accesses = [(s, (op s).1)] ∧ a = (op s).2 := by
  cases h with
  | act s h =>
    obtain ⟨rfl, rfl⟩ := h.of_ret
    exact ⟨s, rfl, rfl⟩

/-- The accesses of a sequence are those of its first part and then those of its second. -/
theorem Trace.of_bind {b : β} (h : Trace (p.bind f) accesses b) :
    ∃ a first rest, accesses = first ++ rest ∧ Trace p first a ∧ Trace (f a) rest b := by
  induction p generalizing accesses with
  | ret a => exact ⟨a, [], accesses, rfl, .ret a, h⟩
  | act upd next ih =>
    cases h with
    | act s h =>
      obtain ⟨a, first, rest, rfl, hfirst, hrest⟩ := ih s h
      exact ⟨a, _ :: first, rest, rfl, .act s hfirst, hrest⟩

/-- A last step that only computes makes no access. -/
theorem Trace.of_bind_ret {f : α → β} {b : β} (h : Trace (p.bind fun a => .ret (f a)) accesses b) :
    ∃ a, Trace p accesses a ∧ b = f a := by
  obtain ⟨a, first, rest, rfl, hfirst, hrest⟩ := h.of_bind
  obtain ⟨rfl, rfl⟩ := hrest.of_ret
  rw [append_nil]
  exact ⟨a, hfirst, rfl⟩

/-- Every access of the program preserves the property of the shared state. -/
def Keeps (inv : σ → Prop) : Prog σ α → Prop
  | ret _ => True
  | act upd next => ∀ s, inv s → inv (upd s) ∧ (next s).Keeps inv

variable {inv : σ → Prop}

theorem Keeps.of_atomic (h : ∀ s, inv s → inv (op s).1) :
    (atomic op).Keeps inv := fun s hs => ⟨h s hs, trivial⟩

/-- A sequence keeps what both parts keep. -/
theorem Keeps.bind (hp : p.Keeps inv) (hf : ∀ a, (f a).Keeps inv) : (p.bind f).Keeps inv := by
  induction p with
  | ret a => exact hf a
  | act upd next ih => exact fun s hs => ⟨(hp s hs).1, ih s (hp s hs).2⟩

/-- The program has accesses left to make. -/
def isActive : Prog σ α → Bool
  | ret _ => false
  | act _ _ => true

/-- Run with no other access in between, every access of the program leaves the property and its
last one the postcondition. -/
def Upholds (inv : σ → Prop) (post : α → σ → Prop) : Prog σ α → σ → Prop
  | ret a, s => post a s
  | act upd next, s => inv (upd s) ∧ (next s).Upholds inv post (upd s)

variable {post : α → σ → Prop} {after : β → σ → Prop}

/-- A weaker postcondition. -/
theorem Upholds.mono {weaker : α → σ → Prop} (h : ∀ a s, post a s → weaker a s) {s : σ}
    (hp : p.Upholds inv post s) : p.Upholds inv weaker s := by
  induction p generalizing s with
  | ret a => exact h a s hp
  | act upd next ih => exact ⟨hp.1, ih s hp.2⟩

theorem Upholds.of_atomic {s : σ} (hinv : inv (op s).1) (hpost : post (op s).2 (op s).1) :
    (atomic op).Upholds inv post s := ⟨hinv, hpost⟩

/-- A sequence upholds what its second part does from every end of its first. -/
theorem Upholds.bind {s : σ} (hp : p.Upholds inv post s)
    (hf : ∀ a t, post a t → (f a).Upholds inv after t) : (p.bind f).Upholds inv after s := by
  induction p generalizing s with
  | ret a => exact hf a s hp
  | act upd next ih => exact ⟨hp.1, ih s hp.2⟩

end Prog

/-- Programs in progress and the state they share. -/
structure Pool (σ α : Type) where
  shared : σ
  threads : List (Prog σ α)

/-- What happens to a pool: a call begins, or a thread makes its next access. -/
inductive Sched (κ : Type) where
  | start (call : κ)
  | resume (thread : ℕ)

variable {σ α κ : Type} (code : κ → Prog σ α)

/-- One step of a pool whose calls run the given code. -/
def Pool.step (p : Pool σ α) : Sched κ → Option (Pool σ α)
  | .start call => some { p with threads := p.threads ++ [code call] }
  | .resume i =>
    match p.threads[i]? with
    | some (.act upd next) => some ⟨upd p.shared, p.threads.set i (next p.shared)⟩
    | _ => none

variable {code}

/-- The shared state has the property and every thread in progress will keep it. -/
def Pool.Sound (inv : σ → Prop) (p : Pool σ α) : Prop :=
  inv p.shared ∧ ∀ t ∈ p.threads, t.Keeps inv

/-- One step of the pool. -/
theorem Pool.Sound.step {inv : σ → Prop} {p q : Pool σ α} {a : Sched κ} (hp : p.Sound inv)
    (hcode : ∀ call, a = .start call → (code call).Keeps inv)
    (h : Pool.step code p a = some q) : q.Sound inv := by
  cases a with
  | start call =>
    cases h
    refine ⟨hp.1, fun t ht => ?_⟩
    rcases mem_append.mp ht with ht | ht
    · exact hp.2 t ht
    · obtain rfl := mem_singleton.mp ht
      exact hcode call rfl
  | resume i =>
    rcases ht : p.threads[i]? with _ | t
    · simp [Pool.step, ht] at h
    cases t with
    | ret a => simp [Pool.step, ht] at h
    | act upd next =>
      obtain rfl : _ = q := by simpa only [Pool.step, ht, Option.some.injEq] using h
      obtain ⟨hinv, hnext⟩ := hp.2 _ (mem_of_getElem? ht) p.shared hp.1
      refine ⟨hinv, fun t hm => ?_⟩
      rcases mem_or_eq_of_mem_set hm with hm | rfl
      · exact hp.2 t hm
      · exact hnext

/-- What every access of every call preserves holds in every state of every interleaving. -/
theorem Pool.invariant {inv : σ → Prop} {p q : Pool σ α} {acts : List (Sched κ)}
    (hcode : ∀ call, Sched.start call ∈ acts → (code call).Keeps inv) (hp : p.Sound inv)
    (h : exec (Pool.step code) p acts = some q) : inv q.shared := by
  have hc : Along (Pool.step code)
      (fun _ a => ∀ call, a = .start call → (code call).Keeps inv) p acts := by
    refine Along.of_forall ?_ p
    rintro a ha _ call rfl
    exact hcode call ha
  exact (exec_invariant_along (fun _ _ _ hs hcond hst => Pool.Sound.step hs hcond hst) hp hc h).1

end Rune.Core
