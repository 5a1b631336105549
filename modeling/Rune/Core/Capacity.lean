import Mathlib.Algebra.Order.BigOperators.Group.List
import Mathlib.Tactic.Linarith

/-!
# Claims on a resource that is shared or held exclusively

A resource of fixed capacity is claimed in amounts, or exclusively. A floor is
withheld from every holder and an overhead is charged for each of them. Every move
of the claims keeps the accounts sound: an exclusive holder is alone, and the
amounts with floor and overheads stay within the capacity.
-/

namespace Rune.Core

/-- One holder's claim on a resource. -/
structure Claim where
  exclusive : Bool
  amount : Int

/-- What the holders claim together. -/
def claimed (cs : List Claim) : Int := (cs.map Claim.amount).sum

/-- No claim is exclusive. -/
def Shared (cs : List Claim) : Prop := ∀ c ∈ cs, c.exclusive = false

section Account

variable (floor each capacity : Int)

/-- The claims of the present holders can be met side by side. -/
def Fits (cs : List Claim) : Prop :=
  (∃ c, cs = [c] ∧ c.exclusive = true) ∨
    Shared cs ∧ claimed cs + floor + each * cs.length ≤ capacity

/-- The ways the claims on a resource may change. -/
inductive ClaimMove : List Claim → List Claim → Prop where
  | drop {cs ds : List Claim} (h : ds.Sublist cs) : ClaimMove cs ds
  | exclusive {c : Claim} (hc : c.exclusive = true) (h0 : 0 ≤ c.amount) : ClaimMove [] [c]
  | share {cs : List Claim} {c : Claim} (hs : Shared cs) (hc : c.exclusive = false)
      (h0 : 0 ≤ c.amount)
      (hroom : c.amount ≤ capacity - (floor + each * (cs.length + 1)) - claimed cs) :
      ClaimMove cs (cs ++ [c])

/-- No claim is negative, and the holders, if there are any, fit. -/
structure SoundClaims (cs : List Claim) : Prop where
  nonneg : ∀ c ∈ cs, 0 ≤ c.amount
  fits : cs ≠ [] → Fits floor each capacity cs

variable {floor each capacity} {cs ds : List Claim}

/-- Fewer claims claim less. -/
theorem claimed_sublist (h : ds.Sublist cs) (h0 : ∀ c ∈ cs, 0 ≤ c.amount) :
    claimed ds ≤ claimed cs := by
  refine (h.map Claim.amount).sum_le_sum fun a ha => ?_
  obtain ⟨c, hc, rfl⟩ := List.mem_map.mp ha
  exact h0 c hc

theorem claimed_append (cs : List Claim) (c : Claim) :
    claimed (cs ++ [c]) = claimed cs + c.amount := by
  simp [claimed]

/-- Holders may leave in any combination. -/
theorem Fits.sublist (heach : 0 ≤ each) (h : Fits floor each capacity cs) (hs : ds.Sublist cs)
    (h0 : ∀ c ∈ cs, 0 ≤ c.amount) (hne : ds ≠ []) : Fits floor each capacity ds := by
  rcases h with ⟨c, rfl, hc⟩ | ⟨hshared, hle⟩
  · rcases List.sublist_singleton.mp hs with rfl | rfl
    · exact absurd rfl hne
    · exact Or.inl ⟨c, rfl, hc⟩
  · refine Or.inr ⟨fun c hc => hshared c (hs.subset hc), ?_⟩
    have hsum := claimed_sublist hs h0
    have hlen : (ds.length : Int) ≤ cs.length := by exact_mod_cast hs.length_le
    have hover := mul_le_mul_of_nonneg_left hlen heach
    omega

/-- Every move keeps the accounts of a resource sound. -/
theorem ClaimMove.sound (heach : 0 ≤ each) (hm : ClaimMove floor each capacity cs ds)
    (h : SoundClaims floor each capacity cs) : SoundClaims floor each capacity ds := by
  cases hm with
  | drop hs =>
    refine ⟨fun c hc => h.nonneg c (hs.subset hc), fun hne => ?_⟩
    have hcs : cs ≠ [] := by
      rintro rfl
      exact hne (List.sublist_nil.mp hs)
    exact (h.fits hcs).sublist heach hs h.nonneg hne
  | @exclusive c hc h0 =>
    refine ⟨fun d hd => ?_, fun _ => Or.inl ⟨c, rfl, hc⟩⟩
    obtain rfl := List.mem_singleton.mp hd
    exact h0
  | @share _ c hs hc h0 hroom =>
    refine ⟨fun d hd => ?_, fun _ => Or.inr ⟨fun d hd => ?_, ?_⟩⟩
    · rcases List.mem_append.mp hd with hd | hd
      · exact h.nonneg d hd
      · obtain rfl := List.mem_singleton.mp hd
        exact h0
    · rcases List.mem_append.mp hd with hd | hd
      · exact hs d hd
      · obtain rfl := List.mem_singleton.mp hd
        exact hc
    · rw [claimed_append, List.length_append, List.length_singleton]
      push_cast
      linarith

/-- Any number of moves keeps the accounts of a resource sound. -/
theorem SoundClaims.moves (heach : 0 ≤ each) (h : SoundClaims floor each capacity cs)
    (hm : Relation.ReflTransGen (ClaimMove floor each capacity) cs ds) :
    SoundClaims floor each capacity ds := by
  induction hm with
  | refl => exact h
  | tail _ hlast ih => exact hlast.sound heach ih

end Account

end Rune.Core
