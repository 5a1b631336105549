import Mathlib.Data.List.Infix

/-!
# Readers of encodings

A reader takes a value from the front of its input. It accepts an encoding when it reads it
whatever follows, and reads no proper start of it. Reading one encoding after another accepts
the two of them joined.
-/

namespace Rune.Core

variable {σ ε α β : Type}

/-- The reader reads the encoding, and what it returns depends on what follows it. -/
structure Accepts (read : List σ → Except ε β) (enc : List σ) (out : List σ → β) : Prop where
  whole : ∀ rest, read (enc ++ rest) = .ok (out rest)
  start : ∀ p, p <+: enc → p ≠ enc → ∃ err, read p = .error err

namespace Accepts

variable {read : List σ → Except ε (α × List σ)} {enc enc' : List σ} {v : α} {out : List σ → β}

/-- Nothing is read. -/
theorem ok (out : List σ → β) : Accepts (fun d => (.ok (out d) : Except ε β)) [] out where
  whole _ := rfl
  start _ hp hne := absurd (List.prefix_nil.mp hp) hne

/-- One reader after another. -/
theorem bind {next : α × List σ → Except ε β} (h : Accepts read enc fun rest => (v, rest))
    (hn : Accepts (fun d => next (v, d)) enc' out) :
    Accepts (fun d => read d >>= next) (enc ++ enc') out where
  whole rest := by
    rw [List.append_assoc, h.whole]
    exact hn.whole rest
  start p hp hne := by
    by_cases hfull : enc <+: p
    · obtain ⟨q, rfl⟩ := hfull
      obtain ⟨err, herr⟩ := hn.start q ((List.prefix_append_right_inj enc).mp hp)
        fun he => hne (by rw [he])
      refine ⟨err, ?_⟩
      rw [h.whole]
      exact herr
    · have hin := (List.prefix_or_prefix_of_prefix hp (List.prefix_append enc enc')).resolve_right
        hfull
      obtain ⟨err, herr⟩ := h.start p hin fun he => hfull (he ▸ List.prefix_rfl)
      exact ⟨err, by rw [herr]; rfl⟩

/-- The last reading may be followed by a computation that cannot fail. -/
theorem map {next : α × List σ → Except ε β} (h : Accepts read enc fun rest => (v, rest))
    (hn : ∀ rest, next (v, rest) = .ok (out rest)) :
    Accepts (fun d => read d >>= next) enc out := by
  have hlast : Accepts (fun d => next (v, d)) [] out := by
    simp only [hn]
    exact ok out
  have hall := h.bind hlast
  rwa [List.append_nil] at hall

end Accepts

end Rune.Core
