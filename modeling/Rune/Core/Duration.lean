import Mathlib.Algebra.Order.Ring.Int
import Rune.Core.Cut

/-!
# Durations as texts

A duration is a signed sequence of decimal numbers, each with a unit, and is read to
nanoseconds in 64 bits. The nanoseconds of a decimal fraction are computed in floating point;
here they are a parameter. Whole numbers with their units read back as their sum.
-/

namespace Rune.Core

/-- Why a duration is refused. -/
inductive DurationError where
  | invalid (orig : List Char)
  | missingUnit (orig : List Char)
  | unknownUnit (unit orig : List Char)
  deriving DecidableEq

/-- The nanoseconds of a unit. -/
def unitMap (u : List Char) : Option ℕ :=
  if u = "ns".toList then some 1
  else if u = "us".toList ∨ u = "µs".toList ∨ u = "μs".toList then some 1000
  else if u = "ms".toList then some 1000000
  else if u = "s".toList then some 1000000000
  else if u = "m".toList then some 60000000000
  else if u = "h".toList then some 3600000000000
  else none

/-- The digits of a fraction and the power of ten below them; further digits are dropped
where the number gets too large. -/
def leadingFraction (x scale : ℕ) (overflow : Bool) : List Char → ℕ × ℕ
  | [] => (x, scale)
  | c :: s =>
    if overflow || decide ((2 ^ 63 - 1) / 10 < x) ||
        decide (2 ^ 63 < x * 10 + (c.toNat - '0'.toNat)) then
      leadingFraction x scale true s
    else leadingFraction (x * 10 + (c.toNat - '0'.toNat)) (scale * 10) false s

/-- The sign of a number, if there is one, and what follows. -/
def splitSign : List Char → Bool × List Char
  | '-' :: s => (true, s)
  | '+' :: s => (false, s)
  | s => (false, s)

/-- The digits after a decimal point, if there is one, and what follows. -/
def fractionDigits : List Char → List Char × List Char
  | '.' :: s => s.span Char.isDigit
  | s => ([], s)

section Parse

variable (fraction : ℕ → ℕ → ℕ → ℕ)

/-- A number after its sign: the nanoseconds, and what follows. `fraction f unit scale` is `f` over
`scale` units, in nanoseconds. -/
def parseTerm (orig s : List Char) : Except DurationError (ℕ × List Char) :=
  let (whole, s) := s.span Char.isDigit
  let v := Nat.ofDigitChars 10 whole 0
  let (digits, s) := fractionDigits s
  let (f, scale) := leadingFraction 0 1 false digits
  if 2 ^ 63 < v ∨ (whole = [] ∧ digits = []) then .error (.invalid orig)
  else
    let (u, s) := s.span fun c => !(c == '.' || c.isDigit)
    if u = [] then .error (.missingUnit orig)
    else match unitMap u with
      | none => .error (.unknownUnit u orig)
      | some unit =>
        if 2 ^ 63 / unit < v then .error (.invalid orig)
        else
          let v := if 0 < f then v * unit + fraction f unit scale else v * unit
          if 2 ^ 63 < v then .error (.invalid orig) else .ok (v, s)

/-- The sum of the numbers of a text. Every number takes one round. -/
def parseTerms (orig : List Char) : ℕ → ℕ → List Char → Except DurationError ℕ
  | _, d, [] => .ok d
  | 0, _, _ :: _ => .error (.invalid orig)
  | fuel + 1, d, c :: s =>
    if c ≠ '.' ∧ ¬ c.isDigit then .error (.invalid orig)
    else match parseTerm fraction orig (c :: s) with
      | .error e => .error e
      | .ok (v, s) =>
        if 2 ^ 63 < d + v then .error (.invalid orig) else parseTerms orig fuel (d + v) s

/-- A signed sum of terms, or a bare zero. -/
def parseDuration (orig : List Char) : Except DurationError ℤ :=
  let (neg, s) := splitSign orig
  if s = ['0'] then .ok 0
  else if s = [] then .error (.invalid orig)
  else match parseTerms fraction orig s.length 0 s with
    | .error e => .error e
    | .ok d =>
      if neg then .ok (-d) else if 2 ^ 63 - 1 < d then .error (.invalid orig) else .ok d

variable {fraction}

/-- A unit is written without digits and points. -/
structure DurationUnit (u : List Char) (unit : ℕ) : Prop where
  known : unitMap u = some unit
  letters : ∀ c ∈ u, (!(c == '.' || c.isDigit)) = true
  ne_nil : u ≠ []

theorem durationUnit_s : DurationUnit "s".toList 1000000000 :=
  ⟨by decide, List.all_eq_true.mp (by decide), by decide⟩

theorem durationUnit_m : DurationUnit "m".toList 60000000000 :=
  ⟨by decide, List.all_eq_true.mp (by decide), by decide⟩

theorem durationUnit_h : DurationUnit "h".toList 3600000000000 :=
  ⟨by decide, List.all_eq_true.mp (by decide), by decide⟩

theorem DurationUnit.pos {u : List Char} {unit : ℕ} (hu : DurationUnit u unit) : 0 < unit := by
  have h := hu.known
  unfold unitMap at h
  split_ifs at h <;> cases h <;> decide

theorem DurationUnit.not_isDigit_head {u : List Char} {unit : ℕ} (hu : DurationUnit u unit) :
    ∀ c ∈ u.head?, c ≠ '.' ∧ c.isDigit = false := by
  intro c hc
  simpa using hu.letters c (List.mem_of_head? hc)

/-- A whole number of a unit. -/
structure Term where
  count : ℕ
  name : List Char
  unit : ℕ

/-- The number and the unit. -/
def Term.text (t : Term) : List Char := Nat.toDigits 10 t.count ++ t.name

/-- The nanoseconds. -/
def Term.value (t : Term) : ℕ := t.count * t.unit

/-- The unit is one of the table. -/
def Term.Valid (t : Term) : Prop := DurationUnit t.name t.unit

theorem Term.exists_digit (t : Term) : ∃ c s, t.text = c :: s ∧ c.isDigit = true := by
  obtain ⟨c, digits, hdigits⟩ := List.exists_cons_of_ne_nil (@Nat.toDigits_ne_nil t.count 10)
  refine ⟨c, digits ++ t.name, by rw [text, hdigits]; rfl, ?_⟩
  exact Nat.isDigit_of_mem_toDigits (by decide) (by decide) (hdigits ▸ List.mem_cons_self)

/-- A term ends where the next one begins. -/
theorem parseTerm_text {t : Term} (ht : t.Valid) (hmax : t.value < 2 ^ 63) {rest : List Char}
    (hrest : ∀ c ∈ rest.head?, c.isDigit = true) (orig : List Char) :
    parseTerm fraction orig (t.text ++ rest) = .ok (t.value, rest) := by
  obtain ⟨n, u, unit⟩ := t
  replace hmax : n * unit < 2 ^ 63 := hmax
  have hu : DurationUnit u unit := ht
  have hpos := hu.pos
  have hstop : ∀ c ∈ (u ++ rest).head?, c ≠ '.' ∧ c.isDigit = false := by
    rw [List.head?_append_of_ne_nil _ hu.ne_nil]
    exact hu.not_isDigit_head
  have hwhole : (Nat.toDigits 10 n ++ (u ++ rest)).span Char.isDigit =
      (Nat.toDigits 10 n, u ++ rest) :=
    span_append_of_stop (fun c hc => Nat.isDigit_of_mem_toDigits (by decide) (by decide) hc)
      fun c hc => (hstop c hc).2
  have hunit : (u ++ rest).span (fun c => !(c == '.' || c.isDigit)) = (u, rest) :=
    span_append_of_stop hu.letters fun c hc => by simp [hrest c hc]
  have hpoint : fractionDigits (u ++ rest) = ([], u ++ rest) := by
    unfold fractionDigits
    split
    · rename_i heq
      exact absurd rfl (hstop '.' (by rw [heq]; rfl)).1
    · rfl
  have hle : ¬ 2 ^ 63 / unit < n := not_lt.2 ((Nat.le_div_iff_mul_le hpos).2 hmax.le)
  have hv : ¬ 2 ^ 63 < n := fun h => hle ((Nat.div_le_self _ _).trans_lt h)
  simp only [Term.text, Term.value, List.append_assoc, parseTerm, hwhole, hpoint, hunit, hu.known,
    hu.ne_nil, leadingFraction, Nat.ofDigitChars_ten_toDigits, Nat.toDigits_ne_nil, hv,
    if_neg hle, if_neg (not_lt.2 hmax.le), if_false, lt_irrefl, false_and, or_self]

/-- Terms one after the other are added up. -/
theorem parseTerms_text {ts : List Term} (hts : ∀ t ∈ ts, t.Valid) (orig : List Char)
    {fuel d : ℕ} (hfuel : (ts.flatMap Term.text).length ≤ fuel)
    (hmax : d + (ts.map Term.value).sum < 2 ^ 63) :
    parseTerms fraction orig fuel d (ts.flatMap Term.text) =
      .ok (d + (ts.map Term.value).sum) := by
  induction ts generalizing fuel d with
  | nil => cases fuel <;> rfl
  | cons t ts ih =>
    rw [List.forall_mem_cons] at hts
    rw [List.map_cons, List.sum_cons, ← Nat.add_assoc] at hmax ⊢
    have hrest : ∀ c ∈ (ts.flatMap Term.text).head?, c.isDigit = true := by
      cases ts with
      | nil => simp
      | cons t' ts =>
        obtain ⟨c, s, htext, hc⟩ := t'.exists_digit
        simpa [htext] using hc
    have hterm : parseTerm fraction orig (t.text ++ ts.flatMap Term.text) = _ :=
      parseTerm_text hts.1 (by omega) hrest orig
    obtain ⟨c, s, htext, hc⟩ := t.exists_digit
    rw [List.flatMap_cons, htext, List.cons_append] at hfuel ⊢
    rw [htext, List.cons_append] at hterm
    rw [List.length_cons, List.length_append] at hfuel
    obtain ⟨fuel, rfl⟩ := Nat.exists_eq_add_of_le' (Nat.le_of_add_left_le hfuel)
    have hsum : ¬ 2 ^ 63 < d + t.value := by omega
    rw [parseTerms, if_neg (by simp [hc]), hterm]
    simp only [if_neg hsum]
    exact ih hts.2 (by omega) hmax

theorem splitSign_cons_of_isDigit {c : Char} (hc : c.isDigit = true) (s : List Char) :
    splitSign (c :: s) = (false, c :: s) := by
  unfold splitSign
  split
  · rename_i heq
    obtain ⟨rfl, -⟩ := List.cons.inj heq
    exact absurd hc (by decide)
  · rename_i heq
    obtain ⟨rfl, -⟩ := List.cons.inj heq
    exact absurd hc (by decide)
  · rfl

/-- Whole numbers with their units read back as their sum. -/
theorem parseDuration_text {ts : List Term} (hts : ∀ t ∈ ts, t.Valid) (hne : ts ≠ [])
    (hmax : (ts.map Term.value).sum < 2 ^ 63) :
    parseDuration fraction (ts.flatMap Term.text) = .ok ((ts.map Term.value).sum : ℕ) := by
  have hterms : parseTerms fraction (ts.flatMap Term.text) _ 0 (ts.flatMap Term.text) = _ :=
    parseTerms_text hts (ts.flatMap Term.text) le_rfl ((Nat.zero_add _).trans_lt hmax)
  obtain ⟨t, ts, rfl⟩ := List.exists_cons_of_ne_nil hne
  obtain ⟨c, s, htext, hc⟩ := t.exists_digit
  have hname : t.name ≠ [] := (hts t List.mem_cons_self).ne_nil
  rw [Nat.zero_add] at hterms
  generalize ((t :: ts).map Term.value).sum = d at hmax hterms
  have hzero : (t :: ts).flatMap Term.text ≠ ['0'] := by
    simp [Term.text, List.append_eq_singleton_iff, hname]
  rw [List.flatMap_cons, htext, List.cons_append] at hterms hzero ⊢
  have hd : ¬ (2 ^ 63 - 1 < d) := by omega
  simp only [parseDuration, splitSign_cons_of_isDigit hc, if_neg hzero, hterms,
    if_neg (List.cons_ne_nil _ _), if_neg hd, Bool.false_eq_true, if_false]

end Parse

/-- Whole seconds, with the minutes and the hours of which there are any. -/
def wholeSeconds (n : ℕ) : List Term :=
  (if n < 3600 then [] else [⟨n / 3600, "h".toList, 3600000000000⟩]) ++
    ((if n < 60 then [] else [⟨n / 60 % 60, "m".toList, 60000000000⟩]) ++
      [⟨n % 60, "s".toList, 1000000000⟩])

/-- Nothing is lost. -/
theorem sum_wholeSeconds (n : ℕ) :
    ((wholeSeconds n).map Term.value).sum = n * 1000000000 := by
  rw [wholeSeconds]
  split_ifs <;> simp only [List.map_append, List.sum_append, List.map_cons, List.map_nil,
    List.sum_cons, List.sum_nil, Term.value] <;> omega

theorem forall_wholeSeconds {P : Term → Prop} (hh : ∀ k, P ⟨k, "h".toList, 3600000000000⟩)
    (hm : ∀ k, P ⟨k, "m".toList, 60000000000⟩) (hs : ∀ k, P ⟨k, "s".toList, 1000000000⟩) (n : ℕ) :
    ∀ t ∈ wholeSeconds n, P t := by
  simp only [wholeSeconds, List.forall_mem_append, List.forall_mem_singleton]
  refine ⟨?_, ?_, hs _⟩ <;> split_ifs <;> simp_all

end Rune.Core
