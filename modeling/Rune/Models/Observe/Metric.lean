import Rune.Models.Observe.Scan

/-!
# Metric queries

The parser takes an aggregation off by counting parentheses, also those inside of quoted values,
and its range by the last brackets. So a text between the parentheses of an aggregation is found
again where its own parentheses are balanced.
-/

namespace Rune.Observe

open Rune.Core Rune.Rollout List
open Policy (isSpace trimSpace)

/-- The depth of parentheses after a text; `none` where one is closed that was not opened. -/
def nesting : ℕ → Text → Option ℕ
  | depth, [] => some depth
  | depth, c :: s =>
    if c = '(' then nesting (depth + 1) s
    else if c = ')' then if depth = 0 then none else nesting (depth - 1) s
    else nesting depth s

/-- Every parenthesis of the text has its partner in it. -/
def Balanced (s : Text) : Prop := nesting 0 s = some 0

instance decidableBalanced (s : Text) : Decidable (Balanced s) :=
  inferInstanceAs (Decidable (_ = _))

/-- A parenthesis. -/
def isParen (c : Char) : Bool := c == '(' || c == ')'

theorem nesting_filter (depth : ℕ) (s : Text) :
    nesting depth (s.filter isParen) = nesting depth s := by
  induction s generalizing depth with
  | nil => rfl
  | cons c s ih =>
    by_cases hopen : c = '('
    · simp [isParen, nesting, hopen, ih]
    by_cases hclose : c = ')'
    · simp [isParen, nesting, hclose, ih]
    · simp [isParen, nesting, hopen, hclose, ih]

variable {x kw : Text}

/-- How the first character changes the depth. -/
theorem nesting_cons_cases {c : Char} {d e : ℕ} (h : nesting d (c :: x) = some e) :
    (c = '(' ∧ nesting (d + 1) x = some e) ∨
      (c = ')' ∧ ∃ d', d = d' + 1 ∧ nesting d' x = some e) ∨
      (c ≠ '(' ∧ c ≠ ')' ∧ nesting d x = some e) := by
  rw [nesting] at h
  split_ifs at h with hopen hclose hd
  · exact .inl ⟨hopen, h⟩
  · obtain ⟨d, rfl⟩ := Nat.exists_eq_succ_of_ne_zero hd
    exact .inr (.inl ⟨hclose, d, rfl, h⟩)
  · exact .inr (.inr ⟨hopen, hclose, h⟩)

/-- A text is passed over together with the depth that it leaves. -/
theorem matchParen_append {d e : ℕ} (h : nesting d x = some e) (s : Text) :
    matchParen (d + 1) (x ++ s) = (matchParen (e + 1) s).map fun r => (x ++ r.1, r.2) := by
  induction x generalizing d with
  | nil =>
    cases h
    simp
  | cons c x ih =>
    rw [cons_append, matchParen]
    rcases nesting_cons_cases h with ⟨rfl, hx⟩ | ⟨rfl, d, rfl, hx⟩ | ⟨hopen, hclose, hx⟩
    · rw [ih hx, Option.map_map]
      rfl
    · rw [if_neg (by decide), if_pos rfl, Nat.add_sub_cancel, ih hx, Option.map_map]
      rfl
    · rw [if_neg hopen, if_neg hclose, ih hx, Option.map_map]
      rfl

/-- A balanced text is found between its parentheses. -/
theorem unwrapParens_balanced (h : Balanced x) : unwrapParens ('(' :: (x ++ [')'])) = .ok x := by
  have htidy : Tidy ('(' :: (x ++ [')'])) :=
    tidy_cons (by decide) (sealed_concat ('(' :: x) (by decide))
  have hmatch : matchParen 1 (x ++ [')']) = some (x, []) := by
    rw [matchParen_append h]
    simp [matchParen]
  simp only [unwrapParens, trimSpace_of_tidy htidy, hmatch]
  rfl

theorem filter_isParen_of_forall {P : Char → Bool} {s : Text} (h : ∀ c ∈ s, P c = true)
    (hopen : P '(' = false) (hclose : P ')' = false) : s.filter isParen = [] := by
  rw [filter_eq_nil_iff]
  intro c hc hparen
  rw [isParen, Bool.or_eq_true, beq_iff_eq, beq_iff_eq] at hparen
  rcases hparen with rfl | rfl
  · simp [h _ hc] at hopen
  · simp [h _ hc] at hclose

theorem isIdentChar_of_isDigit {c : Char} (h : c.isDigit = true) : isIdentChar c = true := by
  simp only [Char.isDigit, Bool.and_eq_true, decide_eq_true_eq] at h
  simp only [isIdentChar, Bool.or_eq_true, Bool.and_eq_true, decide_eq_true_eq, Char.le_def]
  exact Or.inr h

/-- Whole numbers of units are read back, and are written like an identifier. -/
theorem flatMap_text_spec {ts : List Term}
    (hts : ∀ t ∈ ts, t.Valid ∧ ∀ c ∈ t.name, isIdentChar c = true) (hne : ts ≠ []) {d : ℤ}
    (hd : ((ts.map Term.value).sum : ℕ) = d) (hmax : d < 2 ^ 63) (fraction : ℕ → ℕ → ℕ → ℕ) :
    parseDuration fraction (ts.flatMap Term.text) = .ok d ∧
      ∀ c ∈ ts.flatMap Term.text, isIdentChar c = true := by
  refine ⟨?_, fun c hc => ?_⟩
  · have hfits : (ts.map Term.value).sum < 2 ^ 63 := by
      rw [← hd] at hmax
      exact_mod_cast hmax
    rw [parseDuration_text (fun t ht => (hts t ht).1) hne hfits, hd]
  · obtain ⟨t, ht, hc⟩ := mem_flatMap.1 hc
    rcases mem_append.1 hc with hc | hc
    · exact isIdentChar_of_isDigit (Nat.isDigit_of_mem_toDigits (by decide) (by decide) hc)
    · exact (hts t ht).2 c hc

theorem valid_term {u : Text} {unit : ℕ} (hu : DurationUnit u unit)
    (hletters : u.all isIdentChar = true) (n : ℕ) :
    Term.Valid ⟨n, u, unit⟩ ∧ ∀ c ∈ u, isIdentChar c = true :=
  ⟨hu, all_eq_true.mp hletters⟩

/-- The range is what stands in the last brackets. -/
theorem splitRange_append {range : Text} {fraction : ℕ → ℕ → ℕ → ℕ} {d : ℤ}
    (h : parseDuration fraction range = .ok d ∧ ∀ c ∈ range, isIdentChar c = true)
    (stream : Text) :
    splitRange fraction (stream ++ ([' ', '['] ++ (range ++ [']']))) =
      .ok (trimSpace stream, d) := by
  obtain ⟨hparse, hchars⟩ := h
  have hnot (c : Char) (hc : isIdentChar c = false) : c ∉ range := by
    intro hmem
    simp [hchars c hmem] at hc
  have hopen : cutLast '[' (stream ++ ([' ', '['] ++ (range ++ [']']))) =
      some (stream ++ [' '], range ++ [']']) := by
    have hrest : '[' ∉ range ++ [']'] := by simp [hnot '[' (by decide)]
    have h := cutLast_append_cons hrest (stream ++ [' '])
    rwa [append_assoc] at h
  have hclose : cutLast ']' (range ++ [']']) = some (range, []) :=
    cutLast_append_cons (not_mem_nil) range
  have hrange : trimSpace range = range :=
    trimSpace_of_tidy (tidy_of_forall fun c hc => isSpace_of_isIdentChar (hchars c hc))
  simp only [splitRange, hopen, hclose, hrange, hparse, trimSpace_append_space]

/-- A range holds no parentheses. -/
theorem balanced_append_range {range : Text} (hrange : ∀ c ∈ range, isIdentChar c = true)
    (stream : Text) : Balanced (stream ++ ([' ', '['] ++ (range ++ [']']))) ↔ Balanced stream := by
  have hparens : (stream ++ ([' ', '['] ++ (range ++ [']']))).filter isParen =
      stream.filter isParen := by
    rw [filter_append, filter_append, filter_append,
      filter_isParen_of_forall hrange (by decide) (by decide)]
    simp [isParen]
  rw [Balanced, ← nesting_filter, hparens, nesting_filter, Balanced]

/-- The keyword of an aggregation, before its parenthesis. -/
theorem find?_aggregations {op : AggOp} (h : op.keyword = .ok kw) (s : Text) :
    (aggregations.find? fun m => (m.1 ++ ['(']).isPrefixOf (kw ++ '(' :: s) ||
      (m.1 ++ [' ', '(']).isPrefixOf (kw ++ '(' :: s)) = some (kw, op) := by
  cases op <;> cases h <;> rfl

theorem unwrapSum_keyword {op : AggOp} (h : op.keyword = .ok kw) (s : Text) :
    unwrapSum (kw ++ '(' :: s) = .ok ([], kw ++ '(' :: s) := by
  cases op <;> cases h <;> rfl

theorem ident_keyword {op : AggOp} (h : op.keyword = .ok kw) : Ident kw := by
  cases op <;> cases h <;> decide

/-- A call has no blank at its ends. -/
theorem tidy_call (h : Ident kw) (body : Text) :
    Tidy (kw ++ '(' :: (body ++ [')'])) :=
  h.tidy.append h.ne_nil (sealed_concat ('(' :: body) (by decide))

/-- What is read of a text is put together to a query. -/
theorem parseLogQL_eq {text : Text} (htidy : Tidy text) (hne : text ≠ [])
    {fraction : ℕ → ℕ → ℕ → ℕ} {agg : Option (Aggregation × Text)}
    (hagg : parseMetricWrapper fraction text = .ok agg) {q : Query}
    (hstream : parseStreamAndFilters (agg.elim text Prod.snd) =
      .ok (q.selectors, ⟨q.lineFilters, q.parsers, q.labelFilters⟩))
    (haggregation : agg.map Prod.fst = q.aggregation) (hraw : q.rawSQL = []) :
    parseLogQL fraction text q.startTime q.endTime q.limit (q.direction == .forward) = .ok q := by
  have hdirection : (if (q.direction == .forward) = true then Direction.forward
      else .backward) = q.direction := by
    cases q.direction <;> rfl
  simp only [parseLogQL, trimSpace_of_tidy htidy, if_neg hne, hagg, hstream, Except.map,
    hdirection, haggregation]
  obtain ⟨_, _, _, _, _, _, _, _, _, _⟩ := q
  obtain rfl := hraw
  rfl

/-- The lines of one stream, with a value in its selector and another in a line filter. -/
def linesOf (value line : Text) (agg : Option Aggregation) : Query where
  selectors := [⟨"app".toList, .equal, value⟩]
  lineFilters := [⟨.contains, line⟩]
  parsers := []
  labelFilters := []
  aggregation := agg
  startTime := 0
  endTime := 60
  limit := 100
  direction := .backward

end Rune.Observe
