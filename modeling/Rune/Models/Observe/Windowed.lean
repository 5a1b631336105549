import Rune.Models.Observe.Metric

/-!
# Counting over a window

An alert counts the lines of a query over a window. The alerter writes the query into the text
of an aggregation and has that parsed. The parser ends an aggregation by its parentheses, also
those inside of quoted values, so this is the query that was meant exactly where they are
balanced. Brackets do not matter, since the range is looked for from the end.
-/

namespace Rune.Observe

open Rune.Core Rune.Rollout List
open Policy (trimSpace)

/-- The text of a rule's query, counted over a window in seconds. -/
def countOverTime (logQL : Text) (window : ℕ) : Text :=
  "count_over_time".toList ++ '(' :: (logQL ++ (" [".toList ++
    ((wholeSeconds window).flatMap Term.text ++ "]".toList)) ++ ")".toList)

/-- The query that the alerter counts by. -/
def windowedQuery (fraction : ℕ → ℕ → ℕ → ℕ) (logQL : Text) (window : ℕ) (now : Time) :
    Except QueryError Query :=
  parseLogQL fraction (countOverTime logQL window) (now - window * second) now 0 false

/-- What stands before the parenthesis that is found leaves no other one open. -/
theorem matchParen_eq_some {d : ℕ} {s : Text} {r : Text × Text}
    (h : matchParen (d + 1) s = some r) : s = r.1 ++ ')' :: r.2 ∧ nesting d r.1 = some 0 := by
  induction s generalizing d r with
  | nil => cases h
  | cons c s ih =>
    rw [matchParen] at h
    split_ifs at h with hopen hclose hd
    · obtain ⟨r, hr, rfl⟩ := Option.map_eq_some_iff.1 h
      obtain ⟨rfl, hnest⟩ := ih hr
      exact ⟨rfl, by rw [nesting, if_pos hopen, hnest]⟩
    · cases h
      obtain rfl : d = 0 := Nat.succ.inj hd
      exact ⟨by rw [hclose]; rfl, rfl⟩
    · obtain ⟨d, rfl⟩ : ∃ k, d = k + 1 := Nat.exists_eq_succ_of_ne_zero (by omega)
      obtain ⟨r, hr, rfl⟩ := Option.map_eq_some_iff.1 h
      obtain ⟨rfl, hnest⟩ := ih hr
      exact ⟨rfl, by rw [nesting, if_neg hopen, if_pos hclose, if_neg d.succ_ne_zero, ← hnest]; rfl⟩
    · obtain ⟨r, hr, rfl⟩ := Option.map_eq_some_iff.1 h
      obtain ⟨rfl, hnest⟩ := ih hr
      exact ⟨rfl, by rw [nesting, if_neg hopen, if_neg hclose, hnest]⟩

/-- Only a balanced text is found between its parentheses. -/
theorem balanced_of_unwrapParens {x y : Text} (h : unwrapParens ('(' :: (x ++ [')'])) = .ok y) :
    Balanced x := by
  have htidy : Tidy ('(' :: (x ++ [')'])) :=
    tidy_cons (by decide) (sealed_concat ('(' :: x) (by decide))
  simp only [unwrapParens, trimSpace_of_tidy htidy] at h
  split at h
  · cases h
  · rename_i inner rest hmatch
    obtain ⟨htext, hnest⟩ := matchParen_eq_some hmatch
    split_ifs at h with hrest
    rcases eq_nil_or_concat' rest with rfl | ⟨rest, c, rfl⟩
    · rw [Balanced, (append_inj' htext rfl).1]
      exact hnest
    · rw [← cons_append, ← append_assoc] at htext
      obtain rfl : ')' = c := by simpa using (append_inj' htext rfl).2
      rw [trimSpace, dropWhile_append] at hrest
      split at hrest <;> simp [Policy.isSpace] at hrest

variable {fraction : ℕ → ℕ → ℕ → ℕ} {s : Text} {q : Query} {start stop : Time} {limit : ℤ}
  {forward : Bool}

/-- What a log query is read from. -/
theorem parseLogQL_plain (hq : parseLogQL fraction s start stop limit forward = .ok q)
    (hplain : q.aggregation = none) :
    q.rawSQL = [] ∧ parseStreamAndFilters (trimSpace s) =
      .ok (q.selectors, ⟨q.lineFilters, q.parsers, q.labelFilters⟩) := by
  simp only [parseLogQL] at hq
  split at hq
  · cases hq
  split at hq
  · cases hq
  · rename_i agg _
    cases hstream : parseStreamAndFilters (agg.elim (trimSpace s) Prod.snd) with
    | error e =>
      rw [hstream] at hq
      cases hq
    | ok r =>
      rw [hstream] at hq
      cases hq
      obtain rfl : agg = none := by simpa using hplain
      exact ⟨rfl, hstream⟩

/-- The range is read and the stream in front of it, exactly where it is balanced. -/
theorem parseLogQL_call_iff {op : AggOp} {kw range : Text} {d : ℤ} (hkw : op.keyword = .ok kw)
    (hrange : parseDuration fraction range = .ok d ∧ ∀ c ∈ range, isIdentChar c = true)
    (hstream : parseStreamAndFilters (trimSpace s) =
      .ok (q.selectors, ⟨q.lineFilters, q.parsers, q.labelFilters⟩))
    (hagg : q.aggregation = some { op, step := d }) (hraw : q.rawSQL = []) :
    parseLogQL fraction (kw ++ '(' :: ((s ++ ([' ', '['] ++ (range ++ [']']))) ++ [')']))
      q.startTime q.endTime q.limit (q.direction == .forward) = .ok q ↔ Balanced s := by
  have hsplit := splitRange_append hrange s
  rw [← balanced_append_range hrange.2]
  generalize s ++ ([' ', '['] ++ (range ++ [']'])) = body at hsplit ⊢
  have htidy := tidy_call (ident_keyword hkw) body
  have hne : kw ++ '(' :: (body ++ [')']) ≠ [] := by simp
  have hmetric : parseMetricWrapper fraction (kw ++ '(' :: (body ++ [')'])) =
      (unwrapParens ('(' :: (body ++ [')']))).bind fun body => (splitRange fraction body).map
        fun r => some ({ op, step := r.2 }, r.1) := by
    simp only [parseMetricWrapper, unwrapSum_keyword hkw, find?_aggregations hkw, drop_left]
    cases unwrapParens ('(' :: (body ++ [')'])) <;> rfl
  constructor
  · intro h
    cases hparens : unwrapParens ('(' :: (body ++ [')'])) with
    | ok y => exact balanced_of_unwrapParens hparens
    | error e =>
      rw [hparens] at hmetric
      simp only [parseLogQL, trimSpace_of_tidy htidy, if_neg hne, hmetric, Except.bind] at h
      cases h
  · intro h
    rw [unwrapParens_balanced h, Except.bind, hsplit] at hmetric
    exact parseLogQL_eq htidy hne hmetric hstream hagg.symm hraw

/-- The query counted over the window before a time. -/
def Query.countedOver (q : Query) (window : ℕ) (now : Time) : Query :=
  { q with
    aggregation := some { op := .countOverTime, step := window * second }
    startTime := now - window * second, endTime := now, limit := 0, direction := .backward }

/-- The query that an alert counts by is that of its rule, counted over the window, exactly
where the parentheses of the rule's text are balanced. -/
theorem windowedQuery_eq_iff (hq : parseLogQL fraction s start stop limit forward = .ok q)
    (hplain : q.aggregation = none) {window : ℕ} (hmax : window * second < 2 ^ 63) (now : Time) :
    windowedQuery fraction s window now = .ok (q.countedOver window now) ↔ Balanced s := by
  obtain ⟨hraw, hstream⟩ := parseLogQL_plain hq hplain
  have hterms : ∀ t ∈ wholeSeconds window, t.Valid ∧ ∀ c ∈ t.name, isIdentChar c = true :=
    forall_wholeSeconds (valid_term durationUnit_h (by decide))
      (valid_term durationUnit_m (by decide)) (valid_term durationUnit_s (by decide)) window
  have hsum : (((wholeSeconds window).map Term.value).sum : ℕ) = window * second := by
    rw [sum_wholeSeconds]
    simp [second]
  have hrange := flatMap_text_spec hterms (by simp [wholeSeconds]) hsum hmax fraction
  exact parseLogQL_call_iff (q := q.countedOver window now) rfl hrange hstream rfl hraw

/-- The lines of an application about a call, counted over an hour. -/
theorem windowedQuery_call :
    windowedQuery (fun _ _ _ => 0) "\x7bapp=\"a\"\x7d |= \"f(x) [5m]\"".toList 3600 0 =
      .ok ((linesOf "a".toList "f(x) [5m]".toList none).countedOver 3600 0) := by
  have hq : parseLogQL (fun _ _ _ => 0) "\x7bapp=\"a\"\x7d |= \"f(x) [5m]\"".toList 0 60 100
      false = .ok (linesOf "a".toList "f(x) [5m]".toList none) := by decide +kernel
  have hmax : (3600 : ℕ) * second < 2 ^ 63 := by decide
  exact (windowedQuery_eq_iff hq rfl hmax 0).2 (by decide)

/-- The query for the lines with a closing parenthesis is accepted, but its count is not. -/
theorem windowedQuery_refused :
    parseLogQL (fun _ _ _ => 0) "\x7bapp=\"a\"\x7d |= \")\"".toList 0 60 100 false =
        .ok (linesOf "a".toList ")".toList none) ∧
      windowedQuery (fun _ _ _ => 0) "\x7bapp=\"a\"\x7d |= \")\"".toList 60 0 =
        .error (.trailingCharacters "\" [1m0s])".toList) := by
  constructor <;> decide +kernel

end Rune.Observe
