import Rune.Core.Duration
import Rune.Models.Observe.Query
import Rune.Models.Policy.Compile

/-!
# Reading a query

The parser works on the text itself. It takes off an aggregation and its grouping by counting
parentheses, splits off the range at the last brackets, ends the selector at the first closing
brace, splits the matchers at the commas outside of quotes, and looks for the operator of a
matcher in all of its text. Only the stages after the selector are read from left to right.
-/

namespace Rune.Observe

open Rune.Core Rune.Rollout
open Policy (isSpace trimSpace)

/-- The errors of the parser, with what they tell. -/
inductive QueryError where
  | emptyQuery
  | unsupportedMetric (expr : Text)
  | expectedByParen
  | unterminatedBy
  | expectedParen
  | trailingCharacters (rest : Text)
  | unbalancedParens (s : Text)
  | missingRange (s : Text)
  | invalidRange (range : Text) (err : DurationError)
  | expectedSelector
  | unterminatedSelector
  | noMatcher
  | invalidMatcher (s : Text)
  | unexpectedToken (s : Text)
  | expectedStage (s : Text)
  | unknownStage (ident : Text)
  | missingValue (ident : Text) (op : LabelFilterOp)
  | unquotedRegex (ident : Text) (op : LabelFilterOp) (value : Text)
  | expectedQuoted (s : Text)
  | badQuotedString
  | unterminatedQuoted (s : Text)
  | badQuotedValue (s : Text)
  | unquotedValue (s : Text)
  deriving DecidableEq

/-- The first character of an identifier. -/
def isAlpha (c : Char) : Bool :=
  c == '_' || (decide ('a' ≤ c) && decide (c ≤ 'z')) || (decide ('A' ≤ c) && decide (c ≤ 'Z'))

/-- A character of an identifier. -/
def isIdentChar (c : Char) : Bool := isAlpha c || (decide ('0' ≤ c) && decide (c ≤ '9'))

/-- A leading identifier; empty where there is none. -/
def takeIdent : Text → Text × Text
  | [] => ([], [])
  | c :: s => if isAlpha c then (c :: s).span isIdentChar else ([], c :: s)

/-- The longest operators come first. -/
def labelFilterOps : List LabelFilterOp :=
  [.re, .notRe, .gte, .lte, .numEq, .neq, .eq, .gt, .lt]

/-- The first operator that fits. -/
def takeLabelFilterOp (s : Text) : Option (LabelFilterOp × Text) :=
  (labelFilterOps.find? fun op => op.string.isPrefixOf s).map fun op =>
    (op, s.drop op.string.length)

/-- Up to a blank or a bar. -/
def takeBareToken (s : Text) : Text × Text :=
  s.span fun c => !(c == ' ' || c == '\t' || c == '|')

/-- What stands before the closing quote, past escaped characters, and what after it. -/
def closeQuote : Text → Option (Text × Text)
  | [] => none
  | '"' :: s => some ([], s)
  | '\\' :: c :: s => (closeQuote s).map fun r => ('\\' :: c :: r.1, r.2)
  | c :: s => (closeQuote s).map fun r => (c :: r.1, r.2)

/-- A quoted literal. -/
def takeQuoted (s : Text) : Except QueryError (Text × Text) :=
  match trimSpace s with
  | '"' :: body =>
    match closeQuote body with
    | none => .error (.unterminatedQuoted ('"' :: body))
    | some (inner, rest) =>
      match unquote ('"' :: (inner ++ ['"'])) with
      | none => .error .badQuotedString
      | some v => .ok (v, rest)
  | s => .error (.expectedQuoted s)

/-- The value of a matcher, which is nothing but a quoted string. -/
def unquoteValue (s : Text) : Except QueryError Text :=
  if 2 ≤ s.length ∧ s.head? = some '"' ∧ s.getLast? = some '"' then
    match unquote s with
    | none => .error (.badQuotedValue s)
    | some v => .ok v
  else .error (.unquotedValue s)

/-- Put a character before the first part. -/
def consHead (c : Char) : List Text → List Text
  | [] => [[c]]
  | part :: parts => (c :: part) :: parts

/-- Split at a separator outside of double quotes. -/
def splitTopLevel (sep : Char) : Bool → Text → List Text
  | _, [] => [[]]
  | true, '\\' :: c :: s => consHead '\\' (consHead c (splitTopLevel sep true s))
  | inQuote, c :: s =>
    if c = '"' then consHead c (splitTopLevel sep (!inQuote) s)
    else if c = sep ∧ inQuote = false then [] :: splitTopLevel sep inQuote s
    else consHead c (splitTopLevel sep inQuote s)

/-- The operators of a matcher, in the order in which they are looked for. -/
def matchOps : List MatchOp := [.notRegex, .regex, .notEqual, .equal]

/-- The first of the operators that occurs after the first character decides. -/
def parseMatcherWith (s : Text) : List MatchOp → Except QueryError Matcher
  | [] => .error (.invalidMatcher s)
  | op :: ops =>
    match cut (matchOpString op) s with
    | some (c :: label, value) =>
      (unquoteValue (trimSpace value)).map fun v =>
        { label := trimSpace (c :: label), op := op, value := v }
    | _ => parseMatcherWith s ops

/-- One matcher of a selector. -/
def parseMatcher (s : Text) : Except QueryError Matcher := parseMatcherWith s matchOps

/-- The matchers of a selector. -/
def parseMatchers (s : Text) : Except QueryError (List Matcher) :=
  if trimSpace s = [] then .ok []
  else (((splitTopLevel ',' false (trimSpace s)).map trimSpace).filter (· ≠ [])).mapM parseMatcher

/-- The stages, by kind. -/
structure Pipeline where
  lineFilters : List LineFilter := []
  parsers : List ParserStage := []
  labelFilters : List LabelFilter := []

/-- The value of a label filter, quoted or up to the next blank or bar, and what follows. -/
def takeLabelValue (ident : Text) (op : LabelFilterOp) (s : Text) :
    Except QueryError (Text × Text) :=
  if s.head? = some '"' then takeQuoted s
  else
    let (value, rest) := takeBareToken s
    if value = [] then .error (.missingValue ident op)
    else if op = .re ∨ op = .notRe then .error (.unquotedRegex ident op value)
    else .ok (value, rest)

/-- What follows a single bar: a parser, or a label filter where an operator comes next. -/
def parsePipeStage (s : Text) (pipe : Pipeline) : Except QueryError (Pipeline × Text) :=
  let (ident, rest) := takeIdent s
  if ident = [] then .error (.expectedStage s)
  else
    let rest := trimSpace rest
    match takeLabelFilterOp rest with
    | none =>
      if ident = ParserStage.logfmt.string then
        .ok ({ pipe with parsers := pipe.parsers ++ [.logfmt] }, rest)
      else if ident = ParserStage.json.string then
        .ok ({ pipe with parsers := pipe.parsers ++ [.json] }, rest)
      else .error (.unknownStage ident)
    | some (op, afterOp) =>
      (takeLabelValue ident op (trimSpace afterOp)).map fun r =>
        ({ pipe with labelFilters := pipe.labelFilters ++ [⟨ident, op, r.1⟩] }, r.2)

/-- A line filter after its operator. -/
def parseLineFilter (op : LineFilterOp) (s : Text) (pipe : Pipeline) :
    Except QueryError (Pipeline × Text) :=
  (takeQuoted (trimSpace s)).map fun r =>
    ({ pipe with lineFilters := pipe.lineFilters ++ [⟨op, r.1⟩] }, r.2)

/-- One stage, and what follows. -/
def parseStage (s : Text) (pipe : Pipeline) : Except QueryError (Pipeline × Text) :=
  match s with
  | '|' :: '=' :: s => parseLineFilter .contains s pipe
  | '|' :: '~' :: s => parseLineFilter .regex s pipe
  | '!' :: '~' :: s => parseLineFilter .notRegex s pipe
  | '!' :: '=' :: s => parseLineFilter .notContains s pipe
  | '|' :: s => parsePipeStage (trimSpace s) pipe
  | s => .error (.unexpectedToken s)

/-- The stages one after the other. Every stage takes one round and at least a character. -/
def parseStages : ℕ → Text → Pipeline → Except QueryError Pipeline
  | _, [], pipe => .ok pipe
  | 0, s, _ => .error (.unexpectedToken s)
  | fuel + 1, s, pipe =>
    match parseStage s pipe with
    | .error e => .error e
    | .ok (pipe, rest) => parseStages fuel (trimSpace rest) pipe

/-- The stages of a query. -/
def parsePipeline (s : Text) : Except QueryError Pipeline :=
  parseStages s.length (trimSpace s) {}

/-- A selector and its stages. -/
def parseStreamAndFilters (s : Text) : Except QueryError (List Matcher × Pipeline) :=
  match trimSpace s with
  | '{' :: s =>
    match cut ['}'] s with
    | none => .error .unterminatedSelector
    | some (inner, rest) =>
      match parseMatchers inner with
      | .error e => .error e
      | .ok [] => .error .noMatcher
      | .ok matchers => (parsePipeline rest).map fun pipe => (matchers, pipe)
  | _ => .error .expectedSelector

/-- What stands before the parenthesis that brings the depth back to zero, and what after
it. -/
def matchParen : ℕ → Text → Option (Text × Text)
  | _, [] => none
  | depth, c :: s =>
    if c = '(' then (matchParen (depth + 1) s).map fun r => (c :: r.1, r.2)
    else if c = ')' then
      if depth = 1 then some ([], s)
      else (matchParen (depth - 1) s).map fun r => (c :: r.1, r.2)
    else (matchParen depth s).map fun r => (c :: r.1, r.2)

/-- What the parentheses hold. -/
def unwrapParens (s : Text) : Except QueryError Text :=
  match trimSpace s with
  | '(' :: s =>
    match matchParen 1 s with
    | none => .error (.unbalancedParens ('(' :: s))
    | some (inner, rest) =>
      if trimSpace rest = [] then .ok inner else .error (.trailingCharacters rest)
  | _ => .error .expectedParen

/-- The labels of a grouping, and what follows. -/
def parseByClause : Text → Except QueryError (List Text × Text)
  | '(' :: s =>
    match cut [')'] s with
    | none => .error .unterminatedBy
    | some (inner, rest) =>
      .ok (((inner.splitOn ',').map trimSpace).filter (· ≠ []), rest)
  | _ => .error .expectedByParen

/-- A sum around an aggregation: its labels, and what it is taken of. -/
def unwrapSum (expr : Text) : Except QueryError (List Text × Text) :=
  match expr with
  | 's' :: 'u' :: 'm' :: rest =>
    match trimSpace rest with
    | 'b' :: 'y' :: rest =>
      match parseByClause (trimSpace rest) with
      | .error e => .error e
      | .ok (groupBy, rest) =>
        (unwrapParens (trimSpace rest)).map fun body => (groupBy, trimSpace body)
    | rest => (unwrapParens rest).map fun body => ([], trimSpace body)
  | expr => .ok ([], expr)

/-- The aggregations with their keywords. -/
def aggregations : List (Text × AggOp) :=
  [("count_over_time".toList, .countOverTime), ("rate".toList, .rateOverTime),
    ("bytes_over_time".toList, .bytesOverTime)]

section Parse

variable (fraction : ℕ → ℕ → ℕ → ℕ)

/-- The stream before a range, and the range. -/
def splitRange (s : Text) : Except QueryError (Text × Duration) :=
  match cutLast '[' s with
  | none => .error (.missingRange s)
  | some (stream, rest) =>
    match cutLast ']' rest with
    | none => .error (.missingRange s)
    | some (range, _) =>
      match parseDuration fraction (trimSpace range) with
      | .error e => .error (.invalidRange (trimSpace range) e)
      | .ok d => .ok (trimSpace stream, d)

/-- The aggregation of a metric query and the stream it is over; `none` for a log query. -/
def parseMetricWrapper (expr : Text) : Except QueryError (Option (Aggregation × Text)) :=
  match unwrapSum expr with
  | .error e => .error e
  | .ok (groupBy, rest) =>
    match aggregations.find? fun m =>
        (m.1 ++ ['(']).isPrefixOf rest || (m.1 ++ [' ', '(']).isPrefixOf rest with
    | some (kw, op) =>
      match unwrapParens (rest.drop kw.length) with
      | .error e => .error e
      | .ok body => (splitRange fraction body).map fun r =>
        some ({ op := op, step := r.2, groupBy := groupBy }, r.1)
    | none => if expr ≠ rest then .error (.unsupportedMetric expr) else .ok none

/-- Parse a query. -/
def parseLogQL (logql : Text) (startTime endTime : Time) (limit : ℤ) (forward : Bool) :
    Except QueryError Query :=
  let expr := trimSpace logql
  if expr = [] then .error .emptyQuery
  else
    match parseMetricWrapper fraction expr with
    | .error e => .error e
    | .ok agg =>
      (parseStreamAndFilters (agg.elim expr Prod.snd)).map fun r =>
        { selectors := r.1
          lineFilters := r.2.lineFilters
          parsers := r.2.parsers
          labelFilters := r.2.labelFilters
          aggregation := agg.map Prod.fst
          startTime, endTime, limit
          direction := if forward then .forward else .backward }

end Parse

end Rune.Observe
