import Rune.Core.Quote
import Rune.Models.Rollout.Instance

/-!
# Log queries

A query selects streams by their labels, filters lines, extracts fields, filters by labels
and may aggregate over time. It is written as a text, which `parseLogQL` reads by searching it
for the end of the selector, for operators, for parentheses and for the range.
-/

namespace Rune.Observe

open Rune.Core Rune.Rollout

/-- A text, as the list of its characters. -/
abbrev Text := List Char

/-- The order of the answer. -/
inductive Direction where
  | backward
  | forward
  deriving DecidableEq

/-- How a label is compared. -/
inductive MatchOp where
  | equal
  | notEqual
  | regex
  | notRegex
  deriving DecidableEq

/-- A condition on a label of the stream. -/
structure Matcher where
  label : Text
  op : MatchOp
  value : Text
  deriving DecidableEq

/-- How a line is compared. -/
inductive LineFilterOp where
  | contains
  | notContains
  | regex
  | notRegex
  deriving DecidableEq

/-- A condition on the line. -/
structure LineFilter where
  op : LineFilterOp
  value : Text
  deriving DecidableEq

/-- A stage that extracts labels. -/
inductive ParserStage where
  | logfmt
  | json
  deriving DecidableEq

/-- How an extracted label is compared. -/
inductive LabelFilterOp where
  | eq
  | neq
  | re
  | notRe
  | gt
  | gte
  | lt
  | lte
  | numEq
  deriving DecidableEq

/-- A condition on an extracted label. -/
structure LabelFilter where
  label : Text
  op : LabelFilterOp
  value : Text
  deriving DecidableEq

/-- What is aggregated. -/
inductive AggOp where
  | countOverTime
  | rateOverTime
  | bytesOverTime
  | quantileOverTime
  deriving DecidableEq

/-- An aggregation over steps of time. -/
structure Aggregation where
  op : AggOp
  step : Duration
  groupBy : List Text := []
  field : Text := []
  quantile : ℚ := 0
  deriving DecidableEq

/-- A parsed query. -/
structure Query where
  selectors : List Matcher
  lineFilters : List LineFilter
  parsers : List ParserStage
  labelFilters : List LabelFilter
  aggregation : Option Aggregation := none
  startTime : Time
  endTime : Time
  limit : ℤ
  direction : Direction
  rawSQL : Text := []
  deriving DecidableEq

/-- The text of a comparison. -/
def matchOpString : MatchOp → Text
  | .equal => "=".toList
  | .notEqual => "!=".toList
  | .regex => "=~".toList
  | .notRegex => "!~".toList

/-- The text of a stage. -/
def ParserStage.string : ParserStage → Text
  | .logfmt => "logfmt".toList
  | .json => "json".toList

/-- The text of a comparison. -/
def LabelFilterOp.string : LabelFilterOp → Text
  | .eq => "=".toList
  | .neq => "!=".toList
  | .re => "=~".toList
  | .notRe => "!~".toList
  | .gt => ">".toList
  | .gte => ">=".toList
  | .lt => "<".toList
  | .lte => "<=".toList
  | .numEq => "==".toList

/-- Why an aggregation has no keyword. -/
inductive RenderError where
  | capabilityUnsupported
  deriving DecidableEq

/-- The keyword of an aggregation; a quantile is beyond the language. -/
def AggOp.keyword : AggOp → Except RenderError Text
  | .countOverTime => .ok "count_over_time".toList
  | .rateOverTime => .ok "rate".toList
  | .bytesOverTime => .ok "bytes_over_time".toList
  | .quantileOverTime => .error .capabilityUnsupported

end Rune.Observe
