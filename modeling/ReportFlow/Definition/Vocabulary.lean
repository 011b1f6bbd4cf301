import ReportFlow.Json.Codec

/-!
The closed vocabularies of a report definition, each with the names it is written under.
-/

namespace ReportFlow

/-- How date and time values of the root entity are shown. -/
inductive Timezone where
  | user
  | utc
  deriving DecidableEq, Repr

namespace Timezone

def values : List Timezone := [.user, .utc]

def name : Timezone → String
  | user => "user"
  | utc => "utc"

def codec : Codec Timezone := .variant values name

end Timezone

inductive Operator where
  | eq
  | ne
  | gt
  | ge
  | lt
  | le
  | like
  | isIn
  | notIn
  | onOrAfter
  | onOrBefore
  deriving DecidableEq, Repr

namespace Operator

def values : List Operator :=
  [.eq, .ne, .gt, .ge, .lt, .le, .like, .isIn, .notIn, .onOrAfter, .onOrBefore]

def name : Operator → String
  | eq => "eq"
  | ne => "ne"
  | gt => "gt"
  | ge => "ge"
  | lt => "lt"
  | le => "le"
  | like => "like"
  | isIn => "in"
  | notIn => "notin"
  | onOrAfter => "on-or-after"
  | onOrBefore => "on-or-before"

def codec : Codec Operator := .variant values name

end Operator

inductive Logic where
  | all
  | any
  deriving DecidableEq, Repr

namespace Logic

def values : List Logic := [.all, .any]

def name : Logic → String
  | all => "and"
  | any => "or"

def codec : Codec Logic := .variant values name

end Logic

inductive RelationDirection where
  | manyToOne
  | oneToMany
  | manyToMany
  deriving DecidableEq, Repr

namespace RelationDirection

def values : List RelationDirection := [.manyToOne, .oneToMany, .manyToMany]

def name : RelationDirection → String
  | manyToOne => "manyToOne"
  | oneToMany => "oneToMany"
  | manyToMany => "manyToMany"

def codec : Codec RelationDirection := .variant values name

end RelationDirection

inductive JoinType where
  | inner
  | outer
  deriving DecidableEq, Repr

namespace JoinType

def values : List JoinType := [.inner, .outer]

def name : JoinType → String
  | inner => "inner"
  | outer => "outer"

def codec : Codec JoinType := .variant values name

end JoinType

/-- How the many rows of a link fold into the row they belong to. -/
inductive PolicyKind where
  | expand
  | summarize
  | concat
  | childSheet
  deriving DecidableEq, Repr

namespace PolicyKind

def values : List PolicyKind := [.expand, .summarize, .concat, .childSheet]

def name : PolicyKind → String
  | expand => "expand"
  | summarize => "summarize"
  | concat => "concat"
  | childSheet => "childSheet"

def codec : Codec PolicyKind := .variant values name

end PolicyKind

inductive MeasureFunc where
  | count
  | sum
  | avg
  | min
  | max
  deriving DecidableEq, Repr

namespace MeasureFunc

def values : List MeasureFunc := [.count, .sum, .avg, .min, .max]

def name : MeasureFunc → String
  | count => "count"
  | sum => "sum"
  | avg => "avg"
  | min => "min"
  | max => "max"

def codec : Codec MeasureFunc := .variant values name

end MeasureFunc

inductive SheetMode where
  | main
  | aggregate
  | child
  deriving DecidableEq, Repr

namespace SheetMode

def values : List SheetMode := [.main, .aggregate, .child]

def name : SheetMode → String
  | main => "main"
  | aggregate => "aggregate"
  | child => "child"

def codec : Codec SheetMode := .variant values name

end SheetMode

inductive ColumnFormat where
  | text
  | number
  | date
  | currency
  | oneDecimal
  | twoDecimals
  deriving DecidableEq, Repr

namespace ColumnFormat

def values : List ColumnFormat := [.text, .number, .date, .currency, .oneDecimal, .twoDecimals]

def name : ColumnFormat → String
  | text => "text"
  | number => "number"
  | date => "date"
  | currency => "currency"
  | oneDecimal => "number(1)"
  | twoDecimals => "number(2)"

def codec : Codec ColumnFormat := .variant values name

end ColumnFormat

inductive Align where
  | left
  | center
  | right
  deriving DecidableEq, Repr

namespace Align

def values : List Align := [.left, .center, .right]

def name : Align → String
  | left => "left"
  | center => "center"
  | right => "right"

def codec : Codec Align := .variant values name

end Align

inductive ExportFormat where
  | xlsx
  | csv
  | pdf
  deriving DecidableEq, Repr

namespace ExportFormat

def values : List ExportFormat := [.xlsx, .csv, .pdf]

def name : ExportFormat → String
  | xlsx => "xlsx"
  | csv => "csv"
  | pdf => "pdf"

def codec : Codec ExportFormat := .variant values name

end ExportFormat

inductive WorkbookMode where
  | singleSheet
  | multiSheet
  deriving DecidableEq, Repr

namespace WorkbookMode

def values : List WorkbookMode := [.singleSheet, .multiSheet]

def name : WorkbookMode → String
  | singleSheet => "singleSheet"
  | multiSheet => "multiSheet"

def codec : Codec WorkbookMode := .variant values name

end WorkbookMode

inductive ExecuteAs where
  | caller
  | owner
  | systemUser
  deriving DecidableEq, Repr

namespace ExecuteAs

def values : List ExecuteAs := [.caller, .owner, .systemUser]

def name : ExecuteAs → String
  | caller => "caller"
  | owner => "owner"
  | systemUser => "systemuser"

def codec : Codec ExecuteAs := .variant values name

end ExecuteAs

inductive ParameterType where
  | boolean
  | string
  | number
  | date
  | dateTime
  | optionSet
  deriving DecidableEq, Repr

namespace ParameterType

def values : List ParameterType := [.boolean, .string, .number, .date, .dateTime, .optionSet]

def name : ParameterType → String
  | boolean => "boolean"
  | string => "string"
  | number => "number"
  | date => "date"
  | dateTime => "datetime"
  | optionSet => "optionset"

def codec : Codec ParameterType := .variant values name

end ParameterType

end ReportFlow
