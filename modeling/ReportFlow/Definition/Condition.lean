import ReportFlow.Definition.Vocabulary
import ReportFlow.Json.Record

/-!
Parts that an edited flow and a stored definition share: sort keys, relations, conditions, measures
and expressions.
-/

namespace ReportFlow

structure SortKey where
  attr : String
  descending : Bool
  deriving DecidableEq

namespace SortKey

def codec : Codec SortKey :=
  .record "SortKey"
    (.cons (.required "attribute" .string) <| .cons (.defaulted "desc" .bool false) .nil)
    (fun k => (k.attr, k.descending, ()))
    (fun (attr, descending, _) => ⟨attr, descending⟩)

end SortKey

/-- A relationship between two entities. For a many-to-many one, `toKey` is the entity between
them. -/
structure Relation where
  direction : RelationDirection
  schemaName : String
  fromKey : String
  toKey : String
  target : String
  deriving DecidableEq

namespace Relation

def codecAs (record direction : String) : Codec Relation :=
  .record record
    (.cons (.required direction RelationDirection.codec) <|
      .cons (.required "schemaName" .string) <| .cons (.required "from" .string) <|
      .cons (.required "to" .string) <| .cons (.required "target" .string) .nil)
    (fun r => (r.direction, r.schemaName, r.fromKey, r.toKey, r.target, ()))
    (fun (direction, schemaName, fromKey, toKey, target, _) =>
      ⟨direction, schemaName, fromKey, toKey, target⟩)

def codec : Codec Relation := codecAs "Relation" "direction"

def editorCodec : Codec Relation := codecAs "UiRelation" "kind"

end Relation

/-- The value may be a literal or name a parameter; it is never resolved. -/
structure Condition where
  attr : String
  operator : Operator
  value : Json
  deriving DecidableEq

namespace Condition

def editorCodec : Codec Condition :=
  .record "UiCondition"
    (.cons (.required "attribute" .string) <| .cons (.required "operator" Operator.codec) <|
      .cons (.required "value" .free) .nil)
    (fun c => (c.attr, c.operator, c.value, ()))
    (fun (attr, operator, value, _) => ⟨attr, operator, value⟩)

end Condition

/-- A stored condition, with the caption it is shown under. -/
structure CaptionedCondition where
  condition : Condition
  label : Option String
  deriving DecidableEq

namespace CaptionedCondition

def codec : Codec CaptionedCondition :=
  .record "FilterCondition"
    (.cons (.required "attribute" .string) <| .cons (.required "operator" Operator.codec) <|
      .cons (.required "value" .free) <| .cons (.optional "label" .string) .nil)
    (fun c => (c.condition.attr, c.condition.operator, c.condition.value, c.label, ()))
    (fun (attr, operator, value, label, _) => ⟨⟨attr, operator, value⟩, label⟩)

end CaptionedCondition

structure Group (α : Type) where
  logic : Logic
  conditions : List α
  deriving DecidableEq

namespace Group

def map {α β : Type} (f : α → β) (g : Group α) : Group β := ⟨g.logic, g.conditions.map f⟩

def codec : Codec (Group CaptionedCondition) :=
  .record "FilterGroup"
    (.cons (.required "logic" Logic.codec) <|
      .cons (.defaulted "conditions" (.list CaptionedCondition.codec) []) .nil)
    (fun g => (g.logic, g.conditions, ()))
    (fun (logic, conditions, _) => ⟨logic, conditions⟩)

/-- Editors write the logic of a group in capitals. -/
def editorName : Logic → String
  | .all => "AND"
  | .any => "OR"

def editorCodec : Codec (Group Condition) :=
  .record "UiFilterGroup"
    (.cons (.required "type" (.variant Logic.values editorName)) <|
      .cons (.defaulted "conditions" (.list Condition.editorCodec) []) .nil)
    (fun g => (g.logic, g.conditions, ()))
    (fun (logic, conditions, _) => ⟨logic, conditions⟩)

end Group

structure Measure where
  func : MeasureFunc
  attr : Option String
  aliasName : String
  deriving DecidableEq

namespace Measure

def codec : Codec Measure :=
  .record "Measure"
    (.cons (.required "func" MeasureFunc.codec) <| .cons (.optional "attribute" .string) <|
      .cons (.required "alias" .string) .nil)
    (fun m => (m.func, m.attr, m.aliasName, ()))
    (fun (func, attr, aliasName, _) => ⟨func, attr, aliasName⟩)

end Measure

structure Expression where
  aliasName : String
  formula : String
  deriving DecidableEq

namespace Expression

def codecAs (record formula : String) : Codec Expression :=
  .record record
    (.cons (.required "alias" .string) <| .cons (.required formula .string) .nil)
    (fun e => (e.aliasName, e.formula, ()))
    (fun (aliasName, formula, _) => ⟨aliasName, formula⟩)

def codec : Codec Expression := codecAs "TransformExpression" "expr"

def editorCodec : Codec Expression := codecAs "UiExpression" "expression"

end Expression

/-- How the rows of a to-many link are folded, with a cap on their number. -/
structure Policy (cap : Type) where
  kind : PolicyKind
  field : Option String
  delimiter : Option String
  orderBy : Option (List SortKey)
  top : Option cap
  measures : Option (List Measure)
  groupBy : Option (List String)
  sheetName : Option String
  columns : Option (List String)
  deriving DecidableEq

/-- The same policy with another cap, or none. -/
def Policy.withTop {α β : Type} (p : Policy α) (top : Option β) : Policy β :=
  ⟨p.kind, p.field, p.delimiter, p.orderBy, top, p.measures, p.groupBy, p.sheetName, p.columns⟩

namespace Policy

def editorCodec : Codec (Policy UInt32) :=
  .record "JoinPolicy"
    (.cons (.required "kind" PolicyKind.codec) <| .cons (.optional "field" .string) <|
      .cons (.optional "delimiter" .string) <| .cons (.optional "orderBy" (.list SortKey.codec)) <|
      .cons (.optional "top" .uint32) <| .cons (.optional "measures" (.list Measure.codec)) <|
      .cons (.optional "groupBy" (.list .string)) <| .cons (.optional "sheetName" .string) <|
      .cons (.optional "childColumns" (.list .string)) .nil)
    (fun p => (p.kind, p.field, p.delimiter, p.orderBy, p.top, p.measures, p.groupBy, p.sheetName,
      p.columns, ()))
    (fun (kind, field, delimiter, orderBy, top, measures, groupBy, sheetName, columns, _) =>
      ⟨kind, field, delimiter, orderBy, top, measures, groupBy, sheetName, columns⟩)

end Policy

end ReportFlow
