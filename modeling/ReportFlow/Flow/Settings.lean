import ReportFlow.Definition.Condition

/-!
What the nodes of an edited flow hold. Nodes are filled in step by step, so every setting may be
missing.
-/

namespace ReportFlow

structure EntityConfig where
  entity : Option String
  attributes : Option (List String)
  orderBy : Option (List SortKey)
  timezone : Option Timezone
  rowCap : Option UInt32
  deriving DecidableEq

namespace EntityConfig

def empty : EntityConfig := ⟨none, none, none, none, none⟩

def codec : Codec EntityConfig :=
  .record "EntityConfig"
    (.cons (.optional "entity" .string) <| .cons (.optional "attributes" (.list .string)) <|
      .cons (.optional "orderBy" (.list SortKey.codec)) <|
      .cons (.optional "timezone" Timezone.codec) <| .cons (.optional "rowCap" .uint32) .nil)
    (fun c => (c.entity, c.attributes, c.orderBy, c.timezone, c.rowCap, ()))
    (fun (entity, attributes, orderBy, timezone, rowCap, _) =>
      ⟨entity, attributes, orderBy, timezone, rowCap⟩)

end EntityConfig

structure FilterConfig where
  conditions : Option (List Condition)
  groups : Option (List (Group Condition))
  deriving DecidableEq

namespace FilterConfig

def empty : FilterConfig := ⟨none, none⟩

def codec : Codec FilterConfig :=
  .record "FilterConfig"
    (.cons (.optional "conditions" (.list Condition.editorCodec)) <|
      .cons (.optional "filterGroups" (.list Group.editorCodec)) .nil)
    (fun c => (c.conditions, c.groups, ()))
    (fun (conditions, groups, _) => ⟨conditions, groups⟩)

end FilterConfig

structure LinkConfig where
  relation : Option Relation
  aliasName : Option String
  joinType : Option JoinType
  childFilters : Option (List (Group Condition))
  childSort : Option (List SortKey)
  childTop : Option UInt32
  childFields : Option (List String)
  policy : Option (Policy UInt32)
  deriving DecidableEq

namespace LinkConfig

def empty : LinkConfig := ⟨none, none, none, none, none, none, none, none⟩

def codec : Codec LinkConfig :=
  .record "LinkConfig"
    (.cons (.optional "relation" Relation.editorCodec) <| .cons (.optional "alias" .string) <|
      .cons (.optional "joinType" JoinType.codec) <|
      .cons (.optional "childFilters" (.list Group.editorCodec)) <|
      .cons (.optional "childSort" (.list SortKey.codec)) <|
      .cons (.optional "childTopN" .uint32) <|
      .cons (.optional "childFields" (.list .string)) <|
      .cons (.optional "policy" Policy.editorCodec) .nil)
    (fun c => (c.relation, c.aliasName, c.joinType, c.childFilters, c.childSort, c.childTop,
      c.childFields, c.policy, ()))
    (fun (relation, aliasName, joinType, childFilters, childSort, childTop, childFields, policy, _) =>
      ⟨relation, aliasName, joinType, childFilters, childSort, childTop, childFields, policy⟩)

end LinkConfig

structure TransformConfig where
  expressions : Option (List Expression)
  deriving DecidableEq

namespace TransformConfig

def empty : TransformConfig := ⟨none⟩

def codec : Codec TransformConfig :=
  .record "TransformConfig"
    (.cons (.optional "expressions" (.list Expression.editorCodec)) .nil)
    (fun c => (c.expressions, ()))
    (fun (expressions, _) => ⟨expressions⟩)

end TransformConfig

structure AggregateConfig where
  groupBy : Option (List String)
  measures : Option (List Measure)
  having : Option (Group Condition)
  deriving DecidableEq

namespace AggregateConfig

def empty : AggregateConfig := ⟨none, none, none⟩

def codec : Codec AggregateConfig :=
  .record "AggregateConfig"
    (.cons (.optional "groupBy" (.list .string)) <|
      .cons (.optional "measures" (.list Measure.codec)) <|
      .cons (.optional "havingFilter" Group.editorCodec) .nil)
    (fun c => (c.groupBy, c.measures, c.having, ()))
    (fun (groupBy, measures, having, _) => ⟨groupBy, measures, having⟩)

end AggregateConfig

/-- The sheet modes an editor offers. -/
inductive EditorSheetMode where
  | main
  | child
  deriving DecidableEq, Repr

namespace EditorSheetMode

def values : List EditorSheetMode := [.main, .child]

def name : EditorSheetMode → String
  | main => "main"
  | child => "child"

def codec : Codec EditorSheetMode := .variant values name

end EditorSheetMode

/-- The column formats an editor offers. -/
inductive EditorFormat where
  | text
  | number
  | date
  | currency
  deriving DecidableEq, Repr

namespace EditorFormat

def values : List EditorFormat := [.text, .number, .date, .currency]

def name : EditorFormat → String
  | text => "text"
  | number => "number"
  | date => "date"
  | currency => "currency"

def codec : Codec EditorFormat := .variant values name

end EditorFormat

structure ColumnConfig where
  key : String
  title : Option String
  format : Option EditorFormat
  width : Option UInt32
  align : Option Align
  deriving DecidableEq

namespace ColumnConfig

def ofKey (key : String) : ColumnConfig := ⟨key, none, none, none, none⟩

def codec : Codec ColumnConfig :=
  .record "UiColumn"
    (.cons (.required "key" .string) <| .cons (.optional "title" .string) <|
      .cons (.optional "format" EditorFormat.codec) <| .cons (.optional "width" .uint32) <|
      .cons (.optional "align" Align.codec) .nil)
    (fun c => (c.key, c.title, c.format, c.width, c.align, ()))
    (fun (key, title, format, width, align, _) => ⟨key, title, format, width, align⟩)

end ColumnConfig

structure FreezeConfig where
  firstRow : Option Bool
  firstColumns : Option UInt32
  deriving DecidableEq

namespace FreezeConfig

def codec : Codec FreezeConfig :=
  .record "UiFreeze"
    (.cons (.optional "firstRow" .bool) <| .cons (.optional "firstColumns" .uint32) .nil)
    (fun c => (c.firstRow, c.firstColumns, ()))
    (fun (firstRow, firstColumns, _) => ⟨firstRow, firstColumns⟩)

end FreezeConfig

structure StyleConfig where
  zebraRows : Option Bool
  boldHeader : Option Bool
  deriving DecidableEq

namespace StyleConfig

def codec : Codec StyleConfig :=
  .record "UiStyles"
    (.cons (.optional "zebraRows" .bool) <| .cons (.optional "boldHeader" .bool) .nil)
    (fun c => (c.zebraRows, c.boldHeader, ()))
    (fun (zebraRows, boldHeader, _) => ⟨zebraRows, boldHeader⟩)

end StyleConfig

/-- The parent key has no place in a report definition. -/
structure SheetConfig where
  name : Option String
  mode : Option EditorSheetMode
  parentKey : Option String
  columns : Option (List ColumnConfig)
  freeze : Option FreezeConfig
  styles : Option StyleConfig
  hyperlinks : Option Bool
  deriving DecidableEq

namespace SheetConfig

def empty : SheetConfig := ⟨none, none, none, none, none, none, none⟩

def codec : Codec SheetConfig :=
  .record "SheetConfig"
    (.cons (.optional "name" .string) <| .cons (.optional "mode" EditorSheetMode.codec) <|
      .cons (.optional "parentKey" .string) <|
      .cons (.optional "columns" (.list ColumnConfig.codec)) <|
      .cons (.optional "freeze" FreezeConfig.codec) <|
      .cons (.optional "styles" StyleConfig.codec) <| .cons (.optional "hyperlinks" .bool) .nil)
    (fun c => (c.name, c.mode, c.parentKey, c.columns, c.freeze, c.styles, c.hyperlinks, ()))
    (fun (name, mode, parentKey, columns, freeze, styles, hyperlinks, _) =>
      ⟨name, mode, parentKey, columns, freeze, styles, hyperlinks⟩)

end SheetConfig

structure ExportConfig where
  format : Option ExportFormat
  layout : Option WorkbookMode
  fileName : Option String
  deriving DecidableEq

namespace ExportConfig

def empty : ExportConfig := ⟨none, none, none⟩

def codec : Codec ExportConfig :=
  .record "ExportConfig"
    (.cons (.optional "format" ExportFormat.codec) <|
      .cons (.optional "layout" WorkbookMode.codec) <| .cons (.optional "fileName" .string) .nil)
    (fun c => (c.format, c.layout, c.fileName, ()))
    (fun (format, layout, fileName, _) => ⟨format, layout, fileName⟩)

end ExportConfig

structure PivotValue where
  func : String
  attr : String
  aliasName : Option String
  deriving DecidableEq

namespace PivotValue

def codec : Codec PivotValue :=
  .record "PivotValue"
    (.cons (.required "func" .string) <| .cons (.required "attribute" .string) <|
      .cons (.optional "alias" .string) .nil)
    (fun v => (v.func, v.attr, v.aliasName, ()))
    (fun (func, attr, aliasName, _) => ⟨func, attr, aliasName⟩)

end PivotValue

structure PivotConfig where
  rows : Option (List String)
  pivotColumns : Option (List String)
  values : Option (List PivotValue)
  filters : Option (List (Group Condition))
  deriving DecidableEq

namespace PivotConfig

def empty : PivotConfig := ⟨none, none, none, none⟩

def codec : Codec PivotConfig :=
  .record "PivotConfig"
    (.cons (.optional "rows" (.list .string)) <| .cons (.optional "pivotColumns" (.list .string)) <|
      .cons (.optional "values" (.list PivotValue.codec)) <|
      .cons (.optional "filters" (.list Group.editorCodec)) .nil)
    (fun c => (c.rows, c.pivotColumns, c.values, c.filters, ()))
    (fun (rows, pivotColumns, values, filters, _) => ⟨rows, pivotColumns, values, filters⟩)

end PivotConfig

end ReportFlow
