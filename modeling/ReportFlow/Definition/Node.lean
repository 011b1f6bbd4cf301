import ReportFlow.Definition.Condition
import ReportFlow.Position

/-!
Nodes and edges of a stored report graph. Each of the six kinds has its own strictly typed data.
-/

namespace ReportFlow

structure EntityData where
  entity : String
  attributes : List String
  orderBy : List SortKey
  timezone : Option Timezone
  top : Option UInt32
  deriving DecidableEq

namespace EntityData

def codec : Codec EntityData :=
  .record "EntityNodeData"
    (.cons (.required "entity" .string) <| .cons (.defaulted "attributes" (.list .string) []) <|
      .cons (.defaulted "orderBy" (.list SortKey.codec) []) <|
      .cons (.optional "timezoneBehavior" Timezone.codec) <| .cons (.optional "top" .uint32) .nil)
    (fun e => (e.entity, e.attributes, e.orderBy, e.timezone, e.top, ()))
    (fun (entity, attributes, orderBy, timezone, top, _) =>
      ⟨entity, attributes, orderBy, timezone, top⟩)

end EntityData

structure FilterData where
  logic : Logic
  conditions : List CaptionedCondition
  groups : Option (List (Group CaptionedCondition))
  deriving DecidableEq

namespace FilterData

/-- Conditions at the top level and in every group. -/
def conditionCount (f : FilterData) : Nat :=
  f.conditions.length + ((f.groups.getD []).map fun g => g.conditions.length).foldr (· + ·) 0

def codec : Codec FilterData :=
  .record "FilterNodeData"
    (.cons (.required "logic" Logic.codec) <|
      .cons (.defaulted "conditions" (.list CaptionedCondition.codec) []) <|
      .cons (.optional "groups" (.list Group.codec)) .nil)
    (fun f => (f.logic, f.conditions, f.groups, ()))
    (fun (logic, conditions, groups, _) => ⟨logic, conditions, groups⟩)

end FilterData

/-- A cap on rows: a number, or a reference to a parameter. -/
inductive RowCap where
  | literal (n : UInt32)
  | parameter (reference : String)
  deriving DecidableEq

namespace RowCap

/-- The whole value is read before its type is looked at. -/
def codec : Codec RowCap where
  encode
    | literal n => Codec.uint32.encode n
    | parameter reference => .string reference
  decode _ s := do
    let value ← s.toJson.mapError .malformed
    match Codec.uint32.ofJson? value, value with
    | .ok n, _ => return literal n
    | _, .string reference => return parameter reference
    | _, _ => throw (.noAlternative "TopValue")

end RowCap

structure ManyPolicy where
  policy : Policy RowCap
  outputAlias : Option String
  deriving DecidableEq

namespace ManyPolicy

def codec : Codec ManyPolicy :=
  .record "ManyPolicy"
    (.cons (.required "kind" PolicyKind.codec) <| .cons (.optional "field" .string) <|
      .cons (.optional "delimiter" .string) <| .cons (.optional "orderBy" (.list SortKey.codec)) <|
      .cons (.optional "top" RowCap.codec) <| .cons (.optional "outputAlias" .string) <|
      .cons (.optional "measures" (.list Measure.codec)) <|
      .cons (.optional "groupByChild" (.list .string)) <| .cons (.optional "sheetName" .string) <|
      .cons (.optional "columns" (.list .string)) .nil)
    (fun ⟨p, outputAlias⟩ => (p.kind, p.field, p.delimiter, p.orderBy, p.top, outputAlias,
      p.measures, p.groupBy, p.sheetName, p.columns, ()))
    (fun (kind, field, delimiter, orderBy, top, outputAlias, measures, groupBy, sheetName, columns,
        _) =>
      ⟨⟨kind, field, delimiter, orderBy, top, measures, groupBy, sheetName, columns⟩, outputAlias⟩)

end ManyPolicy

structure LinkData where
  relation : Option Relation
  joinType : JoinType
  aliasName : String
  childFilters : Option (List CaptionedCondition)
  childOrderBy : Option (List SortKey)
  childTop : Option UInt32
  childFields : List String
  manyPolicy : Option ManyPolicy
  deriving DecidableEq

namespace LinkData

def codec : Codec LinkData :=
  .record "LinkNodeData"
    (.cons (.optional "relation" Relation.codec) <| .cons (.required "joinType" JoinType.codec) <|
      .cons (.required "alias" .string) <|
      .cons (.optional "childFilters" (.list CaptionedCondition.codec)) <|
      .cons (.optional "childOrderBy" (.list SortKey.codec)) <|
      .cons (.optional "childTop" .uint32) <|
      .cons (.defaulted "childFields" (.list .string) []) <|
      .cons (.optional "manyPolicy" ManyPolicy.codec) .nil)
    (fun l => (l.relation, l.joinType, l.aliasName, l.childFilters, l.childOrderBy, l.childTop,
      l.childFields, l.manyPolicy, ()))
    (fun (relation, joinType, aliasName, childFilters, childOrderBy, childTop, childFields, manyPolicy,
        _) =>
      ⟨relation, joinType, aliasName, childFilters, childOrderBy, childTop, childFields, manyPolicy⟩)

end LinkData

structure TransformData where
  expressions : List Expression
  deriving DecidableEq

namespace TransformData

def codec : Codec TransformData :=
  .record "TransformNodeData"
    (.cons (.defaulted "expressions" (.list Expression.codec) []) .nil)
    (fun t => (t.expressions, ()))
    (fun (expressions, _) => ⟨expressions⟩)

end TransformData

structure SheetColumn where
  key : String
  title : String
  width : Option UInt32
  format : Option ColumnFormat
  align : Option Align
  wrap : Option Bool
  deriving DecidableEq

namespace SheetColumn

def codec : Codec SheetColumn :=
  .record "SheetColumn"
    (.cons (.required "key" .string) <| .cons (.required "title" .string) <|
      .cons (.optional "width" .uint32) <| .cons (.optional "format" ColumnFormat.codec) <|
      .cons (.optional "align" Align.codec) <| .cons (.optional "wrap" .bool) .nil)
    (fun c => (c.key, c.title, c.width, c.format, c.align, c.wrap, ()))
    (fun (key, title, width, format, align, wrap, _) => ⟨key, title, width, format, align, wrap⟩)

end SheetColumn

structure SheetFreeze where
  rows : Option UInt32
  columns : Option UInt32
  deriving DecidableEq

namespace SheetFreeze

def codec : Codec SheetFreeze :=
  .record "SheetFreeze"
    (.cons (.optional "rows" .uint32) <| .cons (.optional "columns" .uint32) .nil)
    (fun f => (f.rows, f.columns, ()))
    (fun (rows, columns, _) => ⟨rows, columns⟩)

end SheetFreeze

structure SheetStyles where
  zebra : Option Bool
  headerBold : Option Bool
  autoFilter : Option Bool
  deriving DecidableEq

namespace SheetStyles

def codec : Codec SheetStyles :=
  .record "SheetStyles"
    (.cons (.optional "zebra" .bool) <| .cons (.optional "headerBold" .bool) <|
      .cons (.optional "autoFilter" .bool) .nil)
    (fun s => (s.zebra, s.headerBold, s.autoFilter, ()))
    (fun (zebra, headerBold, autoFilter, _) => ⟨zebra, headerBold, autoFilter⟩)

end SheetStyles

structure SheetHyperlinks where
  childSheetLinks : Option Bool
  deriving DecidableEq

namespace SheetHyperlinks

def codec : Codec SheetHyperlinks :=
  .record "SheetHyperlinks" (.cons (.optional "childSheetLinks" .bool) .nil)
    (fun h => (h.childSheetLinks, ()))
    (fun (childSheetLinks, _) => ⟨childSheetLinks⟩)

end SheetHyperlinks

structure SheetData where
  name : String
  mode : SheetMode
  columns : List SheetColumn
  freeze : Option SheetFreeze
  styles : Option SheetStyles
  hyperlinks : Option SheetHyperlinks
  deriving DecidableEq

namespace SheetData

def codec : Codec SheetData :=
  .record "SheetNodeData"
    (.cons (.required "name" .string) <| .cons (.required "mode" SheetMode.codec) <|
      .cons (.defaulted "columns" (.list SheetColumn.codec) []) <|
      .cons (.optional "freeze" SheetFreeze.codec) <| .cons (.optional "styles" SheetStyles.codec) <|
      .cons (.optional "hyperlinks" SheetHyperlinks.codec) .nil)
    (fun s => (s.name, s.mode, s.columns, s.freeze, s.styles, s.hyperlinks, ()))
    (fun (name, mode, columns, freeze, styles, hyperlinks, _) =>
      ⟨name, mode, columns, freeze, styles, hyperlinks⟩)

end SheetData

structure ExportData where
  format : ExportFormat
  layout : WorkbookMode
  fileName : String
  includeMetadataSheet : Option Bool
  deriving DecidableEq

namespace ExportData

def codec : Codec ExportData :=
  .record "ExportNodeData"
    (.cons (.required "format" ExportFormat.codec) <|
      .cons (.required "layout" WorkbookMode.codec) <| .cons (.required "fileName" .string) <|
      .cons (.optional "includeMetadataSheet" .bool) .nil)
    (fun e => (e.format, e.layout, e.fileName, e.includeMetadataSheet, ()))
    (fun (format, layout, fileName, includeMetadataSheet, _) =>
      ⟨format, layout, fileName, includeMetadataSheet⟩)

end ExportData

inductive NodeData where
  | entity (data : EntityData)
  | filter (data : FilterData)
  | link (data : LinkData)
  | transform (data : TransformData)
  | sheet (data : SheetData)
  | output (data : ExportData)
  deriving DecidableEq

/-- The kinds a report graph can hold. -/
inductive CompiledKind where
  | entity
  | filter
  | link
  | transform
  | sheet
  | output
  deriving DecidableEq, Repr

namespace CompiledKind

def values : List CompiledKind := [.entity, .filter, .link, .transform, .sheet, .output]

def name : CompiledKind → String
  | entity => "entity"
  | filter => "filter"
  | link => "link"
  | transform => "transform"
  | sheet => "sheet"
  | output => "export"

def codec : Codec CompiledKind := .variant values name

end CompiledKind

namespace NodeData

def kind : NodeData → CompiledKind
  | entity _ => .entity
  | filter _ => .filter
  | link _ => .link
  | transform _ => .transform
  | sheet _ => .sheet
  | output _ => .output

def kindName (d : NodeData) : String := d.kind.name

def encode : NodeData → Json
  | entity d => EntityData.codec.encode d
  | filter d => FilterData.codec.encode d
  | link d => LinkData.codec.encode d
  | transform d => TransformData.codec.encode d
  | sheet d => SheetData.codec.encode d
  | output d => ExportData.codec.encode d

def decode (o : Origin) (s : Source) : CompiledKind → Except DecodeError NodeData
  | .entity => (EntityData.codec.decode o s).map .entity
  | .filter => (FilterData.codec.decode o s).map .filter
  | .link => (LinkData.codec.decode o s).map .link
  | .transform => (TransformData.codec.decode o s).map .transform
  | .sheet => (SheetData.codec.decode o s).map .sheet
  | .output => (ExportData.codec.decode o s).map .output

def kindField : String := "type"

def dataField : String := "data"

def lone : List (String × Source) → Except DecodeError Unit
  | [] => .ok ()
  | (key, _) :: _ => .error (.duplicateField key)

/-- Takes the kind and the data out of the members of a node, which hold them side by side. -/
def ofMembers (members : List (String × Source)) : Except DecodeError NodeData :=
  match members.filter fun m => m.1 = kindField ∨ m.1 = dataField with
  | [] => .error (.missingField kindField)
  | (key, first) :: rest =>
    if key = kindField then do
      let kind ← CompiledKind.codec.decode .held first
      match rest with
      | [] => throw (.missingField dataField)
      | (other, second) :: more =>
        if other = kindField then throw (.duplicateField kindField)
        let data ← decode .held second kind
        lone more
        return data
    else
      match rest with
      | [] => .error (.missingField kindField)
      | (other, second) :: more =>
        if other = dataField then .error (.duplicateField dataField)
        else do
          let kind ← CompiledKind.codec.decode .held second
          let data ← decode .held first kind
          lone more
          return data

end NodeData

structure ReportNode where
  id : String
  data : NodeData
  position : Option Position
  deriving DecidableEq

namespace ReportNode

def codec : Codec ReportNode where
  encode n := .object <|
    [("id", .string n.id), (NodeData.kindField, .string n.data.kindName),
      (NodeData.dataField, n.data.encode)] ++
    match n.position with
    | none => []
    | some p => [("position", Position.codec.encode p)]
  decode
    | o, .object members ending => do
      let fields := Fields.cons (.required "id" .string) <|
        .cons (.optional "position" Position.codec) .nil
      let hold (s : Source) := (s.toJson.mapError DecodeError.malformed).map fun _ => ()
      let (slots, others) ← fields.fillAll o hold members fields.empty
      Codec.stopAt ending.read
      let (id, position, _) ← fields.finish slots
      let data ← NodeData.ofMembers others
      return ⟨id, data, position⟩
    | _, s => Codec.wrong "struct ReportGraphNode" s

end ReportNode

structure ReportEdge where
  source : String
  target : String
  id : Option String
  deriving DecidableEq

namespace ReportEdge

def codec : Codec ReportEdge :=
  .record "ReportGraphEdge"
    (.cons (.required "from" .string) <| .cons (.required "to" .string) <|
      .cons (.optional "id" .string) .nil)
    (fun e => (e.source, e.target, e.id, ()))
    (fun (source, target, id, _) => ⟨source, target, id⟩)

end ReportEdge

structure StoredGraph where
  nodes : List ReportNode
  edges : List ReportEdge
  deriving DecidableEq

namespace StoredGraph

def empty : StoredGraph := ⟨[], []⟩

def codec : Codec StoredGraph :=
  .record "ReportGraph"
    (.cons (.defaulted "nodes" (.list ReportNode.codec) []) <|
      .cons (.defaulted "edges" (.list ReportEdge.codec) []) .nil)
    (fun g => (g.nodes, g.edges, ()))
    (fun (nodes, edges, _) => ⟨nodes, edges⟩)

end StoredGraph

end ReportFlow
