import ReportFlow.Definition.Basic
import ReportFlow.Event
import ReportFlow.Placement

/-!
Turns a stored definition back into a flow that can be edited. Stored positions stay; nodes without
one are placed, and every node gets a caption.
-/

namespace ReportFlow

attribute [local instance] corePower

/-- A link without a relation cannot be reopened. -/
inductive ReopenError where
  | missingRelation (node : String)
  deriving DecidableEq, Repr

def ReopenError.message : ReopenError → String
  | missingRelation node =>
    "Link node '" ++ node ++ "' has no relation data; the report definition is malformed"

namespace RowCap

/-- An editor takes numbers only, so a reference keeps its digits; without any it is dropped. -/
def editable? : RowCap → Option UInt32
  | literal n => some n
  | parameter reference =>
    let digits := reference.toList.filter Char.isDigit
    let value := digits.foldl (fun n c => n * 10 + (c.toNat - '0'.toNat)) 0
    if digits.isEmpty ∨ 2 ^ (32 : Nat) ≤ value then none else some (UInt32.ofNat value)

end RowCap

/-- A caption that sums up what a node holds. -/
def ReportNode.caption (n : ReportNode) : String :=
  match n.data with
  | .entity d =>
    if d.attributes.isEmpty then d.entity
    else d.entity ++ " (" ++ toString d.attributes.length ++ " fields)"
  | .filter d => "Filter (" ++ toString d.conditionCount ++ " conditions)"
  | .link d =>
    match d.relation with
    | some relation =>
      (if d.aliasName.isEmpty then relation.target else d.aliasName) ++ " (" ++
        relation.direction.name ++ ")"
    | none => d.aliasName
  | .transform d => "Transform (" ++ toString d.expressions.length ++ " expressions)"
  | .sheet d => d.name ++ " Sheet (" ++ toString d.columns.length ++ " columns)"
  | .output d => "Export " ++ d.format.name.toUpper

namespace Reopening

def entityConfig (d : EntityData) : EntityConfig :=
  ⟨some d.entity, some d.attributes, some d.orderBy, d.timezone, d.top⟩

def filterConfig (d : FilterData) : FilterConfig where
  conditions := some (d.conditions.map (·.condition))
  groups := d.groups.map fun groups => groups.map (·.map (·.condition))

def linkConfig (relation : Relation) (d : LinkData) : LinkConfig where
  relation := some relation
  aliasName := some d.aliasName
  joinType := some d.joinType
  childFilters := d.childFilters.map fun conditions => [⟨.all, conditions.map (·.condition)⟩]
  childSort := d.childOrderBy
  childTop := d.childTop
  childFields := some d.childFields
  policy := d.manyPolicy.map fun many =>
    many.policy.withTop (many.policy.top.bind RowCap.editable?)

/-- Numbers with a fixed count of decimals become plain numbers. -/
def editorFormat : ColumnFormat → EditorFormat
  | .text => .text
  | .number | .oneDecimal | .twoDecimals => .number
  | .date => .date
  | .currency => .currency

/-- An editor has no aggregate sheets; they reopen as child sheets. -/
def editorSheetMode : SheetMode → EditorSheetMode
  | .main => .main
  | .aggregate | .child => .child

def columnConfig (c : SheetColumn) : ColumnConfig :=
  ⟨c.key, some c.title, some ((c.format.map editorFormat).getD .text), c.width, c.align⟩

def sheetConfig (d : SheetData) : SheetConfig where
  name := some d.name
  mode := some (editorSheetMode d.mode)
  parentKey := none
  columns := some (d.columns.map columnConfig)
  freeze := d.freeze.map fun f => ⟨some (decide (0 < f.rows.getD 0)), f.columns⟩
  styles := d.styles.map fun s => ⟨s.zebra, s.headerBold⟩
  hyperlinks := d.hyperlinks.bind (·.childSheetLinks)

def exportConfig (d : ExportData) : ExportConfig :=
  ⟨some (if d.format = .pdf then .xlsx else d.format), some d.layout, some d.fileName⟩

def config (n : ReportNode) : Except ReopenError NodeConfig :=
  match n.data with
  | .entity d => .ok (.entity (entityConfig d))
  | .filter d => .ok (.filter (filterConfig d))
  | .link d =>
    match d.relation with
    | none => .error (.missingRelation n.id)
    | some relation => .ok (.link (linkConfig relation d))
  | .transform d => .ok (.transform ⟨some d.expressions⟩)
  | .sheet d => .ok (.sheet (sheetConfig d))
  | .output d => .ok (.output (exportConfig d))

def node (n : ReportNode) : Except ReopenError FlowNode := do
  let config ← config n
  return ⟨n.id, config, n.position, some n.caption⟩

def edge (e : ReportEdge) : FlowEdge := (FlowEdge.between e.source e.target).withId e.id

/-- Nodes up to the first that cannot be reopened. -/
def readable (nodes : List ReportNode) : List ReportNode :=
  nodes.takeWhile fun n => (config n).isOk

def nodeEvents (n : ReportNode) : List Event :=
  match n.data with
  | .sheet d =>
    if d.mode = .aggregate then
      [.warn ("Sheet node '" ++ n.id ++ "' ('" ++ d.name ++
        "') is an aggregate sheet; it reopens as a child sheet")]
    else []
  | _ => []

end Reopening

def Definition.reopen (d : Definition) : Except ReopenError Flow := do
  let nodes ← d.graph.nodes.mapM Reopening.node
  return ⟨Placement.placeAll nodes, d.graph.edges.map Reopening.edge⟩

/-- What reopening a definition tells, also when it fails. -/
def Definition.reopenEvents (d : Definition) : List Event :=
  (Reopening.readable d.graph.nodes).flatMap Reopening.nodeEvents ++
    if d.reopen.isOk then
      [.debug ("Decompiled report '" ++ d.id ++ "' into " ++ toString d.graph.nodes.length ++
        " node(s)")]
    else []

end ReportFlow
