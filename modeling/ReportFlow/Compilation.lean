import ReportFlow.Definition.Basic
import ReportFlow.Estimate
import ReportFlow.Event
import ReportFlow.Flow.Basic
import ReportFlow.Json.Printer
import ReportFlow.Sources

/-!
Compiles an edited flow into a report definition. Compilation never fails: what is missing takes a
default, and what is wrong becomes a warning.
-/

namespace ReportFlow

/-- The text of a value in a caption; elements of an array are joined by commas. -/
def Json.caption : Json → String
  | .string s => s
  | .array items => ",".intercalate (captions items)
  | value => value.compact
where
  captions : List Json → List String
    | [] => []
    | item :: rest => item.caption :: captions rest

/-- How a condition is shown. -/
def Condition.caption (c : Condition) : String :=
  c.attr ++ " " ++ c.operator.name ++ " " ++ c.value.caption

inductive CompileWarning where
  | noEntity
  | manyEntities
  | noSheet
  | noRelation (node : String)
  | pdfExport (node : String)
  | downgraded (sheet node : String) (mode : SheetMode)
  deriving DecidableEq

namespace CompileWarning

def message : CompileWarning → String
  | noEntity => "No entity nodes found - report may not function correctly"
  | manyEntities => "Multiple entity nodes detected - only the first will be used as primary"
  | noSheet => "No sheet nodes found - add a sheet to define output format"
  | noRelation node =>
    "Link node " ++ node ++ " has no relation and cannot be reopened until a relation is chosen"
  | pdfExport node =>
    "Export node " ++ node ++ " requests pdf output, which is not supported; compiled as xlsx"
  | downgraded sheet node mode =>
    "Sheet '" ++ sheet ++ "' (" ++ node ++ ") was an aggregate sheet and is now compiled as " ++
      mode.name

end CompileWarning

namespace Compilation

def defaultFileName : String := "Report_\x7byyyyMMdd\x7d.xlsx"
def defaultAlias : String := "linked"
def defaultSheetName : String := "Unnamed Sheet"
def defaultReportName : String := "Untitled Report"
def defaultDescription : String := "Generated from flow builder"

def entityData (c : EntityConfig) : EntityData where
  entity := c.entity.getD unknownEntity
  attributes := c.attributes.getD []
  orderBy := c.orderBy.getD []
  timezone := some (c.timezone.getD .user)
  top := c.rowCap

def captioned (c : Condition) : CaptionedCondition := ⟨c, some c.caption⟩

def uncaptioned (c : Condition) : CaptionedCondition := ⟨c, none⟩

def filterData (c : FilterConfig) : FilterData where
  logic := .all
  conditions := (c.conditions.getD []).map captioned
  groups := some ((c.groups.getD []).map (·.map captioned))

/-- Stored child filters are one flat list, so only the first group is kept. -/
def childFilters (groups : List (Group Condition)) : List CaptionedCondition :=
  match groups with
  | [] => []
  | group :: _ => group.conditions.map uncaptioned

def manyPolicy (aliasName : Option String) (p : Policy UInt32) : ManyPolicy :=
  ⟨p.withTop (p.top.map .literal), aliasName⟩

def linkData (c : LinkConfig) : LinkData where
  relation := c.relation
  joinType := c.joinType.getD .outer
  aliasName := c.aliasName.getD defaultAlias
  childFilters := some (childFilters (c.childFilters.getD []))
  childOrderBy := some (c.childSort.getD [])
  childTop := c.childTop
  childFields := c.childFields.getD []
  manyPolicy := c.policy.map (manyPolicy c.aliasName)

def transformData (c : TransformConfig) : TransformData := ⟨c.expressions.getD []⟩

def columnFormat : EditorFormat → ColumnFormat
  | .text => .text
  | .number => .number
  | .date => .date
  | .currency => .currency

def sheetColumn (c : ColumnConfig) : SheetColumn where
  key := c.key
  title := c.title.getD c.key
  width := c.width
  format := some (columnFormat (c.format.getD .text))
  align := c.align
  wrap := some false

def sheetMode : EditorSheetMode → SheetMode
  | .main => .main
  | .child => .child

def sheetFreeze (f : FreezeConfig) : SheetFreeze :=
  ⟨some (if f.firstRow.getD false then 1 else 0), some (f.firstColumns.getD 0)⟩

def sheetStyles (s : StyleConfig) : SheetStyles := ⟨s.zebraRows, s.boldHeader, some true⟩

def sheetData (c : SheetConfig) : SheetData where
  name := c.name.getD defaultSheetName
  mode := sheetMode (c.mode.getD .main)
  columns := (c.columns.getD []).map sheetColumn
  freeze := c.freeze.map sheetFreeze
  styles := c.styles.map sheetStyles
  hyperlinks := c.hyperlinks.map fun links => ⟨some links⟩

/-- A definition has no pdf output. -/
def exportFormat : Option ExportFormat → ExportFormat
  | some .csv => .csv
  | _ => .xlsx

def exportData (c : ExportConfig) : ExportData where
  format := exportFormat c.format
  layout := c.layout.getD .singleSheet
  fileName := c.fileName.getD defaultFileName
  includeMetadataSheet := some true

/-- The data of the six compiled kinds. -/
def nodeData? : NodeConfig → Option NodeData
  | .entity c => some (.entity (entityData c))
  | .filter c => some (.filter (filterData c))
  | .link c => some (.link (linkData c))
  | .transform c => some (.transform (transformData c))
  | .sheet c => some (.sheet (sheetData c))
  | .output c => some (.output (exportData c))
  | .aggregate _ | .concatenate _ | .pivot _ | .unrecognized _ _ => none

def node? (n : FlowNode) : Option ReportNode :=
  (nodeData? n.config).map fun data => ⟨n.id, data, n.position⟩

def edge (e : FlowEdge) : ReportEdge := ⟨e.source, e.target, some e.id⟩

def graph (g : Flow) : StoredGraph := ⟨g.nodes.filterMap node?, g.edges.map edge⟩

def nodeWarnings (n : FlowNode) : List CompileWarning :=
  match n.config with
  | .link c => if c.relation.isNone then [.noRelation n.id] else []
  | .output c => if c.format = some .pdf then [.pdfExport n.id] else []
  | _ => []

def nodeEvents (n : FlowNode) : List Event :=
  match n.config with
  | .link c =>
    let dropped := (c.childFilters.getD []).length - 1
    if dropped = 0 then []
    else
      [.debug ("Link node '" ++ n.id ++ "': dropping " ++ toString dropped ++
        " child filter group(s) after the first")]
  | config =>
    match nodeData? config with
    | some _ => []
    | none =>
      [.debug ("Skipping node '" ++ n.id ++ "': kind '" ++ n.kindName ++ "' is not compiled")]

/-- More than one sheet makes a workbook of several sheets. -/
def layout (nodes : List ReportNode) : Layout :=
  let names := (StoredGraph.sheets nodes).map (·.2.name)
  ⟨if 1 < names.length then .multiSheet else .singleSheet, names, some .standard⟩

def graphWarnings (nodes : List ReportNode) : List CompileWarning :=
  let entities := (StoredGraph.entities nodes).length
  (if entities = 0 then [.noEntity] else []) ++ (if 1 < entities then [.manyEntities] else []) ++
    (if (StoredGraph.sheets nodes).isEmpty then [.noSheet] else [])

def isAggregateSheet (n : ReportNode) : Bool :=
  match n.data with
  | .sheet data => data.mode = .aggregate
  | _ => false

/-- Sheets of a prior graph that were aggregate sheets and are not any more. -/
def downgrades (prior : StoredGraph) (nodes : List ReportNode) : List CompileWarning :=
  ((StoredGraph.sheets nodes).filter fun (id, sheet) =>
    sheet.mode ≠ .aggregate && prior.nodes.any fun n => n.id == id && isAggregateSheet n).map
      fun (id, sheet) => .downgraded sheet.name id sheet.mode

def linkCount (nodes : List ReportNode) : Nat :=
  nodes.countP fun n => n.data.kind = .link

def rowEstimate (nodes : List ReportNode) : RowEstimate :=
  let base := ((StoredGraph.primaryEntity? nodes).map Estimate.rows).getD Estimate.standard
  ⟨base, none, some (Estimate.expanded base (linkCount nodes))⟩

def warnings (g : Flow) (prior : Prior) : List CompileWarning :=
  let nodes := (graph g).nodes
  graphWarnings nodes ++ g.nodes.flatMap nodeWarnings ++
    match prior.graph with
    | none => []
    | some p => downgrades p nodes

def hints (g : Flow) (prior : Prior) : Hints :=
  ⟨some (rowEstimate (graph g).nodes), (warnings g prior).map (·.message), none⟩

def nonEmpty (s : Option String) : Option String := s.filter (· ≠ "")

end Compilation

/-- A compiled definition, the sources after it, and what was told on the way. -/
structure Compiled where
  definition : Definition
  sources : Sources
  events : List Event

namespace Compilation

def definition (g : Flow) (prior : Prior) (sources : Sources) : Definition :=
  let nodes := (graph g).nodes
  { schemaVersion := currentSchema
    id := (nonEmpty prior.id).getD (sources.nextId "report")
    name := (nonEmpty prior.name).getD defaultReportName
    description := (nonEmpty prior.description).getD defaultDescription
    owner := prior.owner.getD .standard
    categoryId := prior.categoryId
    tags := prior.tags.getD []
    primaryEntity := (StoredGraph.primaryEntity? nodes).getD unknownEntity
    createdAt := prior.createdAt.getD sources.now
    updatedAt := sources.now
    reportVersion := prior.reportVersion.getD 0 + 1
    security := prior.security.getD .standard
    parameters := prior.parameters.getD []
    graph := graph g
    layout := layout nodes
    limits := prior.limits.getD .standard
    hints := hints g prior
    artifacts := prior.artifacts }

def summary (g : Flow) (d : Definition) : Event :=
  .debug ("Compiled report '" ++ d.id ++ "' v" ++ toString d.reportVersion.toNat ++ ": " ++
    toString g.nodes.length ++ " node(s), " ++ toString g.edges.length ++ " edge(s) in, " ++
    toString d.graph.nodes.length ++ " node(s) out")

end Compilation

/-- The clock is read once; an id is minted only when the prior has none. -/
def Flow.compile (g : Flow) (prior : Option Prior) (sources : Sources) : Compiled :=
  let prior := prior.getD .none
  let d := Compilation.definition g prior sources
  let minted := if (Compilation.nonEmpty prior.id).isNone then sources.mint else sources
  { definition := d
    sources := minted.tick
    events := g.nodes.flatMap Compilation.nodeEvents ++ d.hints.warnings.map .warn ++
      [Compilation.summary g d] }

/-- Compiles an edited flow over a definition, which keeps its identity. -/
def Flow.recompile (g : Flow) (existing : Definition) (sources : Sources) : Compiled :=
  g.compile (some (.ofDefinition existing)) sources

end ReportFlow
