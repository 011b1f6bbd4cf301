import ReportFlow.Definition.Artifacts
import ReportFlow.Definition.Node
import ReportFlow.Time.Reading

/-!
The report definition: a versioned document that holds a report graph, and the partial form of one
that a compilation starts from.
-/

namespace ReportFlow

/-- Version of the document shape that is written. -/
def currentSchema : String := "1.0.0"

/-- The primary entity of a report without an entity node. -/
def unknownEntity : String := "unknown"

structure Owner where
  id : String
  name : String
  deriving DecidableEq

namespace Owner

def standard : Owner := ⟨"current-user", "Current User"⟩

def codec : Codec Owner :=
  .record "Owner" (.cons (.required "id" .string) <| .cons (.required "name" .string) .nil)
    (fun o => (o.id, o.name, ()))
    (fun (id, name, _) => ⟨id, name⟩)

end Owner

structure Security where
  executeAs : ExecuteAs
  allowedRoles : List String
  blockedEntities : Option String
  deriving DecidableEq

namespace Security

def standard : Security := ⟨.caller, ["Report Generator"], none⟩

def codec : Codec Security :=
  .record "Security"
    (.cons (.required "executeAs" ExecuteAs.codec) <|
      .cons (.defaulted "allowedRoles" (.list .string) []) <|
      .cons (.nullable "blockedEntitiesRegex" .string) .nil)
    (fun s => (s.executeAs, s.allowedRoles, s.blockedEntities, ()))
    (fun (executeAs, allowedRoles, blockedEntities, _) => ⟨executeAs, allowedRoles, blockedEntities⟩)

end Security

structure ParameterOption where
  value : Json
  label : String
  deriving DecidableEq

namespace ParameterOption

def codec : Codec ParameterOption :=
  .record "ParameterOption"
    (.cons (.required "value" .free) <| .cons (.required "label" .string) .nil)
    (fun o => (o.value, o.label, ()))
    (fun (value, label, _) => ⟨value, label⟩)

end ParameterOption

structure Parameter where
  name : String
  type : ParameterType
  default : Option Json
  min : Option Double
  max : Option Double
  label : String
  description : Option String
  isRequired : Option Bool
  options : Option (List ParameterOption)
  deriving DecidableEq

namespace Parameter

/-- How configurations refer to the parameter. -/
def reference (p : Parameter) : String := "@" ++ p.name

def codec : Codec Parameter :=
  .record "Parameter"
    (.cons (.required "name" .string) <| .cons (.required "type" ParameterType.codec) <|
      .cons (.optional "default" .free) <| .cons (.optional "min" .double) <|
      .cons (.optional "max" .double) <| .cons (.required "label" .string) <|
      .cons (.optional "description" .string) <| .cons (.optional "required" .bool) <|
      .cons (.optional "options" (.list ParameterOption.codec)) .nil)
    (fun p => (p.name, p.type, p.default, p.min, p.max, p.label, p.description, p.isRequired,
      p.options, ()))
    (fun (name, type, default, min, max, label, description, isRequired, options, _) =>
      ⟨name, type, default, min, max, label, description, isRequired, options⟩)

end Parameter

structure MetadataSheet where
  enabled : Bool
  name : String
  deriving DecidableEq

namespace MetadataSheet

def standard : MetadataSheet := ⟨true, "_Meta"⟩

def codec : Codec MetadataSheet :=
  .record "MetadataSheet" (.cons (.required "enabled" .bool) <| .cons (.required "name" .string) .nil)
    (fun s => (s.enabled, s.name, ()))
    (fun (enabled, name, _) => ⟨enabled, name⟩)

end MetadataSheet

/-- How the sheets are spread over a workbook. -/
structure Layout where
  mode : WorkbookMode
  sheetsOrder : List String
  metadataSheet : Option MetadataSheet
  deriving DecidableEq

namespace Layout

def standard : Layout := ⟨.singleSheet, [], none⟩

def workbookCodec : Codec Layout :=
  .record "WorkbookLayout"
    (.cons (.required "mode" WorkbookMode.codec) <|
      .cons (.defaulted "sheetsOrder" (.list .string) []) <|
      .cons (.optional "metadataSheet" MetadataSheet.codec) .nil)
    (fun l => (l.mode, l.sheetsOrder, l.metadataSheet, ()))
    (fun (mode, sheetsOrder, metadataSheet, _) => ⟨mode, sheetsOrder, metadataSheet⟩)

def codec : Codec Layout :=
  .record "Layout" (.cons (.required "workbook" workbookCodec) .nil)
    (fun l => (l, ()))
    (fun (l, _) => l)

end Layout

structure Limits where
  pageSize : UInt32
  previewRows : UInt32
  maxExpandedRows : UInt32
  maxColumnsPerSheet : UInt32
  maxLinkDepth : UInt32
  defaultChildTop : UInt32
  deriving DecidableEq

namespace Limits

def standard : Limits := ⟨5000, 100, 200000, 100, 3, 10⟩

def codec : Codec Limits :=
  .record "Limits"
    (.cons (.required "pageSize" .uint32) <| .cons (.required "previewRows" .uint32) <|
      .cons (.required "maxExpandedRows" .uint32) <|
      .cons (.required "maxColumnsPerSheet" .uint32) <|
      .cons (.required "maxLinkDepth" .uint32) <| .cons (.required "defaultChildTop" .uint32) .nil)
    (fun l => (l.pageSize, l.previewRows, l.maxExpandedRows, l.maxColumnsPerSheet, l.maxLinkDepth,
      l.defaultChildTop, ()))
    (fun (pageSize, previewRows, maxExpandedRows, maxColumnsPerSheet, maxLinkDepth,
        defaultChildTop, _) =>
      ⟨pageSize, previewRows, maxExpandedRows, maxColumnsPerSheet, maxLinkDepth, defaultChildTop⟩)

end Limits

structure Definition where
  schemaVersion : String
  id : String
  name : String
  description : String
  owner : Owner
  categoryId : Option String
  tags : List String
  primaryEntity : String
  createdAt : Timestamp
  updatedAt : Timestamp
  reportVersion : UInt32
  security : Security
  parameters : List Parameter
  graph : StoredGraph
  layout : Layout
  limits : Limits
  hints : Hints
  artifacts : Option Artifacts
  deriving DecidableEq

namespace Definition

def codec : Codec Definition :=
  .record "ReportDefinition"
    (.cons (.required "schemaVersion" .string) <| .cons (.required "id" .string) <|
      .cons (.required "name" .string) <| .cons (.defaulted "description" .string "") <|
      .cons (.defaulted "owner" Owner.codec .standard) <| .cons (.nullable "categoryId" .string) <|
      .cons (.defaulted "tags" (.list .string) []) <| .cons (.required "primaryEntity" .string) <|
      .cons (.required "createdAt" Timestamp.codec) <|
      .cons (.required "updatedAt" Timestamp.codec) <| .cons (.required "reportVersion" .uint32) <|
      .cons (.defaulted "security" Security.codec .standard) <|
      .cons (.defaulted "parameters" (.list Parameter.codec) []) <|
      .cons (.defaulted "graph" StoredGraph.codec .empty) <|
      .cons (.defaulted "layout" Layout.codec .standard) <|
      .cons (.defaulted "limits" Limits.codec .standard) <|
      .cons (.defaulted "hints" Hints.codec .none) <|
      .cons (.optional "artifacts" Artifacts.codec) .nil)
    (fun d => (d.schemaVersion, d.id, d.name, d.description, d.owner, d.categoryId, d.tags,
      d.primaryEntity, d.createdAt, d.updatedAt, d.reportVersion, d.security, d.parameters,
      d.graph, d.layout, d.limits, d.hints, d.artifacts, ()))
    (fun (schemaVersion, id, name, description, owner, categoryId, tags, primaryEntity, createdAt,
        updatedAt, reportVersion, security, parameters, graph, layout, limits, hints, artifacts,
        _) =>
      ⟨schemaVersion, id, name, description, owner, categoryId, tags, primaryEntity, createdAt,
        updatedAt, reportVersion, security, parameters, graph, layout, limits, hints, artifacts⟩)

def node? (d : Definition) (id : String) : Option ReportNode := d.graph.nodes.find? (·.id == id)

/-- A parameter by its name, or by the form it is referred to. -/
def parameter? (d : Definition) (name : String) : Option Parameter :=
  let name := match name.toList with
    | '@' :: rest => String.ofList rest
    | _ => name
  d.parameters.find? (·.name == name)

end Definition

namespace StoredGraph

def sheets (nodes : List ReportNode) : List (String × SheetData) :=
  nodes.filterMap fun n => match n.data with
    | .sheet data => some (n.id, data)
    | _ => none

def entities (nodes : List ReportNode) : List EntityData :=
  nodes.filterMap fun n => match n.data with
    | .entity data => some data
    | _ => none

/-- The entity of the first entity node. -/
def primaryEntity? (nodes : List ReportNode) : Option String :=
  (entities nodes).head?.map (·.entity)

end StoredGraph

/-- Sheet names in the order of the nodes. -/
def Definition.sheetNames (d : Definition) : List String :=
  (StoredGraph.sheets d.graph.nodes).map (·.2.name)

/-- Identity and settings that a compilation keeps; what is unset takes a default. -/
structure Prior where
  id : Option String
  name : Option String
  description : Option String
  owner : Option Owner
  categoryId : Option String
  tags : Option (List String)
  createdAt : Option Timestamp
  reportVersion : Option UInt32
  security : Option Security
  parameters : Option (List Parameter)
  limits : Option Limits
  artifacts : Option Artifacts
  graph : Option StoredGraph
  deriving DecidableEq

namespace Prior

def none : Prior :=
  ⟨.none, .none, .none, .none, .none, .none, .none, .none, .none, .none, .none, .none, .none⟩

def named (name : String) : Prior := { none with name := some name }

def ofDefinition (d : Definition) : Prior where
  id := some d.id
  name := some d.name
  description := some d.description
  owner := some d.owner
  categoryId := d.categoryId
  tags := some d.tags
  createdAt := some d.createdAt
  reportVersion := some d.reportVersion
  security := some d.security
  parameters := some d.parameters
  limits := some d.limits
  artifacts := d.artifacts
  graph := some d.graph

end Prior

end ReportFlow
