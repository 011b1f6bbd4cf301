import ReportFlow.Flow.Settings
import ReportFlow.Definition.Node

/-!
Nodes and edges of an edited flow. A node of a kind that is not known keeps its kind and its
settings as they are.
-/

namespace ReportFlow

inductive NodeKind where
  | entity
  | filter
  | link
  | transform
  | aggregate
  | sheet
  | output
  | concatenate
  | pivot
  deriving DecidableEq, Repr

namespace NodeKind

def name : NodeKind → String
  | entity => "entity"
  | filter => "filter"
  | link => "link"
  | transform => "transform"
  | aggregate => "aggregate"
  | sheet => "sheet"
  | output => "export"
  | concatenate => "concatenate"
  | pivot => "pivot"

/-- Palettes also call a link a join. -/
def ofName? (name : String) : Option NodeKind :=
  match name with
  | "entity" => some entity
  | "filter" => some filter
  | "link" => some link
  | "join" => some link
  | "transform" => some transform
  | "aggregate" => some aggregate
  | "sheet" => some sheet
  | "export" => some output
  | "concatenate" => some concatenate
  | "pivot" => some pivot
  | _ => none

end NodeKind

/-- The settings of a node, which also fix its kind. -/
inductive NodeConfig where
  | entity (config : EntityConfig)
  | filter (config : FilterConfig)
  | link (config : LinkConfig)
  | transform (config : TransformConfig)
  | aggregate (config : AggregateConfig)
  | sheet (config : SheetConfig)
  | output (config : ExportConfig)
  | concatenate (config : Json)
  | pivot (config : PivotConfig)
  | unrecognized (kind : String) (config : Json)
  deriving DecidableEq

/-- Settings that do not fit the kind of their node, which is given as it was written. -/
structure ConfigError where
  node : String
  kind : String
  cause : DecodeError
  deriving DecidableEq

def ConfigError.toDecodeError (e : ConfigError) : DecodeError := .badConfig e.node e.kind e.cause

def ConfigError.message (e : ConfigError) : String := e.toDecodeError.message

namespace NodeConfig

def kind? : NodeConfig → Option NodeKind
  | entity _ => some .entity
  | filter _ => some .filter
  | link _ => some .link
  | transform _ => some .transform
  | aggregate _ => some .aggregate
  | sheet _ => some .sheet
  | output _ => some .output
  | concatenate _ => some .concatenate
  | pivot _ => some .pivot
  | unrecognized _ _ => none

def kindName : NodeConfig → String
  | unrecognized kind _ => kind
  | entity _ => NodeKind.entity.name
  | filter _ => NodeKind.filter.name
  | link _ => NodeKind.link.name
  | transform _ => NodeKind.transform.name
  | aggregate _ => NodeKind.aggregate.name
  | sheet _ => NodeKind.sheet.name
  | output _ => NodeKind.output.name
  | concatenate _ => NodeKind.concatenate.name
  | pivot _ => NodeKind.pivot.name

/-- Settings of one type; `null` stands for none set. -/
def settings {α : Type} (node kind : String) (codec : Codec α) (empty : α) (body : Json) :
    Except ConfigError α :=
  if body.isNull then .ok empty
  else (codec.ofJson? body).mapError fun cause => ⟨node, kind, cause⟩

/-- The settings under a kind name; the id of the node serves reports alone. -/
def ofParts (node kind : String) (body : Json) : Except ConfigError NodeConfig :=
  match NodeKind.ofName? kind with
  | none => .ok (.unrecognized kind body)
  | some .entity => (settings node kind EntityConfig.codec .empty body).map .entity
  | some .filter => (settings node kind FilterConfig.codec .empty body).map .filter
  | some .link => (settings node kind LinkConfig.codec .empty body).map .link
  | some .transform => (settings node kind TransformConfig.codec .empty body).map .transform
  | some .aggregate => (settings node kind AggregateConfig.codec .empty body).map .aggregate
  | some .sheet => (settings node kind SheetConfig.codec .empty body).map .sheet
  | some .output => (settings node kind ExportConfig.codec .empty body).map .output
  | some .concatenate => .ok (.concatenate body)
  | some .pivot => (settings node kind PivotConfig.codec .empty body).map .pivot

/-- The settings as a free value. -/
def body : NodeConfig → Json
  | entity c => (EntityConfig.codec.encode c).normal
  | filter c => (FilterConfig.codec.encode c).normal
  | link c => (LinkConfig.codec.encode c).normal
  | transform c => (TransformConfig.codec.encode c).normal
  | aggregate c => (AggregateConfig.codec.encode c).normal
  | sheet c => (SheetConfig.codec.encode c).normal
  | output c => (ExportConfig.codec.encode c).normal
  | pivot c => (PivotConfig.codec.encode c).normal
  | concatenate config => config
  | unrecognized _ config => config

end NodeConfig

structure FlowNode where
  id : String
  config : NodeConfig
  position : Option Position
  label : Option String
  deriving DecidableEq

namespace FlowNode

def ofConfig (id : String) (config : NodeConfig) : FlowNode := ⟨id, config, none, none⟩

def kind? (n : FlowNode) : Option NodeKind := n.config.kind?

def kindName (n : FlowNode) : String := n.config.kindName

/-- The node has not been placed. -/
def needsLayout (n : FlowNode) : Bool :=
  match n.position with
  | none => true
  | some p => p.isOrigin

/-- The members of a written node: id, kind, position, label and settings. -/
abbrev Written := String × String × Option Position × Option String × Json × Unit

def writtenCodec : Codec Written :=
  .record "RawGraphNode"
    (.cons (.required "id" .string) <| .cons (.required "kind" .string) <|
      .cons (.optional "position" Position.codec) <| .cons (.optional "label" .string) <|
      .cons (.defaulted "config" .free .null) .nil)
    (fun w => w) (fun w => w)

def codec : Codec FlowNode :=
  .via writtenCodec
    (fun (id, kind, position, label, body, _) =>
      match NodeConfig.ofParts id kind body with
      | .ok config => .ok ⟨id, config, position, label⟩
      | .error e => .error e.toDecodeError)
    (fun n => (n.id, n.kindName, n.position, n.label, n.config.body, ()))

end FlowNode

structure FlowEdge where
  id : String
  source : String
  target : String
  deriving DecidableEq

namespace FlowEdge

/-- The id of an edge that was given none. -/
def derivedId (source target : String) : String := "edge-" ++ source ++ "-" ++ target

def between (source target : String) : FlowEdge := ⟨derivedId source target, source, target⟩

def withId (e : FlowEdge) (id : Option String) : FlowEdge := { e with id := id.getD e.id }

def codec : Codec FlowEdge :=
  .record "RawGraphEdge"
    (.cons (.optional "id" .string) <| .cons (.required "source" .string) <|
      .cons (.required "target" .string) .nil)
    (fun e => (some e.id, e.source, e.target, ()))
    (fun (id, source, target, _) => (between source target).withId id)

end FlowEdge

end ReportFlow
