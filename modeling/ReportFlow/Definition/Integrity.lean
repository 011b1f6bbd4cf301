import ReportFlow.Definition.Basic
import ReportFlow.Definition.SemanticVersion
import ReportFlow.Text.Blank

/-!
Integrity of a definition as a document: its identity, its schema version, its ids and the ends of
its edges.
-/

namespace ReportFlow

inductive IntegrityError where
  | noId
  | noName
  | noSchemaVersion
  | badSchemaVersion (version : String) (fault : SemanticVersion.Fault)
  | noPrimaryEntity
  | noNode
  | noEntityNode
  | duplicateNode (id : String)
  | noRelation (id : String)
  | unknownSource (id : String)
  | unknownTarget (id : String)
  deriving DecidableEq, Repr

namespace IntegrityError

def message : IntegrityError → String
  | noId => "Report ID is required"
  | noName => "Report name is required"
  | noSchemaVersion => "Schema version is required"
  | badSchemaVersion version fault =>
    "Schema version '" ++ version ++ "' is not a valid semantic version: " ++ fault.message
  | noPrimaryEntity => "Primary entity is required"
  | noNode => "Report must have at least one node"
  | noEntityNode => "Report must have at least one entity node"
  | duplicateNode id => "Duplicate node id: " ++ id
  | noRelation id => "Link node " ++ id ++ " has no relation"
  | unknownSource id => "Edge references unknown source node: " ++ id
  | unknownTarget id => "Edge references unknown target node: " ++ id

end IntegrityError

namespace Integrity

def ifSo (b : Bool) (e : IntegrityError) : List IntegrityError := if b then [e] else []

def versionErrors (version : String) : List IntegrityError :=
  if Text.isBlank version then [.noSchemaVersion]
  else match SemanticVersion.check version with
    | .ok _ => []
    | .error fault => [.badSchemaVersion version fault]

def lacksRelation (n : ReportNode) : Bool :=
  match n.data with
  | .link d => d.relation.isNone
  | _ => false

/-- `seen` holds the ids of the nodes before. -/
def nodeErrors (seen : List String) : List ReportNode → List IntegrityError
  | [] => []
  | n :: rest =>
    ifSo (n.id ∈ seen) (.duplicateNode n.id) ++ ifSo (lacksRelation n) (.noRelation n.id) ++
      nodeErrors (n.id :: seen) rest

def edgeErrors (ids : List String) (e : ReportEdge) : List IntegrityError :=
  ifSo (e.source ∉ ids) (.unknownSource e.source) ++ ifSo (e.target ∉ ids) (.unknownTarget e.target)

end Integrity

open Integrity in
/-- Every fault of a definition, in a fixed order. -/
def Definition.check (d : Definition) : List IntegrityError :=
  ifSo (Text.isBlank d.id) .noId ++ ifSo (Text.isBlank d.name) .noName ++
    versionErrors d.schemaVersion ++ ifSo (Text.isBlank d.primaryEntity) .noPrimaryEntity ++
    ifSo d.graph.nodes.isEmpty .noNode ++
    ifSo (StoredGraph.entities d.graph.nodes).isEmpty .noEntityNode ++
    nodeErrors [] d.graph.nodes ++
    d.graph.edges.flatMap (edgeErrors (d.graph.nodes.map (·.id)))

def Definition.isIntact (d : Definition) : Bool := d.check.isEmpty

end ReportFlow
