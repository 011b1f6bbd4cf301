import ReportFlow.Flow.Basic

/-!
Canvas documents, where the data of a node holds its kind, its caption and its settings side by
side. A document becomes a flow when its ids are distinct and its edges join its nodes.
-/

namespace ReportFlow

structure CanvasNode where
  id : String
  position : Option Position
  data : Json
  deriving DecidableEq

namespace CanvasNode

def codec : Codec CanvasNode :=
  .record "CanvasNode"
    (.cons (.required "id" .string) <| .cons (.optional "position" Position.codec) <|
      .cons (.defaulted "data" .free .null) .nil)
    (fun n => (n.id, n.position, n.data, ()))
    (fun (id, position, data, _) => ⟨id, position, data⟩)

end CanvasNode

structure CanvasEdge where
  id : Option String
  source : String
  target : String
  deriving DecidableEq

namespace CanvasEdge

def codec : Codec CanvasEdge :=
  .record "CanvasEdge"
    (.cons (.optional "id" .string) <| .cons (.required "source" .string) <|
      .cons (.required "target" .string) .nil)
    (fun e => (e.id, e.source, e.target, ()))
    (fun (id, source, target, _) => ⟨id, source, target⟩)

end CanvasEdge

structure Canvas where
  nodes : List CanvasNode
  edges : List CanvasEdge
  deriving DecidableEq

inductive CanvasError where
  | duplicateNode (id : String)
  | noData (id : String)
  | noType (id : String)
  | unknownEndpoint (source target endpoint : String)
  | config (error : ConfigError)
  deriving DecidableEq

namespace CanvasError

def invalid (text : String) : String := "Invalid canvas data: " ++ text

def message : CanvasError → String
  | duplicateNode id => invalid ("Duplicate node id '" ++ id ++ "'")
  | noData id => invalid ("Node '" ++ id ++ "' has no data object")
  | noType id => invalid ("Node '" ++ id ++ "' does not declare a type")
  | unknownEndpoint source target endpoint =>
    invalid ("Edge " ++ source ++ " -> " ++ target ++ " references unknown node '" ++ endpoint ++ "'")
  | config error => error.message

end CanvasError

namespace CanvasNode

/-- The remaining members of the data are the settings. A caption that is no text is dropped. -/
def toFlowNode (n : CanvasNode) : Except CanvasError FlowNode := do
  let members ← match n.data with
    | .object members => pure members
    | _ => throw (.noData n.id)
  let kind ← match Keyed.get? "type" members with
    | some (.string kind) => pure kind
    | _ => throw (.noType n.id)
  let label := (Keyed.get? "label" members).bind Json.string?
  let body := Json.object (Keyed.erase "label" (Keyed.erase "type" members))
  let config ← (NodeConfig.ofParts n.id kind body).mapError .config
  return ⟨n.id, config, n.position, label⟩

end CanvasNode

namespace CanvasEdge

def toFlowEdge (ids : List String) (e : CanvasEdge) : Except CanvasError FlowEdge :=
  if e.source ∉ ids then .error (.unknownEndpoint e.source e.target e.source)
  else if e.target ∉ ids then .error (.unknownEndpoint e.source e.target e.target)
  else .ok ((FlowEdge.between e.source e.target).withId e.id)

end CanvasEdge

namespace Canvas

def codec : Codec Canvas :=
  .record "CanvasDocument"
    (.cons (.required "nodes" (.list CanvasNode.codec)) <|
      .cons (.defaulted "edges" (.list CanvasEdge.codec) []) .nil)
    (fun c => (c.nodes, c.edges, ()))
    (fun (nodes, edges, _) => ⟨nodes, edges⟩)

/-- `seen` holds the ids of the nodes before. -/
def flowNodes (seen : List String) : List CanvasNode → Except CanvasError (List FlowNode)
  | [] => .ok []
  | n :: rest =>
    if n.id ∈ seen then .error (.duplicateNode n.id)
    else do
      let node ← n.toFlowNode
      let nodes ← flowNodes (n.id :: seen) rest
      return node :: nodes

def toFlow (c : Canvas) : Except CanvasError Flow := do
  let nodes ← flowNodes [] c.nodes
  let edges ← c.edges.mapM (CanvasEdge.toFlowEdge (c.nodes.map (·.id)))
  return ⟨nodes, edges⟩

end Canvas

end ReportFlow
