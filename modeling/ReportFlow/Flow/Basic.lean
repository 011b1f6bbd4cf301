import ReportFlow.Flow.Node

/-!
The flow a user edits: nodes and edges, each in the order they were added.
-/

namespace ReportFlow

structure Flow where
  nodes : List FlowNode
  edges : List FlowEdge
  deriving DecidableEq

namespace Flow

def empty : Flow := ⟨[], []⟩

def codec : Codec Flow :=
  .record "Graph"
    (.cons (.defaulted "nodes" (.list FlowNode.codec) []) <|
      .cons (.defaulted "edges" (.list FlowEdge.codec) []) .nil)
    (fun g => (g.nodes, g.edges, ()))
    (fun (nodes, edges, _) => ⟨nodes, edges⟩)

def addNode (g : Flow) (n : FlowNode) : Flow := { g with nodes := g.nodes ++ [n] }

def addEdge (g : Flow) (e : FlowEdge) : Flow := { g with edges := g.edges ++ [e] }

def connect (g : Flow) (source target : String) : Flow := g.addEdge (.between source target)

def node? (g : Flow) (id : String) : Option FlowNode := g.nodes.find? (·.id == id)

def touches (e : FlowEdge) (id : String) : Bool := e.source == id || e.target == id

/-- Removes the first node of an id and every edge that touches it. -/
def removeNode (g : Flow) (id : String) : Option FlowNode × Flow :=
  match g.node? id with
  | none => (none, g)
  | some n =>
    (some n, ⟨g.nodes.eraseP (·.id == id), g.edges.filter fun e => !touches e id⟩)

def nodesOfKind (g : Flow) (kind : NodeKind) : List FlowNode :=
  g.nodes.filter fun n => n.kind? = some kind

end Flow

end ReportFlow
