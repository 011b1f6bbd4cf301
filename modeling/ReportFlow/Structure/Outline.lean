import ReportFlow.Definition.Basic
import ReportFlow.Flow.Basic

/-!
The outline of a flow or of a stored graph: ids, kind names and endpoints, which is all that
structural checks look at.
-/

namespace ReportFlow

structure OutlineNode where
  id : String
  kind : String
  deriving DecidableEq, Repr

structure Link where
  source : String
  target : String
  deriving DecidableEq, Repr

structure Outline where
  nodes : List OutlineNode
  links : List Link
  deriving DecidableEq, Repr

def Flow.outline (g : Flow) : Outline where
  nodes := g.nodes.map fun n => ⟨n.id, n.kindName⟩
  links := g.edges.map fun e => ⟨e.source, e.target⟩

def StoredGraph.outline (g : StoredGraph) : Outline where
  nodes := g.nodes.map fun n => ⟨n.id, n.data.kindName⟩
  links := g.edges.map fun e => ⟨e.source, e.target⟩

end ReportFlow
