import ReportFlow.Flow.Basic

/-!
Places the nodes that have no position: one column for each kind with a node to place, in the order
of the pipeline, and in a column one row after the other.
-/

namespace ReportFlow

/-- A place on the grid. -/
structure Cell where
  column : Nat
  row : Nat
  deriving DecidableEq, Repr

namespace Cell

def x (c : Cell) : Nat := 50 + 300 * c.column

def y (c : Cell) : Nat := 50 + 150 * c.row

def position (c : Cell) : Position := ⟨.ofNat c.x, .ofNat c.y⟩

end Cell

namespace Placement

def pipeline : List String := ["entity", "filter", "link", "transform", "sheet", "export"]

/-- The pipeline, then every other kind by its first appearance. -/
def kindOrder (nodes : List FlowNode) : List String :=
  pipeline ++ ((nodes.map FlowNode.kindName).filter (· ∉ pipeline)).eraseDups

def isPending (kind : String) (n : FlowNode) : Bool := n.kindName == kind && n.needsLayout

/-- Where the nodes of a kind that are to be placed stand in the list. -/
def pendingPlaces (kind : String) (nodes : List FlowNode) : List Nat :=
  (nodes.zipIdx.filter fun entry => isPending kind entry.1).map (·.2)

def settle (cell : Cell) (n : FlowNode) : FlowNode := { n with position := some cell.position }

/-- The nodes at these places go into one column, each a row below the one before it. -/
def fillColumn (column : Nat) (nodes : List FlowNode) (places : List Nat) : List FlowNode :=
  places.zipIdx.foldl (fun nodes (place, row) => nodes.modify place (settle ⟨column, row⟩)) nodes

/-- One kind's turn, on the nodes as the turns before it left them. It takes the next free column,
or none when no node of the kind is to be placed. -/
def placeKind (nodes : List FlowNode) (column : Nat) (kind : String) : List FlowNode × Nat :=
  match pendingPlaces kind nodes with
  | [] => (nodes, column)
  | places => (fillColumn column nodes places, column + 1)

/-- Nodes with a position keep it and take no cell. -/
def placeAll (nodes : List FlowNode) : List FlowNode :=
  ((kindOrder nodes).foldl (fun (nodes, column) kind => placeKind nodes column kind) (nodes, 0)).1

end Placement

end ReportFlow
