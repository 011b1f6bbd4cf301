import ReportFlow.Structure.Outline

/-!
Search for a directed cycle, depth first with a stack of its own. A link back to an id that is still
on the stack closes a cycle.
-/

namespace ReportFlow

inductive Mark where
  | onStack
  | done
  deriving DecidableEq, Repr

/-- The newest mark of an id counts. Each id on the stack has the targets that are still to be
examined. -/
structure Search where
  marks : List (String × Mark)
  stack : List (String × List String)
  deriving DecidableEq, Repr

inductive Search.Step where
  | next (search : Search)
  | cycle
  | finished
  deriving DecidableEq, Repr

namespace Outline

/-- Targets of the links that leave an id, in order. -/
def targets (o : Outline) (id : String) : List String :=
  (o.links.filter (·.source == id)).map (·.target)

/-- A link leads from the first id to the second. -/
def Linked (o : Outline) (a b : String) : Prop := ⟨a, b⟩ ∈ o.links

end Outline

namespace Search

def mark? (s : Search) (id : String) : Option Mark := s.marks.lookup id

def push (o : Outline) (id : String) (s : Search) : Search :=
  ⟨(id, .onStack) :: s.marks, (id, o.targets id) :: s.stack⟩

def step (o : Outline) (s : Search) : Step :=
  match s.stack with
  | [] => .finished
  | (id, []) :: rest => .next ⟨(id, .done) :: s.marks, rest⟩
  | (id, target :: others) :: rest =>
    match s.mark? target with
    | some .onStack => .cycle
    | some .done => .next ⟨s.marks, (id, others) :: rest⟩
    | none => .next (push o target ⟨s.marks, (id, others) :: rest⟩)

/-- Takes steps, `fuel` at most; `none` when a cycle is found. -/
def run (o : Outline) : Nat → Search → Option Search
  | 0, s => some s
  | fuel + 1, s =>
    match s.step o with
    | .next t => run o fuel t
    | .cycle => none
    | .finished => some s

end Search

namespace Outline

def roots (o : Outline) : List String := o.nodes.map (·.id) ++ o.links.map (·.source)

/-- Every id is left once and every link followed once, so no search takes more steps. -/
def searchBound (o : Outline) : Nat := o.nodes.length + 3 * o.links.length + 1

/-- Searches from every root that no earlier search has reached. -/
def searchFrom (o : Outline) : List String → Search → Option Search
  | [], s => some s
  | root :: rest, s =>
    match s.mark? root with
    | some _ => searchFrom o rest s
    | none => (Search.run o o.searchBound (Search.push o root s)).bind (searchFrom o rest)

def hasCycle (o : Outline) : Bool := (o.searchFrom o.roots ⟨[], []⟩).isNone

end Outline

end ReportFlow
