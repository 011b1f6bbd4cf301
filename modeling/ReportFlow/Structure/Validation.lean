import ReportFlow.Structure.Cycle

/-!
Structural validation. Errors block a compilation, warnings do not; no check hides another.
-/

namespace ReportFlow

inductive StructureError where
  | noEntity
  | cycle
  deriving DecidableEq, Repr

namespace StructureError

def message : StructureError → String
  | noEntity => "At least one entity node is required"
  | cycle => "Flow contains cycles - this is not allowed"

end StructureError

inductive StructureWarning where
  | noSheet
  | noExport
  | unconnected (id : String)
  deriving DecidableEq, Repr

namespace StructureWarning

def message : StructureWarning → String
  | noSheet => "No sheet nodes found - add sheets to define output format"
  | noExport => "No export node found - add an export node to define output format"
  | unconnected id => "Node " ++ id ++ " is not connected to the flow"

end StructureWarning

structure Validation where
  errors : List StructureError
  warnings : List StructureWarning
  deriving DecidableEq, Repr

namespace Validation

def isValid (v : Validation) : Bool := v.errors.isEmpty

def encode (v : Validation) : Json :=
  .object [("isValid", .bool v.isValid),
    ("errors", .array (v.errors.map fun e => .string e.message)),
    ("warnings", .array (v.warnings.map fun w => .string w.message))]

end Validation

namespace Outline

def hasKind (o : Outline) (kind : String) : Bool := o.nodes.any (·.kind == kind)

def isConnected (o : Outline) (id : String) : Bool :=
  o.links.any fun l => l.source == id || l.target == id

/-- A lone node need not be connected. -/
def unconnected (o : Outline) : List StructureWarning :=
  if 1 < o.nodes.length then
    (o.nodes.filter fun n => !o.isConnected n.id).map fun n => .unconnected n.id
  else []

def validate (o : Outline) : Validation where
  errors :=
    (if o.hasKind "entity" then [] else [.noEntity]) ++ (if o.hasCycle then [.cycle] else [])
  warnings :=
    (if o.hasKind "sheet" then [] else [.noSheet]) ++
    (if o.hasKind "export" then [] else [.noExport]) ++ o.unconnected

end Outline

def Flow.validate (g : Flow) : Validation := g.outline.validate

def Definition.validate (d : Definition) : Validation := d.graph.outline.validate

end ReportFlow
