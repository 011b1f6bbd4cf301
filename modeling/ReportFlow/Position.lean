import ReportFlow.Json.Record

/-!
Places on the canvas.
-/

namespace ReportFlow

structure Position where
  x : Double
  y : Double
  deriving DecidableEq

namespace Position

/-- The origin, with either sign of zero, marks a node that has not been placed. -/
def isOrigin (p : Position) : Bool := p.x.isZero && p.y.isZero

def codec : Codec Position :=
  .record "Position"
    (.cons (.required "x" .double) <| .cons (.required "y" .double) .nil)
    (fun p => (p.x, p.y, ()))
    (fun (x, y, _) => ⟨x, y⟩)

end Position

end ReportFlow
