import ReportFlow.Numeric.Double

/-!
Rough row counts of well-known entities.
-/

namespace ReportFlow

attribute [local instance] corePower

namespace Estimate

def table : List (String × UInt64) :=
  [("employee", 2500), ("account", 5000), ("contact", 10000), ("opportunity", 3000), ("case", 8000)]

/-- For an entity that the table does not list. -/
def standard : UInt64 := 1000

/-- Case counts for ASCII letters only in neither name. -/
def sameName (a b : String) : Bool := a.toList.map Char.toLower == b.toList.map Char.toLower

def rows (entity : String) : UInt64 :=
  ((table.find? fun entry => sameName entry.1 entity).map (·.2)).getD standard

/-- Two and a half. -/
def perLink : Double := ⟨0x4004000000000000, by decide⟩

/-- Two and a half times the rows for each link, in doubles; past every double it is the greatest
word. -/
def expanded (base : UInt64) (links : Nat) : UInt64 :=
  if links = 0 then base
  else
    match ((Double.ofNat base.toNat).mul? (.ofNat links)).bind (·.mul? perLink) with
    | some rows => rows.toUInt64
    | none => .ofNatClamp (2 ^ (64 : Nat))

end Estimate

end ReportFlow
