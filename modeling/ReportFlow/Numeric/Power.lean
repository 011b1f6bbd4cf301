/-!
Powers of numbers are those of the core library, also where another notion of a power is in scope. A
module that computes with them makes this its instance, and writes the type of a literal exponent.
-/

namespace ReportFlow

universe u

@[reducible]
def corePower {α : Type u} [NatPow α] : Pow α Nat := instPowNat

end ReportFlow
