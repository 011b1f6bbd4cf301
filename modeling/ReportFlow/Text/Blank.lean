/-!
White space as every script writes it, and the texts that hold nothing else.
-/

namespace ReportFlow.Text

def isSpace (c : Char) : Bool :=
  (9 ≤ c.toNat && c.toNat ≤ 13) || c = ' ' || c = '\u0085' || c = '\u00a0' || c = '\u1680' ||
  (0x2000 ≤ c.toNat && c.toNat ≤ 0x200a) || c = '\u2028' || c = '\u2029' || c = '\u202f' ||
  c = '\u205f' || c = '\u3000'

/-- Nothing would be left after removing the space at both ends. -/
def isBlank (s : String) : Bool := s.toList.all isSpace

end ReportFlow.Text
