import ReportFlow.Text.CaseTable

/-!
Lower-casing of whole texts. Every character is lowered on its own, except a capital sigma, whose
form depends on whether a word ends with it.
-/

namespace ReportFlow.Text

def CaseRun.image? (r : CaseRun) (code : Nat) : Option Nat :=
  if r.first ≤ code ∧ code ≤ r.last ∧ (code - r.first) % r.stride = 0 then
    some (r.image + (code - r.first))
  else none

def capitalSigma : Char := 'Σ'
def sigma : Char := 'σ'
def finalSigma : Char := 'ς'

/-- A dotted capital I keeps its dot as a combining mark. -/
def lowerChar (c : Char) : List Char :=
  if c = 'İ' then ['i', '\u0307']
  else [((caseRuns.findSome? (·.image? c.toNat)).map Char.ofNat).getD c]

/-- A cased letter follows, when characters without weight are passed over. -/
def caseFollows (cs : List Char) : Bool :=
  ((cs.dropWhile isCaseIgnorable).head?.map isCased).getD false

/-- `before` holds the characters already read, last one first. -/
def lowerAfter (before : List Char) : List Char → List Char
  | [] => []
  | c :: rest =>
    (if c = capitalSigma then
      [if caseFollows before && !caseFollows rest then finalSigma else sigma]
    else lowerChar c) ++ lowerAfter (c :: before) rest

def lower (s : String) : String := String.ofList (lowerAfter [] s.toList)

end ReportFlow.Text
