import ReportFlow.Text.Quoted
import ReportFlow.Numeric.Power

/-!
Semantic versions: three numbers, then an optional pre-release and optional build metadata.
-/

namespace ReportFlow

attribute [local instance] corePower

namespace SemanticVersion

inductive Part where
  | major
  | minor
  | patch
  | preRelease
  | build
  deriving DecidableEq, Repr

def Part.name : Part → String
  | major => "major version number"
  | minor => "minor version number"
  | patch => "patch version number"
  | preRelease => "pre-release identifier"
  | build => "build metadata"

inductive Fault where
  | unexpectedChar (c : Char) (part : Part)
  | unexpectedAfter (c : Char) (part : Part)
  | unexpectedEnd (part : Part)
  | leadingZero (part : Part)
  | overflow (part : Part)
  | emptySegment (part : Part)
  deriving DecidableEq, Repr

def Fault.message : Fault → String
  | unexpectedChar c part =>
    "unexpected character " ++ Text.quotedChar c ++ " while parsing " ++ part.name
  | unexpectedAfter c part => "unexpected character " ++ Text.quotedChar c ++ " after " ++ part.name
  | unexpectedEnd part => "unexpected end of input while parsing " ++ part.name
  | leadingZero part => "invalid leading zero in " ++ part.name
  | overflow part => "value of " ++ part.name ++ " exceeds u64::MAX"
  | emptySegment part => "empty identifier segment in " ++ part.name

abbrev Reading := Except Fault

/-- Goes on with a digit; `value` is the number so far and `first` tells that it has no digit yet. -/
def numberRest (part : Part) (value : Nat) (first : Bool) : List Char → Reading (List Char)
  | [] => if first then .error (.unexpectedEnd part) else .ok []
  | c :: rest =>
    if !c.isDigit then
      if first then .error (.unexpectedChar c part) else .ok (c :: rest)
    else if value = 0 ∧ !first then .error (.leadingZero part)
    else
      let value := value * 10 + (c.toNat - '0'.toNat)
      if 2 ^ (64 : Nat) ≤ value then .error (.overflow part) else numberRest part value false rest

def number (part : Part) (cs : List Char) : Reading (List Char) := numberRest part 0 true cs

def dot (part : Part) : List Char → Reading (List Char)
  | [] => .error (.unexpectedEnd part)
  | c :: rest => if c = '.' then .ok rest else .error (.unexpectedAfter c part)

def isIdentifierChar (c : Char) : Bool := c.isAlphanum || c = '-'

/-- The segments of a dotted identifier, and the text after it. -/
def segments (part : Part) (segment : List Char) : List Char → Reading (List Char)
  | [] => finish segment []
  | c :: rest =>
    if isIdentifierChar c then segments part (segment ++ [c]) rest
    else if c = '.' then
      match check segment with
      | .error f => .error f
      | .ok _ => segments part [] rest
    else finish segment (c :: rest)
where
  check (segment : List Char) : Reading Unit :=
    if segment.isEmpty then .error (.emptySegment part)
    else if part = .preRelease ∧ segment.all Char.isDigit ∧ 1 < segment.length ∧
        segment.head? = some '0' then .error (.leadingZero part)
    else .ok ()
  finish (segment : List Char) (rest : List Char) : Reading (List Char) :=
    (check segment).map fun _ => rest

def optionalPart (mark : Char) (part : Part) (before : Part) (cs : List Char) :
    Reading (Part × List Char) :=
  match cs with
  | [] => .ok (before, [])
  | c :: rest =>
    if c = mark then (segments part [] rest).map fun r => (part, r) else .ok (before, c :: rest)

/-- Reads a whole text as a version. -/
def check (s : String) : Reading Unit := do
  let rest ← number .major s.toList
  let rest ← dot .major rest
  let rest ← number .minor rest
  let rest ← dot .minor rest
  let rest ← number .patch rest
  let (last, rest) ← optionalPart '-' .preRelease .patch rest
  let (last, rest) ← optionalPart '+' .build last rest
  match rest with
  | [] => return ()
  | c :: _ => throw (.unexpectedAfter c last)

end SemanticVersion

end ReportFlow
