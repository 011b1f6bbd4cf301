import ReportFlow.Json.Basic
import ReportFlow.Json.Fault

/-!
JSON as it stands in a text: members in written order with repeated keys kept, and faulty places as
leaves. Decoding a source meets its faults in the order of the text.
-/

namespace ReportFlow

/-- What stands where another kind of value was wanted. -/
inductive Found where
  | null
  | bool (b : Bool)
  | number (n : Number)
  | string (s : String)
  | sequence
  | map
  deriving DecidableEq

/-- How an array stops after its last element. -/
inductive ArrayEnd where
  | closed
  | cut
  | comma
  | commaCut
  | other
  deriving DecidableEq, Repr

namespace ArrayEnd

def read : ArrayEnd → Option JsonFault
  | closed => none
  | cut => some .eofList
  | comma => some .trailingComma
  | commaCut => some .eofValue
  | other => some .expectedListEnd

def skip : ArrayEnd → Option JsonFault
  | closed => none
  | cut => some .eofList
  | comma => some .expectedValue
  | commaCut => some .eofValue
  | other => some .expectedListEnd

/-- For a reader that wants the closing bracket and no further element. -/
def close : ArrayEnd → Option JsonFault
  | closed => none
  | cut => some .eofList
  | comma => some .trailingComma
  | commaCut | other => some .trailingCharacters

end ArrayEnd

/-- How an object stops after its last member. -/
inductive ObjectEnd where
  | closed
  | cut
  | comma
  | commaCut
  | other
  | badKey (found : Except JsonFault Found)

namespace ObjectEnd

def read : ObjectEnd → Option JsonFault
  | closed => none
  | cut => some .eofObject
  | comma => some .trailingComma
  | commaCut => some .eofValue
  | other => some .expectedObjectEnd
  | badKey _ => some .keyMustBeString

def skip : ObjectEnd → Option JsonFault
  | closed => none
  | cut | commaCut => some .eofObject
  | comma | badKey _ => some .keyMustBeString
  | other => some .expectedObjectEnd

end ObjectEnd

inductive Key where
  | name (s : String)
  | faulty (f : Fault)
  deriving DecidableEq

inductive Source where
  | null
  | bool (b : Bool)
  | number (n : Number)
  | string (s : String)
  | array (items : List Source) (ending : ArrayEnd)
  | object (members : List (Key × Source)) (ending : ObjectEnd)
  | faulty (f : Fault)

namespace Source

instance : Inhabited Source := ⟨null⟩

mutual

def ofJson : Json → Source
  | .null => null
  | .bool b => bool b
  | .number n => number n
  | .string s => string s
  | .array items => array (ofItems items) .closed
  | .object members => object (ofMembers members) .closed

def ofItems : List Json → List Source
  | [] => []
  | item :: rest => ofJson item :: ofItems rest

def ofMembers : List (String × Json) → List (Key × Source)
  | [] => []
  | (key, value) :: rest => (.name key, ofJson value) :: ofMembers rest

end

mutual

/-- The fault that stops one who passes over the value. -/
def skip : Source → Option JsonFault
  | array items ending => (skipItems items).or ending.skip
  | object members ending => (skipMembers members).or ending.skip
  | faulty f => f.skip
  | _ => none

def skipItems : List Source → Option JsonFault
  | [] => none
  | item :: rest => (skip item).or (skipItems rest)

def skipMembers : List (Key × Source) → Option JsonFault
  | [] => none
  | (.faulty f, value) :: rest => (f.skip.or (skip value)).or (skipMembers rest)
  | (.name _, value) :: rest => (skip value).or (skipMembers rest)

end

/-- Goes on where there is no fault. -/
def check : Option JsonFault → Except JsonFault Unit
  | none => .ok ()
  | some f => .error f

mutual

/-- The free value a source holds, or the first fault a reader meets. -/
def toJson : Source → Except JsonFault Json
  | null => .ok .null
  | bool b => .ok (.bool b)
  | number n => .ok (.number n)
  | string s => .ok (.string s)
  | array items ending => do
    let values ← toItems items
    check ending.read
    return .array values
  | object members ending => do
    let values ← toMembers members
    check ending.read
    return .object (Keyed.ofList values)
  | faulty f => .error f.read

def toItems : List Source → Except JsonFault (List Json)
  | [] => .ok []
  | item :: rest => do
    let value ← toJson item
    let values ← toItems rest
    return value :: values

def toMembers : List (Key × Source) → Except JsonFault (List (String × Json))
  | [] => .ok []
  | (.faulty f, _) :: _ => .error f.read
  | (.name key, value) :: rest => do
    let value ← toJson value
    let values ← toMembers rest
    return (key, value) :: values

end

/-- What a reader of another kind of value reports; it stops at an opening bracket. -/
def found : Source → Except JsonFault Found
  | null => .ok .null
  | bool b => .ok (.bool b)
  | number n => .ok (.number n)
  | string s => .ok (.string s)
  | array _ _ => .ok .sequence
  | object _ _ => .ok .map
  | faulty f => .error f.read

end Source

end ReportFlow
