import ReportFlow.Json.DecodeError
import ReportFlow.Json.Reader

/-!
Codecs: how a type is written as JSON and read back. A source comes from a free value, from a text,
or from a part of a text that was held back until its type was known. The three differ in the
faults they can hold and in a few reports.
-/

namespace ReportFlow

attribute [local instance] corePower

inductive Origin where
  | value
  | text
  | held
  deriving DecidableEq, Repr

structure Codec (α : Type) where
  encode : α → Json
  decode : Origin → Source → Except DecodeError α

namespace Codec

variable {α β : Type}

abbrev Decoded (α : Type) := Except DecodeError α

def stopAt : Option JsonFault → Decoded Unit
  | none => .ok ()
  | some f => .error (.malformed f)

def wrong (wanted : String) (s : Source) : Decoded α :=
  match s.found with
  | .ok found => .error (.wrongType found wanted)
  | .error f => .error (.malformed f)

/-- Any JSON value; the members of its objects come out in ascending order of their keys. -/
def free : Codec Json where
  encode j := j
  decode _ s := s.toJson.mapError .malformed

def string : Codec String where
  encode := .string
  decode
    | _, .string s => .ok s
    | _, s => wrong "a string" s

def bool : Codec Bool where
  encode := .bool
  decode
    | _, .bool b => .ok b
    | _, s => wrong "a boolean" s

def natural (limit : Nat) (name : String) (s : Source) : Decoded Nat :=
  match s with
  | .number (.integer i) =>
    if 0 ≤ i ∧ i < limit then .ok i.toNat else .error (.wrongValue (.number (.integer i)) name)
  | s => wrong name s

def uint32 : Codec UInt32 where
  encode n := .number (.integer n.toNat)
  decode _ s := (natural (2 ^ (32 : Nat)) "u32" s).map UInt32.ofNat

def uint64 : Codec UInt64 where
  encode n := .number (.integer n.toNat)
  decode _ s := (natural (2 ^ (64 : Nat)) "u64" s).map UInt64.ofNat

/-- An integer is taken as the nearest double. -/
def double : Codec Double where
  encode d := .number (.double d)
  decode
    | _, .number (.double d) => .ok d
    | _, .number (.integer i) => .ok (.ofInt i)
    | _, s => wrong "f64" s

/-- `null` stands for nothing. -/
def option (c : Codec α) : Codec (Option α) where
  encode
    | none => .null
    | some a => c.encode a
  decode
    | _, .null => .ok none
    | o, s => (c.decode o s).map some

def list (c : Codec α) : Codec (List α) where
  encode xs := .array (xs.map c.encode)
  decode
    | o, .array items ending => do
      let xs ← items.mapM (c.decode o)
      stopAt ending.read
      return xs
    | _, s => wrong "a sequence" s

/-- Entries of a map from texts, in order. -/
def entries (c : Codec α) (o : Origin) : List (Key × Source) → Decoded (List (String × α))
  | [] => .ok []
  | (.faulty f, _) :: _ => .error (.malformed f.read)
  | (.name key, s) :: rest => do
    let a ← c.decode o s
    let as ← entries c o rest
    return (key, a) :: as

/-- A map from texts, kept in ascending order of its keys; of repeated keys the last counts. -/
def map (c : Codec α) : Codec (List (String × α)) where
  encode xs := .object (xs.map fun x => (x.1, c.encode x.2))
  decode
    | o, .object members ending => do
      let xs ← entries c o members
      stopAt ending.read
      return Keyed.ofList xs
    | _, s => wrong "a map" s

def variantNamed (all : List α) (name : α → String) (key : String) : Decoded α :=
  match all.find? fun a => name a == key with
  | some a => .ok a
  | none => .error (.unknownVariant key (all.map name))

/-- The only content a bare variant may have is `null`, or no member at all when it was held. -/
def expectUnit (o : Origin) (s : Source) : Decoded Unit :=
  match o, s with
  | _, .null => .ok ()
  | .held, .object [] .closed => .ok ()
  | _, s => wrong "unit" s

/-- A variant as an object of one member. A text is read only as far as it fits. -/
def variantObject (all : List α) (name : α → String) (o : Origin) (members : List (Key × Source))
    (ending : ObjectEnd) : Decoded α :=
  match o, members with
  | .text, [] =>
    match ending with
    | .badKey (.ok found) => .error (.wrongType found "variant identifier")
    | .badKey (.error f) => .error (.malformed f)
    | .cut => .error (.malformed .eofValue)
    | _ => .error (.malformed .expectedValue)
  | .text, (.faulty f, _) :: _ => .error (.malformed f.read)
  | .text, (.name key, s) :: rest => do
    let a ← variantNamed all name key
    expectUnit o s
    match rest, ending with
    | [], .closed => return a
    | [], .cut => throw (.malformed .eofObject)
    | _, _ => throw (.malformed .expectedValue)
  | o, [(.name key, s)] => do
    let a ← variantNamed all name key
    expectUnit o s
    return a
  | _, _ => .error (.wrongValue .map "map with a single key")

/-- One of several names, alone or as the key of an object that holds `null`. -/
def variant (all : List α) (name : α → String) : Codec α where
  encode a := .string (name a)
  decode
    | _, .string s => variantNamed all name s
    | o, .object members ending => variantObject all name o members ending
    | .text, .faulty f => .error (.malformed f.tag)
    | .text, _ => .error (.malformed .expectedValue)
    | _, s => wrong "string or map" s

/-- A type read and written by way of another one. -/
def via (c : Codec β) (of : β → Decoded α) (written : α → β) : Codec α where
  encode a := c.encode (written a)
  decode o s := c.decode o s >>= of

def ofJson? (c : Codec α) (j : Json) : Decoded α := c.decode .value (.ofJson j)

/-- Reads a whole text. -/
def ofText? (c : Codec α) (s : String) : Decoded α := do
  let document := Document.ofText s
  let a ← c.decode .text document.root
  if document.trailing then throw (.malformed .trailingCharacters)
  return a

end Codec

end ReportFlow
