import ReportFlow.Json.Numeral
import ReportFlow.Json.Source

/-!
Reads a text as JSON. Blanks are space, tab, line feed and carriage return. At most 127 containers
stand inside each other; a deeper one can be passed over but not read.
-/

namespace ReportFlow

namespace Json.Reader

def isBlank (c : Char) : Bool := c = ' ' || c = '\n' || c = '\t' || c = '\r'

def dropBlanks (cs : List Char) : List Char := cs.dropWhile isBlank

/-- A value and the text after it; there is none after a place where all reading ends. -/
abbrev Result (α : Type) := α × Option (List Char)

def stop (f : JsonFault) : Result Source := (.faulty (.hard f), none)

/-- A word whose first letter has been read. -/
def word (value : Source) : List Char → List Char → Result Source
  | [], rest => (value, some rest)
  | _ :: _, [] => (.faulty ⟨.eofValue, some .eofValue, .expectedValue⟩, none)
  | w :: ws, c :: rest =>
    if w = c then word value ws rest
    else (.faulty ⟨.expectedWord, some .expectedWord, .expectedValue⟩, none)

def number (cs : List Char) : Result Source :=
  match Numeral.split cs with
  | .error f => (.faulty f, none)
  | .ok (numeral, rest) =>
    match numeral.value? with
    | some n => (.number n, some rest)
    | none => (.faulty ⟨.numberOutOfRange, none, .expectedValue⟩, some rest)

def hexDigit? (c : Char) : Option Nat :=
  if c.isDigit then some (c.toNat - '0'.toNat)
  else if 'a' ≤ c ∧ c ≤ 'f' then some (c.toNat - 'a'.toNat + 10)
  else if 'A' ≤ c ∧ c ≤ 'F' then some (c.toNat - 'A'.toNat + 10)
  else none

/-- Four hexadecimal digits. A text with fewer than four bytes left has ended too early. -/
def hexGroup (cs : List Char) : Except JsonFault Nat :=
  if ((cs.take 4).map Char.utf8Size).foldr (· + ·) 0 < 4 then .error .eofString
  else match (cs.take 4).mapM hexDigit? with
    | some [a, b, c, d] => .ok (((a * 16 + b) * 16 + c) * 16 + d)
    | _ => .error .invalidEscape

def simpleEscape? (c : Char) : Option Char :=
  if c = '"' ∨ c = '\\' ∨ c = '/' then some c
  else if c = 'b' then some '\x08'
  else if c = 'f' then some '\x0c'
  else if c = 'n' then some '\n'
  else if c = 'r' then some '\r'
  else if c = 't' then some '\t'
  else none

def isHigh (unit : Nat) : Bool := 0xd800 ≤ unit && unit ≤ 0xdbff
def isLow (unit : Nat) : Bool := 0xdc00 ≤ unit && unit ≤ 0xdfff

def joined (high low : Nat) : Char := Char.ofNat ((high - 0xd800) * 0x400 + (low - 0xdc00) + 0x10000)

/-- The character of an escape after its `u`, and the text after it. A high half needs a low half
in the next escape. -/
def unicodeEscape (cs : List Char) : Except JsonFault (Char × List Char) := do
  let unit ← hexGroup cs
  let rest := cs.drop 4
  if isLow unit then throw .loneSurrogate
  if !isHigh unit then return (Char.ofNat unit, rest)
  match rest with
  | [] => throw .eofString
  | '\\' :: [] => throw .eofString
  | '\\' :: 'u' :: rest =>
    let low ← hexGroup rest
    if isLow low then return (joined unit low, rest.drop 4) else throw .loneSurrogate
  | _ => throw .unexpectedEndOfHexEscape

/-- One character of a string, plain or escaped, and the text after it; `none` at the closing
quote. -/
def stringStep : List Char → Except JsonFault (Option Char × List Char)
  | [] => .error .eofString
  | '"' :: rest => .ok (none, rest)
  | ['\\'] => .error .eofString
  | '\\' :: 'u' :: rest => (unicodeEscape rest).map fun (c, r) => (some c, r)
  | '\\' :: c :: rest =>
    match simpleEscape? c with
    | some e => .ok (some e, rest)
    | none => .error .invalidEscape
  | c :: rest => if c < ' ' then .error .controlCharacter else .ok (some c, rest)

/-- Characters up to the closing quote; `acc` holds those already read, last one first. -/
def stringBody : Nat → List Char → List Char → Except JsonFault (String × List Char)
  | 0, _, _ => .error .eofString
  | fuel + 1, acc, cs =>
    match stringStep cs with
    | .error f => .error f
    | .ok (none, rest) => .ok (String.ofList acc.reverse, rest)
    | .ok (some c, rest) => stringBody fuel (c :: acc) rest

/-- Passes over a string. Escapes must be well formed, but halves need not make a pair. -/
def skipString : List Char → Except JsonFault (List Char)
  | [] => .error .eofString
  | '"' :: rest => .ok rest
  | ['\\'] => .error .eofString
  | '\\' :: 'u' :: rest =>
    match hexGroup rest with
    | .error f => .error f
    | .ok _ => skipString rest
  | '\\' :: c :: rest => if (simpleEscape? c).isSome then skipString rest else .error .invalidEscape
  | c :: rest => if c < ' ' then .error .controlCharacter else skipString rest

/-- A string whose opening quote has been read. -/
def text (cs : List Char) : Result (Except Fault String) :=
  match stringBody (cs.length + 1) [] cs with
  | .ok (s, rest) => (.ok s, some rest)
  | .error f =>
    match skipString cs with
    | .ok rest => (.error ⟨f, none, f⟩, some rest)
    | .error g => (.error ⟨f, some g, f⟩, none)

def maxDepth : Nat := 127

def tooDeep (value : Source) (tag : JsonFault) : Source :=
  .faulty ⟨.nestingLimit, value.skip, tag⟩

/-- What stands where a key was wanted. -/
def foundAt (cs : List Char) : Except JsonFault Found :=
  match cs with
  | '[' :: _ => .ok .sequence
  | '\x7b' :: _ => .ok .map
  | 'n' :: rest => (word .null ['u', 'l', 'l'] rest).1.found
  | 't' :: rest => (word (.bool true) ['r', 'u', 'e'] rest).1.found
  | 'f' :: rest => (word (.bool false) ['a', 'l', 's', 'e'] rest).1.found
  | c :: rest => if c = '-' || c.isDigit then (number (c :: rest)).1.found else .error .expectedValue
  | [] => .error .eofValue

mutual

/-- `depth` counts the containers that may still be opened. -/
def value (fuel depth : Nat) (cs : List Char) : Result Source :=
  match fuel with
  | 0 => stop .eofValue
  | fuel + 1 =>
    match dropBlanks cs with
    | [] => stop .eofValue
    | 'n' :: rest => word .null ['u', 'l', 'l'] rest
    | 't' :: rest => word (.bool true) ['r', 'u', 'e'] rest
    | 'f' :: rest => word (.bool false) ['a', 'l', 's', 'e'] rest
    | '"' :: rest =>
      match text rest with
      | (.ok s, rest) => (.string s, rest)
      | (.error f, rest) => (.faulty f, rest)
    | '[' :: rest =>
      let (items, ending, rest) := elements fuel (depth - 1) true rest
      let source := Source.array items ending
      (if depth = 0 then tooDeep source .expectedValue else source, rest)
    | '\x7b' :: rest =>
      let (members, ending, rest) := entries fuel (depth - 1) true rest
      let source := Source.object members ending
      (if depth = 0 then tooDeep source .nestingLimit else source, rest)
    | c :: rest => if c = '-' || c.isDigit then number (c :: rest) else stop .expectedValue

/-- Elements up to the closing bracket; every one but the first follows a comma. -/
def elements (fuel depth : Nat) (first : Bool) (cs : List Char) :
    List Source × ArrayEnd × Option (List Char) :=
  match fuel with
  | 0 => ([], .cut, none)
  | fuel + 1 =>
    let element (rest : List Char) : List Source × ArrayEnd × Option (List Char) :=
      match value fuel depth rest with
      | (item, none) => ([item], .cut, none)
      | (item, some rest) =>
        let (items, ending, rest) := elements fuel depth false rest
        (item :: items, ending, rest)
    match dropBlanks cs with
    | [] => ([], .cut, none)
    | ']' :: rest => ([], .closed, some rest)
    | c :: rest =>
      if first then element (c :: rest)
      else if c = ',' then
        match dropBlanks rest with
        | [] => ([], .commaCut, none)
        | ']' :: _ => ([], .comma, none)
        | rest => element rest
      else ([], .other, none)

/-- Members up to the closing brace; every one but the first follows a comma. -/
def entries (fuel depth : Nat) (first : Bool) (cs : List Char) :
    List (Key × Source) × ObjectEnd × Option (List Char) :=
  match fuel with
  | 0 => ([], .cut, none)
  | fuel + 1 =>
    let entry (rest : List Char) : List (Key × Source) × ObjectEnd × Option (List Char) :=
      let (key, rest) := match text rest with
        | (.ok s, rest) => (Key.name s, rest)
        | (.error f, rest) => (Key.faulty f, rest)
      match rest with
      | none => ([(key, .faulty (.hard .eofObject))], .cut, none)
      | some rest =>
        match dropBlanks rest with
        | [] => ([(key, .faulty (.hard .eofObject))], .cut, none)
        | ':' :: rest =>
          match value fuel depth rest with
          | (item, none) => ([(key, item)], .cut, none)
          | (item, some rest) =>
            let (members, ending, rest) := entries fuel depth false rest
            ((key, item) :: members, ending, rest)
        | _ => ([(key, .faulty (.hard .expectedColon))], .cut, none)
    match dropBlanks cs with
    | [] => ([], .cut, none)
    | '\x7d' :: rest => ([], .closed, some rest)
    | c :: rest =>
      if first then
        if c = '"' then entry rest else ([], .badKey (foundAt (c :: rest)), none)
      else if c = ',' then
        match dropBlanks rest with
        | [] => ([], .commaCut, none)
        | '"' :: rest => entry rest
        | '\x7d' :: _ => ([], .comma, none)
        | rest => ([], .badKey (foundAt rest), none)
      else ([], .other, none)

end

end Json.Reader

/-- A text read as one JSON value; `trailing` tells that something but blanks follows it. -/
structure Document where
  root : Source
  trailing : Bool

def Document.ofText (s : String) : Document :=
  let cs := s.toList
  match Json.Reader.value (2 * cs.length + 2) Json.Reader.maxDepth cs with
  | (root, none) => ⟨root, false⟩
  | (root, some rest) => ⟨root, !(Json.Reader.dropBlanks rest).isEmpty⟩

/-- Reads a text as one free value. -/
def Json.ofText (s : String) : Except JsonFault Json := do
  let document := Document.ofText s
  let value ← document.root.toJson
  if document.trailing then throw .trailingCharacters
  return value

end ReportFlow
