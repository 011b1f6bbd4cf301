import ReportFlow.Json.Numeral

/-!
JSON text: on one line, or with every element on a line of its own, indented by two blanks for each
enclosing container. Empty containers take no line.
-/

namespace ReportFlow

namespace Json

def hexDigit (n : Nat) : Char := Nat.digitChar n

/-- Quotes, backslashes and control characters are escaped, nothing else. -/
def escape (c : Char) : List Char :=
  if c = '"' then ['\\', '"']
  else if c = '\\' then ['\\', '\\']
  else if c = '\x08' then ['\\', 'b']
  else if c = '\x0c' then ['\\', 'f']
  else if c = '\n' then ['\\', 'n']
  else if c = '\r' then ['\\', 'r']
  else if c = '\t' then ['\\', 't']
  else if c < ' ' then ['\\', 'u', '0', '0', hexDigit (c.toNat / 16), hexDigit (c.toNat % 16)]
  else [c]

def quote (s : String) : List Char := '"' :: s.toList.flatMap escape ++ ['"']

/-- The line break before an element at a depth; none on one line. -/
def lineBreak : Option Nat → List Char
  | none => []
  | some depth => '\n' :: List.replicate (2 * depth) ' '

def colon : Option Nat → List Char
  | none => [':']
  | some _ => [':', ' ']

mutual

/-- `depth` counts the enclosing containers when lines are broken. -/
def chars (depth : Option Nat) : Json → List Char
  | null => ['n', 'u', 'l', 'l']
  | bool true => ['t', 'r', 'u', 'e']
  | bool false => ['f', 'a', 'l', 's', 'e']
  | number n => n.text.toList
  | string s => quote s
  | array [] => ['[', ']']
  | array (item :: rest) =>
    let inner := depth.map (· + 1)
    '[' :: (lineBreak inner ++ (chars inner item ++ (itemChars inner rest ++ (lineBreak depth ++ [']']))))
  | object [] => ['\x7b', '\x7d']
  | object ((key, value) :: rest) =>
    let inner := depth.map (· + 1)
    '\x7b' :: (lineBreak inner ++ (quote key ++ (colon depth ++ (chars inner value ++
      (memberChars inner rest ++ (lineBreak depth ++ ['\x7d']))))))

def itemChars (depth : Option Nat) : List Json → List Char
  | [] => []
  | item :: rest => ',' :: (lineBreak depth ++ (chars depth item ++ itemChars depth rest))

def memberChars (depth : Option Nat) : List (String × Json) → List Char
  | [] => []
  | (key, value) :: rest =>
    ',' :: (lineBreak depth ++ (quote key ++ (colon depth ++ (chars depth value ++
      memberChars depth rest))))

end

def compact (value : Json) : String := String.ofList (value.chars none)

def pretty (value : Json) : String := String.ofList (value.chars (some 0))

end Json

end ReportFlow
