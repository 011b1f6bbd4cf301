/-!
What can be wrong with a text that should be JSON.
-/

namespace ReportFlow

inductive JsonFault where
  | eofList
  | eofObject
  | eofString
  | eofValue
  | expectedColon
  | expectedListEnd
  | expectedObjectEnd
  | expectedWord
  | expectedValue
  | invalidEscape
  | invalidNumber
  | numberOutOfRange
  | keyMustBeString
  | controlCharacter
  | unexpectedEndOfHexEscape
  | loneSurrogate
  | trailingComma
  | trailingCharacters
  | nestingLimit
  deriving DecidableEq, Repr

def JsonFault.message : JsonFault → String
  | eofList => "EOF while parsing a list"
  | eofObject => "EOF while parsing an object"
  | eofString => "EOF while parsing a string"
  | eofValue => "EOF while parsing a value"
  | expectedColon => "expected `:`"
  | expectedListEnd => "expected `,` or `]`"
  | expectedObjectEnd => "expected `,` or `\x7d`"
  | expectedWord => "expected ident"
  | expectedValue => "expected value"
  | invalidEscape => "invalid escape"
  | invalidNumber => "invalid number"
  | numberOutOfRange => "number out of range"
  | keyMustBeString => "key must be a string"
  | controlCharacter => "control character (\\u0000-\\u001F) found while parsing a string"
  | unexpectedEndOfHexEscape => "unexpected end of hex escape"
  | loneSurrogate => "lone leading surrogate in hex escape"
  | trailingComma => "trailing comma"
  | trailingCharacters => "trailing characters"
  | nestingLimit => "recursion limit exceeded"

/-- A faulty place of a text. A reader is stopped by `read`, or by `tag` where it wants the name of
a variant. One who passes over the value is stopped by `skip`, if at all. -/
structure Fault where
  read : JsonFault
  skip : Option JsonFault
  tag : JsonFault
  deriving DecidableEq, Repr

namespace Fault

/-- Stops everyone alike. -/
def hard (f : JsonFault) : Fault := ⟨f, some f, f⟩

end Fault

end ReportFlow
