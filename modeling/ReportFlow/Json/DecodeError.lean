import ReportFlow.Json.Source
import ReportFlow.Json.Numeral
import ReportFlow.Text.Quoted

/-!
Why a JSON value does not hold what is wanted from it.
-/

namespace ReportFlow

inductive DecodeError where
  | malformed (fault : JsonFault)
  | wrongType (found : Found) (wanted : String)
  | wrongValue (found : Found) (wanted : String)
  | wrongLength (count : Nat) (wanted : String)
  | missingField (field : String)
  | duplicateField (field : String)
  | unknownVariant (name : String) (known : List String)
  | noAlternative (type : String)
  | badInstant (message : String)
  | badConfig (node kind : String) (cause : DecodeError)
  deriving DecidableEq

def Found.text : Found → String
  | null => "null"
  | bool b => "boolean `" ++ toString b ++ "`"
  | number (.integer i) => "integer `" ++ toString i ++ "`"
  | number (.double d) => "floating point `" ++ d.text ++ "`"
  | string s => "string " ++ Text.quoted s
  | sequence => "sequence"
  | map => "map"

/-- Two names are joined by a word, more are listed. -/
def oneOf (names : List String) : String :=
  match names.map fun name => "`" ++ name ++ "`" with
  | [] => "there are no variants"
  | [a] => "expected " ++ a
  | [a, b] => "expected " ++ a ++ " or " ++ b
  | all => "expected one of " ++ ", ".intercalate all

def DecodeError.message : DecodeError → String
  | malformed fault => fault.message
  | wrongType found wanted => "invalid type: " ++ found.text ++ ", expected " ++ wanted
  | wrongValue found wanted => "invalid value: " ++ found.text ++ ", expected " ++ wanted
  | wrongLength count wanted => "invalid length " ++ toString count ++ ", expected " ++ wanted
  | missingField field => "missing field `" ++ field ++ "`"
  | duplicateField field => "duplicate field `" ++ field ++ "`"
  | unknownVariant name known => "unknown variant `" ++ name ++ "`, " ++ oneOf known
  | noAlternative type => "data did not match any variant of untagged enum " ++ type
  | badInstant message => message
  | badConfig node kind cause =>
    "Node '" ++ node ++ "' has an invalid configuration for kind '" ++ kind ++ "': " ++ cause.message

end ReportFlow
