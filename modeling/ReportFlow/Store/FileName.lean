import ReportFlow.Digest.Blake3

/-!
Names of the files that hold definitions. An id of letters, digits, `-`, `_` and `.` names its file;
in any other id the remaining characters are replaced, and a hash of the id keeps it apart.
-/

namespace ReportFlow

namespace FileName

def isPlain (c : Char) : Bool := c.isAlphanum || c = '-' || c = '_' || c = '.'

def sanitized (id : String) : List Char := id.toList.map fun c => if isPlain c then c else '_'

def hash (id : String) : List Char := Blake3.shortHex id.toUTF8.toList

def stem (id : String) : String :=
  if id.toList.all isPlain then id
  else String.ofList (sanitized id ++ '~' :: hash id)

def ending : String := ".json"

def ofId (id : String) : String := stem id ++ ending

/-- The name has the ending of a definition, and something before it. -/
def isDefinition (name : String) : Bool :=
  name.endsWith ending && ending.utf8ByteSize < name.utf8ByteSize

end FileName

end ReportFlow
