/-!
What an operation tells about its course, besides its result.
-/

namespace ReportFlow

inductive Level where
  | debug
  | info
  | warn
  deriving DecidableEq, Repr

def Level.name : Level → String
  | debug => "debug"
  | info => "info"
  | warn => "warn"

structure Event where
  level : Level
  text : String
  deriving DecidableEq, Repr

namespace Event

def debug (text : String) : Event := ⟨.debug, text⟩
def info (text : String) : Event := ⟨.info, text⟩
def warn (text : String) : Event := ⟨.warn, text⟩

end Event

end ReportFlow
