import ReportFlow.Definition.Basic
import ReportFlow.Event
import ReportFlow.Store.Disk

/-!
What every store of definitions offers. A definition is kept under its id; putting one replaces the
one with the same id.
-/

namespace ReportFlow

inductive StoreError where
  | io (path : String) (cause : OsError)
  deriving DecidableEq, Repr

def StoreError.message : StoreError → String
  | io path cause => "I/O error at '" ++ path ++ "': " ++ cause.message

/-- The outcome of an operation on a store, with the store after it. -/
structure Attempt (σ α : Type) where
  store : σ
  result : Except StoreError α
  events : List Event

class ReportStore (σ : Type) where
  list : σ → List Definition
  put : Definition → σ → Attempt σ Unit
  /-- Tells whether the id was stored. -/
  delete : String → σ → Attempt σ Bool

namespace ReportStore

variable {σ : Type} [ReportStore σ]

def get? (s : σ) (id : String) : Option Definition := (list s).find? (·.id == id)

def contains (s : σ) (id : String) : Bool := (get? s id).isSome

end ReportStore

end ReportFlow
