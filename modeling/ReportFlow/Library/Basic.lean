import ReportFlow.Sources
import ReportFlow.Store.Basic

/-!
A library of reports over any store, with the sources of its timestamps and new ids.
-/

namespace ReportFlow

structure Library (σ : Type) where
  store : σ
  sources : Sources

/-- The outcome of an operation on a library, with the library after it. -/
structure Outcome (σ ε α : Type) where
  library : Library σ
  result : Except ε α
  events : List Event

namespace Library

variable {σ : Type} [ReportStore σ]

def list (l : Library σ) : List Definition := ReportStore.list l.store

def get? (l : Library σ) (id : String) : Option Definition := ReportStore.get? l.store id

def save (l : Library σ) (d : Definition) : Outcome σ StoreError Unit :=
  let attempt := ReportStore.put d l.store
  ⟨{ l with store := attempt.store }, attempt.result, attempt.events⟩

def delete (l : Library σ) (id : String) : Outcome σ StoreError Bool :=
  let attempt := ReportStore.delete id l.store
  ⟨{ l with store := attempt.store }, attempt.result, attempt.events⟩

/-- A copy under the id with a minted suffix, with a history of its own. -/
def copyOf (d : Definition) (name : Option String) (s : Sources) : Definition :=
  { d with
    id := d.id ++ "-" ++ s.nextId "copy"
    name := name.getD (d.name ++ " (Copy)")
    createdAt := s.now
    updatedAt := s.now
    reportVersion := 1 }

/-- Stores a copy of a report; nothing happens when the id is not stored. -/
def duplicate (l : Library σ) (id : String) (name : Option String) :
    Outcome σ StoreError (Option Definition) :=
  match l.get? id with
  | none => ⟨l, .ok none, []⟩
  | some report =>
    let copy := copyOf report name l.sources
    let attempt := ReportStore.put copy l.store
    { library := ⟨attempt.store, l.sources.tick.mint⟩
      result := attempt.result.map fun _ => some copy
      events := .info ("Duplicated report '" ++ id ++ "' as '" ++ copy.id ++ "'") :: attempt.events }

end Library

end ReportFlow
