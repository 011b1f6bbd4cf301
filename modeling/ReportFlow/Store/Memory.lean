import ReportFlow.Store.Basic

/-!
A store in memory. Definitions stay in the order in which their ids came; replacing one keeps its
place.
-/

namespace ReportFlow

structure MemoryStore where
  reports : List Definition
  deriving DecidableEq

namespace MemoryStore

def empty : MemoryStore := ⟨[]⟩

def size (s : MemoryStore) : Nat := s.reports.length

def upsert (d : Definition) : List Definition → List Definition
  | [] => [d]
  | r :: rest => if r.id = d.id then d :: rest else r :: upsert d rest

def insert (d : Definition) (s : MemoryStore) : MemoryStore := ⟨upsert d s.reports⟩

def erase (id : String) (s : MemoryStore) : MemoryStore := ⟨s.reports.filter (·.id ≠ id)⟩

def ofList (ds : List Definition) : MemoryStore := ds.foldl (fun s d => s.insert d) empty

instance : ReportStore MemoryStore where
  list s := s.reports
  put d s := ⟨s.insert d, .ok (), []⟩
  delete id s := ⟨s.erase id, .ok (decide ((s.erase id).size < s.size)), []⟩

end MemoryStore

end ReportFlow
