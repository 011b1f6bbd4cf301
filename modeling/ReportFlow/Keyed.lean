/-!
Lists of entries under text keys. `put` keeps the keys in ascending order and replaces the value of
a key that is present.
-/

namespace ReportFlow

namespace Keyed

variable {β : Type}

def put (key : String) (value : β) : List (String × β) → List (String × β)
  | [] => [(key, value)]
  | (k, v) :: rest =>
    if key = k then (key, value) :: rest
    else if key < k then (key, value) :: (k, v) :: rest
    else (k, v) :: put key value rest

def get? (key : String) : List (String × β) → Option β
  | [] => none
  | (k, v) :: rest => if key = k then some v else get? key rest

def erase (key : String) (entries : List (String × β)) : List (String × β) :=
  entries.filter fun entry => entry.1 ≠ key

/-- Entries put one by one, so of two with one key the later counts. -/
def ofList (entries : List (String × β)) : List (String × β) :=
  entries.foldl (fun acc entry => put entry.1 entry.2 acc) []

/-- Keys ascend, so no key stands twice. -/
def Sorted (entries : List (String × β)) : Prop :=
  entries.Pairwise fun a b => a.1 < b.1

end Keyed

end ReportFlow
