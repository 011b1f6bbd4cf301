import Mathlib.Data.Nat.Digits.Defs
import ReportFlow.Proofs.ReopenedGraph

/-!
Row caps by reference. An editor takes a number only, and reads one off the digits of the reference,
whatever stands between them. A number that needs more than 32 bits is no cap. Once read, a cap is
saved as the number and stays what it is.
-/

namespace ReportFlow

namespace RowCap

/-- The digits of a text in order. Only those of ASCII count. -/
def digitsOf (text : String) : List Nat :=
  (text.toList.filter fun c => '0' ≤ c ∧ c ≤ '9').map fun c => c.toNat - '0'.toNat

def numberOf (text : String) : Nat := Nat.ofDigits 10 (digitsOf text).reverse

def extend? (n : UInt32) (digit : Nat) : Option UInt32 :=
  if n.toNat * 10 + digit < 2 ^ 32 then some (.ofNat (n.toNat * 10 + digit)) else none

theorem isDigit_eq (c : Char) : c.isDigit = decide ('0' ≤ c ∧ c ≤ '9') := by
  simp [Char.isDigit, Char.le_def]

theorem digitsOf_ne_nil_iff (text : String) :
    digitsOf text ≠ [] ↔ ∃ c ∈ text.toList, '0' ≤ c ∧ c ≤ '9' := by
  simp [digitsOf, List.filter_eq_nil_iff]

theorem foldl_digits (n : Nat) (digits : List Nat) :
    digits.foldl (fun n d => n * 10 + d) n =
      n * 10 ^ digits.length + Nat.ofDigits 10 digits.reverse := by
  induction digits generalizing n with
  | nil => simp
  | cons d rest ih =>
    rw [List.foldl_cons, ih, Nat.ofDigits_reverse_cons, List.length_cons, Nat.pow_succ]
    ring

theorem foldl_numberOf (text : String) :
    (digitsOf text).foldl (fun n d => n * 10 + d) 0 = numberOf text := by
  rw [foldl_digits, Nat.zero_mul, Nat.zero_add, numberOf]

theorem editable?_parameter (reference : String) : (parameter reference).editable? =
    if digitsOf reference = [] ∨ 2 ^ 32 ≤ numberOf reference then none
    else some (UInt32.ofNat (numberOf reference)) := by
  have hfilter : reference.toList.filter Char.isDigit =
      reference.toList.filter fun c => '0' ≤ c ∧ c ≤ '9' :=
    List.filter_congr fun c _ => isDigit_eq c
  simp only [editable?, hfilter, ← foldl_numberOf, digitsOf, List.foldl_map, List.map_eq_nil_iff,
    List.isEmpty_iff]

/-- Reading digit by digit fails at the first digit that is too much, and then what is read already
is too large whatever follows. -/
theorem foldlM_extend? (n : UInt32) (digits : List Nat) :
    digits.foldlM extend? n =
      if digits.foldl (fun n d => n * 10 + d) n.toNat < 2 ^ 32 then
        some (.ofNat (digits.foldl (fun n d => n * 10 + d) n.toNat))
      else none := by
  induction digits generalizing n with
  | nil => simp [UInt32.toNat_lt n]
  | cons d rest ih =>
    rw [List.foldlM_cons, List.foldl_cons, extend?]
    by_cases hfits : n.toNat * 10 + d < 2 ^ 32
    · have hvalue : (UInt32.ofNat (n.toNat * 10 + d)).toNat = n.toNat * 10 + d :=
        UInt32.toNat_ofNat_of_lt hfits
      rw [if_pos hfits, Option.bind_eq_bind, Option.bind_some, ih, hvalue]
    · have hgrows : n.toNat * 10 + d ≤ rest.foldl (fun n d => n * 10 + d) (n.toNat * 10 + d) := by
        rw [foldl_digits]
        exact (Nat.le_mul_of_pos_right _ (by simp)).trans (Nat.le_add_right _ _)
      rw [if_neg hfits, if_neg (by omega)]
      rfl

/-- The cap of a reference can be read digit by digit, without a number of more than 32 bits. -/
theorem editable?_eq_foldlM (reference : String) : (parameter reference).editable? =
    if digitsOf reference = [] then none else (digitsOf reference).foldlM extend? 0 := by
  have hnumber : (digitsOf reference).foldl (fun n d => n * 10 + d) (0 : UInt32).toNat =
      numberOf reference := foldl_numberOf reference
  rw [editable?_parameter, foldlM_extend?, hnumber]
  by_cases hnone : digitsOf reference = []
  · rw [if_pos (.inl hnone), if_pos hnone]
  · rw [if_neg hnone]
    by_cases hfits : numberOf reference < 2 ^ 32
    · rw [if_pos hfits, if_neg (not_or.mpr ⟨hnone, Nat.not_le.mpr hfits⟩)]
    · rw [if_neg hfits, if_pos (.inr (Nat.not_lt.mp hfits))]

theorem editable?_parameter_eq_some_iff (reference : String) (n : Nat) :
    (parameter reference).editable?.map UInt32.toNat = some n ↔
      (∃ c ∈ reference.toList, '0' ≤ c ∧ c ≤ '9') ∧ numberOf reference = n ∧ n < 2 ^ 32 := by
  rw [← digitsOf_ne_nil_iff, editable?_parameter]
  by_cases hnone : digitsOf reference = []
  · simp [hnone]
  · by_cases hfits : numberOf reference < 2 ^ 32
    · have hvalue : (UInt32.ofNat (numberOf reference)).toNat = numberOf reference :=
        UInt32.toNat_ofNat_of_lt hfits
      rw [if_neg (not_or.mpr ⟨hnone, Nat.not_le.mpr hfits⟩), Option.map_some, hvalue,
        Option.some_inj]
      constructor
      · rintro rfl
        exact ⟨hnone, rfl, hfits⟩
      · rintro ⟨-, rfl, -⟩
        rfl
    · rw [if_pos (.inr (Nat.not_lt.mp hfits)), Option.map_none]
      constructor
      · intro h
        cases h
      · rintro ⟨-, rfl, hlt⟩
        exact absurd hlt hfits

end RowCap

/-! ## Caps of a whole definition -/

def NodeData.rowCap? : NodeData → Option RowCap
  | .link d => d.manyPolicy.bind (·.policy.top)
  | _ => none

def NodeConfig.rowCap? : NodeConfig → Option UInt32
  | .link c => c.policy.bind (·.top)
  | _ => none

def ReportNode.capped (n : ReportNode) : String × Option RowCap := (n.id, n.data.rowCap?)

def FlowNode.capped (n : FlowNode) : String × Option UInt32 := (n.id, n.config.rowCap?)

theorem Reopening.Opens.rowCap? {data : NodeData} {c : NodeConfig} (h : Opens data c) :
    c.rowCap? = data.rowCap?.bind RowCap.editable? := by
  cases h with
  | link d relation hr =>
    simp only [NodeConfig.rowCap?, NodeData.rowCap?, linkConfig]
    cases d.manyPolicy <;> rfl
  | _ => rfl

theorem NodeData.rowCap?_canonical (data : NodeData) :
    data.canonical.rowCap? = (data.rowCap?.bind RowCap.editable?).map .literal := by
  cases data with
  | link d =>
    simp only [NodeData.rowCap?, NodeData.canonical, LinkData.canonical]
    cases d.manyPolicy with
    | none => rfl
    | some p => exact (Option.map_bind).symm
  | _ => rfl

namespace Compilation

open Reopening

/-- An editor shows for each cap what it can read of it. -/
theorem capped_of_reopen {d : Definition} {g : Flow} (h : d.reopen = .ok g) :
    g.nodes.map (·.capped) =
      d.graph.nodes.map fun n => (n.id, n.data.rowCap?.bind RowCap.editable?) := by
  refine eq_map_of_forall₂ (List.forall₂_map_right_iff.mpr ((reopen_nodes h).imp fun n m hn => ?_))
  rw [FlowNode.capped, hn.id, hn.opens.rowCap?]

/-- A cap is saved as the number that is shown. -/
theorem capped_of_recompile {d : Definition} {g : Flow} (h : d.reopen = .ok g) :
    (graph g).nodes.map (·.capped) = (g.nodes.map (·.capped)).map (Prod.map id (·.map .literal)) := by
  have hsaved : (graph g).nodes.map (·.capped) =
      d.graph.nodes.map fun n => (n.id, (n.data.rowCap?.bind RowCap.editable?).map .literal) := by
    refine eq_map_of_forall₂
      (List.forall₂_map_right_iff.mpr ((graph_nodes_of_reopen h).imp fun n m hn => ?_))
    rw [ReportNode.capped, hn.id, hn.data, NodeData.rowCap?_canonical]
  rw [hsaved, capped_of_reopen h, List.map_map]
  rfl

/-- Saved as numbers, the caps are shown as the same numbers again. -/
theorem capped_again {d d' : Definition} {g g' : Flow} (h : d.reopen = .ok g)
    (hsaved : d'.graph = graph g) (h' : d'.reopen = .ok g') :
    g'.nodes.map (·.capped) = g.nodes.map (·.capped) := by
  have hshown (shown : Option UInt32) : (shown.map RowCap.literal).bind RowCap.editable? = shown := by
    cases shown <;> rfl
  calc g'.nodes.map (·.capped)
      = ((graph g).nodes.map (·.capped)).map (Prod.map id (·.bind RowCap.editable?)) := by
        rw [capped_of_reopen h', hsaved, List.map_map]
        rfl
    _ = (g.nodes.map (·.capped)).map (Prod.map id fun shown =>
          (shown.map RowCap.literal).bind RowCap.editable?) := by
        rw [capped_of_recompile h, List.map_map]
        rfl
    _ = g.nodes.map (·.capped) := by
        simp only [hshown]
        exact List.map_id _

end Compilation

open Compilation

/-- A reference is read by the value of its digits: as the number that they write, if there are any and
if it fits in 32 bits, and otherwise not at all. Reading them one by one gives the same, so nothing
wraps. What an editor shows for the caps of a definition is saved as numbers and shown again. -/
theorem RowCap.caps_by_value :
    (∀ (reference : String) (n : Nat),
      (parameter reference).editable?.map UInt32.toNat = some n ↔
        (∃ c ∈ reference.toList, '0' ≤ c ∧ c ≤ '9') ∧ numberOf reference = n ∧ n < 2 ^ 32) ∧
    (∀ reference : String, (parameter reference).editable? =
      if digitsOf reference = [] then none else (digitsOf reference).foldlM extend? 0) ∧
    ∀ (d : Definition) (g : Flow) (s : Sources), d.reopen = .ok g →
      ∃ g', (g.recompile d s).definition.reopen = .ok g' ∧
        g.nodes.map (·.capped) =
          d.graph.nodes.map (fun n => (n.id, n.data.rowCap?.bind RowCap.editable?)) ∧
        (g.recompile d s).definition.graph.nodes.map (·.capped) =
          (g.nodes.map (·.capped)).map (Prod.map id (·.map .literal)) ∧
        g'.nodes.map (·.capped) = g.nodes.map (·.capped) := by
  refine ⟨editable?_parameter_eq_some_iff, editable?_eq_foldlM, fun d g s h => ?_⟩
  obtain ⟨g', h', -⟩ := reopen_settled (d := (g.recompile d s).definition) (graph_settled h)
  exact ⟨g', h', capped_of_reopen h, capped_of_recompile h, capped_again h rfl h'⟩

namespace Sample

def looselyCapped : Definition :=
  let link (reference : String) : LinkData :=
    { joinedOrganizations with
      manyPolicy := some ⟨{ policy .concat with top := some (.parameter reference) }, none⟩ }
  { definition with
    graph := ⟨[node "few" 50 50 (.link (link "@Top 0012 of 5")),
      node "many" 350 50 (.link (link "@4294967296"))], []⟩ }

end Sample

theorem RowCap.caps_by_value_looselyCapped :
    ∃ g g', Sample.looselyCapped.reopen = .ok g ∧
      g.nodes.map (·.capped) = [("few", some 125), ("many", none)] ∧
      (g.recompile Sample.looselyCapped Sample.sources).definition.graph.nodes.map (·.capped) =
        [("few", some (.literal 125)), ("many", none)] ∧
      (g.recompile Sample.looselyCapped Sample.sources).definition.reopen = .ok g' ∧
      g'.nodes.map (·.capped) = [("few", some 125), ("many", none)] := by
  obtain ⟨g, h⟩ := Reopening.exists_reopen (d := Sample.looselyCapped) (by decide)
  obtain ⟨g', h', hshown, hsaved, hagain⟩ := caps_by_value.2.2 _ g Sample.sources h
  have hcaps : g.nodes.map (·.capped) = [("few", some 125), ("many", none)] := by
    rw [hshown]
    decide
  rw [hcaps] at hsaved hagain
  exact ⟨g, g', h, hcaps, hsaved, h', hagain⟩

end ReportFlow
