import Mathlib.Data.Finset.Card
import Mathlib.Data.List.Nodup
import ReportFlow.Proofs.Placement

/-!
The grid that placing lays out, read off the list of nodes. A node to be placed goes into the column
of its kind and below the nodes of its kind before it; only kinds with a node to place have a column.
-/

namespace ReportFlow

/-- In a list in order, the place of a value is the number of those before it. -/
theorem idxOf_eq_card {α : Type} [DecidableEq α] {r : α → α → Prop} [DecidableRel r]
    (hr : ∀ a b, r a b → ¬ r b a) {l : List α} (hl : l.Pairwise r) {a : α} (ha : a ∈ l) :
    l.idxOf a = (l.toFinset.filter (r · a)).card := by
  have hirrefl (x : α) : ¬ r x x := fun h => hr x x h h
  induction l with
  | nil => cases ha
  | cons x l ih =>
    obtain ⟨hx, hrest⟩ := List.pairwise_cons.mp hl
    rw [List.toFinset_cons, Finset.filter_insert]
    by_cases hax : x = a
    · subst hax
      have hnone : l.toFinset.filter (r · x) = ∅ :=
        Finset.filter_eq_empty_iff.mpr fun b hb => hr x b (hx b (List.mem_toFinset.mp hb))
      rw [List.idxOf_cons_self, if_neg (hirrefl x), hnone, Finset.card_empty]
    · have hmem : a ∈ l := (List.mem_cons.mp ha).resolve_left (Ne.symm hax)
      have hfresh : x ∉ l.toFinset.filter (r · a) := by
        intro h
        exact hirrefl x (hx x (List.mem_toFinset.mp (Finset.mem_filter.mp h).1))
      rw [List.idxOf_cons_ne l hax, if_pos (hx a hmem), Finset.card_insert_of_notMem hfresh,
        ih hrest hmem]

namespace Placement

def Before (nodes : List FlowNode) (a b : String) : Prop :=
  pipeline.idxOf a < pipeline.idxOf b ∨
    a ∉ pipeline ∧ b ∉ pipeline ∧
      (nodes.map FlowNode.kindName).idxOf a < (nodes.map FlowNode.kindName).idxOf b

instance (nodes : List FlowNode) : DecidableRel (Before nodes) := fun _ _ =>
  inferInstanceAs (Decidable (_ ∨ _))

def pendingKinds (nodes : List FlowNode) : Finset String :=
  ((nodes.filter FlowNode.needsLayout).map FlowNode.kindName).toFinset

/-- The cell for a node at some place of the list: as many columns and rows on as there are kinds
and nodes of its kind before it. -/
def spot (nodes : List FlowNode) (i : Nat) (n : FlowNode) : Cell where
  column := ((pendingKinds nodes).filter (Before nodes · n.kindName)).card
  row := (nodes.take i).countP (isPending n.kindName)

theorem Before.asymm {nodes : List FlowNode} (a b : String) (h : Before nodes a b) :
    ¬ Before nodes b a := by
  have hout {k : String} (hk : k ∉ pipeline) : pipeline.idxOf k = pipeline.length :=
    List.idxOf_eq_length hk
  rintro (h' | ⟨hb, ha, h'⟩)
  · rcases h with h | ⟨ha, hb, -⟩
    · omega
    · rw [hout ha, hout hb] at h'
      omega
  · rcases h with h | ⟨-, -, h⟩
    · rw [hout ha, hout hb] at h
      omega
    · omega

theorem pairwise_kindOrder (nodes : List FlowNode) : (kindOrder nodes).Pairwise (Before nodes) := by
  have hpipeline : pipeline.Pairwise fun a b => pipeline.idxOf a < pipeline.idxOf b := by decide
  have hother {k : String}
      (hk : k ∈ ((nodes.map FlowNode.kindName).filter (· ∉ pipeline)).eraseDups) : k ∉ pipeline :=
    of_decide_eq_true (List.mem_filter.mp (List.mem_eraseDups.mp hk)).2
  refine List.pairwise_append.mpr ⟨hpipeline.imp .inl, ?_, ?_⟩
  · exact (pairwise_eraseDups _ _).imp_of_mem fun ha hb h => .inr ⟨hother ha, hother hb, h⟩
  · intro a ha b hb
    rw [Before, List.idxOf_eq_length (hother hb)]
    exact .inl (List.idxOf_lt_length_of_mem ha)

theorem mem_pendingKinds {nodes : List FlowNode} {kind : String} :
    kind ∈ pendingKinds nodes ↔ ∃ n ∈ nodes, n.needsLayout = true ∧ n.kindName = kind := by
  simp [pendingKinds, and_assoc]

theorem mem_columns {nodes : List FlowNode} {kind : String} :
    kind ∈ columns (kindOrder nodes) nodes ↔ kind ∈ pendingKinds nodes := by
  constructor
  · intro h
    obtain ⟨n, hn, hpending⟩ := List.any_eq_true.mp (List.mem_filter.mp h).2
    obtain ⟨hkind, hneeds⟩ := isPending_iff.mp hpending
    exact mem_pendingKinds.mpr ⟨n, hn, hneeds, hkind⟩
  · intro h
    obtain ⟨n, hn, hneeds, rfl⟩ := mem_pendingKinds.mp h
    exact mem_columns_of_mem hn hneeds (mem_kindOrder hn)

/-- Columns stand in the order of their kinds, so the place of one is the number before it. -/
theorem idxOf_columns {nodes : List FlowNode} {kind : String} (h : kind ∈ pendingKinds nodes) :
    (columns (kindOrder nodes) nodes).idxOf kind =
      ((pendingKinds nodes).filter (Before nodes · kind)).card := by
  have hset : (columns (kindOrder nodes) nodes).toFinset = pendingKinds nodes := by
    ext k
    rw [List.mem_toFinset, mem_columns]
  rw [← hset]
  exact idxOf_eq_card Before.asymm (List.Pairwise.filter _ (pairwise_kindOrder nodes))
    (mem_columns.mpr h)

structure Pending (nodes : List FlowNode) (i : Nat) (n : FlowNode) : Prop where
  found : nodes[i]? = some n
  needs : n.needsLayout = true

namespace Pending

variable {nodes : List FlowNode} {i j : Nat} {m n : FlowNode}

theorem mem (h : Pending nodes i n) : n ∈ nodes := List.mem_of_getElem? h.found

theorem kind (h : Pending nodes i n) : n.kindName ∈ pendingKinds nodes :=
  mem_pendingKinds.mpr ⟨n, h.mem, h.needs, rfl⟩

/-- The cell of a node is where the turns of the kinds put it. -/
theorem cell_eq (h : Pending nodes i n) : cell (kindOrder nodes) nodes i n = spot nodes i n := by
  rw [cell, idxOf_columns h.kind]
  rfl

theorem column_eq (h : Pending nodes i n) :
    (spot nodes i n).column = (columns (kindOrder nodes) nodes).idxOf n.kindName :=
  (idxOf_columns h.kind).symm

theorem column_eq_iff (hm : Pending nodes i m) (hn : Pending nodes j n) :
    (spot nodes i m).column = (spot nodes j n).column ↔ m.kindName = n.kindName := by
  rw [hm.column_eq, hn.column_eq]
  exact List.idxOf_inj (mem_columns.mpr hm.kind)

/-- A later node of a kind stands below an earlier one. -/
theorem row_lt (hm : Pending nodes i m) (hij : i < j) (hkind : m.kindName = n.kindName) :
    (spot nodes i m).row < (spot nodes j n).row := by
  have hcount : (nodes.take (i + 1)).countP (isPending n.kindName) =
      (nodes.take i).countP (isPending n.kindName) + 1 := by
    have hpending : isPending n.kindName m = true := by simp [isPending, hkind, hm.needs]
    rw [List.take_add_one, hm.found, List.countP_append]
    simp [hpending]
  show (nodes.take i).countP (isPending m.kindName) < (nodes.take j).countP (isPending n.kindName)
  rw [hkind, ← Nat.succ_le_iff, ← Nat.add_one, ← hcount]
  exact (List.take_sublist_take_left hij).countP_le

theorem place_eq_of_spot_eq (hm : Pending nodes i m) (hn : Pending nodes j n)
    (h : spot nodes i m = spot nodes j n) : i = j := by
  have hkind : m.kindName = n.kindName := (hm.column_eq_iff hn).mp (congrArg Cell.column h)
  have hrow := congrArg Cell.row h
  rcases Nat.lt_trichotomy i j with hlt | heq | hgt
  · have := hm.row_lt hlt hkind
    omega
  · exact heq
  · have := hn.row_lt hgt hkind.symm
    omega

end Pending

theorem column_le (nodes : List FlowNode) (i : Nat) (n : FlowNode) :
    (spot nodes i n).column ≤ nodes.length :=
  calc ((pendingKinds nodes).filter (Before nodes · n.kindName)).card
    _ ≤ (pendingKinds nodes).card := Finset.card_filter_le _ _
    _ ≤ ((nodes.filter FlowNode.needsLayout).map FlowNode.kindName).length := List.toFinset_card_le _
    _ ≤ nodes.length := by
      rw [List.length_map]
      exact List.length_filter_le _ _

theorem row_le (nodes : List FlowNode) (i : Nat) (n : FlowNode) :
    (spot nodes i n).row ≤ nodes.length :=
  List.countP_le_length.trans (List.length_take_le' i nodes)

theorem placeAll_eq (nodes : List FlowNode) :
    placeAll nodes = nodes.mapIdx fun i n =>
      if n.needsLayout then { n with position := some (spot nodes i n).position } else n := by
  rw [placeAll_eq_mapIdx, List.mapIdx_eq_mapIdx_iff]
  intro i hi
  by_cases hneeds : nodes[i].needsLayout = true
  · have hpending : Pending nodes i nodes[i] := ⟨List.getElem?_eq_getElem hi, hneeds⟩
    rw [if_pos hneeds, if_pos hneeds, hpending.cell_eq, settle]
  · rw [if_neg hneeds, if_neg hneeds]

/-- Placing gives each node without a position the cell that its kind and the nodes before it
determine, and changes nothing else. No two get the same cell, and they share a column just when they
are of one kind. Afterwards none is left without a position, so placing again changes nothing. Up to
2 ^ 44 nodes no coordinate is rounded. -/
theorem placeAll_exact (nodes : List FlowNode) :
    (placeAll nodes = nodes.mapIdx fun i n =>
      if n.needsLayout then
        { n with
          position := some ⟨.ofNat (50 + 300 * (spot nodes i n).column),
            .ofNat (50 + 150 * (spot nodes i n).row)⟩ }
      else n) ∧
      (∀ ⦃i j m n⦄, Pending nodes i m → Pending nodes j n →
        ((spot nodes i m).x = (spot nodes j n).x ↔ m.kindName = n.kindName) ∧
          ((spot nodes i m).x = (spot nodes j n).x → (spot nodes i m).y = (spot nodes j n).y →
            i = j)) ∧
      (∀ m ∈ placeAll nodes, m.needsLayout = false) ∧
      placeAll (placeAll nodes) = placeAll nodes ∧
      (nodes.length ≤ 2 ^ 44 → ∀ ⦃i n⦄, Pending nodes i n →
        (Double.ofNat (spot nodes i n).x).Exactly (spot nodes i n).x ∧
          (Double.ofNat (spot nodes i n).y).Exactly (spot nodes i n).y) := by
  have column_of_x {c c' : Cell} (h : c.x = c'.x) : c.column = c'.column := by
    unfold Cell.x at h
    omega
  have row_of_y {c c' : Cell} (h : c.y = c'.y) : c.row = c'.row := by
    unfold Cell.y at h
    omega
  refine ⟨placeAll_eq nodes, fun i j m n hm hn => ⟨⟨fun hx => ?_, fun hkind => ?_⟩, ?_⟩,
    placeAll_placed nodes, placeAll_of_placed (placeAll_placed nodes), ?_⟩
  · exact (hm.column_eq_iff hn).mp (column_of_x hx)
  · rw [Cell.x, Cell.x, (hm.column_eq_iff hn).mpr hkind]
  · intro hx hy
    refine hm.place_eq_of_spot_eq hn ?_
    rw [Cell.mk.injEq]
    exact ⟨column_of_x hx, row_of_y hy⟩
  · intro hlength i n hn
    have hcolumn := column_le nodes i n
    have hrow := row_le nodes i n
    constructor
    · refine Double.exactly_ofNat ?_
      unfold Cell.x
      omega
    · refine Double.exactly_ofNat ?_
      unfold Cell.y
      omega

end Placement

namespace Sample

def memo (id : String) : FlowNode := ⟨id, .unrecognized "memo" .null, none, none⟩

def note (id : String) (p : Position) : FlowNode := ⟨id, .unrecognized "note" .null, some p, none⟩

/-- Two kinds of their own; the one that is seen first stands on a node that has a position. -/
def corkboard : List FlowNode :=
  [note "a" ⟨.ofNat 7, .ofNat 7⟩, memo "b", note "c" ⟨.zero, .zero⟩,
    .ofConfig "d" (.entity .empty), memo "e"]

end Sample

open Sample in
theorem Placement.placeAll_exact_corkboard :
    (placeAll corkboard).map (·.position) =
      [some ⟨.ofNat 7, .ofNat 7⟩, some ⟨.ofNat 650, .ofNat 50⟩, some ⟨.ofNat 350, .ofNat 50⟩,
        some ⟨.ofNat 50, .ofNat 50⟩, some ⟨.ofNat 650, .ofNat 200⟩] ∧
      (spot corkboard 1 (memo "b")).x = (spot corkboard 4 (memo "e")).x ∧
      (Double.ofNat (spot corkboard 4 (memo "e")).y).Exactly (spot corkboard 4 (memo "e")).y ∧
      placeAll (placeAll corkboard) = placeAll corkboard := by
  obtain ⟨hplaced, hspread, -, hagain, hexact⟩ := placeAll_exact corkboard
  have hb : Pending corkboard 1 (memo "b") := ⟨rfl, rfl⟩
  have he : Pending corkboard 4 (memo "e") := ⟨rfl, rfl⟩
  refine ⟨?_, (hspread hb he).1.mpr rfl, (hexact (by decide) he).2, hagain⟩
  rw [hplaced]
  decide +kernel

end ReportFlow
