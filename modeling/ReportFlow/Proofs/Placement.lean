import Mathlib.Data.List.Forall2
import Mathlib.Data.List.Induction
import Mathlib.Data.List.Nodup
import ReportFlow.Placement
import ReportFlow.Proofs.WholeNumber

/-!
What placing the nodes of a flow changes. A turn for a kind leaves the nodes of other kinds alone, so
that over all turns a node goes where its own turn puts it. Only positions change, a node that has a
position keeps it, and no node is left without one.
-/

namespace ReportFlow

/-- Values in the order in which each is first seen. -/
theorem pairwise_eraseDups {α : Type} [DecidableEq α] (p : α → Bool) (l : List α) :
    (l.filter p).eraseDups.Pairwise fun a b => l.idxOf a < l.idxOf b := by
  induction l generalizing p with
  | nil => exact List.Pairwise.nil
  | cons x l ih =>
    have later {a b : α} (ha : a ≠ x) (hb : b ≠ x) (h : l.idxOf a < l.idxOf b) :
        (x :: l).idxOf a < (x :: l).idxOf b := by
      rw [List.idxOf_cons_ne l ha.symm, List.idxOf_cons_ne l hb.symm]
      exact Nat.succ_lt_succ h
    by_cases hx : p x = true
    · rw [List.filter_cons_of_pos hx, List.eraseDups_cons, List.filter_filter]
      have hne {a : α} (ha : a ∈ (l.filter fun a => !a == x && p a).eraseDups) : a ≠ x := by
        have hkept := (List.mem_filter.mp (List.mem_eraseDups.mp ha)).2
        simp only [Bool.and_eq_true, Bool.not_eq_true', beq_eq_false_iff_ne] at hkept
        exact hkept.1
      refine List.pairwise_cons.mpr ⟨?_, (ih _).imp_of_mem fun ha hb => later (hne ha) (hne hb)⟩
      intro b hb
      rw [List.idxOf_cons_self, List.idxOf_cons_ne l (hne hb).symm]
      exact Nat.succ_pos _
    · rw [List.filter_cons_of_neg hx]
      have hne {a : α} (ha : a ∈ (l.filter p).eraseDups) : a ≠ x := by
        rintro rfl
        exact hx (List.mem_filter.mp (List.mem_eraseDups.mp ha)).2
      exact (ih p).imp_of_mem fun ha hb => later (hne ha) (hne hb)

theorem forall₂_mapIdx {α β : Type} {r : α → β → Prop} {f : Nat → α → β} {l : List α}
    (h : ∀ i, ∀ a ∈ l, r a (f i a)) : List.Forall₂ r l (l.mapIdx f) := by
  induction l generalizing f with
  | nil => exact .nil
  | cons a l ih =>
    rw [List.mapIdx_cons]
    apply List.Forall₂.cons (h 0 a List.mem_cons_self)
    apply ih
    intro i b hb
    exact h (i + 1) b (List.mem_cons_of_mem a hb)

theorem mapIdx_eq_self {α : Type} {f : Nat → α → α} {l : List α} (h : ∀ i, ∀ a ∈ l, f i a = a) :
    l.mapIdx f = l := by
  apply List.ext_getElem?
  intro i
  rw [List.getElem?_mapIdx]
  cases ha : l[i]? with
  | none => rfl
  | some a => rw [Option.map_some, h i a (List.mem_of_getElem? ha)]

/-- A cell of the grid is never the origin, as its column already lies off it. -/
theorem Cell.position_not_origin (c : Cell) : c.position.isOrigin = false := by
  have hx : (Double.ofNat c.x).isZero = false :=
    Double.isZero_ofNat (Nat.lt_of_lt_of_le (by decide) (Nat.le_add_right 50 _))
  simp [Cell.position, Position.isOrigin, hx]

namespace Placement

theorem needsLayout_settle (cell : Cell) (n : FlowNode) : (settle cell n).needsLayout = false :=
  cell.position_not_origin

theorem isPending_settle (kind : String) (cell : Cell) (n : FlowNode) :
    isPending kind (settle cell n) = false := by
  rw [isPending, needsLayout_settle, Bool.and_false]

theorem isPending_iff {kind : String} {n : FlowNode} :
    isPending kind n = true ↔ n.kindName = kind ∧ n.needsLayout = true := by
  rw [isPending, Bool.and_eq_true, beq_iff_eq]

/-! ## One kind -/

theorem modify_append (before : List FlowNode) (n : FlowNode) (rest : List FlowNode)
    (f : FlowNode → FlowNode) :
    (before ++ n :: rest).modify before.length f = before ++ f n :: rest := by
  induction before with
  | nil => rfl
  | cons m before ih => exact congrArg (m :: ·) ih

/-- The nodes in `before` have been passed, and the column is filled up to the row. -/
theorem fillColumn_behind (kind : String) (column row : Nat) (before rest : List FlowNode) :
    ((((rest.zipIdx before.length).filter fun entry => isPending kind entry.1).map (·.2)).zipIdx
        row).foldl (fun nodes (place, row) => nodes.modify place (settle ⟨column, row⟩))
        (before ++ rest) =
      before ++ rest.mapIdx fun i n =>
        if isPending kind n then settle ⟨column, row + (rest.take i).countP (isPending kind)⟩ n
        else n := by
  induction rest generalizing before row with
  | nil => rfl
  | cons n rest ih =>
    have hplace (m : FlowNode) : before.length + 1 = (before ++ [m]).length := by
      rw [List.length_append, List.length_singleton]
    rw [List.zipIdx_cons, List.mapIdx_cons]
    simp only [List.take_succ_cons, List.countP_cons, List.take_zero, List.countP_nil, Nat.add_zero]
    by_cases hn : isPending kind n = true
    · simp only [List.filter_cons, hn, if_true, List.map_cons, List.zipIdx_cons, List.foldl_cons]
      rw [modify_append, List.append_cons, hplace (settle ⟨column, row⟩ n), ih, List.append_assoc]
      simp only [List.cons_append, List.nil_append, Nat.add_assoc, Nat.add_comm 1]
    · simp only [List.filter_cons, hn, Bool.false_eq_true, if_false, Nat.add_zero]
      rw [List.append_cons, hplace n, ih, List.append_assoc]
      rfl

/-- After its turn a kind has a column in which each of its nodes stands below those before it. -/
theorem fillColumn_eq (column : Nat) (kind : String) (nodes : List FlowNode) :
    fillColumn column nodes (pendingPlaces kind nodes) = nodes.mapIdx fun i n =>
      if isPending kind n then settle ⟨column, (nodes.take i).countP (isPending kind)⟩ n else n := by
  have h := fillColumn_behind kind column 0 [] nodes
  simp only [List.nil_append, Nat.zero_add] at h
  exact h

theorem pendingPlaces_eq_nil_iff {kind : String} {nodes : List FlowNode} :
    pendingPlaces kind nodes = [] ↔ nodes.any (isPending kind) = false := by
  rw [pendingPlaces, List.map_eq_nil_iff, List.filter_eq_nil_iff, List.any_eq_false]
  constructor
  · intro h n hn
    obtain ⟨i, hi⟩ := List.mem_iff_getElem?.mp hn
    exact h (n, i) (List.mk_mem_zipIdx_iff_getElem?.mpr hi)
  · rintro h ⟨n, i⟩ hentry
    exact h n (List.fst_mem_of_mem_zipIdx hentry)

theorem placeKind_eq (nodes : List FlowNode) (column : Nat) (kind : String) :
    placeKind nodes column kind = (fillColumn column nodes (pendingPlaces kind nodes),
      if nodes.any (isPending kind) then column + 1 else column) := by
  unfold placeKind
  split
  next hnone =>
    rw [hnone, if_neg (by simp [pendingPlaces_eq_nil_iff.mp hnone])]
    rfl
  next hsome =>
    have hany : nodes.any (isPending kind) = true := by
      rw [← Bool.not_eq_false]
      exact mt pendingPlaces_eq_nil_iff.mpr hsome
    rw [if_pos hany]

/-! ## All kinds -/

def columns (kinds : List String) (nodes : List FlowNode) : List String :=
  kinds.filter fun kind => nodes.any (isPending kind)

def cell (kinds : List String) (nodes : List FlowNode) (i : Nat) (n : FlowNode) : Cell where
  column := (columns kinds nodes).idxOf n.kindName
  row := (nodes.take i).countP (isPending n.kindName)

def turned (kinds : List String) (nodes : List FlowNode) (i : Nat) (n : FlowNode) : FlowNode :=
  if n.needsLayout = true ∧ n.kindName ∈ kinds then settle (cell kinds nodes i n) n else n

/-- What the turns of these kinds come to, with the next free column. -/
def afterTurns (kinds : List String) (nodes : List FlowNode) : List FlowNode × Nat :=
  (nodes.mapIdx (turned kinds nodes), (columns kinds nodes).length)

theorem turned_of_placed {n : FlowNode} (h : ¬ n.needsLayout = true) (kinds : List String)
    (nodes : List FlowNode) (i : Nat) : turned kinds nodes i n = n :=
  if_neg fun hn => h hn.1

theorem turned_of_notMem {kinds : List String} {n : FlowNode} (h : n.kindName ∉ kinds)
    (nodes : List FlowNode) (i : Nat) : turned kinds nodes i n = n :=
  if_neg fun hn => h hn.2

theorem turned_of_mem {kinds : List String} {n : FlowNode} (hneeds : n.needsLayout = true)
    (h : n.kindName ∈ kinds) (nodes : List FlowNode) (i : Nat) :
    turned kinds nodes i n = settle (cell kinds nodes i n) n :=
  if_pos ⟨hneeds, h⟩

theorem mem_columns_of_mem {kinds : List String} {nodes : List FlowNode} {n : FlowNode}
    (hn : n ∈ nodes) (hneeds : n.needsLayout = true) (hkind : n.kindName ∈ kinds) :
    n.kindName ∈ columns kinds nodes := by
  apply List.mem_filter.mpr
  exact ⟨hkind, List.any_eq_true.mpr ⟨n, hn, isPending_iff.mpr ⟨rfl, hneeds⟩⟩⟩

/-- A kind that has had no turn has all its nodes still to be placed. -/
theorem map_isPending_afterTurns {kinds : List String} {kind : String} (h : kind ∉ kinds)
    (nodes : List FlowNode) :
    (afterTurns kinds nodes).1.map (isPending kind) = nodes.map (isPending kind) := by
  apply List.ext_getElem?
  intro i
  rw [afterTurns, List.getElem?_map, List.getElem?_map, List.getElem?_mapIdx, Option.map_map]
  apply Option.map_congr
  intro n _
  rw [Function.comp_apply, turned]
  split
  next hn =>
    have hother : n.kindName ≠ kind := fun heq => h (heq ▸ hn.2)
    rw [isPending_settle]
    exact (Bool.eq_false_iff.mpr fun hpending => hother (isPending_iff.mp hpending).1).symm
  next => rfl

theorem any_isPending_afterTurns {kinds : List String} {kind : String} (h : kind ∉ kinds)
    (nodes : List FlowNode) :
    (afterTurns kinds nodes).1.any (isPending kind) = nodes.any (isPending kind) := by
  have hmap := congrArg (List.any · id) (map_isPending_afterTurns h nodes)
  simp only [List.any_map, Function.id_comp] at hmap
  exact hmap

theorem countP_isPending_afterTurns {kinds : List String} {kind : String} (h : kind ∉ kinds)
    (nodes : List FlowNode) (i : Nat) :
    ((afterTurns kinds nodes).1.take i).countP (isPending kind) =
      (nodes.take i).countP (isPending kind) := by
  have hmap := congrArg (fun marks => (marks.take i).countP id) (map_isPending_afterTurns h nodes)
  simp only [← List.map_take, List.countP_map, Function.id_comp] at hmap
  exact hmap

theorem columns_snoc (kinds : List String) (kind : String) (nodes : List FlowNode) :
    columns (kinds ++ [kind]) nodes =
      columns kinds nodes ++ if nodes.any (isPending kind) then [kind] else [] := by
  rw [columns, List.filter_append, List.filter_singleton, Bool.cond_eq_ite]
  rfl

/-- What one more turn does to a node. -/
theorem turned_snoc {kinds : List String} {kind : String} (h : kind ∉ kinds)
    {nodes : List FlowNode} {n : FlowNode} (hn : n ∈ nodes) (i : Nat) :
    (if isPending kind (turned kinds nodes i n) then
        settle ⟨(columns kinds nodes).length, (nodes.take i).countP (isPending kind)⟩
          (turned kinds nodes i n)
      else turned kinds nodes i n) = turned (kinds ++ [kind]) nodes i n := by
  have hfresh : kind ∉ columns kinds nodes := fun hmem => h (List.mem_filter.mp hmem).1
  by_cases hneeds : n.needsLayout = true
  · by_cases hdone : n.kindName ∈ kinds
    · -- The node had its turn, and later columns do not move its own.
      have hcolumn : n.kindName ∈ columns kinds nodes := mem_columns_of_mem hn hneeds hdone
      rw [turned_of_mem hneeds hdone, turned_of_mem hneeds (List.mem_append_left _ hdone),
        isPending_settle, cell, cell, columns_snoc, List.idxOf_append_of_mem hcolumn]
      rfl
    · rw [turned_of_notMem hdone]
      by_cases hkind : n.kindName = kind
      · have hpending : isPending kind n = true := isPending_iff.mpr ⟨hkind, hneeds⟩
        have hany : nodes.any (isPending kind) = true := List.any_eq_true.mpr ⟨n, hn, hpending⟩
        rw [if_pos hpending, turned_of_mem hneeds (by simp [hkind]), cell, columns_snoc,
          if_pos hany, hkind, List.idxOf_append_of_notMem hfresh, List.idxOf_cons_self,
          Nat.add_zero]
      · rw [if_neg fun hpending => hkind (isPending_iff.mp hpending).1,
          turned_of_notMem (by simp [hdone, hkind])]
  · rw [turned_of_placed hneeds, turned_of_placed hneeds,
      if_neg fun hpending => hneeds (isPending_iff.mp hpending).2]

theorem placeKind_afterTurns {kinds : List String} {kind : String} (h : kind ∉ kinds)
    (nodes : List FlowNode) :
    placeKind (afterTurns kinds nodes).1 (afterTurns kinds nodes).2 kind =
      afterTurns (kinds ++ [kind]) nodes := by
  rw [placeKind_eq, fillColumn_eq, any_isPending_afterTurns h]
  simp only [countP_isPending_afterTurns h]
  apply Prod.ext
  · simp only [afterTurns]
    rw [List.mapIdx_mapIdx, List.mapIdx_eq_mapIdx_iff]
    intro i hi
    exact turned_snoc h (List.getElem_mem hi) i
  · simp only [afterTurns, columns_snoc, List.length_append]
    split <;> rfl

theorem foldl_placeKind {kinds : List String} (h : kinds.Nodup) (nodes : List FlowNode) :
    kinds.foldl (fun (nodes, column) kind => placeKind nodes column kind) (nodes, 0) =
      afterTurns kinds nodes := by
  induction kinds using List.reverseRecOn with
  | nil =>
    have hnone : nodes.mapIdx (turned [] nodes) = nodes :=
      mapIdx_eq_self fun i n _ => turned_of_notMem List.not_mem_nil nodes i
    rw [afterTurns, hnone]
    rfl
  | append_singleton kinds kind ih =>
    obtain ⟨hkinds, -, hdisjoint⟩ := List.nodup_append.mp h
    have hkind : kind ∉ kinds := fun hmem => hdisjoint kind hmem kind List.mem_cons_self rfl
    rw [List.foldl_append, ih hkinds]
    exact placeKind_afterTurns hkind nodes

theorem nodup_kindOrder (nodes : List FlowNode) : (kindOrder nodes).Nodup := by
  apply List.nodup_append.mpr
  refine ⟨by decide, (pairwise_eraseDups _ _).imp fun hlt heq => ?_, ?_⟩
  · rw [heq] at hlt
    exact Nat.lt_irrefl _ hlt
  · rintro kind hkind other hother rfl
    have hout := (List.mem_filter.mp (List.mem_eraseDups.mp hother)).2
    exact of_decide_eq_true hout hkind

theorem mem_kindOrder {nodes : List FlowNode} {n : FlowNode} (h : n ∈ nodes) :
    n.kindName ∈ kindOrder nodes := by
  rw [kindOrder, List.mem_append, List.mem_eraseDups, List.mem_filter, decide_eq_true_iff]
  by_cases hk : n.kindName ∈ pipeline
  · exact .inl hk
  · exact .inr ⟨List.mem_map_of_mem h, hk⟩

/-- Over all turns each node that is to be placed gets the cell that its own turn gives it. -/
theorem placeAll_eq_mapIdx (nodes : List FlowNode) :
    placeAll nodes = nodes.mapIdx fun i n =>
      if n.needsLayout then settle (cell (kindOrder nodes) nodes i n) n else n := by
  rw [placeAll, foldl_placeKind (nodup_kindOrder nodes), afterTurns, List.mapIdx_eq_mapIdx_iff]
  intro i hi
  by_cases hneeds : nodes[i].needsLayout = true
  · rw [if_pos hneeds, turned_of_mem hneeds (mem_kindOrder (List.getElem_mem hi))]
  · rw [if_neg hneeds, turned_of_placed hneeds]

structure Moved (n m : FlowNode) : Prop where
  id : m.id = n.id
  config : m.config = n.config
  label : m.label = n.label
  stays : n.needsLayout = false → m.position = n.position

theorem placeAll_moved (nodes : List FlowNode) : List.Forall₂ Moved nodes (placeAll nodes) := by
  rw [placeAll_eq_mapIdx]
  apply forall₂_mapIdx
  intro i n _
  by_cases hn : n.needsLayout = true
  · rw [if_pos hn]
    exact ⟨rfl, rfl, rfl, fun h => by rw [h] at hn; contradiction⟩
  · rw [if_neg hn]
    exact ⟨rfl, rfl, rfl, fun _ => rfl⟩

theorem placeAll_of_placed {nodes : List FlowNode} (h : ∀ n ∈ nodes, n.needsLayout = false) :
    placeAll nodes = nodes := by
  rw [placeAll_eq_mapIdx]
  apply mapIdx_eq_self
  intro i n hn
  rw [h n hn]
  rfl

theorem placeAll_placed (nodes : List FlowNode) : ∀ n ∈ placeAll nodes, n.needsLayout = false := by
  intro m hm
  rw [placeAll_eq_mapIdx] at hm
  obtain ⟨i, hi, rfl⟩ := List.mem_mapIdx.mp hm
  by_cases hn : nodes[i].needsLayout = true
  · rw [if_pos hn]
    exact needsLayout_settle _ _
  · rw [if_neg hn]
    exact Bool.eq_false_iff.mpr hn

end Placement

end ReportFlow
