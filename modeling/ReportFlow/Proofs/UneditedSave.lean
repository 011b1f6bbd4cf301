import ReportFlow.Proofs.ReopenedGraph

/-!
A definition that is opened and saved without an edit: what its nodes still ask for, compared with
the nodes at the same places before.
-/

namespace ReportFlow

namespace FilterData

def topLevel (d : FilterData) : List Condition := d.conditions.map (·.condition)

/-- The groups without captions; a filter may be stored without any list of groups. -/
def grouped (d : FilterData) : List (Group Condition) :=
  (d.groups.getD []).map (·.map (·.condition))

theorem topLevel_canonical (d : FilterData) : d.canonical.topLevel = d.topLevel := by
  simp [topLevel, canonical, Function.comp_def]

theorem grouped_canonical (d : FilterData) : d.canonical.grouped = d.grouped := by
  simp [grouped, canonical, Function.comp_def]

end FilterData

/-- A node before and after the save. A filter selects by the same conditions and groups, all of
which have to hold now. -/
structure ReportNode.KeepsFilter (n m : ReportNode) : Prop where
  id : m.id = n.id
  kind : m.data.kind = n.data.kind
  logic : ∀ d, m.data = .filter d → d.logic = .all
  topLevel : ∀ d d', n.data = .filter d → m.data = .filter d' → d'.topLevel = d.topLevel
  grouped : ∀ d d', n.data = .filter d → m.data = .filter d' → d'.grouped = d.grouped

/-- A row cap before and after the save. A number stays, and a reference is left with what an editor
shows for it. -/
def RowCap.Keeps (top top' : Option RowCap) : Prop :=
  top' = top ∨ ∃ reference, top = some (.parameter reference) ∧
    top' = (RowCap.parameter reference).editable?.map .literal

theorem RowCap.keeps_canonical (top : Option RowCap) :
    RowCap.Keeps top (top.bind RowCap.canonical?) := by
  rcases top with _ | n | reference
  · exact .inl rfl
  · exact .inl rfl
  · exact .inr ⟨reference, rfl, rfl⟩

/-- A policy of a link before and after the save. Its output goes by the alias of the link now. -/
structure ManyPolicy.Keeps (aliasName : String) (p p' : ManyPolicy) : Prop where
  kind : p'.policy.kind = p.policy.kind
  field : p'.policy.field = p.policy.field
  delimiter : p'.policy.delimiter = p.policy.delimiter
  orderBy : p'.policy.orderBy = p.policy.orderBy
  top : RowCap.Keeps p.policy.top p'.policy.top
  measures : p'.policy.measures = p.policy.measures
  groupBy : p'.policy.groupBy = p.policy.groupBy
  sheetName : p'.policy.sheetName = p.policy.sheetName
  columns : p'.policy.columns = p.policy.columns
  outputAlias : p'.outputAlias = some aliasName

theorem ManyPolicy.keeps_canonical (aliasName : String) (p : ManyPolicy) :
    ManyPolicy.Keeps aliasName p (p.canonical aliasName) :=
  ⟨rfl, rfl, rfl, rfl, RowCap.keeps_canonical p.policy.top, rfl, rfl, rfl, rfl, rfl⟩

namespace LinkData

/-- The filters on the children, without captions; a link may be stored without any list of them. -/
def childConditions (d : LinkData) : List Condition := (d.childFilters.getD []).map (·.condition)

/-- The order of the children; a link may be stored without any list of keys. -/
def childOrder (d : LinkData) : List SortKey := d.childOrderBy.getD []

structure Keeps (d d' : LinkData) : Prop where
  relation : d'.relation = d.relation
  joinType : d'.joinType = d.joinType
  aliasName : d'.aliasName = d.aliasName
  childTop : d'.childTop = d.childTop
  childFields : d'.childFields = d.childFields
  childConditions : d'.childConditions = d.childConditions
  childOrder : d'.childOrder = d.childOrder
  policy : Option.Rel (ManyPolicy.Keeps d.aliasName) d.manyPolicy d'.manyPolicy

theorem childConditions_canonical (d : LinkData) :
    d.canonical.childConditions = d.childConditions := by
  simp [childConditions, canonical, Function.comp_def]

theorem keeps_canonical (d : LinkData) : d.Keeps d.canonical := by
  refine ⟨rfl, rfl, rfl, rfl, rfl, d.childConditions_canonical, rfl, ?_⟩
  change Option.Rel _ d.manyPolicy (d.manyPolicy.map _)
  cases d.manyPolicy with
  | none => exact .none
  | some p => exact .some (p.keeps_canonical d.aliasName)

end LinkData

theorem NodeData.kind_canonical (data : NodeData) : data.canonical.kind = data.kind := by
  cases data <;> rfl

namespace Compilation

open Reopening

theorem keepsFilter_of_settles {n m : ReportNode} (h : Settles n m) : n.KeepsFilter m := by
  have hfilter {d : FilterData} {d' : FilterData} (hn : n.data = .filter d)
      (hm : m.data = .filter d') : d' = d.canonical := by
    rw [h.data, hn] at hm
    exact (NodeData.filter.inj hm).symm
  have hkind : m.data.kind = n.data.kind := by rw [h.data, NodeData.kind_canonical]
  refine ⟨h.id, hkind, ?_, ?_, ?_⟩
  · intro d' hm
    cases hn : n.data with
    | filter d => rw [hfilter hn hm]; rfl
    | _ => rw [h.data, hn] at hm; cases hm
  · intro d d' hn hm
    rw [hfilter hn hm, FilterData.topLevel_canonical]
  · intro d d' hn hm
    rw [hfilter hn hm, FilterData.grouped_canonical]

/-- An unedited save keeps the conditions and groups of every filter. The logic between them is
kept only where it is `all`: an editor has no place for another. -/
theorem recompile_keeps_filters {d : Definition} {g : Flow} (h : d.reopen = .ok g) (s : Sources) :
    List.Forall₂ ReportNode.KeepsFilter d.graph.nodes (g.recompile d s).definition.graph.nodes :=
  (graph_nodes_of_reopen h).imp fun _ _ => keepsFilter_of_settles

theorem recompile_sample_keeps_filters :
    ∃ g, Sample.definition.reopen = .ok g ∧
      List.Forall₂ ReportNode.KeepsFilter Sample.definition.graph.nodes
        (g.recompile Sample.definition Sample.sources).definition.graph.nodes := by
  obtain ⟨g, h⟩ := Sample.exists_reopen
  exact ⟨g, h, recompile_keeps_filters h Sample.sources⟩

end Compilation

namespace Sample

def eitherOne : FilterData := { activeOnes with logic := .any }

def filtered : Definition :=
  { definition with graph := ⟨[node "n_filter" 350 50 (.filter eitherOne)], []⟩ }

end Sample

theorem Compilation.counterexample_filter_logic :
    ∃ g, Sample.filtered.reopen = .ok g ∧
      ¬ List.Forall₂ (fun n m => ∀ d d', n.data = .filter d → m.data = .filter d' →
          d'.logic = d.logic)
        Sample.filtered.graph.nodes (g.recompile Sample.filtered Sample.sources).definition.graph.nodes := by
  obtain ⟨g, h⟩ := Reopening.exists_reopen (d := Sample.filtered) (by decide)
  refine ⟨g, h, fun hlogic => ?_⟩
  have hnodes : List.Forall₂ Settles Sample.filtered.graph.nodes
      (g.recompile Sample.filtered Sample.sources).definition.graph.nodes := graph_nodes_of_reopen h
  generalize (g.recompile Sample.filtered Sample.sources).definition.graph.nodes = saved
    at hnodes hlogic
  cases hnodes with
  | cons hn _ =>
    cases hlogic with
    | cons hl _ => cases hl _ _ rfl hn.data

end ReportFlow
