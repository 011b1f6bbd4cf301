import ReportFlow.Proofs.ReopenedGraph

/-!
Compiling a flow and reopening the result. What comes back is the flow with its unset settings
filled in, less the nodes of the kinds that are not compiled. Compiling that flow once more gives
the same graph, except that each policy is then known by the alias of its link.
-/

namespace ReportFlow

def EntityConfig.filledIn (c : EntityConfig) : EntityConfig :=
  { c with
    entity := some (c.entity.getD "unknown")
    attributes := some (c.attributes.getD [])
    orderBy := some (c.orderBy.getD [])
    timezone := some (c.timezone.getD .user) }

def FilterConfig.filledIn (c : FilterConfig) : FilterConfig where
  conditions := some (c.conditions.getD [])
  groups := some (c.groups.getD [])

/-- Of the child filters one group is left, which joins the conditions of the first one. -/
def LinkConfig.filledIn (c : LinkConfig) : LinkConfig :=
  { c with
    aliasName := some (c.aliasName.getD "linked")
    joinType := some (c.joinType.getD .outer)
    childFilters := some [⟨.all, ((c.childFilters.getD []).head?.map (·.conditions)).getD []⟩]
    childSort := some (c.childSort.getD [])
    childFields := some (c.childFields.getD []) }

def TransformConfig.filledIn (c : TransformConfig) : TransformConfig where
  expressions := some (c.expressions.getD [])

def ColumnConfig.filledIn (c : ColumnConfig) : ColumnConfig :=
  { c with
    title := some (c.title.getD c.key)
    format := some (c.format.getD .text) }

def FreezeConfig.filledIn (f : FreezeConfig) : FreezeConfig where
  firstRow := some (f.firstRow.getD false)
  firstColumns := some (f.firstColumns.getD 0)

def SheetConfig.filledIn (c : SheetConfig) : SheetConfig :=
  { c with
    name := some (c.name.getD "Unnamed Sheet")
    mode := some (c.mode.getD .main)
    parentKey := none
    columns := some ((c.columns.getD []).map (·.filledIn))
    freeze := c.freeze.map (·.filledIn) }

def ExportConfig.filledIn (c : ExportConfig) : ExportConfig where
  format := some (match c.format with
    | none | some .pdf => .xlsx
    | some format => format)
  layout := some (c.layout.getD .singleSheet)
  fileName := some (c.fileName.getD "Report_\x7byyyyMMdd\x7d.xlsx")

namespace NodeConfig

def filledIn : NodeConfig → NodeConfig
  | entity c => entity c.filledIn
  | filter c => filter c.filledIn
  | link c => link c.filledIn
  | transform c => transform c.filledIn
  | sheet c => sheet c.filledIn
  | output c => output c.filledIn
  | c => c

def isCompiled : NodeConfig → Bool
  | entity _ | filter _ | link _ | transform _ | sheet _ | output _ => true
  | aggregate _ | concatenate _ | pivot _ | unrecognized _ _ => false

def isRelated : NodeConfig → Bool
  | link c => c.relation.isSome
  | _ => true

end NodeConfig

def FlowNode.isCompiled (n : FlowNode) : Bool := n.config.isCompiled

def NodeData.aliased : NodeData → NodeData
  | .link d => .link { d with
      manyPolicy := d.manyPolicy.map fun p => { p with outputAlias := some d.aliasName } }
  | d => d

def ReportNode.aliased (n : ReportNode) : ReportNode := { n with data := n.data.aliased }

def StoredGraph.aliased (s : StoredGraph) : StoredGraph :=
  { s with nodes := s.nodes.map (·.aliased) }

@[simp] theorem Group.map_id {α : Type} (g : Group α) : (g.map fun x => x) = g := by
  simp [Group.map]

namespace Compilation

theorem isSome_nodeData? (c : NodeConfig) : (nodeData? c).isSome = c.isCompiled := by
  cases c <;> rfl

theorem isRelated_of_nodeData? {c : NodeConfig} {data : NodeData} (h : nodeData? c = some data) :
    data.isRelated = c.isRelated := by
  cases c <;> cases h <;> rfl

theorem kindName_of_nodeData? {c : NodeConfig} {data : NodeData} (h : nodeData? c = some data) :
    data.kindName = c.kindName := by
  cases c <;> cases h <;> rfl

theorem node?_eq_none_iff {n : FlowNode} : node? n = none ↔ n.isCompiled = false := by
  rw [FlowNode.isCompiled, ← isSome_nodeData?]
  simp [node?]

theorem isCompiled_of_node? {n : FlowNode} {r : ReportNode} (h : node? n = some r) :
    n.isCompiled = true := by
  rw [← Bool.not_eq_false, ← node?_eq_none_iff, h]
  exact Option.some_ne_none r

theorem filterMap_node? (nodes : List FlowNode) :
    (nodes.filter FlowNode.isCompiled).filterMap node? = nodes.filterMap node? := by
  rw [List.filterMap_filter]
  refine List.filterMap_congr fun n _ => ?_
  by_cases hn : n.isCompiled = true
  · rw [if_pos hn]
  · rw [if_neg hn, node?_eq_none_iff.mpr (by simpa using hn)]

end Compilation

namespace Reopening

open Compilation

/-! ## Reopening fills in what was unset -/

theorem filterConfig_filterData (c : FilterConfig) : filterConfig (filterData c) = c.filledIn := by
  simp [filterConfig, filterData, FilterConfig.filledIn, captioned, Function.comp_def]

theorem linkConfig_linkData {c : LinkConfig} {relation : Relation} (h : c.relation = some relation) :
    linkConfig relation (linkData c) = c.filledIn := by
  have hfilters : (childFilters (c.childFilters.getD [])).map (·.condition) =
      ((c.childFilters.getD []).head?.map (·.conditions)).getD [] := by
    cases c.childFilters.getD [] with
    | nil => rfl
    | cons group rest => simp [childFilters, uncaptioned, Function.comp_def]
  have htop (top : Option UInt32) : (top.map RowCap.literal).bind RowCap.editable? = top := by
    cases top <;> rfl
  simp [linkConfig, linkData, LinkConfig.filledIn, defaultAlias, hfilters, manyPolicy,
    Policy.withTop, htop, Function.comp_def, h]

theorem columnConfig_sheetColumn (c : ColumnConfig) :
    columnConfig (sheetColumn c) = c.filledIn := by
  have hformat (format : EditorFormat) : editorFormat (columnFormat format) = format := by
    cases format <;> rfl
  simp [columnConfig, sheetColumn, ColumnConfig.filledIn, hformat]

theorem freeze_sheetFreeze (f : FreezeConfig) :
    (⟨some (decide (0 < (sheetFreeze f).rows.getD 0)), (sheetFreeze f).columns⟩ : FreezeConfig) =
      f.filledIn := by
  rcases f with ⟨firstRow, firstColumns⟩
  rcases firstRow with _ | first
  · rfl
  · cases first <;> rfl

theorem sheetConfig_sheetData (c : SheetConfig) : sheetConfig (sheetData c) = c.filledIn := by
  have hmode (mode : EditorSheetMode) : editorSheetMode (sheetMode mode) = mode := by
    cases mode <;> rfl
  have hlinks : (c.hyperlinks.map fun links => (⟨some links⟩ : SheetHyperlinks)).bind
      (·.childSheetLinks) = c.hyperlinks := by
    cases c.hyperlinks <;> rfl
  simp [sheetConfig, sheetData, SheetConfig.filledIn, defaultSheetName, hmode, hlinks, sheetStyles,
    columnConfig_sheetColumn, freeze_sheetFreeze, Function.comp_def]

theorem exportConfig_exportData (c : ExportConfig) : exportConfig (exportData c) = c.filledIn := by
  rcases c with ⟨_ | format, layout, fileName⟩
  · rfl
  · cases format <;> rfl

theorem eq_filledIn_of_opens {c c' : NodeConfig} {data : NodeData} (hd : nodeData? c = some data)
    (ho : Opens data c') : c' = c.filledIn := by
  cases c with
  | entity c => cases hd; cases ho; rfl
  | filter c => cases hd; cases ho; exact congrArg NodeConfig.filter (filterConfig_filterData c)
  | link c =>
    cases hd
    cases ho with
    | link _ relation hr => exact congrArg NodeConfig.link (linkConfig_linkData hr)
  | transform c => cases hd; cases ho; rfl
  | sheet c => cases hd; cases ho; exact congrArg NodeConfig.sheet (sheetConfig_sheetData c)
  | output c => cases hd; cases ho; exact congrArg NodeConfig.output (exportConfig_exportData c)
  | aggregate _ | concatenate _ | pivot _ | unrecognized _ _ => cases hd

structure Kept (n m : FlowNode) : Prop where
  id : m.id = n.id
  config : m.config = n.config.filledIn
  stays : n.needsLayout = false → m.position = n.position

theorem kept_of_shown {n : FlowNode} {r : ReportNode} {m : FlowNode} (hn : node? n = some r)
    (h : Shown r m) : Kept n m := by
  obtain ⟨data, hd, rfl⟩ := Option.map_eq_some_iff.mp hn
  exact ⟨h.id, eq_filledIn_of_opens hd h.opens, h.stays⟩

theorem kept_of_reopen {g : Flow} {d : Definition} {g' : Flow} (hd : d.graph = graph g)
    (h : d.reopen = .ok g') :
    List.Forall₂ Kept (g.nodes.filter FlowNode.isCompiled) g'.nodes := by
  have hshown := reopen_nodes h
  rw [hd, graph] at hshown
  generalize g'.nodes = shown at hshown
  generalize g.nodes = nodes at hshown
  induction nodes generalizing shown with
  | nil => cases hshown; exact .nil
  | cons n rest ih =>
    cases hn : node? n with
    | none =>
      rw [List.filterMap_cons_none hn] at hshown
      rw [List.filter_cons_of_neg (by simp [node?_eq_none_iff.mp hn])]
      exact ih shown hshown
    | some r =>
      rw [List.filterMap_cons_some hn] at hshown
      rw [List.filter_cons_of_pos (isCompiled_of_node? hn)]
      cases hshown with
      | cons hr hrest => exact .cons (kept_of_shown hn hr) (ih _ hrest)

theorem edges_of_reopen {g : Flow} {d : Definition} {g' : Flow} (hd : d.graph = graph g)
    (h : d.reopen = .ok g') : g'.edges = g.edges := by
  rw [reopen_edges h, hd, graph, List.map_map]
  exact List.map_id g.edges

theorem exists_reopen_of_related {g : Flow} {d : Definition} (hd : d.graph = graph g)
    (h : ∀ n ∈ g.nodes, n.config.isRelated = true) : ∃ g', d.reopen = .ok g' := by
  refine exists_reopen fun r hr => ?_
  rw [hd] at hr
  obtain ⟨n, hn, hr⟩ := List.mem_filterMap.mp hr
  obtain ⟨data, hdata, rfl⟩ := Option.map_eq_some_iff.mp hr
  exact (isRelated_of_nodeData? hdata).trans (h n hn)

/-- Saving and reopening loses no edit: the settings come back with nothing changed but what was
left unset, and only the kinds that are not compiled are gone. -/
theorem reopen_compile (g : Flow) (prior : Option Prior) (sources : Sources)
    (h : ∀ n ∈ g.nodes, n.config.isRelated = true) :
    ∃ g', (g.compile prior sources).definition.reopen = .ok g' ∧ g'.edges = g.edges ∧
      List.Forall₂ Kept (g.nodes.filter FlowNode.isCompiled) g'.nodes := by
  obtain ⟨g', hg⟩ :=
    exists_reopen_of_related (d := (g.compile prior sources).definition) rfl h
  exact ⟨g', hg, edges_of_reopen rfl hg, kept_of_reopen rfl hg⟩

end Reopening

namespace Sample

def unnamedLink : LinkConfig :=
  { LinkConfig.empty with
    relation := some organizations
    policy := some ((policy .concat).withTop none) }

def draft : Flow where
  nodes :=
    [⟨"employees", .entity .empty, some (Cell.position ⟨0, 0⟩), none⟩,
      .ofConfig "totals" (.aggregate .empty),
      ⟨"orgs", .link unnamedLink, some (Cell.position ⟨1, 0⟩), none⟩]
  edges := [.between "employees" "totals", .between "employees" "orgs"]

theorem draft_related : ∀ n ∈ draft.nodes, n.config.isRelated = true := by decide

theorem draft_placed : ∀ n ∈ draft.nodes, n.isCompiled = true → n.needsLayout = false := by
  intro n hn hc
  simp only [draft, List.mem_cons, List.not_mem_nil, or_false] at hn
  rcases hn with rfl | rfl | rfl
  · exact Cell.position_not_origin ⟨0, 0⟩
  · cases hc
  · exact Cell.position_not_origin ⟨1, 0⟩

end Sample

theorem Reopening.reopen_compile_draft :
    (∀ n ∈ Sample.draft.nodes, n.config.isRelated = true) ∧
      ∃ g', (Sample.draft.compile none Sample.sources).definition.reopen = .ok g' ∧
        g'.edges = Sample.draft.edges ∧
        g'.nodes.map (·.config) =
          [.entity ⟨some "unknown", some [], some [], some .user, none⟩,
            .link { Sample.unnamedLink with
              aliasName := some "linked"
              joinType := some .outer
              childFilters := some [⟨.all, []⟩]
              childSort := some []
              childFields := some [] }] := by
  refine ⟨Sample.draft_related, ?_⟩
  obtain ⟨g', hg, he, hk⟩ := reopen_compile Sample.draft none Sample.sources Sample.draft_related
  refine ⟨g', hg, he, ?_⟩
  have hconfig : g'.nodes.map (·.config) =
      (Sample.draft.nodes.filter FlowNode.isCompiled).map (·.config.filledIn) :=
    eq_map_of_forall₂ (List.forall₂_map_right_iff.mpr (hk.imp fun n m hn => hn.config))
  rw [hconfig]
  rfl

namespace Compilation

open Reopening

/-! ## Compiling what was reopened -/

theorem linkData_filledIn (c : LinkConfig) :
    NodeData.link (linkData c.filledIn) = (NodeData.link (linkData c)).aliased := by
  have hfilters : childFilters [⟨.all, ((c.childFilters.getD []).head?.map (·.conditions)).getD []⟩] =
      childFilters (c.childFilters.getD []) := by
    cases c.childFilters.getD [] <;> rfl
  have hmany (aliasName : String) : c.policy.map (manyPolicy (some aliasName)) =
      (c.policy.map (manyPolicy c.aliasName)).map fun p => { p with outputAlias := some aliasName } := by
    cases c.policy <;> rfl
  simp only [NodeData.aliased, linkData, LinkConfig.filledIn, Option.getD_some, hfilters, hmany,
    defaultAlias]

theorem sheetData_filledIn (c : SheetConfig) : sheetData c.filledIn = sheetData c := by
  have hfreeze : (c.freeze.map (·.filledIn)).map sheetFreeze = c.freeze.map sheetFreeze := by
    cases c.freeze <;> rfl
  simp [sheetData, SheetConfig.filledIn, defaultSheetName, sheetColumn, ColumnConfig.filledIn,
    hfreeze, Function.comp_def]

theorem exportData_filledIn (c : ExportConfig) : exportData c.filledIn = exportData c := by
  rcases c with ⟨_ | format, layout, fileName⟩
  · rfl
  · cases format <;> rfl

theorem nodeData?_filledIn (c : NodeConfig) :
    nodeData? c.filledIn = (nodeData? c).map NodeData.aliased := by
  cases c with
  | link c => exact congrArg some (linkData_filledIn c)
  | sheet c => exact congrArg (some ∘ NodeData.sheet) (sheetData_filledIn c)
  | output c => exact congrArg (some ∘ NodeData.output) (exportData_filledIn c)
  | _ => rfl

theorem node?_of_kept {n m : FlowNode} (h : Kept n m) (hp : n.needsLayout = false) :
    node? m = (node? n).map ReportNode.aliased := by
  simp only [node?, h.config, nodeData?_filledIn, h.id, h.stays hp, Option.map_map]
  rfl

theorem graph_of_kept {g g' : Flow}
    (hk : List.Forall₂ Kept (g.nodes.filter FlowNode.isCompiled) g'.nodes)
    (he : g'.edges = g.edges)
    (hp : ∀ n ∈ g.nodes, n.isCompiled = true → n.needsLayout = false) :
    graph g' = (graph g).aliased := by
  have hplaced : ∀ n ∈ g.nodes.filter FlowNode.isCompiled, n.needsLayout = false :=
    fun n hn => hp n (List.mem_of_mem_filter hn) (List.of_mem_filter hn)
  have hboth := (List.forall₂_and_left _ _).mpr ⟨hplaced, hk⟩
  have hnodes : g'.nodes.filterMap node? = (g.nodes.filterMap node?).map ReportNode.aliased := by
    rw [← filterMap_node? g.nodes]
    generalize g'.nodes = shown at hboth
    generalize g.nodes.filter FlowNode.isCompiled = nodes at hboth
    induction hboth with
    | nil => rfl
    | @cons n m _ _ hn _ ih =>
      rw [List.filterMap_cons, List.filterMap_cons, node?_of_kept hn.2 hn.1, ih]
      cases node? n <;> rfl
  simp only [graph, StoredGraph.aliased, hnodes, he]

theorem sheets_aliased (nodes : List ReportNode) :
    StoredGraph.sheets (nodes.map (·.aliased)) = StoredGraph.sheets nodes := by
  unfold StoredGraph.sheets
  rw [List.filterMap_map]
  refine List.filterMap_congr fun n _ => ?_
  rcases n with ⟨id, data, position⟩
  cases data <;> rfl

theorem layout_aliased (s : StoredGraph) : layout s.aliased.nodes = layout s.nodes := by
  unfold layout
  rw [StoredGraph.aliased, sheets_aliased]

theorem aliased_eq_self_iff (c : LinkConfig) :
    (NodeData.link (linkData c)).aliased = .link (linkData c) ↔
      (c.policy.isSome = true → c.aliasName.isSome = true) := by
  rcases c with ⟨_, aliasName, _, _, _, _, _, policy⟩
  cases policy <;> cases aliasName <;> simp [NodeData.aliased, linkData, manyPolicy]

theorem graph_aliased_eq_self_iff (g : Flow) :
    (graph g).aliased = graph g ↔ ∀ n ∈ g.nodes, ∀ c, n.config = .link c →
      c.policy.isSome = true → c.aliasName.isSome = true := by
  have hnode (n : FlowNode) : (∀ r, node? n = some r → r.aliased = r) ↔ ∀ c, n.config = .link c →
      c.policy.isSome = true → c.aliasName.isSome = true := by
    rcases n with ⟨id, config, position, label⟩
    cases config <;>
      simp [node?, nodeData?, ReportNode.aliased, NodeData.aliased, ← aliased_eq_self_iff]
  have hmap : (graph g).aliased = graph g ↔ ∀ r ∈ (graph g).nodes, r.aliased = r := by
    constructor
    · intro h
      have hnodes : (graph g).nodes.map (·.aliased) = (graph g).nodes.map id := by
        rw [List.map_id]
        exact congrArg StoredGraph.nodes h
      exact List.map_inj_left.mp hnodes
    · intro h
      unfold StoredGraph.aliased
      rw [List.map_congr_left h, List.map_id']
  rw [hmap]
  simp only [graph, List.mem_filterMap, ← hnode]
  constructor
  · exact fun h n hn r hr => h r ⟨n, hn, hr⟩
  · rintro h r ⟨n, hn, hr⟩
    exact h n hn r hr

/-- What was reopened compiles to the same layout, and to the same graph under one condition: a link
with a policy has an alias. Without one, its policy has no output alias at first and is given the
alias of the link later. -/
theorem recompile_reopened (g : Flow) (prior : Option Prior) (s₁ s₂ : Sources)
    (hr : ∀ n ∈ g.nodes, n.config.isRelated = true)
    (hp : ∀ n ∈ g.nodes, n.isCompiled = true → n.needsLayout = false) :
    let first := (g.compile prior s₁).definition
    ∃ reopened, first.reopen = .ok reopened ∧
      (reopened.recompile first s₂).definition.layout = first.layout ∧
      (reopened.recompile first s₂).definition.graph = first.graph.aliased ∧
      ((reopened.recompile first s₂).definition.graph = first.graph ↔
        ∀ n ∈ g.nodes, ∀ c, n.config = .link c →
          c.policy.isSome = true → c.aliasName.isSome = true) := by
  intro first
  obtain ⟨reopened, h⟩ := exists_reopen_of_related (d := first) rfl hr
  have hgraph : graph reopened = (graph g).aliased :=
    graph_of_kept (kept_of_reopen rfl h) (edges_of_reopen rfl h) hp
  refine ⟨reopened, h, ?_, hgraph, ?_⟩
  · change layout (graph reopened).nodes = layout (graph g).nodes
    rw [hgraph, layout_aliased]
  · change graph reopened = graph g ↔ _
    rw [hgraph, graph_aliased_eq_self_iff]

theorem recompile_draft_differs :
    (∀ n ∈ Sample.draft.nodes, n.config.isRelated = true) ∧
      (∀ n ∈ Sample.draft.nodes, n.isCompiled = true → n.needsLayout = false) ∧
      ∃ reopened, (Sample.draft.compile none Sample.sources).definition.reopen = .ok reopened ∧
        (reopened.recompile (Sample.draft.compile none Sample.sources).definition
          Sample.sources).definition.graph ≠
            (Sample.draft.compile none Sample.sources).definition.graph := by
  refine ⟨Sample.draft_related, Sample.draft_placed, ?_⟩
  obtain ⟨reopened, h, _, _, hiff⟩ := recompile_reopened Sample.draft none Sample.sources
    Sample.sources Sample.draft_related Sample.draft_placed
  refine ⟨reopened, h, fun heq => ?_⟩
  have hlink := hiff.mp heq _ (List.mem_cons_of_mem _ (List.mem_cons_of_mem _ List.mem_cons_self))
    Sample.unnamedLink rfl rfl
  cases hlink

end Compilation

end ReportFlow
