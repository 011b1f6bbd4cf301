import ReportFlow.Proofs.CompileHints

/-!
What a compiled definition takes from where. Its structure depends on the flow alone and its metadata
on the prior and the sources alone, so that no flow can change who may run a report, and no prior what
is reported on.
-/

namespace ReportFlow

namespace Definition

structure SameStructure (d e : Definition) : Prop where
  schemaVersion : d.schemaVersion = e.schemaVersion
  primaryEntity : d.primaryEntity = e.primaryEntity
  graph : d.graph = e.graph
  layout : d.layout = e.layout
  rowEstimate : d.hints.rowEstimate = e.hints.rowEstimate

structure SameMetadata (d e : Definition) : Prop where
  id : d.id = e.id
  name : d.name = e.name
  description : d.description = e.description
  owner : d.owner = e.owner
  categoryId : d.categoryId = e.categoryId
  tags : d.tags = e.tags
  createdAt : d.createdAt = e.createdAt
  updatedAt : d.updatedAt = e.updatedAt
  reportVersion : d.reportVersion = e.reportVersion
  security : d.security = e.security
  parameters : d.parameters = e.parameters
  limits : d.limits = e.limits
  artifacts : d.artifacts = e.artifacts

structure Shows (d : Definition) (g : Flow) : Prop where
  nodes : d.graph.nodes.map (fun n => (n.id, n.data.kindName, n.position)) =
    (g.nodes.filter FlowNode.isCompiled).map fun n => (n.id, n.kindName, n.position)
  edges : d.graph.edges = g.edges.map fun e => ⟨e.source, e.target, some e.id⟩
  sheetsOrder : d.layout.sheetsOrder = d.sheetNames
  mode : d.layout.mode = .multiSheet ↔ 1 < (g.nodesOfKind .sheet).length
  primaryEntity : d.primaryEntity = g.entityNames.head?.getD "unknown"

end Definition

def Flow.unlabelled (g : Flow) : Flow :=
  { g with nodes := g.nodes.map fun n => { n with label := none } }

namespace Compilation

variable (g : Flow)

theorem nodes_graph : (graph g).nodes.map (fun n => (n.id, n.data.kindName, n.position)) =
    (g.nodes.filter FlowNode.isCompiled).map fun n => (n.id, n.kindName, n.position) := by
  refine map_graph (fun n r hn => ?_) g
  obtain ⟨data, hdata, rfl⟩ := Option.map_eq_some_iff.mp hn
  rw [kindName_of_nodeData? hdata]
  rfl

theorem mode_layout (nodes : List ReportNode) :
    (layout nodes).mode = .multiSheet ↔ 1 < (StoredGraph.sheets nodes).length := by
  simp only [layout, List.length_map]
  split
  next hmany => exact iff_of_true rfl hmany
  next hfew => exact iff_of_false (by decide) hfew

theorem shows_compile (prior : Option Prior) (s : Sources) :
    (g.compile prior s).definition.Shows g where
  nodes := nodes_graph g
  edges := rfl
  sheetsOrder := rfl
  mode := by
    rw [← length_sheets_graph]
    exact mode_layout (graph g).nodes
  primaryEntity := by
    rw [← primaryEntity?_graph]
    rfl

theorem sameStructure_compile (prior other : Option Prior) (s t : Sources) :
    (g.compile prior s).definition.SameStructure (g.compile other t).definition :=
  ⟨rfl, rfl, rfl, rfl, rfl⟩

theorem sameMetadata_compile (h : Flow) (prior : Option Prior) (s : Sources) :
    (g.compile prior s).definition.SameMetadata (h.compile prior s).definition :=
  ⟨rfl, rfl, rfl, rfl, rfl, rfl, rfl, rfl, rfl, rfl, rfl, rfl, rfl⟩

/-! ## Labels -/

theorem graph_unlabelled : graph g.unlabelled = graph g := by
  unfold graph Flow.unlabelled
  rw [List.filterMap_map]
  rfl

theorem warnings_unlabelled (prior : Prior) : warnings g.unlabelled prior = warnings g prior := by
  have hnodes : g.unlabelled.nodes.flatMap nodeWarnings = g.nodes.flatMap nodeWarnings :=
    List.flatMap_map _ _ g.nodes
  simp only [warnings, graph_unlabelled, hnodes]

theorem definition_unlabelled (prior : Prior) (s : Sources) :
    definition g.unlabelled prior s = definition g prior s := by
  simp only [definition, hints, graph_unlabelled, warnings_unlabelled]

/-- Not even what is told on the way mentions a label. -/
theorem compile_unlabelled (prior : Option Prior) (s : Sources) :
    g.unlabelled.compile prior s = g.compile prior s := by
  have hnodes : g.unlabelled.nodes.flatMap nodeEvents = g.nodes.flatMap nodeEvents :=
    List.flatMap_map _ _ g.nodes
  have hsize : g.unlabelled.nodes.length = g.nodes.length := List.length_map _
  simp only [Flow.compile, definition_unlabelled, hnodes, summary, hsize]
  rfl

/-- Two compilations of a flow differ in metadata only, apart from what is said about sheets of the
prior graphs; two compilations over a prior differ in structure and hints only. -/
theorem compile_separates (g h : Flow) (prior other : Option Prior) (s t : Sources) :
    let d := (g.compile prior s).definition
    d.SameStructure (g.compile other t).definition ∧
      (prior.bind (·.graph) = other.bind (·.graph) →
        d.hints.warnings = (g.compile other t).definition.hints.warnings) ∧
      d.SameMetadata (h.compile prior s).definition ∧
      d.Shows g ∧
      g.compile prior s = g.unlabelled.compile prior s := by
  refine ⟨sameStructure_compile g prior other s t, fun hgraph => ?_,
    sameMetadata_compile g h prior s, shows_compile g prior s, (compile_unlabelled g prior s).symm⟩
  rw [warnings_compile, warnings_compile, hgraph]

end Compilation

namespace Sample

def graphAlone : Prior := { Prior.none with graph := some tallied.graph }

def titled : Flow :=
  { rough with nodes := rough.nodes.map fun n => { n with label := some ("My " ++ n.id) } }

end Sample

open Sample in
/-- Without a prior graph there is nothing to say about the sheet that was an aggregate sheet. -/
theorem Compilation.compile_separates_rough :
    let d := (titled.compile (some (.ofDefinition tallied)) sources).definition
    (some (Prior.ofDefinition tallied)).bind (·.graph) = (some graphAlone).bind (·.graph) ∧
      d.hints.warnings = (titled.compile (some graphAlone) sources).definition.hints.warnings ∧
      d.hints.warnings ≠ (titled.compile none sources).definition.hints.warnings ∧
      d.SameMetadata (draft.compile (some (.ofDefinition tallied)) sources).definition ∧
      d.Shows titled := by
  obtain ⟨-, hwarnings, hmetadata, hshows, -⟩ :=
    compile_separates titled draft (some (.ofDefinition tallied)) (some graphAlone) sources sources
  exact ⟨rfl, hwarnings rfl, by decide, hmetadata, hshows⟩

end ReportFlow
