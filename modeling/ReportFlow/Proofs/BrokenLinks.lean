import ReportFlow.Definition.Integrity
import ReportFlow.Proofs.Convergence
import ReportFlow.Proofs.RoundTrip

/-!
Links without a relation. A compilation warns of them, the integrity check reports them, and
reopening stops at the first: the three passes name the same nodes in the same order.
-/

namespace ReportFlow

/-- What a text says between a beginning and an ending. -/
def between? (beginning ending text : String) : Option String :=
  (beginning.toList.isPrefixOf? text.toList).bind fun rest =>
    (ending.toList.isSuffixOf? rest).map String.ofList

theorem between?_eq_some_iff {beginning ending text part : String} :
    between? beginning ending text = some part ↔ text = beginning ++ part ++ ending := by
  simp only [between?, Option.bind_eq_some_iff, Option.map_eq_some_iff,
    List.isPrefixOf?_eq_some_iff_append_eq, List.isSuffixOf?_eq_some_iff_append_eq]
  constructor
  · rintro ⟨_, htext, part, rfl, rfl⟩
    rw [← String.toList_inj, ← htext]
    simp
  · rintro rfl
    exact ⟨part.toList ++ ending.toList, by simp, part.toList, rfl, by simp⟩

/-- A text that begins otherwise says nothing about a link. -/
theorem between?_link_eq_none {c : Char} {ending text : String} (h : Begins c text) (hne : c ≠ 'L') :
    between? "Link node " ending text = none := by
  rw [Option.eq_none_iff_forall_ne_some]
  intro part hpart
  have hlink : Begins 'L' "Link node " := begins_ofList 'L' _
  rw [between?_eq_some_iff.mp hpart] at h
  exact hne (h.unique ((hlink.append part).append ending))

def brokenLinks (nodes : List ReportNode) : List String :=
  (nodes.filter fun n => !n.data.isRelated).map (·.id)

def Flow.brokenLinks (g : Flow) : List String :=
  (g.nodes.filter fun n => !n.config.isRelated).map (·.id)

theorem brokenLinks_cons (n : ReportNode) (rest : List ReportNode) :
    brokenLinks (n :: rest) = (if n.data.isRelated then [] else [n.id]) ++ brokenLinks rest := by
  cases h : n.data.isRelated <;> simp [brokenLinks, h]

/-! ## Reopening -/

namespace Reopening

theorem node_of_broken {n : ReportNode} (h : n.data.isRelated = false) :
    node n = .error (.missingRelation n.id) := by
  rcases n with ⟨id, data, position⟩
  cases data with
  | link d =>
    have hr : d.relation = none := Option.not_isSome_iff_eq_none.mp (Bool.eq_false_iff.mp h)
    simp only [node, config, hr]
    rfl
  | _ => cases h

theorem mapM_node_eq_error_iff {nodes : List ReportNode} {id : String} :
    nodes.mapM node = .error (.missingRelation id) ↔ (brokenLinks nodes).head? = some id := by
  induction nodes with
  | nil => simp [brokenLinks, pure, Except.pure]
  | cons n rest ih =>
    rw [List.mapM_cons, brokenLinks_cons]
    cases h : n.data.isRelated with
    | false =>
      rw [node_of_broken h]
      simp [bind, Except.bind]
    | true =>
      obtain ⟨m, hm⟩ := exists_opened h
      rw [node_eq_ok_iff.mpr hm, if_pos rfl, List.nil_append, ← ih]
      cases rest.mapM node <;> simp [bind, Except.bind, pure, Except.pure]

theorem reopen_eq_error_iff {d : Definition} {id : String} :
    d.reopen = .error (.missingRelation id) ↔ (brokenLinks d.graph.nodes).head? = some id := by
  rw [← mapM_node_eq_error_iff, Definition.reopen]
  cases d.graph.nodes.mapM node <;> simp [bind, Except.bind, pure, Except.pure]

structure Shows (s : StoredGraph) (g : Flow) : Prop where
  nodes : g.nodes.map (·.id) = s.nodes.map (·.id)
  edges : g.edges.map (fun e => (e.source, e.target)) = s.edges.map (fun e => (e.source, e.target))

theorem shows_of_reopen {d : Definition} {g : Flow} (h : d.reopen = .ok g) : Shows d.graph g := by
  constructor
  · exact eq_map_of_forall₂ (List.forall₂_map_right_iff.mpr ((reopen_nodes h).imp fun _ _ => Shown.id))
  · rw [reopen_edges h, List.map_map]
    rfl

/-- A definition is reopened, with nothing left out, when no link is broken. -/
theorem brokenLinks_eq_nil_iff {d : Definition} :
    brokenLinks d.graph.nodes = [] ↔ ∃ g, d.reopen = .ok g ∧ Shows d.graph g := by
  constructor
  · intro h
    have hrelated : ∀ n ∈ d.graph.nodes, n.data.isRelated = true := by
      simpa [brokenLinks] using h
    obtain ⟨g, hg⟩ := exists_reopen hrelated
    exact ⟨g, hg, shows_of_reopen hg⟩
  · rintro ⟨g, hg, _⟩
    cases hbroken : brokenLinks d.graph.nodes with
    | nil => rfl
    | cons id rest =>
      have herror : d.reopen = .error (.missingRelation id) := by
        rw [reopen_eq_error_iff, hbroken, List.head?_cons]
      rw [hg] at herror
      cases herror

end Reopening

/-! ## The integrity check -/

def IntegrityError.brokenLink? : IntegrityError → Option String
  | .noRelation id => some id
  | _ => none

theorem IntegrityError.between?_message (e : IntegrityError) :
    between? "Link node " " has no relation" e.message = e.brokenLink? := by
  cases e with
  | noRelation id => exact between?_eq_some_iff.mpr rfl
  | noId => exact between?_link_eq_none (begins_ofList 'R' _) (by decide)
  | noName => exact between?_link_eq_none (begins_ofList 'R' _) (by decide)
  | noSchemaVersion => exact between?_link_eq_none (begins_ofList 'S' _) (by decide)
  | badSchemaVersion version fault =>
    have hbegins : Begins 'S' (badSchemaVersion version fault).message :=
      (((begins_ofList 'S' _).append version).append _).append _
    exact between?_link_eq_none hbegins (by decide)
  | noPrimaryEntity => exact between?_link_eq_none (begins_ofList 'P' _) (by decide)
  | noNode => exact between?_link_eq_none (begins_ofList 'R' _) (by decide)
  | noEntityNode => exact between?_link_eq_none (begins_ofList 'R' _) (by decide)
  | duplicateNode id =>
    exact between?_link_eq_none ((begins_ofList 'D' _).append id) (by decide)
  | unknownSource id =>
    exact between?_link_eq_none ((begins_ofList 'E' _).append id) (by decide)
  | unknownTarget id =>
    exact between?_link_eq_none ((begins_ofList 'E' _).append id) (by decide)

namespace Integrity

theorem filterMap_ifSo {α : Type} (f : IntegrityError → Option α) (b : Bool) (e : IntegrityError) :
    (ifSo b e).filterMap f = if b then (f e).toList else [] := by
  cases b
  · rfl
  · cases h : f e <;> simp [ifSo, h]

theorem lacksRelation_eq (n : ReportNode) : lacksRelation n = !n.data.isRelated := by
  rcases n with ⟨id, data, position⟩
  cases data <;> simp [lacksRelation, NodeData.isRelated]

theorem brokenLink?_nodeErrors (seen : List String) (nodes : List ReportNode) :
    (nodeErrors seen nodes).filterMap IntegrityError.brokenLink? = brokenLinks nodes := by
  induction nodes generalizing seen with
  | nil => rfl
  | cons n rest ih =>
    rw [nodeErrors, List.filterMap_append, List.filterMap_append, filterMap_ifSo, filterMap_ifSo,
      ih, brokenLinks_cons, lacksRelation_eq]
    cases n.data.isRelated <;> simp [IntegrityError.brokenLink?]

theorem brokenLink?_check (d : Definition) :
    d.check.filterMap IntegrityError.brokenLink? = brokenLinks d.graph.nodes := by
  have hversion : (versionErrors d.schemaVersion).filterMap IntegrityError.brokenLink? = [] := by
    unfold versionErrors
    split
    · rfl
    · split <;> rfl
  have hedges (ids : List String) : (d.graph.edges.flatMap (edgeErrors ids)).filterMap
      IntegrityError.brokenLink? = [] := by
    rw [List.filterMap_flatMap, List.flatMap_eq_nil_iff]
    intro e _
    simp [edgeErrors, filterMap_ifSo, IntegrityError.brokenLink?]
  simp only [Definition.check, List.filterMap_append, filterMap_ifSo, hversion, hedges,
    brokenLink?_nodeErrors]
  simp [IntegrityError.brokenLink?]

end Integrity

/-! ## Warnings of a compilation -/

def CompileWarning.brokenLink? : CompileWarning → Option String
  | .noRelation id => some id
  | _ => none

theorem CompileWarning.between?_message (w : CompileWarning) :
    between? "Link node " " has no relation and cannot be reopened until a relation is chosen"
      w.message = w.brokenLink? := by
  cases w with
  | noRelation id => exact between?_eq_some_iff.mpr rfl
  | noEntity => exact between?_link_eq_none (begins_ofList 'N' _) (by decide)
  | manyEntities => exact between?_link_eq_none (begins_ofList 'M' _) (by decide)
  | noSheet => exact between?_link_eq_none (begins_ofList 'N' _) (by decide)
  | pdfExport id =>
    have hbegins : Begins 'E' (pdfExport id).message := ((begins_ofList 'E' _).append id).append _
    exact between?_link_eq_none hbegins (by decide)
  | downgraded sheet id mode =>
    exact between?_link_eq_none (begins_downgraded sheet id mode) (by decide)

namespace Compilation

theorem isRelated_of_node?_eq_none {n : FlowNode} (h : node? n = none) :
    n.config.isRelated = true := by
  have hdropped : n.config.isCompiled = false := node?_eq_none_iff.mp h
  revert hdropped
  cases n.config <;> simp [NodeConfig.isCompiled, NodeConfig.isRelated]

/-- Links are compiled whether they have a relation or not. -/
theorem brokenLinks_graph (g : Flow) : brokenLinks (graph g).nodes = g.brokenLinks := by
  unfold graph Flow.brokenLinks
  induction g.nodes with
  | nil => rfl
  | cons n rest ih =>
    cases hn : node? n with
    | none =>
      rw [List.filterMap_cons_none hn,
        List.filter_cons_of_neg (by simp [isRelated_of_node?_eq_none hn])]
      exact ih
    | some r =>
      obtain ⟨data, hdata, rfl⟩ := Option.map_eq_some_iff.mp hn
      rw [List.filterMap_cons_some hn, brokenLinks_cons, isRelated_of_nodeData? hdata,
        List.filter_cons]
      cases n.config.isRelated <;> simpa using ih

theorem brokenLink?_nodeWarnings (n : FlowNode) :
    (nodeWarnings n).filterMap CompileWarning.brokenLink? =
      if n.config.isRelated then [] else [n.id] := by
  rcases n with ⟨id, config, position, label⟩
  cases config with
  | link c =>
    cases hr : c.relation <;>
      simp [nodeWarnings, CompileWarning.brokenLink?, NodeConfig.isRelated, hr]
  | output c =>
    by_cases hf : c.format = some .pdf <;>
      simp [nodeWarnings, CompileWarning.brokenLink?, NodeConfig.isRelated, hf]
  | _ => rfl

theorem brokenLink?_flatMap_nodeWarnings (g : Flow) :
    (g.nodes.flatMap nodeWarnings).filterMap CompileWarning.brokenLink? = g.brokenLinks := by
  unfold Flow.brokenLinks
  induction g.nodes with
  | nil => rfl
  | cons n rest ih =>
    rw [List.flatMap_cons, List.filterMap_append, brokenLink?_nodeWarnings, ih, List.filter_cons]
    cases n.config.isRelated <;> rfl

theorem brokenLink?_warnings (g : Flow) (prior : Prior) :
    (warnings g prior).filterMap CompileWarning.brokenLink? = g.brokenLinks := by
  have hgraph : (graphWarnings (graph g).nodes).filterMap CompileWarning.brokenLink? = [] := by
    rw [List.filterMap_eq_nil_iff]
    intro w hw
    rcases mem_graphWarnings hw with rfl | rfl | rfl <;> rfl
  have hdowngrades (p : StoredGraph) :
      (downgrades p (graph g).nodes).filterMap CompileWarning.brokenLink? = [] := by
    rw [downgrades, List.filterMap_map, List.filterMap_eq_nil_iff]
    intro _ _
    rfl
  unfold warnings
  rw [List.filterMap_append, List.filterMap_append, hgraph, brokenLink?_flatMap_nodeWarnings,
    List.nil_append]
  cases prior.graph with
  | none => exact List.append_nil _
  | some p => exact (congrArg _ (hdowngrades p)).trans (List.append_nil _)

end Compilation

def Definition.linkFaults (d : Definition) : List String :=
  (d.check.map (·.message)).filterMap (between? "Link node " " has no relation")

def Definition.linkWarnings (d : Definition) : List String :=
  d.hints.warnings.filterMap
    (between? "Link node " " has no relation and cannot be reopened until a relation is chosen")

theorem Definition.linkFaults_eq (d : Definition) : d.linkFaults = brokenLinks d.graph.nodes := by
  rw [linkFaults, List.filterMap_map, ← Integrity.brokenLink?_check]
  exact congrArg (d.check.filterMap ·) (funext IntegrityError.between?_message)

theorem Compilation.linkWarnings_compile (g : Flow) (prior : Option Prior) (s : Sources) :
    (g.compile prior s).definition.linkWarnings = g.brokenLinks := by
  rw [← brokenLink?_warnings g (prior.getD .none), Definition.linkWarnings]
  change ((warnings g (prior.getD .none)).map (·.message)).filterMap _ = _
  rw [List.filterMap_map]
  exact congrArg ((warnings g (prior.getD .none)).filterMap ·)
    (funext CompileWarning.between?_message)

/-- Reopening fails at the first link that the integrity check reports, and shows the whole graph
when there is none. A compilation warns of the links that the check of its result reports. -/
theorem broken_links_agree :
    (∀ (d : Definition) (id : String),
      d.reopen = .error (.missingRelation id) ↔ d.linkFaults.head? = some id) ∧
    (∀ d : Definition, d.linkFaults = [] ↔ ∃ g, d.reopen = .ok g ∧ Reopening.Shows d.graph g) ∧
    ∀ (g : Flow) (prior : Option Prior) (s : Sources),
      (g.compile prior s).definition.linkWarnings = (g.compile prior s).definition.linkFaults := by
  refine ⟨?_, ?_, ?_⟩
  · intro d id
    rw [d.linkFaults_eq]
    exact Reopening.reopen_eq_error_iff
  · intro d
    rw [d.linkFaults_eq]
    exact Reopening.brokenLinks_eq_nil_iff
  · intro g prior s
    rw [Compilation.linkWarnings_compile, Definition.linkFaults_eq]
    exact (Compilation.brokenLinks_graph g).symm

end ReportFlow
