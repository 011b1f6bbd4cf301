import ReportFlow.Proofs.CycleSearch
import ReportFlow.Proofs.RoundTrip
import ReportFlow.Structure.Validation

/-!
The structural verdict on a flow, on what it compiles to and on what a stored definition reopens as.
Compiling drops nodes and keeps every edge, so errors and general advice stay the same; only the
advice about nodes that no edge touches is given for fewer nodes.
-/

namespace ReportFlow

def StructureWarning.node? : StructureWarning → Option String
  | unconnected id => some id
  | noSheet | noExport => none

namespace Validation

def unconnected (v : Validation) : List String := v.warnings.filterMap (·.node?)

def advice (v : Validation) : List StructureWarning := v.warnings.filter (·.node?.isNone)

end Validation

namespace Outline

variable {o o' : Outline}

theorem isCyclic_congr (h : o.links = o'.links) : o.IsCyclic ↔ o'.IsCyclic := by
  have hlinked : o.Linked = o'.Linked := by
    funext a b
    unfold Linked
    rw [h]
  rw [isCyclic_iff, isCyclic_iff, hlinked]

/-- The nodes of an outline are only where its searches start. -/
theorem hasCycle_congr (h : o.links = o'.links) : o.hasCycle = o'.hasCycle := by
  rw [Bool.eq_iff_iff, hasCycle_iff_isCyclic, hasCycle_iff_isCyclic, isCyclic_congr h]

theorem errors_congr (hkind : o.hasKind "entity" = o'.hasKind "entity")
    (hlinks : o.links = o'.links) : o.validate.errors = o'.validate.errors := by
  simp only [validate, hkind, hasCycle_congr hlinks]

theorem isValid_validate (o : Outline) :
    o.validate.isValid = true ↔ o.hasKind "entity" = true ∧ ¬ o.IsCyclic := by
  rw [← hasCycle_iff_isCyclic]
  cases hkind : o.hasKind "entity" <;> cases hcycle : o.hasCycle <;>
    simp [Validation.isValid, validate, hkind, hcycle]

def advised (o : Outline) : List StructureWarning :=
  (if o.hasKind "sheet" then [] else [.noSheet]) ++ (if o.hasKind "export" then [] else [.noExport])

theorem node?_of_advised {w : StructureWarning} (h : w ∈ o.advised) : w.node? = none := by
  rcases List.mem_append.mp h with h | h
  · obtain ⟨_, h⟩ := List.mem_ite_nil_left.mp h
    rw [List.mem_singleton.mp h]
    rfl
  · obtain ⟨_, h⟩ := List.mem_ite_nil_left.mp h
    rw [List.mem_singleton.mp h]
    rfl

theorem advice_validate (o : Outline) : o.validate.advice = o.advised := by
  change (o.advised ++ o.unconnected).filter (·.node?.isNone) = o.advised
  have hkept : o.advised.filter (·.node?.isNone) = o.advised := by
    rw [List.filter_eq_self]
    intro w hw
    rw [node?_of_advised hw]
    rfl
  have hdropped : o.unconnected.filter (·.node?.isNone) = [] := by
    rw [List.filter_eq_nil_iff]
    intro w hw
    obtain ⟨_, hw⟩ := List.mem_ite_nil_right.mp hw
    obtain ⟨n, _, rfl⟩ := List.mem_map.mp hw
    simp [StructureWarning.node?]
  rw [List.filter_append, hkept, hdropped, List.append_nil]

theorem unconnected_validate (o : Outline) :
    o.validate.unconnected = if 2 ≤ o.nodes.length then
      (o.nodes.filter fun n => !o.isConnected n.id).map (·.id) else [] := by
  change (o.advised ++ o.unconnected).filterMap (·.node?) = _
  have hdropped : o.advised.filterMap (·.node?) = [] := by
    rw [List.filterMap_eq_nil_iff]
    exact fun w hw => node?_of_advised hw
  rw [List.filterMap_append, hdropped, List.nil_append]
  unfold unconnected
  by_cases h : 1 < o.nodes.length
  · rw [if_pos h, if_pos (show 2 ≤ o.nodes.length from h), List.filterMap_map]
    exact congrFun List.filterMap_eq_map' _
  · rw [if_neg h, if_neg (show ¬ 2 ≤ o.nodes.length from h)]
    rfl

end Outline

/-! ## Which kinds are there -/

/-- A kind that is not known goes by a name that no known kind has. -/
def NodeConfig.isNamed : NodeConfig → Bool
  | .unrecognized kind _ => (NodeKind.ofName? kind).isNone
  | _ => true

namespace NodeKind

theorem ofName?_name (kind : NodeKind) : ofName? kind.name = some kind := by
  cases kind <;> rfl

end NodeKind

namespace NodeConfig

theorem isNamed_of_ofParts {node kind : String} {body : Json} {c : NodeConfig}
    (h : ofParts node kind body = .ok c) : c.isNamed = true := by
  have hmap {α : Type} {f : α → NodeConfig} (hf : ∀ a, (f a).isNamed = true)
      {x : Except ConfigError α} (hx : x.map f = .ok c) : c.isNamed = true := by
    cases x with
    | error e => cases hx
    | ok a => cases hx; exact hf a
  unfold ofParts at h
  cases hkind : NodeKind.ofName? kind with
  | none =>
    rw [hkind] at h
    cases h
    simp [isNamed, hkind]
  | some known =>
    rw [hkind] at h
    cases known with
    | concatenate => cases h; rfl
    | _ => exact hmap (fun _ => rfl) h

/-- A node has the name of a known kind only if it is of that kind. -/
theorem kindName_eq_iff {c : NodeConfig} (h : c.isNamed = true) (kind : NodeKind) :
    c.kindName = kind.name ↔ c.kind? = some kind := by
  cases c with
  | unrecognized name body =>
    have hname : name ≠ kind.name := by
      rintro rfl
      rw [isNamed, NodeKind.ofName?_name] at h
      cases h
    simp [kindName, kind?, hname]
  | _ => cases kind <;> simp [kindName, kind?, NodeKind.name]

theorem isCompiled_of_kind? {c : NodeConfig} {kind : NodeKind}
    (hkind : kind = .entity ∨ kind = .sheet ∨ kind = .output) (h : c.kind? = some kind) :
    c.isCompiled = true := by
  cases c with
  | aggregate _ | concatenate _ | pivot _ => cases h; simp at hkind
  | unrecognized _ _ => cases h
  | _ => rfl

end NodeConfig

namespace Flow

def compiled (g : Flow) : Flow := ⟨g.nodes.filter FlowNode.isCompiled, g.edges⟩

def isIsolated (g : Flow) (n : FlowNode) : Bool := !g.edges.any fun e => touches e n.id

theorem hasKind_outline {g : Flow} (h : ∀ n ∈ g.nodes, n.config.isNamed = true) (kind : NodeKind) :
    g.outline.hasKind kind.name = true ↔ ∃ n ∈ g.nodes, n.kind? = some kind := by
  simp only [Outline.hasKind, outline, List.any_map, List.any_eq_true, Function.comp_apply,
    beq_iff_eq]
  constructor
  · rintro ⟨n, hn, hkind⟩
    exact ⟨n, hn, (NodeConfig.kindName_eq_iff (h n hn) kind).mp hkind⟩
  · rintro ⟨n, hn, hkind⟩
    exact ⟨n, hn, (NodeConfig.kindName_eq_iff (h n hn) kind).mpr hkind⟩

/-- Compiling drops no node of a kind that a check asks for. -/
theorem hasKind_compiled {g : Flow} (h : ∀ n ∈ g.nodes, n.config.isNamed = true) {kind : NodeKind}
    (hkind : kind = .entity ∨ kind = .sheet ∨ kind = .output) :
    g.compiled.outline.hasKind kind.name = g.outline.hasKind kind.name := by
  have hc : ∀ n ∈ g.compiled.nodes, n.config.isNamed = true :=
    fun n hn => h n (List.mem_of_mem_filter hn)
  rw [Bool.eq_iff_iff, hasKind_outline h, hasKind_outline hc]
  constructor
  · rintro ⟨n, hn, hk⟩
    exact ⟨n, List.mem_of_mem_filter hn, hk⟩
  · rintro ⟨n, hn, hk⟩
    exact ⟨n, List.mem_filter.mpr ⟨hn, NodeConfig.isCompiled_of_kind? hkind hk⟩, hk⟩

theorem isConnected_outline (g : Flow) (n : FlowNode) :
    (!g.outline.isConnected n.id) = g.isIsolated n := by
  simp only [Outline.isConnected, outline, isIsolated, List.any_map]
  rfl

theorem unconnected_validate (g : Flow) :
    g.validate.unconnected =
      if 2 ≤ g.nodes.length then (g.nodes.filter g.isIsolated).map (·.id) else [] := by
  have hnodes : (g.outline.nodes.filter fun n => !g.outline.isConnected n.id).map (·.id) =
      (g.nodes.filter g.isIsolated).map (·.id) := by
    change ((g.nodes.map fun n => (⟨n.id, n.kindName⟩ : OutlineNode)).filter fun n =>
      !g.outline.isConnected n.id).map (·.id) = _
    rw [List.filter_map, List.map_map]
    exact congrArg (fun p => (g.nodes.filter p).map (·.id)) (funext g.isConnected_outline)
  unfold validate
  rw [Outline.unconnected_validate, hnodes]
  simp only [outline, List.length_map]

end Flow

namespace Compilation

/-- The outline of what a flow compiles to is that of its compiled part. -/
theorem outline_graph (g : Flow) : (graph g).outline = g.compiled.outline := by
  have hnodes : (g.nodes.filterMap node?).map (fun n => (⟨n.id, n.data.kindName⟩ : OutlineNode)) =
      (g.nodes.filter FlowNode.isCompiled).map fun n => ⟨n.id, n.kindName⟩ := by
    induction g.nodes with
    | nil => rfl
    | cons n rest ih =>
      cases hn : node? n with
      | none =>
        have hc : n.isCompiled = false := node?_eq_none_iff.mp hn
        rw [List.filterMap_cons_none hn, List.filter_cons_of_neg (by simp [hc]), ih]
      | some r =>
        rw [List.filterMap_cons_some hn, List.filter_cons_of_pos (isCompiled_of_node? hn),
          List.map_cons, List.map_cons, ih]
        obtain ⟨data, hdata, rfl⟩ := Option.map_eq_some_iff.mp hn
        simp only [kindName_of_nodeData? hdata, FlowNode.kindName]
  have hlinks : (g.edges.map edge).map (fun e => (⟨e.source, e.target⟩ : Link)) =
      g.edges.map fun e => ⟨e.source, e.target⟩ := by
    rw [List.map_map]
    rfl
  simp only [graph, StoredGraph.outline, Flow.outline, Flow.compiled, hnodes, hlinks]

end Compilation

namespace Reopening

theorem Opens.kindName {data : NodeData} {c : NodeConfig} (h : Opens data c) :
    c.kindName = data.kindName := by
  cases h <;> rfl

theorem Opens.isNamed {data : NodeData} {c : NodeConfig} (h : Opens data c) :
    c.isNamed = true := by
  cases h <;> rfl

theorem isNamed_of_reopen {d : Definition} {g : Flow} (h : d.reopen = .ok g) :
    ∀ n ∈ g.nodes, n.config.isNamed = true := by
  intro n hn
  obtain ⟨r, _, hr⟩ := forall₂_mem_right (reopen_nodes h) hn
  exact hr.opens.isNamed

theorem outline_reopen {d : Definition} {g : Flow} (h : d.reopen = .ok g) :
    g.outline = d.graph.outline := by
  have hnodes : g.nodes.map (fun n => (⟨n.id, n.kindName⟩ : OutlineNode)) =
      d.graph.nodes.map fun n => ⟨n.id, n.data.kindName⟩ := by
    refine eq_map_of_forall₂ (List.forall₂_map_right_iff.mpr ((reopen_nodes h).imp ?_))
    intro r n hn
    rw [hn.id, FlowNode.kindName, hn.opens.kindName]
  have hlinks : (d.graph.edges.map edge).map (fun e => (⟨e.source, e.target⟩ : Link)) =
      d.graph.edges.map fun e => ⟨e.source, e.target⟩ := by
    rw [List.map_map]
    rfl
  simp only [Flow.outline, StoredGraph.outline, hnodes, reopen_edges h, hlinks]

end Reopening

/-! ## The verdict -/

def Flow.IsRunnable (g : Flow) : Prop :=
  (∃ n ∈ g.nodes, n.kind? = some .entity) ∧ ¬ g.outline.IsCyclic

def StoredGraph.IsRunnable (s : StoredGraph) : Prop :=
  (∃ n ∈ s.nodes, n.data.kind = .entity) ∧ ¬ s.outline.IsCyclic

theorem Flow.isValid_validate_iff {g : Flow} (h : ∀ n ∈ g.nodes, n.config.isNamed = true) :
    g.validate.isValid = true ↔ g.IsRunnable := by
  unfold validate IsRunnable
  rw [Outline.isValid_validate, ← hasKind_outline h]
  rfl

theorem Definition.isValid_validate_iff (d : Definition) :
    d.validate.isValid = true ↔ d.graph.IsRunnable := by
  have hname (data : NodeData) : data.kindName = "entity" ↔ data.kind = .entity := by
    cases data <;> simp [NodeData.kindName, NodeData.kind, CompiledKind.name]
  unfold validate StoredGraph.IsRunnable
  rw [Outline.isValid_validate]
  simp [Outline.hasKind, StoredGraph.outline, hname]

structure SameVerdict (g : Flow) (d : Definition) : Prop where
  errors : d.validate.errors = g.validate.errors
  isValid : d.validate.isValid = g.validate.isValid
  advice : d.validate.advice = g.validate.advice
  unconnected : g.validate.unconnected =
    if 2 ≤ g.nodes.length then (g.nodes.filter g.isIsolated).map (·.id) else []
  unconnectedCompiled : d.validate.unconnected =
    if 2 ≤ g.compiled.nodes.length then (g.compiled.nodes.filter g.isIsolated).map (·.id) else []

theorem sameVerdict_compile {g : Flow} (h : ∀ n ∈ g.nodes, n.config.isNamed = true)
    (prior : Option Prior) (s : Sources) : SameVerdict g (g.compile prior s).definition := by
  have hv : (g.compile prior s).definition.validate = g.compiled.validate :=
    congrArg Outline.validate (Compilation.outline_graph g)
  have hentity := Flow.hasKind_compiled h (.inl rfl)
  have hsheet := Flow.hasKind_compiled h (.inr (.inl rfl))
  have houtput := Flow.hasKind_compiled h (.inr (.inr rfl))
  have herrors : g.compiled.validate.errors = g.validate.errors :=
    Outline.errors_congr hentity rfl
  have hadvised : g.compiled.outline.advised = g.outline.advised := by
    unfold Outline.advised
    rw [show "sheet" = NodeKind.sheet.name from rfl, show "export" = NodeKind.output.name from rfl,
      hsheet, houtput]
  refine ⟨?_, ?_, ?_, g.unconnected_validate, ?_⟩
  · rw [hv, herrors]
  · rw [hv, Validation.isValid, herrors, Validation.isValid]
  · rw [hv]
    unfold Flow.validate
    rw [Outline.advice_validate, Outline.advice_validate, hadvised]
  · rw [hv]
    exact g.compiled.unconnected_validate

/-- Compiling keeps the verdict, apart from advice on dropped nodes, and reopening keeps all of it.
Both ways a graph is valid exactly when it has an entity and no ring of edges. Any flow that was read
names its unknown kinds as is asked for here. -/
theorem verdict_kept :
    (∀ (g : Flow) (prior : Option Prior) (s : Sources), (∀ n ∈ g.nodes, n.config.isNamed = true) →
      SameVerdict g (g.compile prior s).definition ∧
      (g.validate.isValid = true ↔ g.IsRunnable) ∧
      ((g.compile prior s).definition.validate.isValid = true ↔
        (g.compile prior s).definition.graph.IsRunnable)) ∧
    (∀ (d : Definition) (g : Flow), d.reopen = .ok g → g.validate = d.validate ∧
      (g.validate.isValid = true ↔ g.IsRunnable) ∧
      (d.validate.isValid = true ↔ d.graph.IsRunnable)) ∧
    ∀ (node kind : String) (body : Json) (c : NodeConfig),
      NodeConfig.ofParts node kind body = .ok c → c.isNamed = true := by
  refine ⟨?_, ?_, fun _ _ _ _ => NodeConfig.isNamed_of_ofParts⟩
  · intro g prior s h
    exact ⟨sameVerdict_compile h prior s, Flow.isValid_validate_iff h,
      Definition.isValid_validate_iff _⟩
  · intro d g h
    exact ⟨congrArg Outline.validate (Reopening.outline_reopen h),
      Flow.isValid_validate_iff (Reopening.isNamed_of_reopen h), Definition.isValid_validate_iff d⟩

theorem verdict_kept_draft :
    (∀ n ∈ Sample.draft.nodes, n.config.isNamed = true) ∧
      (Sample.draft.compile none Sample.sources).definition.validate.errors = [] ∧
      ∃ g, Sample.definition.reopen = .ok g ∧ g.validate = Sample.definition.validate := by
  have hnamed : ∀ n ∈ Sample.draft.nodes, n.config.isNamed = true := by decide
  obtain ⟨hverdict, _⟩ := verdict_kept.1 Sample.draft none Sample.sources hnamed
  obtain ⟨g, hg⟩ := Sample.exists_reopen
  refine ⟨hnamed, hverdict.errors.trans (by decide), g, hg, ?_⟩
  exact (verdict_kept.2.1 Sample.definition g hg).1

end ReportFlow
