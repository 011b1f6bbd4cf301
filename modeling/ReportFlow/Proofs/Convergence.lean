import ReportFlow.Proofs.ReopenedGraph

/-!
Reopening and recompiling a stored definition settles it in one round. A second round gives the same
graph, layout and estimates, and tells no more about aggregate sheets, as none are left.
-/

namespace ReportFlow

def Begins (c : Char) (text : String) : Prop := text.toList.head? = some c

theorem begins_ofList (c : Char) (rest : List Char) : Begins c (String.ofList (c :: rest)) := by
  rw [Begins, String.toList_ofList, List.head?_cons]

theorem Begins.append {c : Char} {a : String} (h : Begins c a) (b : String) : Begins c (a ++ b) := by
  rw [Begins, String.toList_append, List.head?_append, h]
  rfl

theorem Begins.unique {c c' : Char} {text : String} (h : Begins c text) (h' : Begins c' text) :
    c = c' :=
  Option.some.inj (h.symm.trans h')

namespace CompileWarning

def isDowngrade : CompileWarning → Bool
  | downgraded _ _ _ => true
  | _ => false

theorem begins_downgraded (sheet node : String) (mode : SheetMode) :
    Begins 'S' (downgraded sheet node mode).message :=
  (((((begins_ofList 'S' _).append sheet).append _).append node).append _).append mode.name

/-- Every other warning begins differently from those about a downgraded sheet. -/
theorem message_ne_downgraded {w : CompileWarning} (h : w.isDowngrade = false) (sheet node : String)
    (mode : SheetMode) : w.message ≠ (downgraded sheet node mode).message := by
  intro heq
  have hs : Begins 'S' w.message := heq ▸ begins_downgraded sheet node mode
  cases w with
  | noEntity => exact absurd (hs.unique (begins_ofList 'N' _)) (by decide)
  | manyEntities => exact absurd (hs.unique (begins_ofList 'M' _)) (by decide)
  | noSheet => exact absurd (hs.unique (begins_ofList 'N' _)) (by decide)
  | noRelation node =>
    exact absurd (hs.unique (((begins_ofList 'L' _).append node).append _)) (by decide)
  | pdfExport node =>
    exact absurd (hs.unique (((begins_ofList 'E' _).append node).append _)) (by decide)
  | downgraded _ _ _ => cases h

end CompileWarning

namespace Compilation

open Reopening

theorem nodeWarnings_of_opens {data : NodeData} {m : FlowNode} (h : Opens data m.config) :
    nodeWarnings m = [] := by
  unfold nodeWarnings
  generalize m.config = c at h
  cases h with
  | link d relation hr => rfl
  | output d =>
    rcases d with ⟨format, layout, fileName, metadata⟩
    cases format <;> rfl
  | _ => rfl

/-- A reopened node gives no cause for a warning of its own. -/
theorem warnings_of_reopen {d : Definition} {g : Flow} (h : d.reopen = .ok g) :
    warnings g (.ofDefinition d) =
      graphWarnings (graph g).nodes ++ downgrades d.graph (graph g).nodes := by
  have hnodes : g.nodes.flatMap nodeWarnings = [] := by
    rw [List.flatMap_eq_nil_iff]
    intro m hm
    obtain ⟨n, _, hn⟩ := forall₂_mem_right (reopen_nodes h) hm
    exact nodeWarnings_of_opens hn.opens
  simp only [warnings, hnodes, List.append_nil, Prior.ofDefinition]

theorem isAggregateSheet_canonical (n : ReportNode) : isAggregateSheet n.canonical = false := by
  rcases n with ⟨id, data, position⟩
  cases data with
  | sheet d => cases hd : d.mode <;>
      simp [isAggregateSheet, ReportNode.canonical, NodeData.canonical, SheetData.canonical, hd,
        SheetMode.canonical]
  | _ => rfl

theorem downgrades_of_settled {s : StoredGraph} (h : s.Settled) (nodes : List ReportNode) :
    downgrades s nodes = [] := by
  have hsheet (id : String) :
      (s.nodes.any fun n => n.id == id && isAggregateSheet n) = false := by
    rw [List.any_eq_false]
    intro n hn
    rw [← h.canonical n hn, isAggregateSheet_canonical]
    simp
  unfold downgrades
  rw [List.map_eq_nil_iff, List.filter_eq_nil_iff]
  intro entry _
  simp [hsheet]

theorem mem_graphWarnings {w : CompileWarning} {nodes : List ReportNode}
    (h : w ∈ graphWarnings nodes) : w = .noEntity ∨ w = .manyEntities ∨ w = .noSheet := by
  simp only [graphWarnings, List.mem_append] at h
  rcases h with (h | h) | h
  · exact .inl (List.mem_singleton.mp (List.mem_ite_nil_right.mp h).2)
  · exact .inr (.inl (List.mem_singleton.mp (List.mem_ite_nil_right.mp h).2))
  · exact .inr (.inr (List.mem_singleton.mp (List.mem_ite_nil_right.mp h).2))

theorem isDowngrade_of_mem_graphWarnings {w : CompileWarning} {nodes : List ReportNode}
    (h : w ∈ graphWarnings nodes) : w.isDowngrade = false := by
  rcases mem_graphWarnings h with rfl | rfl | rfl <;> rfl

theorem message_notMem_graphWarnings (sheet node : String) (mode : SheetMode)
    (nodes : List ReportNode) :
    (CompileWarning.downgraded sheet node mode).message ∉
      (graphWarnings nodes).map (·.message) := by
  intro h
  obtain ⟨w, hw, heq⟩ := List.mem_map.mp h
  exact CompileWarning.message_ne_downgraded (isDowngrade_of_mem_graphWarnings hw) sheet node mode heq

/-- One round of reopening and recompiling settles any definition that can be reopened: the next
round changes nothing and drops only the warnings about downgraded sheets. -/
theorem recompile_converges {d : Definition} {g : Flow} (h : d.reopen = .ok g) (s₁ s₂ : Sources) :
    let d₁ := (g.recompile d s₁).definition
    ∃ g₁, d₁.reopen = .ok g₁ ∧
      let d₂ := (g₁.recompile d₁ s₂).definition
      d₂.graph = d₁.graph ∧ d₂.layout = d₁.layout ∧ d₂.primaryEntity = d₁.primaryEntity ∧
      d₂.hints.rowEstimate = d₁.hints.rowEstimate ∧
      d₁.hints.warnings =
        d₂.hints.warnings ++ (downgrades d.graph d₁.graph.nodes).map (·.message) ∧
      ∀ sheet node mode, (CompileWarning.downgraded sheet node mode).message ∉ d₂.hints.warnings := by
  intro d₁
  have hs : d₁.graph.Settled := graph_settled h
  obtain ⟨g₁, h₁, hg⟩ := reopen_settled hs
  have hgraph : graph g₁ = graph g := hg
  have hw₁ : d₁.hints.warnings =
      (graphWarnings (graph g).nodes ++ downgrades d.graph (graph g).nodes).map (·.message) :=
    congrArg (List.map CompileWarning.message) (warnings_of_reopen h)
  have hw₂ : (g₁.recompile d₁ s₂).definition.hints.warnings =
      (graphWarnings (graph g).nodes).map (·.message) := by
    change (warnings g₁ (.ofDefinition d₁)).map _ = _
    rw [warnings_of_reopen h₁, downgrades_of_settled hs, List.append_nil, hgraph]
  refine ⟨g₁, h₁, hgraph, ?_, ?_, ?_, ?_, ?_⟩
  · exact congrArg (fun s => layout s.nodes) hgraph
  · exact congrArg (fun s => (StoredGraph.primaryEntity? s.nodes).getD unknownEntity) hgraph
  · exact congrArg (fun s => some (rowEstimate s.nodes)) hgraph
  · rw [hw₁, hw₂, List.map_append]
    rfl
  · intro sheet node mode
    rw [hw₂]
    exact message_notMem_graphWarnings sheet node mode _

theorem recompile_sample_converges :
    ∃ g, Sample.definition.reopen = .ok g ∧
      ∃ g₁, (g.recompile Sample.definition Sample.sources).definition.reopen = .ok g₁ ∧
        (g₁.recompile (g.recompile Sample.definition Sample.sources).definition
          Sample.sources).definition.graph =
            (g.recompile Sample.definition Sample.sources).definition.graph := by
  obtain ⟨g, h⟩ := Sample.exists_reopen
  obtain ⟨g₁, h₁, hgraph, _⟩ := recompile_converges h Sample.sources Sample.sources
  exact ⟨g, h, g₁, h₁, hgraph⟩

end Compilation

end ReportFlow
