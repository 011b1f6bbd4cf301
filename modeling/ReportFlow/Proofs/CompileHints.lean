import Mathlib.Tactic.Ring
import ReportFlow.Proofs.CanvasIntegrity
import ReportFlow.Proofs.Convergence

/-!
The hints of a compiled definition, read off the flow and the graph of the prior. Compiled sheets are
never aggregate sheets, so once a report has been saved there is nothing left to announce about them.
-/

namespace ReportFlow

/-! ## The estimate of rows -/

namespace Estimate

open Double

/-- The rows of an entity, in whatever case its name is written. -/
def listed (entity : String) : UInt64 :=
  match entity.toLower with
  | "employee" => 2500
  | "account" => 5000
  | "contact" => 10000
  | "opportunity" => 3000
  | "case" => 8000
  | _ => 1000

theorem sameName_eq {name : String} (h : name.toList.map Char.toLower = name.toList)
    (entity : String) : sameName name entity = decide (entity.toLower = name) := by
  rw [Bool.eq_iff_iff, decide_eq_true_iff, sameName, beq_iff_eq, h, ← String.toList_inj, eq_comm,
    ← String.toList_map]
  rfl

theorem rows_eq (entity : String) : rows entity = listed entity := by
  have hname {name : String} (h : name.toList.map Char.toLower = name.toList) := sameName_eq h entity
  have hrows : rows entity = ((table.find? fun entry => entity.toLower = entry.1).map (·.2)).getD 1000 := by
    simp only [rows, table, List.find?, @hname "employee" (by decide), @hname "account" (by decide),
      @hname "contact" (by decide), @hname "opportunity" (by decide), @hname "case" (by decide)]
    rfl
  rw [hrows]
  unfold listed
  split
  case h_6 h₁ h₂ h₃ h₄ h₅ =>
    simp only [table, List.find?, decide_eq_false h₁, decide_eq_false h₂, decide_eq_false h₃,
      decide_eq_false h₄, decide_eq_false h₅]
    rfl
  all_goals
    rename_i h
    rw [h]
    rfl

theorem listed_even (entity : String) : ∃ half ≤ 5000, (listed entity).toNat = 2 * half := by
  unfold listed
  split
  · exact ⟨1250, by decide, rfl⟩
  · exact ⟨2500, by decide, rfl⟩
  · exact ⟨5000, by decide, rfl⟩
  · exact ⟨1500, by decide, rfl⟩
  · exact ⟨4000, by decide, rfl⟩
  · exact ⟨500, by decide, rfl⟩

theorem perLink_units : perLink.isNegative = false ∧ 2 * perLink.units = 5 * unitsPerOne := by
  decide +kernel

/-- Two and a half times an even number is whole. -/
theorem mul_perLink {d : Double} {n : Nat} (h : d.Exactly (2 * n)) (hn : 5 * n < 2 ^ 53) :
    ∃ rows, d.mul? perLink = some rows ∧ rows.Exactly (5 * n) := by
  obtain ⟨hsign, hunits⟩ := perLink_units
  have hproduct : d.units * perLink.units = 5 * n * unitsPerOne * unitsPerOne := by
    rw [h.units]
    generalize perLink.units = link at hunits
    generalize unitsPerOne = one at hunits
    calc 2 * n * one * link
      _ = n * one * (2 * link) := by ring
      _ = 5 * n * one * one := by rw [hunits]; ring
  obtain ⟨rows, hrows, hexact⟩ := ofUnits?_exactly hproduct unitsPerOne_pos hn
  refine ⟨rows, ?_, hexact⟩
  rw [mul?, h.sign, hsign]
  exact hrows

/-- No estimate is rounded, as long as there are fewer links than any graph has. -/
theorem expanded_exact {base : UInt64} {half links : Nat} (hbase : base.toNat = 2 * half)
    (hhalf : half ≤ 5000) (hnone : links ≠ 0) (hlinks : links < 2 ^ 38) :
    (expanded base links).toNat = 5 * base.toNat * links / 2 := by
  have hsize : half * links ≤ 5000 * 2 ^ 38 := Nat.mul_le_mul hhalf hlinks.le
  have hproduct : base.toNat * links = 2 * (half * links) := by rw [hbase, Nat.mul_assoc]
  obtain ⟨all, hall, hexact⟩ := (@exactly_ofNat base.toNat (by omega)).mul
    (@exactly_ofNat links (by omega)) (by omega)
  rw [hproduct] at hexact
  obtain ⟨rows, hrows, hexact⟩ := mul_perLink hexact (by omega)
  have hexpanded : expanded base links = rows.toUInt64 := by
    unfold expanded
    rw [if_neg hnone, hall, Option.bind_some, hrows]
  rw [hexpanded, hexact.toUInt64 (by omega), Nat.mul_assoc, hproduct]
  omega

end Estimate

/-! ## The warnings -/

def StoredGraph.aggregateSheets (s : StoredGraph) : List String :=
  ((sheets s.nodes).filter fun entry => entry.2.mode = .aggregate).map (·.1)

namespace FlowNode

def advice? (n : FlowNode) : Option String :=
  match n.config with
  | .link c =>
    if c.relation = none then
      some ("Link node " ++ n.id ++
        " has no relation and cannot be reopened until a relation is chosen")
    else none
  | .output c =>
    if c.format = some .pdf then
      some ("Export node " ++ n.id ++
        " requests pdf output, which is not supported; compiled as xlsx")
    else none
  | _ => none

def downgrade? (aggregates : List String) (n : FlowNode) : Option String :=
  match n.config with
  | .sheet c =>
    if n.id ∈ aggregates then
      some ("Sheet '" ++ c.name.getD "Unnamed Sheet" ++ "' (" ++ n.id ++
        ") was an aggregate sheet and is now compiled as " ++ (c.mode.getD .main).name)
    else none
  | _ => none

end FlowNode

namespace Flow

variable (g : Flow)

def entityAdvice : List String :=
  match (g.nodesOfKind .entity).length with
  | 0 => ["No entity nodes found - report may not function correctly"]
  | 1 => []
  | _ => ["Multiple entity nodes detected - only the first will be used as primary"]

def sheetAdvice : List String :=
  if g.nodesOfKind .sheet = [] then
    ["No sheet nodes found - add a sheet to define output format"]
  else []

theorem length_nodesOfKind {α : Type} {kind : NodeKind} {f : FlowNode → Option α}
    (h : ∀ n, (f n).isSome = true ↔ n.kind? = some kind) :
    (g.nodes.filterMap f).length = (g.nodesOfKind kind).length := by
  rw [List.length_filterMap_eq_countP, nodesOfKind, ← List.countP_eq_length_filter]
  refine List.countP_congr fun n _ => ?_
  rw [h, decide_eq_true_iff]

theorem filterMap_downgrade?_nil : g.nodes.filterMap (·.downgrade? []) = [] := by
  refine List.filterMap_eq_nil_iff.mpr fun n _ => ?_
  rcases n with ⟨id, config, position, label⟩
  cases config <;> simp [FlowNode.downgrade?]

end Flow

namespace Compilation

variable (g : Flow)

theorem sheets_graph : StoredGraph.sheets (graph g).nodes =
    g.nodes.filterMap fun n => match n.config with
      | .sheet c => some (n.id, sheetData c)
      | _ => none := by
  unfold StoredGraph.sheets graph
  rw [List.filterMap_filterMap]
  refine List.filterMap_congr fun n _ => ?_
  rcases n with ⟨id, config, position, label⟩
  cases config <;> rfl

theorem length_entities_graph :
    (StoredGraph.entities (graph g).nodes).length = (g.nodesOfKind .entity).length := by
  have hnames := congrArg List.length (entities_graph g)
  rw [List.length_map] at hnames
  rw [hnames]
  refine g.length_nodesOfKind fun n => ?_
  rcases n with ⟨id, config, position, label⟩
  cases config <;> simp [FlowNode.kind?, NodeConfig.kind?]

theorem length_sheets_graph :
    (StoredGraph.sheets (graph g).nodes).length = (g.nodesOfKind .sheet).length := by
  rw [sheets_graph]
  refine g.length_nodesOfKind fun n => ?_
  rcases n with ⟨id, config, position, label⟩
  cases config <;> simp [FlowNode.kind?, NodeConfig.kind?]

theorem linkCount_graph : linkCount (graph g).nodes = (g.nodesOfKind .link).length := by
  unfold linkCount graph Flow.nodesOfKind
  rw [List.countP_filterMap, ← List.countP_eq_length_filter]
  refine List.countP_congr fun n _ => ?_
  rcases n with ⟨id, config, position, label⟩
  cases config <;> simp [node?, nodeData?, NodeData.kind, FlowNode.kind?, NodeConfig.kind?]

theorem message_graphWarnings :
    (graphWarnings (graph g).nodes).map (·.message) = g.entityAdvice ++ g.sheetAdvice := by
  have hsheets : (StoredGraph.sheets (graph g).nodes).isEmpty = decide (g.nodesOfKind .sheet = []) := by
    rw [Bool.eq_iff_iff, List.isEmpty_iff_length_eq_zero, length_sheets_graph, decide_eq_true_iff,
      List.length_eq_zero_iff]
  unfold graphWarnings Flow.entityAdvice Flow.sheetAdvice
  simp only [length_entities_graph, hsheets, decide_eq_true_eq, List.map_append]
  congr 1
  · generalize (g.nodesOfKind .entity).length = count
    rcases count with _ | _ | more
    · rfl
    · rfl
    · rw [if_neg (Nat.succ_ne_zero _), if_pos (by omega)]
      rfl
  · split <;> rfl

theorem message_nodeWarnings :
    (g.nodes.flatMap nodeWarnings).map (·.message) = g.nodes.filterMap (·.advice?) := by
  rw [List.map_flatMap, List.filterMap_eq_flatMap_toList]
  refine List.flatMap_congr fun n _ => ?_
  rcases n with ⟨id, config, position, label⟩
  cases config with
  | link c =>
    simp only [nodeWarnings, FlowNode.advice?]
    cases c.relation <;> rfl
  | output c =>
    simp only [nodeWarnings, FlowNode.advice?]
    split <;> rfl
  | _ => rfl

theorem sheetMode_ne_aggregate (m : EditorSheetMode) : sheetMode m ≠ .aggregate := by
  cases m <;> decide

theorem name_sheetMode (m : EditorSheetMode) : (sheetMode m).name = m.name := by
  cases m <;> rfl

/-- An editor has no aggregate sheets, and so no compiled graph has any. -/
theorem aggregateSheets_graph : (graph g).aggregateSheets = [] := by
  have hnone : ∀ entry ∈ StoredGraph.sheets (graph g).nodes, entry.2.mode ≠ .aggregate := by
    intro entry hentry
    rw [sheets_graph, List.mem_filterMap] at hentry
    obtain ⟨n, -, hn⟩ := hentry
    split at hn
    · cases hn
      exact sheetMode_ne_aggregate _
    · cases hn
  rw [StoredGraph.aggregateSheets, List.map_eq_nil_iff, List.filter_eq_nil_iff]
  intro entry hentry
  simpa using hnone entry hentry

theorem mem_aggregateSheets {s : StoredGraph} {id : String} :
    id ∈ s.aggregateSheets ↔ s.nodes.any (fun n => n.id == id && isAggregateSheet n) = true := by
  simp only [StoredGraph.aggregateSheets, StoredGraph.sheets, List.mem_map, List.mem_filter,
    List.mem_filterMap, List.any_eq_true, Bool.and_eq_true, beq_iff_eq, decide_eq_true_eq]
  constructor
  · rintro ⟨⟨id, d⟩, ⟨⟨n, hn, hsheet⟩, hmode⟩, rfl⟩
    split at hsheet
    next data hdata =>
      cases hsheet
      exact ⟨n, hn, rfl, by simpa [isAggregateSheet, hdata] using hmode⟩
    next => cases hsheet
  · rintro ⟨n, hn, rfl, haggregate⟩
    unfold isAggregateSheet at haggregate
    split at haggregate
    next data hdata =>
      exact ⟨(n.id, data), ⟨⟨n, hn, by rw [hdata]⟩, of_decide_eq_true haggregate⟩, rfl⟩
    next => cases haggregate

theorem message_downgrades (s : StoredGraph) :
    (downgrades s (graph g).nodes).map (·.message) =
      g.nodes.filterMap (·.downgrade? s.aggregateSheets) := by
  unfold downgrades
  rw [sheets_graph, List.filter_filterMap, List.map_filterMap, List.map_filterMap]
  refine List.filterMap_congr fun n _ => ?_
  rcases n with ⟨id, config, position, label⟩
  cases config with
  | sheet c =>
    have hmode := sheetMode_ne_aggregate (c.mode.getD .main)
    simp only [FlowNode.downgrade?, mem_aggregateSheets, Option.filter_some, sheetData, ne_eq,
      hmode, not_false_eq_true, decide_true, Bool.true_and, ← name_sheetMode]
    split <;> rfl
  | _ => rfl

theorem downgrades_eq_nil {s : StoredGraph} (h : s.aggregateSheets = []) :
    downgrades s (graph g).nodes = [] := by
  rw [← List.map_eq_nil_iff, message_downgrades, h, g.filterMap_downgrade?_nil]

/-- The warnings of a compilation, each about the flow or about the graph of the prior. -/
theorem warnings_compile (prior : Option Prior) (s : Sources) :
    (g.compile prior s).definition.hints.warnings =
      g.entityAdvice ++ g.sheetAdvice ++ g.nodes.filterMap (·.advice?) ++
        g.nodes.filterMap
          (·.downgrade? (((prior.bind (·.graph)).map (·.aggregateSheets)).getD [])) := by
  change (warnings g (prior.getD .none)).map (·.message) = _
  have hgraph : (prior.getD .none).graph = prior.bind (·.graph) := by
    cases prior <;> rfl
  simp only [warnings, List.map_append, message_graphWarnings, message_nodeWarnings, hgraph]
  cases prior.bind (·.graph) with
  | none => rw [Option.map_none, Option.getD_none, g.filterMap_downgrade?_nil,
      List.map_nil]
  | some p => rw [Option.map_some, Option.getD_some, message_downgrades]

theorem primaryEntity?_graph :
    StoredGraph.primaryEntity? (graph g).nodes = g.entityNames.head? := by
  rw [StoredGraph.primaryEntity?, ← List.head?_map, entities_graph]

theorem rowEstimate_compile (prior : Option Prior) (s : Sources) :
    (g.compile prior s).definition.hints.rowEstimate =
      let base := (g.entityNames.head?.map Estimate.listed).getD 1000
      some ⟨base, none, some (Estimate.expanded base (g.nodesOfKind .link).length)⟩ := by
  change some (rowEstimate (graph g).nodes) = _
  have hrows : Estimate.rows = Estimate.listed := funext Estimate.rows_eq
  rw [rowEstimate, primaryEntity?_graph, linkCount_graph, hrows]
  rfl

end Compilation

/-! ## Announcements in a chain of compilations -/

/-- Compiles one flow after the other over the definition that the one before left. -/
def Definition.rework (d : Definition) (rounds : List (Flow × Sources)) : Definition :=
  rounds.foldl (fun d round => (round.1.recompile d round.2).definition) d

def Definition.IsSilent (d : Definition) : Prop :=
  ∀ sheet node mode, (CompileWarning.downgraded sheet node mode).message ∉ d.hints.warnings

namespace Compilation

theorem isDowngrade_of_mem_nodeWarnings {n : FlowNode} {w : CompileWarning}
    (h : w ∈ nodeWarnings n) : w.isDowngrade = false := by
  unfold nodeWarnings at h
  split at h
  · rw [List.mem_singleton.mp (List.mem_ite_nil_right.mp h).2]
    rfl
  · rw [List.mem_singleton.mp (List.mem_ite_nil_right.mp h).2]
    rfl
  · cases h

theorem silent_recompile (g : Flow) {d : Definition} (h : d.graph.aggregateSheets = [])
    (s : Sources) : (g.recompile d s).definition.IsSilent := by
  intro sheet node mode hmem
  obtain ⟨w, hw, heq⟩ := List.mem_map.mp hmem
  refine CompileWarning.message_ne_downgraded ?_ sheet node mode heq
  change w ∈ graphWarnings (graph g).nodes ++ g.nodes.flatMap nodeWarnings ++
    downgrades d.graph (graph g).nodes at hw
  rw [downgrades_eq_nil g h, List.append_nil, List.mem_append, List.mem_flatMap] at hw
  rcases hw with hw | ⟨n, -, hw⟩
  · exact isDowngrade_of_mem_graphWarnings hw
  · exact isDowngrade_of_mem_nodeWarnings hw

/-- Once there are no aggregate sheets, every further round is silent and leaves none. -/
theorem silent_rework {d : Definition} (h : d.graph.aggregateSheets = [])
    {rounds : List (Flow × Sources)} (hrounds : rounds ≠ []) : (d.rework rounds).IsSilent := by
  induction rounds generalizing d with
  | nil => exact absurd rfl hrounds
  | cons round rest ih =>
    cases rest with
    | nil => exact silent_recompile round.1 h round.2
    | cons next rest => exact ih (aggregateSheets_graph round.1) (List.cons_ne_nil next rest)

/-- The hints of a compiled definition: warnings about the whole flow, then about single nodes in
their order, then about the sheets that were aggregate sheets in the prior, and the estimate of rows.
Hints of the prior have no part in them, and of a chain of compilations only the first announces a
downgraded sheet. -/
theorem hints_complete (g : Flow) (prior : Option Prior) (s : Sources) :
    let hints := (g.compile prior s).definition.hints
    let links := (g.nodesOfKind .link).length
    let base := (g.entityNames.head?.map Estimate.listed).getD 1000
    hints.warnings =
        g.entityAdvice ++ g.sheetAdvice ++ g.nodes.filterMap (·.advice?) ++
          g.nodes.filterMap
            (·.downgrade? (((prior.bind (·.graph)).map (·.aggregateSheets)).getD [])) ∧
      (∃ expanded, hints.rowEstimate = some ⟨base, none, some expanded⟩ ∧
        (links = 0 → expanded = base) ∧
        (links ≠ 0 → links < 2 ^ 38 → expanded.toNat = 5 * base.toNat * links / 2)) ∧
      (∀ existing hints, g.recompile { existing with hints := hints } s = g.recompile existing s) ∧
      ∀ (existing : Definition) rounds, 2 ≤ rounds.length → (existing.rework rounds).IsSilent := by
  intro hints links base
  refine ⟨warnings_compile g prior s, ⟨_, rowEstimate_compile g prior s, ?_, ?_⟩, ?_, ?_⟩
  · exact fun hnone => if_pos hnone
  · intro hnone hlinks
    have heven : ∃ half ≤ 5000, base.toNat = 2 * half := by
      show ∃ half ≤ 5000, ((g.entityNames.head?.map Estimate.listed).getD 1000).toNat = 2 * half
      cases g.entityNames.head? with
      | none => exact ⟨500, by decide, rfl⟩
      | some entity => exact Estimate.listed_even entity
    obtain ⟨half, hhalf, hbase⟩ := heven
    exact Estimate.expanded_exact hbase hhalf hnone hlinks
  · exact fun _ _ => rfl
  · intro existing rounds hrounds
    rcases rounds with _ | ⟨first, _ | ⟨second, rest⟩⟩
    · cases hrounds
    · cases Nat.le_of_succ_le_succ hrounds
    · show ((first.1.recompile existing first.2).definition.rework (second :: rest)).IsSilent
      exact silent_rework (aggregateSheets_graph first.1) (List.cons_ne_nil second rest)

end Compilation

namespace Sample

def tallied : Definition :=
  { (Definition.blank "Accounts" "account" sources).1 with
    graph :=
      ⟨[⟨"totals", .sheet ⟨"Totals", .aggregate, [], none, none, none⟩, none⟩], []⟩ }

def rough : Flow where
  nodes :=
    [.ofConfig "accounts" (.entity { EntityConfig.empty with entity := some "Account" }),
      .ofConfig "contacts" (.entity .empty),
      .ofConfig "totals" (.sheet .empty),
      .ofConfig "print" (.output { ExportConfig.empty with format := some .pdf }),
      .ofConfig "orgs" (.link .empty)]
  edges := []

end Sample

open Sample in
theorem Compilation.hints_complete_rough :
    (rough.recompile tallied sources).definition.hints.warnings =
      ["Multiple entity nodes detected - only the first will be used as primary",
        "Export node print requests pdf output, which is not supported; compiled as xlsx",
        "Link node orgs has no relation and cannot be reopened until a relation is chosen",
        "Sheet 'Unnamed Sheet' (totals) was an aggregate sheet and is now compiled as main"] ∧
      (∃ expanded,
        (rough.recompile tallied sources).definition.hints.rowEstimate =
          some ⟨5000, none, some expanded⟩ ∧ expanded.toNat = 12500) ∧
      (tallied.rework [(rough, sources), (rough, sources)]).IsSilent := by
  obtain ⟨hwarnings, ⟨expanded, hestimate, -, hexpanded⟩, -, hsilent⟩ :=
    hints_complete rough (some (.ofDefinition tallied)) sources
  have hbase : (rough.entityNames.head?.map Estimate.listed).getD 1000 = 5000 :=
    (Estimate.rows_eq "Account").symm.trans (by decide)
  rw [hbase] at hestimate hexpanded
  exact ⟨hwarnings.trans (by decide), ⟨expanded, hestimate,
    (hexpanded (by decide) (by decide)).trans (by decide)⟩, hsilent _ _ (by decide)⟩

end ReportFlow
