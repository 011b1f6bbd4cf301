import Mathlib.Data.List.Nodup
import ReportFlow.Proofs.BrokenLinks
import ReportFlow.Proofs.CanvasConversion

/-!
What the integrity check can still find in a compiled canvas. An accepted canvas has distinct ids and
edges that join its nodes. Compiling drops nodes but no edges, so the only edges that are reported
are those of dropped nodes.
-/

namespace ReportFlow

namespace Flow

structure Joined (g : Flow) : Prop where
  distinct : (g.nodes.map (·.id)).Nodup
  source : ∀ e ∈ g.edges, e.source ∈ g.nodes.map (·.id)
  target : ∀ e ∈ g.edges, e.target ∈ g.nodes.map (·.id)

def drops (g : Flow) (id : String) : Bool := g.nodes.any fun n => n.id == id && !n.isCompiled

def entityNames (g : Flow) : List String :=
  g.nodes.filterMap fun n => match n.config with
    | .entity c => some (c.entity.getD "unknown")
    | _ => none

/-- The ends of an edge that are not compiled, source before target. -/
def looseEnds (g : Flow) (e : FlowEdge) : List IntegrityError :=
  Integrity.ifSo (g.drops e.source) (.unknownSource e.source) ++
    Integrity.ifSo (g.drops e.target) (.unknownTarget e.target)

end Flow

/-! ## Accepted canvases -/

namespace Canvas

theorem id_of_toFlowNode {n : CanvasNode} {m : FlowNode} (h : n.toFlowNode = .ok m) :
    m.id = n.id := by
  obtain ⟨kind, members, hd⟩ := CanvasNode.exists_declares h
  rw [hd.toFlowNode] at h
  obtain ⟨config, _, rfl⟩ := map_eq_ok_iff.mp h
  rfl

theorem joined_of_toFlow {c : Canvas} {g : Flow} (h : c.toFlow = .ok g) : g.Joined := by
  obtain ⟨hnodes, -⟩ := toFlow_eq_ok_iff.mp h
  obtain ⟨hdistinct, -, hconverted⟩ := flowNodes_eq_ok_iff.mp hnodes
  have hids : g.nodes.map (·.id) = c.ids :=
    eq_map_of_forall₂ (List.forall₂_map_right_iff.mpr (hconverted.imp fun _ _ => id_of_toFlowNode))
  have hwell : c.WellFormed := exists_toFlow_iff.mp ⟨g, h⟩
  have hends : ∀ e ∈ g.edges, e.source ∈ c.ids ∧ e.target ∈ c.ids := by
    rw [edges_of_toFlow h]
    intro f hf
    obtain ⟨e, he, rfl⟩ := List.mem_map.mp hf
    exact ⟨(hwell.edges e he).source, (hwell.edges e he).target⟩
  rw [← hids] at hends
  exact ⟨hids ▸ hdistinct, fun e he => (hends e he).1, fun e he => (hends e he).2⟩

end Canvas

/-! ## The check of a compiled flow -/

namespace Integrity

theorem nodeErrors_of_distinct {seen : List String} {nodes : List ReportNode}
    (h : (nodes.map (·.id)).Nodup) (hseen : ∀ n ∈ nodes, n.id ∉ seen) :
    nodeErrors seen nodes = (brokenLinks nodes).map .noRelation := by
  induction nodes generalizing seen with
  | nil => rfl
  | cons n rest ih =>
    rw [List.map_cons, List.nodup_cons] at h
    have hrest : ∀ m ∈ rest, m.id ∉ n.id :: seen := by
      intro m hm hmem
      rcases List.mem_cons.mp hmem with heq | hmem
      · exact h.1 (heq ▸ List.mem_map_of_mem hm)
      · exact hseen m (List.mem_cons_of_mem n hm) hmem
    rw [nodeErrors, ih h.2 hrest, brokenLinks_cons, lacksRelation_eq]
    cases n.data.isRelated <;> simp [ifSo, hseen n List.mem_cons_self]

end Integrity

namespace Compilation

open Integrity

variable {g : Flow}

/-- What is read off a compiled node, read off the node that it was compiled from. -/
theorem map_graph {α : Type} {f : ReportNode → α} {f' : FlowNode → α}
    (h : ∀ n r, node? n = some r → f r = f' n) (g : Flow) :
    (graph g).nodes.map f = (g.nodes.filter FlowNode.isCompiled).map f' := by
  unfold graph
  induction g.nodes with
  | nil => rfl
  | cons n rest ih =>
    cases hn : node? n with
    | none =>
      rw [List.filterMap_cons_none hn, List.filter_cons_of_neg (by simp [node?_eq_none_iff.mp hn])]
      exact ih
    | some r =>
      rw [List.filterMap_cons_some hn, List.filter_cons_of_pos (isCompiled_of_node? hn),
        List.map_cons, List.map_cons, ih, h n r hn]

theorem ids_graph (g : Flow) :
    (graph g).nodes.map (·.id) = (g.nodes.filter FlowNode.isCompiled).map (·.id) := by
  refine map_graph (fun n r hn => ?_) g
  obtain ⟨data, _, rfl⟩ := Option.map_eq_some_iff.mp hn
  rfl

theorem distinct_graph (h : g.Joined) : ((graph g).nodes.map (·.id)).Nodup := by
  rw [ids_graph]
  exact h.distinct.sublist (List.filter_sublist.map _)

/-- Of the ids that edges may name, compiling loses those of the dropped nodes. -/
theorem notMem_ids_graph (h : g.Joined) {id : String} (hid : id ∈ g.nodes.map (·.id)) :
    id ∉ (graph g).nodes.map (·.id) ↔ g.drops id = true := by
  rw [ids_graph]
  constructor
  · intro hmem
    obtain ⟨n, hn, rfl⟩ := List.mem_map.mp hid
    have hdropped : n.isCompiled = false := by
      rw [Bool.eq_false_iff]
      intro hc
      exact hmem (List.mem_map_of_mem (List.mem_filter.mpr ⟨hn, hc⟩))
    exact List.any_eq_true.mpr ⟨n, hn, by simp [hdropped]⟩
  · intro hdrops hmem
    obtain ⟨n, hn, hdropped⟩ := List.any_eq_true.mp hdrops
    obtain ⟨m, hm, rfl⟩ := List.mem_map.mp hmem
    obtain ⟨hm, hc⟩ := List.mem_filter.mp hm
    rw [Bool.and_eq_true, beq_iff_eq] at hdropped
    -- ids are distinct, so the dropped node and the compiled one are the same
    obtain rfl : n = m := List.inj_on_of_nodup_map h.distinct hn hm hdropped.1
    simp [hc] at hdropped

theorem entities_graph (g : Flow) :
    (StoredGraph.entities (graph g).nodes).map (·.entity) = g.entityNames := by
  unfold StoredGraph.entities graph Flow.entityNames
  rw [List.filterMap_filterMap, List.map_filterMap]
  refine List.filterMap_congr fun n _ => ?_
  rcases n with ⟨id, config, position, label⟩
  cases config <;> rfl

theorem edgeErrors_graph (h : g.Joined) :
    (graph g).edges.flatMap (edgeErrors ((graph g).nodes.map (·.id))) =
      g.edges.flatMap g.looseEnds := by
  change (g.edges.map edge).flatMap _ = _
  rw [List.flatMap_map]
  refine List.flatMap_congr fun e he => ?_
  have hsource := notMem_ids_graph h (h.source e he)
  have htarget := notMem_ids_graph h (h.target e he)
  simp only [edgeErrors, Flow.looseEnds, edge, hsource, htarget, Bool.decide_eq_true]

/-- All that the check can find in a flow that was compiled for the first time. -/
theorem check_compile (h : g.Joined) {s : Sources} (hid : Text.isBlank (s.nextId "report") = false) :
    (g.compile none s).definition.check =
      ifSo (Text.isBlank (g.entityNames.head?.getD "unknown")) .noPrimaryEntity ++
        ifSo (graph g).nodes.isEmpty .noNode ++ ifSo g.entityNames.isEmpty .noEntityNode ++
        g.brokenLinks.map .noRelation ++ g.edges.flatMap g.looseEnds := by
  have hname : Text.isBlank "Untitled Report" = false := by decide
  have hversion : versionErrors "1.0.0" = [] := by decide
  have hprimary : (StoredGraph.primaryEntity? (graph g).nodes).getD unknownEntity =
      g.entityNames.head?.getD "unknown" := by
    rw [← entities_graph, List.head?_map]
    rfl
  have hentities : (StoredGraph.entities (graph g).nodes).isEmpty = g.entityNames.isEmpty := by
    rw [← entities_graph, List.isEmpty_map]
  have hnodes : nodeErrors [] (graph g).nodes = g.brokenLinks.map .noRelation := by
    rw [nodeErrors_of_distinct (distinct_graph h) (by simp), brokenLinks_graph]
  rw [← hprimary, ← hentities, ← hnodes, ← edgeErrors_graph h]
  change ifSo (Text.isBlank (s.nextId "report")) _ ++ ifSo (Text.isBlank "Untitled Report") _ ++
    versionErrors "1.0.0" ++ _ ++ _ ++ _ ++ _ ++ _ = _
  rw [hid, hname, hversion]
  rfl

/-- A flow with an entity node is not compiled to nothing. -/
theorem selects_iff (g : Flow) :
    ((Text.isBlank (g.entityNames.head?.getD "unknown") = false ∧
      (graph g).nodes.isEmpty = false) ∧ g.entityNames.isEmpty = false) ↔
      ∃ name, g.entityNames.head? = some name ∧ Text.isBlank name = false := by
  cases hnames : g.entityNames with
  | nil => simp
  | cons name rest =>
    have hnodes : (graph g).nodes.isEmpty = false := by
      rw [Bool.eq_false_iff]
      intro hempty
      rw [← entities_graph, List.isEmpty_iff.mp hempty] at hnames
      cases hnames
    simp [hnodes]

end Compilation

open Compilation Integrity

namespace IntegrityError

def isLooseEnd : IntegrityError → Bool
  | unknownSource _ | unknownTarget _ => true
  | _ => false

end IntegrityError

namespace Integrity

theorem ifSo_eq_nil_iff {b : Bool} {e : IntegrityError} : ifSo b e = [] ↔ b = false := by
  cases b <;> simp [ifSo]

theorem filter_ifSo_isLooseEnd (b : Bool) {e : IntegrityError} (h : e.isLooseEnd = false) :
    (ifSo b e).filter IntegrityError.isLooseEnd = [] := by
  cases b <;> simp [ifSo, h]

theorem mem_ifSo {b : Bool} {e e' : IntegrityError} : e ∈ ifSo b e' ↔ b = true ∧ e = e' := by
  cases b <;> simp [ifSo]

end Integrity

namespace Flow

variable {g : Flow} {e : FlowEdge}

theorem looseEnds_eq_nil_iff :
    g.looseEnds e = [] ↔ g.drops e.source = false ∧ g.drops e.target = false := by
  rw [looseEnds, List.append_eq_nil_iff, ifSo_eq_nil_iff, ifSo_eq_nil_iff]

theorem isLooseEnd_of_mem {x : IntegrityError} (h : x ∈ g.looseEnds e) : x.isLooseEnd = true := by
  rcases List.mem_append.mp h with h | h
  · rw [(mem_ifSo.mp h).2]
    rfl
  · rw [(mem_ifSo.mp h).2]
    rfl

end Flow

/-- A canvas that is compiled for the first time passes the integrity check when it has an entity
node, the first of which selects from something, its links have relations and no edge ends at a
node that is not compiled. Ids are never reported twice, and of the ends of the edges just those at
such nodes are reported. -/
theorem compiled_canvas_integrity {c : Canvas} {g : Flow} {s : Sources} (hflow : c.toFlow = .ok g)
    (hid : Text.isBlank (s.nextId "report") = false) :
    let d := (g.compile none s).definition
    (d.isIntact = true ↔
      (∃ name, g.entityNames.head? = some name ∧ Text.isBlank name = false) ∧
      (∀ n ∈ g.nodes, n.config.isRelated = true) ∧
      ∀ e ∈ g.edges, g.drops e.source = false ∧ g.drops e.target = false) ∧
    (∀ id, .duplicateNode id ∉ d.check) ∧
    d.check.filter IntegrityError.isLooseEnd = g.edges.flatMap g.looseEnds := by
  intro d
  have hcheck : d.check = _ := check_compile (Canvas.joined_of_toFlow hflow) hid
  refine ⟨?_, ?_, ?_⟩
  · rw [Definition.isIntact, List.isEmpty_iff, hcheck, ← selects_iff]
    simp only [List.append_eq_nil_iff, ifSo_eq_nil_iff, List.map_eq_nil_iff, Flow.brokenLinks,
      List.filter_eq_nil_iff, List.flatMap_eq_nil_iff, Flow.looseEnds_eq_nil_iff, and_assoc,
      Bool.not_eq_true', Bool.not_eq_false]
  · intro id hmem
    simp only [hcheck, List.mem_append, mem_ifSo, List.mem_map, List.mem_flatMap] at hmem
    rcases hmem with ((((⟨_, h⟩ | ⟨_, h⟩) | ⟨_, h⟩) | ⟨_, _, h⟩) | ⟨e, _, h⟩)
    · cases h
    · cases h
    · cases h
    · cases h
    · cases Flow.isLooseEnd_of_mem h
  · have hends : (g.edges.flatMap g.looseEnds).filter IntegrityError.isLooseEnd =
        g.edges.flatMap g.looseEnds := by
      rw [List.filter_eq_self]
      intro x hx
      obtain ⟨e, _, hx⟩ := List.mem_flatMap.mp hx
      exact Flow.isLooseEnd_of_mem hx
    rw [hcheck, List.filter_append, hends, List.filter_append, List.filter_append,
      List.filter_append, filter_ifSo_isLooseEnd _ rfl, filter_ifSo_isLooseEnd _ rfl,
      filter_ifSo_isLooseEnd _ rfl, List.filter_map]
    simp [Function.comp_def, IntegrityError.isLooseEnd]

namespace Sample

def canvas : Canvas where
  nodes :=
    [⟨"accounts", none, .object [("type", .string "entity"), ("entity", .string "account")]⟩,
      ⟨"totals", none, .object [("type", .string "aggregate")]⟩]
  edges := [⟨none, "accounts", "totals"⟩]

def accountTotals : Flow where
  nodes :=
    [⟨"accounts", .entity { EntityConfig.empty with entity := some "account" }, none, none⟩,
      ⟨"totals", .aggregate .empty, none, none⟩]
  edges := [.between "accounts" "totals"]

end Sample

/-- Only the edge that leads to the dropped node is reported. -/
theorem compiled_canvas_integrity_totals :
    Sample.canvas.toFlow = .ok Sample.accountTotals ∧
      Text.isBlank (Sample.sources.nextId "report") = false ∧
      let d := (Sample.accountTotals.compile none Sample.sources).definition
      d.isIntact = false ∧
        d.check.filter IntegrityError.isLooseEnd = [.unknownTarget "totals"] := by
  have hflow : Sample.canvas.toFlow = .ok Sample.accountTotals := by rfl
  have hid : Text.isBlank (Sample.sources.nextId "report") = false := by decide
  obtain ⟨hintact, _, hends⟩ := compiled_canvas_integrity hflow hid
  refine ⟨hflow, hid, ?_, hends.trans (by decide)⟩
  rw [Bool.eq_false_iff]
  intro h
  obtain ⟨_, _, hedges⟩ := hintact.mp h
  exact absurd (hedges (.between "accounts" "totals") List.mem_cons_self).2 (by decide)

end ReportFlow
