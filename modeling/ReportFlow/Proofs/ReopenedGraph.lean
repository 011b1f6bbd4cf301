import ReportFlow.Proofs.CanonicalForm
import ReportFlow.Proofs.Placement
import ReportFlow.Proofs.Sequencing
import ReportFlow.Sample

/-!
Reopening and recompiling a whole graph. Every node comes back at its place in the order, with the
canonical form of its data and a position; a settled graph comes back as it was.
-/

namespace ReportFlow

def ReportNode.needsLayout (n : ReportNode) : Bool :=
  match n.position with
  | none => true
  | some p => p.isOrigin

def ReportNode.canonical (n : ReportNode) : ReportNode := { n with data := n.data.canonical }

def NodeData.isRelated : NodeData → Bool
  | .link d => d.relation.isSome
  | _ => true

def ReportEdge.named (e : ReportEdge) : ReportEdge :=
  { e with id := some (e.id.getD (FlowEdge.derivedId e.source e.target)) }

namespace Reopening

structure Opened (n : ReportNode) (m : FlowNode) : Prop where
  id : m.id = n.id
  opens : Opens n.data m.config
  position : m.position = n.position
  label : m.label = some n.caption

theorem node_eq_ok_iff {n : ReportNode} {m : FlowNode} : node n = .ok m ↔ Opened n m := by
  unfold node
  constructor
  · intro h
    cases hc : config n with
    | error e => rw [hc] at h; cases h
    | ok c =>
      rw [hc] at h
      cases h
      exact ⟨rfl, config_eq_ok_iff.mp hc, rfl, rfl⟩
  · intro h
    rw [config_eq_ok_iff.mpr h.opens]
    rcases m with ⟨id, c, position, label⟩
    obtain ⟨rfl, _, rfl, rfl⟩ := h
    rfl

theorem Opened.needsLayout {n : ReportNode} {m : FlowNode} (h : Opened n m) :
    m.needsLayout = n.needsLayout := by
  cases hp : n.position <;>
    simp [FlowNode.needsLayout, ReportNode.needsLayout, h.position, hp]

theorem reopen_eq_ok_iff {d : Definition} {g : Flow} :
    d.reopen = .ok g ↔ ∃ nodes, List.Forall₂ Opened d.graph.nodes nodes ∧
      g = ⟨Placement.placeAll nodes, d.graph.edges.map edge⟩ := by
  have hnodes {nodes} : d.graph.nodes.mapM node = .ok nodes ↔
      List.Forall₂ Opened d.graph.nodes nodes := by
    simp only [mapM_eq_ok_iff, node_eq_ok_iff]
  unfold Definition.reopen
  constructor
  · intro h
    cases hm : d.graph.nodes.mapM node with
    | error e => rw [hm] at h; cases h
    | ok nodes =>
      rw [hm] at h
      cases h
      exact ⟨nodes, hnodes.mp hm, rfl⟩
  · rintro ⟨nodes, hn, rfl⟩
    rw [hnodes.mpr hn]
    rfl

theorem Opens.isRelated {data : NodeData} {c : NodeConfig} (h : Opens data c) :
    data.isRelated = true := by
  cases h with
  | link d relation hr => simp [NodeData.isRelated, hr]
  | _ => rfl

theorem exists_opened {n : ReportNode} (h : n.data.isRelated = true) : ∃ m, Opened n m := by
  have hopens : ∃ c, Opens n.data c := by
    cases hd : n.data with
    | entity d => exact ⟨_, .entity d⟩
    | filter d => exact ⟨_, .filter d⟩
    | link d =>
      rw [hd] at h
      obtain ⟨relation, hr⟩ := Option.isSome_iff_exists.mp h
      exact ⟨_, .link d relation hr⟩
    | transform d => exact ⟨_, .transform d⟩
    | sheet d => exact ⟨_, .sheet d⟩
    | output d => exact ⟨_, .output d⟩
  obtain ⟨c, hc⟩ := hopens
  exact ⟨⟨n.id, c, n.position, some n.caption⟩, rfl, hc, rfl, rfl⟩

/-- Only a link without its relation keeps a definition from being reopened. -/
theorem exists_reopen {d : Definition} (h : ∀ n ∈ d.graph.nodes, n.data.isRelated = true) :
    ∃ g, d.reopen = .ok g := by
  have hnodes : ∃ nodes, List.Forall₂ Opened d.graph.nodes nodes := by
    generalize d.graph.nodes = stored at h
    induction stored with
    | nil => exact ⟨[], .nil⟩
    | cons n rest ih =>
      obtain ⟨m, hm⟩ := exists_opened (h n List.mem_cons_self)
      obtain ⟨ms, hms⟩ := ih fun n hn => h n (List.mem_cons_of_mem _ hn)
      exact ⟨m :: ms, .cons hm hms⟩
  obtain ⟨nodes, hn⟩ := hnodes
  exact ⟨_, reopen_eq_ok_iff.mpr ⟨nodes, hn, rfl⟩⟩

structure Shown (n : ReportNode) (m : FlowNode) : Prop where
  id : m.id = n.id
  opens : Opens n.data m.config
  stays : n.needsLayout = false → m.position = n.position
  placed : m.needsLayout = false
  label : m.label = some n.caption

theorem shown_of_moved {stored : List ReportNode} {nodes placed : List FlowNode}
    (ho : List.Forall₂ Opened stored nodes) (hm : List.Forall₂ Placement.Moved nodes placed)
    (hp : ∀ m ∈ placed, m.needsLayout = false) : List.Forall₂ Shown stored placed := by
  induction ho generalizing placed with
  | nil => cases hm; exact .nil
  | cons ho _ ih =>
    cases hm with
    | cons hm hrest =>
      have hstays := fun h => (hm.stays (ho.needsLayout.trans h)).trans ho.position
      refine .cons ⟨hm.id.trans ho.id, ?_, hstays, hp _ List.mem_cons_self, ?_⟩
        (ih hrest fun m hm => hp m (List.mem_cons_of_mem _ hm))
      · rw [hm.config]
        exact ho.opens
      · rw [hm.label]
        exact ho.label

theorem reopen_nodes {d : Definition} {g : Flow} (h : d.reopen = .ok g) :
    List.Forall₂ Shown d.graph.nodes g.nodes := by
  obtain ⟨nodes, hn, rfl⟩ := reopen_eq_ok_iff.mp h
  exact shown_of_moved hn (Placement.placeAll_moved nodes) (Placement.placeAll_placed nodes)

theorem reopen_edges {d : Definition} {g : Flow} (h : d.reopen = .ok g) :
    g.edges = d.graph.edges.map edge := by
  obtain ⟨nodes, _, rfl⟩ := reopen_eq_ok_iff.mp h
  rfl

end Reopening

namespace Compilation

open Reopening

structure Settles (n m : ReportNode) : Prop where
  id : m.id = n.id
  data : m.data = n.data.canonical
  stays : n.needsLayout = false → m.position = n.position
  placed : m.needsLayout = false

theorem node?_of_shown {n : ReportNode} {m : FlowNode} (h : Shown n m) :
    ∃ r, node? m = some r ∧ Settles n r := by
  refine ⟨⟨m.id, n.data.canonical, m.position⟩, ?_, h.id, rfl, h.stays, ?_⟩
  · simp [node?, nodeData?_of_opens h.opens]
  · have hp := h.placed
    unfold FlowNode.needsLayout at hp
    unfold ReportNode.needsLayout
    cases hm : m.position with
    | none => rw [hm] at hp; cases hp
    | some p => rw [hm] at hp; exact hp

/-- Every node comes back at its place in the order. -/
theorem graph_nodes_of_reopen {d : Definition} {g : Flow} (h : d.reopen = .ok g) :
    List.Forall₂ Settles d.graph.nodes (graph g).nodes := by
  have hshown := reopen_nodes h
  unfold graph
  generalize d.graph.nodes = stored at hshown
  generalize g.nodes = nodes at hshown
  induction hshown with
  | nil => exact .nil
  | cons hn _ ih =>
    obtain ⟨r, hr, hs⟩ := node?_of_shown hn
    simp only [List.filterMap_cons, hr]
    exact .cons hs ih

theorem graph_edges_of_reopen {d : Definition} {g : Flow} (h : d.reopen = .ok g) :
    (graph g).edges = d.graph.edges.map ReportEdge.named := by
  unfold graph
  rw [reopen_edges h, List.map_map]
  rfl

theorem Settles.eq_canonical {n m : ReportNode} (h : Settles n m) (hp : n.needsLayout = false) :
    m = n.canonical := by
  rcases m with ⟨id, data, position⟩
  obtain ⟨rfl, rfl, hstays, _⟩ := h
  have hpos : position = n.position := hstays hp
  rw [hpos]
  rfl

theorem graph_of_placed {d : Definition} {g : Flow} (h : d.reopen = .ok g)
    (hp : ∀ n ∈ d.graph.nodes, n.needsLayout = false) :
    graph g = ⟨d.graph.nodes.map ReportNode.canonical, d.graph.edges.map ReportEdge.named⟩ := by
  have hs := (List.forall₂_and_left _ _).mpr ⟨hp, graph_nodes_of_reopen h⟩
  have hnodes : (graph g).nodes = d.graph.nodes.map ReportNode.canonical :=
    eq_map_of_forall₂ (hs.imp fun n m hn => hn.2.eq_canonical hn.1)
  rw [← hnodes, ← graph_edges_of_reopen h]

end Compilation

structure StoredGraph.Settled (s : StoredGraph) : Prop where
  canonical : ∀ n ∈ s.nodes, n.canonical = n
  related : ∀ n ∈ s.nodes, n.data.isRelated = true
  placed : ∀ n ∈ s.nodes, n.needsLayout = false
  named : ∀ e ∈ s.edges, e.named = e

namespace Compilation

open Reopening

theorem isRelated_canonical (data : NodeData) : data.canonical.isRelated = data.isRelated := by
  cases data <;> rfl

/-- One round settles any graph that can be reopened at all. -/
theorem graph_settled {d : Definition} {g : Flow} (h : d.reopen = .ok g) : (graph g).Settled := by
  have hshown := reopen_nodes h
  have hnodes := graph_nodes_of_reopen h
  refine ⟨?_, ?_, ?_, ?_⟩
  · intro m hm
    obtain ⟨n, _, hs⟩ := forall₂_mem_right hnodes hm
    unfold ReportNode.canonical
    rw [hs.data, NodeData.canonical_canonical, ← hs.data]
  · intro m hm
    obtain ⟨n, hn, hs⟩ := forall₂_mem_right hnodes hm
    obtain ⟨_, _, ho⟩ := forall₂_mem_right hshown.flip hn
    rw [hs.data, isRelated_canonical]
    exact ho.opens.isRelated
  · intro m hm
    obtain ⟨n, _, hs⟩ := forall₂_mem_right hnodes hm
    exact hs.placed
  · intro e he
    rw [graph_edges_of_reopen h] at he
    obtain ⟨e, _, rfl⟩ := List.mem_map.mp he
    rfl

theorem reopen_settled {d : Definition} (hs : d.graph.Settled) :
    ∃ g, d.reopen = .ok g ∧ graph g = d.graph := by
  obtain ⟨g, hg⟩ := exists_reopen hs.related
  refine ⟨g, hg, ?_⟩
  have hnodes : d.graph.nodes.map ReportNode.canonical = d.graph.nodes := by
    rw [List.map_congr_left hs.canonical, List.map_id']
  have hedges : d.graph.edges.map ReportEdge.named = d.graph.edges := by
    rw [List.map_congr_left hs.named, List.map_id']
  rw [graph_of_placed hg hs.placed, hnodes, hedges]

end Compilation

namespace Sample

def sources : Sources := .start (.fixed ⟨0, 0, 0⟩) .sequential

/-- The sample, with an aggregate sheet, a cap by reference and edges without ids. -/
def definition : Definition := (Definition.sample sources).1

theorem exists_reopen : ∃ g, definition.reopen = .ok g :=
  Reopening.exists_reopen (by decide)

end Sample

end ReportFlow
