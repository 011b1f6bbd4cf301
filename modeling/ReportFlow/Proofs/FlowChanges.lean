import ReportFlow.Proofs.CanvasIntegrity
import ReportFlow.Proofs.CycleSearch

/-!
Flows that are changed step by step. Nodes come under unused ids and edges between nodes that are there,
so ids stay distinct and no edge dangles. Removing a node takes its edges along: it closes no ring, and
it undoes the addition of the node with whatever edges it was given.
-/

namespace ReportFlow

namespace Flow

inductive Change where
  | add (n : FlowNode)
  | connect (source target : String)
  | link (e : FlowEdge)
  | remove (id : String)

namespace Change

def apply (g : Flow) : Change → Flow
  | add n => g.addNode n
  | connect source target => g.connect source target
  | link e => g.addEdge e
  | remove id => (g.removeNode id).2

/-- A node comes under an unused id, an edge between nodes that are there. -/
def Allowed (g : Flow) : Change → Prop
  | add n => n.id ∉ g.nodes.map (·.id)
  | connect source target => source ∈ g.nodes.map (·.id) ∧ target ∈ g.nodes.map (·.id)
  | link e => e.source ∈ g.nodes.map (·.id) ∧ e.target ∈ g.nodes.map (·.id)
  | remove _ => True

instance (g : Flow) : (c : Change) → Decidable (c.Allowed g)
  | add n => inferInstanceAs (Decidable (n.id ∉ g.nodes.map (·.id)))
  | connect source target =>
    inferInstanceAs (Decidable (source ∈ g.nodes.map (·.id) ∧ target ∈ g.nodes.map (·.id)))
  | link e => inferInstanceAs (Decidable (e.source ∈ g.nodes.map (·.id) ∧ e.target ∈ g.nodes.map (·.id)))
  | remove _ => inferInstanceAs (Decidable True)

end Change

def run (g : Flow) (changes : List Change) : Flow := changes.foldl Change.apply g

def Permitted (g : Flow) : List Change → Prop
  | [] => True
  | c :: rest => c.Allowed g ∧ Permitted (c.apply g) rest

instance decidablePermitted (g : Flow) : (changes : List Change) → Decidable (g.Permitted changes)
  | [] => inferInstanceAs (Decidable True)
  | c :: rest => @instDecidableAnd _ _ inferInstance (decidablePermitted (c.apply g) rest)

variable {g : Flow}

/-! ## Removing a node -/

theorem node?_eq_none_iff {id : String} : g.node? id = none ↔ id ∉ g.nodes.map (·.id) := by
  simp [node?]

/-- The first node of an id, with the nodes on both sides of it. -/
theorem node?_eq_some_iff {id : String} {n : FlowNode} :
    g.node? id = some n ↔ n.id = id ∧ ∃ before after, g.nodes = before ++ n :: after ∧
      ∀ m ∈ before, m.id ≠ id := by
  simp [node?, List.find?_eq_some_iff_append]

theorem removeNode_of_missing {id : String} (h : id ∉ g.nodes.map (·.id)) :
    g.removeNode id = (none, g) := by
  rw [removeNode, node?_eq_none_iff.mpr h]

/-- Only the first node of the id goes, with the edges that touch it. -/
theorem removeNode_of_first {n : FlowNode} {before after : List FlowNode}
    (hnodes : g.nodes = before ++ n :: after) (hbefore : ∀ m ∈ before, m.id ≠ n.id) :
    g.removeNode n.id = (some n, ⟨before ++ after,
      g.edges.filter fun e => e.source ≠ n.id ∧ e.target ≠ n.id⟩) := by
  have hfound : g.node? n.id = some n := node?_eq_some_iff.mpr ⟨rfl, before, after, hnodes, hbefore⟩
  have hrest : g.nodes.eraseP (·.id == n.id) = before ++ after := by
    rw [hnodes, List.eraseP_append_right _ (by simpa using hbefore)]
    simp
  have hedges : (fun e => !touches e n.id) =
      fun e : FlowEdge => decide (e.source ≠ n.id ∧ e.target ≠ n.id) := by
    funext e
    simp [touches, Bool.beq_eq_decide_eq]
  rw [removeNode, hfound]
  simp only [hrest, hedges]

theorem removeNode_of_present {id : String} (h : id ∈ g.nodes.map (·.id)) :
    ∃ before n after, g.nodes = before ++ n :: after ∧ n.id = id ∧ (∀ m ∈ before, m.id ≠ id) ∧
      g.removeNode id = (some n, ⟨before ++ after, g.edges.filter fun e => e.source ≠ id ∧ e.target ≠ id⟩) := by
  cases hfound : g.node? id with
  | none => exact absurd h (node?_eq_none_iff.mp hfound)
  | some n =>
    obtain ⟨rfl, before, after, hnodes, hbefore⟩ := node?_eq_some_iff.mp hfound
    exact ⟨before, n, after, hnodes, rfl, hbefore, removeNode_of_first hnodes hbefore⟩

structure Within (g g' : Flow) : Prop where
  nodes : g.nodes.Sublist g'.nodes
  edges : g.edges.Sublist g'.edges

theorem within_removeNode (g : Flow) (id : String) : (g.removeNode id).2.Within g := by
  by_cases h : id ∈ g.nodes.map (·.id)
  · obtain ⟨before, n, after, hnodes, -, -, hremove⟩ := removeNode_of_present h
    rw [hremove]
    refine ⟨?_, List.filter_sublist⟩
    rw [hnodes]
    exact (List.sublist_cons_self n after).append_left before
  · rw [removeNode_of_missing h]
    exact ⟨List.Sublist.refl _, List.Sublist.refl _⟩

/-- Fewer edges join in fewer rings. -/
theorem Within.isRing {g' : Flow} (h : g.Within g') {ring : List Link} (hring : g.outline.IsRing ring) :
    g'.outline.IsRing ring where
  nonempty := hring.nonempty
  links l hl := (h.edges.map _).subset (hring.links l hl)
  joined := hring.joined
  closed := hring.closed

theorem Within.hasCycle {g' : Flow} (h : g.Within g') (hcycle : g.outline.hasCycle = true) :
    g'.outline.hasCycle = true := by
  obtain ⟨ring, hring⟩ := (Outline.hasCycle_iff_isCyclic _).mp hcycle
  exact (Outline.hasCycle_iff_isCyclic _).mpr ⟨ring, h.isRing hring⟩

/-! ## Changes in a row -/

theorem Joined.addNode (h : g.Joined) {n : FlowNode} (hn : n.id ∉ g.nodes.map (·.id)) :
    (g.addNode n).Joined := by
  have hids : (g.addNode n).nodes.map (·.id) = g.nodes.map (·.id) ++ [n.id] := List.map_append
  constructor
  · rw [hids, List.nodup_append]
    refine ⟨h.distinct, List.nodup_singleton _, ?_⟩
    rintro id hid _ hlast rfl
    exact hn (List.mem_singleton.mp hlast ▸ hid)
  · rw [hids]
    exact fun e he => List.mem_append_left _ (h.source e he)
  · rw [hids]
    exact fun e he => List.mem_append_left _ (h.target e he)

theorem Joined.addEdge (h : g.Joined) {e : FlowEdge} (hsource : e.source ∈ g.nodes.map (·.id))
    (htarget : e.target ∈ g.nodes.map (·.id)) : (g.addEdge e).Joined where
  distinct := h.distinct
  source := List.forall_mem_append.mpr ⟨h.source, List.forall_mem_singleton.mpr hsource⟩
  target := List.forall_mem_append.mpr ⟨h.target, List.forall_mem_singleton.mpr htarget⟩

/-- An edge that is left does not end at the removed node, so the nodes it joins are left too. -/
theorem Joined.removeNode (h : g.Joined) (id : String) : (g.removeNode id).2.Joined := by
  by_cases hid : id ∈ g.nodes.map (·.id)
  · have hwithin := g.within_removeNode id
    obtain ⟨before, n, after, hnodes, rfl, -, hremove⟩ := removeNode_of_present hid
    rw [hremove] at hwithin ⊢
    have hkept {other : String} (hmem : other ∈ g.nodes.map (·.id)) (hne : other ≠ n.id) :
        other ∈ (before ++ after).map (·.id) := by
      rw [hnodes] at hmem
      simp only [List.map_append, List.map_cons, List.mem_append, List.mem_cons] at hmem ⊢
      tauto
    constructor
    · exact h.distinct.sublist (hwithin.nodes.map _)
    · intro e he
      obtain ⟨he, hends⟩ := List.mem_filter.mp he
      exact hkept (h.source e he) (of_decide_eq_true hends).1
    · intro e he
      obtain ⟨he, hends⟩ := List.mem_filter.mp he
      exact hkept (h.target e he) (of_decide_eq_true hends).2
  · rw [removeNode_of_missing hid]
    exact h

theorem Joined.apply (h : g.Joined) {c : Change} (hc : c.Allowed g) : (c.apply g).Joined := by
  cases c with
  | add n => exact h.addNode hc
  | connect source target => exact h.addEdge hc.1 hc.2
  | link e => exact h.addEdge hc.1 hc.2
  | remove id => exact h.removeNode id

theorem Joined.run {before after : List Change} (h : g.Joined) (hp : g.Permitted (before ++ after)) :
    (g.run before).Joined := by
  induction before generalizing g with
  | nil => exact h
  | cons c before ih => exact ih (h.apply hp.1) hp.2

/-! ## Undoing an addition -/

theorem foldl_addEdge (g : Flow) (edges : List FlowEdge) :
    edges.foldl addEdge g = ⟨g.nodes, g.edges ++ edges⟩ := by
  induction edges generalizing g with
  | nil => simp
  | cons e rest ih =>
    rw [List.foldl_cons, ih]
    simp [addEdge]

theorem removeNode_addNode {n : FlowNode} {edges : List FlowEdge} (hfresh : n.id ∉ g.nodes.map (·.id))
    (hloose : ∀ e ∈ g.edges, e.source ≠ n.id ∧ e.target ≠ n.id)
    (htouch : ∀ e ∈ edges, e.source = n.id ∨ e.target = n.id) :
    (edges.foldl addEdge (g.addNode n)).removeNode n.id = (some n, g) := by
  have hbefore : ∀ m ∈ g.nodes, m.id ≠ n.id := by
    intro m hm heq
    exact hfresh (heq ▸ List.mem_map_of_mem hm)
  have hold : (g.edges.filter fun e => e.source ≠ n.id ∧ e.target ≠ n.id) = g.edges := by
    rw [List.filter_eq_self]
    exact fun e he => decide_eq_true (hloose e he)
  have hnew : (edges.filter fun e => e.source ≠ n.id ∧ e.target ≠ n.id) = [] := by
    rw [List.filter_eq_nil_iff]
    intro e he hends
    have := of_decide_eq_true hends
    have := htouch e he
    tauto
  rw [foldl_addEdge, removeNode_of_first rfl hbefore]
  simp only [addNode, List.append_nil, List.filter_append, hold, hnew]

/-- Changes that are allowed where they are made leave distinct ids and no dangling edge at every
turn, and a removal closes no ring. A removal takes the first node of its id and just the edges that
touch it, and nothing when there is no such node; it undoes the addition of a node with its edges. -/
theorem changes_keep_joined :
    (∀ {g : Flow} {before after : List Change}, g.Joined → g.Permitted (before ++ after) →
      (g.run before).Joined) ∧
    (∀ (g : Flow) (id : String),
      (∀ ring, (g.removeNode id).2.outline.IsRing ring → g.outline.IsRing ring) ∧
      ((g.removeNode id).2.outline.hasCycle = true → g.outline.hasCycle = true)) ∧
    (∀ (g : Flow) (id : String), id ∉ g.nodes.map (·.id) → g.removeNode id = (none, g)) ∧
    (∀ (g : Flow) (id : String), id ∈ g.nodes.map (·.id) →
      ∃ before n after, g.nodes = before ++ n :: after ∧ n.id = id ∧ (∀ m ∈ before, m.id ≠ id) ∧
        g.removeNode id =
          (some n, ⟨before ++ after, g.edges.filter fun e => e.source ≠ id ∧ e.target ≠ id⟩)) ∧
    ∀ (g : Flow) (n : FlowNode) (edges : List FlowEdge), n.id ∉ g.nodes.map (·.id) →
      (∀ e ∈ g.edges, e.source ≠ n.id ∧ e.target ≠ n.id) →
      (∀ e ∈ edges, e.source = n.id ∨ e.target = n.id) →
      (edges.foldl addEdge (g.addNode n)).removeNode n.id = (some n, g) := by
  refine ⟨?_, ?_, ?_, ?_, ?_⟩
  · intro g before after h hp
    exact h.run hp
  · intro g id
    have hwithin := g.within_removeNode id
    exact ⟨fun ring hring => hwithin.isRing hring, hwithin.hasCycle⟩
  · intro g id h
    exact removeNode_of_missing h
  · intro g id h
    exact removeNode_of_present h
  · intro g n edges hfresh hloose htouch
    exact removeNode_addNode hfresh hloose htouch

namespace Visit

def visitor : FlowNode := .ofConfig "visitor" (.sheet .empty)

def edges : List FlowEdge :=
  [.between "accounts" "visitor", ⟨"loop", "visitor", "visitor"⟩, .between "visitor" "accounts",
    .between "accounts" "visitor"]

def coming : List Change := .add visitor :: edges.map .link

end Visit

open Visit Sample in
/-- A node that closes a ring comes, and leaves the flow as it was. -/
theorem changes_keep_joined_visit :
    accountTotals.Joined ∧ accountTotals.Permitted (coming ++ [.remove "visitor", .remove "nobody"]) ∧
      (accountTotals.run coming).Joined ∧ (accountTotals.run coming).outline.hasCycle = true ∧
      ((accountTotals.run coming).removeNode "visitor") = (some visitor, accountTotals) := by
  obtain ⟨hrun, _, _, _, hundo⟩ := changes_keep_joined
  have hjoined : accountTotals.Joined := ⟨by decide, by decide, by decide⟩
  have hpermitted : accountTotals.Permitted (coming ++ [.remove "visitor", .remove "nobody"]) := by decide
  exact ⟨hjoined, hpermitted, hrun hjoined hpermitted, by decide,
    hundo accountTotals visitor Visit.edges (by decide) (by decide) (by decide)⟩

end Flow

end ReportFlow
