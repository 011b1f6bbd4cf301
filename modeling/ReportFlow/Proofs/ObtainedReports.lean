import ReportFlow.Compilation
import ReportFlow.Proofs.FlowCodec
import ReportFlow.Sample

/-!
Where definitions come from. Free values are in normal form in every flow and definition that is
read, and blank, sample and compiled definitions have no others.
-/

namespace ReportFlow

/-! ## Compiled definitions -/

namespace Compilation

theorem wellFormed_captioned {cs : List Condition} (h : ∀ c ∈ cs, c.WellFormed) :
    ∀ c ∈ cs.map captioned, c.WellFormed := by
  intro c hc
  obtain ⟨x, hx, rfl⟩ := List.mem_map.mp hc
  exact h x hx

theorem wellFormed_filterData {c : FilterConfig} (h : c.WellFormed) : (filterData c).WellFormed := by
  obtain ⟨hconditions, hgroups⟩ := h
  constructor
  · refine wellFormed_captioned ?_
    cases hcs : c.conditions with
    | none => exact List.forall_mem_nil _
    | some cs => exact hconditions cs hcs
  · intro gs hgs g hg
    cases hgs
    obtain ⟨x, hx, rfl⟩ := List.mem_map.mp hg
    refine wellFormed_captioned ?_
    cases hcs : c.groups with
    | none =>
      rw [hcs] at hx
      cases hx
    | some cs =>
      rw [hcs] at hx
      exact hgroups cs hcs x hx

theorem wellFormed_childFilters {groups : List (Group Condition)} (h : ∀ g ∈ groups, g.IsNormal) :
    ∀ c ∈ childFilters groups, c.WellFormed := by
  cases groups with
  | nil => exact List.forall_mem_nil _
  | cons group rest =>
    intro c hc
    obtain ⟨x, hx, rfl⟩ := List.mem_map.mp hc
    exact h group List.mem_cons_self x hx

theorem wellFormed_linkData {c : LinkConfig} (h : c.WellFormed) : (linkData c).WellFormed := by
  intro cs hcs
  cases hcs
  refine wellFormed_childFilters ?_
  cases hgs : c.childFilters with
  | none => exact List.forall_mem_nil _
  | some gs => exact h gs hgs

theorem wellFormed_nodeData {c : NodeConfig} {data : NodeData} (hc : c.WellFormed)
    (h : nodeData? c = some data) : data.WellFormed := by
  cases c with
  | filter c =>
    cases h
    exact wellFormed_filterData hc
  | link c =>
    cases h
    exact wellFormed_linkData hc
  | entity | transform | sheet | output =>
    cases h
    trivial
  | aggregate | concatenate | pivot | unrecognized => cases h

theorem wellFormed_graph {g : Flow} (h : g.WellFormed) : (graph g).WellFormed := by
  intro r hr
  obtain ⟨n, hn, hnode⟩ := List.mem_filterMap.mp hr
  obtain ⟨data, hdata, rfl⟩ := Option.map_eq_some_iff.mp hnode
  exact wellFormed_nodeData (h n hn) hdata

end Compilation

/-! ## All of them -/

namespace Definition

/-- How a definition comes about. A prior may come from anywhere, as long as what it holds of
parameters and artifacts does; whatever holds no free values may be set by hand. -/
inductive Obtained : Definition → Prop
  | decoded {o : Origin} {s : Source} {d : Definition} (h : codec.decode o s = .ok d) : Obtained d
  | blank (name entity : String) (s : Sources) : Obtained (blank name entity s).1
  | sample (s : Sources) : Obtained (sample s).1
  | compiled {g : Flow} {prior : Prior} {d : Definition} (s : Sources) (hg : g.WellFormed)
    (hd : Obtained d) (hparameters : ∀ ps ∈ prior.parameters, ps = d.parameters)
    (hartifacts : ∀ a ∈ prior.artifacts, d.artifacts = some a) :
    Obtained (g.compile (some prior) s).definition
  | edited {d e : Definition} (hd : Obtained d) (hparameters : e.parameters = d.parameters)
    (hgraph : e.graph = d.graph) (hartifacts : e.artifacts = d.artifacts) : Obtained e

theorem wellFormed_sample (s : Sources) : (sample s).1.WellFormed := by
  constructor
  · simp [sample, Sample.parameters, Sample.parameter, Parameter.WellFormed, Json.normal]
  · simp [sample, StoredGraph.WellFormed, Sample.nodes, Sample.node, NodeData.WellFormed,
      FilterData.WellFormed, LinkData.WellFormed, Group.WellFormed, CaptionedCondition.WellFormed,
      Sample.activeOnes, Sample.condition, Sample.joinedOrganizations, Sample.reviewSummary,
      Sample.organizationSheet, Json.normal]
  · simp [sample, Sample.artifacts, Artifacts.WellFormed, ChildPlan.WellFormed, Keyed.Sorted]

theorem Obtained.wellFormed {d : Definition} (h : d.Obtained) : d.WellFormed := by
  induction h with
  | decoded h => exact (of_decode h).1
  | blank name entity s => exact ⟨List.forall_mem_nil _, List.forall_mem_nil _, nofun⟩
  | sample s => exact wellFormed_sample s
  | @compiled g prior d s hg _ hparameters hartifacts ih =>
    refine ⟨?_, Compilation.wellFormed_graph hg, ?_⟩
    · show ∀ p ∈ prior.parameters.getD [], p.WellFormed
      cases hps : prior.parameters with
      | none => exact List.forall_mem_nil _
      | some ps =>
        show ∀ p ∈ ps, p.WellFormed
        rw [hparameters ps hps]
        exact ih.parameters
    · intro a ha
      exact ih.artifacts a (hartifacts a ha)
  | edited _ hparameters hgraph hartifacts ih =>
    exact ⟨hparameters ▸ ih.parameters, hgraph ▸ ih.graph, hartifacts ▸ ih.artifacts⟩

end Definition

def Sample.accounts (id : String) : Definition :=
  { (Definition.blank "Accounts" "account" (.start (.fixed ⟨0, 0, 0⟩) .sequential)).1 with id := id }

theorem Sample.obtained_accounts (id : String) : (accounts id).Obtained :=
  .edited (.blank "Accounts" "account" (.start (.fixed ⟨0, 0, 0⟩) .sequential)) rfl rfl rfl

end ReportFlow
