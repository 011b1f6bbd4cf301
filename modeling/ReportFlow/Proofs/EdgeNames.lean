import ReportFlow.Flow.Basic
import ReportFlow.Proofs.ReopenedGraph

/-!
Ids of edges that were given none. Such an id joins the two ends of its edge by a hyphen. The ends
are any texts and may hold hyphens themselves, so two edges can share an id: exactly when their ends
are two cuts of one text.
-/

namespace ReportFlow

def ReportEdge.ends (e : ReportEdge) : String × String := (e.source, e.target)

def FlowEdge.ends (e : FlowEdge) : String × String := (e.source, e.target)

def Flow.connectAll (g : Flow) (pairs : List (String × String)) : Flow :=
  pairs.foldl (fun g p => g.connect p.1 p.2) g

namespace FlowEdge

/-- Two cuts of one text at different hyphens, the second at the later one. -/
def CutEarlier (p q : String × String) : Prop :=
  ∃ between, q.1 = p.1 ++ "-" ++ between ∧ p.2 = between ++ "-" ++ q.2

def Entangled (p q : String × String) : Prop := CutEarlier p q ∨ CutEarlier q p

theorem toList_derivedId (source target : String) :
    (derivedId source target).toList = "edge-".toList ++ (source.toList ++ '-' :: target.toList) := by
  simp [derivedId]

theorem cutEarlier_iff {p q : String × String} : CutEarlier p q ↔
    ∃ between, q.1.toList = p.1.toList ++ '-' :: between ∧
      p.2.toList = between ++ '-' :: q.2.toList := by
  constructor
  · rintro ⟨between, hsource, htarget⟩
    exact ⟨between.toList, by simp [hsource], by simp [htarget]⟩
  · rintro ⟨between, hsource, htarget⟩
    refine ⟨String.ofList between, ?_, ?_⟩
    · exact String.toList_inj.mp (by simp [hsource])
    · exact String.toList_inj.mp (by simp [htarget])

/-- One text cut twice: at the same hyphen, or at a later one if the sources differ. -/
theorem eq_or_cutEarlier {p q : String × String} {mid : List Char}
    (hsource : q.1.toList = p.1.toList ++ mid)
    (htail : '-' :: p.2.toList = mid ++ '-' :: q.2.toList) : p = q ∨ CutEarlier p q := by
  cases mid with
  | nil =>
    obtain ⟨-, htarget⟩ := List.cons.inj htail
    rw [List.append_nil] at hsource
    exact .inl (Prod.ext (String.toList_inj.mp hsource.symm) (String.toList_inj.mp htarget))
  | cons c between =>
    obtain ⟨rfl, htarget⟩ := List.cons.inj htail
    exact .inr (cutEarlier_iff.mpr ⟨between, hsource, htarget⟩)

theorem CutEarlier.derivedId_eq {p q : String × String} (h : CutEarlier p q) :
    derivedId p.1 p.2 = derivedId q.1 q.2 := by
  obtain ⟨between, hsource, htarget⟩ := cutEarlier_iff.mp h
  rw [← String.toList_inj, toList_derivedId, toList_derivedId, hsource, htarget]
  simp

/-- The ids of two edges are the same exactly when their ends are, or are two cuts of one text. -/
theorem derivedId_eq_iff {p q : String × String} :
    derivedId p.1 p.2 = derivedId q.1 q.2 ↔ p = q ∨ Entangled p q := by
  constructor
  · intro h
    rw [← String.toList_inj, toList_derivedId, toList_derivedId, List.append_cancel_left_eq] at h
    rcases List.append_eq_append_iff.mp h with ⟨mid, hsource, htail⟩ | ⟨mid, hsource, htail⟩
    · exact (eq_or_cutEarlier hsource htail).imp_right .inl
    · exact (eq_or_cutEarlier hsource htail).imp Eq.symm .inr
  · rintro (rfl | hearlier | hlater)
    · rfl
    · exact hearlier.derivedId_eq
    · exact hlater.derivedId_eq.symm

theorem CutEarlier.mem_hyphen {p q : String × String} (h : CutEarlier p q) :
    '-' ∈ q.1.toList ∧ '-' ∈ p.2.toList := by
  obtain ⟨between, hsource, htarget⟩ := cutEarlier_iff.mp h
  exact ⟨by simp [hsource], by simp [htarget]⟩

/-- Entangled ends hold a hyphen on either side. -/
theorem Entangled.mem_hyphen {p q : String × String} (h : Entangled p q) :
    ('-' ∈ p.1.toList ∨ '-' ∈ q.1.toList) ∧ ('-' ∈ p.2.toList ∨ '-' ∈ q.2.toList) := by
  rcases h with h | h
  · exact ⟨.inr h.mem_hyphen.1, .inl h.mem_hyphen.2⟩
  · exact ⟨.inl h.mem_hyphen.1, .inr h.mem_hyphen.2⟩

/-- The ids of edges between the pairs: they are put together from the ends, and differ as long as
no two pairs are cuts of one text. -/
structure Named (pairs : List (String × String)) (ids : List String) : Prop where
  derived : ids = pairs.map fun p => "edge-" ++ p.1 ++ "-" ++ p.2
  apart : ids.Nodup ↔ pairs.Pairwise fun p q => ¬Entangled p q
  plainEnds : (∀ p ∈ pairs, '-' ∉ p.1.toList) ∨ (∀ p ∈ pairs, '-' ∉ p.2.toList) → ids.Nodup

theorem named_of_nodup {pairs : List (String × String)} (h : pairs.Nodup) :
    Named pairs (pairs.map fun p => derivedId p.1 p.2) := by
  have hapart : (pairs.map fun p => derivedId p.1 p.2).Nodup ↔
      pairs.Pairwise fun p q => ¬Entangled p q := by
    rw [List.Nodup, List.pairwise_map]
    constructor
    · intro hids
      exact hids.imp fun hne hentangled => hne (derivedId_eq_iff.mpr (.inr hentangled))
    · intro hentangled
      refine (h.and hentangled).imp fun ⟨hne, hnot⟩ heq => ?_
      exact (derivedId_eq_iff.mp heq).elim hne hnot
  refine ⟨rfl, hapart, fun hplain => hapart.mpr ?_⟩
  refine h.imp_of_mem fun {p q} hp hq _ hentangled => ?_
  obtain ⟨hsources, htargets⟩ := hentangled.mem_hyphen
  rcases hplain with hplain | hplain
  · exact hsources.elim (hplain p hp) (hplain q hq)
  · exact htargets.elim (hplain p hp) (hplain q hq)

end FlowEdge

theorem Flow.edges_connectAll (g : Flow) (pairs : List (String × String)) :
    (g.connectAll pairs).edges = g.edges ++ pairs.map fun p => FlowEdge.between p.1 p.2 := by
  induction pairs generalizing g with
  | nil => exact (List.append_nil _).symm
  | cons p rest ih =>
    have hrest := ih (g.connect p.1 p.2)
    rw [List.map_cons]
    exact hrest.trans (List.append_assoc _ _ _)

namespace Reopening

theorem ids_of_unnamed {d : Definition} {g : Flow} (h : d.reopen = .ok g)
    (hnone : ∀ e ∈ d.graph.edges, e.id = none) :
    g.edges.map (·.id) =
      (d.graph.edges.map (·.ends)).map fun p => FlowEdge.derivedId p.1 p.2 := by
  rw [reopen_edges h, List.map_map, List.map_map]
  refine List.map_congr_left fun e he => ?_
  show (edge e).id = FlowEdge.derivedId e.source e.target
  rw [edge, hnone e he]
  rfl

end Reopening

/-- Edges without stored ids between different pairs of ends, reopened from a definition or
connected in a flow: their ids differ exactly when no two of the pairs are cuts of one text. -/
theorem FlowEdge.ids_between (pairs : List (String × String)) (hpairs : pairs.Nodup) :
    (∀ (d : Definition) (g : Flow), d.reopen = .ok g → (∀ e ∈ d.graph.edges, e.id = none) →
      d.graph.edges.map (·.ends) = pairs →
        g.edges.map (·.ends) = pairs ∧ Named pairs (g.edges.map (·.id))) ∧
    ∀ g : Flow, ∃ added, (g.connectAll pairs).edges = g.edges ++ added ∧
      added.map (·.ends) = pairs ∧ Named pairs (added.map (·.id)) := by
  have hnamed := named_of_nodup hpairs
  constructor
  · rintro d g h hnone rfl
    constructor
    · rw [Reopening.reopen_edges h, List.map_map]
      rfl
    · rw [Reopening.ids_of_unnamed h hnone]
      exact hnamed
  · intro g
    refine ⟨_, g.edges_connectAll pairs, ?_, ?_⟩
    · rw [List.map_map]
      exact List.map_id' _
    · rw [List.map_map]
      exact hnamed

/-- The ids of the sample hold no hyphen. -/
theorem FlowEdge.ids_between_sample :
    ∃ g, Sample.definition.reopen = .ok g ∧ (g.edges.map (·.id)).Nodup ∧
      (g.edges.map (·.id)).head? = some "edge-n_entity-n_filter" := by
  obtain ⟨g, hg⟩ := Sample.exists_reopen
  obtain ⟨hreopened, -⟩ := ids_between (Sample.definition.graph.edges.map (·.ends)) (by decide)
  obtain ⟨-, hnamed⟩ := hreopened _ g hg (by decide) rfl
  refine ⟨g, hg, hnamed.plainEnds (.inl (by decide)), ?_⟩
  rw [hnamed.derived]
  rfl

namespace Sample

def hyphenated : Definition :=
  let nodes := ["a-b", "c", "a", "b-c"].map fun id => node id 50 50 (.entity employees)
  { definition with graph := ⟨nodes, [⟨"a-b", "c", none⟩, ⟨"a", "b-c", none⟩]⟩ }

end Sample

/-- Two edges between different nodes that are known by one id. -/
theorem FlowEdge.counterexample_shared_id :
    (∃ g, Sample.hyphenated.reopen = .ok g ∧
      (∀ e ∈ Sample.hyphenated.graph.edges, e.id = none) ∧
      (Sample.hyphenated.graph.edges.map (·.ends)).Nodup ∧ ¬(g.edges.map (·.id)).Nodup) ∧
    ("a-b", "c") ≠ ("a", "b-c") ∧
      ((Flow.empty.connect "a-b" "c").connect "a" "b-c").edges.map (·.id) =
        ["edge-a-b-c", "edge-a-b-c"] := by
  refine ⟨?_, by decide, by decide⟩
  obtain ⟨g, hg⟩ := Reopening.exists_reopen (d := Sample.hyphenated) (by decide)
  refine ⟨g, hg, by decide, by decide, ?_⟩
  rw [Reopening.reopen_edges hg]
  decide

end ReportFlow
