import Mathlib.Algebra.GroupWithZero.Nat
import ReportFlow.Proofs.ReopenedGraph

/-!
Captions of reopened nodes. A caption is written from the stored data. Here it is read a second
time, off the settings an editor holds, and compared with the caption of the node that these
settings compile to.
-/

namespace ReportFlow

/-- What the settings of a node sum up to. Settings that are not compiled have no summary. -/
def NodeConfig.summary? : NodeConfig → Option String
  | .entity c =>
    let fields := (c.attributes.getD []).length
    let entity := c.entity.getD unknownEntity
    some (if fields = 0 then entity else entity ++ " (" ++ toString fields ++ " fields)")
  | .filter c =>
    let inGroups := (c.groups.getD []).map fun g => g.conditions.length
    some ("Filter (" ++ toString ((c.conditions.getD []).length + inGroups.sum) ++ " conditions)")
  | .link c =>
    let aliasName := c.aliasName.getD Compilation.defaultAlias
    some <| match c.relation with
    | some relation =>
      (if aliasName = "" then relation.target else aliasName) ++ " (" ++
        relation.direction.name ++ ")"
    | none => aliasName
  | .transform c =>
    some ("Transform (" ++ toString (c.expressions.getD []).length ++ " expressions)")
  | .sheet c =>
    some (c.name.getD Compilation.defaultSheetName ++ " Sheet (" ++
      toString (c.columns.getD []).length ++ " columns)")
  | .output c => some ("Export " ++ (c.format.getD .xlsx).name.toUpper)
  | .aggregate _ | .concatenate _ | .pivot _ | .unrecognized _ _ => none

def NodeConfig.isPdf : NodeConfig → Bool
  | .output c => c.format = some .pdf
  | _ => false

def NodeData.isPdf : NodeData → Bool
  | .output d => d.format = .pdf
  | _ => false

namespace Compilation

theorem summary?_filter (c : FilterConfig) (n : ReportNode) (h : n.data = .filter (filterData c)) :
    (NodeConfig.filter c).summary? = some n.caption := by
  have hgroups : ((c.groups.getD []).map fun g => (g.map captioned).conditions.length) =
      (c.groups.getD []).map fun g => g.conditions.length := by
    apply List.map_congr_left
    intro g _
    exact List.length_map _
  have hcount : (filterData c).conditionCount = (c.conditions.getD []).length +
      ((c.groups.getD []).map fun g => g.conditions.length).sum := by
    unfold FilterData.conditionCount filterData
    simp only [List.length_map, Option.getD_some, List.map_map, Function.comp_def, hgroups]
    rfl
  simp only [NodeConfig.summary?, ReportNode.caption, h, hcount]

/-- The caption of a compiled node is what its settings sum up to, whoever wrote them. -/
theorem caption_of_settings {m : FlowNode} (hp : m.config.isPdf = false) :
    (node? m).map (·.caption) = m.config.summary? := by
  rcases m with ⟨id, c, position, label⟩
  cases c with
  | entity c =>
    by_cases hf : c.attributes.getD [] = []
    · simp [node?, nodeData?, ReportNode.caption, NodeConfig.summary?, entityData, hf]
    · simp [node?, nodeData?, ReportNode.caption, NodeConfig.summary?, entityData, hf]
  | filter c => exact (summary?_filter c _ rfl).symm
  | link c =>
    cases hr : c.relation <;>
      simp [node?, nodeData?, ReportNode.caption, NodeConfig.summary?, linkData, hr]
  | transform c => rfl
  | sheet c => simp [node?, nodeData?, ReportNode.caption, NodeConfig.summary?, sheetData]
  | output c =>
    rcases c with ⟨format, layout, fileName⟩
    rcases format with _ | format
    · rfl
    cases format with
    | pdf => cases hp
    | xlsx => rfl
    | csv => rfl
  | aggregate c => rfl
  | concatenate c => rfl
  | pivot c => rfl
  | unrecognized kind c => rfl

end Compilation

/-- Settling a node changes what its caption tells only if it asked for pdf. -/
theorem ReportNode.caption_canonical {n : ReportNode} (h : n.data.isPdf = false) :
    n.canonical.caption = n.caption := by
  rcases n with ⟨id, data, position⟩
  cases data with
  | entity d => rfl
  | filter d =>
    rcases d with ⟨logic, conditions, groups⟩
    simp [canonical, caption, NodeData.canonical, FilterData.canonical, FilterData.conditionCount,
      Function.comp_def, Group.map]
  | link d => rfl
  | transform d => rfl
  | sheet d => simp [canonical, caption, NodeData.canonical, SheetData.canonical]
  | output d =>
    have hf : d.format ≠ .pdf := of_decide_eq_false h
    simp [canonical, caption, NodeData.canonical, ExportData.canonical, hf]

theorem ExportFormat.toUpper_name (f : ExportFormat) :
    f.name.toUpper = match f with
      | .xlsx => "XLSX"
      | .csv => "CSV"
      | .pdf => "PDF" := by
  apply String.toList_inj.mp
  rw [String.toUpper, String.toList_map]
  cases f <;> rfl

theorem ReportNode.caption_pdf {n : ReportNode} (h : n.data.isPdf = true) :
    n.caption = "Export PDF" ∧ n.canonical.caption = "Export XLSX" := by
  rcases n with ⟨id, data, position⟩
  cases data with
  | output d =>
    have hf : d.format = .pdf := of_decide_eq_true h
    constructor
    · simp only [caption, hf, ExportFormat.toUpper_name]
      rfl
    · simp only [caption, canonical, NodeData.canonical, ExportData.canonical, hf, if_true,
        ExportFormat.toUpper_name]
      rfl
  | _ => cases h

def FlowNode.Described (m : FlowNode) : Prop :=
  ∃ r, Compilation.node? m = some r ∧ m.label = some r.caption

namespace Reopening

theorem Opens.isPdf_eq_false {data : NodeData} {c : NodeConfig} (h : Opens data c) :
    c.isPdf = false := by
  cases h with
  | output d =>
    unfold NodeConfig.isPdf exportConfig
    by_cases hf : d.format = .pdf
    · simp [hf]
    · simp [hf]
  | _ => rfl

/-- A stored node beside the node an editor shows for it: the label is right unless the stored
node is a pdf export, whose settings have been turned into xlsx. -/
structure Labelled (n : ReportNode) (m : FlowNode) : Prop where
  described : m.Described ↔ n.data.isPdf = false
  pdf : n.data.isPdf = true →
    m.label = some "Export PDF" ∧ m.config.summary? = some "Export XLSX"

variable {n : ReportNode} {m : FlowNode}

/-- The settings of a reopened node compile, and sum up to the caption of its canonical form. -/
theorem Shown.compiles (h : Shown n m) :
    ∃ r, Compilation.node? m = some r ∧ m.config.summary? = some r.caption ∧
      r.caption = n.canonical.caption := by
  obtain ⟨r, hr, hs⟩ := Compilation.node?_of_shown h
  have hheld := Compilation.caption_of_settings h.opens.isPdf_eq_false
  rw [hr] at hheld
  refine ⟨r, hr, hheld.symm, ?_⟩
  unfold ReportNode.caption
  rw [hs.data]
  rfl

theorem Shown.labelled (h : Shown n m) : Labelled n m := by
  obtain ⟨r, hr, hheld, hcap⟩ := h.compiles
  have hdescribed : m.Described ↔ n.caption = n.canonical.caption := by
    constructor
    · rintro ⟨r', hr', hl⟩
      obtain rfl : r = r' := Option.some.inj (hr.symm.trans hr')
      exact (Option.some.inj (h.label.symm.trans hl)).trans hcap
    · intro heq
      exact ⟨r, hr, by rw [h.label, heq, hcap]⟩
  refine ⟨hdescribed.trans ⟨?_, fun hp => (ReportNode.caption_canonical hp).symm⟩, ?_⟩
  · intro heq
    by_contra hp
    obtain ⟨hstored, hsettled⟩ := ReportNode.caption_pdf (eq_true_of_ne_false hp)
    rw [hstored, hsettled] at heq
    exact absurd heq (by decide)
  · intro hp
    obtain ⟨hstored, hsettled⟩ := ReportNode.caption_pdf hp
    exact ⟨by rw [h.label, hstored], by rw [hheld, hcap, hsettled]⟩

/-- Node by node, what the reopened nodes compile to. -/
theorem compiled_of_shown {stored : List ReportNode} {nodes : List FlowNode}
    (h : List.Forall₂ Shown stored nodes) :
    List.Forall₂ (fun m r => Compilation.node? m = some r ∧ m.config.summary? = some r.caption)
      nodes (nodes.filterMap Compilation.node?) := by
  induction h with
  | nil => exact .nil
  | cons hm _ ih =>
    obtain ⟨r, hr, hheld, -⟩ := hm.compiles
    rw [List.filterMap_cons_some hr]
    exact .cons ⟨hr, hheld⟩ ih

/-- Every node of a reopened definition compiles, to a node with the caption that its settings sum
up to. The label agrees with it at each place except where a pdf export is stored. -/
theorem captions_of_reopened {d : Definition} {g : Flow} (h : d.reopen = .ok g)
    (prior : Option Prior) (sources : Sources) :
    List.Forall₂ (fun m r => Compilation.node? m = some r ∧ m.config.summary? = some r.caption)
      g.nodes (g.compile prior sources).definition.graph.nodes ∧
    List.Forall₂ Labelled d.graph.nodes g.nodes ∧
    ((∀ m ∈ g.nodes, m.Described) ↔ ∀ n ∈ d.graph.nodes, n.data.isPdf = false) := by
  have hshown := reopen_nodes h
  have hlabelled := hshown.imp fun _ _ hm => hm.labelled
  refine ⟨compiled_of_shown hshown, hlabelled, ?_, ?_⟩
  · intro hall n hn
    obtain ⟨m, hm, hl⟩ := forall₂_mem_right hlabelled.flip hn
    exact hl.described.mp (hall m hm)
  · intro hall m hm
    obtain ⟨n, hn, hl⟩ := forall₂_mem_right hlabelled hm
    exact hl.described.mpr (hall n hn)

def printed : Definition :=
  let output : ReportNode :=
    Sample.node "n_export" 1550 250 (.output ⟨.pdf, .multiSheet, "Employees.pdf", none⟩)
  { Sample.definition with graph := ⟨Sample.nodes.dropLast ++ [output], Sample.edges⟩ }

theorem captions_of_reopened_printed :
    ∃ g, printed.reopen = .ok g ∧ List.Forall₂ Labelled printed.graph.nodes g.nodes ∧
      ¬ ∀ m ∈ g.nodes, m.Described := by
  obtain ⟨g, hg⟩ := exists_reopen (d := printed) (by decide)
  obtain ⟨-, hlabelled, hall⟩ := captions_of_reopened hg none Sample.sources
  exact ⟨g, hg, hlabelled, fun h => absurd (hall.mp h) (by decide)⟩

end Reopening

end ReportFlow
