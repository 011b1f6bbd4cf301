import Mathlib.Data.List.Permutation
import ReportFlow.Definition.Basic
import ReportFlow.Proofs.RecordLaws

/-!
The codecs of a stored definition are lawful, so a definition that was written is read back as it
was, unless it nests too deep.
-/

namespace ReportFlow

open Codec (lawful_string lawful_bool lawful_double lawful_uint32 lawful_uint64 lawful_free
  lawful_free_option lawful_list lawful_map lawful_variant lawful_record)
open ReportFlow.Field (restores_required restores_defaulted restores_nullable restores_optional
  lawful_required lawful_defaulted lawful_defaulted_nil lawful_optional lawful_optional_of_option
  lawful_nullable)

variable {n : Nat}

/-! ## Parts without free values -/

theorem lawful_strings : (Codec.list .string).Lawful (n + 1) fun _ => True :=
  (lawful_list lawful_string).congr (by simp)

theorem Timezone.lawful : Timezone.codec.Lawful n fun _ => True :=
  lawful_variant fun a => by cases a <;> rfl

theorem Operator.lawful : Operator.codec.Lawful n fun _ => True :=
  lawful_variant fun a => by cases a <;> rfl

theorem Logic.lawful : Logic.codec.Lawful n fun _ => True :=
  lawful_variant fun a => by cases a <;> rfl

theorem RelationDirection.lawful : RelationDirection.codec.Lawful n fun _ => True :=
  lawful_variant fun a => by cases a <;> rfl

theorem JoinType.lawful : JoinType.codec.Lawful n fun _ => True :=
  lawful_variant fun a => by cases a <;> rfl

theorem PolicyKind.lawful : PolicyKind.codec.Lawful n fun _ => True :=
  lawful_variant fun a => by cases a <;> rfl

theorem MeasureFunc.lawful : MeasureFunc.codec.Lawful n fun _ => True :=
  lawful_variant fun a => by cases a <;> rfl

theorem SheetMode.lawful : SheetMode.codec.Lawful n fun _ => True :=
  lawful_variant fun a => by cases a <;> rfl

theorem ColumnFormat.lawful : ColumnFormat.codec.Lawful n fun _ => True :=
  lawful_variant fun a => by cases a <;> rfl

theorem Align.lawful : Align.codec.Lawful n fun _ => True :=
  lawful_variant fun a => by cases a <;> rfl

theorem ExportFormat.lawful : ExportFormat.codec.Lawful n fun _ => True :=
  lawful_variant fun a => by cases a <;> rfl

theorem WorkbookMode.lawful : WorkbookMode.codec.Lawful n fun _ => True :=
  lawful_variant fun a => by cases a <;> rfl

theorem ExecuteAs.lawful : ExecuteAs.codec.Lawful n fun _ => True :=
  lawful_variant fun a => by cases a <;> rfl

theorem ParameterType.lawful : ParameterType.codec.Lawful n fun _ => True :=
  lawful_variant fun a => by cases a <;> rfl

theorem CompiledKind.lawful : CompiledKind.codec.Lawful n fun _ => True :=
  lawful_variant fun a => by cases a <;> rfl

theorem Position.lawful : Position.codec.Lawful (n + 1) fun _ => True :=
  lawful_record
    (.cons (lawful_required lawful_double) <| .cons (lawful_required lawful_double) .nil)
    (by decide) (fun _ => rfl) (fun _ => rfl) (by simp)

theorem SortKey.lawful : SortKey.codec.Lawful (n + 1) fun _ => True :=
  lawful_record
    (.cons (lawful_required lawful_string) <|
      .cons (lawful_defaulted lawful_bool trivial (Nat.zero_le _)) .nil)
    (by decide) (fun _ => rfl) (fun _ => rfl) (by simp)

theorem lawful_sortKeys : (Codec.list SortKey.codec).Lawful (n + 2) fun _ => True :=
  (lawful_list SortKey.lawful).congr (by simp)

theorem Relation.lawful : Relation.codec.Lawful (n + 1) fun _ => True :=
  lawful_record
    (.cons (lawful_required RelationDirection.lawful) <|
      .cons (lawful_required lawful_string) <| .cons (lawful_required lawful_string) <|
      .cons (lawful_required lawful_string) <| .cons (lawful_required lawful_string) .nil)
    (by decide) (fun _ => rfl) (fun _ => rfl) (by simp)

theorem Measure.lawful : Measure.codec.Lawful (n + 1) fun _ => True :=
  lawful_record
    (.cons (lawful_required MeasureFunc.lawful) <| .cons (lawful_optional lawful_string nofun) <|
      .cons (lawful_required lawful_string) .nil)
    (by decide) (fun _ => rfl) (fun _ => rfl) (by simp)

theorem Expression.lawful : Expression.codec.Lawful (n + 1) fun _ => True :=
  lawful_record
    (.cons (lawful_required lawful_string) <| .cons (lawful_required lawful_string) .nil)
    (by decide) (fun _ => rfl) (fun _ => rfl) (by simp)

theorem EntityData.lawful : EntityData.codec.Lawful (n + 3) fun _ => True :=
  lawful_record
    (.cons (lawful_required lawful_string) <|
      .cons (lawful_defaulted_nil lawful_strings trivial) <|
      .cons (lawful_defaulted_nil lawful_sortKeys trivial) <|
      .cons (lawful_optional Timezone.lawful nofun) <|
      .cons (lawful_optional lawful_uint32 nofun) .nil)
    (by decide) (fun _ => rfl) (fun _ => rfl) (by simp)

theorem RowCap.decode_literal {o : Origin} {s : Source} {j : Json} {n : UInt32}
    (hs : s.toJson = .ok j) (hread : Codec.uint32.ofJson? j = .ok n) :
    RowCap.codec.decode o s = .ok (.literal n) := by
  simp only [RowCap.codec, hs, Except.mapError, bind, Except.bind, hread]
  rfl

/-- The two kinds of cap are written as values of different kinds. -/
theorem RowCap.lawful : RowCap.codec.Lawful n fun _ => True := by
  refine Codec.lawful_flat (fun cap => ?_) (fun cap _ o room => ?_) fun _ => trivial
  · cases cap <;> rfl
  · cases cap with
    | literal n =>
      have hread := ((lawful_uint32 (n := 0)).restores (a := n) trivial).value .value
      exact RowCap.decode_literal rfl hread
    | parameter reference => rfl

theorem ManyPolicy.lawful : ManyPolicy.codec.Lawful (n + 3) fun _ => True :=
  lawful_record
    (.cons (lawful_required PolicyKind.lawful) <| .cons (lawful_optional lawful_string nofun) <|
      .cons (lawful_optional lawful_string nofun) <| .cons (lawful_optional lawful_sortKeys nofun) <|
      .cons (lawful_optional RowCap.lawful fun {cap} => by cases cap <;> exact nofun) <|
      .cons (lawful_optional lawful_string nofun) <|
      .cons (lawful_optional (lawful_list Measure.lawful) nofun) <|
      .cons (lawful_optional lawful_strings nofun) <| .cons (lawful_optional lawful_string nofun) <|
      .cons (lawful_optional lawful_strings nofun) .nil)
    (by decide) (fun _ => rfl) (fun _ => rfl) (by simp)

theorem TransformData.lawful : TransformData.codec.Lawful (n + 3) fun _ => True :=
  lawful_record
    (.cons (lawful_defaulted_nil (lawful_list Expression.lawful) (List.forall_mem_nil _)) .nil)
    (by decide) (fun _ => rfl) (fun _ => rfl) (by simp)

theorem SheetColumn.lawful : SheetColumn.codec.Lawful (n + 1) fun _ => True :=
  lawful_record
    (.cons (lawful_required lawful_string) <| .cons (lawful_required lawful_string) <|
      .cons (lawful_optional lawful_uint32 nofun) <|
      .cons (lawful_optional ColumnFormat.lawful nofun) <|
      .cons (lawful_optional Align.lawful nofun) <| .cons (lawful_optional lawful_bool nofun) .nil)
    (by decide) (fun _ => rfl) (fun _ => rfl) (by simp)

theorem SheetFreeze.lawful : SheetFreeze.codec.Lawful (n + 1) fun _ => True :=
  lawful_record
    (.cons (lawful_optional lawful_uint32 nofun) <| .cons (lawful_optional lawful_uint32 nofun) .nil)
    (by decide) (fun _ => rfl) (fun _ => rfl) (by simp)

theorem SheetStyles.lawful : SheetStyles.codec.Lawful (n + 1) fun _ => True :=
  lawful_record
    (.cons (lawful_optional lawful_bool nofun) <| .cons (lawful_optional lawful_bool nofun) <|
      .cons (lawful_optional lawful_bool nofun) .nil)
    (by decide) (fun _ => rfl) (fun _ => rfl) (by simp)

theorem SheetHyperlinks.lawful : SheetHyperlinks.codec.Lawful (n + 1) fun _ => True :=
  lawful_record (.cons (lawful_optional lawful_bool nofun) .nil)
    (by decide) (fun _ => rfl) (fun _ => rfl) (by simp)

theorem SheetData.lawful : SheetData.codec.Lawful (n + 3) fun _ => True :=
  lawful_record
    (.cons (lawful_required lawful_string) <| .cons (lawful_required SheetMode.lawful) <|
      .cons (lawful_defaulted_nil (lawful_list SheetColumn.lawful) (List.forall_mem_nil _)) <|
      .cons (lawful_optional SheetFreeze.lawful nofun) <|
      .cons (lawful_optional SheetStyles.lawful nofun) <|
      .cons (lawful_optional SheetHyperlinks.lawful nofun) .nil)
    (by decide) (fun _ => rfl) (fun _ => rfl) (by simp)

theorem ExportData.lawful : ExportData.codec.Lawful (n + 1) fun _ => True :=
  lawful_record
    (.cons (lawful_required ExportFormat.lawful) <| .cons (lawful_required WorkbookMode.lawful) <|
      .cons (lawful_required lawful_string) <| .cons (lawful_optional lawful_bool nofun) .nil)
    (by decide) (fun _ => rfl) (fun _ => rfl) (by simp)

theorem ReportEdge.lawful : ReportEdge.codec.Lawful (n + 1) fun _ => True :=
  lawful_record
    (.cons (lawful_required lawful_string) <| .cons (lawful_required lawful_string) <|
      .cons (lawful_optional lawful_string nofun) .nil)
    (by decide) (fun _ => rfl) (fun _ => rfl) (by simp)

theorem RowEstimate.lawful : RowEstimate.codec.Lawful (n + 1) fun _ => True :=
  lawful_record
    (.cons (lawful_required lawful_uint64) <| .cons (lawful_optional lawful_double nofun) <|
      .cons (lawful_optional lawful_uint64 nofun) .nil)
    (by decide) (fun _ => rfl) (fun _ => rfl) (by simp)

theorem Hints.lawful : Hints.codec.Lawful (n + 2) fun _ => True :=
  lawful_record
    (.cons (lawful_optional RowEstimate.lawful nofun) <|
      .cons (lawful_defaulted_nil lawful_strings trivial) <|
      .cons (lawful_optional lawful_double nofun) .nil)
    (by decide) (fun _ => rfl) (fun _ => rfl) (by simp)

theorem SnapshotRef.lawful : SnapshotRef.codec.Lawful (n + 1) fun _ => True :=
  lawful_record
    (.cons (lawful_required lawful_string) <| .cons (lawful_required lawful_string) <|
      .cons (lawful_required lawful_uint32) .nil)
    (by decide) (fun _ => rfl) (fun _ => rfl) (by simp)

theorem Owner.lawful : Owner.codec.Lawful (n + 1) fun _ => True :=
  lawful_record
    (.cons (lawful_required lawful_string) <| .cons (lawful_required lawful_string) .nil)
    (by decide) (fun _ => rfl) (fun _ => rfl) (by simp)

theorem Security.lawful : Security.codec.Lawful (n + 2) fun _ => True :=
  lawful_record
    (.cons (lawful_required ExecuteAs.lawful) <|
      .cons (lawful_defaulted_nil lawful_strings trivial) <|
      .cons (lawful_nullable lawful_string nofun) .nil)
    (by decide) (fun _ => rfl) (fun _ => rfl) (by simp)

theorem MetadataSheet.lawful : MetadataSheet.codec.Lawful (n + 1) fun _ => True :=
  lawful_record
    (.cons (lawful_required lawful_bool) <| .cons (lawful_required lawful_string) .nil)
    (by decide) (fun _ => rfl) (fun _ => rfl) (by simp)

theorem Layout.lawful_workbook : Layout.workbookCodec.Lawful (n + 2) fun _ => True :=
  lawful_record
    (.cons (lawful_required WorkbookMode.lawful) <|
      .cons (lawful_defaulted_nil lawful_strings trivial) <|
      .cons (lawful_optional MetadataSheet.lawful nofun) .nil)
    (by decide) (fun _ => rfl) (fun _ => rfl) (by simp)

theorem Layout.lawful : Layout.codec.Lawful (n + 3) fun _ => True :=
  lawful_record (.cons (lawful_required Layout.lawful_workbook) .nil)
    (by decide) (fun _ => rfl) (fun _ => rfl) (by simp)

theorem Limits.lawful : Limits.codec.Lawful (n + 1) fun _ => True :=
  lawful_record
    (.cons (lawful_required lawful_uint32) <| .cons (lawful_required lawful_uint32) <|
      .cons (lawful_required lawful_uint32) <| .cons (lawful_required lawful_uint32) <|
      .cons (lawful_required lawful_uint32) <| .cons (lawful_required lawful_uint32) .nil)
    (by decide) (fun _ => rfl) (fun _ => rfl) (by simp)

/-! ## Parts with free values

A free value is kept in its normal form, and maps in ascending order of their keys. -/

def CaptionedCondition.WellFormed (c : CaptionedCondition) : Prop :=
  c.condition.value.normal = c.condition.value

theorem CaptionedCondition.lawful : CaptionedCondition.codec.Lawful (n + 1) CaptionedCondition.WellFormed :=
  lawful_record
    (.cons (lawful_required lawful_string) <| .cons (lawful_required Operator.lawful) <|
      .cons (lawful_required lawful_free) <| .cons (lawful_optional lawful_string nofun) .nil)
    (by decide) (fun _ => rfl) (fun _ => rfl) (by simp [CaptionedCondition.WellFormed])

theorem lawful_conditions :
    (Codec.list CaptionedCondition.codec).Lawful (n + 2) fun cs => ∀ c ∈ cs, c.WellFormed :=
  lawful_list CaptionedCondition.lawful

def Group.WellFormed (g : Group CaptionedCondition) : Prop := ∀ c ∈ g.conditions, c.WellFormed

theorem Group.lawful : Group.codec.Lawful (n + 3) Group.WellFormed :=
  lawful_record
    (.cons (lawful_required Logic.lawful) <|
      .cons (lawful_defaulted_nil lawful_conditions (List.forall_mem_nil _)) .nil)
    (by decide) (fun _ => rfl) (fun _ => rfl) (by simp [Group.WellFormed])

def FilterData.WellFormed (f : FilterData) : Prop :=
  (∀ c ∈ f.conditions, c.WellFormed) ∧ ∀ gs ∈ f.groups, ∀ g ∈ gs, g.WellFormed

theorem FilterData.lawful : FilterData.codec.Lawful (n + 5) FilterData.WellFormed :=
  lawful_record
    (.cons (lawful_required Logic.lawful) <|
      .cons (lawful_defaulted_nil lawful_conditions (List.forall_mem_nil _)) <|
      .cons (lawful_optional (lawful_list Group.lawful) nofun) .nil)
    (by decide) (fun _ => rfl) (fun _ => rfl) (by simp [FilterData.WellFormed])

def LinkData.WellFormed (l : LinkData) : Prop := ∀ cs ∈ l.childFilters, ∀ c ∈ cs, c.WellFormed

theorem LinkData.lawful : LinkData.codec.Lawful (n + 4) LinkData.WellFormed :=
  lawful_record
    (.cons (lawful_optional Relation.lawful nofun) <| .cons (lawful_required JoinType.lawful) <|
      .cons (lawful_required lawful_string) <| .cons (lawful_optional lawful_conditions nofun) <|
      .cons (lawful_optional lawful_sortKeys nofun) <| .cons (lawful_optional lawful_uint32 nofun) <|
      .cons (lawful_defaulted_nil lawful_strings trivial) <|
      .cons (lawful_optional ManyPolicy.lawful nofun) .nil)
    (by decide) (fun _ => rfl) (fun _ => rfl) (by simp [LinkData.WellFormed])

def ParameterOption.WellFormed (o : ParameterOption) : Prop := o.value.normal = o.value

theorem ParameterOption.lawful : ParameterOption.codec.Lawful (n + 1) ParameterOption.WellFormed :=
  lawful_record (.cons (lawful_required lawful_free) <| .cons (lawful_required lawful_string) .nil)
    (by decide) (fun _ => rfl) (fun _ => rfl) (by simp [ParameterOption.WellFormed])

/-- A default of `null` is no default. -/
def Parameter.WellFormed (p : Parameter) : Prop :=
  (∀ j ∈ p.default, j.normal = j ∧ j ≠ .null) ∧ ∀ os ∈ p.options, ∀ o ∈ os, o.WellFormed

theorem Parameter.lawful : Parameter.codec.Lawful (n + 3) Parameter.WellFormed :=
  lawful_record
    (.cons (lawful_required lawful_string) <| .cons (lawful_required ParameterType.lawful) <|
      .cons (lawful_optional_of_option lawful_free_option nofun) <|
      .cons (lawful_optional lawful_double nofun) <| .cons (lawful_optional lawful_double nofun) <|
      .cons (lawful_required lawful_string) <| .cons (lawful_optional lawful_string nofun) <|
      .cons (lawful_optional lawful_bool nofun) <|
      .cons (lawful_optional (lawful_list ParameterOption.lawful) nofun) .nil)
    (by decide) (fun _ => rfl) (fun _ => rfl) (by simp [Parameter.WellFormed])

def ChildPlan.WellFormed (p : ChildPlan) : Prop := ∀ cs ∈ p.filters, ∀ c ∈ cs, c.WellFormed

theorem ChildPlan.lawful : ChildPlan.codec.Lawful (n + 3) ChildPlan.WellFormed :=
  lawful_record
    (.cons (lawful_required lawful_string) <| .cons (lawful_required lawful_string) <|
      .cons (lawful_required lawful_strings) <| .cons (lawful_optional lawful_sortKeys nofun) <|
      .cons (lawful_optional lawful_conditions nofun) .nil)
    (by decide) (fun _ => rfl) (fun _ => rfl) (by simp [ChildPlan.WellFormed])

def Artifacts.WellFormed (a : Artifacts) : Prop :=
  (∀ fetches ∈ a.aggregateFetches, Keyed.Sorted fetches) ∧
    ∀ plans ∈ a.childPlans, Keyed.Sorted plans ∧ ∀ p ∈ plans, p.2.WellFormed

theorem Artifacts.lawful : Artifacts.codec.Lawful (n + 5) Artifacts.WellFormed :=
  lawful_record
    (.cons (lawful_required lawful_string) <| .cons (lawful_required lawful_string) <|
      .cons (lawful_required SnapshotRef.lawful) <| .cons (lawful_optional lawful_string nofun) <|
      .cons (lawful_optional (lawful_map lawful_string) nofun) <|
      .cons (lawful_optional (lawful_map ChildPlan.lawful) nofun) .nil)
    (by decide) (fun _ => rfl) (fun _ => rfl) (by simp [Artifacts.WellFormed])

/-! ## Nodes -/

def NodeData.WellFormed : NodeData → Prop
  | .filter d => d.WellFormed
  | .link d => d.WellFormed
  | _ => True

/-- Data of a node is written alike for all kinds, and read under the kind of the node. -/
def NodeData.codec (kind : CompiledKind) : Codec NodeData where
  encode := encode
  decode o s := decode o s kind

theorem NodeData.restores {d : NodeData} (hd : d.WellFormed) : (codec d.kind).Restores d := by
  cases d with
  | entity d =>
    have hread : EntityData.codec.Restores d := (EntityData.lawful (n := 0)).restores trivial
    exact hread.wrapped rfl fun _ _ => rfl
  | filter d =>
    have hread : FilterData.codec.Restores d := (FilterData.lawful (n := 0)).restores hd
    exact hread.wrapped rfl fun _ _ => rfl
  | link d =>
    have hread : LinkData.codec.Restores d := (LinkData.lawful (n := 0)).restores hd
    exact hread.wrapped rfl fun _ _ => rfl
  | transform d =>
    have hread : TransformData.codec.Restores d := (TransformData.lawful (n := 0)).restores trivial
    exact hread.wrapped rfl fun _ _ => rfl
  | sheet d =>
    have hread : SheetData.codec.Restores d := (SheetData.lawful (n := 0)).restores trivial
    exact hread.wrapped rfl fun _ _ => rfl
  | output d =>
    have hread : ExportData.codec.Restores d := (ExportData.lawful (n := 0)).restores trivial
    exact hread.wrapped rfl fun _ _ => rfl

theorem NodeData.of_decode {o : Origin} {s : Source} {kind : CompiledKind} {d : NodeData}
    (h : NodeData.decode o s kind = .ok d) :
    d.WellFormed ∧ d.encode.depth ≤ max s.depth (n + 5) := by
  cases kind with
  | entity =>
    obtain ⟨a, ha, rfl⟩ := map_eq_ok_iff.mp h
    exact ⟨trivial, (EntityData.lawful (n := n + 2)).shallow ha⟩
  | filter =>
    obtain ⟨a, ha, rfl⟩ := map_eq_ok_iff.mp h
    exact ⟨(FilterData.lawful (n := n)).good ha, FilterData.lawful.shallow ha⟩
  | link =>
    obtain ⟨a, ha, rfl⟩ := map_eq_ok_iff.mp h
    exact ⟨(LinkData.lawful (n := n)).good ha, (LinkData.lawful (n := n + 1)).shallow ha⟩
  | transform =>
    obtain ⟨a, ha, rfl⟩ := map_eq_ok_iff.mp h
    exact ⟨trivial, (TransformData.lawful (n := n + 2)).shallow ha⟩
  | sheet =>
    obtain ⟨a, ha, rfl⟩ := map_eq_ok_iff.mp h
    exact ⟨trivial, (SheetData.lawful (n := n + 2)).shallow ha⟩
  | output =>
    obtain ⟨a, ha, rfl⟩ := map_eq_ok_iff.mp h
    exact ⟨trivial, (ExportData.lawful (n := n + 4)).shallow ha⟩

/-- Kind and data of a node may stand in either order. -/
theorem NodeData.ofMembers_pair (d : NodeData) (s : Source) {members : List (String × Source)}
    (h : members.Perm [(kindField, .string d.kindName), (dataField, s)]) :
    NodeData.ofMembers members = NodeData.decode .held s d.kind := by
  have hkind : CompiledKind.codec.decode .held (.string d.kind.name) = .ok d.kind :=
    ((CompiledKind.lawful (n := 0)).restores (a := d.kind) trivial).text .held 0
  have hreturn : (NodeData.decode .held s d.kind >>= fun data => .ok data) =
      NodeData.decode .held s d.kind := by
    cases NodeData.decode .held s d.kind <;> rfl
  have hne : dataField ≠ kindField := by decide
  rcases List.perm_pair.mp h with rfl | rfl
  · have hfilter : [(kindField, Source.string d.kindName), (dataField, s)].filter
        (fun m => m.1 = kindField ∨ m.1 = dataField) =
          [(kindField, .string d.kindName), (dataField, s)] := rfl
    rw [NodeData.ofMembers, hfilter]
    simp only [if_true, NodeData.kindName, hkind, hne, if_false]
    exact hreturn
  · have hfilter : [(dataField, s), (kindField, Source.string d.kindName)].filter
        (fun m => m.1 = kindField ∨ m.1 = dataField) =
          [(dataField, s), (kindField, .string d.kindName)] := rfl
    rw [NodeData.ofMembers, hfilter]
    simp only [NodeData.kindName, hkind, hne, hne.symm, if_false]
    exact hreturn

/-- The data of a node is taken from two of the members that are held back, whichever stands first. -/
theorem NodeData.of_ofMembers {members : List (String × Source)} {d : NodeData}
    (h : NodeData.ofMembers members = .ok d) :
    ∃ m ∈ members, ∃ kind, NodeData.decode .held m.2 kind = .ok d := by
  unfold NodeData.ofMembers at h
  have hmem {m} {ms} (heq : members.filter (fun m => m.1 = kindField ∨ m.1 = dataField) = ms)
      (hm : m ∈ ms) : m ∈ members := by
    rw [← heq] at hm
    exact (List.mem_filter.mp hm).1
  split at h
  · cases h
  · rename_i key first rest heq
    split at h
    · obtain ⟨kind, -, h⟩ := bind_eq_ok_iff.mp h
      cases rest with
      | nil => cases h
      | cons m more =>
        obtain ⟨other, second⟩ := m
        by_cases hother : other = kindField
        · simp only [hother, if_true] at h
          cases h
        · simp only [hother, if_false] at h
          obtain ⟨data, hdata, h⟩ := bind_eq_ok_iff.mp h
          obtain ⟨_, -, h⟩ := bind_eq_ok_iff.mp h
          cases h
          exact ⟨_, hmem heq (List.mem_cons_of_mem _ List.mem_cons_self), kind, hdata⟩
    · cases rest with
      | nil => cases h
      | cons m more =>
        obtain ⟨other, second⟩ := m
        by_cases hother : other = dataField
        · simp only [hother, if_true] at h
          cases h
        · simp only [hother, if_false] at h
          obtain ⟨kind, -, h⟩ := bind_eq_ok_iff.mp h
          obtain ⟨data, hdata, h⟩ := bind_eq_ok_iff.mp h
          obtain ⟨_, -, h⟩ := bind_eq_ok_iff.mp h
          cases h
          exact ⟨_, hmem heq List.mem_cons_self, kind, hdata⟩

namespace ReportNode

abbrev fields := Fields.cons (.required "id" .string) (.cons (.optional "position" Position.codec) .nil)

/-- A member that is held back is read as a free value first. -/
def hold (s : Source) : Except DecodeError Unit :=
  (s.toJson.mapError DecodeError.malformed).map fun _ => ()

def assemble (ending : ObjectEnd)
    (filled : (Option String × Option (Option Position) × Unit) × List (String × Source)) :
    Except DecodeError ReportNode := do
  Codec.stopAt ending.read
  let (id, position, _) ← fields.finish filled.1
  let data ← NodeData.ofMembers filled.2
  return ⟨id, data, position⟩

theorem decode_object (o : Origin) (members : List (Key × Source)) (ending : ObjectEnd) :
    codec.decode o (.object members ending) =
      fields.fillAll o hold members fields.empty >>= assemble ending := rfl

theorem hold_asRead (j : Json) (room : Nat) : hold (j.asRead room) = Codec.within room j.depth () := by
  rw [hold, Json.toJson_asRead, Codec.within]
  split <;> rfl

theorem hold_ofJson (j : Json) : hold (.ofJson j) = .ok () := by
  rw [hold, Json.toJson_ofJson]
  rfl

def placeMembers (position : Option Position) : List (String × Json) :=
  match position with
  | none => []
  | some p => [("position", Position.codec.encode p)]

def members (n : ReportNode) : List (String × Json) :=
  [("id", .string n.id), (NodeData.kindField, .string n.data.kindName),
    (NodeData.dataField, n.data.encode)] ++ placeMembers n.position

theorem encode_eq (n : ReportNode) : codec.encode n = .object n.members := rfl

theorem nodup_members (n : ReportNode) : (n.members.map (·.1)).Nodup := by
  obtain ⟨id, data, position⟩ := n
  have hnames : ["id", NodeData.kindField, NodeData.dataField, "position"].Nodup := by decide
  cases position with
  | none => exact hnames.sublist (List.sublist_append_left _ ["position"])
  | some p => exact hnames

/-- A member that is no field of a node is kept as it stands. -/
theorem fillAll_hold {o : Origin} {key : String} {s : Source} {ms : List (Key × Source)}
    {slots : Option String × Option (Option Position) × Unit} {room depth more : Nat}
    {filled : (Option String × Option (Option Position) × Unit) × List (String × Source)}
    (hfield : fields.fill? o key s slots = none) (hheld : hold s = Codec.within room depth ())
    (hms : fields.fillAll o hold ms slots = Codec.within room more filled) :
    fields.fillAll o hold ((.name key, s) :: ms) slots =
      Codec.within room (max depth more) (filled.1, (key, s) :: filled.2) := by
  rw [Fields.fillAll, hfield]
  simp only [hheld, hms]
  refine Codec.within_bind ?_
  exact Codec.within_return (fun filled => (filled.1, (key, s) :: filled.2)) room more filled

variable {o : Origin} {room : Nat} {shown : Json → Source}

theorem fillAll_place {position : Option Position} (id : String)
    (hshown : ∀ p ∈ position, Position.codec.option.decode o (shown (Position.codec.encode p)) =
      Codec.within room (Position.codec.encode p).depth (some p)) :
    fields.fillAll o hold ((placeMembers position).map fun m => (.name m.1, shown m.2))
        (some id, none, ()) =
      Codec.within room (Json.membersDepth (placeMembers position))
        ((some id, position.map some, ()), []) := by
  cases position with
  | none => exact (Codec.within_zero room _).symm
  | some p =>
    show ((Position.codec.option.decode o (shown (Position.codec.encode p))).map
      (fun a => (some a, ()))).map (fun slots => (some id, slots)) >>=
        (fun slots => .ok (slots, [])) = _
    rw [hshown p rfl, Codec.within_map, Codec.within_map, Codec.within_return]
    exact congrArg (fun depth => Codec.within room depth _) (Nat.max_zero _).symm

/-- Id and place fill their slots; kind and data are kept. -/
theorem fillAll_members {n : ReportNode} (room : Nat) (shown : Json → Source)
    (hstring : ∀ s, shown (.string s) = .string s)
    (hdata : hold (shown n.data.encode) = Codec.within room n.data.encode.depth ())
    (hplace : ∀ p ∈ n.position, Position.codec.option.decode o (shown (Position.codec.encode p)) =
      Codec.within room (Position.codec.encode p).depth (some p)) :
    fields.fillAll o hold (n.members.map fun m => (.name m.1, shown m.2)) fields.empty =
      Codec.within room (max n.data.encode.depth (Json.membersDepth (placeMembers n.position)))
        ((some n.id, n.position.map some, ()),
          [(NodeData.kindField, .string n.data.kindName), (NodeData.dataField, shown n.data.encode)]) := by
  have hkind : fields.fill? o NodeData.kindField (.string n.data.kindName) (some n.id, none, ()) =
      none := rfl
  have hkindHeld : hold (.string n.data.kindName) = Codec.within room 0 () :=
    (Codec.within_zero room ()).symm
  have hfield : fields.fill? o NodeData.dataField (shown n.data.encode) (some n.id, none, ()) =
      none := rfl
  have hrest := fillAll_hold hfield hdata (fillAll_place n.id hplace)
  have hall := fillAll_hold hkind hkindHeld hrest
  rw [Nat.zero_max] at hall
  rw [members, List.map_append, List.map_cons, List.map_cons, List.map_cons, hstring, hstring]
  exact hall

theorem finish_placed (id : String) (position : Option Position) :
    fields.finish (some id, position.map some, ()) = .ok (id, position, ()) := by
  cases position <;> rfl

theorem depth_encode (n : ReportNode) :
    (codec.encode n).depth =
      max n.data.encode.depth (Json.membersDepth (placeMembers n.position)) + 1 := by
  show max 0 (max 0 (max _ (Json.membersDepth (placeMembers n.position)))) + 1 = _
  rw [Nat.zero_max, Nat.zero_max]

/-- What a node is made of once its data is read. -/
theorem assemble_eq (n : ReportNode) {held : List (String × Source)} {s : Source}
    (h : held.Perm [(NodeData.kindField, .string n.data.kindName), (NodeData.dataField, s)]) :
    assemble .closed ((some n.id, n.position.map some, ()), held) =
      (NodeData.decode .held s n.data.kind).map fun data => ⟨n.id, data, n.position⟩ := by
  rw [assemble, finish_placed]
  simp only [NodeData.ofMembers_pair n.data s h]
  cases NodeData.decode .held s n.data.kind <;> rfl

theorem restores_place (p : Position) : Position.codec.option.Restores (some p) :=
  ((Position.lawful (n := 0)).option nofun).restores fun _ _ => trivial

/-- Read from a text, a node needs the room that its deeper member needs, and one container more. -/
theorem restores_text {n : ReportNode} (h : n.data.WellFormed) (o : Origin) (room : Nat) :
    codec.decode o ((codec.encode n).asRead room) = Codec.within room (codec.encode n).depth n := by
  cases room with
  | zero => rfl
  | succ room =>
    have hread := fillAll_members room _ (fun _ => rfl) (hold_asRead n.data.encode room)
      fun p _ => (restores_place p).text o room
    have hrest : assemble .closed ((some n.id, n.position.map some, ()),
        [(NodeData.kindField, .string n.data.kindName),
          (NodeData.dataField, n.data.encode.asRead room)]) =
        Codec.within room n.data.encode.depth n := by
      rw [assemble_eq n (.refl _)]
      exact (congrArg _ ((NodeData.restores h).text .held room)).trans (Codec.within_map ..)
    rw [depth_encode, encode_eq, Codec.within_succ]
    show codec.decode o (.object (Json.membersAsRead room _) .closed) = _
    rw [decode_object, Json.membersAsRead_eq_map, hread, Codec.within_bind hrest]
    congr 1
    omega

/-- Read from a free value, the members of a node come in the order of their names. -/
theorem restores_value {n : ReportNode} (h : n.data.WellFormed) (o : Origin) :
    codec.decode o (.ofJson (codec.encode n).normal) = .ok n := by
  have hdata : n.data.encode.depth ≤ (codec.encode n).depth := by
    rw [depth_encode]
    omega
  have hplace : Json.membersDepth (placeMembers n.position) ≤ (codec.encode n).depth := by
    rw [depth_encode]
    omega
  have hread := fillAll_members (n := n) (o := o) (codec.encode n).depth
    (fun j => .ofJson j.normal) (fun _ => rfl)
    (by rw [hold_ofJson, Codec.within_of_le hdata]) (fun p hp => by
      have hp : n.position = some p := hp
      rw [hp] at hplace
      have hdepth : (Position.codec.encode p).depth ≤ (codec.encode n).depth :=
        Nat.le_trans (Nat.le_max_left _ _) hplace
      rw [Codec.within_of_le hdepth]
      exact (restores_place p).value o)
  rw [Codec.within_of_le (Nat.max_le.mpr ⟨hdata, hplace⟩)] at hread
  obtain ⟨held, hperm, hsorted⟩ := Fields.fillAll_normal (nodup_members n) hread
  rw [encode_eq]
  show codec.decode o (.object (Source.ofMembers (Keyed.ofList (Json.normalMembers n.members))) .closed) =
    .ok n
  rw [decode_object, hsorted]
  show assemble .closed _ = _
  rw [assemble_eq n hperm]
  exact congrArg _ ((NodeData.restores h).value .held)

theorem restores {n : ReportNode} (h : n.data.WellFormed) : codec.Restores n :=
  ⟨restores_text h, restores_value h⟩

/-- A place is read from one of the members, so that it is no deeper than they are. -/
theorem depth_place {slots : Option String × Option (Option Position) × Unit} {id : String}
    {position : Option Position} {depth : Nat} (hfilled : fields.Filled (Source.UpTo depth) slots)
    (hfinish : fields.finish slots = .ok (id, position, ())) :
    Json.membersDepth (placeMembers position) ≤ max depth 5 := by
  cases position with
  | none => exact Nat.zero_le _
  | some p =>
    obtain ⟨-, hgiven, -⟩ := Fields.finish_given hfilled hfinish
    obtain ⟨o, s, hdepth, hs⟩ | habsent := hgiven
    · have hdepth : s.depth ≤ depth := hdepth
      have hp := (Position.lawful (n := 4)).shallow (Codec.option_decode_some hs).2
      show max (Position.codec.encode p).depth 0 ≤ _
      omega
    · cases habsent

theorem given_of_decode {o : Origin} {s : Source} {n : ReportNode} (h : codec.decode o s = .ok n) :
    n.data.WellFormed ∧ (codec.encode n).depth ≤ max s.depth 6 := by
  cases s with
  | object members ending =>
    rw [decode_object] at h
    obtain ⟨⟨slots, others⟩, hfill, h⟩ := bind_eq_ok_iff.mp h
    obtain ⟨_, -, h⟩ := bind_eq_ok_iff.mp h
    obtain ⟨⟨id, position, _⟩, hfinish, h⟩ := bind_eq_ok_iff.mp h
    obtain ⟨data, hdata, h⟩ := bind_eq_ok_iff.mp h
    cases h
    have hdepths : ∀ m ∈ members, ∀ {key}, m.1 = .name key →
        Source.UpTo (Source.membersDepth members) key m.2 :=
      fun m hm _ _ => Source.depth_le_membersDepth hm
    obtain ⟨hfilled, hothers⟩ := Fields.fillAll_filled hdepths (Fields.filled_empty fields) hfill
    obtain ⟨m, hm, kind, hread⟩ := NodeData.of_ofMembers hdata
    obtain ⟨hgood, hshallow⟩ := NodeData.of_decode (n := 0) hread
    refine ⟨hgood, ?_⟩
    have hdata : data.encode.depth ≤ max (Source.membersDepth members) 5 :=
      Nat.le_trans hshallow (max_le_max_right 5 (hothers m hm))
    rw [depth_encode]
    show _ ≤ max (Source.membersDepth members + 1) (5 + 1)
    rw [Nat.add_max_add_right]
    exact Nat.add_le_add_right (Nat.max_le.mpr ⟨hdata, depth_place hfilled hfinish⟩) 1
  | faulty f => cases h
  | _ => cases h

/-- A node is well formed when its data is. -/
theorem lawful : codec.Lawful (n + 6) fun r => r.data.WellFormed where
  restores := restores
  good h := (given_of_decode h).1
  shallow h := by
    have hdepth := (given_of_decode h).2
    omega

end ReportNode

def StoredGraph.WellFormed (g : StoredGraph) : Prop := ∀ n ∈ g.nodes, n.data.WellFormed

theorem StoredGraph.lawful : StoredGraph.codec.Lawful (n + 8) StoredGraph.WellFormed :=
  lawful_record
    (.cons (lawful_defaulted_nil (lawful_list ReportNode.lawful) (List.forall_mem_nil _)) <|
      .cons (lawful_defaulted_nil (lawful_list ReportEdge.lawful) (List.forall_mem_nil _))
        .nil)
    (by decide) (fun _ => rfl) (fun _ => rfl) (by simp [StoredGraph.WellFormed])

/-! ## Definitions -/

def Timestamp.ReadsBack (t : Timestamp) : Prop := Timestamp.read t.text = .ok t

instance (t : Timestamp) : Decidable t.ReadsBack :=
  inferInstanceAs (Decidable (Timestamp.read t.text = .ok t))

theorem Timestamp.restores {t : Timestamp} (h : t.ReadsBack) : Timestamp.codec.Restores t := by
  refine Codec.restores_flat rfl fun o room => ?_
  have hread : Timestamp.read t.text = .ok t := h
  simp only [codec, Json.asRead, hread, Except.mapError]

namespace Definition

/-- What every definition satisfies that was read, or made by this library. -/
structure WellFormed (d : Definition) : Prop where
  parameters : ∀ p ∈ d.parameters, p.WellFormed
  graph : d.graph.WellFormed
  artifacts : ∀ a ∈ d.artifacts, a.WellFormed

theorem restores {d : Definition} (h : d.WellFormed) (hcreated : d.createdAt.ReadsBack)
    (hupdated : d.updatedAt.ReadsBack) : codec.Restores d := by
  refine Codec.record_restores (by decide) rfl ?_
  have hstring (s : String) : Codec.string.Restores s := (lawful_string (n := 0)).restores trivial
  exact ⟨restores_required (hstring _), restores_required (hstring _), restores_required (hstring _),
    restores_defaulted (hstring _), restores_defaulted ((Owner.lawful (n := 0)).restores trivial),
    restores_nullable (((lawful_string (n := 0)).option nofun).restores fun _ _ => trivial),
    restores_defaulted ((lawful_strings (n := 0)).restores trivial), restores_required (hstring _),
    restores_required (Timestamp.restores hcreated), restores_required (Timestamp.restores hupdated),
    restores_required ((lawful_uint32 (n := 0)).restores trivial),
    restores_defaulted ((Security.lawful (n := 0)).restores trivial),
    restores_defaulted ((lawful_list (Parameter.lawful (n := 0))).restores h.parameters),
    restores_defaulted ((StoredGraph.lawful (n := 0)).restores h.graph),
    restores_defaulted ((Layout.lawful (n := 0)).restores trivial),
    restores_defaulted ((Limits.lawful (n := 0)).restores trivial),
    restores_defaulted ((Hints.lawful (n := 0)).restores trivial),
    restores_optional (((Artifacts.lawful (n := 0)).option nofun).restores h.artifacts), trivial⟩

/-- A definition is no deeper than what it was read from, or no deeper than its own types reach. -/
theorem of_decode {o : Origin} {s : Source} {d : Definition} (h : codec.decode o s = .ok d) :
    d.WellFormed ∧ (codec.encode d).depth ≤ max s.depth 9 := by
  obtain ⟨t, ht, rfl⟩ := map_eq_ok_iff.mp h
  obtain ⟨depth, hdepth, hgiven⟩ := Fields.given_of_decode ht
  obtain ⟨schemaVersion, id, name, description, owner, categoryId, tags, primaryEntity, createdAt,
    updatedAt, reportVersion, security, parameters, graph, layout, limits, hints, artifacts, _⟩ := t
  obtain ⟨hschemaVersion, hid, hname, hdescription, howner, hcategoryId, htags, hprimaryEntity,
    -, -, hreportVersion, hsecurity, hparameters, hgraph, hlayout, hlimits, hhints, hartifacts, -⟩ :=
    hgiven
  have hps : (Field.defaulted "parameters" (.list Parameter.codec) []).Lawful 8 fun ps =>
      ∀ p ∈ ps, p.WellFormed :=
    lawful_defaulted (lawful_list Parameter.lawful) (List.forall_mem_nil _) (by decide)
  have hg : (Field.defaulted "graph" StoredGraph.codec .empty).Lawful 8 StoredGraph.WellFormed :=
    lawful_defaulted StoredGraph.lawful (List.forall_mem_nil _) (by decide)
  have has : (Field.optional "artifacts" Artifacts.codec).Lawful 8 fun x => ∀ a ∈ x, a.WellFormed :=
    lawful_optional Artifacts.lawful nofun
  refine ⟨⟨hps.good hparameters, hg.good hgraph, has.good hartifacts⟩, ?_⟩
  show _ ≤ max s.depth (8 + 1)
  rw [hdepth, Nat.add_max_add_right]
  refine Nat.add_le_add_right (Fields.membersDepth_le ?_) 1
  exact ⟨Nat.zero_le _, Nat.zero_le _, Nat.zero_le _, Nat.zero_le _,
    (lawful_defaulted Owner.lawful trivial (by decide)).shallow howner,
    (lawful_nullable lawful_string nofun).shallow hcategoryId,
    (lawful_defaulted lawful_strings trivial (by decide)).shallow htags,
    Nat.zero_le _, Nat.zero_le _, Nat.zero_le _, Nat.zero_le _,
    (lawful_defaulted Security.lawful trivial (by decide)).shallow hsecurity,
    hps.shallow hparameters, hg.shallow hgraph,
    (lawful_defaulted Layout.lawful trivial (by decide)).shallow hlayout,
    (lawful_defaulted Limits.lawful trivial (by decide)).shallow hlimits,
    (lawful_defaulted Hints.lawful trivial (by decide)).shallow hhints,
    has.shallow hartifacts, trivial⟩

/-- Identity and times are written without containers. -/
theorem depth_of_flat (d : Definition) (id name primaryEntity : String)
    (createdAt updatedAt : Timestamp) (reportVersion : UInt32) :
    (codec.encode { d with
      id := id, name := name, primaryEntity := primaryEntity, createdAt := createdAt,
      updatedAt := updatedAt, reportVersion := reportVersion }).depth = (codec.encode d).depth := by
  have htime (t : Timestamp) : (Timestamp.codec.encode t).depth = 0 := rfl
  have hcount (n : UInt32) : (Codec.uint32.encode n).depth = 0 := rfl
  have hstring (s : String) : (Codec.string.encode s).depth = 0 := rfl
  simp only [codec, Codec.record, Json.depth, Fields.members, Field.required, Field.defaulted,
    Field.nullable, Bool.false_eq_true, if_false, Json.membersDepth, htime, hcount, hstring]

structure Exact (d : Definition) : Prop where
  numbers : (codec.encode d).Exact
  createdAt : d.createdAt.ReadsBack
  updatedAt : d.updatedAt.ReadsBack

instance (d : Definition) : Decidable d.Exact :=
  decidable_of_iff ((codec.encode d).Exact ∧ d.createdAt.ReadsBack ∧ d.updatedAt.ReadsBack)
    ⟨fun ⟨hnumbers, hcreated, hupdated⟩ => ⟨hnumbers, hcreated, hupdated⟩,
      fun h => ⟨h.numbers, h.createdAt, h.updatedAt⟩⟩

end Definition

end ReportFlow
