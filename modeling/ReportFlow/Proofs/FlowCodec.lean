import ReportFlow.Flow.Basic
import ReportFlow.Proofs.DefinitionCodec

/-!
The codecs of an edited flow are lawful. The settings of a node are written under the proper name of
their kind, and are read back from there: those of a known kind by the codec of the kind, with `null`
for none set, and all others as they stand.
-/

namespace ReportFlow

open Codec (lawful_string lawful_bool lawful_uint32 lawful_free lawful_list lawful_variant lawful_record)
open ReportFlow.Field (lawful_required lawful_defaulted lawful_defaulted_nil lawful_optional)

variable {n : Nat}

/-! ## Settings -/

def Condition.WellFormed (c : Condition) : Prop := c.value.normal = c.value

def Group.IsNormal (g : Group Condition) : Prop := ∀ c ∈ g.conditions, c.WellFormed

def FilterConfig.WellFormed (c : FilterConfig) : Prop :=
  (∀ cs ∈ c.conditions, ∀ x ∈ cs, x.WellFormed) ∧ ∀ gs ∈ c.groups, ∀ g ∈ gs, g.IsNormal

def LinkConfig.WellFormed (c : LinkConfig) : Prop := ∀ gs ∈ c.childFilters, ∀ g ∈ gs, g.IsNormal

def AggregateConfig.WellFormed (c : AggregateConfig) : Prop := ∀ g ∈ c.having, g.IsNormal

def PivotConfig.WellFormed (c : PivotConfig) : Prop := ∀ gs ∈ c.filters, ∀ g ∈ gs, g.IsNormal

theorem EditorSheetMode.lawful : EditorSheetMode.codec.Lawful n fun _ => True :=
  lawful_variant fun a => by cases a <;> rfl

theorem EditorFormat.lawful : EditorFormat.codec.Lawful n fun _ => True :=
  lawful_variant fun a => by cases a <;> rfl

theorem Condition.lawful : Condition.editorCodec.Lawful (n + 1) Condition.WellFormed :=
  lawful_record
    (.cons (lawful_required lawful_string) <| .cons (lawful_required Operator.lawful) <|
      .cons (lawful_required lawful_free) .nil)
    (by decide) (fun _ => rfl) (fun _ => rfl) (by simp [Condition.WellFormed])

theorem Group.lawful_editor : Group.editorCodec.Lawful (n + 3) Group.IsNormal :=
  lawful_record
    (.cons (lawful_required (lawful_variant fun a => by cases a <;> rfl)) <|
      .cons (lawful_defaulted_nil (lawful_list Condition.lawful) (List.forall_mem_nil _)) .nil)
    (by decide) (fun _ => rfl) (fun _ => rfl) (by simp [Group.IsNormal])

theorem Relation.lawful_editor : Relation.editorCodec.Lawful (n + 1) fun _ => True :=
  lawful_record
    (.cons (lawful_required RelationDirection.lawful) <|
      .cons (lawful_required lawful_string) <| .cons (lawful_required lawful_string) <|
      .cons (lawful_required lawful_string) <| .cons (lawful_required lawful_string) .nil)
    (by decide) (fun _ => rfl) (fun _ => rfl) (by simp)

theorem Policy.lawful : Policy.editorCodec.Lawful (n + 3) fun _ => True :=
  lawful_record
    (.cons (lawful_required PolicyKind.lawful) <| .cons (lawful_optional lawful_string nofun) <|
      .cons (lawful_optional lawful_string nofun) <| .cons (lawful_optional lawful_sortKeys nofun) <|
      .cons (lawful_optional lawful_uint32 nofun) <|
      .cons (lawful_optional (lawful_list Measure.lawful) nofun) <|
      .cons (lawful_optional lawful_strings nofun) <| .cons (lawful_optional lawful_string nofun) <|
      .cons (lawful_optional lawful_strings nofun) .nil)
    (by decide) (fun _ => rfl) (fun _ => rfl) (by simp)

theorem Expression.lawful_editor : Expression.editorCodec.Lawful (n + 1) fun _ => True :=
  lawful_record
    (.cons (lawful_required lawful_string) <| .cons (lawful_required lawful_string) .nil)
    (by decide) (fun _ => rfl) (fun _ => rfl) (by simp)

theorem EntityConfig.lawful : EntityConfig.codec.Lawful (n + 3) fun _ => True :=
  lawful_record
    (.cons (lawful_optional lawful_string nofun) <| .cons (lawful_optional lawful_strings nofun) <|
      .cons (lawful_optional lawful_sortKeys nofun) <|
      .cons (lawful_optional Timezone.lawful nofun) <|
      .cons (lawful_optional lawful_uint32 nofun) .nil)
    (by decide) (fun _ => rfl) (fun _ => rfl) (by simp)

theorem FilterConfig.lawful : FilterConfig.codec.Lawful (n + 5) FilterConfig.WellFormed :=
  lawful_record
    (.cons (lawful_optional (lawful_list Condition.lawful) nofun) <|
      .cons (lawful_optional (lawful_list Group.lawful_editor) nofun) .nil)
    (by decide) (fun _ => rfl) (fun _ => rfl) (by simp [FilterConfig.WellFormed])

theorem LinkConfig.lawful : LinkConfig.codec.Lawful (n + 5) LinkConfig.WellFormed :=
  lawful_record
    (.cons (lawful_optional Relation.lawful_editor nofun) <| .cons (lawful_optional lawful_string nofun) <|
      .cons (lawful_optional JoinType.lawful nofun) <|
      .cons (lawful_optional (lawful_list Group.lawful_editor) nofun) <|
      .cons (lawful_optional lawful_sortKeys nofun) <| .cons (lawful_optional lawful_uint32 nofun) <|
      .cons (lawful_optional lawful_strings nofun) <| .cons (lawful_optional Policy.lawful nofun) .nil)
    (by decide) (fun _ => rfl) (fun _ => rfl) (by simp [LinkConfig.WellFormed])

theorem TransformConfig.lawful : TransformConfig.codec.Lawful (n + 3) fun _ => True :=
  lawful_record (.cons (lawful_optional (lawful_list Expression.lawful_editor) nofun) .nil)
    (by decide) (fun _ => rfl) (fun _ => rfl) (by simp)

theorem AggregateConfig.lawful : AggregateConfig.codec.Lawful (n + 4) AggregateConfig.WellFormed :=
  lawful_record
    (.cons (lawful_optional lawful_strings nofun) <|
      .cons (lawful_optional (lawful_list Measure.lawful) nofun) <|
      .cons (lawful_optional Group.lawful_editor nofun) .nil)
    (by decide) (fun _ => rfl) (fun _ => rfl) (by simp [AggregateConfig.WellFormed])

theorem ColumnConfig.lawful : ColumnConfig.codec.Lawful (n + 1) fun _ => True :=
  lawful_record
    (.cons (lawful_required lawful_string) <| .cons (lawful_optional lawful_string nofun) <|
      .cons (lawful_optional EditorFormat.lawful nofun) <| .cons (lawful_optional lawful_uint32 nofun) <|
      .cons (lawful_optional Align.lawful nofun) .nil)
    (by decide) (fun _ => rfl) (fun _ => rfl) (by simp)

theorem FreezeConfig.lawful : FreezeConfig.codec.Lawful (n + 1) fun _ => True :=
  lawful_record
    (.cons (lawful_optional lawful_bool nofun) <| .cons (lawful_optional lawful_uint32 nofun) .nil)
    (by decide) (fun _ => rfl) (fun _ => rfl) (by simp)

theorem StyleConfig.lawful : StyleConfig.codec.Lawful (n + 1) fun _ => True :=
  lawful_record
    (.cons (lawful_optional lawful_bool nofun) <| .cons (lawful_optional lawful_bool nofun) .nil)
    (by decide) (fun _ => rfl) (fun _ => rfl) (by simp)

theorem SheetConfig.lawful : SheetConfig.codec.Lawful (n + 3) fun _ => True :=
  lawful_record
    (.cons (lawful_optional lawful_string nofun) <| .cons (lawful_optional EditorSheetMode.lawful nofun) <|
      .cons (lawful_optional lawful_string nofun) <|
      .cons (lawful_optional (lawful_list ColumnConfig.lawful) nofun) <|
      .cons (lawful_optional FreezeConfig.lawful nofun) <|
      .cons (lawful_optional StyleConfig.lawful nofun) <| .cons (lawful_optional lawful_bool nofun) .nil)
    (by decide) (fun _ => rfl) (fun _ => rfl) (by simp)

theorem ExportConfig.lawful : ExportConfig.codec.Lawful (n + 1) fun _ => True :=
  lawful_record
    (.cons (lawful_optional ExportFormat.lawful nofun) <|
      .cons (lawful_optional WorkbookMode.lawful nofun) <|
      .cons (lawful_optional lawful_string nofun) .nil)
    (by decide) (fun _ => rfl) (fun _ => rfl) (by simp)

theorem PivotValue.lawful : PivotValue.codec.Lawful (n + 1) fun _ => True :=
  lawful_record
    (.cons (lawful_required lawful_string) <| .cons (lawful_required lawful_string) <|
      .cons (lawful_optional lawful_string nofun) .nil)
    (by decide) (fun _ => rfl) (fun _ => rfl) (by simp)

theorem PivotConfig.lawful : PivotConfig.codec.Lawful (n + 5) PivotConfig.WellFormed :=
  lawful_record
    (.cons (lawful_optional lawful_strings nofun) <| .cons (lawful_optional lawful_strings nofun) <|
      .cons (lawful_optional (lawful_list PivotValue.lawful) nofun) <|
      .cons (lawful_optional (lawful_list Group.lawful_editor) nofun) .nil)
    (by decide) (fun _ => rfl) (fun _ => rfl) (by simp [PivotConfig.WellFormed])

theorem FilterConfig.wellFormed_empty : FilterConfig.empty.WellFormed := by
  simp [FilterConfig.WellFormed, FilterConfig.empty]

theorem LinkConfig.wellFormed_empty : LinkConfig.empty.WellFormed := by
  simp [LinkConfig.WellFormed, LinkConfig.empty]

theorem AggregateConfig.wellFormed_empty : AggregateConfig.empty.WellFormed := by
  simp [AggregateConfig.WellFormed, AggregateConfig.empty]

theorem PivotConfig.wellFormed_empty : PivotConfig.empty.WellFormed := by
  simp [PivotConfig.WellFormed, PivotConfig.empty]

/-! ## Settings and their kind -/

/-- The name that a kind is written under: its own, except for the alias of a link. -/
def NodeKind.properName (kind : String) : String := if kind = "join" then NodeKind.link.name else kind

theorem NodeKind.name_of_ofName? {kind : String} {known : NodeKind} (h : ofName? kind = some known) :
    known.name = properName kind := by
  unfold ofName? at h
  split at h <;> cases h <;> rfl

theorem NodeKind.properName_of_unknown {kind : String} (h : ofName? kind = none) :
    properName kind = kind := by
  refine if_neg ?_
  rintro rfl
  cases h

namespace NodeConfig

def WellFormed : NodeConfig → Prop
  | .filter c => c.WellFormed
  | .link c => c.WellFormed
  | _ => True

/-- All free values are in normal form, and only a kind that is not known is unrecognized. -/
def Proper : NodeConfig → Prop
  | .filter c => c.WellFormed
  | .link c => c.WellFormed
  | .aggregate c => c.WellFormed
  | .pivot c => c.WellFormed
  | .concatenate body => body.normal = body
  | .unrecognized kind body => NodeKind.ofName? kind = none ∧ body.normal = body
  | _ => True

theorem Proper.wellFormed {c : NodeConfig} (h : c.Proper) : c.WellFormed := by
  cases c with
  | filter c => exact h
  | link c => exact h
  | _ => trivial

variable {α : Type} {node kind : String} {c : Codec α} {empty a : α} {body : Json}

/-- Written settings are an object, so they are not taken for none. -/
theorem settings_encode {members : List (String × Json)} (h : c.Restores a)
    (hobject : c.encode a = .object members) :
    settings node kind c empty (c.encode a).normal = .ok a := by
  have hread : c.ofJson? (c.encode a).normal = .ok a := h.value .value
  have hnull : (c.encode a).normal.isNull = false := by
    rw [hobject]
    rfl
  rw [settings, hnull, hread]
  rfl

/-- Settings that are read hold what their codec reads, or nothing. -/
theorem of_settings {Good : α → Prop} (hc : c.Lawful (n + 1) Good) (hempty : Good empty)
    (hnothing : c.encode empty = .object []) (h : settings node kind c empty body = .ok a) :
    Good a ∧ (c.encode a).normal.depth ≤ max body.depth (n + 1) := by
  have hnormal := Json.depth_normal_le (c.encode a)
  unfold settings at h
  split at h
  · cases h
    have hflat : (c.encode empty).depth = 1 := by
      rw [hnothing]
      rfl
    exact ⟨hempty, by omega⟩
  · have hread := mapError_eq_ok_iff.mp h
    have hdepth := hc.shallow hread
    rw [Source.depth_ofJson] at hdepth
    exact ⟨hc.good hread, by omega⟩

structure ReadFrom (kind : String) (body : Json) (config : NodeConfig) : Prop where
  proper : body.normal = body → config.Proper
  kindName : config.kindName = NodeKind.properName kind
  depth_le : config.body.depth ≤ max body.depth 5

/-- Settings that are read under a known kind; `wrap` makes them the settings of that kind. -/
theorem ReadFrom.of_settings {Good : α → Prop} {known : NodeKind} {wrap : α → NodeConfig}
    {config : NodeConfig} (h : (settings node kind c empty body).map wrap = .ok config)
    (hkind : NodeKind.ofName? kind = some known) (hc : c.Lawful 5 Good) (hempty : Good empty)
    (hnothing : c.encode empty = .object []) (hproper : ∀ a, Good a → (wrap a).Proper)
    (hname : ∀ a, (wrap a).kindName = known.name)
    (hbody : ∀ a, (wrap a).body = (c.encode a).normal) : ReadFrom kind body config := by
  obtain ⟨a, ha, rfl⟩ := map_eq_ok_iff.mp h
  obtain ⟨hgood, hdepth⟩ := NodeConfig.of_settings (n := 4) hc hempty hnothing ha
  constructor
  · intro _
    exact hproper a hgood
  · rw [hname, NodeKind.name_of_ofName? hkind]
  · rw [hbody]
    exact hdepth

theorem of_ofParts {config : NodeConfig} (h : ofParts node kind body = .ok config) :
    ReadFrom kind body config := by
  unfold ofParts at h
  cases hkind : NodeKind.ofName? kind with
  | none =>
    rw [hkind] at h
    cases h
    exact ⟨fun hbody => ⟨hkind, hbody⟩, (NodeKind.properName_of_unknown hkind).symm, Nat.le_max_left _ _⟩
  | some known =>
    rw [hkind] at h
    cases known with
    | entity =>
      exact .of_settings h hkind (EntityConfig.lawful (n := 2)) trivial rfl (fun _ hgood => hgood)
        (fun _ => rfl) (fun _ => rfl)
    | filter =>
      exact .of_settings h hkind (FilterConfig.lawful (n := 0)) FilterConfig.wellFormed_empty rfl
        (fun _ hgood => hgood) (fun _ => rfl) (fun _ => rfl)
    | link =>
      exact .of_settings h hkind (LinkConfig.lawful (n := 0)) LinkConfig.wellFormed_empty rfl
        (fun _ hgood => hgood) (fun _ => rfl) (fun _ => rfl)
    | transform =>
      exact .of_settings h hkind (TransformConfig.lawful (n := 2)) trivial rfl (fun _ hgood => hgood)
        (fun _ => rfl) (fun _ => rfl)
    | aggregate =>
      exact .of_settings h hkind (AggregateConfig.lawful (n := 1)) AggregateConfig.wellFormed_empty rfl
        (fun _ hgood => hgood) (fun _ => rfl) (fun _ => rfl)
    | sheet =>
      exact .of_settings h hkind (SheetConfig.lawful (n := 2)) trivial rfl (fun _ hgood => hgood)
        (fun _ => rfl) (fun _ => rfl)
    | output =>
      exact .of_settings h hkind (ExportConfig.lawful (n := 4)) trivial rfl (fun _ hgood => hgood)
        (fun _ => rfl) (fun _ => rfl)
    | pivot =>
      exact .of_settings h hkind (PivotConfig.lawful (n := 0)) PivotConfig.wellFormed_empty rfl
        (fun _ hgood => hgood) (fun _ => rfl) (fun _ => rfl)
    | concatenate =>
      cases h
      exact ⟨id, NodeKind.name_of_ofName? hkind, Nat.le_max_left _ _⟩

/-- The body of settings is a free value in normal form. -/
theorem Proper.normal_body {config : NodeConfig} (h : config.Proper) :
    config.body.normal = config.body := by
  cases config with
  | concatenate body => exact h
  | unrecognized kind body => exact h.2
  | _ => exact Json.normal_normal _

/-- Written settings are read as the settings that were written. -/
theorem settings_restored {members : List (String × Json)} {wrap : α → NodeConfig} (h : c.Restores a)
    (hobject : c.encode a = .object members) :
    (settings node kind c empty (c.encode a).normal).map wrap = .ok (wrap a) := by
  rw [settings_encode h hobject]
  rfl

theorem Proper.ofParts_body {config : NodeConfig} (h : config.Proper) (node : String) :
    ofParts node config.kindName config.body = .ok config := by
  cases config with
  | entity c => exact settings_restored ((EntityConfig.lawful (n := 0)).restores trivial) rfl
  | filter c => exact settings_restored ((FilterConfig.lawful (n := 0)).restores h) rfl
  | link c => exact settings_restored ((LinkConfig.lawful (n := 0)).restores h) rfl
  | transform c => exact settings_restored ((TransformConfig.lawful (n := 0)).restores trivial) rfl
  | aggregate c => exact settings_restored ((AggregateConfig.lawful (n := 0)).restores h) rfl
  | sheet c => exact settings_restored ((SheetConfig.lawful (n := 0)).restores trivial) rfl
  | output c => exact settings_restored ((ExportConfig.lawful (n := 0)).restores trivial) rfl
  | pivot c => exact settings_restored ((PivotConfig.lawful (n := 0)).restores h) rfl
  | concatenate body => rfl
  | unrecognized kind body =>
    show ofParts node kind body = _
    rw [ofParts, h.1]

end NodeConfig

/-! ## Nodes and edges -/

namespace FlowNode

theorem lawful_written : writtenCodec.Lawful (n + 2) fun w => w.2.2.2.2.1.normal = w.2.2.2.2.1 :=
  lawful_record
    (.cons (lawful_required lawful_string) <| .cons (lawful_required lawful_string) <|
      .cons (lawful_optional Position.lawful nofun) <| .cons (lawful_optional lawful_string nofun) <|
      .cons (lawful_defaulted lawful_free rfl (Nat.zero_le _)) .nil)
    (by decide) (fun _ => rfl) (fun _ => rfl) (by simp)

def placeDepth (position : Option Position) : Nat :=
  position.elim 0 fun p => (Position.codec.encode p).depth

theorem depth_written (id kind : String) (position : Option Position) (label : Option String)
    (body : Json) :
    (writtenCodec.encode (id, kind, position, label, body, ())).depth =
      max (placeDepth position) body.depth + 1 := by
  cases position with
  | none =>
    cases label with
    | none =>
      show max 0 (max 0 (max body.depth 0)) + 1 = max 0 body.depth + 1
      omega
    | some label =>
      show max 0 (max 0 (max 0 (max body.depth 0))) + 1 = max 0 body.depth + 1
      omega
  | some p =>
    cases label with
    | none =>
      show max 0 (max 0 (max (Position.codec.encode p).depth (max body.depth 0))) + 1 =
        max (Position.codec.encode p).depth body.depth + 1
      omega
    | some label =>
      show max 0 (max 0 (max (Position.codec.encode p).depth (max 0 (max body.depth 0)))) + 1 =
        max (Position.codec.encode p).depth body.depth + 1
      omega

theorem restores {r : FlowNode} (h : r.config.Proper) : codec.Restores r := by
  refine Codec.restores_via ((lawful_written (n := 0)).restores h.normal_body) ?_
  have hparts : NodeConfig.ofParts r.id r.kindName r.config.body = .ok r.config := h.ofParts_body r.id
  simp only [hparts]

theorem of_decode {o : Origin} {s : Source} {r : FlowNode} (h : codec.decode o s = .ok r) :
    r.config.Proper ∧ (codec.encode r).depth ≤ max s.depth 6 := by
  obtain ⟨⟨id, kind, position, label, body, _⟩, hwritten, h⟩ := bind_eq_ok_iff.mp h
  have hbody : body.normal = body := (lawful_written (n := 0)).good hwritten
  have hdepth := (lawful_written (n := 4)).shallow hwritten
  cases hparts : NodeConfig.ofParts id kind body with
  | error e =>
    simp only [hparts] at h
    cases h
  | ok config =>
    simp only [hparts] at h
    cases h
    have hfrom := NodeConfig.of_ofParts hparts
    have hmore := hfrom.depth_le
    refine ⟨hfrom.proper hbody, ?_⟩
    show (writtenCodec.encode (id, config.kindName, position, label, config.body, ())).depth ≤ _
    rw [depth_written] at hdepth ⊢
    omega

theorem lawful : codec.Lawful (n + 6) fun r => r.config.Proper where
  restores := restores
  good h := (of_decode h).1
  shallow h := by
    have hdepth := (of_decode h).2
    omega

end FlowNode

/-- An id is always written, so an edge is read back even when its own id differs from the derived
one. -/
theorem FlowEdge.lawful : FlowEdge.codec.Lawful (n + 1) fun _ => True where
  restores {e} _ := by
    refine Codec.record_restores (by decide) rfl ?_
    have hfields : Fields.Lawful 0 (.cons (.optional "id" .string) <|
        .cons (.required "source" .string) <| .cons (.required "target" .string) .nil) _ :=
      .cons (lawful_optional lawful_string nofun) <| .cons (lawful_required lawful_string) <|
        .cons (lawful_required lawful_string) .nil
    exact hfields.restores (by simp)
  good _ := trivial
  shallow {o s e} _ := by
    have hflat : (codec.encode e).depth = 1 := rfl
    omega

def Flow.WellFormed (g : Flow) : Prop := ∀ n ∈ g.nodes, n.config.WellFormed

def Flow.Proper (g : Flow) : Prop := ∀ n ∈ g.nodes, n.config.Proper

theorem Flow.lawful : Flow.codec.Lawful (n + 8) Flow.Proper :=
  lawful_record
    (.cons (lawful_defaulted_nil (lawful_list FlowNode.lawful) (List.forall_mem_nil _)) <|
      .cons (lawful_defaulted_nil (lawful_list FlowEdge.lawful) (List.forall_mem_nil _)) .nil)
    (by decide) (fun _ => rfl) (fun _ => rfl) (by simp [Flow.Proper])

/-- Free values are read in normal form. -/
theorem Flow.wellFormed_of_decode {o : Origin} {s : Source} {g : Flow} (h : codec.decode o s = .ok g) :
    g.WellFormed := by
  have hproper : g.Proper := (Flow.lawful (n := 0)).good h
  exact fun r hr => (hproper r hr).wellFormed

/-- A flow that was read is read back from what is written of it, as a free value and, when its numbers
are, as a text. So are the settings of every kind, under the name that the kind is written under. -/
theorem Flow.flow_restored :
    (∀ {o : Origin} {s : Source} {g : Flow}, codec.decode o s = .ok g →
      codec.ofJson? (codec.encode g).normal = .ok g) ∧
    (∀ {text : String} {g : Flow}, codec.ofText? text = .ok g → (codec.encode g).Exact →
      ∀ layout, codec.ofText? (String.ofList ((codec.encode g).chars layout)) = .ok g) ∧
    (∀ {config : NodeConfig}, config.Proper →
      ∀ node, NodeConfig.ofParts node config.kindName config.body = .ok config) ∧
    (∀ {node kind : String} {body : Json} {config : NodeConfig},
      NodeConfig.ofParts node kind body = .ok config →
        config.kindName = if kind = "join" then "link" else kind) := by
  refine ⟨?_, ?_, ?_, ?_⟩
  · intro o s g h
    have hproper : g.Proper := (Flow.lawful (n := 0)).good h
    exact ((Flow.lawful (n := 0)).restores hproper).value .value
  · intro text g h hexact layout
    have hread := Codec.decode_of_ofText h
    have hproper : g.Proper := (Flow.lawful (n := 0)).good hread
    have hshallow := (Flow.lawful (n := 0)).shallow hread
    have htext := Document.depth_ofText text
    have hdepth : (codec.encode g).depth ≤ Json.Reader.maxDepth := by
      have hlimit : Json.Reader.maxDepth = 127 := rfl
      omega
    rw [((Flow.lawful (n := 0)).restores hproper).ofText_chars hexact, Codec.within_of_le hdepth]
  · intro config h node
    exact h.ofParts_body node
  · intro node kind body config h
    exact (NodeConfig.of_ofParts h).kindName

namespace Flow

/-- Typed settings, none, `null` and settings of an unknown kind. -/
def sketch : Flow where
  nodes := [
    .ofConfig "a" (.entity { EntityConfig.empty with entity := some "account", rowCap := some 50 }),
    .ofConfig "j" (.link .empty), .ofConfig "c" (.concatenate .null),
    .ofConfig "u" (.unrecognized "chart" (.object [("series", .array [.null])]))]
  edges := [.between "a" "j"]

/-- The sketch as an editor may send it: the link is called a join and has no settings, and the edge
has no id. -/
def sent : Json :=
  .object [("nodes", .array [
      .object [("id", .string "a"), ("kind", .string "entity"),
        ("config", .object [("rowCap", .number (.integer 50)), ("entity", .string "account")])],
      .object [("id", .string "j"), ("kind", .string "join")],
      .object [("id", .string "c"), ("kind", .string "concatenate"), ("config", .null)],
      .object [("id", .string "u"), ("kind", .string "chart"),
        ("config", .object [("series", .array [.null])])]]),
    ("edges", .array [.object [("source", .string "a"), ("target", .string "j")]])]

def loneJoin : String := "\x7b\"nodes\":[\x7b\"id\":\"j\",\"kind\":\"join\"\x7d]\x7d"

theorem flow_restored_sketch :
    codec.ofJson? (codec.encode sketch).normal = .ok sketch ∧
      codec.ofText? (codec.encode ⟨[.ofConfig "j" (.link .empty)], []⟩).compact =
        .ok ⟨[.ofConfig "j" (.link .empty)], []⟩ ∧
      NodeConfig.ofParts "u" "chart" .null = .ok (.unrecognized "chart" .null) ∧
      (NodeConfig.link .empty).kindName = if "join" = "join" then "link" else "join" := by
  obtain ⟨hvalue, htext, hsettings, hname⟩ := flow_restored
  have hsent : codec.decode .value (.ofJson sent) = .ok sketch := by decide +kernel
  have hjoin : codec.ofText? loneJoin = .ok ⟨[.ofConfig "j" (.link .empty)], []⟩ := by decide +kernel
  have hparts : NodeConfig.ofParts "j" "join" .null = .ok (.link .empty) := rfl
  have hchart : (NodeConfig.unrecognized "chart" .null).Proper := ⟨rfl, rfl⟩
  exact ⟨hvalue hsent, htext hjoin (by decide +kernel) none,
    hsettings hchart "u", hname hparts⟩

end Flow

end ReportFlow
