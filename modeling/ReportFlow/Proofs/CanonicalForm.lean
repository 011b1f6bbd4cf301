import ReportFlow.Compilation
import ReportFlow.Reopening

/-!
The canonical form of stored node data: what is left of it once it has been reopened in an editor
and compiled again. It is described here part by part, without either of the two translations, and
then shown to be what they give together and to be a fixed point.
-/

namespace ReportFlow

def EntityData.canonical (d : EntityData) : EntityData :=
  { d with timezone := some (d.timezone.getD .user) }

/-- Captions are display text and are written anew. -/
def CaptionedCondition.recaptioned (c : CaptionedCondition) : CaptionedCondition :=
  { c with label := some c.condition.caption }

def CaptionedCondition.bare (c : CaptionedCondition) : CaptionedCondition :=
  { c with label := none }

/-- An editor has no place for the logic between the parts of a filter. -/
def FilterData.canonical (d : FilterData) : FilterData where
  logic := .all
  conditions := d.conditions.map (·.recaptioned)
  groups := some ((d.groups.getD []).map (·.map (·.recaptioned)))

/-- A cap by reference becomes the number an editor shows for it. -/
def RowCap.canonical? (top : RowCap) : Option RowCap := top.editable?.map .literal

/-- The output is known by the alias of the link, whatever was stored. -/
def ManyPolicy.canonical (aliasName : String) (p : ManyPolicy) : ManyPolicy where
  policy := { p.policy with top := p.policy.top.bind RowCap.canonical? }
  outputAlias := some aliasName

def LinkData.canonical (d : LinkData) : LinkData :=
  { d with
    childFilters := some ((d.childFilters.getD []).map (·.bare))
    childOrderBy := some (d.childOrderBy.getD [])
    manyPolicy := d.manyPolicy.map (ManyPolicy.canonical d.aliasName) }

def ColumnFormat.canonical : ColumnFormat → ColumnFormat
  | .oneDecimal | .twoDecimals => .number
  | format => format

def SheetColumn.canonical (c : SheetColumn) : SheetColumn :=
  { c with format := some ((c.format.getD .text).canonical), wrap := some false }

def SheetMode.canonical : SheetMode → SheetMode
  | .aggregate => .child
  | mode => mode

/-- At most one row can be frozen. -/
def SheetFreeze.canonical (f : SheetFreeze) : SheetFreeze :=
  ⟨some (if 0 < f.rows.getD 0 then 1 else 0), some (f.columns.getD 0)⟩

def SheetStyles.canonical (s : SheetStyles) : SheetStyles := { s with autoFilter := some true }

def SheetHyperlinks.canonical? (h : SheetHyperlinks) : Option SheetHyperlinks :=
  h.childSheetLinks.map fun links => ⟨some links⟩

def SheetData.canonical (d : SheetData) : SheetData :=
  { d with
    mode := d.mode.canonical
    columns := d.columns.map (·.canonical)
    freeze := d.freeze.map (·.canonical)
    styles := d.styles.map (·.canonical)
    hyperlinks := d.hyperlinks.bind (·.canonical?) }

def ExportData.canonical (d : ExportData) : ExportData :=
  { d with
    format := if d.format = .pdf then .xlsx else d.format
    includeMetadataSheet := some true }

def NodeData.canonical : NodeData → NodeData
  | .entity d => .entity d.canonical
  | .filter d => .filter d.canonical
  | .link d => .link d.canonical
  | .transform d => .transform d
  | .sheet d => .sheet d.canonical
  | .output d => .output d.canonical

/-! ## The canonical form is final -/

namespace CaptionedCondition

@[simp] theorem recaptioned_recaptioned (c : CaptionedCondition) :
    c.recaptioned.recaptioned = c.recaptioned := rfl

@[simp] theorem bare_bare (c : CaptionedCondition) : c.bare.bare = c.bare := rfl

@[simp] theorem condition_recaptioned (c : CaptionedCondition) :
    c.recaptioned.condition = c.condition := rfl

@[simp] theorem condition_bare (c : CaptionedCondition) : c.bare.condition = c.condition := rfl

end CaptionedCondition

@[simp] theorem Group.map_map {α β γ : Type} (f : α → β) (g : β → γ) (x : Group α) :
    (x.map f).map g = x.map (g ∘ f) := by
  simp [Group.map]

theorem FilterData.canonical_canonical (d : FilterData) : d.canonical.canonical = d.canonical := by
  simp [FilterData.canonical, Function.comp_def]

@[simp] theorem RowCap.bind_canonical? (top : Option RowCap) :
    (top.bind RowCap.canonical?).bind RowCap.canonical? = top.bind RowCap.canonical? := by
  rcases top with _ | top
  · rfl
  change top.canonical?.bind RowCap.canonical? = top.canonical?
  unfold RowCap.canonical?
  cases top.editable? <;> rfl

theorem ManyPolicy.canonical_canonical (a : String) (p : ManyPolicy) :
    (p.canonical a).canonical a = p.canonical a := by
  simp [ManyPolicy.canonical]

theorem LinkData.canonical_canonical (d : LinkData) : d.canonical.canonical = d.canonical := by
  simp [LinkData.canonical, Function.comp_def, ManyPolicy.canonical_canonical]

theorem SheetColumn.canonical_canonical (c : SheetColumn) :
    c.canonical.canonical = c.canonical := by
  rcases c with ⟨key, title, width, format, align, wrap⟩
  rcases format with _ | format
  · rfl
  · cases format <;> rfl

theorem SheetFreeze.canonical_canonical (f : SheetFreeze) :
    f.canonical.canonical = f.canonical := by
  by_cases h : 0 < f.rows.getD 0
  · simp [SheetFreeze.canonical, h]
  · simp [SheetFreeze.canonical, h]

@[simp] theorem SheetHyperlinks.bind_canonical? (links : Option SheetHyperlinks) :
    (links.bind SheetHyperlinks.canonical?).bind SheetHyperlinks.canonical? =
      links.bind SheetHyperlinks.canonical? := by
  rcases links with _ | ⟨_ | shown⟩ <;> rfl

theorem SheetMode.canonical_canonical (m : SheetMode) : m.canonical.canonical = m.canonical := by
  cases m <;> rfl

theorem SheetData.canonical_canonical (d : SheetData) : d.canonical.canonical = d.canonical := by
  simp [SheetData.canonical, Function.comp_def, SheetMode.canonical_canonical,
    SheetColumn.canonical_canonical, SheetFreeze.canonical_canonical, SheetStyles.canonical]

theorem ExportData.canonical_canonical (d : ExportData) : d.canonical.canonical = d.canonical := by
  by_cases h : d.format = .pdf
  · simp [ExportData.canonical, h]
  · simp [ExportData.canonical, h]

theorem NodeData.canonical_canonical (d : NodeData) : d.canonical.canonical = d.canonical := by
  cases d with
  | entity d => rfl
  | filter d => exact congrArg NodeData.filter d.canonical_canonical
  | link d => exact congrArg NodeData.link d.canonical_canonical
  | transform d => rfl
  | sheet d => exact congrArg NodeData.sheet d.canonical_canonical
  | output d => exact congrArg NodeData.output d.canonical_canonical

/-! ## Reopening and compiling give the canonical form -/

namespace Reopening

/-- The six ways in which stored data opens in an editor. -/
inductive Opens : NodeData → NodeConfig → Prop where
  | entity (d) : Opens (.entity d) (.entity (entityConfig d))
  | filter (d) : Opens (.filter d) (.filter (filterConfig d))
  | link (d relation) (hr : d.relation = some relation) :
      Opens (.link d) (.link (linkConfig relation d))
  | transform (d) : Opens (.transform d) (.transform ⟨some d.expressions⟩)
  | sheet (d) : Opens (.sheet d) (.sheet (sheetConfig d))
  | output (d) : Opens (.output d) (.output (exportConfig d))

theorem config_eq_ok_iff {n : ReportNode} {c : NodeConfig} :
    config n = .ok c ↔ Opens n.data c := by
  unfold config
  constructor
  · intro h
    split at h
    next d hd => cases h; rw [hd]; exact .entity d
    next d hd => cases h; rw [hd]; exact .filter d
    next d hd =>
      split at h
      · cases h
      · next relation hr => cases h; rw [hd]; exact .link d relation hr
    next d hd => cases h; rw [hd]; exact .transform d
    next d hd => cases h; rw [hd]; exact .sheet d
    next d hd => cases h; rw [hd]; exact .output d
  · intro h
    generalize n.data = data at h
    cases h with
    | link d relation hr => simp [hr]
    | _ => rfl

end Reopening

namespace Compilation

open Reopening

theorem entityData_entityConfig (d : EntityData) : entityData (entityConfig d) = d.canonical := rfl

theorem filterData_filterConfig (d : FilterData) : filterData (filterConfig d) = d.canonical := by
  have hgroups : (d.groups.map fun gs => gs.map (·.map (·.condition))).getD [] =
      (d.groups.getD []).map (·.map (·.condition)) := by
    cases d.groups <;> rfl
  simp [filterData, filterConfig, FilterData.canonical, hgroups, Function.comp_def, captioned,
    CaptionedCondition.recaptioned]

theorem manyPolicy_withTop (a : String) (p : ManyPolicy) :
    manyPolicy (some a) (p.policy.withTop (p.policy.top.bind RowCap.editable?)) = p.canonical a := by
  have htop : (p.policy.top.bind RowCap.editable?).map RowCap.literal =
      p.policy.top.bind RowCap.canonical? := by
    cases p.policy.top <;> rfl
  simp [manyPolicy, ManyPolicy.canonical, Policy.withTop, htop]

theorem linkData_linkConfig (relation : Relation) (d : LinkData) (h : d.relation = some relation) :
    linkData (linkConfig relation d) = d.canonical := by
  have hfilters : childFilters ((linkConfig relation d).childFilters.getD []) =
      (d.childFilters.getD []).map (·.bare) := by
    cases hc : d.childFilters with
    | none => simp [linkConfig, hc, childFilters]
    | some conditions =>
      simp [linkConfig, hc, childFilters, uncaptioned, CaptionedCondition.bare]
  have hmany : (linkConfig relation d).policy.map (manyPolicy (some d.aliasName)) =
      d.manyPolicy.map (ManyPolicy.canonical d.aliasName) := by
    simp [linkConfig, Function.comp_def, manyPolicy_withTop]
  unfold linkData LinkData.canonical
  rw [hfilters]
  simp only [linkConfig] at hmany ⊢
  rw [hmany, h]
  rfl

theorem sheetColumn_columnConfig (c : SheetColumn) :
    sheetColumn (columnConfig c) = c.canonical := by
  rcases c with ⟨key, title, width, format, align, wrap⟩
  rcases format with _ | format
  · rfl
  · cases format <;> rfl

theorem sheetMode_editorSheetMode (m : SheetMode) : sheetMode (editorSheetMode m) = m.canonical := by
  cases m <;> rfl

theorem sheetData_sheetConfig (d : SheetData) : sheetData (sheetConfig d) = d.canonical := by
  have hlinks : (d.hyperlinks.bind (·.childSheetLinks)).map (fun links => ⟨some links⟩) =
      d.hyperlinks.bind SheetHyperlinks.canonical? := by
    rcases d.hyperlinks with _ | ⟨_ | shown⟩ <;> rfl
  simp [sheetData, sheetConfig, SheetData.canonical, hlinks, Function.comp_def,
    sheetColumn_columnConfig, sheetMode_editorSheetMode, sheetFreeze, SheetFreeze.canonical,
    sheetStyles, SheetStyles.canonical]

theorem exportData_exportConfig (d : ExportData) : exportData (exportConfig d) = d.canonical := by
  rcases d with ⟨format, layout, fileName, metadata⟩
  cases format <;> rfl

theorem nodeData?_of_opens {data : NodeData} {c : NodeConfig} (h : Opens data c) :
    nodeData? c = some data.canonical := by
  cases h with
  | entity d => exact congrArg (some ∘ NodeData.entity) (entityData_entityConfig d)
  | filter d => exact congrArg (some ∘ NodeData.filter) (filterData_filterConfig d)
  | link d relation hr => exact congrArg (some ∘ NodeData.link) (linkData_linkConfig relation d hr)
  | transform d => rfl
  | sheet d => exact congrArg (some ∘ NodeData.sheet) (sheetData_sheetConfig d)
  | output d => exact congrArg (some ∘ NodeData.output) (exportData_exportConfig d)

end Compilation

end ReportFlow
