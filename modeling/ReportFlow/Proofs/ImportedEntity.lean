import ReportFlow.Proofs.BundleReload
import ReportFlow.Proofs.ReadableValues

/-!
Records whose primary entity was taken out, or replaced by something that names none. An import
derives it anew from the graph, by a rule of its own, and comes to what the compilation had derived.
Nothing is asked of the parameters and artifacts that the definition was compiled over.
-/

namespace ReportFlow

/-! ## Changing the members of one key -/

namespace Keyed

variable {β : Type}

def replace (key : String) (value : Option β) (entries : List (String × β)) : List (String × β) :=
  entries.filterMap fun e => if e.1 = key then value.map fun v => (key, v) else some e

theorem replace_cons_of_ne {key k : String} (h : k ≠ key) (value : Option β) (v : β)
    (entries : List (String × β)) :
    replace key value ((k, v) :: entries) = (k, v) :: replace key value entries :=
  List.filterMap_cons_some (if_neg h)

theorem replace_cons_none (key : String) (v : β) (entries : List (String × β)) :
    replace key none ((key, v) :: entries) = replace key none entries :=
  List.filterMap_cons_none (if_pos rfl)

theorem replace_cons_some (key : String) (value v : β) (entries : List (String × β)) :
    replace key (some value) ((key, v) :: entries) =
      (key, value) :: replace key (some value) entries :=
  List.filterMap_cons_some (if_pos rfl)

theorem keys_replace_sublist (key : String) (value : Option β) (entries : List (String × β)) :
    ((replace key value entries).map (·.1)).Sublist (entries.map (·.1)) := by
  induction entries with
  | nil => exact List.Sublist.refl _
  | cons e rest ih =>
    obtain ⟨k, v⟩ := e
    by_cases hk : k = key
    · subst hk
      cases value with
      | none =>
        rw [replace_cons_none]
        exact ih.cons _
      | some value =>
        rw [replace_cons_some]
        exact ih.cons_cons _
    · rw [replace_cons_of_ne hk]
      exact ih.cons_cons _

theorem get?_replace (k key : String) (value : Option β) (entries : List (String × β)) :
    get? k (replace key value entries) =
      if k = key then (get? key entries).bind fun _ => value else get? k entries := by
  have hcons (k other : String) (v : β) (rest : List (String × β)) :
      get? k ((other, v) :: rest) = if k = other then some v else get? k rest := rfl
  induction entries with
  | nil => simp [replace, get?]
  | cons e rest ih =>
    obtain ⟨other, v⟩ := e
    by_cases hother : other = key
    · subst hother
      cases value with
      | none =>
        rw [replace_cons_none, ih, hcons, hcons]
        by_cases hk : k = other
        · simp [hk]
        · simp [hk]
      | some value =>
        rw [replace_cons_some, hcons, ih, hcons, hcons]
        by_cases hk : k = other
        · simp [hk]
        · simp [hk]
    · rw [replace_cons_of_ne hother, hcons, ih, hcons, hcons]
      by_cases hk : k = other
      · simp [hk, hother]
      · simp [hk, Ne.symm hother]

end Keyed

/-! ## The primary entity -/

/-- An import and a compilation look for the same entity. -/
theorem Record.firstEntity?_eq (nodes : List ReportNode) :
    firstEntity? nodes = StoredGraph.primaryEntity? nodes := by
  unfold StoredGraph.primaryEntity? StoredGraph.entities
  induction nodes with
  | nil => rfl
  | cons n rest ih =>
    rw [firstEntity?] at ih ⊢
    obtain ⟨id, data, position⟩ := n
    cases data with
    | entity d => rfl
    | _ => exact ih

namespace Definition

def unnamed (d : Definition) : Definition := { d with primaryEntity := "" }

def recordWith (d : Definition) (entity : Option Json) : Json :=
  .object (Keyed.replace "primaryEntity" entity d.members)

theorem get?_recordWith (d : Definition) (entity : Option Json) (key : String) :
    (d.recordWith entity).normal.get? key =
      if key = "primaryEntity" then entity.map Json.normal
      else (Keyed.get? key d.members).map Json.normal := by
  have hkeys : ((Keyed.replace "primaryEntity" entity d.members).map (·.1)).Nodup :=
    d.nodup_members.sublist (Keyed.keys_replace_sublist _ _ _)
  have hpresent : Keyed.get? "primaryEntity" d.members = some (.string d.primaryEntity) := rfl
  rw [recordWith, Json.get?_normal hkeys, Keyed.get?_replace]
  split
  · rw [hpresent]
    rfl
  · rfl

end Definition

namespace Record

variable {d : Definition} {entity : Option Json} {now : Timestamp}

theorem isComplete_recordWith : isComplete (d.recordWith entity).normal = true ↔ d.IsComplete :=
  isComplete_iff_of_holds (d.get?_recordWith entity "id") (d.get?_recordWith entity "name")
    (d.get?_recordWith entity "schemaVersion")

/-- A primary entity that names none is as good as none. -/
def NamesNone (entity : Option Json) : Prop := ∀ e, entity = some (.string e) → e = ""

theorem NamesNone.getD_normal (h : NamesNone entity) :
    ((entity.map Json.normal).bind Json.string?).getD "" = "" := by
  cases entity with
  | none => rfl
  | some j =>
    cases j with
    | string e => exact h e rfl
    | _ => rfl

theorem reset_recordWith (h : NamesNone entity) :
    reset (d.recordWith entity).normal now = (d.unnamed.restarted now).record := by
  let edited := Keyed.ofList (Json.normalMembers (Keyed.replace "primaryEntity" entity d.members))
  have hheld (key : String) : Keyed.get? key edited =
      if key = "primaryEntity" then entity.map Json.normal
      else (Keyed.get? key d.members).map Json.normal := d.get?_recordWith entity key
  have hentity : ((Keyed.get? "primaryEntity" edited).bind Json.string?).getD "" = "" := by
    rw [hheld, if_pos rfl]
    exact h.getD_normal
  exact reset_eq_restarted (Keyed.sorted_ofList _) hentity fun key hkey =>
    (hheld key).trans (if_neg hkey)

/-- Whatever stood for the primary entity, it is derived from the graph. -/
theorem definition_recordWith (hcomplete : d.IsComplete) (hgraph : d.graph.WellFormed)
    (h : NamesNone entity) (hnow : now.ReadsBack) :
    ∃ r, definition (d.recordWith entity).normal now = .ok r ∧ r.id = d.id ∧ r.graph = d.graph ∧
      r.primaryEntity = (StoredGraph.primaryEntity? d.graph.nodes).getD unknownEntity := by
  have hformed : (d.unnamed.restarted now).graph.WellFormed := hgraph
  obtain ⟨r, hread, hid, hentity, hnodes⟩ := Definition.decode_anyway hformed hnow hnow .value
  have hid : r.id = d.id := hid
  have hentity : r.primaryEntity = "" := hentity
  have hnodes : r.graph = d.graph := hnodes
  have hread : Definition.codec.ofJson? (reset (d.recordWith entity).normal now) = .ok r := by
    rw [reset_recordWith h]
    exact hread
  have hderived : withEntity r = { r with
      primaryEntity := (StoredGraph.primaryEntity? d.graph.nodes).getD unknownEntity } := by
    rw [withEntity, if_pos hentity, firstEntity?_eq, hnodes]
  refine ⟨withEntity r, ?_, ?_, ?_, ?_⟩
  · rw [definition, if_pos (isComplete_recordWith.mpr hcomplete), hread]
    rfl
  · rw [hderived]
    exact hid
  · rw [hderived]
    exact hnodes
  · rw [hderived]

def bundled (record : Json) : Json := .object [("reports", .array [record])]

theorem depth_bundled (record : Json) : (bundled record).depth = record.depth + 2 := by
  simp [bundled, Json.depth, Json.membersDepth, Json.itemsDepth]

theorem exact_bundled {record : Json} (h : record.Exact) : (bundled record).Exact := by
  rw [bundled, Json.exact_object, List.forall_mem_singleton, Json.exact_array,
    List.forall_mem_singleton]
  exact h

def bundleText (record : Json) (layout : Option Nat) : String :=
  String.ofList ((bundled record).chars layout)

theorem ofText_bundleText {record : Json} (h : record.Exact) (layout : Option Nat) :
    Json.ofText (bundleText record layout) =
      if record.depth + 2 ≤ Json.Reader.maxDepth then .ok (bundled record.normal)
      else .error .nestingLimit := by
  rw [bundleText, Json.ofText_of_chars (exact_bundled h), depth_bundled]
  rfl

end Record

/-! ## The import -/

theorem MemoryStore.get?_insert (s : MemoryStore) (d : Definition) :
    ReportStore.get? (s.insert d) d.id = some d := by
  show (upsert d s.reports).find? (·.id == d.id) = some d
  induction s.reports with
  | nil => simp [upsert]
  | cons r rest ih =>
    by_cases hr : r.id = d.id
    · simp [upsert, hr]
    · rw [upsert, if_neg hr, List.find?_cons_of_neg (by simpa using hr), ih]

namespace Library

/-- The library has taken up the report of a definition, renamed if its id was taken: on the same
graph and with the same primary entity. -/
structure Received (before after : Library MemoryStore) (d r : Definition) : Prop where
  id : r.id = (before.stored d).id
  found : after.get? r.id = some r
  primaryEntity : r.primaryEntity = d.primaryEntity
  graph : r.graph = d.graph

variable {l : Library MemoryStore}

theorem stored_of_id {d r : Definition} (h : r.id = d.id) :
    (l.stored r).id = (l.stored d).id ∧ (l.stored r).primaryEntity = r.primaryEntity ∧
      (l.stored r).graph = r.graph := by
  unfold stored
  rw [h]
  split
  · refine ⟨?_, rfl, rfl⟩
    rw [Record.renamed, Record.renamed, h]
  · exact ⟨h, rfl, rfl⟩

theorem received_importRecord {record : Json} {d r : Definition}
    (h : Record.definition record l.sources.now = .ok r) (hid : r.id = d.id)
    (hentity : r.primaryEntity = d.primaryEntity) (hgraph : r.graph = d.graph) :
    Received l (l.importRecord record).library d (l.stored r) := by
  obtain ⟨-, hlibrary⟩ := importRecord_accepted h
  obtain ⟨hsame, hkept, hkeptGraph⟩ := stored_of_id (l := l) hid
  refine ⟨hsame, ?_, hkept.trans hentity, hkeptGraph.trans hgraph⟩
  rw [hlibrary]
  exact MemoryStore.get?_insert l.store (l.stored r)

/-- In the text of a bundle the record is taken as it is on its own. -/
theorem importText_bundleText {record : Json} {r : Definition} (hexact : record.Exact)
    (hdepth : record.depth + 2 ≤ Json.Reader.maxDepth)
    (h : Record.definition record.normal l.sources.now = .ok r) (layout : Option Nat) :
    (l.importText (Record.bundleText record layout)).result = .ok ⟨1, []⟩ ∧
      (l.importText (Record.bundleText record layout)).library =
        (l.importRecord record.normal).library := by
  have hread := Record.ofText_bundleText hexact layout
  rw [if_pos hdepth] at hread
  have hrecords : recordsOf? (Record.bundleText record layout) = some [record.normal] := by
    rw [recordsOf?, hread]
    rfl
  obtain ⟨hfirst, hleft⟩ := importRecords_cons_accepted 1 [] h
  obtain ⟨hone, hafter⟩ := importText_of_some hrecords hfirst
  exact ⟨hone, hafter.trans hleft⟩

/-- Where the text nests too deep, nothing is taken. -/
theorem importText_bundleText_of_deep {record : Json} (hexact : record.Exact)
    (hdepth : ¬record.depth + 2 ≤ Json.Reader.maxDepth) (layout : Option Nat)
    (l : Library MemoryStore) :
    l.importText (Record.bundleText record layout) = ⟨l, .error (.malformed .nestingLimit), []⟩ := by
  have hread := Record.ofText_bundleText hexact layout
  rw [if_neg hdepth] at hread
  rw [importText, hread]

/-- Importing a compiled report without its primary entity derives the one that the compilation had
derived. The record is always taken; in the text of a bundle only where that nests no deeper than a
reader goes. -/
theorem import_derives_entity {o : Origin} {s : Source} {g : Flow}
    (hg : Flow.codec.decode o s = .ok g) (prior : Option Prior) (sources : Sources) {d : Definition}
    (hd : (g.compile prior sources).definition = d) (hcomplete : d.IsComplete)
    {entity : Option Json} (hentity : Record.NamesNone entity) (l : Library MemoryStore)
    (hclock : l.sources.now.ReadsBack) :
    (∃ r, (l.importRecord (d.recordWith entity).normal).result = .ok r.id ∧
      Received l (l.importRecord (d.recordWith entity).normal).library d r) ∧
    ∀ layout text, Record.bundleText (d.recordWith entity) layout = text →
      (d.recordWith entity).Exact →
        ((d.recordWith entity).depth + 2 ≤ Json.Reader.maxDepth →
          (l.importText text).result = .ok ⟨1, []⟩ ∧
            ∃ r, Received l (l.importText text).library d r) ∧
        (¬(d.recordWith entity).depth + 2 ≤ Json.Reader.maxDepth →
          (l.importText text).result = .error (.malformed .nestingLimit) ∧
            (l.importText text).library = l) := by
  have hgraph : d.graph.WellFormed := by
    rw [← hd]
    exact Compilation.wellFormed_graph (Flow.wellFormed_of_decode hg)
  have hcompiled : d.primaryEntity =
      (StoredGraph.primaryEntity? d.graph.nodes).getD unknownEntity := by
    rw [← hd]
    rfl
  obtain ⟨r, hrecord, hid, hnodes, hderived⟩ :=
    Record.definition_recordWith hcomplete hgraph hentity hclock
  have hreceived := received_importRecord hrecord hid (hderived.trans hcompiled.symm) hnodes
  refine ⟨⟨l.stored r, (importRecord_accepted hrecord).1, hreceived⟩, ?_⟩
  rintro layout text rfl hexact
  constructor
  · intro hdepth
    obtain ⟨hone, hafter⟩ := importText_bundleText hexact hdepth hrecord layout
    refine ⟨hone, l.stored r, ?_⟩
    rw [hafter]
    exact hreceived
  · intro hdepth
    rw [importText_bundleText_of_deep hexact hdepth layout l]
    exact ⟨rfl, rfl⟩

end Library

namespace Sample

def revised : Definition :=
  (Flow.sketch.compile (some { Prior.named "Accounts" with id := some "a" })
    Definition.start).definition

def overdeep : Definition := Definition.reportOn (Definition.nested 119)

end Sample

namespace Library

open Sample

/-- Taken from the text of a bundle, and renamed since the shelf holds a report of its id. -/
theorem import_derives_entity_shelf :
    (shelf.importText (Record.bundleText (revised.recordWith (some .null)) none)).result =
        .ok ⟨1, []⟩ ∧
      ∃ r, Received shelf (shelf.importText
        (Record.bundleText (revised.recordWith (some .null)) none)).library revised r ∧
          r.id = "a-imported-1" ∧ r.primaryEntity = "account" := by
  have hsent : Flow.codec.decode .value (.ofJson Flow.sent) = .ok Flow.sketch := by decide +kernel
  have hnull : Record.NamesNone (some .null) := nofun
  have hclock : shelf.sources.now.ReadsBack := by decide +kernel
  have hnumbers : (revised.recordWith (some .null)).Exact := by decide +kernel
  have hdepth : (revised.recordWith (some .null)).depth + 2 ≤ Json.Reader.maxDepth := by
    decide +kernel
  have hcomplete : revised.IsComplete := by decide +kernel
  obtain ⟨-, htext⟩ := import_derives_entity hsent _ _ rfl hcomplete hnull shelf hclock
  obtain ⟨hresult, r, hr⟩ := (htext none _ rfl hnumbers).1 hdepth
  exact ⟨hresult, r, hr, hr.id.trans (by decide +kernel), hr.primaryEntity.trans (by decide)⟩

/-- The record is complete and compiled from a flow that was read, and only its primary entity is
left out. -/
theorem counterexample_deep_record :
    (∃ g, Flow.codec.decode .value (.ofJson (Flow.codec.encode g).normal) = .ok g ∧
      (g.compile none Definition.start).definition = overdeep) ∧
      overdeep.IsComplete ∧ overdeep.Exact ∧ (overdeep.recordWith none).Exact ∧
      unused.sources.now.ReadsBack ∧
      (unused.importText (Record.bundleText (overdeep.recordWith none) none)).result =
        .error (.malformed .nestingLimit) := by
  have hproper : (Definition.filterOn (Definition.nested 119)).Proper :=
    Definition.proper_filterOn (Definition.normal_nested 119)
  have hnumbers : (overdeep.recordWith none).Exact := by decide +kernel
  have hdeep : ¬(overdeep.recordWith none).depth + 2 ≤ Json.Reader.maxDepth := by
    decide +kernel
  refine ⟨⟨_, ((Flow.lawful (n := 0)).restores hproper).value .value, rfl⟩, by decide +kernel,
    by decide +kernel, hnumbers, by decide +kernel, ?_⟩
  rw [importText_bundleText_of_deep hnumbers hdeep none unused]

end Library

end ReportFlow
