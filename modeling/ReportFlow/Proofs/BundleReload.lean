import Mathlib.Data.List.Nodup
import ReportFlow.Proofs.ImportedRecords
import ReportFlow.Proofs.RecordVerdicts
import ReportFlow.Proofs.WrittenDefinitions

/-!
A bundle that is exported from a library and imported into an empty one. Since no id is stored twice,
nothing is renamed, and every complete report comes back as a first version of the instant it was
imported at. The text of a bundle nests its reports two containers deeper than their own texts do, so
it may be refused where they are not.
-/

namespace ReportFlow

/-! ## Stores that were filled -/

namespace MemoryStore

inductive Filled : MemoryStore → Prop
  | empty : Filled empty
  | insert {s : MemoryStore} {d : Definition} (hs : Filled s) (hd : d.Obtained) : Filled (s.insert d)
  | erase {s : MemoryStore} (id : String) (hs : Filled s) : Filled (s.erase id)

theorem Filled.obtained {s : MemoryStore} (h : s.Filled) : ∀ d ∈ s.reports, d.Obtained := by
  induction h with
  | empty => exact List.forall_mem_nil _
  | insert _ hd ih =>
    intro r hr
    rcases mem_upsert hr with rfl | hr
    · exact hd
    · exact ih r hr
  | erase id _ ih => exact fun d hd => ih d (List.mem_filter.mp hd).1

theorem Filled.nodup_ids {s : MemoryStore} (h : s.Filled) : (s.reports.map (·.id)).Nodup := by
  induction h with
  | empty => exact List.nodup_nil
  | insert _ _ ih => exact nodup_upsert _ ih
  | erase id _ ih => exact ih.sublist (List.filter_sublist.map _)

end MemoryStore

/-! ## The record of a definition -/

namespace Definition

def members (d : Definition) : List (String × Json) :=
  match codec.encode d with
  | .object members => members
  | _ => []

theorem nodup_members (d : Definition) : (d.members.map (·.1)).Nodup :=
  Fields.nodup_members (by decide) _

def record (d : Definition) : Json := (codec.encode d).normal

theorem get?_record (d : Definition) (key : String) :
    d.record.get? key = (Keyed.get? key d.members).map Json.normal :=
  Json.get?_normal d.nodup_members key

structure IsComplete (d : Definition) : Prop where
  id : d.id ≠ ""
  name : d.name ≠ ""
  schemaVersion : d.schemaVersion ≠ ""

theorem isComplete_iff {d : Definition} :
    d.IsComplete ↔ d.id ≠ "" ∧ d.name ≠ "" ∧ d.schemaVersion ≠ "" :=
  ⟨fun h => ⟨h.id, h.name, h.schemaVersion⟩, fun ⟨hid, hname, hversion⟩ => ⟨hid, hname, hversion⟩⟩

instance (d : Definition) : Decidable d.IsComplete := decidable_of_iff _ isComplete_iff.symm

/-- The definition as a first version of an instant. -/
def restarted (d : Definition) (now : Timestamp) : Definition :=
  { d with createdAt := now, updatedAt := now, reportVersion := 1 }

theorem WellFormed.restarted {d : Definition} (h : d.WellFormed) (now : Timestamp) :
    (d.restarted now).WellFormed :=
  ⟨h.parameters, h.graph, h.artifacts⟩

/-- The restart sets three members, and leaves the primary entity that it finds. -/
theorem get?_restarted (d : Definition) (entity : String) (now : Timestamp) (key : String) :
    Keyed.get? key ({ d with primaryEntity := entity }.restarted now).members =
      if key = "reportVersion" then some (.number (.integer 1))
      else if key = "updatedAt" then some (Timestamp.codec.encode now)
      else if key = "createdAt" then some (Timestamp.codec.encode now)
      else if key = "primaryEntity" then some (.string entity)
      else Keyed.get? key d.members := by
  by_cases hversion : key = "reportVersion"
  · rw [if_pos hversion, hversion]
    rfl
  by_cases hupdated : key = "updatedAt"
  · rw [if_neg hversion, if_pos hupdated, hupdated]
    rfl
  by_cases hcreated : key = "createdAt"
  · rw [if_neg hversion, if_neg hupdated, if_pos hcreated, hcreated]
    rfl
  by_cases hentity : key = "primaryEntity"
  · rw [if_neg hversion, if_neg hupdated, if_neg hcreated, if_pos hentity, hentity]
    rfl
  rw [if_neg hversion, if_neg hupdated, if_neg hcreated, if_neg hentity]
  simp only [members, codec, Codec.record, Fields.members, Field.required, Field.defaulted,
    Field.nullable, Bool.false_eq_true, if_false, Keyed.get?, hversion, hupdated, hcreated, hentity,
    restarted]

end Definition

namespace Record

variable {d : Definition} {now : Timestamp}

theorem isComplete_iff_of_holds {record : Json} (hid : record.get? "id" = some (.string d.id))
    (hname : record.get? "name" = some (.string d.name))
    (hversion : record.get? "schemaVersion" = some (.string d.schemaVersion)) :
    isComplete record = true ↔ d.IsComplete := by
  rw [isComplete_iff, Definition.isComplete_iff]
  simp [requiredFields, hid, hname, hversion]

theorem isComplete_record : isComplete d.record = true ↔ d.IsComplete :=
  isComplete_iff_of_holds (d.get?_record "id") (d.get?_record "name") (d.get?_record "schemaVersion")

/-- An import sets the versions and instants, and makes any primary entity a text. -/
theorem get?_reset (members : List (String × Json)) (now : Timestamp) (key : String) :
    (reset (.object members) now).get? key =
      if key = "reportVersion" then some (.number (.integer 1))
      else if key = "updatedAt" then some (Timestamp.codec.encode now)
      else if key = "createdAt" then some (Timestamp.codec.encode now)
      else if key = "primaryEntity" then
        some (.string (((Keyed.get? "primaryEntity" members).bind Json.string?).getD ""))
      else Keyed.get? key members := by
  have hentity : Keyed.get? "primaryEntity" (Keyed.put "reportVersion" (.number (.integer 1))
      (Keyed.put "updatedAt" (Timestamp.codec.encode now)
        (Keyed.put "createdAt" (Timestamp.codec.encode now) members))) =
          Keyed.get? "primaryEntity" members := by
    rw [Keyed.get?_put, Keyed.get?_put, Keyed.get?_put]
    rfl
  simp only [reset, Json.get?, hentity]
  cases hheld : (Keyed.get? "primaryEntity" members).bind Json.string? with
  | none =>
    simp only [Option.isSome_none, Bool.false_eq_true, if_false, Keyed.get?_put, Option.getD_none]
    by_cases hkey : key = "primaryEntity"
    · subst hkey
      rfl
    · simp only [hkey, if_false]
  | some e =>
    simp only [Option.isSome_some, if_true, Keyed.get?_put, Option.getD_some]
    by_cases hkey : key = "primaryEntity"
    · subst hkey
      obtain ⟨j, hj, hstring⟩ := Option.bind_eq_some_iff.mp hheld
      cases j with
      | string _ =>
        cases hstring
        exact hj
      | _ => cases hstring
    · simp only [hkey, if_false]

/-- What an import makes of a record, where the record has the members of the definition and a
primary entity of its own. -/
theorem reset_eq_restarted {members : List (String × Json)} {entity : String}
    (hsorted : Keyed.Sorted members)
    (hentity : ((Keyed.get? "primaryEntity" members).bind Json.string?).getD "" = entity)
    (hrest : ∀ key, key ≠ "primaryEntity" →
      Keyed.get? key members = (Keyed.get? key d.members).map Json.normal) :
    reset (.object members) now = ({ d with primaryEntity := entity }.restarted now).record := by
  have hsame (key : String) : (reset (.object members) now).get? key =
      ({ d with primaryEntity := entity }.restarted now).record.get? key := by
    rw [get?_reset, hentity, Definition.get?_record, Definition.get?_restarted]
    by_cases hkey : key = "primaryEntity"
    · subst hkey
      rfl
    · simp only [hkey, if_false, hrest key hkey, apply_ite (Option.map Json.normal), Option.map_some]
      rfl
  -- both objects ascend, so it is enough to look under each key
  obtain ⟨after, hafter, hresets⟩ := reset_object members now
  rw [hafter] at hsame ⊢
  exact congrArg Json.object
    (Keyed.ext_of_sorted (hresets.sorted hsorted) (Keyed.sorted_ofList _) hsame)

/-- An import sets in the record what it sets in the definition. -/
theorem reset_record : reset d.record now = (d.restarted now).record := by
  let written := Keyed.ofList (Json.normalMembers d.members)
  have hheld (key : String) : Keyed.get? key written =
      (Keyed.get? key d.members).map Json.normal := d.get?_record key
  have hentity : ((Keyed.get? "primaryEntity" written).bind Json.string?).getD "" =
      d.primaryEntity := by
    rw [hheld]
    rfl
  exact reset_eq_restarted (Keyed.sorted_ofList _) hentity fun key _ => hheld key

theorem definition_record (hd : d.WellFormed) (hnow : now.ReadsBack) :
    definition d.record now =
      if d.IsComplete then .ok (withEntity (d.restarted now)) else .error .incomplete := by
  have hread : Definition.codec.ofJson? (d.restarted now).record = .ok (d.restarted now) :=
    (Definition.restores (hd.restarted now) hnow hnow).value .value
  rw [definition, reset_record, hread]
  by_cases hcomplete : d.IsComplete
  · rw [if_pos (isComplete_record.mpr hcomplete), if_pos hcomplete]
    rfl
  · rw [if_neg (mt isComplete_record.mp hcomplete), if_neg hcomplete]

end Record

/-! ## The import -/

namespace Library

variable {l : Library MemoryStore}

/-- What is reported of the reports that an import does not take; `number` is that of the first. -/
def shortfalls (number : Nat) (ds : List Definition) : List String :=
  ((ds.zipIdx number).filter fun x => ¬x.1.IsComplete).map fun x => RecordError.incomplete.report x.2

def reimported (clock : Clock) (readings : Nat) (ds : List Definition) : List Definition :=
  ((ds.filter (·.IsComplete)).zipIdx readings).map fun x =>
    Record.withEntity (x.1.restarted (clock x.2))

section

variable {d : Definition} {rest : List Definition} (number : Nat) (clock : Clock) (readings : Nat)

theorem shortfalls_cons_of_complete (h : d.IsComplete) :
    shortfalls number (d :: rest) = shortfalls (number + 1) rest := by
  rw [shortfalls, List.zipIdx_cons, List.filter_cons_of_neg (by simpa using h), shortfalls]

theorem shortfalls_cons_of_incomplete (h : ¬d.IsComplete) : shortfalls number (d :: rest) =
    RecordError.incomplete.report number :: shortfalls (number + 1) rest := by
  rw [shortfalls, List.zipIdx_cons, List.filter_cons_of_pos (by simpa using h), shortfalls, List.map_cons]

theorem reimported_cons_of_complete (h : d.IsComplete) : reimported clock readings (d :: rest) =
    Record.withEntity (d.restarted (clock readings)) :: reimported clock (readings + 1) rest := by
  rw [reimported, List.filter_cons_of_pos (by simpa using h), List.zipIdx_cons, reimported, List.map_cons]

theorem reimported_cons_of_incomplete (h : ¬d.IsComplete) :
    reimported clock readings (d :: rest) = reimported clock readings rest := by
  rw [reimported, List.filter_cons_of_neg (by simpa using h), reimported]

end

def takenUp (l : Library MemoryStore) (d : Definition) : Library MemoryStore :=
  ⟨⟨l.store.reports ++ [d]⟩, l.sources.tick⟩

theorem importRecord_incomplete {record : Json} (h : ¬Record.isComplete record = true) :
    (l.importRecord record).library = l := by
  rw [importRecord, eq_false_of_ne_true h]
  rfl

theorem importRecord_free {record : Json} {d : Definition} (hfree : l.store.IsFree d.id)
    (h : Record.definition record l.sources.now = .ok d) :
    (l.importRecord record).library = l.takenUp d := by
  have hcontains := MemoryStore.isFree_iff_contains.mp hfree
  rw [(importRecord_accepted h).2, stored, hcontains, takenUp, ← MemoryStore.insert_of_free hfree]
  rfl

theorem isFree_takenUp {d : Definition} {id : String} (h : l.store.IsFree id) (hne : d.id ≠ id) :
    (l.takenUp d).store.IsFree id := by
  intro r hr
  rcases List.mem_append.mp hr with hr | hr
  · exact h r hr
  · rw [List.mem_singleton.mp hr]
    exact hne

/-- The records of reports under different ids, all of them free, are taken up one after the other. -/
theorem importRecords_records {ds : List Definition} (number : Nat)
    (hformed : ∀ d ∈ ds, d.WellFormed) (hclock : ∀ k, (l.sources.clock k).ReadsBack)
    (hids : (ds.map (·.id)).Nodup) (hfree : ∀ d ∈ ds, l.store.IsFree d.id) :
    (l.importRecords number (ds.map (·.record))).result =
        .ok ⟨(ds.filter (·.IsComplete)).length, shortfalls number ds⟩ ∧
      (l.importRecords number (ds.map (·.record))).library.store.reports =
        l.store.reports ++ reimported l.sources.clock l.sources.readings ds := by
  induction ds generalizing l number with
  | nil => exact ⟨rfl, (List.append_nil _).symm⟩
  | cons d rest ih =>
    obtain ⟨hd, hrest⟩ := List.forall_mem_cons.mp hformed
    obtain ⟨hid, hids⟩ := List.nodup_cons.mp hids
    obtain ⟨hdfree, hrestfree⟩ := List.forall_mem_cons.mp hfree
    have hrecord := Record.definition_record hd (hclock l.sources.readings)
    by_cases hcomplete : d.IsComplete
    · rw [if_pos hcomplete] at hrecord
      have hnext := importRecord_free (by rwa [Record.id_withEntity]) hrecord
      obtain ⟨hfirst, hleft⟩ := importRecords_cons_accepted number (rest.map (·.record)) hrecord
      rw [hnext] at hfirst hleft
      -- what was taken up has the id of the report, which none of the others has
      have hstill : ∀ r ∈ rest, (l.takenUp (Record.withEntity
          (d.restarted (l.sources.clock l.sources.readings)))).store.IsFree r.id := by
        intro r hr
        refine isFree_takenUp (hrestfree r hr) fun heq => hid (List.mem_map.mpr ⟨r, hr, ?_⟩)
        rw [← heq, Record.id_withEntity]
        rfl
      obtain ⟨hresult, hlibrary⟩ := ih (l := l.takenUp _) (number + 1) hrest hclock hids hstill
      rw [List.map_cons, hfirst, hresult, hleft, hlibrary, List.filter_cons_of_pos (by simpa using hcomplete),
        shortfalls_cons_of_complete number hcomplete, reimported_cons_of_complete _ _ hcomplete]
      exact ⟨rfl, List.append_assoc _ _ _⟩
    · rw [if_neg hcomplete] at hrecord
      have hnext := importRecord_incomplete (l := l) (mt Record.isComplete_record.mp hcomplete)
      obtain ⟨hfirst, hleft⟩ := importRecords_cons_rejected number (rest.map (·.record)) hrecord
      rw [hnext] at hfirst hleft
      obtain ⟨hresult, hlibrary⟩ := ih (number + 1) hrest hclock hids hrestfree
      rw [List.map_cons, hfirst, hresult, hleft, hlibrary, List.filter_cons_of_neg (by simpa using hcomplete),
        shortfalls_cons_of_incomplete number hcomplete, reimported_cons_of_incomplete _ _ hcomplete]
      exact ⟨rfl, rfl⟩

/-! ## The bundle -/

theorem mem_selected {ids : Option (List String)} {d : Definition} :
    d ∈ l.selected ids ↔ d ∈ l.store.reports ∧ ∀ chosen ∈ ids, d.id ∈ chosen := by
  cases ids with
  | none => exact ⟨fun h => ⟨h, nofun⟩, fun h => h.1⟩
  | some chosen =>
    show d ∈ l.store.reports.filter _ ↔ _
    simp

theorem selected_sublist (ids : Option (List String)) : (l.selected ids).Sublist l.store.reports := by
  cases ids with
  | none => exact List.Sublist.refl _
  | some chosen => exact List.filter_sublist

end Library

namespace Bundle

def text (b : Bundle) (layout : Option Nat) : String := String.ofList ((codec.encode b).chars layout)

theorem encode_eq (b : Bundle) : codec.encode b =
    .object [("version", .string b.version), ("reports", .array (b.reports.map Definition.codec.encode)),
      ("exportedAt", .string b.exportedAt.text), ("exportedBy", .string b.exportedBy)] := rfl

/-- A reader takes the text when each report could stand two containers deeper. -/
theorem depth_le_iff (b : Bundle) : (codec.encode b).depth ≤ Json.Reader.maxDepth ↔
    ∀ d ∈ b.reports, (Definition.codec.encode d).depth + 2 ≤ Json.Reader.maxDepth := by
  have hdepth : (codec.encode b).depth = Json.itemsDepth (b.reports.map Definition.codec.encode) + 2 := by
    simp [encode_eq, Json.depth, Json.membersDepth]
  have hlimit : Json.Reader.maxDepth = 125 + 2 := rfl
  rw [hdepth, hlimit, Nat.add_le_add_iff_right, Json.itemsDepth_le_iff, List.forall_mem_map]
  simp only [Nat.add_le_add_iff_right]

theorem exact_encode {b : Bundle} (h : ∀ d ∈ b.reports, (Definition.codec.encode d).Exact) :
    (codec.encode b).Exact := by
  have hreports : (Json.array (b.reports.map Definition.codec.encode)).Exact :=
    Json.exact_array.mpr (List.forall_mem_map.mpr h)
  rw [encode_eq, Json.exact_object]
  simp only [List.forall_mem_cons]
  exact ⟨nofun, hreports, nofun, nofun, nofun⟩

theorem recordsOf?_text {b : Bundle} (hexact : ∀ d ∈ b.reports, (Definition.codec.encode d).Exact)
    (hdepth : (codec.encode b).depth ≤ Json.Reader.maxDepth) (layout : Option Nat) :
    Library.recordsOf? (b.text layout) = some (b.reports.map (·.record)) := by
  have hread := Json.ofText_of_chars (exact_encode hexact) layout
  rw [if_pos hdepth] at hread
  have hreports : (codec.encode b).normal.get? "reports" =
      some (Json.array (b.reports.map Definition.codec.encode)).normal := by
    rw [encode_eq, Json.get?_normal (by simp)]
    rfl
  rw [Library.recordsOf?, text, hread]
  simp only [hreports, Option.bind_some, Json.normal, Json.normalItems_eq_map, List.map_map, Json.items?]
  rfl

theorem importText_of_deep {b : Bundle} (hexact : ∀ d ∈ b.reports, (Definition.codec.encode d).Exact)
    (hdepth : ¬(codec.encode b).depth ≤ Json.Reader.maxDepth) (layout : Option Nat)
    (l : Library MemoryStore) :
    l.importText (b.text layout) = ⟨l, .error (.malformed .nestingLimit), []⟩ := by
  have hread := Json.ofText_of_chars (exact_encode hexact) layout
  rw [if_neg hdepth] at hread
  rw [Library.importText, text, hread]

end Bundle

namespace Library

variable {l target : Library MemoryStore}

/-- A bundle lists the chosen reports once each, in the order of the store. An empty library that
imports its text reports the incomplete ones and holds the others in that order, each as of a reading
of the clock; but it refuses the text as a whole when that nests deeper than a reader goes. -/
theorem bundle_reload (hl : l.store.Filled) (hempty : target.store = .empty)
    (hclock : ∀ k, (target.sources.clock k).ReadsBack) (ids : Option (List String))
    (hexact : ∀ d ∈ (l.bundle ids).reports, (Definition.codec.encode d).Exact) (layout : Option Nat) :
    (l.bundle ids).reports.Sublist l.store.reports ∧ ((l.bundle ids).reports.map (·.id)).Nodup ∧
    (∀ d, d ∈ (l.bundle ids).reports ↔ d ∈ l.store.reports ∧ ∀ chosen ∈ ids, d.id ∈ chosen) ∧
    ((∀ d ∈ (l.bundle ids).reports, (Definition.codec.encode d).depth + 2 ≤ Json.Reader.maxDepth) →
      (target.importText ((l.bundle ids).text layout)).result =
        .ok ⟨((l.bundle ids).reports.filter (·.IsComplete)).length, shortfalls 1 (l.bundle ids).reports⟩ ∧
      (target.importText ((l.bundle ids).text layout)).library.store.reports =
        reimported target.sources.clock target.sources.readings (l.bundle ids).reports) ∧
    (¬(∀ d ∈ (l.bundle ids).reports, (Definition.codec.encode d).depth + 2 ≤ Json.Reader.maxDepth) →
      (target.importText ((l.bundle ids).text layout)).result = .error (.malformed .nestingLimit) ∧
      (target.importText ((l.bundle ids).text layout)).library = target) := by
  have hsub : (l.bundle ids).reports.Sublist l.store.reports := selected_sublist ids
  have hids : ((l.bundle ids).reports.map (·.id)).Nodup := hl.nodup_ids.sublist (hsub.map _)
  refine ⟨hsub, hids, fun d => mem_selected, fun hdepth => ?_, fun hdepth => ?_⟩
  · have hformed : ∀ d ∈ (l.bundle ids).reports, d.WellFormed := fun d hd =>
      (hl.obtained d (hsub.subset hd)).wellFormed
    have hfree : ∀ d ∈ (l.bundle ids).reports, target.store.IsFree d.id := by
      intro d _
      rw [hempty]
      exact List.forall_mem_nil _
    have hrecords := Bundle.recordsOf?_text hexact ((l.bundle ids).depth_le_iff.mpr hdepth) layout
    obtain ⟨hresult, hstore⟩ := importRecords_records 1 hformed hclock hids hfree
    obtain ⟨hread, hlibrary⟩ := importText_of_some hrecords hresult
    refine ⟨hread, ?_⟩
    rw [hlibrary, hstore, hempty]
    rfl
  · rw [Bundle.importText_of_deep hexact (mt (l.bundle ids).depth_le_iff.mp hdepth)]
    exact ⟨rfl, rfl⟩

end Library

namespace Sample

def shelf : Library MemoryStore :=
  ⟨(MemoryStore.empty.insert (accounts "a")).insert (accounts ""), Definition.start⟩

theorem filled_shelf : shelf.store.Filled :=
  .insert (.insert .empty (obtained_accounts "a")) (obtained_accounts "")

def unused : Library MemoryStore := ⟨.empty, Definition.start⟩

theorem clock_unused : ∀ k, (unused.sources.clock k).ReadsBack := by
  have htime : (⟨0, 0, 0⟩ : Timestamp).ReadsBack := by decide +kernel
  exact fun _ => htime

/-- A library with a report that nests as deep as its own text may. -/
def deepShelf : Library MemoryStore :=
  ⟨MemoryStore.empty.insert (Definition.reportOn (Definition.nested 119)), Definition.start⟩

theorem filled_deepShelf : deepShelf.store.Filled :=
  .insert .empty (Definition.obtained_reportOn (Definition.normal_nested 119))

end Sample

open Sample

theorem Library.bundle_reload_shelf :
    (shelf.bundle (some ["", "b", "a", ""])).reports.map (·.id) = ["a", ""] ∧
      (unused.importText ((shelf.bundle (some ["", "b", "a", ""])).text none)).result =
        .ok ⟨1, ["Report 2: Missing required fields"]⟩ ∧
      (unused.importText ((shelf.bundle (some ["", "b", "a", ""])).text none)).library.store.reports =
        [accounts "a"] := by
  have hexact : ∀ d ∈ (shelf.bundle (some ["", "b", "a", ""])).reports,
      (Definition.codec.encode d).Exact := by
    decide +kernel
  have hdepth : ∀ d ∈ (shelf.bundle (some ["", "b", "a", ""])).reports,
      (Definition.codec.encode d).depth + 2 ≤ Json.Reader.maxDepth := by
    decide +kernel
  obtain ⟨-, -, -, hshallow, -⟩ := bundle_reload filled_shelf rfl clock_unused _ hexact none
  obtain ⟨hresult, hstore⟩ := hshallow hdepth
  have htaken : ((shelf.bundle (some ["", "b", "a", ""])).reports.filter (·.IsComplete)).length = 1 := by
    decide +kernel
  have hreported : shortfalls 1 (shelf.bundle (some ["", "b", "a", ""])).reports =
      ["Report 2: Missing required fields"] := by
    decide +kernel
  rw [htaken, hreported] at hresult
  exact ⟨by decide +kernel, hresult, hstore.trans (by decide +kernel)⟩

/-- The report is complete and is read from its own text, but not from that of a bundle. -/
theorem Library.counterexample_deep_report :
    deepShelf.store.Filled ∧ (∀ k, (unused.sources.clock k).ReadsBack) ∧
      (∀ d ∈ deepShelf.store.reports, d.IsComplete ∧ d.Exact ∧
        Definition.codec.ofText? (Definition.codec.encode d).pretty = .ok d) ∧
      (unused.importText ((deepShelf.bundle none).text none)).result =
        .error (.malformed .nestingLimit) := by
  refine ⟨filled_deepShelf, clock_unused, fun d hd => ?_, ?_⟩
  · have hfacts : ∀ d ∈ deepShelf.store.reports, d.IsComplete ∧ d.Exact ∧
        (Definition.codec.encode d).depth ≤ Json.Reader.maxDepth := by
      decide +kernel
    obtain ⟨hcomplete, hexact, hdepth⟩ := hfacts d hd
    have hread := (Definition.restores (filled_deepShelf.obtained d hd).wellFormed hexact.createdAt
      hexact.updatedAt).ofText_chars hexact.numbers (some 0)
    rw [Codec.within_of_le hdepth] at hread
    exact ⟨hcomplete, hexact, hread⟩
  · have hnumbers : ∀ d ∈ (deepShelf.bundle none).reports, (Definition.codec.encode d).Exact := by
      decide +kernel
    have hdeep : ¬(Bundle.codec.encode (deepShelf.bundle none)).depth ≤ Json.Reader.maxDepth := by
      decide +kernel
    rw [Bundle.importText_of_deep hnumbers hdeep]

end ReportFlow
