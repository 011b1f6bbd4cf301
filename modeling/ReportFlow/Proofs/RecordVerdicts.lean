import ReportFlow.Proofs.NewReports

/-!
Records of a bundle do not affect each other. Whether one is accepted depends on itself and the time
alone; a rejected one is reported under its position and leaves nothing behind but a reading of the
clock, which a clock that stands still does not show.
-/

namespace ReportFlow

namespace Record

def accepts (now : Timestamp) (record : Json) : Bool := (definition record now).isOk

def complaint? (now : Timestamp) (entry : Json × Nat) : Option String :=
  match definition entry.1 now with
  | .ok _ => none
  | .error e => some (e.report entry.2)

theorem complaint?_of_error {now : Timestamp} {record : Json} {e : RecordError} (number : Nat)
    (h : definition record now = .error e) : complaint? now (record, number) = some (e.report number) := by
  rw [complaint?, h]

theorem complaint?_of_ok {now : Timestamp} {record : Json} {d : Definition} (number : Nat)
    (h : definition record now = .ok d) : complaint? now (record, number) = none := by
  rw [complaint?, h]

theorem not_accepts_of_error {now : Timestamp} {record : Json} {e : RecordError}
    (h : definition record now = .error e) : ¬accepts now record = true := by
  rw [accepts, h]
  exact Bool.false_ne_true

theorem accepts_of_ok {now : Timestamp} {record : Json} {d : Definition}
    (h : definition record now = .ok d) : accepts now record = true := by
  rw [accepts, h]
  rfl

theorem isComplete_iff {record : Json} :
    isComplete record = true ↔
      ∀ field ∈ requiredFields, ∃ s, record.get? field = some (.string s) ∧ s ≠ "" := by
  rw [isComplete, List.all_eq_true]
  refine forall₂_congr fun field _ => ?_
  cases record.get? field with
  | none => simp
  | some value =>
    cases value with
    | string s => simp [Json.string?]
    | _ => simp [Json.string?]

theorem accepts_iff {now : Timestamp} {record : Json} :
    accepts now record = true ↔
      (∀ field ∈ requiredFields, ∃ s, record.get? field = some (.string s) ∧ s ≠ "") ∧
        ∃ d, Definition.codec.ofJson? (reset record now) = .ok d := by
  rw [← isComplete_iff, accepts, definition]
  by_cases hcomplete : isComplete record = true
  · rw [if_pos hcomplete]
    cases Definition.codec.ofJson? (reset record now) with
    | error cause => simp [hcomplete, Except.mapError, Except.map, Except.isOk, Except.toBool]
    | ok d => simp [hcomplete, Except.mapError, Except.map, Except.isOk, Except.toBool]
  · rw [if_neg hcomplete]
    simp [hcomplete, Except.isOk, Except.toBool]

end Record

namespace Library

variable {l l' : Library MemoryStore} {now : Timestamp} {record : Json}

theorem importRecords_cons_rejected {e : RecordError} (number : Nat) (rest : List Json)
    (h : Record.definition record l.sources.now = .error e) :
    (l.importRecords number (record :: rest)).result =
        ((l.importRecord record).library.importRecords (number + 1) rest).result.map
          (fun i => { i with errors := e.report number :: i.errors }) ∧
      (l.importRecords number (record :: rest)).library =
        ((l.importRecord record).library.importRecords (number + 1) rest).library := by
  simp only [importRecords, (importRecord_rejected h).1]
  exact ⟨trivial, trivial⟩

theorem importRecords_cons_accepted {d : Definition} (number : Nat) (rest : List Json)
    (h : Record.definition record l.sources.now = .ok d) :
    (l.importRecords number (record :: rest)).result =
        ((l.importRecord record).library.importRecords (number + 1) rest).result.map
          (fun i => { i with imported := i.imported + 1 }) ∧
      (l.importRecords number (record :: rest)).library =
        ((l.importRecord record).library.importRecords (number + 1) rest).library := by
  simp only [importRecords, (importRecord_accepted h).1]
  exact ⟨trivial, trivial⟩

/-! ## Libraries under a clock that stands still -/

structure Alike (now : Timestamp) (l l' : Library MemoryStore) : Prop where
  store : l.store = l'.store
  clock : l.sources.clock = .fixed now
  clock' : l'.sources.clock = .fixed now
  ids : l.sources.ids = l'.sources.ids
  minted : l.sources.minted = l'.sources.minted

theorem now_of_fixed (h : l.sources.clock = .fixed now) : l.sources.now = now := by
  rw [Sources.now, h]
  rfl

namespace Alike

theorem refl (h : l.sources.clock = .fixed now) : l.Alike now l := ⟨rfl, h, h, rfl, rfl⟩

theorem contains_eq (h : l.Alike now l') (id : String) :
    ReportStore.contains l.store id = ReportStore.contains l'.store id := by
  rw [h.store]

theorem stored_eq (h : l.Alike now l') (d : Definition) : l.stored d = l'.stored d := by
  have hid : l.sources.tick.nextId "imported" = l'.sources.tick.nextId "imported" := by
    show l.sources.ids l.sources.minted "imported" = l'.sources.ids l'.sources.minted "imported"
    rw [h.ids, h.minted]
  rw [stored, stored, h.contains_eq, Record.renamed, Record.renamed, hid]

/-- A rejected record may as well be left out. -/
theorem rejected (h : l.Alike now l') {e : RecordError} (hrecord : Record.definition record now = .error e) :
    (l.importRecord record).library.Alike now l' := by
  rw [← now_of_fixed h.clock] at hrecord
  rcases (importRecord_rejected hrecord).2 with hleft | hticked
  · rw [hleft]
    exact h
  · rw [hticked]
    exact ⟨h.store, h.clock, h.clock', h.ids, h.minted⟩

/-- An accepted record does the same to both. -/
theorem accepted (h : l.Alike now l') {d : Definition} (hrecord : Record.definition record now = .ok d) :
    (l.importRecord record).library.Alike now (l'.importRecord record).library := by
  have hleft : Record.definition record l.sources.now = .ok d := by rw [now_of_fixed h.clock, hrecord]
  have hright : Record.definition record l'.sources.now = .ok d := by rw [now_of_fixed h.clock', hrecord]
  rw [(importRecord_accepted hleft).2, (importRecord_accepted hright).2, h.contains_eq, h.stored_eq, h.store]
  split
  · exact ⟨rfl, h.clock, h.clock', h.ids, congrArg (· + 1) h.minted⟩
  · exact ⟨rfl, h.clock, h.clock', h.ids, h.minted⟩

end Alike

/-! ## All records -/

/-- Every record is counted or reported, and what remains is what the accepted ones alone would leave. -/
theorem importRecords_alike (h : l.Alike now l') (number other : Nat) (records : List Json) :
    (l.importRecords number records).result =
        .ok ⟨(records.filter (Record.accepts now)).length,
          (records.zipIdx number).filterMap (Record.complaint? now)⟩ ∧
      (l.importRecords number records).library.Alike now
        (l'.importRecords other (records.filter (Record.accepts now))).library := by
  induction records generalizing l l' number other with
  | nil => exact ⟨rfl, h⟩
  | cons record rest ih =>
    cases hrecord : Record.definition record now with
    | error e =>
      have hhere : Record.definition record l.sources.now = .error e := by
        rw [now_of_fixed h.clock, hrecord]
      obtain ⟨hresult, hlibrary⟩ := ih (h.rejected hrecord) (number + 1) other
      obtain ⟨hfirst, hleft⟩ := importRecords_cons_rejected number rest hhere
      rw [List.filter_cons_of_neg (Record.not_accepts_of_error hrecord), List.zipIdx_cons,
        List.filterMap_cons_some (Record.complaint?_of_error number hrecord), hfirst, hresult, hleft]
      exact ⟨rfl, hlibrary⟩
    | ok d =>
      have hhere : Record.definition record l.sources.now = .ok d := by
        rw [now_of_fixed h.clock, hrecord]
      have hthere : Record.definition record l'.sources.now = .ok d := by
        rw [now_of_fixed h.clock', hrecord]
      obtain ⟨hresult, hlibrary⟩ := ih (h.accepted hrecord) (number + 1) (other + 1)
      obtain ⟨hfirst, hleft⟩ := importRecords_cons_accepted number rest hhere
      obtain ⟨-, hright⟩ :=
        importRecords_cons_accepted other (rest.filter (Record.accepts now)) hthere
      rw [List.filter_cons_of_pos (Record.accepts_of_ok hrecord), List.zipIdx_cons,
        List.filterMap_cons_none (Record.complaint?_of_ok number hrecord), hfirst, hresult, hleft, hright]
      exact ⟨rfl, hlibrary⟩

theorem length_filterMap_complaint (now : Timestamp) (number : Nat) (records : List Json) :
    (records.filter (Record.accepts now)).length +
      ((records.zipIdx number).filterMap (Record.complaint? now)).length = records.length := by
  induction records generalizing number with
  | nil => rfl
  | cons record rest ih =>
    have hrest := ih (number + 1)
    rw [List.zipIdx_cons, List.length_cons]
    cases hrecord : Record.definition record now with
    | error e =>
      rw [List.filter_cons_of_neg (Record.not_accepts_of_error hrecord),
        List.filterMap_cons_some (Record.complaint?_of_error number hrecord), List.length_cons]
      omega
    | ok d =>
      rw [List.filter_cons_of_pos (Record.accepts_of_ok hrecord),
        List.filterMap_cons_none (Record.complaint?_of_ok number hrecord), List.length_cons]
      omega

/-- The verdict on a record under a clock that stands still. -/
theorem importRecord_isOk_iff (h : l.sources.clock = .fixed now) :
    (∃ id, (l.importRecord record).result = .ok id) ↔ Record.accepts now record = true := by
  cases hrecord : Record.definition record now with
  | error e =>
    have hhere : Record.definition record l.sources.now = .error e := by rw [now_of_fixed h, hrecord]
    rw [(importRecord_rejected hhere).1]
    exact iff_of_false nofun (Record.not_accepts_of_error hrecord)
  | ok d =>
    have hhere : Record.definition record l.sources.now = .ok d := by rw [now_of_fixed h, hrecord]
    rw [(importRecord_accepted hhere).1]
    exact iff_of_true ⟨_, rfl⟩ (Record.accepts_of_ok hrecord)

/-- A faulty record leaves its siblings alone: all records are counted or reported under their
positions, and the store and the ids are left as by a bundle of the accepted ones. What is accepted
does not depend on the library or on other records. A text without records changes nothing. -/
theorem siblings_unaffected (hclock : l.sources.clock = .fixed now) (text : String) :
    (recordsOf? text = none →
      (∃ e, (l.importText text).result = .error e) ∧ (l.importText text).library = l) ∧
    (∀ records, recordsOf? text = some records →
      (∃ i, (l.importText text).result = .ok i ∧
        i.imported = (records.filter (Record.accepts now)).length ∧
        i.errors = (records.zipIdx 1).filterMap (Record.complaint? now) ∧
        i.imported + i.errors.length = records.length) ∧
      (l.importText text).library.Alike now (l.importDocument
        (.object [("reports", .array (records.filter (Record.accepts now)))])).library) ∧
    (∀ record, Record.accepts now record = true ↔
      (∀ field ∈ Record.requiredFields, ∃ s, record.get? field = some (.string s) ∧ s ≠ "") ∧
        ∃ d, Definition.codec.ofJson? (Record.reset record now) = .ok d) ∧
    ∀ record (other : Library MemoryStore), other.sources.clock = .fixed now →
      ((∃ id, (other.importRecord record).result = .ok id) ↔ Record.accepts now record = true) := by
  refine ⟨importText_of_none, fun records hrecords => ?_, fun record => Record.accepts_iff,
    fun record other h => importRecord_isOk_iff h⟩
  obtain ⟨hresult, halike⟩ := importRecords_alike (.refl hclock) 1 1 records
  obtain ⟨honly, -⟩ := importRecords_alike (.refl hclock) 1 1 (records.filter (Record.accepts now))
  obtain ⟨hread, hlibrary⟩ := importText_of_some hrecords hresult
  obtain ⟨-, haccepted⟩ := importDocument_of_some
    (.object [("reports", .array (records.filter (Record.accepts now)))]) rfl honly
  refine ⟨⟨_, hread, rfl, rfl, length_filterMap_complaint now 1 records⟩, ?_⟩
  rw [hlibrary, haccepted]
  exact halike

end Library

namespace Sample

def mixedParcel : String :=
  "\x7b\"reports\": [1, \x7b\"id\": \"a\", \"name\": \"A\", \"schemaVersion\": \"1.0.0\", " ++
    "\"graph\": \x7b\"nodes\": [], \"edges\": []\x7d\x7d]\x7d"

end Sample

open Library Sample

theorem Library.siblings_unaffected_crowded :
    (∃ e, (crowded.importText "[]").result = .error e) ∧
      ∃ i, (crowded.importText mixedParcel).result = .ok i ∧ i.imported + i.errors.length = 2 ∧
        i.errors = ["Report 1: Missing required fields"] := by
  have hclock : crowded.sources.clock = .fixed ⟨0, 0, 0⟩ := rfl
  refine ⟨((siblings_unaffected hclock "[]").1 (by decide +kernel)).1, ?_⟩
  have hrun : (recordsOf? mixedParcel).map
      (fun records => (records.length, (records.zipIdx 1).filterMap (Record.complaint? ⟨0, 0, 0⟩))) =
        some (2, ["Report 1: Missing required fields"]) := by
    decide +kernel
  obtain ⟨records, hrecords, hboth⟩ := Option.map_eq_some_iff.mp hrun
  obtain ⟨hlength, herrors⟩ := Prod.mk.inj hboth
  obtain ⟨⟨i, hread, -, hcomplaints, hsum⟩, -⟩ :=
    (siblings_unaffected hclock mixedParcel).2.1 records hrecords
  exact ⟨i, hread, hsum.trans hlength, hcomplaints.trans herrors⟩

end ReportFlow
