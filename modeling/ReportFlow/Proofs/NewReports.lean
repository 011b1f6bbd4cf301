import Mathlib.Data.List.Nodup
import Mathlib.Tactic.ByContra
import ReportFlow.Library.Bundle
import ReportFlow.Sample
import ReportFlow.Store.Memory

/-!
New reports in a library that is kept in memory. A duplicate and a renamed record go under an id that
is put together and not compared with the ids in store. Reports are kept, and counted right, exactly
when no such id is taken.
-/

namespace ReportFlow

theorem ReportStore.id_of_get? {σ : Type} [ReportStore σ] {s : σ} {id : String} {d : Definition}
    (h : get? s id = some d) : d.id = id := by
  unfold get? at h
  have hid := List.find?_some h
  exact eq_of_beq hid

namespace MemoryStore

variable {s : MemoryStore} {d : Definition} {id : String}

def IsFree (s : MemoryStore) (id : String) : Prop := ∀ r ∈ s.reports, r.id ≠ id

instance : Decidable (s.IsFree id) := inferInstanceAs (Decidable (∀ r ∈ s.reports, r.id ≠ id))

theorem isFree_iff_contains : s.IsFree id ↔ ReportStore.contains s id = false := by
  change (∀ r ∈ s.reports, r.id ≠ id) ↔ (s.reports.find? (·.id == id)).isSome = false
  simp

theorem upsert_of_free {reports : List Definition} (h : ∀ r ∈ reports, r.id ≠ d.id) :
    upsert d reports = reports ++ [d] := by
  induction reports with
  | nil => rfl
  | cons r rest ih =>
    obtain ⟨hr, hrest⟩ := List.forall_mem_cons.mp h
    rw [upsert, if_neg hr, ih hrest, List.cons_append]

/-- A report that replaces another keeps its place. -/
theorem ids_upsert_of_taken {reports : List Definition} (h : ∃ r ∈ reports, r.id = d.id) :
    (upsert d reports).map (·.id) = reports.map (·.id) := by
  induction reports with
  | nil => simp at h
  | cons r rest ih =>
    unfold upsert
    by_cases hr : r.id = d.id
    · rw [if_pos hr, List.map_cons, List.map_cons, hr]
    · rw [if_neg hr, List.map_cons, List.map_cons, ih (by simpa [hr] using h)]

theorem nodup_upsert (d : Definition) {reports : List Definition} (h : (reports.map (·.id)).Nodup) :
    ((upsert d reports).map (·.id)).Nodup := by
  by_cases htaken : ∃ r ∈ reports, r.id = d.id
  · rw [ids_upsert_of_taken htaken]
    exact h
  · have hfree : ∀ r ∈ reports, r.id ≠ d.id := fun r hr hid => htaken ⟨r, hr, hid⟩
    rw [upsert_of_free hfree, List.map_append, List.nodup_append]
    refine ⟨h, List.nodup_singleton d.id, ?_⟩
    simpa using hfree

theorem mem_upsert_of_ne {reports : List Definition} {r : Definition} (hr : r ∈ reports)
    (hne : r.id ≠ d.id) : r ∈ upsert d reports := by
  induction reports with
  | nil => cases hr
  | cons first rest ih =>
    unfold upsert
    rcases List.mem_cons.mp hr with rfl | hr
    · rw [if_neg hne]
      exact List.mem_cons_self
    · by_cases hfirst : first.id = d.id
      · rw [if_pos hfirst]
        exact List.mem_cons_of_mem d hr
      · rw [if_neg hfirst]
        exact List.mem_cons_of_mem first (ih hr)

theorem mem_upsert_self {reports : List Definition} : d ∈ upsert d reports := by
  induction reports with
  | nil => exact List.mem_singleton_self d
  | cons r rest ih =>
    unfold upsert
    split
    · exact List.mem_cons_self
    · exact List.mem_cons_of_mem r ih

theorem mem_upsert {reports : List Definition} {r : Definition} (h : r ∈ upsert d reports) :
    r = d ∨ r ∈ reports := by
  induction reports with
  | nil => exact .inl (List.mem_singleton.mp h)
  | cons first rest ih =>
    unfold upsert at h
    split at h
    · exact (List.mem_cons.mp h).imp_right (List.mem_cons_of_mem first)
    · rcases List.mem_cons.mp h with rfl | h
      · exact .inr List.mem_cons_self
      · exact (ih h).imp_right (List.mem_cons_of_mem first)

/-- Where no id stands twice, all reports under the id of the new one are gone. -/
theorem mem_upsert_iff {reports : List Definition} (h : (reports.map (·.id)).Nodup) {r : Definition} :
    r ∈ upsert d reports ↔ r = d ∨ (r ∈ reports ∧ r.id ≠ d.id) := by
  constructor
  · intro hr
    by_cases hid : r.id = d.id
    · left
      exact List.inj_on_of_nodup_map (nodup_upsert d h) hr mem_upsert_self hid
    · rcases mem_upsert hr with rfl | hold
      · exact absurd rfl hid
      · exact .inr ⟨hold, hid⟩
  · rintro (rfl | ⟨hr, hid⟩)
    · exact mem_upsert_self
    · exact mem_upsert_of_ne hr hid

theorem insert_of_free (h : s.IsFree d.id) : (s.insert d).reports = s.reports ++ [d] :=
  upsert_of_free h

theorem size_insert_of_taken (h : ¬ s.IsFree d.id) : (s.insert d).size = s.size := by
  have hids : (s.insert d).reports.map (·.id) = s.reports.map (·.id) := by
    apply ids_upsert_of_taken
    simpa [IsFree] using h
  simpa [size] using congrArg List.length hids

theorem size_insert_of_free (h : s.IsFree d.id) : (s.insert d).size = s.size + 1 := by
  rw [size, insert_of_free h, List.length_append, List.length_singleton]
  rfl

theorem not_isFree_insert (h : ¬ s.IsFree id) : ¬ (s.insert d).IsFree id := by
  obtain ⟨r, hr, rfl⟩ : ∃ r ∈ s.reports, r.id = id := by simpa [IsFree] using h
  intro hfree
  by_cases hne : r.id = d.id
  · exact hfree d mem_upsert_self hne.symm
  · exact hfree r (mem_upsert_of_ne hr hne) rfl

/-- One store is the other after taking up reports: no id is lost, and the `count` reports all add to
what was stored exactly when `free` holds. -/
structure TakesUp (before after : MemoryStore) (count : Nat) (free : Prop) : Prop where
  size_le : after.size ≤ before.size + count
  size_iff : after.size = before.size + count ↔ free
  kept : free → before.reports <+: after.reports
  ids_kept : ∀ id, ¬ before.IsFree id → ¬ after.IsFree id

namespace TakesUp

theorem nothing (s : MemoryStore) : s.TakesUp s 0 True where
  size_le := Nat.le_refl s.size
  size_iff := iff_true_intro rfl
  kept _ := List.prefix_rfl
  ids_kept _ h := h

theorem insert (s : MemoryStore) (d : Definition) : s.TakesUp (s.insert d) 1 (s.IsFree d.id) := by
  refine ⟨?_, ⟨fun hsize => ?_, size_insert_of_free⟩, fun h => ?_, fun id => not_isFree_insert⟩
  · by_cases h : s.IsFree d.id
    · exact Nat.le_of_eq (size_insert_of_free h)
    · exact size_insert_of_taken h ▸ Nat.le_succ s.size
  · by_contra htaken
    rw [size_insert_of_taken htaken] at hsize
    omega
  · exact insert_of_free h ▸ List.prefix_append s.reports [d]

/-- The counts of two turns add up. No turn adds more than its count, so the sum is reached only when
both are. -/
theorem trans {a b c : MemoryStore} {m n : Nat} {p q : Prop} (h : a.TakesUp b m p)
    (k : b.TakesUp c n q) : a.TakesUp c (m + n) (p ∧ q) := by
  have hle := h.size_le
  have kle := k.size_le
  refine ⟨by omega, ?_, fun hpq => (h.kept hpq.1).trans (k.kept hpq.2),
    fun id hid => k.ids_kept id (h.ids_kept id hid)⟩
  rw [← h.size_iff, ← k.size_iff]
  omega

end TakesUp

end MemoryStore

namespace Library

open MemoryStore (TakesUp)

variable {l : Library MemoryStore}

/-! ## Duplicates -/

/-- A duplicate is stored as it is returned; without one the library is left alone. -/
theorem duplicate_cases (l : Library MemoryStore) (id : String) (name : Option String) :
    (l.store.IsFree id ∧ (l.duplicate id name).result = .ok none ∧
      (l.duplicate id name).library = l) ∨
    ∃ copy, copy.id = id ++ "-" ++ l.sources.nextId "copy" ∧
      (l.duplicate id name).result = .ok (some copy) ∧
      (l.duplicate id name).library.store = l.store.insert copy := by
  unfold duplicate
  cases hget : l.get? id with
  | none =>
    refine .inl ⟨MemoryStore.isFree_iff_contains.mpr ?_, rfl, rfl⟩
    exact congrArg Option.isSome hget
  | some report =>
    refine .inr ⟨copyOf report name l.sources, ?_, rfl, rfl⟩
    rw [← ReportStore.id_of_get? hget]
    rfl

/-! ## Imports -/

def stored (l : Library MemoryStore) (d : Definition) : Definition :=
  if ReportStore.contains l.store d.id then Record.renamed d l.sources.tick else d

/-- Only an id that is put together anew can meet one in store. -/
theorem isFree_stored_iff {d : Definition} : l.store.IsFree (l.stored d).id ↔
    (¬ l.store.IsFree d.id → l.store.IsFree (Record.renamed d l.sources.tick).id) := by
  unfold stored
  by_cases h : l.store.IsFree d.id
  · rw [if_neg (by simp [MemoryStore.isFree_iff_contains.mp h])]
    exact iff_of_true h fun htaken => absurd h htaken
  · rw [if_pos (by simpa [MemoryStore.isFree_iff_contains] using h)]
    exact ⟨fun hfree _ => hfree, fun hfree => hfree h⟩

theorem importRecord_rejected {e : RecordError}
    (h : Record.definition record l.sources.now = .error e) :
    (l.importRecord record).result = .error e ∧
      ((l.importRecord record).library = l ∨
        (l.importRecord record).library = { l with sources := l.sources.tick }) := by
  unfold importRecord
  by_cases hcomplete : Record.isComplete record = true
  · simp only [hcomplete, Bool.not_true, Bool.false_eq_true, if_false, h]
    exact ⟨trivial, .inr trivial⟩
  · have hincomplete : e = .incomplete := by
      rw [Record.definition, if_neg hcomplete] at h
      exact (Except.error.inj h).symm
    simp only [hcomplete, Bool.not_false, if_true, hincomplete]
    exact ⟨trivial, .inl trivial⟩

theorem importRecord_accepted {d : Definition} (h : Record.definition record l.sources.now = .ok d) :
    (l.importRecord record).result = .ok (l.stored d).id ∧
      (l.importRecord record).library = ⟨l.store.insert (l.stored d),
        if ReportStore.contains l.store d.id then l.sources.tick.mint else l.sources.tick⟩ := by
  have hcomplete : Record.isComplete record = true := by
    by_contra hcomplete
    rw [Record.definition, if_neg hcomplete] at h
    cases h
  unfold importRecord
  simp only [hcomplete, Bool.not_true, Bool.false_eq_true, if_false, h]
  exact ⟨rfl, rfl⟩

/-- A record is rejected and nothing is stored, or it is accepted and stored. -/
theorem importRecord_cases (l : Library MemoryStore) (record : Json) :
    ((∃ e, (l.importRecord record).result = .error e) ∧
      (∀ d, Record.definition record l.sources.now ≠ .ok d) ∧
      (l.importRecord record).library.store = l.store) ∨
    ∃ d, Record.definition record l.sources.now = .ok d ∧
      (l.importRecord record).result = .ok (l.stored d).id ∧
      (l.importRecord record).library.store = l.store.insert (l.stored d) := by
  cases hd : Record.definition record l.sources.now with
  | error e =>
    obtain ⟨hresult, hleft | hticked⟩ := importRecord_rejected hd
    · exact .inl ⟨⟨e, hresult⟩, by simp, by rw [hleft]⟩
    · exact .inl ⟨⟨e, hresult⟩, by simp, by rw [hticked]⟩
  | ok d =>
    obtain ⟨hresult, hlibrary⟩ := importRecord_accepted hd
    exact .inr ⟨d, rfl, hresult, by rw [hlibrary]⟩

/-- Whenever a record is renamed in the course of an import, its new id is free at that moment. -/
def RenamesFreely (l : Library MemoryStore) : List Json → Prop
  | [] => True
  | record :: rest =>
    (∀ d, Record.definition record l.sources.now = .ok d → ¬ l.store.IsFree d.id →
      l.store.IsFree (Record.renamed d l.sources.tick).id) ∧
    (l.importRecord record).library.RenamesFreely rest

theorem importRecords_takesUp (l : Library MemoryStore) (number : Nat) (records : List Json) :
    ∃ i, (l.importRecords number records).result = .ok i ∧
      l.store.TakesUp (l.importRecords number records).library.store i.imported
        (l.RenamesFreely records) := by
  induction records generalizing l number with
  | nil => exact ⟨⟨0, []⟩, rfl, .nothing l.store⟩
  | cons record rest ih =>
    obtain ⟨i, hi, hrest⟩ := ih (l.importRecord record).library (number + 1)
    unfold importRecords RenamesFreely
    rcases importRecord_cases l record with ⟨⟨e, he⟩, hnone, hstore⟩ | ⟨d, hd, hok, hstore⟩
    · rw [hstore] at hrest
      refine ⟨{ i with errors := e.report number :: i.errors }, by simp [he, hi, Except.map], ?_⟩
      simpa [he, hnone] using hrest
    · refine ⟨{ i with imported := i.imported + 1 }, by simp [hok, hi, Except.map], ?_⟩
      rw [hstore] at hrest
      have hboth := (TakesUp.insert l.store (l.stored d)).trans hrest
      rw [isFree_stored_iff, Nat.add_comm 1 i.imported] at hboth
      simpa [hok, hd] using hboth

/-- The records of a text; none when it is no JSON or has no array of them. -/
def recordsOf? (text : String) : Option (List Json) :=
  match Json.ofText text with
  | .error _ => none
  | .ok document => (document.get? "reports").bind Json.items?

def recordsOf (text : String) : List Json := (recordsOf? text).getD []

theorem importText_of_none {text : String} (h : recordsOf? text = none) :
    (∃ e, (l.importText text).result = .error e) ∧ (l.importText text).library = l := by
  rw [recordsOf?] at h
  rw [importText]
  cases hread : Json.ofText text with
  | error fault => exact ⟨⟨_, rfl⟩, rfl⟩
  | ok document =>
    rw [hread] at h
    have hnone : (document.get? "reports").bind Json.items? = none := h
    simp only [importDocument, hnone]
    exact ⟨⟨_, rfl⟩, trivial⟩

theorem importDocument_of_some (document : Json) {records : List Json} {i : Import}
    (h : (document.get? "reports").bind Json.items? = some records)
    (hrun : (l.importRecords 1 records).result = .ok i) :
    (l.importDocument document).result = .ok i ∧
      (l.importDocument document).library = (l.importRecords 1 records).library := by
  simp only [importDocument, h, hrun]
  exact ⟨trivial, trivial⟩

theorem importText_of_some {text : String} {records : List Json} {i : Import}
    (h : recordsOf? text = some records) (hrun : (l.importRecords 1 records).result = .ok i) :
    (l.importText text).result = .ok i ∧
      (l.importText text).library = (l.importRecords 1 records).library := by
  rw [recordsOf?] at h
  rw [importText]
  cases hread : Json.ofText text with
  | error fault =>
    rw [hread] at h
    cases h
  | ok document =>
    rw [hread] at h
    exact importDocument_of_some document h hrun

theorem recordsOf_of_some {text : String} {records : List Json} (h : recordsOf? text = some records) :
    recordsOf text = records := by
  rw [recordsOf, h, Option.getD_some]

/-- An import fails as a whole only before its first record. -/
theorem importText_cases (l : Library MemoryStore) (text : String) :
    (∃ e, (l.importText text).result = .error e ∧ (l.importText text).library = l) ∨
    ∃ i, (l.importText text).result = .ok i ∧
      (l.importRecords 1 (recordsOf text)).result = .ok i ∧
      (l.importText text).library = (l.importRecords 1 (recordsOf text)).library := by
  cases hrecords : recordsOf? text with
  | none =>
    obtain ⟨⟨e, hresult⟩, hleft⟩ := importText_of_none (l := l) hrecords
    exact .inl ⟨e, hresult, hleft⟩
  | some records =>
    obtain ⟨i, hi, -⟩ := importRecords_takesUp l 1 records
    obtain ⟨hresult, hlibrary⟩ := importText_of_some hrecords hi
    rw [recordsOf_of_some hrecords]
    exact .inr ⟨i, hresult, hi, hlibrary⟩

/-- Stored reports are kept, and counted right, exactly when every id put together for a new report is
free. One that is taken is not noticed: its report gives way to the new one. -/
theorem new_reports_kept (l : Library MemoryStore) :
    (∀ id name copy, (l.duplicate id name).result = .ok (some copy) →
      l.store.TakesUp (l.duplicate id name).library.store 1
        (l.store.IsFree (id ++ "-" ++ l.sources.nextId "copy")) ∧
      ∀ r ∈ l.store.reports, r.id ≠ copy.id → r ∈ (l.duplicate id name).library.store.reports) ∧
    (∀ id name, (∀ copy, (l.duplicate id name).result ≠ .ok (some copy)) →
      (l.duplicate id name).library.store = l.store) ∧
    (∀ text i, (l.importText text).result = .ok i →
      l.store.TakesUp (l.importText text).library.store i.imported (l.RenamesFreely (recordsOf text))) ∧
    ∀ text e, (l.importText text).result = .error e → (l.importText text).library.store = l.store := by
  refine ⟨fun id name copy hcopied => ?_, fun id name hnone => ?_, fun text i hi => ?_,
    fun text e he => ?_⟩
  · rcases duplicate_cases l id name with ⟨-, hnone, -⟩ | ⟨stored, hid, hstored, hstore⟩
    · cases hnone.symm.trans hcopied
    · cases hstored.symm.trans hcopied
      rw [hstore, ← hid]
      exact ⟨.insert l.store copy, fun r hr hne => MemoryStore.mem_upsert_of_ne hr hne⟩
  · rcases duplicate_cases l id name with ⟨-, -, hleft⟩ | ⟨copy, -, hcopied, -⟩
    · rw [hleft]
    · exact absurd hcopied (hnone copy)
  · rcases importText_cases l text with ⟨e, he, -⟩ | ⟨j, hj, hrun, hafter⟩
    · cases he.symm.trans hi
    · cases hj.symm.trans hi
      obtain ⟨k, hk, htaken⟩ := importRecords_takesUp l 1 (recordsOf text)
      cases hk.symm.trans hrun
      rwa [hafter]
  · rcases importText_cases l text with ⟨_, -, hleft⟩ | ⟨i, hi, -⟩
    · rw [hleft]
    · cases hi.symm.trans he

end Library

namespace Sample

/-- Three reports, two of them under the ids that the next copy and the next renamed import of the
first one get. -/
def crowded : Library MemoryStore :=
  let sources := Sources.start (.fixed ⟨0, 0, 0⟩) .sequential
  let report (id : String) := { (Definition.blank "Accounts" "account" sources).1 with id := id }
  ⟨⟨[report "a", report "a-copy-1", report "a-imported-1"]⟩, sources⟩

def parcel : String :=
  "\x7b\"reports\": [\x7b\"id\": \"a\", \"name\": \"A\", \"schemaVersion\": \"1.0.0\", " ++
    "\"graph\": \x7b\"nodes\": [], \"edges\": []\x7d\x7d]\x7d"

end Sample

open Library Sample

theorem Library.new_reports_kept_crowded :
    (∃ copy, (crowded.duplicate "a" none).result = .ok (some copy) ∧
      (crowded.duplicate "a" none).library.store.size ≠ crowded.store.size + 1) ∧
    (∃ copy, (crowded.duplicate "a-copy-1" none).result = .ok (some copy) ∧
      crowded.store.reports <+: (crowded.duplicate "a-copy-1" none).library.store.reports) ∧
    ∃ i, (crowded.importText parcel).result = .ok i ∧ i.imported = 1 ∧
      ¬ crowded.RenamesFreely (recordsOf parcel) := by
  obtain ⟨hduplicate, -, himport, -⟩ := new_reports_kept crowded
  refine ⟨?_, ?_, ?_⟩
  · rcases duplicate_cases crowded "a" none with ⟨hfree, -⟩ | ⟨copy, -, hcopy, -⟩
    · exact absurd hfree (by decide +kernel)
    · refine ⟨copy, hcopy, fun hsize => ?_⟩
      exact absurd ((hduplicate "a" none copy hcopy).1.size_iff.mp hsize) (by decide +kernel)
  · rcases duplicate_cases crowded "a-copy-1" none with ⟨hfree, -⟩ | ⟨copy, -, hcopy, -⟩
    · exact absurd hfree (by decide +kernel)
    · exact ⟨copy, hcopy, (hduplicate "a-copy-1" none copy hcopy).1.kept (by decide +kernel)⟩
  · have hcount : (crowded.importText parcel).result.toOption.map (·.imported) = some 1 := by
      decide +kernel
    have hsize : (crowded.importText parcel).library.store.size = crowded.store.size := by
      decide +kernel
    rcases importText_cases crowded parcel with ⟨e, he, -⟩ | ⟨i, hi, -⟩
    · rw [he] at hcount
      cases hcount
    · have hone : i.imported = 1 := by
        rw [hi] at hcount
        exact Option.some.inj hcount
      refine ⟨i, hi, hone, ?_⟩
      rw [← (himport parcel i hi).size_iff, hsize, hone]
      exact (Nat.succ_ne_self crowded.store.size).symm

end ReportFlow
