import ReportFlow.Command.Run

/-!
Stores in a directory that differ only in how often they have used their disk. As long as nothing
fails by itself, no operation of a library and no command can tell them apart.
-/

namespace ReportFlow

/-- The same store on a sound disk, after different numbers of operations. -/
inductive DirectoryStore.Twins : DirectoryStore → DirectoryStore → Prop
  | intro (path : String) (reports : List (String × Definition)) (site : Site) (turn turn' : Nat) :
    Twins ⟨path, reports, ⟨site, fun _ => none, turn⟩⟩ ⟨path, reports, ⟨site, fun _ => none, turn'⟩⟩

namespace DirectoryStore

variable {s s' : DirectoryStore}

namespace Twins

theorem of_eq (hpath : s.path = s'.path) (hreports : s.reports = s'.reports)
    (hsite : s.disk.site = s'.disk.site) (hs : s.disk.failures = fun _ => none)
    (hs' : s'.disk.failures = fun _ => none) : s.Twins s' := by
  obtain ⟨path, reports, ⟨site, failures, turn⟩⟩ := s
  obtain ⟨path', reports', ⟨site', failures', turn'⟩⟩ := s'
  cases hpath
  cases hreports
  cases hsite
  cases hs
  cases hs'
  exact .intro path reports site turn turn'

theorem site_eq (h : s.Twins s') : s.disk.site = s'.disk.site := by
  cases h
  rfl

theorem list_eq (h : s.Twins s') : ReportStore.list s = ReportStore.list s' := by
  cases h
  rfl

theorem put (h : s.Twins s') (d : Definition) :
    (s.put d).result = (s'.put d).result ∧ (s.put d).store.Twins (s'.put d).store := by
  cases h with
  | intro path reports site turn turn' =>
    unfold DirectoryStore.put
    simp only [Disk.run]
    cases Site.create site with
    | error cause => exact ⟨rfl, .intro ..⟩
    | ok made =>
      obtain ⟨u, made⟩ := made
      simp only
      cases Site.write (FileName.ofId d.id) (text d) made with
      | error cause => exact ⟨rfl, .intro ..⟩
      | ok written => exact ⟨rfl, .intro ..⟩

theorem delete (h : s.Twins s') (id : String) :
    (s.delete id).result = (s'.delete id).result ∧ (s.delete id).store.Twins (s'.delete id).store := by
  cases h with
  | intro path reports site turn turn' =>
    unfold DirectoryStore.delete
    simp only [Disk.asks, Disk.run]
    cases Site.lookFor (FileName.ofId id) site with
    | error cause => exact ⟨rfl, .intro ..⟩
    | ok found =>
      obtain ⟨u, found⟩ := found
      simp only [Except.isOk, Except.toBool]
      cases Site.remove (FileName.ofId id) found with
      | error cause => exact ⟨rfl, .intro ..⟩
      | ok removed => exact ⟨rfl, .intro ..⟩

end Twins

end DirectoryStore

namespace Library

variable {ε α : Type} {l l' : Library DirectoryStore}

structure Twins (l l' : Library DirectoryStore) : Prop where
  store : l.store.Twins l'.store
  sources : l.sources = l'.sources

structure Agree (a b : Outcome DirectoryStore ε α) : Prop where
  result : a.result = b.result
  library : a.library.Twins b.library

namespace Twins

theorem get?_eq (h : l.Twins l') (id : String) :
    ReportStore.get? l.store id = ReportStore.get? l'.store id := by
  rw [ReportStore.get?, ReportStore.get?, h.store.list_eq]

theorem save (h : l.Twins l') (d : Definition) : Agree (l.save d) (l'.save d) := by
  obtain ⟨hresult, hstore⟩ := h.store.put d
  exact ⟨hresult, hstore, h.sources⟩

theorem duplicate (h : l.Twins l') (id : String) (name : Option String) :
    Agree (l.duplicate id name) (l'.duplicate id name) := by
  unfold Library.duplicate Library.get?
  rw [h.get?_eq, h.sources]
  cases ReportStore.get? l'.store id with
  | none => exact ⟨rfl, h⟩
  | some report =>
    obtain ⟨hresult, hstore⟩ := h.store.put (copyOf report name l'.sources)
    have hmapped := congrArg (fun r => r.map fun _ => some (copyOf report name l'.sources)) hresult
    exact ⟨hmapped, hstore, rfl⟩

theorem delete (h : l.Twins l') (id : String) : Agree (l.delete id) (l'.delete id) := by
  obtain ⟨hresult, hstore⟩ := h.store.delete id
  exact ⟨hresult, hstore, h.sources⟩

theorem importRecord (h : l.Twins l') (record : Json) :
    Agree (l.importRecord record) (l'.importRecord record) := by
  unfold Library.importRecord
  rw [h.sources]
  cases Record.isComplete record with
  | false => exact ⟨rfl, h⟩
  | true =>
    simp only [Bool.not_true, Bool.false_eq_true, if_false]
    cases Record.definition record l'.sources.now with
    | error e => exact ⟨rfl, h.store, rfl⟩
    | ok d =>
      simp only [ReportStore.contains, h.get?_eq]
      obtain ⟨hresult, hstore⟩ := h.store.put
        (if (ReportStore.get? l'.store d.id).isSome then Record.renamed d l'.sources.tick else d)
      have hmapped := congrArg (fun r => (r.mapError RecordError.unstored).map fun _ =>
        (if (ReportStore.get? l'.store d.id).isSome then Record.renamed d l'.sources.tick else d).id)
        hresult
      exact ⟨hmapped, hstore, rfl⟩

theorem importRecords (h : l.Twins l') (number : Nat) (records : List Json) :
    Agree (l.importRecords number records) (l'.importRecords number records) := by
  induction records generalizing l l' number with
  | nil => exact ⟨rfl, h⟩
  | cons record rest ih =>
    obtain ⟨hresult, hlibrary⟩ := h.importRecord record
    obtain ⟨hresults, hlibraries⟩ := ih hlibrary (number + 1)
    unfold Library.importRecords
    simp only [hresult, hresults]
    cases (l'.importRecord record).result with
    | error e => exact ⟨rfl, hlibraries⟩
    | ok id => exact ⟨rfl, hlibraries⟩

theorem importText (h : l.Twins l') (text : String) : Agree (l.importText text) (l'.importText text) := by
  unfold Library.importText
  cases Json.ofText text with
  | error fault => exact ⟨rfl, h⟩
  | ok document =>
    simp only [importDocument]
    cases (document.get? "reports").bind Json.items? with
    | none => exact ⟨rfl, h⟩
    | some records =>
      obtain ⟨hresult, hlibrary⟩ := h.importRecords 1 records
      simp only [hresult]
      cases (l'.importRecords 1 records).result with
      | error e => exact ⟨hresult, hlibrary⟩
      | ok i => exact ⟨rfl, hlibrary⟩

end Twins

end Library

/-- No command can tell the two libraries apart. -/
theorem Command.runAction_twins {l l' : Library DirectoryStore} (h : l.Twins l')
    (around : Surroundings) (output : Option String) (action : LibraryAction) :
    (runAction around output l action).1 = (runAction around output l' action).1 ∧
      (runAction around output l action).2.Twins (runAction around output l' action).2 := by
  have hlist : l.list = l'.list := h.store.list_eq
  cases action with
  | list =>
    simp only [runAction, Library.summaries, hlist]
    exact ⟨trivial, h⟩
  | search query =>
    simp only [runAction, Library.search, Library.matching, hlist]
    exact ⟨trivial, h⟩
  | stats =>
    simp only [runAction, Library.statistics, Library.lastUpdated, Library.breakdown,
      Library.allTags, hlist]
    exact ⟨trivial, h⟩
  | add path =>
    cases hread : definition around path with
    | error message =>
      simp only [runAction, hread]
      exact ⟨trivial, h⟩
    | ok d =>
      obtain ⟨hresult, hlibrary⟩ := h.save d
      simp only [runAction, hread, hresult]
      exact ⟨trivial, hlibrary⟩
  | duplicate id name =>
    obtain ⟨hresult, hlibrary⟩ := h.duplicate id name
    simp only [runAction, hresult]
    exact ⟨trivial, hlibrary⟩
  | delete id =>
    obtain ⟨hresult, hlibrary⟩ := h.delete id
    simp only [runAction, hresult]
    exact ⟨trivial, hlibrary⟩
  | exportSome ids =>
    simp only [runAction, Library.bundle, Library.selected, hlist, h.sources]
    exact ⟨trivial, h.store, congrArg Sources.tick h.sources⟩
  | importFrom path =>
    cases htext : text around path with
    | error message =>
      simp only [runAction, htext]
      exact ⟨trivial, h⟩
    | ok content =>
      obtain ⟨hresult, hlibrary⟩ := h.importText content
      simp only [runAction, htext, hresult]
      exact ⟨trivial, hlibrary⟩

end ReportFlow
