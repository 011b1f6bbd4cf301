import ReportFlow.Proofs.ImportedRecords
import ReportFlow.Proofs.NewReports
import ReportFlow.Proofs.StoreReload
import ReportFlow.Proofs.TwinStores

/-!
Commands on a library, each of which loads the library anew. Imports and copies have ids and nest no
deeper than a text may, so a load always finds what the command before it has left, and a run of
commands does what one library does that stays in memory.
-/

namespace ReportFlow

namespace DirectoryStore

open ReportStore (Call after after_append after_invariant)

structure Sturdy (d : Definition) : Prop where
  formed : d.WellFormed
  survives : Survives d

def Gains (s s' : DirectoryStore) : Prop :=
  ∃ ds : List Definition, (∀ d ∈ ds, Sturdy d) ∧ s' = after (ds.map .put) s

variable {s s' s'' : DirectoryStore}

namespace Gains

theorem nothing (s : DirectoryStore) : s.Gains s := ⟨[], List.forall_mem_nil _, rfl⟩

theorem put {d : Definition} (h : Sturdy d) (s : DirectoryStore) : s.Gains (s.put d).store :=
  ⟨[d], List.forall_mem_singleton.mpr h, rfl⟩

theorem trans (h : s.Gains s') (h' : s'.Gains s'') : s.Gains s'' := by
  obtain ⟨ds, hds, rfl⟩ := h
  obtain ⟨es, hes, rfl⟩ := h'
  refine ⟨ds ++ es, List.forall_mem_append.mpr ⟨hds, hes⟩, ?_⟩
  rw [List.map_append, after_append]

end Gains

def Stands (s : DirectoryStore) (id : String) : Prop :=
  ∃ d, Keyed.get? id s.reports = some d ∧ d.id = id

theorem stands_put {id : String} (h : s.Stands id) (d : Definition) : (s.put d).store.Stands id := by
  obtain ⟨e, he, hid⟩ := h
  cases hresult : (s.put d).result with
  | error fault =>
    rw [Stands, (put_error hresult).reports]
    exact ⟨e, he, hid⟩
  | ok u =>
    rw [Stands, (put_ok hresult).1, Keyed.get?_put]
    by_cases hsame : id = d.id
    · exact ⟨d, if_pos hsame, hsame.symm⟩
    · exact ⟨e, (if_neg hsame).trans he, hid⟩

theorem stands_after {id : String} (h : s.Stands id) (ds : List Definition) :
    (after (ds.map .put) s).Stands id := by
  apply after_invariant (p := fun t : DirectoryStore => t.Stands id) ?_ h
  intro c hc t ht
  obtain ⟨d, -, rfl⟩ := List.mem_map.mp hc
  exact stands_put ht d

/-- Puts keep copies and files in step, as long as what stands in the end has hashes apart. -/
theorem inStep_after_put {ids : List String} (h : s.InStep ids) (hids : FileName.HashesApart ids)
    {ds : List Definition} (hstored : ∀ id, (after (ds.map .put) s).Stands id → id ∈ ids) :
    (after (ds.map .put) s).InStep ids := by
  induction ds generalizing s with
  | nil => exact h
  | cons d ds ih =>
    refine ih ?_ hstored
    show (s.put d).store.InStep ids
    cases hresult : (s.put d).result with
    | error fault =>
      rw [InStep, (put_error hresult).reports]
      exact h.of_unchanged (put_error hresult)
    | ok u =>
      have hstands : (s.put d).store.Stands d.id := by
        rw [Stands, (put_ok hresult).1, Keyed.get?_put]
        exact ⟨d, if_pos rfl, rfl⟩
      rw [InStep, (put_ok hresult).1]
      exact h.put hids (hstored d.id (stands_after hstands ds)) hresult

end DirectoryStore

open DirectoryStore (Sturdy Gains)

/-! ## What commands put -/

theorem marked_ne_empty (a b : String) : a ++ "-" ++ b ≠ "" := by
  intro h
  have hchars := congrArg String.toList h
  simp at hchars

namespace Library

variable {l : Library DirectoryStore}

theorem sturdy_copyOf {d : Definition} (h : Sturdy d) (name : Option String) (s : Sources) :
    Sturdy (copyOf d name s) where
  formed := ⟨h.formed.parameters, h.formed.graph, h.formed.artifacts⟩
  survives := ⟨marked_ne_empty d.id (s.nextId "copy"), (depth_copyOf d name s).trans_le h.survives.2⟩

theorem sturdy_renamed {d : Definition} (h : Sturdy d) (s : Sources) : Sturdy (Record.renamed d s) where
  formed := ⟨h.formed.parameters, h.formed.graph, h.formed.artifacts⟩
  survives := ⟨marked_ne_empty d.id (s.nextId "imported"),
    (Record.depth_renamed d s).trans_le h.survives.2⟩

theorem duplicate_gains (h : ∀ d ∈ l.list, Sturdy d) (id : String) (name : Option String) :
    l.store.Gains (l.duplicate id name).library.store := by
  unfold duplicate
  cases hget : l.get? id with
  | none => exact .nothing l.store
  | some report =>
    have hreport := h report (List.mem_of_find?_eq_some hget)
    exact .put (sturdy_copyOf hreport name l.sources) l.store

structure Sound (record : Json) : Prop where
  normal : record.normal = record
  depth : record.depth + 2 ≤ Json.Reader.maxDepth

theorem importRecord_gains {record : Json} (h : Sound record) :
    l.store.Gains (l.importRecord record).library.store := by
  unfold importRecord
  cases Record.isComplete record with
  | false => exact .nothing l.store
  | true =>
    simp only [Bool.not_true, Bool.false_eq_true, if_false]
    cases hread : Record.definition record l.sources.now with
    | error e => exact .nothing l.store
    | ok d =>
      obtain ⟨hid, hformed, hdepth⟩ := Record.of_definition h.normal hread
      have hd : Sturdy d := by
        refine ⟨hformed, hid, ?_⟩
        have := h.depth
        have : Json.Reader.maxDepth = 127 := rfl
        omega
      simp only
      split
      · exact .put (sturdy_renamed hd l.sources.tick) l.store
      · exact .put hd l.store

theorem importRecords_gains (number : Nat) {records : List Json} (h : ∀ r ∈ records, Sound r) :
    l.store.Gains (l.importRecords number records).library.store := by
  induction records generalizing l number with
  | nil => exact .nothing l.store
  | cons record rest ih =>
    obtain ⟨hrecord, hrest⟩ := List.forall_mem_cons.mp h
    have hgains := (importRecord_gains (l := l) hrecord).trans (ih (number + 1) hrest)
    unfold importRecords
    simp only
    split
    · exact hgains
    · exact hgains

theorem importText_gains (text : String) : l.store.Gains (l.importText text).library.store := by
  unfold importText
  cases hread : Json.ofText text with
  | error fault => exact .nothing l.store
  | ok document =>
    obtain ⟨hnormal, hdepth⟩ := Json.of_ofText hread
    simp only [importDocument]
    cases hreports : document.get? "reports" with
    | none => exact .nothing l.store
    | some reports =>
      cases reports with
      | array records =>
        obtain ⟨hreport, hless⟩ := Json.of_get? hnormal hreports
        have hrecords : ∀ r ∈ records, Sound r := by
          intro r hr
          obtain ⟨hitem, hinner⟩ := Json.of_mem_items hreport hr
          exact ⟨hitem, by omega⟩
        have hgains := importRecords_gains (l := l) 1 hrecords
        simp only [Option.bind_some, Json.items?]
        split
        · exact hgains
        · exact hgains
      | _ => exact .nothing l.store

end Library

namespace Command

/-- A command but `add` deletes, or puts sturdy definitions. -/
theorem runAction_cases {l : Library DirectoryStore} (h : ∀ d ∈ l.list, Sturdy d)
    (around : Surroundings) (output : Option String) {action : LibraryAction}
    (hadd : ∀ path, action ≠ .add path) :
    (∃ id, action = .delete id ∧
        (runAction around output l action).2.store = (l.store.delete id).store) ∨
      l.store.Gains (runAction around output l action).2.store := by
  cases action with
  | add path => exact absurd rfl (hadd path)
  | delete id => exact .inl ⟨id, rfl, rfl⟩
  | duplicate id name => exact .inr (l.duplicate_gains h id name)
  | importFrom path =>
    right
    cases htext : text around path with
    | error message =>
      simp only [runAction, htext]
      exact .nothing l.store
    | ok content =>
      simp only [runAction, htext]
      exact l.importText_gains content
  | _ => exact .inr (.nothing l.store)

/-- What stands at the directory of the library is not asked for again. -/
theorem runAction_site (around : Surroundings) (site : String → Site) (output : Option String)
    (l : Library DirectoryStore) (action : LibraryAction) :
    runAction { around with site := site } output l action = runAction around output l action := by
  cases action <;> rfl

end Command

/-! ## Runs of commands -/

structure LibraryTurn where
  around : Surroundings
  sources : Sources
  output : Option String
  action : LibraryAction

namespace LibraryTurn

def process (dir : String) (site : Site) (t : LibraryTurn) : Effects :=
  Invocation.run { t.around with site := fun _ => site } t.sources ⟨t.output, .library dir t.action⟩

def within (s : DirectoryStore) (t : LibraryTurn) : Effects × DirectoryStore :=
  let (e, l) := Command.runAction t.around t.output ⟨s, t.sources⟩ t.action
  (e, l.store)

end LibraryTurn

/-- Processes in a row, each on what the one before has left of the directory. Their output files
stand elsewhere. -/
def processes (dir : String) : Site → List LibraryTurn → List Effects
  | _, [] => []
  | site, t :: turns =>
    let e := t.process dir site
    e :: processes dir ((e.site.map (·.2)).getD site) turns

def session : DirectoryStore → List LibraryTurn → List (Effects × DirectoryStore)
  | _, [] => []
  | s, t :: turns =>
    let r := t.within s
    r :: session r.2 turns

structure DirectoryStore.Kept (dir : String) (ids : List String) (s : DirectoryStore) : Prop where
  path : s.path = dir
  sound : s.disk.failures = fun _ => none
  directory : s.disk.site ≠ .file
  inStep : s.InStep ids
  sturdy : ∀ d ∈ ReportStore.list s, Sturdy d

namespace DirectoryStore.Kept

open ReportStore (Call after)

variable {dir : String} {ids : List String} {s : DirectoryStore}

/-- A fresh store on the directory is the store itself, but for the number of operations. -/
theorem reload (h : s.Kept dir ids) (hexact : ∀ d ∈ ReportStore.list s, d.Exact) :
    (∃ n, (reopened dir (.sound s.disk.site)).result = .ok n) ∧
      (reopened dir (.sound s.disk.site)).store.Twins s := by
  have hgood : s.Faithful := fun d hd => ⟨(h.sturdy d hd).formed, hexact d hd⟩
  obtain ⟨hresult, hreports, hpath, hsite, hsound⟩ := h.inStep.reload hgood h.directory dir
  refine ⟨⟨_, hresult⟩, .of_eq (hpath.trans h.path.symm) (hreports.trans ?_) hsite hsound h.sound⟩
  refine List.filter_eq_self.mpr fun e he => ?_
  exact decide_eq_true (h.sturdy e.2 (List.mem_map_of_mem he)).survives

/-- A process does what the command does on the store in memory. -/
theorem process_eq (h : s.Kept dir ids) (hexact : ∀ d ∈ ReportStore.list s, d.Exact)
    (t : LibraryTurn) : t.process dir s.disk.site =
      { (t.within s).1 with site := some (dir, (t.within s).2.disk.site) } := by
  obtain ⟨⟨n, hresult⟩, htwins⟩ := h.reload hexact
  have hlibrary : Library.Twins ⟨(reopened dir (.sound s.disk.site)).store, t.sources⟩ ⟨s, t.sources⟩ :=
    ⟨htwins, rfl⟩
  obtain ⟨heffects, hafter⟩ := Command.runAction_twins hlibrary t.around t.output t.action
  have hload : ((atPath dir (.sound s.disk.site)).load).result = .ok n := hresult
  show Command.runLibrary { t.around with site := fun _ => s.disk.site } t.sources t.output dir
    t.action = _
  simp only [Command.runLibrary, hload, Command.runAction_site]
  show Effects.mk _ _ _ _ (some (dir, (Command.runAction t.around t.output
    ⟨(reopened dir (.sound s.disk.site)).store, t.sources⟩ t.action).2.store.disk.site)) = _
  rw [hafter.store.site_eq]
  exact congrArg (fun e : Effects => { e with site := some (dir, (t.within s).2.disk.site) }) heffects

theorem of_after (h : s.Kept dir ids) {calls : List Call} (hinStep : (after calls s).InStep ids)
    (hputs : ∀ d, .put d ∈ calls → Sturdy d) : (after calls s).Kept dir ids where
  path := (after_place calls s).1.trans h.path
  sound := (after_place calls s).2.trans h.sound
  directory := after_site_ne_file calls h.directory
  inStep := hinStep
  sturdy d hd := (mem_list_after hd).elim (h.sturdy d) (hputs d)

/-- A command leaves the store as commands do. -/
theorem within (h : s.Kept dir ids) (hids : FileName.HashesApart ids) {t : LibraryTurn}
    (hadd : ∀ path, t.action ≠ .add path) (hdeleted : ∀ id, t.action = .delete id → id ∈ ids)
    (hstored : ∀ d ∈ ReportStore.list (t.within s).2, d.id ∈ ids) : (t.within s).2.Kept dir ids := by
  have hcases := Command.runAction_cases (l := ⟨s, t.sources⟩) h.sturdy t.around t.output hadd
  obtain ⟨id, haction, hafter⟩ | ⟨ds, hds, hafter⟩ := hcases
  · have hstore : (t.within s).2 = after [.delete id] s := hafter
    rw [hstore]
    have hid : ∀ c ∈ [Call.delete id], ∀ k, c.Settles k → k ∈ ids := by
      intro c hc k hk
      obtain rfl := List.mem_singleton.mp hc
      exact hk ▸ hdeleted id haction
    refine h.of_after ?_ fun d hd => nomatch List.mem_singleton.mp hd
    exact h.inStep.after_of_answered hids hid (answered_of_sound h.sound _)
  · have hstore : (t.within s).2 = after (ds.map .put) s := hafter
    rw [hstore] at hstored ⊢
    refine h.of_after (inStep_after_put h.inStep hids ?_) fun d hd => ?_
    · rintro id ⟨d, hd, rfl⟩
      exact hstored d (List.mem_map_of_mem (Keyed.mem_of_get? hd))
    · obtain ⟨e, he, heq⟩ := List.mem_map.mp hd
      cases heq
      exact hds d he

theorem initial {site : Site} (hsite : site = .absent ∨ site = .directory []) :
    (atPath dir (.sound site)).Kept dir ids where
  path := rfl
  sound := rfl
  directory := by obtain rfl | rfl := hsite <;> nofun
  inStep := .initial dir hsite
  sturdy := List.forall_mem_nil _

end DirectoryStore.Kept

/-- A process that reports what the command does on a store in memory, and leaves its reports. -/
structure LibraryTurn.SameAs (dir : String) (e : Effects) (r : Effects × DirectoryStore) : Prop where
  effects : e = { r.1 with site := some (dir, r.2.disk.site) }
  loads : ∃ n, (DirectoryStore.reopened dir (.sound r.2.disk.site)).result = .ok n
  reports : ReportStore.list (DirectoryStore.reopened dir (.sound r.2.disk.site)).store =
    ReportStore.list r.2

theorem DirectoryStore.Kept.processes {dir : String} {ids : List String} {s : DirectoryStore}
    (h : s.Kept dir ids) (hexact : ∀ d ∈ ReportStore.list s, d.Exact)
    (hids : FileName.HashesApart ids) {turns : List LibraryTurn}
    (hadd : ∀ t ∈ turns, ∀ path, t.action ≠ .add path)
    (hdeleted : ∀ t ∈ turns, ∀ id, t.action = .delete id → id ∈ ids)
    (hstored : ∀ r ∈ session s turns, ∀ d ∈ ReportStore.list r.2, d.id ∈ ids ∧ d.Exact) :
    List.Forall₂ (LibraryTurn.SameAs dir) (processes dir s.disk.site turns) (session s turns) := by
  induction turns generalizing s with
  | nil => exact .nil
  | cons t turns ih =>
    obtain ⟨hadd, hadds⟩ := List.forall_mem_cons.mp hadd
    obtain ⟨hdeleted, hdeletes⟩ := List.forall_mem_cons.mp hdeleted
    obtain ⟨hstored, hlater⟩ := List.forall_mem_cons.mp hstored
    have hafter := h.within hids hadd hdeleted fun d hd => (hstored d hd).1
    have hexacts := fun d hd => (hstored d hd).2
    have heffects := h.process_eq hexact t
    obtain ⟨hloads, htwins⟩ := hafter.reload hexacts
    refine .cons ⟨heffects, hloads, htwins.list_eq⟩ ?_
    show List.Forall₂ _ (ReportFlow.processes dir
      (((t.process dir s.disk.site).site.map (·.2)).getD s.disk.site) turns) _
    rw [heffects]
    exact ih hafter hexacts hadds hdeletes hlater

/-- Commands other than `add` on an empty directory, each a process of its own, report what one
library that stays in memory reports, and leave the same reports after each. -/
theorem processes_same_as_session {dir : String} {site : Site}
    (hsite : site = .absent ∨ site = .directory []) {turns : List LibraryTurn} {ids : List String}
    (hids : FileName.HashesApart ids) (hadd : ∀ t ∈ turns, ∀ path, t.action ≠ .add path)
    (hdeleted : ∀ t ∈ turns, ∀ id, t.action = .delete id → id ∈ ids)
    (hstored : ∀ r ∈ session (.atPath dir (.sound site)) turns, ∀ d ∈ ReportStore.list r.2,
      d.id ∈ ids ∧ d.Exact) :
    List.Forall₂ (LibraryTurn.SameAs dir) (processes dir site turns)
      (session (.atPath dir (.sound site)) turns) :=
  (DirectoryStore.Kept.initial hsite).processes (List.forall_mem_nil _) hids hadd hdeleted hstored

namespace Sample

def errand (action : LibraryAction) : LibraryTurn where
  around := ⟨fun _ => .ok parcel.toUTF8, fun _ => .absent, fun _ => none⟩
  sources := .start (.fixed ⟨0, 0, 0⟩) .sequential
  output := none
  action := action

def errands : List LibraryTurn :=
  [errand (.importFrom "parcel.json"), errand (.duplicate "a" none), errand (.delete "a")]

end Sample

open Sample in
theorem processes_same_as_session_errands :
    List.Forall₂ (LibraryTurn.SameAs "reports") (processes "reports" .absent errands)
        (session (.atPath "reports" (.sound .absent)) errands) ∧
      (session (.atPath "reports" (.sound .absent)) errands).map
        (fun r => (ReportStore.list r.2).map (·.id)) = [["a"], ["a", "a-copy-1"], ["a-copy-1"]] := by
  have hids : FileName.HashesApart ["a", "a-copy-1"] := by decide +kernel
  have hadd : ∀ t ∈ errands, ∀ path, t.action ≠ .add path := by simp [errands, errand]
  have hdeleted : ∀ t ∈ errands, ∀ id, t.action = .delete id → id ∈ ["a", "a-copy-1"] := by
    simp [errands, errand]
  have hstored : ∀ r ∈ session (.atPath "reports" (.sound .absent)) errands,
      ∀ d ∈ ReportStore.list r.2, d.id ∈ ["a", "a-copy-1"] ∧ d.Exact := by decide +kernel
  exact ⟨processes_same_as_session (.inl rfl) hids hadd hdeleted hstored, by decide +kernel⟩

end ReportFlow
