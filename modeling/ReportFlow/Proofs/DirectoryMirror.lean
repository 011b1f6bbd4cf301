import ReportFlow.Proofs.DirectoryCalls
import ReportFlow.Proofs.ObtainedReports

/-!
Copies and files of a store in a directory, whichever operations of the disk fail. There is one file,
with its text, for each definition that was put and not taken back. The copies are among these, and
they are all of them as long as the disk tells every deletion whether there is a file to remove.
-/

namespace ReportFlow

/-- Ids among these whose hashes collide are the same id. -/
def FileName.HashesApart (ids : List String) : Prop :=
  ∀ a ∈ ids, ∀ b ∈ ids, FileName.hash a = FileName.hash b → a = b

instance (ids : List String) : Decidable (FileName.HashesApart ids) :=
  inferInstanceAs (Decidable (∀ a ∈ ids, ∀ b ∈ ids, FileName.hash a = FileName.hash b → a = b))

theorem FileName.HashesApart.ofId_inj {ids : List String} (h : HashesApart ids) {a b : String}
    (ha : a ∈ ids) (hb : b ∈ ids) (heq : ofId a = ofId b) : a = b :=
  ofId_injective (h a ha b hb) heq

namespace DirectoryStore

open ReportStore (Call after answers)

/-! ## What is filed -/

/-- What stands in the files after a call, under the ids, given what stood there before. A deletion
that the disk does not answer takes nothing away. -/
def refiled (s : DirectoryStore) (filed : List (String × Definition)) :
    Call → List (String × Definition)
  | .put d => if (s.put d).result.isOk then Keyed.put d.id d filed else filed
  | .delete id =>
    if (s.delete id).result.isOk = true ∧ s.disk.Responsive then Keyed.erase id filed else filed
  | .get _ | .contains _ => filed

def filedBy : List Call → DirectoryStore → List (String × Definition) → List (String × Definition)
  | [], _, filed => filed
  | c :: calls, s, filed => filedBy calls (c.run s).2 (s.refiled filed c)

/-- The disk tells each deletion whether there is a file to remove. -/
def Answered : List Call → DirectoryStore → Prop
  | [], _ => True
  | c :: calls, s => (∀ id, c = .delete id → s.disk.Responsive) ∧ Answered calls (c.run s).2

theorem answered_of_sound {s : DirectoryStore} (h : s.disk.failures = fun _ => none)
    (calls : List Call) : Answered calls s := by
  induction calls generalizing s with
  | nil => trivial
  | cons c calls ih =>
    exact ⟨fun _ _ => Disk.responsive_of_sound h, ih ((run_place c s).2.trans h)⟩

section Filed

variable {s : DirectoryStore} {c : Call} {calls : List Call}

/-- What is put and deleted in the files is put and deleted in memory. -/
theorem reports_run (hanswered : ∀ id, c = .delete id → s.disk.Responsive) :
    (c.run s).2.reports = s.refiled s.reports c := by
  cases c with
  | put d =>
    show (s.put d).store.reports = if (s.put d).result.isOk then _ else _
    cases hresult : (s.put d).result with
    | error e => exact (put_error hresult).reports
    | ok u => exact (put_ok hresult).1
  | delete id =>
    show (s.delete id).store.reports = if (s.delete id).result.isOk = true ∧ _ then _ else _
    cases hresult : (s.delete id).result with
    | error e =>
      rw [if_neg fun hok => Bool.false_ne_true hok.1]
      exact (delete_error hresult).reports
    | ok b =>
      rw [if_pos ⟨rfl, hanswered id rfl⟩]
      exact (delete_ok hresult).2.1
  | get id => rfl
  | contains id => rfl

theorem filedBy_of_answered (h : Answered calls s) :
    filedBy calls s s.reports = (after calls s).reports := by
  induction calls generalizing s with
  | nil => rfl
  | cons c calls ih =>
    obtain ⟨hc, hcalls⟩ := h
    rw [filedBy, ← reports_run hc]
    exact ih hcalls

end Filed

/-! ## One file for each definition that is filed -/

/-- The files are those of what is filed, and the copies are among that; `ids` are those that calls
have been about. -/
structure Mirrors (ids : List String) (filed : List (String × Definition)) (s : DirectoryStore) :
    Prop where
  sorted : Keyed.Sorted s.reports
  kept : ∀ {id d}, Keyed.get? id s.reports = some d → Keyed.get? id filed = some d
  filedSorted : Keyed.Sorted filed
  named : ∀ {id d}, Keyed.get? id filed = some d → d.id = id
  used : ∀ {id d}, Keyed.get? id filed = some d → id ∈ ids
  filesSorted : Keyed.Sorted s.disk.site.entries
  files : ∀ {name entry}, Keyed.get? name s.disk.site.entries = some entry ↔
    ∃ d, Keyed.get? d.id filed = some d ∧ file d = (name, entry)

abbrev InStep (ids : List String) (s : DirectoryStore) : Prop := s.Mirrors ids s.reports

namespace Mirrors

variable {ids : List String} {filed : List (String × Definition)} {s s' : DirectoryStore} {c : Call}

theorem of_unchanged (h : s.Mirrors ids filed) (hsame : s.Unchanged s') : s'.Mirrors ids filed := by
  have hreports := hsame.reports
  have hentries := hsame.entries
  refine { h with sorted := ?_, kept := ?_, filesSorted := ?_, files := ?_ }
  · rw [hreports]
    exact h.sorted
  · intro id d hd
    rw [hreports] at hd
    exact h.kept hd
  · rw [hentries]
    exact h.filesSorted
  · intro name entry
    rw [hentries]
    exact h.files

theorem initial (path : String) {disk : Disk} (hsite : disk.site = .absent ∨ disk.site = .directory []) :
    (atPath path disk).InStep ids := by
  have hentries : disk.site.entries = [] := by
    obtain hsite | hsite := hsite <;> rw [hsite] <;> rfl
  constructor
  · exact List.Pairwise.nil
  · exact id
  · exact List.Pairwise.nil
  · intro id d hd
    cases hd
  · intro id d hd
    cases hd
  · show Keyed.Sorted disk.site.entries
    rw [hentries]
    exact List.Pairwise.nil
  · intro name entry
    show Keyed.get? name disk.site.entries = some entry ↔ _
    rw [hentries]
    constructor
    · intro h
      cases h
    · rintro ⟨d, hd, -⟩
      cases hd

/-- A file is named for an id just when it is that of the definition of the id. -/
theorem name_eq_iff (h : s.Mirrors ids filed) (hids : FileName.HashesApart ids) {id : String}
    (hid : id ∈ ids) {r : Definition} (hr : Keyed.get? r.id filed = some r) {name : String}
    {entry : Entry} (hfile : file r = (name, entry)) : name = FileName.ofId id ↔ r.id = id := by
  have hname : FileName.ofId r.id = name := congrArg Prod.fst hfile
  rw [← hname]
  constructor
  · intro heq
    exact hids.ofId_inj (h.used hr) hid heq
  · intro heq
    rw [heq]

/-- A new file takes the place of what had its name, and the other files stay. -/
theorem files_put (h : s.Mirrors ids filed) (hids : FileName.HashesApart ids) {d : Definition}
    (hd : d.id ∈ ids) {name : String} {entry : Entry} :
    Keyed.get? name (Keyed.put (file d).1 (file d).2 s.disk.site.entries) = some entry ↔
      ∃ r, Keyed.get? r.id (Keyed.put d.id d filed) = some r ∧ file r = (name, entry) := by
  simp only [Keyed.get?_put_eq_some_iff]
  constructor
  · rintro (⟨hname, hentry⟩ | ⟨hname, hentry⟩)
    · exact ⟨d, .inl ⟨rfl, rfl⟩, Prod.ext hname.symm hentry.symm⟩
    · obtain ⟨r, hr, hfile⟩ := h.files.mp hentry
      have hother : r.id ≠ d.id := by
        intro heq
        apply hname
        exact (h.name_eq_iff hids hd hr hfile).mpr heq
      exact ⟨r, .inr ⟨hother, hr⟩, hfile⟩
  · rintro ⟨r, ⟨-, rfl⟩ | ⟨hid, hr⟩, hfile⟩
    · rw [hfile]
      exact .inl ⟨rfl, rfl⟩
    · have hother : name ≠ (file d).1 := by
        intro hname
        apply hid
        exact (h.name_eq_iff hids hd hr hfile).mp hname
      exact .inr ⟨hother, h.files.mpr ⟨r, hr, hfile⟩⟩

/-- The file of a deleted definition is gone, and the other files stay. -/
theorem files_erase (h : s.Mirrors ids filed) (hids : FileName.HashesApart ids) {id : String}
    (hid : id ∈ ids) {name : String} {entry : Entry} :
    Keyed.get? name (Keyed.erase (FileName.ofId id) s.disk.site.entries) = some entry ↔
      ∃ r, Keyed.get? r.id (Keyed.erase id filed) = some r ∧ file r = (name, entry) := by
  simp only [Keyed.get?_erase_eq_some_iff]
  constructor
  · rintro ⟨hname, hentry⟩
    obtain ⟨r, hr, hfile⟩ := h.files.mp hentry
    have hother : r.id ≠ id := by
      intro heq
      apply hname
      exact (h.name_eq_iff hids hid hr hfile).mpr heq
    exact ⟨r, ⟨hother, hr⟩, hfile⟩
  · rintro ⟨r, ⟨heq, hr⟩, hfile⟩
    have hother : name ≠ FileName.ofId id := by
      intro hname
      apply heq
      exact (h.name_eq_iff hids hid hr hfile).mp hname
    exact ⟨hother, h.files.mpr ⟨r, hr, hfile⟩⟩

theorem put (h : s.Mirrors ids filed) (hids : FileName.HashesApart ids) {d : Definition}
    (hd : d.id ∈ ids) {u : Unit} (hok : (s.put d).result = .ok u) :
    (s.put d).store.Mirrors ids (Keyed.put d.id d filed) := by
  obtain ⟨hreports, hsite⟩ := put_ok hok
  constructor
  · rw [hreports]
    exact Keyed.sorted_put _ _ h.sorted
  · intro id r hr
    rw [hreports, Keyed.get?_put_eq_some_iff] at hr
    rw [Keyed.get?_put_eq_some_iff]
    exact hr.imp_right fun hold => ⟨hold.1, h.kept hold.2⟩
  · exact Keyed.sorted_put _ _ h.filedSorted
  · intro id r hr
    rcases Keyed.get?_put_eq_some_iff.mp hr with ⟨rfl, rfl⟩ | ⟨-, hr⟩
    · rfl
    · exact h.named hr
  · intro id r hr
    rcases Keyed.get?_put_eq_some_iff.mp hr with ⟨rfl, rfl⟩ | ⟨-, hr⟩
    · exact hd
    · exact h.used hr
  · rw [hsite]
    exact Keyed.sorted_put _ _ h.filesSorted
  · intro name entry
    rw [hsite]
    exact h.files_put hids hd

theorem delete (h : s.Mirrors ids filed) (hids : FileName.HashesApart ids) {id : String}
    (hid : id ∈ ids) (hresponsive : s.disk.Responsive) {b : Bool}
    (hok : (s.delete id).result = .ok b) :
    (s.delete id).store.Mirrors ids (Keyed.erase id filed) := by
  obtain ⟨-, hreports, hsite⟩ := delete_ok hok
  rw [if_pos hresponsive] at hsite
  have hentries := (congrArg Site.entries hsite).trans (Site.entries_without ..)
  constructor
  · rw [hreports]
    exact Keyed.sorted_erase _ h.sorted
  · intro k r hr
    rw [hreports, Keyed.get?_erase_eq_some_iff] at hr
    exact Keyed.get?_erase_eq_some_iff.mpr ⟨hr.1, h.kept hr.2⟩
  · exact Keyed.sorted_erase _ h.filedSorted
  · intro k r hr
    exact h.named (Keyed.get?_erase_eq_some_iff.mp hr).2
  · intro k r hr
    exact h.used (Keyed.get?_erase_eq_some_iff.mp hr).2
  · rw [hentries]
    exact Keyed.sorted_erase _ h.filesSorted
  · intro name entry
    rw [hentries]
    exact h.files_erase hids hid

/-- The copy goes and the file stays. -/
theorem delete_unanswered (h : s.Mirrors ids filed) {id : String} (hsilent : ¬ s.disk.Responsive)
    {b : Bool} (hok : (s.delete id).result = .ok b) : (s.delete id).store.Mirrors ids filed := by
  obtain ⟨-, hreports, hsite⟩ := delete_ok hok
  rw [if_neg hsilent] at hsite
  refine { h with sorted := ?_, kept := ?_, filesSorted := ?_, files := ?_ }
  · rw [hreports]
    exact Keyed.sorted_erase _ h.sorted
  · intro k r hr
    rw [hreports, Keyed.get?_erase_eq_some_iff] at hr
    exact h.kept hr.2
  · rw [hsite]
    exact h.filesSorted
  · intro name entry
    rw [hsite]
    exact h.files

/-- A call keeps the files those of what is filed, whether it succeeds or fails. -/
theorem run (h : s.Mirrors ids filed) (hids : FileName.HashesApart ids)
    (hc : ∀ id, c.Settles id → id ∈ ids) : (c.run s).2.Mirrors ids (s.refiled filed c) := by
  cases c with
  | put d =>
    show (s.put d).store.Mirrors ids (if (s.put d).result.isOk then _ else _)
    cases hresult : (s.put d).result with
    | error e => exact h.of_unchanged (put_error hresult)
    | ok u => exact h.put hids (hc d.id rfl) hresult
  | delete id =>
    show (s.delete id).store.Mirrors ids (if (s.delete id).result.isOk = true ∧ _ then _ else _)
    cases hresult : (s.delete id).result with
    | error e =>
      rw [if_neg fun hok => Bool.false_ne_true hok.1]
      exact h.of_unchanged (delete_error hresult)
    | ok b =>
      by_cases hresponsive : s.disk.Responsive
      · rw [if_pos ⟨rfl, hresponsive⟩]
        exact h.delete hids (hc id rfl) hresponsive hresult
      · rw [if_neg fun hok => hresponsive hok.2]
        exact h.delete_unanswered hresponsive hresult
  | get id => exact h
  | contains id => exact h

theorem after (h : s.Mirrors ids filed) (hids : FileName.HashesApart ids) {calls : List Call}
    (hcalls : ∀ c ∈ calls, ∀ id, c.Settles id → id ∈ ids) :
    (after calls s).Mirrors ids (filedBy calls s filed) := by
  induction calls generalizing s filed with
  | nil => exact h
  | cons c calls ih =>
    obtain ⟨hc, hrest⟩ := List.forall_mem_cons.mp hcalls
    exact ih (h.run hids hc) hrest

theorem after_of_answered (h : s.InStep ids) (hids : FileName.HashesApart ids) {calls : List Call}
    (hcalls : ∀ c ∈ calls, ∀ id, c.Settles id → id ∈ ids) (hanswered : Answered calls s) :
    (ReportStore.after calls s).InStep ids := by
  have hafter := h.after hids hcalls
  rw [filedBy_of_answered hanswered] at hafter
  exact hafter

/-! ## What is seen of a store -/

theorem indexed (h : s.Mirrors ids filed) : s.Indexed where
  sorted := h.sorted
  named _ he := h.named (h.kept (Keyed.get?_of_mem h.sorted.distinct he))

theorem id_of_mem (h : s.Mirrors ids filed) {e : String × Definition} (he : e ∈ s.reports) :
    e.2.id = e.1 :=
  h.indexed.named e he

theorem mem_list_iff (h : s.Mirrors ids filed) {d : Definition} :
    d ∈ ReportStore.list s ↔ Keyed.get? d.id s.reports = some d :=
  h.indexed.mem_list_iff

theorem nodup_ids (h : s.Mirrors ids filed) : ((ReportStore.list s).map (·.id)).Nodup :=
  h.indexed.nodup_ids

theorem get?_eq (h : s.Mirrors ids filed) (id : String) :
    ReportStore.get? s id = Keyed.get? id s.reports :=
  h.indexed.get?_eq id

theorem get?_of_mem (h : s.Mirrors ids filed) {d : Definition} (hd : d ∈ ReportStore.list s) :
    ReportStore.get? s d.id = some d := by
  rw [h.get?_eq]
  exact h.mem_list_iff.mp hd

end Mirrors

end DirectoryStore

namespace Sample

end Sample

end ReportFlow
