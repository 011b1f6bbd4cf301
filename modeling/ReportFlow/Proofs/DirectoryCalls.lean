import ReportFlow.Proofs.FileNames
import ReportFlow.Proofs.KeyedEntries
import ReportFlow.Proofs.StoreCalls
import ReportFlow.Store.Directory

/-!
What a call on a store in a directory can do. One that fails leaves the copies and the files as they
were; one that succeeds changes both under the id it is about, and nothing else. A deletion for which
the disk does not tell whether there is a file succeeds too, and leaves the file.
-/

namespace ReportFlow

namespace Disk

variable {α : Type} {disk after : Disk} {op : Site.Operation α}

theorem run_eq_ok {a : α} (h : disk.run op = (.ok a, after)) :
    op disk.site = .ok (a, after.site) ∧ after.failures = disk.failures := by
  unfold run at h
  split at h
  · cases h
  · split at h
    · cases h
    · rename_i b site hop
      cases h
      exact ⟨hop, rfl⟩

theorem run_eq_error {cause : OsError} (h : disk.run op = (.error cause, after)) :
    after.site = disk.site ∧ after.failures = disk.failures := by
  unfold run at h
  split at h
  · cases h
    exact ⟨rfl, rfl⟩
  · split at h
    · cases h
      exact ⟨rfl, rfl⟩
    · cases h

/-- The next operation does not fail by itself. -/
def Responsive (disk : Disk) : Prop := disk.failures disk.turn = none

instance (disk : Disk) : Decidable disk.Responsive :=
  inferInstanceAs (Decidable (disk.failures disk.turn = none))

theorem responsive_of_sound (h : disk.failures = fun _ => none) : disk.Responsive := by
  rw [Responsive, h]

theorem responsive_sound (site : Site) : (sound site).Responsive := rfl

/-- A question changes nothing. A no need not mean that the operation could not succeed. -/
theorem asks_eq {op : Site.Operation Unit} {b : Bool} (h : disk.asks op = (b, after))
    (hlooks : ∀ site u left, op site = .ok (u, left) → left = site) :
    after = { disk with turn := disk.turn + 1 } ∧
      (b = true ↔ disk.Responsive ∧ (op disk.site).isOk = true) := by
  unfold asks run Responsive at *
  cases hfailure : disk.failures disk.turn with
  | some cause =>
    rw [hfailure] at h
    cases h
    exact ⟨rfl, by simp [Except.isOk, Except.toBool]⟩
  | none =>
    cases hop : op disk.site with
    | error cause =>
      simp only [hfailure, hop] at h
      cases h
      exact ⟨rfl, by simp [Except.isOk, Except.toBool]⟩
    | ok r =>
      obtain ⟨u, left⟩ := r
      simp only [hfailure, hop] at h
      cases h
      rw [hlooks _ _ _ hop]
      exact ⟨rfl, by simp [Except.isOk, Except.toBool]⟩

end Disk

namespace Site

def without (name : String) : Site → Site
  | directory entries => directory (Keyed.erase name entries)
  | other => other

theorem entries_without (name : String) (site : Site) :
    (site.without name).entries = Keyed.erase name site.entries := by
  cases site <;> rfl

theorem without_ne_file {site : Site} (h : site ≠ .file) (name : String) :
    site.without name ≠ .file := by
  cases site with
  | file => exact absurd rfl h
  | _ => nofun

theorem without_of_entry?_none {name : String} {site : Site} (h : site.entry? name = none) :
    site.without name = site := by
  cases site with
  | directory entries =>
    have hkept : Keyed.erase name entries = entries :=
      List.filter_eq_self.mpr fun e he => decide_eq_true (Keyed.get?_eq_none_iff.mp h e he)
    rw [without, hkept]
  | _ => rfl

variable {site after : Site} {name text : String}

theorem create_eq_ok {u : Unit} (h : create site = .ok (u, after)) : after = .directory site.entries := by
  cases site <;> cases h <;> rfl

theorem look_eq_ok {u : Unit} (h : look site = .ok (u, after)) : after = site := by
  cases site <;> cases h <;> rfl

theorem isOk_look (site : Site) : (look site).isOk = site.isPresent := by
  cases site <;> rfl

theorem lookFor_eq_ok {u : Unit} (h : lookFor name site = .ok (u, after)) : after = site := by
  unfold lookFor at h
  split at h
  · cases h
  · cases h
    rfl

theorem isOk_lookFor (name : String) (site : Site) :
    (lookFor name site).isOk = (site.entry? name).isSome := by
  unfold lookFor
  cases site.entry? name <;> rfl

theorem write_eq_ok {u : Unit} (h : write name text site = .ok (u, after)) :
    after = .directory (Keyed.put name (.file text.toUTF8) site.entries) := by
  cases site with
  | directory entries =>
    unfold write at h
    simp only at h
    split at h
    · cases h
    · split at h
      · cases h
      · cases h
        rfl
  | _ => cases h

theorem remove_eq_ok {u : Unit} (h : remove name site = .ok (u, after)) :
    after = site.without name := by
  cases site with
  | directory entries =>
    unfold remove at h
    simp only at h
    split at h
    · cases h
    · cases h
    · cases h
      rfl
  | _ => cases h

end Site

namespace DirectoryStore

def file (d : Definition) : String × Entry := (FileName.ofId d.id, .file (text d).toUTF8)

/-- The copies and the files are the same before and after; a directory may have been made. -/
structure Unchanged (before after : DirectoryStore) : Prop where
  reports : after.reports = before.reports
  site : after.disk.site = before.disk.site ∨
    after.disk.site = .directory before.disk.site.entries

namespace Unchanged

variable {s s' : DirectoryStore}

theorem list_eq (h : s.Unchanged s') : ReportStore.list s' = ReportStore.list s :=
  congrArg (List.map Prod.snd) h.reports

theorem entries (h : s.Unchanged s') : s'.disk.site.entries = s.disk.site.entries := by
  obtain hsame | hmade := h.site
  · rw [hsame]
  · rw [hmade]
    rfl

theorem site_ne_file (h : s.Unchanged s') (hsite : s.disk.site ≠ .file) : s'.disk.site ≠ .file := by
  obtain hsame | hmade := h.site
  · rw [hsame]
    exact hsite
  · rw [hmade]
    nofun

end Unchanged

section Outcomes

variable {s : DirectoryStore} {d : Definition} {id : String}

theorem put_error {e : StoreError} (h : (s.put d).result = .error e) : s.Unchanged (s.put d).store := by
  unfold put at h ⊢
  rcases hcreate : s.disk.run Site.create with ⟨cause | u, made⟩
  · obtain ⟨hsite, -⟩ := Disk.run_eq_error hcreate
    exact ⟨rfl, .inl hsite⟩
  · simp only [hcreate] at h ⊢
    obtain ⟨hmade, -⟩ := Disk.run_eq_ok hcreate
    rcases hwrite : made.run (Site.write (FileName.ofId d.id) (text d)) with ⟨cause | v, written⟩
    · obtain ⟨hsite, -⟩ := Disk.run_eq_error hwrite
      exact ⟨rfl, .inr (hsite.trans (Site.create_eq_ok hmade))⟩
    · rw [hwrite] at h
      cases h

theorem put_ok {u : Unit} (h : (s.put d).result = .ok u) :
    (s.put d).store.reports = Keyed.put d.id d s.reports ∧
      (s.put d).store.disk.site = .directory (Keyed.put (file d).1 (file d).2 s.disk.site.entries) := by
  unfold put at h ⊢
  rcases hcreate : s.disk.run Site.create with ⟨cause | u, made⟩
  · rw [hcreate] at h
    cases h
  · simp only [hcreate] at h ⊢
    obtain ⟨hmade, -⟩ := Disk.run_eq_ok hcreate
    rcases hwrite : made.run (Site.write (FileName.ofId d.id) (text d)) with ⟨cause | v, written⟩
    · rw [hwrite] at h
      cases h
    · obtain ⟨hwritten, -⟩ := Disk.run_eq_ok hwrite
      refine ⟨rfl, ?_⟩
      show written.site = _
      rw [Site.write_eq_ok hwritten, Site.create_eq_ok hmade]
      rfl

/-- A deletion removes nothing, fails to remove the file, or removes it. -/
theorem delete_cases (s : DirectoryStore) (id : String) :
    let name := FileName.ofId id
    let asked := { s.disk with turn := s.disk.turn + 1 }
    let answer := (Keyed.get? id s.reports).isSome
    (¬ (s.disk.Responsive ∧ (s.disk.site.entry? name).isSome = true) ∧
        (s.delete id).result = .ok answer ∧
        (s.delete id).store = ⟨s.path, Keyed.erase id s.reports, asked⟩) ∨
      (∃ cause failed, asked.run (Site.remove name) = (.error cause, failed) ∧
        (s.disk.site.entry? name).isSome = true ∧
        (s.delete id).result = .error (.io (s.pathOf name) cause) ∧
        (s.delete id).store = ⟨s.path, s.reports, failed⟩) ∨
      ∃ u removed, asked.run (Site.remove name) = (.ok u, removed) ∧ s.disk.Responsive ∧
        (s.delete id).result = .ok answer ∧
        (s.delete id).store = ⟨s.path, Keyed.erase id s.reports, removed⟩ := by
  intro name asked answer
  unfold delete
  rcases hask : s.disk.asks (Site.lookFor (FileName.ofId id)) with ⟨b, after⟩
  obtain ⟨rfl, hanswer⟩ := Disk.asks_eq hask fun _ _ _ => Site.lookFor_eq_ok
  rw [Site.isOk_lookFor] at hanswer
  cases b with
  | false =>
    simp only [hask]
    exact .inl ⟨fun h => Bool.false_ne_true (hanswer.mpr h), rfl, rfl⟩
  | true =>
    obtain ⟨hresponsive, hpresent⟩ := hanswer.mp rfl
    simp only [hask]
    rcases Disk.run _ (Site.remove (FileName.ofId id)) with ⟨cause | u, removed⟩
    · exact .inr (.inl ⟨cause, removed, rfl, hpresent, rfl, rfl⟩)
    · exact .inr (.inr ⟨u, removed, rfl, hresponsive, rfl, rfl⟩)

theorem delete_error {e : StoreError} (h : (s.delete id).result = .error e) :
    s.Unchanged (s.delete id).store := by
  obtain ⟨-, hok, -⟩ | ⟨cause, failed, hrun, -, -, hstore⟩ | ⟨u, removed, -, -, hok, -⟩ :=
    delete_cases s id
  · rw [hok] at h
    cases h
  · obtain ⟨hsite, -⟩ := Disk.run_eq_error hrun
    rw [hstore]
    exact ⟨rfl, .inl hsite⟩
  · rw [hok] at h
    cases h

/-- Nothing can go wrong where there is no file to remove. -/
theorem delete_of_absent (h : s.disk.site.entry? (FileName.ofId id) = none) :
    (s.delete id).result = .ok (Keyed.get? id s.reports).isSome := by
  obtain ⟨-, hok, -⟩ | ⟨cause, failed, -, hpresent, -⟩ | ⟨u, removed, -, -, hok, -⟩ :=
    delete_cases s id
  · exact hok
  · rw [h] at hpresent
    cases hpresent
  · exact hok

/-- The answer is about the copies. The file of the id goes whether or not there was a copy, and it
stays when the disk does not tell whether it is there. -/
theorem delete_ok {b : Bool} (h : (s.delete id).result = .ok b) :
    b = (Keyed.get? id s.reports).isSome ∧
      (s.delete id).store.reports = Keyed.erase id s.reports ∧
      (s.delete id).store.disk.site =
        if s.disk.Responsive then s.disk.site.without (FileName.ofId id) else s.disk.site := by
  obtain ⟨hpassed, hok, hstore⟩ | ⟨cause, failed, -, -, herror, -⟩ |
    ⟨u, removed, hrun, hresponsive, hok, hstore⟩ := delete_cases s id
  · rw [hok] at h
    cases h
    rw [hstore]
    refine ⟨rfl, rfl, ?_⟩
    by_cases hresponsive : s.disk.Responsive
    · have habsent : s.disk.site.entry? (FileName.ofId id) = none :=
        Option.not_isSome_iff_eq_none.mp fun hpresent => hpassed ⟨hresponsive, hpresent⟩
      rw [if_pos hresponsive, Site.without_of_entry?_none habsent]
    · rw [if_neg hresponsive]
  · rw [herror] at h
    cases h
  · rw [hok] at h
    cases h
    obtain ⟨hremoved, -⟩ := Disk.run_eq_ok hrun
    rw [hstore, if_pos hresponsive]
    exact ⟨rfl, rfl, Site.remove_eq_ok hremoved⟩

/-- A call stays where it is, and does not mend the disk. -/
theorem put_place : (s.put d).store.path = s.path ∧ (s.put d).store.disk.failures = s.disk.failures := by
  unfold put
  rcases hcreate : s.disk.run Site.create with ⟨cause | u, made⟩
  · exact ⟨rfl, (Disk.run_eq_error hcreate).2⟩
  · obtain ⟨-, hmade⟩ := Disk.run_eq_ok hcreate
    simp only
    rcases hwrite : made.run (Site.write (FileName.ofId d.id) (text d)) with ⟨cause | v, written⟩
    · exact ⟨rfl, (Disk.run_eq_error hwrite).2.trans hmade⟩
    · exact ⟨rfl, (Disk.run_eq_ok hwrite).2.trans hmade⟩

theorem delete_place :
    (s.delete id).store.path = s.path ∧ (s.delete id).store.disk.failures = s.disk.failures := by
  obtain ⟨-, -, hstore⟩ | ⟨cause, failed, hrun, -, -, hstore⟩ | ⟨u, removed, hrun, -, -, hstore⟩ :=
    delete_cases s id
  · rw [hstore]
    exact ⟨rfl, rfl⟩
  · rw [hstore]
    exact ⟨rfl, (Disk.run_eq_error hrun).2⟩
  · rw [hstore]
    exact ⟨rfl, (Disk.run_eq_ok hrun).2⟩

/-- Only a file stands in the way of a directory, and no call puts one there. -/
theorem put_site_ne_file (h : s.disk.site ≠ .file) : (s.put d).store.disk.site ≠ .file := by
  cases hresult : (s.put d).result with
  | ok u =>
    rw [(put_ok hresult).2]
    nofun
  | error e => exact (put_error hresult).site_ne_file h

theorem delete_site_ne_file (h : s.disk.site ≠ .file) : (s.delete id).store.disk.site ≠ .file := by
  cases hresult : (s.delete id).result with
  | ok b =>
    rw [(delete_ok hresult).2.2]
    split
    · exact Site.without_ne_file h _
    · exact h
  | error e => exact (delete_error hresult).site_ne_file h

end Outcomes

/-! ## Copies under their ids -/

theorem find?_id_eq {entries : List (String × Definition)} {id : String}
    (h : ∀ e ∈ entries, e.2.id = e.1) :
    (entries.map (·.2)).find? (·.id == id) = Keyed.get? id entries := by
  induction entries with
  | nil => rfl
  | cons e rest ih =>
    obtain ⟨key, d⟩ := e
    obtain ⟨hd, hrest⟩ := List.forall_mem_cons.mp h
    rw [Keyed.get?]
    by_cases hid : id = key
    · rw [if_pos hid]
      exact List.find?_cons_of_pos (beq_iff_eq.mpr (hd.trans hid.symm))
    · rw [if_neg hid, ← ih hrest]
      exact List.find?_cons_of_neg fun heq => hid ((beq_iff_eq.mp heq).symm.trans hd)

structure Indexed (s : DirectoryStore) : Prop where
  sorted : Keyed.Sorted s.reports
  named : ∀ e ∈ s.reports, e.2.id = e.1

namespace Indexed

variable {s : DirectoryStore} {d e : Definition} {id : String}

theorem initial (path : String) (disk : Disk) : (atPath path disk).Indexed where
  sorted := List.Pairwise.nil
  named := List.forall_mem_nil _

theorem mem_list_iff (h : s.Indexed) : d ∈ ReportStore.list s ↔ Keyed.get? d.id s.reports = some d := by
  constructor
  · intro hd
    obtain ⟨e, he, rfl⟩ := List.mem_map.mp hd
    rw [h.named e he]
    exact Keyed.get?_of_mem h.sorted.distinct he
  · intro hd
    exact List.mem_map.mpr ⟨_, Keyed.mem_of_get? hd, rfl⟩

theorem list_ids (h : s.Indexed) : (ReportStore.list s).map (·.id) = s.reports.map (·.1) := by
  show (s.reports.map (·.2)).map (·.id) = s.reports.map (·.1)
  rw [List.map_map]
  exact List.map_congr_left h.named

theorem nodup_ids (h : s.Indexed) : ((ReportStore.list s).map (·.id)).Nodup := by
  rw [h.list_ids]
  exact h.sorted.distinct

theorem get?_eq (h : s.Indexed) (id : String) : ReportStore.get? s id = Keyed.get? id s.reports :=
  find?_id_eq h.named

theorem put (h : s.Indexed) {u : Unit} (hok : (s.put d).result = .ok u) : (s.put d).store.Indexed := by
  have hreports := (put_ok hok).1
  constructor
  · rw [hreports]
    exact Keyed.sorted_put _ _ h.sorted
  · intro e he
    rw [hreports] at he
    rcases Keyed.mem_put he with rfl | hold
    · rfl
    · exact h.named e hold

theorem delete (h : s.Indexed) {b : Bool} (hok : (s.delete id).result = .ok b) :
    (s.delete id).store.Indexed := by
  have hreports := (delete_ok hok).2.1
  constructor
  · rw [hreports]
    exact Keyed.sorted_erase _ h.sorted
  · intro e he
    rw [hreports] at he
    exact h.named e (List.mem_filter.mp he).1

theorem mem_list_put (h : s.Indexed) {u : Unit} (hok : (s.put d).result = .ok u) :
    e ∈ ReportStore.list (s.put d).store ↔ e = d ∨ (e ∈ ReportStore.list s ∧ e.id ≠ d.id) := by
  rw [(h.put hok).mem_list_iff, h.mem_list_iff, (put_ok hok).1, Keyed.get?_put]
  by_cases hid : e.id = d.id
  · simp [hid, eq_comm]
  · have hne : e ≠ d := fun heq => hid (congrArg Definition.id heq)
    simp [hid, hne]

theorem mem_list_delete (h : s.Indexed) {b : Bool} (hok : (s.delete id).result = .ok b) :
    e ∈ ReportStore.list (s.delete id).store ↔ e ∈ ReportStore.list s ∧ e.id ≠ id := by
  rw [(h.delete hok).mem_list_iff, h.mem_list_iff, (delete_ok hok).2.1, Keyed.get?_erase]
  by_cases hid : e.id = id
  · simp [hid]
  · simp [hid]

end Indexed

/-! ## Calls -/

section Calls

open ReportStore (Call after after_invariant)

variable {s : DirectoryStore} {c : Call} {calls : List Call}

theorem run_site_ne_file (c : Call) (h : s.disk.site ≠ .file) : (c.run s).2.disk.site ≠ .file := by
  cases c with
  | put d => exact put_site_ne_file h
  | delete id => exact delete_site_ne_file h
  | get id => exact h
  | contains id => exact h

theorem after_site_ne_file (calls : List Call) (h : s.disk.site ≠ .file) :
    (after calls s).disk.site ≠ .file :=
  after_invariant (p := fun t : DirectoryStore => t.disk.site ≠ .file)
    (fun c _ _ ht => run_site_ne_file c ht) h

theorem run_place (c : Call) (s : DirectoryStore) :
    (c.run s).2.path = s.path ∧ (c.run s).2.disk.failures = s.disk.failures := by
  cases c with
  | put d => exact put_place
  | delete id => exact delete_place
  | get id => exact ⟨rfl, rfl⟩
  | contains id => exact ⟨rfl, rfl⟩

theorem after_place (calls : List Call) (s : DirectoryStore) :
    (after calls s).path = s.path ∧ (after calls s).disk.failures = s.disk.failures := by
  apply after_invariant
    (p := fun t : DirectoryStore => t.path = s.path ∧ t.disk.failures = s.disk.failures)
  · rintro c - t ⟨hpath, hfailures⟩
    exact ⟨(run_place c t).1.trans hpath, (run_place c t).2.trans hfailures⟩
  · exact ⟨rfl, rfl⟩

/-- Nothing is listed that was not put there. -/
theorem mem_list_run {d : Definition} (hd : d ∈ ReportStore.list (c.run s).2) :
    d ∈ ReportStore.list s ∨ c = .put d := by
  cases c with
  | put r =>
    cases hresult : (s.put r).result with
    | error e =>
      rw [← (put_error hresult).list_eq]
      exact .inl hd
    | ok u =>
      obtain ⟨e, he, rfl⟩ := List.mem_map.mp hd
      have hreports : (s.put r).store.reports = Keyed.put r.id r s.reports := (put_ok hresult).1
      rcases Keyed.mem_put (hreports ▸ he) with rfl | hold
      · exact .inr rfl
      · exact .inl (List.mem_map_of_mem hold)
  | delete id =>
    cases hresult : (s.delete id).result with
    | error e =>
      rw [← (delete_error hresult).list_eq]
      exact .inl hd
    | ok b =>
      obtain ⟨e, he, rfl⟩ := List.mem_map.mp hd
      have hreports : (s.delete id).store.reports = Keyed.erase id s.reports := (delete_ok hresult).2.1
      exact .inl (List.mem_map_of_mem (List.mem_filter.mp (hreports ▸ he)).1)
  | get id => exact .inl hd
  | contains id => exact .inl hd

theorem mem_list_after {d : Definition} (hd : d ∈ ReportStore.list (after calls s)) :
    d ∈ ReportStore.list s ∨ .put d ∈ calls := by
  apply after_invariant
    (p := fun t : DirectoryStore => d ∈ ReportStore.list t → d ∈ ReportStore.list s ∨ .put d ∈ calls)
    ?_ Or.inl hd
  intro c hc t ht hrun
  rcases mem_list_run hrun with hold | rfl
  · exact ht hold
  · exact .inr hc

end Calls

end DirectoryStore

end ReportFlow
