import ReportFlow.Proofs.Reload

/-!
Deletion and a later load. Copies stand under the ids inside the definitions and files under names
made from ids; a deletion removes the file of that name, whichever definition stands in it, if the
disk tells that there is one.
-/

namespace ReportFlow

theorem Site.without_entries_iff {site : Site} {name : String} :
    (site.without name).entries = site.entries ↔ site.entry? name = none := by
  constructor
  · intro h
    unfold entry?
    rw [← h, entries_without, Keyed.get?_erase, if_pos rfl]
  · intro h
    rw [without_of_entry?_none h]

namespace DirectoryStore

variable {path : String} {disk : Disk} {n : Nat}

theorem site_ne_file_of_load (hresponsive : disk.Responsive)
    (h : (reopened path disk).result = .ok n) : disk.site ≠ .file := by
  intro hfile
  unfold reopened at h
  obtain ⟨hnothing, -⟩ | ⟨cause, failed, -, hload⟩ | ⟨names, listed, hrun, -⟩ :=
    load_cases (atPath path disk)
  · have hpresent : (atPath path disk).disk.site.isPresent = true := congrArg Site.isPresent hfile
    exact hnothing ⟨hresponsive, hpresent⟩
  · rw [hload] at h
    cases h
  · obtain ⟨hlist, -⟩ := Disk.run_eq_ok hrun
    have hsite : (atPath path disk).disk.site = .file := hfile
    rw [hsite] at hlist
    cases hlist

/-- The copies are found under the ids inside them. -/
theorem get?_reopened (hdistinct : disk.site.Distinct) (hresponsive : disk.Responsive)
    (h : (reopened path disk).result = .ok n) {id : String} {d : Definition} :
    Keyed.get? id (reopened path disk).store.reports = some d ↔ d ∈ disk.site.found ∧ id = d.id := by
  rw [reopened_reports hresponsive h, ← Keyed.mem_iff_get? (sorted_byId _).distinct,
    mem_byId hdistinct.found_ids]

theorem mem_list_reopened (hdistinct : disk.site.Distinct) (hresponsive : disk.Responsive)
    (h : (reopened path disk).result = .ok n) {d : Definition} :
    d ∈ ReportStore.list (reopened path disk).store ↔ d ∈ disk.site.found :=
  (list_reopened_perm hdistinct hresponsive h).mem_iff

/-- A file that is gone takes the definition in it along, and no other. -/
theorem reopened_without (hdistinct : disk.site.Distinct) (hresponsive : disk.Responsive)
    (hload : (reopened path disk).result = .ok n) (name : String) :
    let fresh := reopened path (.sound (disk.site.without name))
    fresh.result = .ok (ReportStore.list fresh.store).length ∧
      ReportStore.list fresh.store =
        (ReportStore.list (reopened path disk).store).filter fun d => disk.site.held name ≠ some d := by
  intro fresh
  have hreadable : (disk.site.without name).Readable :=
    Site.Readable.without (took_in_of_load hresponsive hload).readable name
  have hleft : (disk.site.without name).Distinct := hdistinct.without name
  have hdirectory := Site.without_ne_file (site_ne_file_of_load hresponsive hload) name
  obtain ⟨m, hfresh⟩ := load_sound path hreadable hdirectory
  constructor
  · rw [hfresh, number_reopened hleft (Disk.responsive_sound _) hfresh]
  · show fresh.store.reports.map (·.2) = ((reopened path disk).store.reports.map (·.2)).filter _
    have hpicked (d : Definition) : d ∈ (disk.site.without name).found ↔
        d ∈ disk.site.found ∧ decide (disk.site.held name ≠ some d) = true := by
      rw [decide_eq_true_iff]
      exact Site.mem_found_without hdistinct
    rw [reopened_reports (Disk.responsive_sound _) hfresh, reopened_reports hresponsive hload,
      List.filter_map]
    exact congrArg (List.map Prod.snd) (byId_filter hleft.found_ids hdistinct.found_ids hpicked)

/-- A fresh store finds what is left in the files, whichever file that was removed. -/
theorem reopened_unchanged (hdistinct : disk.site.Distinct) (hresponsive : disk.Responsive)
    (hload : (reopened path disk).result = .ok n) :
    let fresh := reopened path (.sound disk.site)
    fresh.result = .ok (ReportStore.list fresh.store).length ∧
      ReportStore.list fresh.store = ReportStore.list (reopened path disk).store := by
  intro fresh
  obtain ⟨m, hfresh⟩ := load_sound path (took_in_of_load hresponsive hload).readable
    (site_ne_file_of_load hresponsive hload)
  have hsite : (Disk.sound disk.site).site.Distinct := hdistinct
  constructor
  · rw [hfresh, number_reopened hsite (Disk.responsive_sound _) hfresh]
  · show fresh.store.reports.map (·.2) = (reopened path disk).store.reports.map (·.2)
    rw [reopened_reports (Disk.responsive_sound _) hfresh, reopened_reports hresponsive hload]
    rfl

/-- After a deletion a fresh store finds every definition but the one in the file named for the id,
and that one too if the disk did not answer the deletion. That is every definition but the one of the
id just when the two are the same, and no file is removed just when no entry of that name is found. -/
theorem found_after_delete (hdistinct : disk.site.Distinct) (hresponsive : disk.Responsive)
    (hload : (reopened path disk).result = .ok n) {id : String} {b : Bool}
    (hdelete : (ReportStore.delete id (reopened path disk).store).result = .ok b) :
    let s := (reopened path disk).store
    let site := (ReportStore.delete id s).store.disk.site
    let fresh := reopened path (.sound site)
    let lost := if s.disk.Responsive then disk.site.held (FileName.ofId id) else none
    (b = true ↔ ∃ d ∈ ReportStore.list s, d.id = id) ∧
      (site.entries = if s.disk.Responsive then Keyed.erase (FileName.ofId id) disk.site.entries
        else disk.site.entries) ∧
      fresh.result = .ok (ReportStore.list fresh.store).length ∧
      ReportStore.list fresh.store = (ReportStore.list s).filter (fun d => lost ≠ some d) ∧
      (ReportStore.list fresh.store = (ReportStore.list s).filter (fun d => d.id ≠ id) ↔
        ∀ d ∈ ReportStore.list s, d.id = id ↔ lost = some d) ∧
      (site.entries = disk.site.entries ↔
        ¬ s.disk.Responsive ∨ disk.site.entry? (FileName.ofId id) = none) := by
  intro s site fresh lost
  obtain ⟨hb, -, hsite⟩ := delete_ok hdelete
  have hbefore : s.disk.site = disk.site := (took_in_of_load hresponsive hload).site
  have hafter : site =
      if s.disk.Responsive then disk.site.without (FileName.ofId id) else disk.site :=
    hsite.trans (by rw [hbefore])
  have hfound : ∀ left : Site,
      left = (if s.disk.Responsive then disk.site.without (FileName.ofId id) else disk.site) →
      let found := reopened path (.sound left)
      found.result = .ok (ReportStore.list found.store).length ∧
        ReportStore.list found.store = (ReportStore.list s).filter (fun d => lost ≠ some d) := by
    rintro left rfl
    by_cases hanswered : s.disk.Responsive
    · have hlost : lost = disk.site.held (FileName.ofId id) := if_pos hanswered
      rw [if_pos hanswered, hlost]
      exact reopened_without hdistinct hresponsive hload (FileName.ofId id)
    · have hlost : lost = none := if_neg hanswered
      rw [if_neg hanswered, hlost]
      obtain ⟨hresult, hlist⟩ := reopened_unchanged hdistinct hresponsive hload
      exact ⟨hresult, hlist.trans (List.filter_eq_self.mpr fun _ _ => rfl).symm⟩
  obtain ⟨hresult, hlist⟩ := hfound site hafter
  refine ⟨?_, ?_, hresult, hlist, ?_, ?_⟩
  · rw [hb, Option.isSome_iff_exists]
    refine exists_congr fun d => ?_
    rw [get?_reopened hdistinct hresponsive hload, mem_list_reopened hdistinct hresponsive hload,
      eq_comm (a := id)]
  · rw [hafter, apply_ite Site.entries, Site.entries_without]
  · rw [hlist]
    constructor
    · intro heq d hd
      have hmem : d ∈ (ReportStore.list s).filter (fun d => lost ≠ some d) ↔
          d ∈ (ReportStore.list s).filter (fun d => d.id ≠ id) := by rw [heq]
      simp only [List.mem_filter, hd, true_and, decide_eq_true_eq] at hmem
      exact (not_iff_not.mp hmem).symm
    · intro hsame
      refine List.filter_congr fun d hd => ?_
      rw [decide_eq_decide]
      exact not_congr (hsame d hd).symm
  · rw [hafter]
    by_cases hanswered : s.disk.Responsive
    · rw [if_pos hanswered, Site.without_entries_iff]
      simp [hanswered]
    · rw [if_neg hanswered]
      simp [hanswered]

end DirectoryStore

namespace Sample

def foreign : Site := .directory [("foreign.json", .file (DirectoryStore.text (accounts "a")).toUTF8)]

theorem entry_foreign : foreign.entry? "foreign.json" =
    some (.file (DirectoryStore.text (accounts "a")).toUTF8) := by
  unfold Site.entry?
  rw [foreign, Site.entries, Keyed.get?, if_pos rfl]

theorem exact_accounts : (accounts "a").Exact := by decide +kernel

theorem held_foreign : foreign.held "foreign.json" = some (accounts "a") := by
  rw [(Site.held_text entry_foreign (obtained_accounts "a").wellFormed exact_accounts).2, if_pos]
  decide +kernel

theorem eq_of_mem_foreign {name : String} (h : name ∈ foreign.entries.map (·.1)) : name = "foreign.json" :=
  List.mem_singleton.mp h

theorem distinct_foreign : foreign.Distinct where
  names := List.nodup_singleton _
  ids hx hy _ := by
    rw [eq_of_mem_foreign (Site.name_mem_of_held hx), eq_of_mem_foreign (Site.name_mem_of_held hy)]

theorem readable_foreign : foreign.Readable := by
  intro name hname _
  rw [eq_of_mem_foreign hname]
  exact ⟨_, (Site.held_text entry_foreign (obtained_accounts "a").wellFormed exact_accounts).1⟩

end Sample

open Sample in
/-- A deleted report comes back from a file that has another name. -/
theorem DirectoryStore.found_after_delete_foreign :
    let s := (reopened "reports" (.sound foreign)).store
    (ReportStore.delete "a" s).result = .ok true ∧
      accounts "a" ∈ ReportStore.list
        (reopened "reports" (.sound (ReportStore.delete "a" s).store.disk.site)).store := by
  have returns {site : Site} (hdistinct : site.Distinct) (hreadable : site.Readable)
      (hfile : site ≠ .file) (habsent : site.entry? (FileName.ofId "a") = none)
      (hheld : site.held "foreign.json" = some (accounts "a")) :
      let s := (reopened "reports" (.sound site)).store
      (ReportStore.delete "a" s).result = .ok true ∧
        accounts "a" ∈ ReportStore.list
          (reopened "reports" (.sound (ReportStore.delete "a" s).store.disk.site)).store := by
    intro s
    obtain ⟨n, hload⟩ := load_sound "reports" hreadable hfile
    have hsite : s.disk.site = site := (took_in_of_load (Disk.responsive_sound site) hload).site
    have hlisted : accounts "a" ∈ ReportStore.list s :=
      (@mem_list_reopened "reports" (.sound site) n hdistinct (Disk.responsive_sound site) hload _).mpr
        (Site.mem_found.mpr ⟨_, hheld⟩)
    have hdelete := delete_of_absent (hsite ▸ habsent)
    obtain ⟨hb, -, -, hlist, -⟩ :=
      @found_after_delete "reports" (.sound site) n hdistinct (Disk.responsive_sound site) hload "a" _ hdelete
    refine ⟨hdelete.trans (congrArg Except.ok (hb.mpr ⟨_, hlisted, rfl⟩)), ?_⟩
    have hlost : (Disk.sound site).site.held (FileName.ofId "a") = none := Site.held_of_absent habsent
    rw [hlist, List.mem_filter, hlost, ite_self]
    exact ⟨hlisted, rfl⟩
  exact returns distinct_foreign readable_foreign nofun (by decide +kernel) held_foreign

end ReportFlow
