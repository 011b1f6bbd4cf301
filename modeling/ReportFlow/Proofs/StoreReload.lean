import ReportFlow.Proofs.Reload
import ReportFlow.Proofs.StoreHistories

/-!
A store that is loaded anew. It finds every report again that the store before it held, but for
those whose file is passed over: the one with the empty id, and those that nest too deep.
-/

namespace ReportFlow

namespace DirectoryStore

/-- The file of the definition is read, and its text opens no more containers than may be opened. -/
def Survives (d : Definition) : Prop :=
  d.id ≠ "" ∧ (Definition.codec.encode d).depth ≤ Json.Reader.maxDepth

instance (d : Definition) : Decidable (Survives d) :=
  inferInstanceAs (Decidable (d.id ≠ "" ∧ (Definition.codec.encode d).depth ≤ Json.Reader.maxDepth))

def Faithful (s : DirectoryStore) : Prop := ∀ d ∈ ReportStore.list s, d.WellFormed ∧ d.Exact

namespace InStep

variable {ids : List String} {s : DirectoryStore} {d : Definition} {name : String}

theorem entry_of_mem (h : s.InStep ids) (hd : d ∈ ReportStore.list s) :
    s.disk.site.entry? (FileName.ofId d.id) = some (.file (text d).toUTF8) :=
  h.files.mpr ⟨d, h.mem_list_iff.mp hd, rfl⟩

/-- What is taken in from the file of a copy. -/
theorem held_of_mem (h : s.InStep ids) (hgood : s.Faithful) (hd : d ∈ ReportStore.list s) :
    s.disk.site.held (FileName.ofId d.id) = if Survives d then some d else none := by
  obtain ⟨hformed, hexact⟩ := hgood d hd
  rw [(Site.held_text (h.entry_of_mem hd) hformed hexact).2]
  exact if_congr (and_congr FileName.isDefinition_ofId Iff.rfl) rfl rfl

theorem exists_of_name (h : s.InStep ids) (hname : name ∈ s.disk.site.entries.map (·.1)) :
    ∃ d ∈ ReportStore.list s, FileName.ofId d.id = name := by
  obtain ⟨⟨key, entry⟩, hentry, rfl⟩ := List.mem_map.mp hname
  obtain ⟨d, hd, hfile⟩ := h.files.mp (Keyed.get?_of_mem h.filesSorted.distinct hentry)
  exact ⟨d, h.mem_list_iff.mpr hd, congrArg Prod.fst hfile⟩

theorem held_iff (h : s.InStep ids) (hgood : s.Faithful) :
    s.disk.site.held name = some d ↔
      d ∈ ReportStore.list s ∧ Survives d ∧ FileName.ofId d.id = name := by
  constructor
  · intro hheld
    obtain ⟨e, he, rfl⟩ := h.exists_of_name (Site.name_mem_of_held hheld)
    rw [h.held_of_mem hgood he] at hheld
    split at hheld
    · rename_i hsurvives
      cases hheld
      exact ⟨he, hsurvives, rfl⟩
    · cases hheld
  · rintro ⟨hd, hsurvives, rfl⟩
    rw [h.held_of_mem hgood hd, if_pos hsurvives]

theorem readable (h : s.InStep ids) (hgood : s.Faithful) : s.disk.site.Readable := by
  intro name hname _
  obtain ⟨d, hd, rfl⟩ := h.exists_of_name hname
  obtain ⟨hformed, hexact⟩ := hgood d hd
  exact ⟨text d, (Site.held_text (h.entry_of_mem hd) hformed hexact).1⟩

theorem distinct (h : s.InStep ids) (hgood : s.Faithful) : s.disk.site.Distinct where
  names := h.filesSorted.distinct
  ids {x y d e} hx hy hid := by
    obtain ⟨-, -, rfl⟩ := (h.held_iff hgood).mp hx
    obtain ⟨-, -, rfl⟩ := (h.held_iff hgood).mp hy
    rw [hid]

theorem byId_list (h : s.InStep ids) : byId (ReportStore.list s) = s.reports := by
  have hkeys : (ReportStore.list s).map (fun d => (d.id, d)) = s.reports := by
    show (s.reports.map (·.2)).map (fun d => (d.id, d)) = s.reports
    rw [List.map_map]
    refine (List.map_congr_left fun e he => ?_).trans (List.map_id' s.reports)
    exact Prod.ext (h.id_of_mem he) rfl
  rw [byId, hkeys]
  exact Keyed.ofList_of_sorted h.sorted

/-- A fresh store on the same directory. -/
theorem reload (h : s.InStep ids) (hgood : s.Faithful) (hsite : s.disk.site ≠ .file) (path : String) :
    let fresh := reopened path (.sound s.disk.site)
    fresh.result = .ok (ReportStore.list fresh.store).length ∧
      fresh.store.reports = s.reports.filter (fun e => Survives e.2) ∧
      fresh.store.path = path ∧ fresh.store.disk.site = s.disk.site ∧
      fresh.store.disk.failures = fun _ => none := by
  intro fresh
  have hdistinct : (Disk.sound s.disk.site).site.Distinct := h.distinct hgood
  obtain ⟨n, hfresh⟩ := load_sound path (h.readable hgood) hsite
  have htook := took_in_of_load (Disk.responsive_sound _) hfresh
  have hfound (d : Definition) : d ∈ s.disk.site.found ↔
      d ∈ ReportStore.list s ∧ decide (Survives d) = true := by
    rw [Site.mem_found, decide_eq_true_iff]
    constructor
    · rintro ⟨name, hheld⟩
      obtain ⟨hd, hsurvives, -⟩ := (h.held_iff hgood).mp hheld
      exact ⟨hd, hsurvives⟩
    · rintro ⟨hd, hsurvives⟩
      exact ⟨FileName.ofId d.id, (h.held_iff hgood).mpr ⟨hd, hsurvives, rfl⟩⟩
  refine ⟨?_, ?_, htook.path, htook.site, htook.failures⟩
  · rw [hfresh, number_reopened hdistinct (Disk.responsive_sound _) hfresh]
  · rw [reopened_reports (Disk.responsive_sound _) hfresh, ← h.byId_list]
    exact byId_filter hdistinct.found_ids h.nodup_ids hfound

end InStep

open ReportStore (Call Holds after answers)

/-- After any calls on an empty directory, none of them failing, the store holds what was put last
under each id, and a fresh store finds all of that but for the report with the empty id and those
that nest too deep. -/
theorem reload_after_calls {path : String} {disk : Disk}
    (hsite : disk.site = .absent ∨ disk.site = .directory []) {ids : List String}
    (hids : FileName.HashesApart ids) {calls : List Call}
    (hcalls : ∀ c ∈ calls, ∀ id, c.Settles id → id ∈ ids)
    (hreports : ∀ d, .put d ∈ calls → d.Obtained ∧ d.Exact)
    (hsound : ∀ a ∈ answers calls (atPath path disk), a.isFault = false)
    (hanswered : Answered calls (atPath path disk)) :
    let s := after calls (atPath path disk)
    let fresh := reopened path (.sound s.disk.site)
    Holds calls s ∧
      fresh.result = .ok (ReportStore.list fresh.store).length ∧
      ReportStore.list fresh.store = (ReportStore.list s).filter (fun d => Survives d) ∧
      (ReportStore.list fresh.store = ReportStore.list s ↔ ∀ d ∈ ReportStore.list s, Survives d) := by
  intro s fresh
  have hstep : s.InStep ids := (Mirrors.initial path hsite).after_of_answered hids hcalls hanswered
  have hgood : s.Faithful := by
    intro d hd
    rcases mem_list_after hd with hnone | hput
    · cases hnone
    · obtain ⟨hobtained, hexact⟩ := hreports d hput
      exact ⟨hobtained.wellFormed, hexact⟩
  have hdirectory : s.disk.site ≠ .file := by
    apply after_site_ne_file calls
    show disk.site ≠ .file
    obtain hsite | hsite := hsite <;> rw [hsite] <;> nofun
  obtain ⟨hresult, hfound, -⟩ := hstep.reload hgood hdirectory path
  have hlist : ReportStore.list fresh.store = (ReportStore.list s).filter (fun d => Survives d) := by
    show fresh.store.reports.map (·.2) = (s.reports.map (·.2)).filter _
    rw [hfound, List.filter_map]
    rfl
  refine ⟨(holds_after (.initial path disk) rfl hsound).1, hresult, hlist, ?_⟩
  rw [hlist, List.filter_eq_self]
  simp only [decide_eq_true_eq]

end DirectoryStore

/-- The file of the empty id is passed over. -/
theorem DirectoryStore.reload_after_calls_nameless :
    let s := ReportStore.after [.put (Sample.accounts "")] (atPath "reports" (.sound .absent))
    ReportStore.list s = [Sample.accounts ""] ∧
      ReportStore.LastPut [.put (Sample.accounts "")] (Sample.accounts "") ∧
      ReportStore.list (reopened "reports" (.sound s.disk.site)).store = [] := by
  intro s
  have hlisted : ReportStore.list s = [Sample.accounts ""] := rfl
  have hids : FileName.HashesApart [""] := by
    intro a ha b hb _
    rw [List.mem_singleton.mp ha, List.mem_singleton.mp hb]
  have hcalls : ∀ c ∈ [ReportStore.Call.put (Sample.accounts "")], ∀ id, c.Settles id → id ∈ [""] := by
    simp [ReportStore.Call.Settles, Sample.accounts]
  have hreports : ∀ d, ReportStore.Call.put d ∈ [ReportStore.Call.put (Sample.accounts "")] →
      d.Obtained ∧ d.Exact := by
    intro d hd
    cases List.mem_singleton.mp hd
    exact ⟨Sample.obtained_accounts "", by decide +kernel⟩
  obtain ⟨hholds, -, hlist, -⟩ := @reload_after_calls "reports" (.sound .absent) (.inl rfl) _ hids _
    hcalls hreports (by decide +kernel) (answered_of_sound rfl _)
  have hput := (hholds.mem_iff (Sample.accounts "")).mp (hlisted ▸ List.mem_singleton_self _)
  refine ⟨hlisted, hput, hlist.trans ?_⟩
  decide +kernel

end ReportFlow
