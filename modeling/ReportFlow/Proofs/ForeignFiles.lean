import ReportFlow.Proofs.DurableDeletion

/-!
Loading a directory that holds files of any kind. A file is passed over when its name or its text is
not that of a definition. One that has the name of a definition and is no text at all is not passed
over: it ends the load.
-/

namespace ReportFlow

/-- The files of a directory with their bytes, in the order in which the system lists them. -/
abbrev Folder := List (String × ByteArray)

namespace Folder

def site (folder : Folder) : Site := .directory (folder.map fun file => (file.1, .file file.2))

def report? (file : String × ByteArray) : Option Definition :=
  if FileName.isDefinition file.1 then
    (String.fromUTF8? file.2).bind fun text => (Definition.codec.ofText? text).toOption
  else none

def reports (folder : Folder) : List Definition := folder.filterMap report?

def isGarbled (file : String × ByteArray) : Bool :=
  FileName.isDefinition file.1 && (String.fromUTF8? file.2).isNone

def legible (folder : Folder) : Folder := folder.takeWhile fun file => !isGarbled file

variable {folder part : Folder} {file : String × ByteArray}

theorem names_site (folder : Folder) : folder.site.entries.map (·.1) = folder.map (·.1) :=
  List.map_map

theorem contents_site (hnames : (folder.map (·.1)).Nodup) (hmem : file ∈ folder) :
    folder.site.contents file.1 = textOf file.2 := by
  have hentry : folder.site.entry? file.1 = some (.file file.2) :=
    Keyed.get?_of_mem (by rwa [names_site]) (List.mem_map_of_mem hmem)
  rw [Site.contents, hentry]
  rfl

theorem held_site (hnames : (folder.map (·.1)).Nodup) (hmem : file ∈ folder) :
    folder.site.held file.1 = report? file := by
  rw [Site.held, report?, contents_site hnames hmem, textOf]
  cases String.fromUTF8? file.2 <;> rfl

theorem exists_text (hnames : (folder.map (·.1)).Nodup) (hmem : file ∈ folder)
    (hplain : isGarbled file = false) (hname : FileName.isDefinition file.1 = true) :
    ∃ text, folder.site.contents file.1 = .ok text := by
  rw [contents_site hnames hmem, textOf]
  rw [isGarbled, hname, Bool.true_and] at hplain
  cases htext : String.fromUTF8? file.2 with
  | some text => exact ⟨text, rfl⟩
  | none =>
    rw [htext] at hplain
    cases hplain

theorem contents_garbled (hnames : (folder.map (·.1)).Nodup) (hmem : file ∈ folder)
    (hgarbled : isGarbled file = true) :
    FileName.isDefinition file.1 = true ∧ folder.site.contents file.1 = .error .invalidText := by
  rw [isGarbled, Bool.and_eq_true, Option.isNone_iff_eq_none] at hgarbled
  rw [contents_site hnames hmem, textOf, hgarbled.2]
  exact ⟨hgarbled.1, rfl⟩

theorem legible_eq {before after : Folder} (hbefore : ∀ file ∈ before, isGarbled file = false)
    (hfile : isGarbled file = true) : (before ++ file :: after).legible = before := by
  unfold legible
  rw [List.takeWhile_append_of_pos (by simpa using hbefore),
    List.takeWhile_cons_of_neg (by simp [hfile]), List.append_nil]

/-- A file that was written for a definition. -/
theorem report?_text {name : String} {d : Definition} (hname : FileName.isDefinition name = true)
    (hformed : d.WellFormed) (hexact : d.Exact)
    (hdepth : (Definition.codec.encode d).depth ≤ Json.Reader.maxDepth) :
    report? (name, (DirectoryStore.text d).toUTF8) = some d := by
  rw [report?, if_pos hname, fromUTF8?_toUTF8, Option.bind_some,
    DirectoryStore.ofText?_text hformed hexact, Codec.within, if_pos hdepth]
  rfl

theorem isGarbled_of_report? {d : Definition} (h : report? file = some d) : isGarbled file = false := by
  rw [report?] at h
  split at h
  next hname =>
    obtain ⟨text, htext, -⟩ := Option.bind_eq_some_iff.mp h
    rw [isGarbled, htext]
    exact Bool.and_false _
  next => cases h

theorem held_part (hnames : (folder.map (·.1)).Nodup) (hpart : part ⊆ folder) :
    (part.map (·.1)).filterMap folder.site.held = part.reports := by
  rw [List.filterMap_map]
  exact List.filterMap_congr fun file hfile => held_site hnames (hpart hfile)

end Folder

namespace DirectoryStore

/-- After the first files, the others are loaded as if they were the only ones. -/
theorem loadFiles_append {count n : Nat} {s : DirectoryStore} {names : List String}
    (h : (loadFiles count s names).result = .ok n) (rest : List String) :
    (loadFiles count s (names ++ rest)).result =
        (loadFiles n (loadFiles count s names).store rest).result ∧
      (loadFiles count s (names ++ rest)).store =
        (loadFiles n (loadFiles count s names).store rest).store := by
  induction names generalizing count s with
  | nil =>
    cases h
    exact ⟨rfl, rfl⟩
  | cons name names ih =>
    obtain ⟨more, next, -, hnext⟩ := loadFiles_first count (read_of_loadFiles h)
    rw [(hnext names).1] at h
    rw [List.cons_append, (hnext (names ++ rest)).1, (hnext (names ++ rest)).2, (hnext names).2]
    exact ih h

/-- A file that cannot be read ends the load, whatever stands behind it. -/
theorem loadFiles_stops {count : Nat} {s : DirectoryStore} {name : String} {cause : OsError}
    (hsound : s.disk.failures = fun _ => none) (hname : FileName.isDefinition name = true)
    (hcontents : s.disk.site.contents name = .error cause) (rest : List String) :
    (loadFiles count s (name :: rest)).result = .error (.io (s.pathOf name) cause) ∧
      (loadFiles count s (name :: rest)).store.reports = s.reports := by
  have hrun : s.disk.run (Site.read name) =
      (.error cause, { s.disk with turn := s.disk.turn + 1 }) := by
    simp only [Disk.run, hsound, Site.read_eq, hcontents, Except.map]
  simp only [loadFiles, hname, if_true, hrun]
  exact ⟨rfl, rfl⟩

open Folder

variable {folder part : Folder}

/-- Files of which none is garbled are all gone through. -/
theorem took_in_part {s : DirectoryStore} (hsound : s.disk.failures = fun _ => none)
    (hsite : s.disk.site = folder.site) (hnames : (folder.map (·.1)).Nodup) (hpart : part ⊆ folder)
    (hplain : ∀ file ∈ part, isGarbled file = false) :
    let attempt := loadFiles 0 s (part.map (·.1))
    attempt.result = .ok part.reports.length ∧
      attempt.store.reports = taken s.reports part.reports ∧
      s.TookIn (part.map (·.1)) 0 part.reports.length attempt.store := by
  intro attempt
  have hreadable : ∀ name ∈ part.map (·.1), FileName.isDefinition name = true →
      ∃ text, s.disk.site.contents name = .ok text := by
    intro name hname hdefinition
    obtain ⟨file, hfile, rfl⟩ := List.mem_map.mp hname
    rw [hsite]
    exact exists_text hnames (hpart hfile) (hplain file hfile) hdefinition
  obtain ⟨n, hload⟩ := @loadFiles_sound 0 _ _ hsound hreadable
  have htook : s.TookIn (part.map (·.1)) 0 n attempt.store := took_in_of_loadFiles hload
  have hnumber := htook.number
  have hreports := htook.reports
  rw [hsite, held_part hnames hpart, Nat.zero_add] at hnumber
  rw [hsite, held_part hnames hpart] at hreports
  subst hnumber
  exact ⟨hload, hreports, htook⟩

/-- Up to the first garbled file, all files are gone through, and none behind it. -/
theorem loadFiles_garbled {s : DirectoryStore} {before after : Folder} {file : String × ByteArray}
    (hsound : s.disk.failures = fun _ => none)
    (hsite : s.disk.site = Folder.site (before ++ file :: after))
    (hnames : ((before ++ file :: after).map (·.1)).Nodup)
    (hplain : ∀ file ∈ before, isGarbled file = false) (hgarbled : isGarbled file = true) :
    let attempt := loadFiles 0 s ((before ++ file :: after).map (·.1))
    attempt.result = .error (.io (s.pathOf file.1) .invalidText) ∧
      attempt.store.reports = taken s.reports before.reports := by
  intro attempt
  have hfile : file ∈ before ++ file :: after := List.mem_append_right before List.mem_cons_self
  obtain ⟨hname, hcontents⟩ := contents_garbled hnames hfile hgarbled
  obtain ⟨hload, hreports, htook⟩ :=
    took_in_part hsound hsite hnames (List.subset_append_left before _) hplain
  rw [← hsite, ← htook.site] at hcontents
  obtain ⟨hstops, hunchanged⟩ := @loadFiles_stops before.reports.length _ _ _
    (htook.failures.trans hsound) hname hcontents (after.map (·.1))
  obtain ⟨hresult, hstore⟩ := loadFiles_append hload (file.1 :: after.map (·.1))
  have hattempt : attempt = loadFiles 0 s (before.map (·.1) ++ file.1 :: after.map (·.1)) :=
    congrArg (loadFiles 0 s) List.map_append
  rw [hattempt, hresult, hstore, hstops, hunchanged, pathOf, htook.path]
  exact ⟨rfl, hreports⟩

theorem list_perm {s : DirectoryStore} (hreports : s.reports = taken [] part.reports)
    (hids : (part.reports.map (·.id)).Nodup) : (ReportStore.list s).Perm part.reports := by
  show (s.reports.map (·.2)).Perm _
  rw [hreports, taken_nil]
  exact values_byId_perm hids

/-- A load takes in the reports of all files, or, when a garbled one ends it, of the files before. -/
theorem reopened_folder (hnames : (folder.map (·.1)).Nodup)
    (hids : (folder.reports.map (·.id)).Nodup) (path : String) :
    let attempt := reopened path (.sound folder.site)
    match folder.find? isGarbled with
    | none =>
      attempt.result = .ok folder.reports.length ∧
        (ReportStore.list attempt.store).Perm folder.reports
    | some file =>
      attempt.result = .error (.io (entryPath path file.1) .invalidText) ∧
        (ReportStore.list attempt.store).Perm folder.legible.reports := by
  intro attempt
  let start : DirectoryStore := ⟨path, [], ⟨folder.site, fun _ => none, 2⟩⟩
  have hattempt : attempt = loadFiles 0 start (folder.map (·.1)) := by
    rw [← names_site]
    rfl
  rw [hattempt]
  split
  next hfind =>
    have hplain : ∀ file ∈ folder, isGarbled file = false := by
      simpa using List.find?_eq_none.mp hfind
    obtain ⟨hload, hreports, -⟩ :=
      took_in_part (s := start) rfl rfl hnames (List.Subset.refl folder) hplain
    exact ⟨hload, list_perm hreports hids⟩
  next file hfind =>
    obtain ⟨hgarbled, before, after, rfl, hbefore⟩ := List.find?_eq_some_iff_append.mp hfind
    have hplain : ∀ file ∈ before, isGarbled file = false := by simpa using hbefore
    rw [Folder.reports, List.filterMap_append, List.map_append] at hids
    obtain ⟨hload, hreports⟩ := loadFiles_garbled (s := start) rfl rfl hnames hplain hgarbled
    rw [legible_eq hplain hgarbled]
    exact ⟨hload, list_perm hreports hids.of_append_left⟩

end DirectoryStore

namespace Sample

open Folder

def foreignReport : String × ByteArray :=
  ("foreign.json", (DirectoryStore.text (accounts "a")).toUTF8)

def mixed : Folder := [("notes.txt", ⟨#[0xff]⟩), foreignReport, ("empty.json", ⟨#[]⟩)]

def spoiled : Folder := mixed ++ [("broken.json", ⟨#[0xff]⟩), ("more.json", ⟨#[]⟩)]

theorem report?_foreignReport : report? foreignReport = some (accounts "a") :=
  report?_text (by decide +kernel) (obtained_accounts "a").wellFormed exact_accounts
    (by decide +kernel)

theorem reports_mixed : mixed.reports = [accounts "a"] := by
  have hnotes : report? ("notes.txt", ⟨#[0xff]⟩) = none := by decide +kernel
  have hempty : report? ("empty.json", ⟨#[]⟩) = none := by decide +kernel
  rw [Folder.reports, mixed, List.filterMap_cons_none hnotes,
    List.filterMap_cons_some report?_foreignReport, List.filterMap_cons_none hempty,
    List.filterMap_nil]

theorem reports_spoiled : spoiled.reports = [accounts "a"] := by
  have hmore : Folder.reports [("broken.json", ⟨#[0xff]⟩), ("more.json", ⟨#[]⟩)] = [] := by
    decide +kernel
  rw [Folder.reports] at hmore ⊢
  rw [spoiled, List.filterMap_append, hmore, List.append_nil]
  exact reports_mixed

theorem not_isGarbled_mixed : ∀ file ∈ mixed, isGarbled file = false := by
  have hforeign := isGarbled_of_report? report?_foreignReport
  simp only [mixed, List.forall_mem_cons, hforeign]
  decide +kernel

end Sample

open Sample in
theorem DirectoryStore.reopened_folder_spoiled :
    ((reopened "reports" (.sound mixed.site)).result = .ok 1 ∧
      (ReportStore.list (reopened "reports" (.sound mixed.site)).store).Perm [accounts "a"]) ∧
    (reopened "reports" (.sound spoiled.site)).result =
        .error (.io "reports/broken.json" .invalidText) ∧
      (ReportStore.list (reopened "reports" (.sound spoiled.site)).store).Perm [accounts "a"] := by
  have hnone : mixed.find? Folder.isGarbled = none :=
    List.find?_eq_none.mpr fun file hfile => by simp [not_isGarbled_mixed file hfile]
  have hsome : spoiled.find? Folder.isGarbled = some ("broken.json", ⟨#[0xff]⟩) := by
    rw [spoiled, List.find?_append, hnone]
    decide +kernel
  have hlegible : spoiled.legible = mixed := Folder.legible_eq not_isGarbled_mixed (by decide +kernel)
  have hids : ([accounts "a"].map (·.id)).Nodup := List.nodup_singleton _
  have hpath : entryPath "reports" "broken.json" = "reports/broken.json" := by decide +kernel
  have hmixed := @reopened_folder mixed (by decide) (by rwa [reports_mixed]) "reports"
  have hspoiled := @reopened_folder spoiled (by decide) (by rwa [reports_spoiled]) "reports"
  rw [hnone, reports_mixed] at hmixed
  rw [hsome, hlegible, reports_mixed] at hspoiled
  rw [← hpath]
  exact ⟨hmixed, hspoiled⟩

end ReportFlow
