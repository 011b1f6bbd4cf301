import ReportFlow.Proofs.DirectoryMirror

/-!
What a fresh store finds in a directory, and how much of what a store was told it finds again.
-/

namespace ReportFlow

/-- The text of a file is read back if it is not nested too deeply. -/
theorem DirectoryStore.ofText?_text {d : Definition} (hformed : d.WellFormed) (hexact : d.Exact) :
    Definition.codec.ofText? (text d) =
      Codec.within Json.Reader.maxDepth (Definition.codec.encode d).depth d := by
  rw [text]
  exact (Definition.restores hformed hexact.createdAt hexact.updatedAt).ofText_chars hexact.numbers
    (some 0)

namespace Site

def contents (site : Site) (name : String) : Except OsError String :=
  match site.entry? name with
  | none => .error .notFound
  | some entry => entry.body >>= textOf

theorem read_eq (name : String) (site : Site) :
    Site.read name site = (site.contents name).map fun text => (text, site) := by
  unfold read contents
  cases site.entry? name with
  | none => rfl
  | some entry =>
    cases hbody : entry.body with
    | error cause =>
      simp only [hbody]
      rfl
    | ok body =>
      cases htext : textOf body with
      | error cause =>
        simp only [hbody, bind, Except.bind, htext]
        rfl
      | ok text =>
        simp only [hbody, bind, Except.bind, htext]
        rfl

/-- The definition that is taken in from a file, if its name and its text are those of one. -/
def held (site : Site) (name : String) : Option Definition :=
  if FileName.isDefinition name then
    match site.contents name with
    | .ok text => (Definition.codec.ofText? text).toOption
    | .error _ => none
  else none

def found (site : Site) : List Definition := (site.entries.map (·.1)).filterMap site.held

def Readable (site : Site) : Prop :=
  ∀ name ∈ site.entries.map (·.1), FileName.isDefinition name = true →
    ∃ text, site.contents name = .ok text

/-- A directory as an operating system gives it, in which no two files hold a report of one id. -/
structure Distinct (site : Site) : Prop where
  names : (site.entries.map (·.1)).Nodup
  ids : ∀ {x y d e}, site.held x = some d → site.held y = some e → d.id = e.id → x = y

theorem list_site {site after : Site} {names : List String} (h : list site = .ok (names, after)) :
    names = site.entries.map (·.1) ∧ after = site := by
  cases site <;> cases h
  exact ⟨rfl, rfl⟩

theorem held_of_absent {site : Site} {name : String} (h : site.entry? name = none) :
    site.held name = none := by
  unfold held contents
  rw [h]
  exact ite_self none

theorem name_mem_of_held {site : Site} {name : String} {d : Definition} (h : site.held name = some d) :
    name ∈ site.entries.map (·.1) := by
  cases hentry : site.entry? name with
  | some entry => exact List.mem_map_of_mem (Keyed.mem_of_get? hentry)
  | none =>
    rw [held_of_absent hentry] at h
    cases h

theorem contents_of_file {site : Site} {name text : String} {body : ByteArray}
    (hentry : site.entry? name = some (.file body)) (htext : textOf body = .ok text) :
    site.contents name = .ok text := by
  rw [contents, hentry]
  exact bind_eq_ok_iff.mpr ⟨body, rfl, htext⟩

/-- What is taken in from a file with the text of a definition. -/
theorem held_text {site : Site} {name : String} {d : Definition}
    (hentry : site.entry? name = some (.file (DirectoryStore.text d).toUTF8)) (hformed : d.WellFormed)
    (hexact : d.Exact) :
    site.contents name = .ok (DirectoryStore.text d) ∧
      site.held name = if FileName.isDefinition name = true ∧
        (Definition.codec.encode d).depth ≤ Json.Reader.maxDepth then some d else none := by
  have hcontents := contents_of_file hentry (textOf_toUTF8 (DirectoryStore.text d))
  refine ⟨hcontents, ?_⟩
  simp only [held, hcontents, DirectoryStore.ofText?_text hformed hexact, Codec.within]
  by_cases hname : FileName.isDefinition name = true
  · by_cases hdepth : (Definition.codec.encode d).depth ≤ Json.Reader.maxDepth
    · simp [hname, hdepth, Except.toOption]
    · simp [hname, hdepth, Except.toOption]
  · simp [hname]

theorem mem_found {site : Site} {d : Definition} : d ∈ site.found ↔ ∃ name, site.held name = some d := by
  rw [found, List.mem_filterMap]
  constructor
  · rintro ⟨name, -, hheld⟩
    exact ⟨name, hheld⟩
  · rintro ⟨name, hheld⟩
    exact ⟨name, name_mem_of_held hheld, hheld⟩

theorem Distinct.found_ids {site : Site} (h : site.Distinct) : (site.found.map (·.id)).Nodup := by
  rw [found, List.map_filterMap]
  refine List.Nodup.filterMap ?_ h.names
  intro x y id hx hy
  obtain ⟨d, hd, rfl⟩ := Option.map_eq_some_iff.mp hx
  obtain ⟨e, he, heq⟩ := Option.map_eq_some_iff.mp hy
  exact h.ids hd he heq.symm

/-! ## Without one entry -/

theorem contents_without (site : Site) (name other : String) :
    (site.without name).contents other =
      if other = name then .error .notFound else site.contents other := by
  unfold contents entry?
  rw [entries_without, Keyed.get?_erase]
  by_cases h : other = name
  · rw [if_pos h, if_pos h]
  · rw [if_neg h, if_neg h]

theorem held_without (site : Site) (name other : String) :
    (site.without name).held other = if other = name then none else site.held other := by
  unfold held
  rw [contents_without]
  by_cases h : other = name
  · simp only [if_pos h, ite_self]
  · simp only [if_neg h]

theorem names_without (site : Site) (name : String) :
    (site.without name).entries.map (·.1) = (site.entries.map (·.1)).filter (· ≠ name) := by
  rw [entries_without, Keyed.erase, List.filter_map]
  rfl

theorem Distinct.without {site : Site} (h : site.Distinct) (name : String) :
    (site.without name).Distinct := by
  constructor
  · rw [names_without]
    exact h.names.filter _
  · intro x y d e hx hy hid
    rw [held_without] at hx hy
    split at hx
    · cases hx
    · split at hy
      · cases hy
      · exact h.ids hx hy hid

theorem Readable.without {site : Site} (h : site.Readable) (name : String) :
    (site.without name).Readable := by
  intro other hother hdefinition
  rw [names_without] at hother
  obtain ⟨hmem, hne⟩ := List.mem_filter.mp hother
  rw [contents_without, if_neg (of_decide_eq_true hne)]
  exact h other hmem hdefinition

/-- What is left is what another file holds. -/
theorem mem_found_without {site : Site} (h : site.Distinct) {name : String} {d : Definition} :
    d ∈ (site.without name).found ↔ d ∈ site.found ∧ site.held name ≠ some d := by
  rw [mem_found, mem_found]
  constructor
  · rintro ⟨other, hother⟩
    rw [held_without] at hother
    split at hother
    · cases hother
    · rename_i hne
      exact ⟨⟨other, hother⟩, fun hname => hne (h.ids hother hname rfl)⟩
  · rintro ⟨⟨other, hother⟩, hname⟩
    refine ⟨other, ?_⟩
    rw [held_without, if_neg]
    · exact hother
    · rintro rfl
      exact hname hother

end Site

namespace DirectoryStore

def taken (reports : List (String × Definition)) (ds : List Definition) : List (String × Definition) :=
  ds.foldl (fun acc d => Keyed.put d.id d acc) reports

structure TookIn (s : DirectoryStore) (names : List String) (count n : Nat) (s' : DirectoryStore) :
    Prop where
  readable : ∀ name ∈ names, FileName.isDefinition name = true →
    ∃ text, s.disk.site.contents name = .ok text
  number : n = count + (names.filterMap s.disk.site.held).length
  reports : s'.reports = taken s.reports (names.filterMap s.disk.site.held)
  path : s'.path = s.path
  site : s'.disk.site = s.disk.site
  failures : s'.disk.failures = s.disk.failures

theorem TookIn.nil (s : DirectoryStore) (count : Nat) : s.TookIn [] count count s :=
  ⟨List.forall_mem_nil _, rfl, rfl, rfl, rfl, rfl⟩

/-- Some files, and then the others. -/
theorem TookIn.append {s next s' : DirectoryStore} {names others : List String} {count more n : Nat}
    (hfirst : s.TookIn names count more next) (hrest : next.TookIn others more n s') :
    s.TookIn (names ++ others) count n s' := by
  constructor
  · exact List.forall_mem_append.mpr ⟨hfirst.readable, hfirst.site ▸ hrest.readable⟩
  · rw [List.filterMap_append, List.length_append, ← Nat.add_assoc, ← hfirst.number,
      hrest.number, hfirst.site]
  · rw [List.filterMap_append, hrest.reports, hfirst.reports, hfirst.site, taken, taken, taken,
      List.foldl_append]
  · exact hrest.path.trans hfirst.path
  · exact hrest.site.trans hfirst.site
  · exact hrest.failures.trans hfirst.failures

/-- A file is passed over if its name is not that of a definition. -/
theorem TookIn.pass {name : String} (s : DirectoryStore) (count : Nat)
    (hname : FileName.isDefinition name = false) : s.TookIn [name] count count s := by
  have hheld : s.disk.site.held name = none := by simp [Site.held, hname]
  have hnone : [name].filterMap s.disk.site.held = [] := List.filterMap_cons_none hheld
  refine ⟨List.forall_mem_singleton.mpr ?_, ?_, ?_, rfl, rfl, rfl⟩
  · intro hdefinition
    rw [hname] at hdefinition
    cases hdefinition
  · rw [hnone]
    rfl
  · rw [hnone]
    rfl

/-- A file whose text has been read is taken in, if that is the text of a definition. -/
theorem TookIn.take {s : DirectoryStore} {disk : Disk} {name text : String} (count : Nat)
    (hname : FileName.isDefinition name = true)
    (hrun : s.disk.run (Site.read name) = (.ok text, disk)) :
    let file := DirectoryStore.take name text count { s with disk := disk }
    s.TookIn [name] count file.2.1 file.1 := by
  obtain ⟨hread, hfailures⟩ := Disk.run_eq_ok hrun
  rw [Site.read_eq] at hread
  obtain ⟨t, hcontents, heq⟩ := map_eq_ok_iff.mp hread
  obtain ⟨rfl, hsite⟩ := Prod.mk.inj heq
  have hreadable : ∀ other ∈ [name], FileName.isDefinition other = true →
      ∃ text, s.disk.site.contents other = .ok text :=
    List.forall_mem_singleton.mpr fun _ => ⟨t, hcontents⟩
  have hheld : s.disk.site.held name = (Definition.codec.ofText? t).toOption := by
    simp only [Site.held, hname, if_true, hcontents]
  simp only [DirectoryStore.take]
  cases htext : Definition.codec.ofText? t with
  | error e =>
    rw [htext] at hheld
    have hnone : [name].filterMap s.disk.site.held = [] := List.filterMap_cons_none hheld
    refine ⟨hreadable, ?_, ?_, rfl, hsite.symm, hfailures⟩
    · rw [hnone]
      rfl
    · rw [hnone]
      rfl
  | ok d =>
    rw [htext] at hheld
    have hone : [name].filterMap s.disk.site.held = [d] := List.filterMap_cons_some hheld
    refine ⟨hreadable, ?_, ?_, rfl, hsite.symm, hfailures⟩
    · rw [hone]
      rfl
    · rw [hone]
      rfl

/-- The first file is taken in before the others, unless it cannot be read. -/
theorem loadFiles_first {s : DirectoryStore} {name : String} (count : Nat)
    (h : FileName.isDefinition name = true →
      ∃ text disk, s.disk.run (Site.read name) = (.ok text, disk)) :
    ∃ more next, s.TookIn [name] count more next ∧ ∀ rest,
      (loadFiles count s (name :: rest)).result = (loadFiles more next rest).result ∧
        (loadFiles count s (name :: rest)).store = (loadFiles more next rest).store := by
  cases hname : FileName.isDefinition name with
  | false =>
    refine ⟨count, s, TookIn.pass s count hname, fun rest => ?_⟩
    simp [loadFiles, hname]
  | true =>
    obtain ⟨text, disk, hrun⟩ := h hname
    refine ⟨_, _, TookIn.take count hname hrun, fun rest => ?_⟩
    simp [loadFiles, hname, hrun]

/-- What has been loaded could be read. -/
theorem read_of_loadFiles {count n : Nat} {s : DirectoryStore} {name : String} {rest : List String}
    (h : (loadFiles count s (name :: rest)).result = .ok n)
    (hname : FileName.isDefinition name = true) :
    ∃ text disk, s.disk.run (Site.read name) = (.ok text, disk) := by
  rcases hrun : s.disk.run (Site.read name) with ⟨cause | text, disk⟩
  · simp only [loadFiles, hname, if_true, hrun] at h
    cases h
  · exact ⟨text, disk, rfl⟩

theorem took_in_of_loadFiles {count n : Nat} {s : DirectoryStore} {names : List String}
    (h : (loadFiles count s names).result = .ok n) :
    s.TookIn names count n (loadFiles count s names).store := by
  induction names generalizing count s with
  | nil =>
    cases h
    exact TookIn.nil s n
  | cons name rest ih =>
    obtain ⟨more, next, hfirst, hnext⟩ := loadFiles_first count (read_of_loadFiles h)
    obtain ⟨hresult, hstore⟩ := hnext rest
    rw [hresult] at h
    rw [hstore]
    exact hfirst.append (ih h)

/-- On a sound disk nothing but an unreadable file stops a load. -/
theorem loadFiles_sound {count : Nat} {s : DirectoryStore} {names : List String}
    (hsound : s.disk.failures = fun _ => none)
    (hreadable : ∀ name ∈ names, FileName.isDefinition name = true →
      ∃ text, s.disk.site.contents name = .ok text) :
    ∃ n, (loadFiles count s names).result = .ok n := by
  induction names generalizing count s with
  | nil => exact ⟨count, rfl⟩
  | cons name rest ih =>
    obtain ⟨hname, hrest⟩ := List.forall_mem_cons.mp hreadable
    have hread : FileName.isDefinition name = true →
        ∃ text disk, s.disk.run (Site.read name) = (.ok text, disk) := by
      intro hdefinition
      obtain ⟨text, hcontents⟩ := hname hdefinition
      refine ⟨text, { s.disk with turn := s.disk.turn + 1 }, ?_⟩
      simp only [Disk.run, hsound, Site.read_eq, hcontents, Except.map]
    obtain ⟨more, next, hfirst, hnext⟩ := loadFiles_first count hread
    rw [(hnext rest).1]
    exact ih (hfirst.failures.trans hsound) (hfirst.site ▸ hrest)

/-- A fresh store on a directory, after it has been loaded. -/
def reopened (path : String) (disk : Disk) : Attempt DirectoryStore Nat := (atPath path disk).load

/-- A load finds nothing, fails to list the directory, or goes through its files. -/
theorem load_cases (s : DirectoryStore) :
    let asked := { s.disk with turn := s.disk.turn + 1 }
    (¬ (s.disk.Responsive ∧ s.disk.site.isPresent = true) ∧
        s.load = ⟨{ s with disk := asked }, .ok 0, []⟩) ∨
      (∃ cause failed, asked.run Site.list = (.error cause, failed) ∧
        s.load = s.fail failed s.path cause) ∨
      ∃ names listed, asked.run Site.list = (.ok names, listed) ∧ s.disk.Responsive ∧
        s.load = loadFiles 0 { s with disk := listed } names := by
  intro asked
  unfold load
  rcases hask : s.disk.asks Site.look with ⟨b, after⟩
  obtain ⟨rfl, hanswer⟩ := Disk.asks_eq hask fun _ _ _ => Site.look_eq_ok
  rw [Site.isOk_look] at hanswer
  cases b with
  | false => exact .inl ⟨fun h => Bool.false_ne_true (hanswer.mpr h), rfl⟩
  | true =>
    simp only
    rcases Disk.run _ Site.list with ⟨cause | names, listed⟩
    · exact .inr (.inl ⟨cause, listed, rfl, rfl⟩)
    · exact .inr (.inr ⟨names, listed, rfl, (hanswer.mp rfl).1, rfl⟩)

theorem took_in_of_load {path : String} {disk : Disk} {n : Nat} (hresponsive : disk.Responsive)
    (h : (reopened path disk).result = .ok n) :
    (atPath path disk).TookIn (disk.site.entries.map (·.1)) 0 n (reopened path disk).store := by
  unfold reopened at h ⊢
  obtain ⟨hnothing, hload⟩ | ⟨cause, failed, -, hload⟩ | ⟨names, listed, hrun, -, hload⟩ :=
    load_cases (atPath path disk)
  · have hentries : disk.site.entries = [] := by
      cases hsite : disk.site with
      | directory entries =>
        have hpresent : (atPath path disk).disk.site.isPresent = true := congrArg Site.isPresent hsite
        exact absurd ⟨hresponsive, hpresent⟩ hnothing
      | _ => rfl
    rw [hload] at h ⊢
    cases h
    rw [hentries]
    exact ⟨List.forall_mem_nil _, rfl, rfl, rfl, rfl, rfl⟩
  · rw [hload] at h
    cases h
  · rw [hload] at h ⊢
    obtain ⟨hlist, hsound⟩ := Disk.run_eq_ok hrun
    obtain ⟨rfl, hlisted⟩ := Site.list_site hlist
    obtain ⟨hreadable, hnumber, hreports, hpath, hafter, hfailures⟩ := took_in_of_loadFiles h
    have hsite : (atPath path disk).disk.site = listed.site := hlisted.symm
    exact ⟨hsite ▸ hreadable, hsite ▸ hnumber, hsite ▸ hreports, hpath, hsite ▸ hafter,
      hfailures.trans hsound⟩

theorem load_sound (path : String) {site : Site} (hreadable : site.Readable)
    (hsite : site ≠ .file) : ∃ n, (reopened path (.sound site)).result = .ok n := by
  cases site with
  | file => exact absurd rfl hsite
  | directory entries => exact loadFiles_sound rfl hreadable
  | absent => exact ⟨0, rfl⟩
  | blocked cause => exact ⟨0, rfl⟩

/-! ## What is listed after a load -/

def byId (ds : List Definition) : List (String × Definition) := Keyed.ofList (ds.map fun d => (d.id, d))

theorem taken_nil (ds : List Definition) : taken [] ds = byId ds := by
  rw [taken, byId, Keyed.ofList, List.foldl_map]

theorem sorted_byId (ds : List Definition) : Keyed.Sorted (byId ds) := Keyed.sorted_ofList _

theorem keys_nodup {ds : List Definition} (h : (ds.map (·.id)).Nodup) :
    ((ds.map fun d => (d.id, d)).map (·.1)).Nodup := by
  rw [List.map_map]
  exact h

theorem mem_byId {ds : List Definition} (h : (ds.map (·.id)).Nodup) {e : String × Definition} :
    e ∈ byId ds ↔ e.2 ∈ ds ∧ e.1 = e.2.id := by
  rw [byId, Keyed.mem_ofList (keys_nodup h), List.mem_map]
  constructor
  · rintro ⟨d, hd, rfl⟩
    exact ⟨hd, rfl⟩
  · rintro ⟨hd, hid⟩
    exact ⟨e.2, hd, Prod.ext hid.symm rfl⟩

theorem values_byId_perm {ds : List Definition} (h : (ds.map (·.id)).Nodup) :
    ((byId ds).map (·.2)).Perm ds := by
  have hperm := (Keyed.ofList_perm (keys_nodup h)).map Prod.snd
  rw [List.map_map, Function.comp_def, List.map_id'] at hperm
  exact hperm

/-- Some of the definitions, picked before or after they are put under their ids. -/
theorem byId_filter {some all : List Definition} {p : Definition → Bool}
    (hsome : (some.map (·.id)).Nodup) (hall : (all.map (·.id)).Nodup)
    (h : ∀ d, d ∈ some ↔ d ∈ all ∧ p d = true) : byId some = (byId all).filter fun e => p e.2 := by
  refine Keyed.eq_of_sorted (sorted_byId some) (List.Pairwise.filter _ (sorted_byId all)) ?_
  intro e
  rw [List.mem_filter, mem_byId hsome, mem_byId hall, h]
  tauto

section Reopened

variable {path : String} {disk : Disk} {n : Nat}

theorem reopened_reports (hresponsive : disk.Responsive) (h : (reopened path disk).result = .ok n) :
    (reopened path disk).store.reports = byId disk.site.found := by
  rw [(took_in_of_load hresponsive h).reports]
  exact taken_nil _

/-- What is listed after a load is what was found, each definition once. -/
theorem list_reopened_perm (hdistinct : disk.site.Distinct) (hresponsive : disk.Responsive)
    (h : (reopened path disk).result = .ok n) :
    (ReportStore.list (reopened path disk).store).Perm disk.site.found := by
  show ((reopened path disk).store.reports.map (·.2)).Perm _
  rw [reopened_reports hresponsive h]
  exact values_byId_perm hdistinct.found_ids

/-- The number that a load tells is that of the definitions that are listed after it. -/
theorem number_reopened (hdistinct : disk.site.Distinct) (hresponsive : disk.Responsive)
    (h : (reopened path disk).result = .ok n) :
    n = (ReportStore.list (reopened path disk).store).length := by
  rw [(list_reopened_perm hdistinct hresponsive h).length_eq,
    (took_in_of_load hresponsive h).number, Nat.zero_add]
  rfl

end Reopened

end DirectoryStore

end ReportFlow
