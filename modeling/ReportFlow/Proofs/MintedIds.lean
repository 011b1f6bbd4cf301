import Mathlib.Algebra.Group.Nat.Defs
import Mathlib.Data.List.DropRight
import ReportFlow.Compilation
import ReportFlow.Proofs.NewReports
import ReportFlow.Proofs.Sequencing

/-!
Ids that are minted one after the other. Stems and report ids are any texts, which may end in
hyphens and numbers themselves. Still no id comes twice: what follows the last hyphen is the count,
and no two calls have the same.
-/

namespace ReportFlow

def serial (id : String) : Nat := Nat.ofDigitChars 10 (id.toList.rtakeWhile Char.isDigit) 0

/-- A hyphen is no digit: what stands in front of one does not matter. -/
theorem serial_behind (front id : String) : serial (front ++ "-" ++ id) = serial id := by
  have htoList : (front ++ "-" ++ id).toList = front.toList ++ '-' :: id.toList := by simp
  have htail : (front.toList ++ '-' :: id.toList).rtakeWhile Char.isDigit =
      id.toList.rtakeWhile Char.isDigit := by
    have hhyphen : ('-' :: front.toList.reverse).takeWhile Char.isDigit = [] := rfl
    rw [List.rtakeWhile, List.rtakeWhile, List.reverse_append, List.reverse_cons, List.append_assoc,
      List.singleton_append, List.takeWhile_append, hhyphen]
    split
    case isTrue hall => rw [List.append_nil, (List.takeWhile_prefix _).eq_of_length hall]
    case isFalse => rfl
  rw [serial, htoList, htail, serial]

theorem serial_toString (k : Nat) : serial (toString k) = k := by
  have hdigits : ∀ c ∈ Nat.toDigits 10 k, c.isDigit = true := fun c hc =>
    Nat.isDigit_of_mem_toDigits (by decide) (by decide) hc
  rw [serial, Nat.toString_eq_repr, Nat.toList_repr, List.rtakeWhile_eq_self_iff.mpr hdigits,
    Nat.ofDigitChars_ten_toDigits]

/-- Ids that end in the numbers behind `n`, each in one more than the id before it. -/
def Numbered (n : Nat) (ids : List String) : Prop := ids.map serial = List.range' (n + 1) ids.length

namespace Numbered

variable {n : Nat} {id : String} {ids more : List String}

theorem nil (n : Nat) : Numbered n [] := rfl

theorem cons_iff : Numbered n (id :: ids) ↔ serial id = n + 1 ∧ Numbered (n + 1) ids := by
  rw [Numbered, List.map_cons, List.length_cons, List.range'_succ, List.cons.injEq]
  rfl

theorem append (h : Numbered n ids) (hmore : Numbered (n + ids.length) more) :
    Numbered n (ids ++ more) := by
  have hnext : n + ids.length + 1 = n + 1 + 1 * ids.length := by omega
  rw [Numbered, hnext] at hmore
  rw [Numbered, List.map_append, h, hmore, List.length_append, List.range'_append]

/-- The numbers tell the ids apart. -/
theorem nodup (h : Numbered n ids) : ids.Nodup := by
  have hnumbers : (ids.map serial).Nodup := by
    rw [h]
    exact List.nodup_range' 1
  exact hnumbers.of_map serial

/-- Report ids in front leave the numbers as they are. -/
theorem behind (h : Numbered n ids) (reports : List String) :
    Numbered n (List.zipWith (fun report id => report ++ "-" ++ id) reports ids) := by
  induction reports generalizing n ids with
  | nil => exact nil n
  | cons report reports ih =>
    cases ids with
    | nil => exact nil n
    | cons id ids =>
      obtain ⟨hfirst, hrest⟩ := cons_iff.mp h
      rw [List.zipWith_cons_cons, cons_iff, serial_behind]
      exact ⟨hfirst, ih hrest⟩

end Numbered

/-! ## Counting sources -/

namespace IdSource

/-- The same ids with the count in a word of 64 bits, which starts over when it is full. -/
def word : IdSource := fun n stem => stem ++ "-" ++ toString (UInt64.ofNat n + 1).toNat

/-- A source that puts the number of the call behind the stem, for as many calls. -/
def Counts (ids : IdSource) (calls : Nat) : Prop :=
  ∀ n < calls, ∀ stem, ids n stem = stem ++ "-" ++ toString (n + 1)

theorem Counts.mono {ids : IdSource} {m n : Nat} (h : ids.Counts n) (hle : m ≤ n) : ids.Counts m :=
  fun k hk => h k (hk.trans_le hle)

theorem sequential_counts (calls : Nat) : sequential.Counts calls := fun _ _ _ => rfl

theorem word_counts {calls : Nat} (h : calls < 2 ^ 64) : word.Counts calls := by
  intro n hn stem
  have hvalue : (UInt64.ofNat n + 1).toNat = n + 1 := by
    rw [UInt64.toNat_add, UInt64.toNat_ofNat', UInt64.toNat_one]
    omega
  rw [word, hvalue]

end IdSource

namespace Sources

def mintAll (s : Sources) : List String → List String
  | [] => []
  | stem :: rest => s.nextId stem :: s.mint.mintAll rest

theorem length_mintAll (s : Sources) (stems : List String) :
    (s.mintAll stems).length = stems.length := by
  induction stems generalizing s with
  | nil => rfl
  | cons stem rest ih => rw [mintAll, List.length_cons, ih, List.length_cons]

variable {s s' s'' : Sources} {made more : List String}

theorem serial_nextId (h : s.ids.Counts (s.minted + 1)) (stem : String) :
    serial (s.nextId stem) = s.minted + 1 := by
  rw [nextId, h s.minted (Nat.lt_succ_self _), serial_behind, serial_toString]

theorem numbered_mintAll (stems : List String) (h : s.ids.Counts (s.minted + stems.length)) :
    Numbered s.minted (s.mintAll stems) := by
  induction stems generalizing s with
  | nil => exact .nil s.minted
  | cons stem rest ih =>
    rw [List.length_cons] at h
    have hrest : s.mint.ids.Counts (s.mint.minted + rest.length) := by
      refine h.mono ?_
      show s.minted + 1 + rest.length ≤ _
      omega
    exact Numbered.cons_iff.mpr ⟨serial_nextId (h.mono (by omega)) stem, ih hrest⟩

structure Advances (s s' : Sources) (made : List String) : Prop where
  ids : s'.ids = s.ids
  minted : s'.minted = s.minted + made.length
  numbered : s.ids.Counts s'.minted → Numbered s.minted made

namespace Advances

theorem nothing (hids : s'.ids = s.ids) (hminted : s'.minted = s.minted) : s.Advances s' [] :=
  ⟨hids, hminted, fun _ => .nil s.minted⟩

/-- A minted id, or one with a minted id at its end. -/
theorem one {id stem : String} (hids : s'.ids = s.ids) (hminted : s'.minted = s.minted + 1)
    (hid : serial id = serial (s.nextId stem)) : s.Advances s' [id] where
  ids := hids
  minted := hminted
  numbered hcounts := by
    rw [hminted] at hcounts
    exact Numbered.cons_iff.mpr ⟨hid.trans (serial_nextId hcounts stem), .nil _⟩

theorem trans (h : s.Advances s' made) (h' : s'.Advances s'' more) :
    s.Advances s'' (made ++ more) where
  ids := h'.ids.trans h.ids
  minted := by rw [h'.minted, h.minted, List.length_append, Nat.add_assoc]
  numbered hcounts := by
    have hfirst : s.ids.Counts s'.minted := hcounts.mono (h'.minted ▸ Nat.le_add_right _ _)
    have hsecond : Numbered s'.minted more := h'.numbered (h.ids ▸ hcounts)
    rw [h.minted] at hsecond
    exact (h.numbered hfirst).append hsecond

end Advances

end Sources

/-! ## Sessions -/

namespace Library

inductive Request where
  | save (d : Definition)
  | delete (id : String)
  | duplicate (id : String) (name : Option String)
  | importText (text : String)
  | exportBundle
  | compile (flow : Flow) (prior : Option Prior)
  | blank (name primaryEntity : String)
  | sample

variable {σ : Type} [ReportStore σ]

def perform (l : Library σ) : Request → Library σ
  | .save d => (l.save d).library
  | .delete id => (l.delete id).library
  | .duplicate id name => (l.duplicate id name).library
  | .importText text => (l.importText text).library
  | .exportBundle => l.afterExport
  | .compile flow prior => { l with sources := (flow.compile prior l.sources).sources }
  | .blank name entity => { l with sources := (Definition.blank name entity l.sources).2 }
  | .sample => { l with sources := (Definition.sample l.sources).2 }

def performAll (l : Library σ) (requests : List Request) : Library σ := requests.foldl perform l

/-- The id that an import makes up for a record, because its own is taken. -/
def renamedId? (l : Library σ) (record : Json) : Option String :=
  match Record.definition record l.sources.now with
  | .error _ => none
  | .ok d =>
    if ReportStore.contains l.store d.id then some (Record.renamed d l.sources.tick).id else none

def renamedIds (l : Library σ) : List Json → List String
  | [] => []
  | record :: rest => (l.renamedId? record).toList ++ (l.importRecord record).library.renamedIds rest

def made (l : Library σ) : Request → List String
  | .save _ | .delete _ | .exportBundle => []
  | .duplicate id name => ((l.get? id).map fun report => (copyOf report name l.sources).id).toList
  | .importText text => l.renamedIds (recordsOf text)
  | .compile flow prior =>
    if (Compilation.nonEmpty (prior.getD .none).id).isNone then
      [(flow.compile prior l.sources).definition.id]
    else []
  | .blank name entity => [(Definition.blank name entity l.sources).1.id]
  | .sample => [(Definition.sample l.sources).1.id]

def madeAll (l : Library σ) : List Request → List String
  | [] => []
  | request :: rest => l.made request ++ (l.perform request).madeAll rest

variable (l : Library σ)

/-- A record that is put has an id that was free, or the one that is made up for it. Only then is an
id minted. -/
theorem made_importRecord (record : Json) :
    (l.renamedId? record = none ∧
      ((l.importRecord record).library.sources = l.sources ∨
        (l.importRecord record).library.sources = l.sources.tick) ∧
      ∀ id, (l.importRecord record).result = .ok id → ReportStore.contains l.store id = false) ∨
    ∃ made, l.renamedId? record = some made ∧ serial made = serial (l.sources.nextId "imported") ∧
      (l.importRecord record).library.sources = l.sources.tick.mint ∧
      ∀ id, (l.importRecord record).result = .ok id → id = made := by
  rw [importRecord, renamedId?]
  by_cases hcomplete : Record.isComplete record = true
  · rw [hcomplete]
    cases hread : Record.definition record l.sources.now with
    | error e =>
      refine .inl ⟨rfl, .inr rfl, fun id hid => ?_⟩
      cases hid
    | ok d =>
      by_cases htaken : ReportStore.contains l.store d.id = true
      · simp only [htaken]
        refine .inr ⟨_, rfl, serial_behind d.id _, rfl, fun id hid => ?_⟩
        obtain ⟨-, -, hrenamed⟩ := map_eq_ok_iff.mp hid
        exact hrenamed.symm
      · simp only [htaken]
        refine .inl ⟨rfl, .inr rfl, fun id hid => ?_⟩
        obtain ⟨-, -, rfl⟩ := map_eq_ok_iff.mp hid
        exact eq_false_of_ne_true htaken
  · rw [Record.definition, if_neg hcomplete, eq_false_of_ne_true hcomplete]
    refine .inl ⟨rfl, .inl rfl, fun id hid => ?_⟩
    cases hid

theorem library_importText (text : String) :
    (l.importText text).library = (l.importRecords 1 (recordsOf text)).library := by
  rw [importText, recordsOf, recordsOf?]
  cases Json.ofText text with
  | error fault => rfl
  | ok document =>
    simp only [importDocument]
    cases (document.get? "reports").bind Json.items? with
    | none => rfl
    | some records =>
      simp only [Option.getD_some]
      split <;> rfl

theorem importRecord_advances (record : Json) :
    l.sources.Advances (l.importRecord record).library.sources (l.renamedId? record).toList := by
  rcases l.made_importRecord record with ⟨hnone, hkept | hticked, -⟩ | ⟨id, hsome, hid, hminted, -⟩
  · rw [hnone, hkept]
    exact .nothing rfl rfl
  · rw [hnone, hticked]
    exact .nothing rfl rfl
  · rw [hsome, hminted]
    exact .one rfl rfl hid

theorem importRecords_advances (number : Nat) (records : List Json) :
    l.sources.Advances (l.importRecords number records).library.sources (l.renamedIds records) := by
  induction records generalizing l number with
  | nil => exact .nothing rfl rfl
  | cons record rest ih =>
    have hrest := ih (l.importRecord record).library (number + 1)
    have hboth := (l.importRecord_advances record).trans hrest
    rw [importRecords, renamedIds]
    split
    · exact hboth
    · exact hboth

theorem compile_advances (flow : Flow) (prior : Option Prior) (s : Sources) :
    s.Advances (flow.compile prior s).sources
      (if (Compilation.nonEmpty (prior.getD .none).id).isNone then
        [(flow.compile prior s).definition.id] else []) := by
  cases hprior : Compilation.nonEmpty (prior.getD .none).id with
  | none =>
    have hid : (flow.compile prior s).definition.id = s.nextId "report" := by
      simp [Flow.compile, Compilation.definition, hprior]
    have hsources : (flow.compile prior s).sources = s.mint.tick := by
      simp [Flow.compile, hprior]
    rw [hid, hsources]
    exact .one rfl rfl rfl
  | some id =>
    have hsources : (flow.compile prior s).sources = s.tick := by
      simp [Flow.compile, hprior]
    rw [hsources]
    exact .nothing rfl rfl

/-- Every request takes one number for each id that it makes up. -/
theorem perform_advances (request : Request) :
    l.sources.Advances (l.perform request).sources (l.made request) := by
  cases request with
  | save d => exact .nothing rfl rfl
  | delete id => exact .nothing rfl rfl
  | exportBundle => exact .nothing rfl rfl
  | duplicate id name =>
    rw [perform, duplicate, made]
    cases l.get? id with
    | none => exact .nothing rfl rfl
    | some report => exact .one rfl rfl (serial_behind report.id _)
  | importText text =>
    rw [perform, library_importText]
    exact l.importRecords_advances 1 (recordsOf text)
  | compile flow prior => exact compile_advances flow prior l.sources
  | blank name entity => exact .one rfl rfl rfl
  | sample => exact .one rfl rfl rfl

theorem performAll_advances (requests : List Request) :
    l.sources.Advances (l.performAll requests).sources (l.madeAll requests) := by
  induction requests generalizing l with
  | nil => exact .nothing rfl rfl
  | cons request rest ih => exact (l.perform_advances request).trans (ih (l.perform request))

end Library

/-- A new source, asked fewer times than a word counts, mints no id twice; nor do ids repeat with
report ids in front of them, nor those that the requests to a library make up. -/
theorem Library.ids_never_repeat {ids : IdSource} (hids : ids = .sequential ∨ ids = .word)
    (clock : Clock) :
    (∀ stems : List String, stems.length < 2 ^ 64 →
      let minted := (Sources.start clock ids).mintAll stems
      minted.length = stems.length ∧ Numbered 0 minted ∧ minted.Nodup ∧
        ∀ reports : List String,
          (List.zipWith (fun report id => report ++ "-" ++ id) reports minted).Nodup) ∧
    ∀ {σ : Type} [ReportStore σ] (store : σ) (requests : List Request),
      let l : Library σ := ⟨store, .start clock ids⟩
      (l.performAll requests).sources.minted < 2 ^ 64 →
        (l.madeAll requests).length = (l.performAll requests).sources.minted ∧
          Numbered 0 (l.madeAll requests) ∧ (l.madeAll requests).Nodup := by
  have hcounts : ∀ calls, calls < 2 ^ 64 → ids.Counts calls := by
    intro calls hcalls
    rcases hids with rfl | rfl
    · exact IdSource.sequential_counts calls
    · exact IdSource.word_counts hcalls
  constructor
  · intro stems hstems minted
    have hnumbered : Numbered 0 minted := by
      refine Sources.numbered_mintAll stems (hcounts _ ?_)
      rwa [Sources.start, Nat.zero_add]
    exact ⟨Sources.length_mintAll _ stems, hnumbered, hnumbered.nodup, fun reports =>
      (hnumbered.behind reports).nodup⟩
  · intro σ _ store requests l hminted
    have hadvances := l.performAll_advances requests
    have hnumbered : Numbered 0 (l.madeAll requests) := hadvances.numbered (hcounts _ hminted)
    refine ⟨?_, hnumbered, hnumbered.nodup⟩
    rw [hadvances.minted]
    exact (Nat.zero_add _).symm

namespace Sample

def copying : List Library.Request :=
  [.duplicate "a" none, .importText parcel, .blank "Staff" "employee", .delete "a-copy-1",
    .duplicate "a-imported-1" (some "Staff"), .sample]

end Sample

/-- The library holds a report under the first id already; the ids made up still differ. -/
theorem Library.ids_never_repeat_crowded :
    (Sources.start (.fixed ⟨0, 0, 0⟩) .sequential).mintAll ["report", "a-1", "", "a-1-2"] =
        ["report-1", "a-1-2", "-3", "a-1-2-4"] ∧
      ["a-1-report-1", "a-a-1-2", "a---3", "-a-1-2-4"].Nodup ∧
      Sample.crowded.madeAll Sample.copying =
        ["a-copy-1", "a-imported-2", "report-3", "a-imported-1-copy-4", "sample-report-5"] ∧
      (Sample.crowded.madeAll Sample.copying).Nodup := by
  obtain ⟨hstems, hrequests⟩ := ids_never_repeat (.inl rfl) (.fixed ⟨0, 0, 0⟩)
  obtain ⟨-, -, -, hcomposite⟩ := hstems ["report", "a-1", "", "a-1-2"] (by decide)
  obtain ⟨-, -, hmade⟩ := hrequests Sample.crowded.store Sample.copying (by decide +kernel)
  exact ⟨by decide +kernel, hcomposite ["a-1", "a", "a-", ""], by decide +kernel, hmade⟩

end ReportFlow
