import ReportFlow.Proofs.ObtainedReports
import ReportFlow.Proofs.RoundTrip
import ReportFlow.Structure.Validation

/-!
A report that is edited over and over: flows are drawn or reopened, looked over and saved. Every save
is a new version, stamped with a reading of the clock of its own, and leaves the report what it was:
only an id, a name or a description that is empty is filled in, by the first save.
-/

namespace ReportFlow

structure Title where
  id : String
  name : String
  description : String
  deriving DecidableEq

namespace Definition

def title (d : Definition) : Title := ⟨d.id, d.name, d.description⟩

structure IsTitled (d : Definition) : Prop where
  id : d.id ≠ ""
  name : d.name ≠ ""
  description : d.description ≠ ""

/-- What the report is known by once it has been saved: an empty id gives way to a minted one, an
empty name or description to the usual one. -/
def savedTitle (d : Definition) (s : Sources) : Title where
  id := if d.id = "" then s.nextId "report" else d.id
  name := if d.name = "" then "Untitled Report" else d.name
  description := if d.description = "" then "Generated from flow builder" else d.description

structure KeepsSettings (d d' : Definition) : Prop where
  owner : d'.owner = d.owner
  categoryId : d'.categoryId = d.categoryId
  tags : d'.tags = d.tags
  createdAt : d'.createdAt = d.createdAt
  security : d'.security = d.security
  parameters : d'.parameters = d.parameters
  limits : d'.limits = d.limits
  artifacts : d'.artifacts = d.artifacts

variable {d d' d'' : Definition}

theorem KeepsSettings.refl (d : Definition) : d.KeepsSettings d :=
  ⟨rfl, rfl, rfl, rfl, rfl, rfl, rfl, rfl⟩

theorem KeepsSettings.trans (h : d.KeepsSettings d') (h' : d'.KeepsSettings d'') :
    d.KeepsSettings d'' where
  owner := h'.owner.trans h.owner
  categoryId := h'.categoryId.trans h.categoryId
  tags := h'.tags.trans h.tags
  createdAt := h'.createdAt.trans h.createdAt
  security := h'.security.trans h.security
  parameters := h'.parameters.trans h.parameters
  limits := h'.limits.trans h.limits
  artifacts := h'.artifacts.trans h.artifacts

theorem savedTitle_of_isTitled (h : d.IsTitled) (s : Sources) : d.savedTitle s = d.title := by
  simp [savedTitle, title, h.id, h.name, h.description]

theorem isTitled_of_title_eq (h : d.IsTitled) (heq : d'.title = d.title) : d'.IsTitled := by
  obtain ⟨hid, hname, hdescription⟩ := Title.mk.inj heq
  exact ⟨hid ▸ h.id, hname ▸ h.name, hdescription ▸ h.description⟩

theorem isTitled_of_savedTitle {s : Sources} (hid : d.id = "" → s.nextId "report" ≠ "")
    (heq : d'.title = d.savedTitle s) : d'.IsTitled := by
  obtain ⟨hid', hname, hdescription⟩ := Title.mk.inj heq
  constructor
  · rw [hid']
    split
    · exact hid ‹_›
    · assumption
  · rw [hname]
    split
    · decide
    · assumption
  · rw [hdescription]
    split
    · decide
    · assumption

end Definition

/-! ## One save -/

namespace Compilation

theorem getD_nonEmpty (text other : String) :
    (nonEmpty (some text)).getD other = if text = "" then other else text := by
  by_cases h : text = "" <;> simp [nonEmpty, Option.filter_some, h]

variable (g : Flow) (d : Definition) (s : Sources)

theorem title_recompile : (g.recompile d s).definition.title = d.savedTitle s := by
  change Title.mk ((nonEmpty (some d.id)).getD _) ((nonEmpty (some d.name)).getD _)
    ((nonEmpty (some d.description)).getD _) = _
  rw [getD_nonEmpty, getD_nonEmpty, getD_nonEmpty]
  rfl

theorem keepsSettings_recompile : d.KeepsSettings (g.recompile d s).definition :=
  ⟨rfl, rfl, rfl, rfl, rfl, rfl, rfl, rfl⟩

/-- The clock is read once. An id is minted only where there was none. -/
theorem sources_recompile : (g.recompile d s).sources =
    { s with readings := s.readings + 1, minted := s.minted + if d.id = "" then 1 else 0 } := by
  by_cases h : d.id = "" <;>
    simp [Flow.recompile, Flow.compile, Prior.ofDefinition, nonEmpty, Option.filter_some,
      Sources.mint, Sources.tick, h]

end Compilation

/-! ## Editing -/

structure Desk where
  flow : Flow
  definition : Definition
  sources : Sources

inductive Edit where
  | draw (g : Flow)
  | reopen
  | validate
  | save

namespace Edit

def isSave : Edit → Bool
  | save => true
  | _ => false

def saves (edits : List Edit) : Nat := edits.countP isSave

theorem saves_cons (e : Edit) (rest : List Edit) :
    saves (e :: rest) = saves rest + if e.isSave then 1 else 0 :=
  List.countP_cons

theorem eq_save {e : Edit} (h : e.isSave = true) : e = save := by
  cases e with
  | save => rfl
  | _ => cases h

end Edit

namespace Desk

/-- A definition that cannot be reopened leaves the flow as it was, and validating only looks. -/
def step (s : Desk) : Edit → Desk
  | .draw g => { s with flow := g }
  | .reopen =>
    match s.definition.reopen with
    | .ok g => { s with flow := g }
    | .error _ => s
  | .validate => s
  | .save =>
    let saved := s.flow.recompile s.definition s.sources
    { s with definition := saved.definition, sources := saved.sources }

def run (s : Desk) (edits : List Edit) : Desk := edits.foldl step s

structure Progress (n : Nat) (s t : Desk) : Prop where
  settings : s.definition.KeepsSettings t.definition
  version : t.definition.reportVersion = s.definition.reportVersion + UInt32.ofNat n
  clock : t.sources.clock = s.sources.clock
  readings : t.sources.readings = s.sources.readings + n
  updated : t.definition.updatedAt =
    if n = 0 then s.definition.updatedAt else s.sources.clock (s.sources.readings + n - 1)
  titled : s.definition.IsTitled →
    t.definition.title = s.definition.title ∧ t.sources.minted = s.sources.minted

structure Unsaved (s t : Desk) : Prop where
  definition : t.definition = s.definition
  sources : t.sources = s.sources

variable {s t u : Desk} {e : Edit} {m n : Nat}

theorem Unsaved.progress (h : Unsaved s t) : Progress 0 s t := by
  obtain ⟨hd, hs⟩ := h
  constructor
  · rw [hd]
    exact .refl _
  · rw [hd]
    simp
  · rw [hs]
  · rw [hs]
    rfl
  · rw [if_pos rfl, hd]
  · intro _
    rw [hd, hs]
    exact ⟨rfl, rfl⟩

theorem Unsaved.trans (h : Unsaved s t) (h' : Unsaved t u) : Unsaved s u :=
  ⟨h'.definition.trans h.definition, h'.sources.trans h.sources⟩

theorem Progress.trans (h : Progress m s t) (h' : Progress n t u) : Progress (m + n) s u := by
  constructor
  · exact h.settings.trans h'.settings
  · rw [h'.version, h.version, UInt32.ofNat_add, UInt32.add_assoc]
  · rw [h'.clock, h.clock]
  · rw [h'.readings, h.readings, Nat.add_assoc]
  · rw [h'.updated, h.updated, h.clock, h.readings]
    by_cases hn : n = 0
    · simp [hn]
    · rw [if_neg hn, if_neg (by omega), Nat.add_assoc]
  · intro hs
    obtain ⟨htitle, hminted⟩ := h.titled hs
    obtain ⟨htitle', hminted'⟩ := h'.titled (Definition.isTitled_of_title_eq hs htitle)
    exact ⟨htitle'.trans htitle, hminted'.trans hminted⟩

theorem unsaved_step (s : Desk) (h : e.isSave = false) : Unsaved s (s.step e) := by
  cases e with
  | draw g => exact ⟨rfl, rfl⟩
  | reopen =>
    unfold step
    cases s.definition.reopen with
    | ok g => exact ⟨rfl, rfl⟩
    | error e => exact ⟨rfl, rfl⟩
  | validate => exact ⟨rfl, rfl⟩
  | save => cases h

theorem progress_save (s : Desk) : Progress 1 s (s.step .save) := by
  have hsources : (s.step .save).sources = _ :=
    Compilation.sources_recompile s.flow s.definition s.sources
  constructor
  · exact Compilation.keepsSettings_recompile ..
  · rfl
  · rw [hsources]
  · rw [hsources]
  · rfl
  · intro h
    constructor
    · rw [← Definition.savedTitle_of_isTitled h s.sources]
      exact Compilation.title_recompile ..
    · rw [hsources, if_neg h.id]
      rfl

theorem progress_run (s : Desk) (edits : List Edit) :
    Progress (Edit.saves edits) s (s.run edits) := by
  induction edits generalizing s with
  | nil => exact Unsaved.progress ⟨rfl, rfl⟩
  | cons e rest ih =>
    have hrest : Progress _ (s.step e) (s.run (e :: rest)) := ih (s.step e)
    rw [Edit.saves_cons, Nat.add_comm]
    by_cases he : e.isSave = true
    · obtain rfl := Edit.eq_save he
      exact (progress_save s).trans hrest
    · rw [if_neg he]
      exact (unsaved_step s (Bool.eq_false_iff.mpr he)).progress.trans hrest

theorem unsaved_run (s : Desk) {edits : List Edit} (h : Edit.saves edits = 0) :
    Unsaved s (s.run edits) := by
  induction edits generalizing s with
  | nil => exact ⟨rfl, rfl⟩
  | cons e rest ih =>
    rw [Edit.saves_cons] at h
    have he : e.isSave = false := by
      by_contra hsave
      simp [hsave] at h
    have hrest : Unsaved (s.step e) ((s.step e).run rest) := ih _ (by omega)
    exact (unsaved_step s he).trans hrest

/-- A save fills in what is empty, and those after it find nothing to fill in, unless the id that
was minted is empty itself. -/
theorem title_run_of_save (s : Desk) {rest : List Edit}
    (hid : Edit.saves rest = 0 ∨ (s.definition.id = "" → s.sources.nextId "report" ≠ "")) :
    ((s.step .save).run rest).definition.title = s.definition.savedTitle s.sources ∧
      ((s.step .save).run rest).sources.minted =
        s.sources.minted + if s.definition.id = "" then 1 else 0 := by
  have htitle : (s.step .save).definition.title = s.definition.savedTitle s.sources :=
    Compilation.title_recompile ..
  have hsources : (s.step .save).sources = _ :=
    Compilation.sources_recompile s.flow s.definition s.sources
  rcases hid with hlast | hminted
  · obtain ⟨hd, hs⟩ := unsaved_run (s.step .save) hlast
    rw [hd, hs, htitle, hsources]
    exact ⟨rfl, rfl⟩
  · have htitled := Definition.isTitled_of_savedTitle hminted htitle
    obtain ⟨hkept, hnone⟩ := (progress_run (s.step .save) rest).titled htitled
    rw [hkept, hnone, htitle, hsources]
    exact ⟨rfl, rfl⟩

theorem title_run (s : Desk) {edits : List Edit} (hsaved : 0 < Edit.saves edits)
    (hid : Edit.saves edits = 1 ∨ (s.definition.id = "" → s.sources.nextId "report" ≠ "")) :
    (s.run edits).definition.title = s.definition.savedTitle s.sources ∧
      (s.run edits).sources.minted =
        s.sources.minted + if s.definition.id = "" then 1 else 0 := by
  induction edits generalizing s with
  | nil => exact absurd hsaved (Nat.lt_irrefl 0)
  | cons e rest ih =>
    change ((s.step e).run rest).definition.title = _ ∧ ((s.step e).run rest).sources.minted = _
    rw [Edit.saves_cons] at hsaved hid
    by_cases he : e.isSave = true
    · rw [if_pos he] at hid
      obtain rfl := Edit.eq_save he
      apply title_run_of_save
      exact hid.imp_left Nat.succ.inj
    · rw [if_neg he] at hsaved hid
      obtain ⟨hd, hs⟩ := unsaved_step s (Bool.eq_false_iff.mpr he)
      rw [← hd, ← hs] at hid ⊢
      exact ih _ hsaved hid

/-- However often a report is edited and saved, its settings stay, each save counts its version up
by one and is stamped with a clock reading of its own, and what it is known by is filled in once at
most. -/
theorem identity_kept (s : Desk) (edits : List Edit)
    (hversion : s.definition.reportVersion.toNat + Edit.saves edits < UInt32.size) :
    let n := Edit.saves edits
    let t := s.run edits
    s.definition.KeepsSettings t.definition ∧
    t.definition.reportVersion.toNat = s.definition.reportVersion.toNat + n ∧
    t.sources.readings = s.sources.readings + n ∧
    t.definition.updatedAt =
      (if n = 0 then s.definition.updatedAt else s.sources.clock (s.sources.readings + n - 1)) ∧
    (s.definition.IsTitled →
      t.definition.title = s.definition.title ∧ t.sources.minted = s.sources.minted) ∧
    (0 < n → n = 1 ∨ (s.definition.id = "" → s.sources.nextId "report" ≠ "") →
      t.definition.title = s.definition.savedTitle s.sources ∧
      t.sources.minted = s.sources.minted + if s.definition.id = "" then 1 else 0) := by
  intro n t
  have h : Progress n s t := progress_run s edits
  refine ⟨h.settings, ?_, h.readings, h.updated, h.titled, title_run s⟩
  rw [h.version, UInt32.toNat_add, UInt32.toNat_ofNat', Nat.add_mod_mod, Nat.mod_eq_of_lt hversion]

end Desk

namespace Sample

def untitled : Desk where
  flow := .empty
  definition := { (Definition.blank "" "account" sources).1 with id := "" }
  sources := .start (.stepping ⟨0, 0, 0⟩ 60) .sequential

def twoSaves : List Edit := [.draw draft, .save, .reopen, .validate, .save]

end Sample

theorem Desk.identity_kept_untitled :
    Sample.untitled.definition.reportVersion.toNat + Edit.saves Sample.twoSaves < UInt32.size ∧
      let t := Sample.untitled.run Sample.twoSaves
      t.definition.title = ⟨"report-1", "Untitled Report", "Generated from flow builder"⟩ ∧
        t.sources.minted = 1 ∧ t.definition.reportVersion.toNat = 3 ∧
        t.definition.updatedAt = Sample.untitled.sources.clock 1 := by
  have hversion :
      Sample.untitled.definition.reportVersion.toNat + Edit.saves Sample.twoSaves < UInt32.size := by
    decide
  have hid : Sample.untitled.sources.nextId "report" ≠ "" := by decide
  obtain ⟨_, hcount, _, hupdated, _, hfilled⟩ :=
    identity_kept Sample.untitled Sample.twoSaves hversion
  obtain ⟨htitle, hminted⟩ := hfilled (by decide) (.inr fun _ => hid)
  exact ⟨hversion, htitle, hminted, hcount, hupdated⟩

end ReportFlow
