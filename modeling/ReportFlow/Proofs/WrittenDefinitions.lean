import ReportFlow.Proofs.ObtainedReports

/-!
Definitions that were read, made or compiled are read back from what is written of them: always as a
free value, and from a text as long as no more containers stand inside each other than a reader opens.
That is so for whatever was read from a text; but a compilation puts the conditions of a filter one
container deeper than the flow had them.
-/

namespace ReportFlow

structure Prior.Read (prior : Prior) : Prop where
  parameters : ∀ ps ∈ prior.parameters, ∃ o s, (Codec.list Parameter.codec).decode o s = .ok ps
  artifacts : ∀ a ∈ prior.artifacts, ∃ o s, Artifacts.codec.decode o s = .ok a

namespace Definition

def start : Sources := .start (.fixed ⟨0, 0, 0⟩) .sequential

def holding (parameters : List Parameter) (artifacts : Option Artifacts) : Definition :=
  { (blank "" "" start).1 with parameters := parameters, artifacts := artifacts }

/-- Whatever is well formed can be read. -/
theorem obtained_holding {parameters : List Parameter} {artifacts : Option Artifacts}
    (hparameters : ∀ p ∈ parameters, p.WellFormed) (hartifacts : ∀ a ∈ artifacts, a.WellFormed) :
    (holding parameters artifacts).Obtained := by
  have hformed : (holding parameters artifacts).WellFormed :=
    ⟨hparameters, List.forall_mem_nil _, hartifacts⟩
  have htime : start.now.ReadsBack := by decide +kernel
  exact .decoded ((restores hformed htime htime).value .value)

/-- What is compiled from a flow that was read, over parts that were read. -/
theorem Obtained.compiled_of_read {o : Origin} {s : Source} {g : Flow} {prior : Option Prior}
    (hg : Flow.codec.decode o s = .ok g) (hprior : ∀ p ∈ prior, p.Read) (sources : Sources) :
    (g.compile prior sources).definition.Obtained := by
  have hflow := Flow.wellFormed_of_decode hg
  have hread : (prior.getD .none).Read := by
    cases prior with
    | none => exact ⟨nofun, nofun⟩
    | some p => exact hprior p rfl
  have hparameters : ∀ p ∈ (prior.getD .none).parameters.getD [], p.WellFormed := by
    cases hps : (prior.getD .none).parameters with
    | none => exact List.forall_mem_nil _
    | some ps =>
      obtain ⟨o, s, hdecoded⟩ := hread.parameters ps hps
      exact (Codec.lawful_list (Parameter.lawful (n := 0))).good hdecoded
  have hartifacts : ∀ a ∈ (prior.getD .none).artifacts, a.WellFormed := by
    intro a ha
    obtain ⟨o, s, hdecoded⟩ := hread.artifacts a ha
    exact (Artifacts.lawful (n := 0)).good hdecoded
  have hsame : ∀ ps ∈ (prior.getD .none).parameters, ps = (prior.getD .none).parameters.getD [] := by
    intro ps hps
    rw [Option.mem_def.mp hps]
    rfl
  exact .compiled sources hflow (obtained_holding hparameters hartifacts) hsame fun a ha => ha

theorem depth_blank (name entity : String) (s : Sources) :
    (codec.encode (blank name entity s).1).depth ≤ 9 := by
  have hsame := depth_of_flat (blank "" "" start).1 (s.nextId "report") name entity s.now s.now 1
  have hdepth : (codec.encode (blank "" "" start).1).depth ≤ 9 := by decide +kernel
  exact hsame.trans_le hdepth

theorem depth_sample (s : Sources) : (codec.encode (sample s).1).depth ≤ 9 := by
  have hsame := depth_of_flat (sample start).1 (s.nextId "sample-report") (sample start).1.name
    (sample start).1.primaryEntity s.now s.now 1
  have hdepth : (codec.encode (sample start).1).depth ≤ 9 := by decide +kernel
  exact hsame.trans_le hdepth

theorem depth_of_ofText {text : String} {d : Definition} (h : codec.ofText? text = .ok d) :
    (codec.encode d).depth ≤ Json.Reader.maxDepth := by
  have hdepth := (of_decode (Codec.decode_of_ofText h)).2
  have htext := Document.depth_ofText text
  have hlimit : Json.Reader.maxDepth = 127 := rfl
  omega

/-- Every definition is read back from its free value, and from its text when that nests no deeper than
a reader goes; what was read from a text, is blank or is the sample nests no deeper. -/
theorem definition_restored :
    (∀ {d : Definition}, d.Obtained → d.createdAt.ReadsBack → d.updatedAt.ReadsBack →
      codec.ofJson? (codec.encode d).normal = .ok d ∧
      ((codec.encode d).Exact → ∀ layout,
        codec.ofText? (String.ofList ((codec.encode d).chars layout)) =
          if (codec.encode d).depth ≤ Json.Reader.maxDepth then .ok d
          else .error (.malformed .nestingLimit))) ∧
    (∀ {o : Origin} {s : Source} {g : Flow} {prior : Option Prior}, Flow.codec.decode o s = .ok g →
      (∀ p ∈ prior, p.Read) → ∀ sources, (g.compile prior sources).definition.Obtained) ∧
    (∀ {text : String} {d : Definition}, codec.ofText? text = .ok d →
      (codec.encode d).depth ≤ Json.Reader.maxDepth) ∧
    (∀ name entity s, (codec.encode (blank name entity s).1).depth ≤ Json.Reader.maxDepth) ∧
    ∀ s, (codec.encode (sample s).1).depth ≤ Json.Reader.maxDepth := by
  have hlimit : 9 ≤ Json.Reader.maxDepth := by decide
  refine ⟨?_, ?_, ?_, ?_, ?_⟩
  · intro d h hcreated hupdated
    have hrestores := restores h.wellFormed hcreated hupdated
    exact ⟨hrestores.value .value, fun hexact layout => hrestores.ofText_chars hexact layout⟩
  · intro o s g prior hg hprior sources
    exact .compiled_of_read hg hprior sources
  · intro text d h
    exact depth_of_ofText h
  · intro name entity s
    exact Nat.le_trans (depth_blank name entity s) hlimit
  · intro s
    exact Nat.le_trans (depth_sample s) hlimit

theorem definition_restored_accounts :
    codec.ofJson? (codec.encode (sample start).1).normal = .ok (sample start).1 ∧
      codec.ofText? (codec.encode (Sample.accounts "a")).pretty = .ok (Sample.accounts "a") ∧
      (codec.encode (Sample.accounts "a")).depth ≤ Json.Reader.maxDepth ∧
      (Flow.sketch.compile (some (.named "Accounts")) start).definition.Obtained := by
  obtain ⟨hback, hcompiled, htext, -, -⟩ := definition_restored
  have htime : start.now.ReadsBack := by decide +kernel
  have haccounts := hback (Sample.obtained_accounts "a") htime htime
  have hread := haccounts.2 (by decide +kernel) (some 0)
  rw [if_pos (by decide +kernel)] at hread
  have hsent : Flow.codec.decode .value (.ofJson Flow.sent) = .ok Flow.sketch := by decide +kernel
  have hprior : ∀ p ∈ some (Prior.named "Accounts"), p.Read := by
    intro p hp
    cases hp
    exact ⟨nofun, nofun⟩
  exact ⟨(hback (.sample start) htime htime).1, hread, htext hread, hcompiled hsent hprior start⟩

def nested : Nat → Json
  | 0 => .array []
  | n + 1 => .array [nested n]

theorem normal_nested (n : Nat) : (nested n).normal = nested n := by
  induction n with
  | zero => rfl
  | succ n ih => rw [nested, Json.normal, Json.normalItems, Json.normalItems, ih]

def filterOn (value : Json) : Flow :=
  ⟨[.ofConfig "f" (.filter ⟨some [⟨"a", .eq, value⟩], none⟩)], []⟩

theorem proper_filterOn {value : Json} (h : value.normal = value) : (filterOn value).Proper := by
  intro r hr
  obtain rfl := List.mem_singleton.mp hr
  refine ⟨fun cs hcs x hx => ?_, nofun⟩
  cases hcs
  obtain rfl := List.mem_singleton.mp hx
  exact h

def reportOn (value : Json) : Definition := ((filterOn value).compile none start).definition

theorem obtained_reportOn {value : Json} (h : value.normal = value) : (reportOn value).Obtained :=
  .compiled_of_read (((Flow.lawful (n := 0)).restores (proper_filterOn h)).value .value)
    (fun p hp => absurd hp (Option.not_mem_none p)) start

def deepFlow : Flow := filterOn (nested 120)

def deepReport : Definition := reportOn (nested 120)

/-- A reader takes the flow, but not what is compiled from it. -/
theorem counterexample_deep_condition :
    Flow.codec.ofText? (Flow.codec.encode deepFlow).compact = .ok deepFlow ∧ deepReport.Exact ∧
      codec.ofText? (codec.encode deepReport).pretty = .error (.malformed .nestingLimit) := by
  have hproper : deepFlow.Proper := proper_filterOn (normal_nested 120)
  have hnumbers : (Flow.codec.encode deepFlow).Exact := by decide +kernel
  have hdepth : (Flow.codec.encode deepFlow).depth ≤ Json.Reader.maxDepth := by decide +kernel
  have htext := ((Flow.lawful (n := 0)).restores hproper).ofText_chars hnumbers none
  rw [Codec.within_of_le hdepth] at htext
  have hmade : deepReport.Obtained := obtained_reportOn (normal_nested 120)
  have hexact : deepReport.Exact := by decide +kernel
  have hdeep : ¬(codec.encode deepReport).depth ≤ Json.Reader.maxDepth := by decide +kernel
  have hrefused := (restores hmade.wellFormed hexact.createdAt hexact.updatedAt).ofText_chars
    hexact.numbers (some 0)
  rw [Codec.within, if_neg hdeep] at hrefused
  exact ⟨htext, hexact, hrefused⟩

end Definition

end ReportFlow
