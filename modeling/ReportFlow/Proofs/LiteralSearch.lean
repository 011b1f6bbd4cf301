import Mathlib.Data.List.TakeWhile
import ReportFlow.Library.Query
import ReportFlow.Sample
import ReportFlow.Store.Memory

/-!
What a search finds. Query and text are lowered apart, and the form of a capital sigma depends on the
letters around it. So a text that holds the query letter by letter is found where every capital sigma
of the query keeps its form between the letters of the text. Some queries keep their forms wherever
they stand; they alone find every literal occurrence.
-/

namespace ReportFlow

namespace Text

/-! ## Lowering a part of a text -/

/-- The form of a capital sigma between two texts, the first one reversed. -/
def sigmaForm (before after : List Char) : Char :=
  if caseFollows before && !caseFollows after then finalSigma else sigma

/-- What becomes of a part of a text; `before` is reversed. -/
def lowerWithin (before after : List Char) : List Char → List Char
  | [] => []
  | c :: rest =>
    (if c = capitalSigma then [sigmaForm before (rest ++ after)] else lowerChar c) ++
      lowerWithin (c :: before) after rest

theorem lowerAfter_cons (before rest : List Char) (c : Char) :
    lowerAfter before (c :: rest) =
      (if c = capitalSigma then [sigmaForm before rest] else lowerChar c) ++
        lowerAfter (c :: before) rest := rfl

theorem lowerAfter_append (before part after : List Char) :
    lowerAfter before (part ++ after) =
      lowerWithin before after part ++ lowerAfter (part.reverse ++ before) after := by
  induction part generalizing before with
  | nil => rfl
  | cons c rest ih => simp [lowerWithin, lowerAfter_cons, ih]

theorem lowerWithin_nil (before cs : List Char) :
    lowerWithin before [] cs = lowerAfter before cs := by
  simpa [lowerAfter] using (lowerAfter_append before cs []).symm

/-- The surroundings choose between letters, not between lengths. -/
theorem length_lowerWithin (before after read cs : List Char) :
    (lowerWithin before after cs).length = (lowerAfter read cs).length := by
  induction cs generalizing before read with
  | nil => rfl
  | cons c rest ih =>
    simp only [lowerWithin, lowerAfter_cons, List.length_append, ih (c :: before) (c :: read)]
    split <;> rfl

/-! ## The capital sigmas of a part -/

def AtSigmas (P : List Char → List Char → Prop) (before : List Char) : List Char → Prop
  | [] => True
  | c :: rest => (c = capitalSigma → P before rest) ∧ AtSigmas P (c :: before) rest

namespace AtSigmas

variable {P Q R : List Char → List Char → Prop} {before cs : List Char}

instance decidable [∀ before after, Decidable (P before after)] (before : List Char) :
    (cs : List Char) → Decidable (AtSigmas P before cs)
  | [] => inferInstanceAs (Decidable True)
  | c :: rest => @instDecidableAnd _ _ inferInstance (decidable (c :: before) rest)

theorem imp (himp : ∀ before after, P before after → Q before after) (h : AtSigmas P before cs) :
    AtSigmas Q before cs := by
  induction cs generalizing before with
  | nil => trivial
  | cons c rest ih => exact ⟨fun hc => himp _ _ (h.1 hc), ih h.2⟩

theorem and (hP : AtSigmas P before cs) (hQ : AtSigmas Q before cs) :
    AtSigmas (fun b a => P b a ∧ Q b a) before cs := by
  induction cs generalizing before with
  | nil => trivial
  | cons c rest ih => exact ⟨fun hc => ⟨hP.1 hc, hQ.1 hc⟩, ih hP.2 hQ.2⟩

theorem of_notMem (h : capitalSigma ∉ cs) : AtSigmas P before cs := by
  induction cs generalizing before with
  | nil => trivial
  | cons c rest ih =>
    rw [List.mem_cons, not_or] at h
    exact ⟨fun hc => absurd hc.symm h.1, ih h.2⟩

end AtSigmas

/-- Between the two texts every capital sigma of a part has the form that it has in the part alone. -/
def KeepsForms (before part after : List Char) : Prop :=
  AtSigmas (fun b a => sigmaForm (b ++ before.reverse) (a ++ after) = sigmaForm b a) [] part

instance (before part after : List Char) : Decidable (KeepsForms before part after) :=
  inferInstanceAs (Decidable (AtSigmas _ _ _))

/-- The induction moves letters of the part into what has been read of it. -/
theorem lowerWithin_eq_iff_atSigmas (before after read cs : List Char) :
    lowerWithin (read ++ before) after cs = lowerAfter read cs ↔
      AtSigmas (fun b a => sigmaForm (b ++ before) (a ++ after) = sigmaForm b a) read cs := by
  induction cs generalizing read with
  | nil => simp [lowerWithin, lowerAfter, AtSigmas]
  | cons c rest ih =>
    have hrest := ih (c :: read)
    rw [List.cons_append] at hrest
    by_cases hc : c = capitalSigma
    · subst hc
      simp [lowerWithin, lowerAfter_cons, AtSigmas, ← hrest]
    · simp [lowerWithin, lowerAfter_cons, AtSigmas, hc, ← hrest]

theorem lowerWithin_eq_iff {before part after : List Char} :
    lowerWithin before.reverse after part = lowerAfter [] part ↔ KeepsForms before part after :=
  lowerWithin_eq_iff_atSigmas before.reverse after [] part

theorem occurs_lowered {before part after : List Char} (h : KeepsForms before part after) :
    lowerAfter [] part <:+: lowerAfter [] (before ++ part ++ after) := by
  refine ⟨lowerWithin [] (part ++ after) before,
    lowerAfter (part.reverse ++ before.reverse) after, ?_⟩
  rw [← lowerWithin_eq_iff.mpr h, List.append_assoc before, lowerAfter_append [] before,
    List.append_nil, lowerAfter_append before.reverse part, List.append_assoc]

/-! ## Parts that keep their forms everywhere -/

/-- Some character is not passed over when a cased letter is looked for. -/
def HasWeight (cs : List Char) : Prop := ∃ c ∈ cs, isCaseIgnorable c = false

instance (cs : List Char) : Decidable (HasWeight cs) :=
  List.decidableBEx (fun c => isCaseIgnorable c = false) cs

theorem caseFollows_eq (cs : List Char) :
    caseFollows cs = ((cs.find? (!isCaseIgnorable ·)).map isCased).getD false := by
  rw [caseFollows, List.find?_not_eq_head?_dropWhile]

theorem caseFollows_append_of_weight {xs : List Char} (h : HasWeight xs) (ys : List Char) :
    caseFollows (xs ++ ys) = caseFollows xs := by
  obtain ⟨c, hc⟩ : ∃ c, xs.find? (!isCaseIgnorable ·) = some c :=
    Option.isSome_iff_exists.mp (List.find?_isSome.mpr (by simpa [HasWeight] using h))
  simp [caseFollows_eq, hc]

theorem caseFollows_append_of_weightless {xs : List Char} (h : ¬ HasWeight xs) (ys : List Char) :
    caseFollows (xs ++ ys) = caseFollows ys := by
  have hnone : xs.find? (!isCaseIgnorable ·) = none := by simpa [HasWeight] using h
  simp [caseFollows_eq, hnone]

theorem caseFollows_of_weightless {xs : List Char} (h : ¬ HasWeight xs) : caseFollows xs = false := by
  simpa [caseFollows] using caseFollows_append_of_weightless h []

/-- What stands next to a capital sigma settles its form, whatever stands further off. -/
def SettlesForm (before after : List Char) : Prop :=
  caseFollows after = true ∨
    HasWeight before ∧ (caseFollows before = false ∨ HasWeight after)

instance (before after : List Char) : Decidable (SettlesForm before after) :=
  inferInstanceAs (Decidable (_ ∨ _ ∧ _))

theorem SettlesForm.sigmaForm_append {before after : List Char} (h : SettlesForm before after)
    (b a : List Char) : sigmaForm (before ++ b) (after ++ a) = sigmaForm before after := by
  rcases h with hcased | ⟨hbefore, hcaseless | hafter⟩
  · have hafter : HasWeight after := by
      by_contra hweightless
      simp [caseFollows_of_weightless hweightless] at hcased
    simp [sigmaForm, caseFollows_append_of_weight hafter, hcased]
  · simp [sigmaForm, caseFollows_append_of_weight hbefore, hcaseless]
  · simp [sigmaForm, caseFollows_append_of_weight hbefore, caseFollows_append_of_weight hafter]

/-- Between two cased letters a form that is not settled would change. -/
theorem settlesForm_of_kept {x : Char} (hx : caseFollows [x] = true) {before after : List Char}
    (hbefore : sigmaForm (before ++ [x]) after = sigmaForm before after)
    (hafter : sigmaForm before (after ++ [x]) = sigmaForm before after) :
    SettlesForm before after := by
  have hforms : finalSigma ≠ sigma := by decide
  by_contra h
  obtain ⟨hcaseless, hrest⟩ := not_or.mp h
  by_cases hweight : HasWeight before
  · obtain ⟨hcased, hweightless⟩ := not_or.mp fun hor => hrest ⟨hweight, hor⟩
    exact hforms (by simpa [sigmaForm, caseFollows_append_of_weightless hweightless, hx, hcaseless,
      hcased] using hafter.symm)
  · exact hforms (by simpa [sigmaForm, caseFollows_append_of_weightless hweight, hx, hcaseless,
      caseFollows_of_weightless hweight] using hbefore)

/-- Every capital sigma has its form from the letters of the text alone. -/
def Settled (cs : List Char) : Prop := AtSigmas SettlesForm [] cs

instance (cs : List Char) : Decidable (Settled cs) := inferInstanceAs (Decidable (AtSigmas _ _ _))

theorem Settled.keepsForms {cs : List Char} (h : Settled cs) (before after : List Char) :
    KeepsForms before cs after :=
  AtSigmas.imp (fun _ _ hform => hform.sigmaForm_append before.reverse after) h

theorem settled_of_keepsForms {x : Char} (hx : caseFollows [x] = true) {cs : List Char}
    (hbefore : KeepsForms [x] cs []) (hafter : KeepsForms [] cs [x]) : Settled cs := by
  refine AtSigmas.imp (fun b a ⟨hb, ha⟩ => ?_) (hbefore.and hafter)
  exact settlesForm_of_kept hx (by simpa using hb) (by simpa using ha)

theorem settled_of_notMem {cs : List Char} (h : capitalSigma ∉ cs) : Settled cs :=
  AtSigmas.of_notMem h

/-! ## A letter next to a part -/

def IsPlain (x : Char) : Prop := x ≠ capitalSigma ∧ lowerChar x = [x] ∧ caseFollows [x] = true

instance (x : Char) : Decidable (IsPlain x) := inferInstanceAs (Decidable (_ ∧ _ ∧ _))

theorem not_infix_cons {α : Type} {needle rest : List α} {x : α}
    (hlength : needle.length = rest.length) (hne : needle ≠ rest) (hx : needle.head? ≠ some x) :
    ¬ needle <:+: x :: rest := by
  rw [List.infix_cons_iff]
  rintro (hstart | hoccurs)
  · cases needle with
    | nil => exact hne (List.length_eq_zero_iff.mp hlength.symm).symm
    | cons c cs => exact hx (by simp [(List.cons_prefix_cons.mp hstart).1])
  · exact hne (hoccurs.eq_of_length hlength)

theorem not_infix_concat {α : Type} {needle rest : List α} {x : α}
    (hlength : needle.length = rest.length) (hne : needle ≠ rest) (hx : needle.getLast? ≠ some x) :
    ¬ needle <:+: rest ++ [x] := by
  rw [← List.reverse_infix, List.reverse_append]
  exact not_infix_cons (by simpa using hlength) (by simpa using hne) (by simpa using hx)

variable {x : Char} {cs : List Char}

theorem keepsForms_of_infix_cons (hx : IsPlain x) (hhead : (lowerAfter [] cs).head? ≠ some x)
    (h : lowerAfter [] cs <:+: lowerAfter [] (x :: cs)) : KeepsForms [x] cs [] := by
  obtain ⟨hsigma, hlower, -⟩ := hx
  rw [lowerAfter_cons, if_neg hsigma, hlower, List.singleton_append, ← lowerWithin_nil [x]] at h
  by_contra hlost
  rw [← lowerWithin_eq_iff] at hlost
  exact not_infix_cons (length_lowerWithin ..).symm (Ne.symm hlost) hhead h

theorem keepsForms_of_infix_concat (hx : IsPlain x) (hlast : (lowerAfter [] cs).getLast? ≠ some x)
    (h : lowerAfter [] cs <:+: lowerAfter [] (cs ++ [x])) : KeepsForms [] cs [x] := by
  obtain ⟨hsigma, hlower, -⟩ := hx
  rw [lowerAfter_append, lowerAfter_cons, if_neg hsigma, hlower] at h
  by_contra hlost
  rw [← lowerWithin_eq_iff] at hlost
  exact not_infix_concat (length_lowerWithin ..).symm (Ne.symm hlost) hlast h

/-- There are more plain letters than ends of a text. -/
theorem exists_isPlain (head last : Option Char) :
    ∃ x, IsPlain x ∧ head ≠ some x ∧ last ≠ some x := by
  have ha : IsPlain 'a' := by decide +kernel
  have hb : IsPlain 'b' := by decide +kernel
  have hc : IsPlain 'c' := by decide +kernel
  grind

/-- A part that is found wherever it stands does not depend on what is around it. -/
theorem settled_of_infix
    (h : ∀ before after, lowerAfter [] cs <:+: lowerAfter [] (before ++ cs ++ after)) :
    Settled cs := by
  obtain ⟨x, hx, hhead, hlast⟩ :=
    exists_isPlain (lowerAfter [] cs).head? (lowerAfter [] cs).getLast?
  refine settled_of_keepsForms hx.2.2 (keepsForms_of_infix_cons hx hhead ?_)
    (keepsForms_of_infix_concat hx hlast ?_)
  · simpa using h [x] []
  · simpa using h [] [x]

-- the letter behind the sigma settles its form, nothing settles that of the last letter
example : Settled "ΟΣΟ".toList ∧ ¬ Settled "ΟΣ".toList := by decide +kernel

theorem toList_lower (s : String) : (lower s).toList = lowerAfter [] s.toList := String.toList_ofList

end Text

def Definition.texts (d : Definition) : List String :=
  d.name :: d.description :: d.primaryEntity :: d.tags

def Sample.named (name : String) (s : Sources) : Library MemoryStore :=
  ⟨⟨[(Definition.blank name "" s).1]⟩, s⟩

namespace Library

variable {σ : Type} [ReportStore σ] {query : String} {d : Definition}

theorem matchesQuery_iff : matchesQuery query d ↔
    ∃ text ∈ d.texts, (Text.lower query).toList <:+: (Text.lower text).toList := by
  simp only [matchesQuery, List.any_eq_true, Text.occursIn_iff, Definition.texts]

theorem matchesQuery_congr {other : String} (h : Text.lower other = Text.lower query) :
    matchesQuery other = matchesQuery query := by
  funext d
  rw [matchesQuery, matchesQuery, h]

theorem matchesQuery_of_keepsForms {text : String} {before after : List Char}
    (htext : text ∈ d.texts) (hsplit : text.toList = before ++ query.toList ++ after)
    (hforms : Text.KeepsForms before query.toList after) : matchesQuery query d := by
  refine matchesQuery_iff.mpr ⟨text, htext, ?_⟩
  rw [Text.toList_lower, Text.toList_lower, hsplit]
  exact Text.occurs_lowered hforms

theorem infix_of_mem_search_named {name : String} {s : Sources} {found : Summary}
    (h : found ∈ (Sample.named name s).search query) :
    (Text.lower query).toList <:+: (Text.lower name).toList := by
  obtain ⟨d, hd, -⟩ := List.mem_map.mp h
  obtain ⟨hd, hmatches⟩ := List.mem_filter.mp hd
  cases List.mem_singleton.mp hd
  obtain ⟨text, htext, hoccurs⟩ := matchesQuery_iff.mp hmatches
  have hcases : text = name ∨ text = "" := by
    simpa [Definition.texts, Definition.blank] using htext
  rcases hcases with rfl | rfl
  · exact hoccurs
  · rw [List.infix_nil.mp hoccurs]
    exact List.nil_infix

/-- The reports of a search, and the queries that no literal occurrence escapes. -/
theorem search_exact (l : Library σ) (query : String) :
    (∃ reports : List Definition,
      reports.Sublist l.list ∧ l.search query = reports.map .ofDefinition ∧
        (∀ d ∈ l.list, d ∈ reports ↔
          ∃ text ∈ d.texts, (Text.lower query).toList <:+: (Text.lower text).toList) ∧
        ∀ d ∈ l.list, ∀ text ∈ d.texts, ∀ before after,
          text.toList = before ++ query.toList ++ after →
            Text.KeepsForms before query.toList after → d ∈ reports) ∧
      (∀ other, Text.lower other = Text.lower query → l.search other = l.search query) ∧
      (Text.Settled query.toList ↔
        ∀ (τ : Type) [ReportStore τ] (shelf : Library τ), ∀ d ∈ shelf.list, ∀ text ∈ d.texts,
          query.toList <:+: text.toList → .ofDefinition d ∈ shelf.search query) ∧
      (Text.capitalSigma ∉ query.toList → Text.Settled query.toList) := by
  refine ⟨⟨l.list.filter (matchesQuery query), List.filter_sublist, rfl, fun d hd => ?_,
    fun d hd text htext before after hsplit hforms => ?_⟩, fun other hlower => ?_,
    ⟨fun hsettled τ _ shelf d hd text htext hoccurs => ?_, fun hfound => ?_⟩, Text.settled_of_notMem⟩
  · rw [List.mem_filter, matchesQuery_iff, and_iff_right hd]
  · exact List.mem_filter.mpr ⟨hd, matchesQuery_of_keepsForms htext hsplit hforms⟩
  · rw [search, search, matchesQuery_congr hlower]
  · obtain ⟨before, after, hsplit⟩ := hoccurs
    have hmatches : matchesQuery query d :=
      matchesQuery_of_keepsForms htext hsplit.symm (hsettled.keepsForms before after)
    exact List.mem_map_of_mem (List.mem_filter.mpr ⟨hd, hmatches⟩)
  · -- a library of one report puts the query between any two texts
    refine Text.settled_of_infix fun before after => ?_
    let name := String.ofList (before ++ query.toList ++ after)
    have hname : name.toList = before ++ query.toList ++ after := String.toList_ofList
    have hmem := hfound MemoryStore (Sample.named name l.sources) _ (List.mem_singleton_self _) name
      List.mem_cons_self (hname ▸ List.infix_append ..)
    have hoccurs := infix_of_mem_search_named hmem
    rwa [Text.toList_lower, Text.toList_lower, hname] at hoccurs

/-- The sigma at the end of the name takes its final form, the one of the query does not. -/
theorem search_exact_final_sigma :
    let shelf := Sample.named "ΑΣ" (.start (.fixed ⟨0, 0, 0⟩) .sequential)
    shelf.search "Σ" = [] ∧ "Σ".toList <:+: "ΑΣ".toList ∧ ¬ Text.Settled "Σ".toList ∧
      ∃ found ∈ shelf.search "ΑΣ", found.name = "ΑΣ" := by
  intro shelf
  have hmissed : shelf.search "Σ" = [] := by decide +kernel
  have hoccurs : "Σ".toList <:+: "ΑΣ".toList := by decide +kernel
  have hmem : (Definition.blank "ΑΣ" "" shelf.sources).1 ∈ shelf.list := List.mem_singleton_self _
  refine ⟨hmissed, hoccurs, fun hsettled => ?_, ?_⟩
  · obtain ⟨-, -, hiff, -⟩ := search_exact shelf "Σ"
    have hfound := hiff.mp hsettled MemoryStore shelf _ hmem _ List.mem_cons_self hoccurs
    rw [hmissed] at hfound
    cases hfound
  · obtain ⟨⟨reports, -, hsearch, -, hkept⟩, -⟩ := search_exact shelf "ΑΣ"
    have hreport := hkept _ hmem _ List.mem_cons_self [] [] (List.append_nil _).symm (by decide +kernel)
    exact ⟨_, hsearch ▸ List.mem_map_of_mem hreport, rfl⟩

end Library

end ReportFlow
