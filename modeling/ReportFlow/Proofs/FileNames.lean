import Mathlib.Data.List.TakeWhile
import ReportFlow.Store.Disk
import ReportFlow.Store.FileName

/-!
File names of ids. Two ids share a file name only when the hashes of their texts collide, and the
name of every id but the empty one is the name of a definition.
-/

namespace ReportFlow

/-- A text that was written as bytes is read back. -/
theorem fromUTF8?_toUTF8 (s : String) : String.fromUTF8? s.toUTF8 = some s := dif_pos s.isValidUTF8

theorem textOf_toUTF8 (s : String) : textOf s.toUTF8 = .ok s := by
  rw [textOf, fromUTF8?_toUTF8]

namespace FileName

/-- It separates the readable part of a stem from the hash. -/
def mark : Char := '~'

theorem not_isPlain_mark : isPlain mark = false := by decide

theorem mark_notMem_plain {id : String} (h : id.toList.all isPlain = true) : mark ∉ id.toList := by
  intro hmem
  have hplain := List.all_eq_true.mp h mark hmem
  rw [not_isPlain_mark] at hplain
  cases hplain

theorem mark_notMem_sanitized (id : String) : mark ∉ sanitized id := by
  intro hmem
  obtain ⟨c, -, hc⟩ := List.mem_map.mp hmem
  split at hc
  · rename_i hplain
    rw [hc, not_isPlain_mark] at hplain
    cases hplain
  · cases hc

theorem stem_plain {id : String} (h : id.toList.all isPlain = true) : stem id = id := if_pos h

theorem toList_stem_other {id : String} (h : ¬id.toList.all isPlain = true) :
    (stem id).toList = sanitized id ++ mark :: hash id := by
  rw [stem, if_neg h, String.toList_ofList]
  rfl

/-- The part before the first mark and the part after it are fixed by the whole. -/
theorem append_mark_inj {xs ys us vs : List Char} (hxs : mark ∉ xs) (hus : mark ∉ us)
    (h : xs ++ mark :: ys = us ++ mark :: vs) : xs = us ∧ ys = vs := by
  induction xs generalizing us with
  | nil =>
    cases us with
    | nil => exact ⟨rfl, (List.cons.inj h).2⟩
    | cons u us =>
      obtain ⟨hu, -⟩ := List.cons.inj h
      exact absurd (hu ▸ List.mem_cons_self) hus
  | cons x xs ih =>
    cases us with
    | nil =>
      obtain ⟨hx, -⟩ := List.cons.inj h
      exact absurd (hx ▸ List.mem_cons_self) hxs
    | cons u us =>
      obtain ⟨hx, h⟩ := List.cons.inj h
      obtain ⟨hxs, hys⟩ := ih (fun hm => hxs (List.mem_cons_of_mem _ hm))
        (fun hm => hus (List.mem_cons_of_mem _ hm)) h
      exact ⟨congrArg₂ List.cons hx hxs, hys⟩

theorem mark_mem_stem_iff {id : String} : mark ∈ (stem id).toList ↔ ¬id.toList.all isPlain = true := by
  by_cases h : id.toList.all isPlain = true
  · rw [stem_plain h]
    exact iff_of_false (mark_notMem_plain h) (not_not_intro h)
  · rw [toList_stem_other h]
    exact iff_of_true (List.mem_append_right _ List.mem_cons_self) h

structure Collide (a b : String) : Prop where
  left : ¬a.toList.all isPlain = true
  right : ¬b.toList.all isPlain = true
  sanitized : sanitized a = sanitized b
  hash : hash a = hash b

theorem stem_eq_stem_iff {a b : String} : stem a = stem b ↔ a = b ∨ Collide a b := by
  constructor
  · intro h
    have hmark : ¬a.toList.all isPlain = true ↔ ¬b.toList.all isPlain = true := by
      rw [← mark_mem_stem_iff, h, mark_mem_stem_iff]
    by_cases ha : a.toList.all isPlain = true
    · have hb : b.toList.all isPlain = true := not_not.mp fun hb => hmark.mpr hb ha
      rw [stem_plain ha, stem_plain hb] at h
      exact .inl h
    · have hb := hmark.mp ha
      have hchars := congrArg String.toList h
      rw [toList_stem_other ha, toList_stem_other hb] at hchars
      obtain ⟨hsanitized, hhash⟩ :=
        append_mark_inj (mark_notMem_sanitized a) (mark_notMem_sanitized b) hchars
      exact .inr ⟨ha, hb, hsanitized, hhash⟩
  · rintro (rfl | ⟨ha, hb, hsanitized, hhash⟩)
    · rfl
    · rw [← String.toList_inj, toList_stem_other ha, toList_stem_other hb, hsanitized, hhash]

theorem stem_injective {a b : String} (hhash : hash a = hash b → a = b) (h : stem a = stem b) : a = b :=
  (stem_eq_stem_iff.mp h).elim id fun hcollide => hhash hcollide.hash

/-- Ids whose hashes differ have files of their own. -/
theorem ofId_injective {a b : String} (hhash : hash a = hash b → a = b) (h : ofId a = ofId b) : a = b :=
  stem_injective hhash ((String.append_left_inj ending).mp h)

theorem stem_eq_empty_iff {id : String} : stem id = "" ↔ id = "" := by
  constructor
  · intro h
    by_cases hplain : id.toList.all isPlain = true
    · rw [← stem_plain hplain, h]
    · have hchars := congrArg String.toList h
      rw [toList_stem_other hplain] at hchars
      exact absurd hchars (List.append_ne_nil_of_right_ne_nil _ (List.cons_ne_nil _ _))
  · rintro rfl
    rfl

/-- Only the empty id has a file that is passed over. -/
theorem isDefinition_ofId {id : String} : isDefinition (ofId id) = true ↔ id ≠ "" := by
  have hends : (ofId id).endsWith ending = true := by
    rw [String.endsWith, String.Slice.endsWith_string_iff, String.copy_toSlice, ofId,
      String.toList_append]
    exact List.suffix_append _ _
  have hempty : (stem id).utf8ByteSize = 0 ↔ id = "" := by
    rw [String.utf8ByteSize_eq_zero_iff, stem_eq_empty_iff]
  rw [isDefinition, hends, Bool.true_and, decide_eq_true_iff, ofId, String.utf8ByteSize_append,
    Ne, ← hempty]
  omega

end FileName

end ReportFlow
