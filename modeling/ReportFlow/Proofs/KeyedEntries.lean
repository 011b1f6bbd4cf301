import Mathlib.Data.List.Nodup
import Mathlib.Data.String.Basic
import ReportFlow.Keyed

/-!
Entries under text keys, seen through what stands under each key. Two lists in ascending order with
the same view are equal, so every operation is described by what it does to the view.
-/

namespace ReportFlow

namespace Keyed

variable {β : Type} {key k : String} {value v : β} {entries a b : List (String × β)}

/-! ## The view -/

theorem get?_put (k key : String) (value : β) (entries : List (String × β)) :
    get? k (put key value entries) = if k = key then some value else get? k entries := by
  induction entries with
  | nil => rfl
  | cons first rest ih =>
    obtain ⟨other, old⟩ := first
    unfold put
    by_cases heq : key = other
    · subst heq
      rw [if_pos rfl]
      by_cases hk : k = key <;> simp [get?, hk]
    · rw [if_neg heq]
      by_cases hlt : key < other
      · rw [if_pos hlt]
        rfl
      · rw [if_neg hlt]
        by_cases hk : k = other
        · have hne : k ≠ key := fun h => heq (h.symm.trans hk)
          rw [if_neg hne, get?, get?, if_pos hk, if_pos hk]
        · simp only [get?, if_neg hk, ih]

theorem get?_erase (k key : String) (entries : List (String × β)) :
    get? k (erase key entries) = if k = key then none else get? k entries := by
  induction entries with
  | nil => simp [erase, get?]
  | cons first rest ih =>
    obtain ⟨other, old⟩ := first
    unfold erase at ih ⊢
    by_cases hother : other = key
    · rw [List.filter_cons_of_neg (by simpa using hother), ih]
      by_cases hk : k = key
      · rw [if_pos hk, if_pos hk]
      · have hne : k ≠ other := fun h => hk (h.trans hother)
        rw [if_neg hk, if_neg hk, get?, if_neg hne]
    · rw [List.filter_cons_of_pos (by simpa using hother), get?, get?, ih]
      by_cases hk : k = key
      · have hne : k ≠ other := fun h => hother (h.symm.trans hk)
        rw [if_pos hk, if_pos hk, if_neg hne]
      · rw [if_neg hk, if_neg hk]

theorem get?_put_eq_some_iff :
    get? k (put key value entries) = some v ↔
      k = key ∧ v = value ∨ k ≠ key ∧ get? k entries = some v := by
  rw [get?_put]
  by_cases hk : k = key
  · simp [hk, eq_comm]
  · simp [hk]

theorem get?_erase_eq_some_iff :
    get? k (erase key entries) = some v ↔ k ≠ key ∧ get? k entries = some v := by
  rw [get?_erase]
  by_cases hk : k = key
  · simp [hk]
  · simp [hk]

theorem get?_map {γ : Type} (k : String) (f : β → γ) (entries : List (String × β)) :
    get? k (entries.map fun e => (e.1, f e.2)) = (get? k entries).map f := by
  induction entries with
  | nil => rfl
  | cons first rest ih =>
    obtain ⟨other, old⟩ := first
    rw [List.map_cons, get?, get?, ih]
    split
    · rfl
    · rfl

theorem mem_of_get? (h : get? key entries = some value) : (key, value) ∈ entries := by
  induction entries with
  | nil => cases h
  | cons first rest ih =>
    obtain ⟨other, old⟩ := first
    unfold get? at h
    by_cases hkey : key = other
    · rw [if_pos hkey] at h
      cases h
      rw [hkey]
      exact List.mem_cons_self
    · rw [if_neg hkey] at h
      exact List.mem_cons_of_mem _ (ih h)

theorem get?_eq_none_iff : get? key entries = none ↔ ∀ e ∈ entries, e.1 ≠ key := by
  induction entries with
  | nil => simp [get?]
  | cons first rest ih =>
    obtain ⟨other, old⟩ := first
    rw [List.forall_mem_cons, get?]
    by_cases hkey : key = other
    · rw [if_pos hkey]
      constructor
      · intro h
        cases h
      · intro h
        exact absurd hkey.symm h.1
    · rw [if_neg hkey, ih]
      exact ⟨fun h => ⟨fun hother => hkey hother.symm, h⟩, fun h => h.2⟩

/-- Where no key stands twice, an entry is found under its key. -/
theorem get?_of_mem (hdistinct : (entries.map (·.1)).Nodup) (h : (key, value) ∈ entries) :
    get? key entries = some value := by
  induction entries with
  | nil => cases h
  | cons first rest ih =>
    obtain ⟨other, old⟩ := first
    rw [List.map_cons, List.nodup_cons] at hdistinct
    unfold get?
    rcases List.mem_cons.mp h with heq | hrest
    · cases heq
      rw [if_pos rfl]
    · have hne : key ≠ other := by
        intro heq
        exact hdistinct.1 (List.mem_map.mpr ⟨(key, value), hrest, heq⟩)
      rw [if_neg hne]
      exact ih hdistinct.2 hrest

theorem mem_iff_get? (hdistinct : (entries.map (·.1)).Nodup) :
    (key, value) ∈ entries ↔ get? key entries = some value :=
  ⟨get?_of_mem hdistinct, mem_of_get?⟩

/-! ## Ascending order -/

theorem mem_put {e : String × β} (h : e ∈ put key value entries) :
    e = (key, value) ∨ e ∈ entries := by
  induction entries with
  | nil => exact .inl (List.mem_singleton.mp h)
  | cons first rest ih =>
    obtain ⟨other, old⟩ := first
    unfold put at h
    split at h
    · rcases List.mem_cons.mp h with rfl | hrest
      · exact .inl rfl
      · exact .inr (List.mem_cons_of_mem _ hrest)
    · split at h
      · exact List.mem_cons.mp h
      · rcases List.mem_cons.mp h with rfl | hrest
        · exact .inr List.mem_cons_self
        · exact (ih hrest).imp_right (List.mem_cons_of_mem _)

theorem sorted_put (key : String) (value : β) (h : Sorted entries) :
    Sorted (put key value entries) := by
  induction entries with
  | nil => exact List.pairwise_singleton _ _
  | cons first rest ih =>
    obtain ⟨other, old⟩ := first
    obtain ⟨hfirst, hrest⟩ := List.pairwise_cons.mp h
    unfold put
    by_cases heq : key = other
    · subst heq
      rw [if_pos rfl]
      exact List.pairwise_cons.mpr ⟨hfirst, hrest⟩
    · rw [if_neg heq]
      by_cases hlt : key < other
      · rw [if_pos hlt]
        refine List.pairwise_cons.mpr ⟨?_, h⟩
        intro e he
        rcases List.mem_cons.mp he with rfl | he
        · exact hlt
        · exact String.lt_trans hlt (hfirst e he)
      · rw [if_neg hlt]
        refine List.pairwise_cons.mpr ⟨?_, ih hrest⟩
        intro e he
        rcases mem_put he with rfl | he
        · exact lt_of_le_of_ne (not_lt.mp hlt) (Ne.symm heq)
        · exact hfirst e he

theorem sorted_erase (key : String) (h : Sorted entries) : Sorted (erase key entries) :=
  List.Pairwise.filter _ h

theorem Sorted.distinct (h : Sorted entries) : (entries.map (·.1)).Nodup := by
  refine List.pairwise_map.mpr (h.imp ?_)
  intro x y hlt heq
  exact String.lt_irrefl _ (heq ▸ hlt)

theorem eq_of_sorted (ha : Sorted a) (hb : Sorted b) (h : ∀ e, e ∈ a ↔ e ∈ b) : a = b := by
  refine List.Perm.eq_of_pairwise ?_ ha hb ?_
  · intro x y _ _ hxy hyx
    exact absurd hyx (String.lt_asymm hxy)
  · exact (List.perm_ext_iff_of_nodup (List.Nodup.of_map _ ha.distinct)
      (List.Nodup.of_map _ hb.distinct)).mpr h

theorem ext_of_sorted (ha : Sorted a) (hb : Sorted b) (h : ∀ k, get? k a = get? k b) : a = b := by
  refine eq_of_sorted ha hb ?_
  intro e
  obtain ⟨key, value⟩ := e
  rw [mem_iff_get? ha.distinct, mem_iff_get? hb.distinct, h]

/-! ## Entries put one by one -/

theorem sorted_foldl_put (more : List (String × β)) (h : Sorted entries) :
    Sorted (more.foldl (fun acc e => put e.1 e.2 acc) entries) := by
  induction more generalizing entries with
  | nil => exact h
  | cons e rest ih => exact ih (sorted_put e.1 e.2 h)

theorem sorted_ofList (entries : List (String × β)) : Sorted (ofList entries) :=
  sorted_foldl_put entries List.Pairwise.nil

theorem mem_foldl_put {more : List (String × β)} {e : String × β}
    (h : e ∈ more.foldl (fun acc e => put e.1 e.2 acc) entries) : e ∈ more ∨ e ∈ entries := by
  induction more generalizing entries with
  | nil => exact .inr h
  | cons first rest ih =>
    rcases ih h with hrest | hput
    · exact .inl (List.mem_cons_of_mem first hrest)
    · rcases mem_put hput with rfl | hold
      · exact .inl List.mem_cons_self
      · exact .inr hold

theorem mem_of_mem_ofList {e : String × β} (h : e ∈ ofList entries) : e ∈ entries :=
  (mem_foldl_put h).resolve_right List.not_mem_nil

theorem get?_foldl_put (k : String) {more : List (String × β)} (hdistinct : (more.map (·.1)).Nodup)
    (entries : List (String × β)) :
    get? k (more.foldl (fun acc e => put e.1 e.2 acc) entries) = (get? k more).or (get? k entries) := by
  induction more generalizing entries with
  | nil => rfl
  | cons e rest ih =>
    obtain ⟨key, value⟩ := e
    rw [List.map_cons, List.nodup_cons] at hdistinct
    rw [List.foldl_cons, ih hdistinct.2, get?_put, get?]
    by_cases hk : k = key
    · have hrest : get? k rest = none := by
        refine get?_eq_none_iff.mpr ?_
        intro e he heq
        exact hdistinct.1 (List.mem_map.mpr ⟨e, he, heq.trans hk⟩)
      rw [hrest, if_pos hk, if_pos hk]
      rfl
    · rw [if_neg hk, if_neg hk]

theorem get?_ofList (k : String) (hdistinct : (entries.map (·.1)).Nodup) :
    get? k (ofList entries) = get? k entries := by
  rw [ofList, get?_foldl_put k hdistinct, get?, Option.or_none]

theorem mem_ofList (hdistinct : (entries.map (·.1)).Nodup) {e : String × β} :
    e ∈ ofList entries ↔ e ∈ entries := by
  obtain ⟨key, value⟩ := e
  rw [mem_iff_get? (sorted_ofList entries).distinct, get?_ofList key hdistinct, mem_iff_get? hdistinct]

theorem ofList_perm (hdistinct : (entries.map (·.1)).Nodup) : (ofList entries).Perm entries :=
  (List.perm_ext_iff_of_nodup (List.Nodup.of_map _ (sorted_ofList entries).distinct)
    (List.Nodup.of_map _ hdistinct)).mpr fun _ => mem_ofList hdistinct

theorem ofList_of_sorted (h : Sorted entries) : ofList entries = entries :=
  ext_of_sorted (sorted_ofList entries) h fun k => get?_ofList k h.distinct

end Keyed

end ReportFlow
