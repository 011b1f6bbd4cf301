import Mathlib.Algebra.BigOperators.Group.List.Lemmas
import Mathlib.Algebra.GroupWithZero.Nat
import Mathlib.Data.List.Dedup
import ReportFlow.Library.Query
import ReportFlow.Proofs.KeyedEntries

/-!
The counts of a library agree with what its searches find. Each aggregate is described on its own,
by the reports it is made from: the different texts of a list, a tally of them, the order of the
counted entities and the latest of some instants.
-/

namespace ReportFlow

/-! ## The different texts of a list -/

theorem mem_dropRepeats {t : String} {texts : List String} : t ∈ dropRepeats texts ↔ t ∈ texts := by
  induction texts using dropRepeats.induct with
  | case1 b rest ih => simp [dropRepeats, ih]
  | case2 a b rest hne ih => simp [dropRepeats, hne, ih]
  | case3 texts hshort =>
    unfold dropRepeats
    split
    · exact absurd rfl (hshort _ _ _)
    · rfl

theorem pairwise_dropRepeats {texts : List String} (h : texts.Pairwise (· ≤ ·)) :
    (dropRepeats texts).Pairwise (· < ·) := by
  induction texts using dropRepeats.induct with
  | case1 b rest ih =>
    rw [dropRepeats, if_pos rfl]
    exact ih h.tail
  | case2 a b rest hne ih =>
    obtain ⟨hfirst, hrest⟩ := List.pairwise_cons.mp h
    rw [dropRepeats, if_neg hne]
    refine List.pairwise_cons.mpr ⟨?_, ih hrest⟩
    intro t ht
    have hab : a < b := lt_of_le_of_ne (hfirst b List.mem_cons_self) hne
    rcases List.mem_cons.mp (mem_dropRepeats.mp ht) with rfl | hlater
    · exact hab
    · exact lt_of_lt_of_le hab ((List.pairwise_cons.mp hrest).1 t hlater)
  | case3 texts hshort =>
    match texts, hshort with
    | [], _ => exact List.Pairwise.nil
    | [t], _ => exact List.pairwise_singleton _ _
    | a :: b :: rest, hshort => exact absurd rfl (hshort a b rest)

theorem mem_distinct {t : String} {texts : List String} : t ∈ distinct texts ↔ t ∈ texts :=
  mem_dropRepeats.trans (List.mergeSort_perm _ _).mem_iff

theorem pairwise_distinct (texts : List String) : (distinct texts).Pairwise (· < ·) := by
  have hsorted : (texts.mergeSort fun a b => a ≤ b).Pairwise fun a b => decide (a ≤ b) = true := by
    apply List.pairwise_mergeSort
    · simpa using fun a b c : String => le_trans
    · simpa using le_total
  exact pairwise_dropRepeats (hsorted.imp of_decide_eq_true)

theorem nodup_distinct (texts : List String) : (distinct texts).Nodup :=
  (pairwise_distinct texts).imp ne_of_lt

/-! ## How often each text occurs -/

theorem get?_counted (k t : String) (counts : List (String × Nat)) :
    Keyed.get? k (counted counts t) =
      if k = t then some ((Keyed.get? k counts).getD 0 + 1) else Keyed.get? k counts := by
  rw [counted, Keyed.get?_put]
  by_cases hk : k = t
  · rw [if_pos hk, if_pos hk, hk]
  · rw [if_neg hk, if_neg hk]

theorem get?_foldl_counted (k : String) (texts : List String) (counts : List (String × Nat)) :
    Keyed.get? k (texts.foldl counted counts) =
      if k ∈ texts then some ((Keyed.get? k counts).getD 0 + texts.count k)
      else Keyed.get? k counts := by
  induction texts generalizing counts with
  | nil => simp
  | cons t rest ih =>
    rw [List.foldl_cons, ih, get?_counted, List.count_cons]
    by_cases hk : k = t
    · subst hk
      by_cases hrest : k ∈ rest
      · simp only [hrest, List.mem_cons_self, if_true, Option.getD_some, beq_self_eq_true]
        congr 1
        omega
      · simp [hrest, List.count_eq_zero_of_not_mem]
    · have hne : (t == k) = false := by simpa using Ne.symm hk
      simp [hk, hne]

theorem sorted_foldl_counted (texts : List String) {counts : List (String × Nat)}
    (h : Keyed.Sorted counts) : Keyed.Sorted (texts.foldl counted counts) := by
  induction texts generalizing counts with
  | nil => exact h
  | cons t rest ih => exact ih (Keyed.sorted_put _ _ h)

theorem Keyed.get?_map_self {β : Type} (k : String) (f : String → β) (keys : List String) :
    Keyed.get? k (keys.map fun t => (t, f t)) = if k ∈ keys then some (f k) else none := by
  induction keys with
  | nil => rfl
  | cons t rest ih =>
    rw [List.map_cons, get?, ih]
    by_cases hk : k = t
    · subst hk
      simp
    · simp [hk]

/-- A tally holds every text of the list once, with its number of occurrences. -/
theorem tally_eq (texts : List String) :
    tally texts = (distinct texts).map fun t => (t, texts.count t) := by
  refine Keyed.ext_of_sorted (sorted_foldl_counted texts List.Pairwise.nil) ?_ fun k => ?_
  · exact List.pairwise_map.mpr (pairwise_distinct texts)
  · rw [Keyed.get?_map_self, tally, get?_foldl_counted]
    simp only [mem_distinct, Keyed.get?, Option.getD_none, Nat.zero_add]

theorem sum_count_distinct (texts : List String) :
    ((distinct texts).map texts.count).sum = texts.length := by
  have hperm : (distinct texts).Perm texts.dedup :=
    (List.perm_ext_iff_of_nodup (nodup_distinct texts) texts.nodup_dedup).mpr fun t => by
      rw [mem_distinct, List.mem_dedup]
  rw [(hperm.map _).sum_eq]
  exact List.sum_map_count_dedup_eq_length texts

/-! ## The order of the counted entities -/

namespace EntityCount

def Above (a b : EntityCount) : Prop :=
  b.count < a.count ∨ a.count = b.count ∧ a.entity < b.entity

theorem precedes_iff {a b : EntityCount} :
    precedes a b = true ↔ b.count < a.count ∨ a.count = b.count ∧ a.entity ≤ b.entity := by
  simp [precedes]

theorem precedes_trans (a b c : EntityCount) (hab : precedes a b = true)
    (hbc : precedes b c = true) : precedes a c = true := by
  rw [precedes_iff] at hab hbc ⊢
  rcases hab with hab | ⟨hab, hle⟩
  · rcases hbc with hbc | ⟨hbc, -⟩
    · exact .inl (hbc.trans hab)
    · exact .inl (hbc ▸ hab)
  · rcases hbc with hbc | ⟨hbc, hle'⟩
    · exact .inl (hab ▸ hbc)
    · exact .inr ⟨hab.trans hbc, hle.trans hle'⟩

theorem precedes_total (a b : EntityCount) : (precedes a b || precedes b a) = true := by
  rw [Bool.or_eq_true, precedes_iff, precedes_iff]
  rcases Nat.lt_trichotomy a.count b.count with hlt | heq | hgt
  · exact .inr (.inl hlt)
  · rcases le_total a.entity b.entity with hle | hle
    · exact .inl (.inr ⟨heq, hle⟩)
    · exact .inr (.inr ⟨heq.symm, hle⟩)
  · exact .inl (.inl hgt)

theorem precedes_antisymm {a b : EntityCount} (hab : precedes a b = true)
    (hba : precedes b a = true) : a = b := by
  rw [precedes_iff] at hab hba
  rcases hab with hab | ⟨hcount, hle⟩
  · rcases hba with hba | ⟨hba, -⟩ <;> omega
  · rcases hba with hba | ⟨-, hle'⟩
    · omega
    · obtain ⟨entity, count⟩ := a
      obtain ⟨other, count'⟩ := b
      obtain rfl : count = count' := hcount
      obtain rfl : entity = other := le_antisymm hle hle'
      rfl

theorem above_of_precedes {a b : EntityCount} (h : precedes a b = true)
    (hne : a.entity ≠ b.entity) : a.Above b :=
  (precedes_iff.mp h).imp_right fun ⟨hcount, hle⟩ => ⟨hcount, lt_of_le_of_ne hle hne⟩

theorem pairwise_ranked (counts : List (String × Nat)) :
    (ranked counts).Pairwise fun a b => precedes a b = true :=
  List.pairwise_mergeSort precedes_trans precedes_total _

theorem ranked_perm (counts : List (String × Nat)) :
    (ranked counts).Perm (counts.map fun c => ⟨c.1, c.2⟩) :=
  List.mergeSort_perm _ _

/-- The order in which the counts come does not matter. -/
theorem ranked_eq_of_perm {counts counts' : List (String × Nat)} (h : counts.Perm counts') :
    ranked counts = ranked counts' := by
  refine List.Perm.eq_of_pairwise (fun _ _ _ _ => precedes_antisymm) (pairwise_ranked counts)
    (pairwise_ranked counts') ?_
  exact (ranked_perm counts).trans ((h.map _).trans (ranked_perm counts').symm)

end EntityCount

/-! ## The latest of some instants -/

namespace Timestamp

theorem before_iff {a b : Timestamp} : a.before b = true ↔
    a.day < b.day ∨ a.day = b.day ∧
      (a.second < b.second ∨ a.second = b.second ∧ a.nano < b.nano) := by
  simp [before]

theorem before_trans {a b c : Timestamp} (hab : a.before b = true) (hbc : b.before c = true) :
    a.before c = true := by
  rw [before_iff] at hab hbc ⊢
  omega

theorem eq_or_before {a b : Timestamp} (h : a.before b = false) : b = a ∨ b.before a = true := by
  rw [← Bool.not_eq_true, before_iff] at h
  rw [before_iff]
  obtain ⟨day, second, nano⟩ := a
  obtain ⟨day', second', nano'⟩ := b
  simp only [Timestamp.mk.injEq] at h ⊢
  omega

/-- What a search for the latest of the instants gives; there is none exactly among no instants. -/
structure IsLatest (times : List Timestamp) (found : Option Timestamp) : Prop where
  absent : found = none ↔ times = []
  occurs : ∀ t, found = some t → t ∈ times
  bounds : ∀ t, found = some t → ∀ u ∈ times, u = t ∨ u.before t = true

theorem isLatest_singleton (u : Timestamp) : IsLatest [u] (some u) where
  absent := by simp
  occurs := by
    rintro t ⟨⟩
    exact List.mem_singleton_self _
  bounds := by
    rintro t ⟨⟩ v hv
    exact .inl (List.mem_singleton.mp hv)

theorem IsLatest.snoc {times : List Timestamp} {t : Timestamp} (h : IsLatest times (some t))
    (u : Timestamp) : IsLatest (times ++ [u]) (some (t.latest u)) := by
  have hoccurs := h.occurs t rfl
  have hbounds := h.bounds t rfl
  unfold latest
  by_cases hlater : t.before u = true
  · rw [if_pos hlater]
    refine ⟨by simp, ?_, ?_⟩
    · rintro _ ⟨⟩
      exact List.mem_append_right _ (List.mem_singleton_self _)
    · rintro _ ⟨⟩ v hv
      rcases List.mem_append.mp hv with hold | hnew
      · rcases hbounds v hold with rfl | hbefore
        · exact .inr hlater
        · exact .inr (before_trans hbefore hlater)
      · exact .inl (List.mem_singleton.mp hnew)
  · rw [if_neg hlater]
    refine ⟨by simp, ?_, ?_⟩
    · rintro _ ⟨⟩
      exact List.mem_append_left _ hoccurs
    · rintro _ ⟨⟩ v hv
      rcases List.mem_append.mp hv with hold | hnew
      · exact hbounds v hold
      · rw [List.mem_singleton.mp hnew]
        exact eq_or_before (eq_false_of_ne_true hlater)

end Timestamp

namespace Library

variable {σ : Type} [ReportStore σ]

theorem length_matching (l : Library σ) (p : Definition → Bool) :
    (l.matching p).length = l.list.countP p := by
  rw [matching, List.length_map, List.countP_eq_length_filter]

theorem matching_ne_nil_iff {l : Library σ} {p : Definition → Bool} :
    l.matching p ≠ [] ↔ ∃ d ∈ l.list, p d = true := by
  simp [matching]

theorem length_byEntity (l : Library σ) (entity : String) :
    (l.byEntity entity).length = (l.list.map (·.primaryEntity)).count entity := by
  rw [byEntity, length_matching, List.count_eq_countP, List.countP_map]
  rfl

theorem mem_allTags_iff {l : Library σ} {tag : String} : tag ∈ l.allTags ↔ l.byTag tag ≠ [] := by
  rw [allTags, mem_distinct, byTag, matching_ne_nil_iff]
  simp

theorem mem_allEntities_iff {l : Library σ} {entity : String} :
    entity ∈ l.allEntities ↔ l.byEntity entity ≠ [] := by
  rw [allEntities, mem_distinct, byEntity, matching_ne_nil_iff]
  simp

theorem isLatest_lastUpdated (l : Library σ) :
    Timestamp.IsLatest (l.summaries.map (·.updatedAt)) l.lastUpdated := by
  have hsame : l.summaries.map (·.updatedAt) = l.list.map (·.updatedAt) := by
    rw [summaries, List.map_map]
    rfl
  rw [hsame, lastUpdated]
  -- the last report of the list is compared with what was found among the others
  induction l.list using List.reverseRecOn with
  | nil => exact ⟨⟨fun _ => rfl, fun _ => rfl⟩, nofun, nofun⟩
  | append_singleton reports d ih =>
    rw [List.foldl_append, List.map_append]
    generalize reports.foldl _ none = found at ih
    cases found with
    | none =>
      rw [ih.absent.mp rfl]
      exact Timestamp.isLatest_singleton d.updatedAt
    | some t => exact ih.snoc d.updatedAt

theorem breakdown_perm (l : Library σ) :
    l.breakdown.Perm (l.allEntities.map fun entity => ⟨entity, (l.byEntity entity).length⟩) := by
  have hranked : l.breakdown.Perm ((tally (l.list.map (·.primaryEntity))).map fun c => ⟨c.1, c.2⟩) :=
    EntityCount.ranked_perm _
  rw [tally_eq, List.map_map] at hranked
  simp only [length_byEntity]
  exact hranked

theorem entities_breakdown (l : Library σ) : (l.breakdown.map (·.entity)).Perm l.allEntities := by
  have hperm := l.breakdown_perm.map (·.entity)
  rw [List.map_map] at hperm
  exact hperm.trans (.of_eq (List.map_id' _))

theorem length_breakdown (l : Library σ) : l.breakdown.length = l.allEntities.length := by
  rw [l.breakdown_perm.length_eq, List.length_map]

theorem pairwise_breakdown (l : Library σ) : l.breakdown.Pairwise EntityCount.Above := by
  have hdistinct : (l.breakdown.map (·.entity)).Nodup :=
    l.entities_breakdown.nodup_iff.mpr (nodup_distinct _)
  have hordered := EntityCount.pairwise_ranked (tally (l.list.map (·.primaryEntity)))
  exact (hordered.and (List.pairwise_map.mp hdistinct)).imp fun ⟨hab, hne⟩ =>
    EntityCount.above_of_precedes hab hne

theorem count_breakdown {l : Library σ} {e : EntityCount} (h : e ∈ l.breakdown) :
    e.count = (l.byEntity e.entity).length := by
  obtain ⟨entity, -, rfl⟩ := List.mem_map.mp (l.breakdown_perm.mem_iff.mp h)
  rfl

theorem sum_breakdown (l : Library σ) : (l.breakdown.map (·.count)).sum = l.list.length := by
  have hsum := sum_count_distinct (l.list.map (·.primaryEntity))
  rw [List.length_map] at hsum
  rw [(l.breakdown_perm.map _).sum_eq, List.map_map, ← hsum]
  refine congrArg List.sum (List.map_congr_left fun entity _ => ?_)
  exact l.length_byEntity entity

structure Accounted (l : Library σ) : Prop where
  entities : (l.statistics.entityBreakdown.map (·.entity)).Perm l.allEntities
  ranked : l.statistics.entityBreakdown.Pairwise EntityCount.Above
  counted : ∀ e ∈ l.statistics.entityBreakdown, e.count = (l.byEntity e.entity).length
  anyOrder : ∀ counts, counts.Perm (tally (l.list.map (·.primaryEntity))) →
    EntityCount.ranked counts = l.statistics.entityBreakdown
  sum : (l.statistics.entityBreakdown.map (·.count)).sum = l.statistics.totalReports
  totalReports : l.statistics.totalReports = l.summaries.length
  totalEntities : l.statistics.totalEntities = l.allEntities.length
  totalTags : l.statistics.totalTags = l.allTags.length
  lastUpdated : Timestamp.IsLatest (l.summaries.map (·.updatedAt)) l.statistics.lastUpdated
  tagsAscend : l.allTags.Pairwise (· < ·)
  entitiesAscend : l.allEntities.Pairwise (· < ·)
  tags : ∀ tag, tag ∈ l.allTags ↔ l.byTag tag ≠ []
  withReports : ∀ entity, entity ∈ l.allEntities ↔ l.byEntity entity ≠ []

theorem statistics_accounted (l : Library σ) : l.Accounted where
  entities := l.entities_breakdown
  ranked := l.pairwise_breakdown
  counted _ := count_breakdown
  anyOrder _ := EntityCount.ranked_eq_of_perm
  sum := l.sum_breakdown
  totalReports := (List.length_map _).symm
  totalEntities := l.length_breakdown
  totalTags := rfl
  lastUpdated := l.isLatest_lastUpdated
  tagsAscend := pairwise_distinct _
  entitiesAscend := pairwise_distinct _
  tags _ := mem_allTags_iff
  withReports _ := mem_allEntities_iff

end Library

end ReportFlow
