import Mathlib.Data.List.Induction
import ReportFlow.Proofs.ByteOrder
import ReportFlow.Proofs.DirectoryCalls
import ReportFlow.Proofs.NewReports
import ReportFlow.Proofs.ObtainedReports

/-!
What a history of calls says by itself: which report was put last under an id and not deleted since,
and when that id arrived. A store in memory and one in a directory both hold what their history says,
so they answer alike; they differ only in the order of their lists.
-/

namespace ReportFlow

namespace ReportStore

/-- The report was put, and nothing has been put or deleted under its id since. -/
def LastPut (calls : List Call) (d : Definition) : Prop :=
  ∃ earlier later, calls = earlier ++ .put d :: later ∧ ∀ c ∈ later, ¬ c.Settles d.id

/-- The call at this turn put something under the id, which has not been deleted since; whatever
had been put there before was deleted in between. -/
def ArrivedAt (calls : List Call) (id : String) (turn : Nat) : Prop :=
  ∃ earlier d later, calls = earlier ++ .put d :: later ∧ earlier.length = turn ∧ d.id = id ∧
    .delete id ∉ later ∧
    ∀ first e rest, earlier = first ++ .put e :: rest → e.id = id → .delete id ∈ rest

section History

variable {calls : List Call} {c : Call} {d e : Definition} {id : String} {n : Nat}

theorem not_lastPut_nil : ¬ LastPut [] d := by
  rintro ⟨earlier, later, heq, -⟩
  simp at heq

theorem lastPut_snoc : LastPut (calls ++ [c]) d ↔ c = .put d ∨ (LastPut calls d ∧ ¬ c.Settles d.id) := by
  constructor
  · rintro ⟨earlier, later, heq, hlater⟩
    rcases List.eq_nil_or_concat later with rfl | ⟨rest, last, rfl⟩
    · left
      exact List.singleton_inj.mp (List.append_inj' heq rfl).2
    · right
      rw [List.concat_eq_append, ← List.cons_append, ← List.append_assoc] at heq
      obtain ⟨hcalls, hc⟩ := List.append_inj' heq rfl
      obtain rfl : c = last := List.singleton_inj.mp hc
      refine ⟨⟨earlier, rest, hcalls, ?_⟩, ?_⟩
      · intro c hc
        apply hlater
        simp [hc]
      · apply hlater
        simp
  · rintro (rfl | ⟨⟨earlier, later, rfl, hlater⟩, hc⟩)
    · exact ⟨calls, [], rfl, List.forall_mem_nil _⟩
    · refine ⟨earlier, later ++ [c], by simp, ?_⟩
      intro c' hc'
      rcases List.mem_append.mp hc' with hold | hnew
      · exact hlater c' hold
      · rw [List.mem_singleton.mp hnew]
        exact hc

/-- What was put under an id and not deleted leaves something there. -/
theorem exists_lastPut (earlier : List Call) {later : List Call} (h : .delete d.id ∉ later) :
    ∃ e, LastPut (earlier ++ .put d :: later) e ∧ e.id = d.id := by
  induction later using List.reverseRecOn with
  | nil => exact ⟨d, ⟨earlier, [], rfl, List.forall_mem_nil _⟩, rfl⟩
  | append_singleton later c ih =>
    rw [List.mem_append, not_or] at h
    obtain ⟨e, he, hid⟩ := ih h.1
    rw [← List.cons_append, ← List.append_assoc]
    by_cases hc : c.Settles e.id
    · cases c with
      | put r => exact ⟨r, lastPut_snoc.mpr (.inl rfl), hc.trans hid⟩
      | delete deleted =>
        have hdeleted : deleted = d.id := hc.trans hid
        exact absurd (List.mem_singleton.mpr (congrArg Call.delete hdeleted.symm)) h.2
      | get _ => exact absurd hc id
      | contains _ => exact absurd hc id
    · exact ⟨e, lastPut_snoc.mpr (.inr ⟨he, hc⟩), hid⟩

theorem ArrivedAt.lt (h : ArrivedAt calls id n) : n < calls.length := by
  obtain ⟨earlier, d, later, rfl, rfl, -⟩ := h
  simp

theorem ArrivedAt.snoc (h : ArrivedAt calls id n) (hc : c ≠ .delete id) :
    ArrivedAt (calls ++ [c]) id n := by
  obtain ⟨earlier, d, later, rfl, hn, hid, hlater, hearlier⟩ := h
  refine ⟨earlier, d, later ++ [c], by simp, hn, hid, ?_, hearlier⟩
  simpa [hlater] using hc.symm

theorem arrivedAt_of_free (h : ∀ e, LastPut calls e → e.id ≠ d.id) :
    ArrivedAt (calls ++ [.put d]) d.id calls.length := by
  refine ⟨calls, d, [], rfl, rfl, rfl, List.not_mem_nil, ?_⟩
  rintro first e rest rfl hid
  by_contra hdeleted
  rw [← hid] at hdeleted
  obtain ⟨r, hr, hre⟩ := exists_lastPut first hdeleted
  exact h r hr (hre.trans hid)

/-- Of two turns the later one had to find the id free, and then the earlier one does not count. -/
theorem ArrivedAt.not_lt {m : Nat} (h : ArrivedAt calls id m) (h' : ArrivedAt calls id n) : ¬ m < n := by
  obtain ⟨earlier, d, later, rfl, rfl, hid, hlater, -⟩ := h
  obtain ⟨earlier', d', later', heq, rfl, -, -, hearlier⟩ := h'
  intro hlt
  rcases List.append_eq_append_iff.mp heq with ⟨between, rfl, hrest⟩ | ⟨between, rfl, -⟩
  · cases between with
    | nil => simp at hlt
    | cons c between =>
      rw [List.cons_append, List.cons.injEq] at hrest
      obtain ⟨rfl, rfl⟩ := hrest
      have hdeleted := hearlier earlier d between rfl hid
      exact hlater (List.mem_append_left _ hdeleted)
  · rw [List.length_append] at hlt
    omega

theorem ArrivedAt.unique {m : Nat} (h : ArrivedAt calls id m) (h' : ArrivedAt calls id n) : m = n :=
  Nat.le_antisymm (Nat.not_lt.mp (h'.not_lt h)) (Nat.not_lt.mp (h.not_lt h'))

end History

/-! ## Stores that hold what their history says -/

/-- No id is listed twice, and the reports are those that were put last. -/
structure Holds {σ : Type} [ReportStore σ] (calls : List Call) (s : σ) : Prop where
  distinct : ((list s).map (·.id)).Nodup
  mem_iff : ∀ d, d ∈ list s ↔ LastPut calls d

namespace Holds

variable {σ τ : Type} [ReportStore σ] [ReportStore τ] {calls : List Call} {s : σ} {t : τ}
  {d : Definition} {id : String}

theorem nothing (h : list s = []) : Holds [] s where
  distinct := by simp [h]
  mem_iff d := by simp [h, not_lastPut_nil]

theorem get?_eq_some_iff (h : Holds calls s) : get? s id = some d ↔ LastPut calls d ∧ d.id = id := by
  rw [← h.mem_iff]
  constructor
  · intro hget
    exact ⟨List.mem_of_find?_eq_some hget, id_of_get? hget⟩
  · rintro ⟨hd, rfl⟩
    cases hget : get? s d.id with
    | none =>
      have hnone := List.find?_eq_none.mp hget d hd
      simp at hnone
    | some e =>
      have he : e ∈ list s := List.mem_of_find?_eq_some hget
      rw [List.inj_on_of_nodup_map h.distinct he hd (id_of_get? hget)]

/-- Two stores with one history find the same. -/
theorem get?_eq (h : Holds calls s) (h' : Holds calls t) (id : String) : get? s id = get? t id := by
  apply Option.ext
  intro d
  rw [h.get?_eq_some_iff, h'.get?_eq_some_iff]

theorem perm (h : Holds calls s) (h' : Holds calls t) : (list s).Perm (list t) := by
  apply (List.perm_ext_iff_of_nodup (List.Nodup.of_map _ h.distinct)
    (List.Nodup.of_map _ h'.distinct)).mpr
  intro d
  rw [h.mem_iff, h'.mem_iff]

theorem read (h : Holds calls s) {c : Call} (hc : ∀ id, ¬ c.Settles id) : Holds (calls ++ [c]) s where
  distinct := h.distinct
  mem_iff d := by
    rw [h.mem_iff, lastPut_snoc]
    have hput : c ≠ .put d := by
      rintro rfl
      exact hc d.id rfl
    simp [hput, hc]

theorem put (h : Holds calls s) (hdistinct : ((list t).map (·.id)).Nodup)
    (hlist : ∀ e, e ∈ list t ↔ e = d ∨ (e ∈ list s ∧ e.id ≠ d.id)) :
    Holds (calls ++ [.put d]) t where
  distinct := hdistinct
  mem_iff e := by
    rw [hlist, h.mem_iff, lastPut_snoc]
    simp [Call.Settles, eq_comm]

theorem delete (h : Holds calls s) (hdistinct : ((list t).map (·.id)).Nodup)
    (hlist : ∀ e, e ∈ list t ↔ e ∈ list s ∧ e.id ≠ id) : Holds (calls ++ [.delete id]) t where
  distinct := hdistinct
  mem_iff e := by
    rw [hlist, h.mem_iff, lastPut_snoc]
    simp [Call.Settles, eq_comm]

end Holds

structure InArrivalOrder (calls : List Call) (reports : List Definition) : Prop where
  arrived : ∀ d ∈ reports, ∃! turn, ArrivedAt calls d.id turn
  ascending : (reports.map (·.id)).Pairwise fun a b =>
    ∃ m n, ArrivedAt calls a m ∧ ArrivedAt calls b n ∧ m < n

end ReportStore

open ReportStore

/-! ## The store in memory -/

namespace MemoryStore

variable {calls : List Call} {s : MemoryStore} {c : Call} {d : Definition} {id : String}

/-- The ids that a call leaves alone stay in their order. -/
theorem inArrivalOrder_snoc {reports left : List Definition} (h : InArrivalOrder calls reports)
    (hids : (left.map (·.id)).Sublist (reports.map (·.id))) (hc : ∀ r ∈ left, c ≠ .delete r.id) :
    InArrivalOrder (calls ++ [c]) left := by
  constructor
  · intro d hd
    obtain ⟨r, hr, hid⟩ := List.mem_map.mp (hids.subset (List.mem_map_of_mem hd))
    obtain ⟨turn, hturn, -⟩ := h.arrived r hr
    rw [hid] at hturn
    have hlater := hturn.snoc (hc d hd)
    exact ⟨turn, hlater, fun _ hother => hother.unique hlater⟩
  · apply (h.ascending.sublist hids).imp_of_mem
    rintro a b ha hb ⟨m, n, hm, hn, hlt⟩
    obtain ⟨x, hx, rfl⟩ := List.mem_map.mp ha
    obtain ⟨y, hy, rfl⟩ := List.mem_map.mp hb
    exact ⟨m, n, hm.snoc (hc x hx), hn.snoc (hc y hy), hlt⟩

/-- A new id arrives after all others. -/
theorem inArrivalOrder_append (h : Holds calls s) (horder : InArrivalOrder calls s.reports)
    (hfree : ∀ r ∈ s.reports, r.id ≠ d.id) :
    InArrivalOrder (calls ++ [.put d]) (s.reports ++ [d]) := by
  have hold : InArrivalOrder (calls ++ [.put d]) s.reports :=
    inArrivalOrder_snoc horder (List.Sublist.refl _) (by simp)
  have hnew : ArrivedAt (calls ++ [.put d]) d.id calls.length := by
    apply arrivedAt_of_free
    intro e he
    exact hfree e ((h.mem_iff e).mpr he)
  constructor
  · intro r hr
    rcases List.mem_append.mp hr with hr | hr
    · exact hold.arrived r hr
    · rw [List.mem_singleton.mp hr]
      exact ⟨calls.length, hnew, fun _ hother => hother.unique hnew⟩
  · rw [List.map_append, List.map_singleton]
    apply List.pairwise_append.mpr
    refine ⟨hold.ascending, List.pairwise_singleton _ _, ?_⟩
    intro a ha b hb
    obtain ⟨r, hr, rfl⟩ := List.mem_map.mp ha
    rw [List.mem_singleton.mp hb]
    obtain ⟨turn, hturn, -⟩ := horder.arrived r hr
    exact ⟨turn, calls.length, hturn.snoc (by simp), hnew, hturn.lt⟩

theorem holds_run (h : Holds calls s) (c : Call) : Holds (calls ++ [c]) (c.run s).2 := by
  cases c with
  | put d => exact h.put (nodup_upsert d h.distinct) fun e => mem_upsert_iff h.distinct
  | delete id =>
    apply h.delete (h.distinct.sublist (List.filter_sublist.map _))
    intro e
    show e ∈ s.reports.filter _ ↔ e ∈ s.reports ∧ e.id ≠ id
    simp
  | get id => exact h.read fun _ hc => hc
  | contains id => exact h.read fun _ hc => hc

theorem inArrivalOrder_run (h : Holds calls s) (horder : InArrivalOrder calls s.reports) (c : Call) :
    InArrivalOrder (calls ++ [c]) (c.run s).2.reports := by
  cases c with
  | put d =>
    show InArrivalOrder _ (upsert d s.reports)
    by_cases htaken : ∃ r ∈ s.reports, r.id = d.id
    · apply inArrivalOrder_snoc horder _ (by simp)
      rw [ids_upsert_of_taken htaken]
    · have hfree : ∀ r ∈ s.reports, r.id ≠ d.id := fun r hr hid => htaken ⟨r, hr, hid⟩
      rw [upsert_of_free hfree]
      exact inArrivalOrder_append h horder hfree
  | delete id =>
    apply inArrivalOrder_snoc horder (List.filter_sublist.map _)
    rintro r hr heq
    cases heq
    simpa using List.of_mem_filter hr
  | get id => exact inArrivalOrder_snoc horder (List.Sublist.refl _) (by simp)
  | contains id => exact inArrivalOrder_snoc horder (List.Sublist.refl _) (by simp)

theorem holds_after (calls : List Call) :
    Holds calls (after calls empty) ∧ InArrivalOrder calls (after calls empty).reports := by
  induction calls using List.reverseRecOn with
  | nil => exact ⟨.nothing rfl, List.forall_mem_nil _, List.Pairwise.nil⟩
  | append_singleton calls c ih =>
    rw [after_snoc]
    exact ⟨holds_run ih.1 c, inArrivalOrder_run ih.1 ih.2 c⟩

/-- The store gets smaller exactly when something stood under the id. -/
theorem size_erase_lt_iff : (s.erase id).size < s.size ↔ ReportStore.contains s id = true := by
  show (s.reports.filter _).length < s.reports.length ↔ (s.reports.find? _).isSome = true
  rw [List.length_filter_lt_length_iff_exists]
  simp

end MemoryStore

/-! ## The store in a directory -/

namespace DirectoryStore

variable {calls : List Call} {s : DirectoryStore} {c : Call}

theorem Indexed.bytes_ascend (hs : s.Indexed) :
    (ReportStore.list s).Pairwise fun d e => Text.bytes d.id < Text.bytes e.id := by
  have hkeys : (s.reports.map (·.1)).Pairwise fun a b => Text.bytes a < Text.bytes b :=
    List.pairwise_map.mpr (hs.sorted.imp Text.bytes_lt)
  rw [← hs.list_ids, List.pairwise_map] at hkeys
  exact hkeys

theorem holds_run (h : Holds calls s) (hs : s.Indexed) (hok : (c.run s).1.isFault = false) :
    Holds (calls ++ [c]) (c.run s).2 ∧ (c.run s).2.Indexed := by
  cases c with
  | put d =>
    obtain ⟨u, hresult⟩ := Answer.put_eq_ok hok
    have hafter : (s.put d).store.Indexed := hs.put hresult
    exact ⟨h.put hafter.nodup_ids fun e => hs.mem_list_put hresult, hafter⟩
  | delete id =>
    obtain ⟨b, hresult⟩ := Answer.delete_eq_ok hok
    have hafter : (s.delete id).store.Indexed := hs.delete hresult
    exact ⟨h.delete hafter.nodup_ids fun e => hs.mem_list_delete hresult, hafter⟩
  | get id => exact ⟨h.read fun _ hc => hc, hs⟩
  | contains id => exact ⟨h.read fun _ hc => hc, hs⟩

theorem holds_after {calls : List Call} (hs : s.Indexed) (hempty : ReportStore.list s = [])
    (hok : ∀ a ∈ answers calls s, a.isFault = false) :
    Holds calls (after calls s) ∧ (after calls s).Indexed := by
  induction calls using List.reverseRecOn with
  | nil => exact ⟨.nothing hempty, hs⟩
  | append_singleton calls c ih =>
    rw [answers_append, List.forall_mem_append] at hok
    obtain ⟨hholds, hindexed⟩ := ih hok.1
    rw [after_snoc]
    exact holds_run hholds hindexed (hok.2 _ List.mem_cons_self)

end DirectoryStore

/-! ## Both stores -/

/-- Two stores with one history answer alike, where the one in a directory answers at all. -/
theorem answer_eq {calls : List Call} {m : MemoryStore} {f : DirectoryStore}
    (hm : Holds calls m) (hf : Holds calls f) (hs : f.Indexed) {c : Call}
    (hok : (c.run f).1.isFault = false) : (c.run m).1 = (c.run f).1 := by
  cases c with
  | put d =>
    obtain ⟨u, hresult⟩ := Answer.put_eq_ok hok
    exact congrArg Answer.put hresult.symm
  | delete id =>
    obtain ⟨b, hresult⟩ := Answer.delete_eq_ok hok
    have hb : b = ReportStore.contains f id := by
      rw [(DirectoryStore.delete_ok hresult).1, ReportStore.contains, hs.get?_eq]
    have hanswer : decide ((m.erase id).size < m.size) = b := by
      rw [hb, ReportStore.contains, ← hm.get?_eq hf, Bool.eq_iff_iff, decide_eq_true_iff]
      exact MemoryStore.size_erase_lt_iff
    show Answer.delete (.ok (decide ((m.erase id).size < m.size))) = Answer.delete (f.delete id).result
    rw [hanswer]
    exact congrArg Answer.delete hresult.symm
  | get id => exact congrArg Answer.get (hm.get?_eq hf id)
  | contains id => exact congrArg (fun r => Answer.contains r.isSome) (hm.get?_eq hf id)

theorem answers_eq {calls : List Call} {path : String} {disk : Disk}
    (hok : ∀ a ∈ answers calls (DirectoryStore.atPath path disk), a.isFault = false) :
    answers calls MemoryStore.empty = answers calls (DirectoryStore.atPath path disk) := by
  induction calls using List.reverseRecOn with
  | nil => rfl
  | append_singleton calls c ih =>
    rw [answers_append, List.forall_mem_append] at hok
    obtain ⟨hf, hs⟩ := DirectoryStore.holds_after (.initial path disk) rfl hok.1
    have hlast := answer_eq (MemoryStore.holds_after calls).1 hf hs (hok.2 _ List.mem_cons_self)
    rw [answers_append, answers_append, ih hok.1, answers, answers, hlast]
    rfl

/-- A store in memory and one in a directory are one map from ids to reports. Whatever is called, as
long as no operation of the disk fails, they answer alike, and after each call they list the reports
that were put last: the one in the order in which the ids arrived, the other in that of their bytes.
Filling a store from a list puts its reports one by one. -/
theorem stores_agree {calls : List Call} {path : String} {disk : Disk}
    (hok : ∀ a ∈ answers calls (DirectoryStore.atPath path disk), a.isFault = false) :
    answers calls MemoryStore.empty = answers calls (DirectoryStore.atPath path disk) ∧
      (∀ past, past <+: calls →
        let m := after past MemoryStore.empty
        let f := after past (DirectoryStore.atPath path disk)
        Holds past m ∧ Holds past f ∧ (ReportStore.list m).Perm (ReportStore.list f) ∧
          InArrivalOrder past (ReportStore.list m) ∧
          (ReportStore.list f).Pairwise fun d e => Text.bytes d.id < Text.bytes e.id) ∧
      ∀ ds, MemoryStore.ofList ds = after (ds.map .put) MemoryStore.empty := by
  refine ⟨answers_eq hok, ?_, ?_⟩
  · rintro past ⟨rest, rfl⟩ m f
    rw [answers_append, List.forall_mem_append] at hok
    obtain ⟨hm, horder⟩ := MemoryStore.holds_after past
    obtain ⟨hf, hs⟩ := DirectoryStore.holds_after (.initial path disk) rfl hok.1
    exact ⟨hm, hf, hm.perm hf, horder, hs.bytes_ascend⟩
  · intro ds
    rw [MemoryStore.ofList, after, List.foldl_map]
    rfl

namespace Sample

def traffic : List Call :=
  [.put (accounts "c"), .put (accounts "b"), .delete "c", .put (accounts "a"), .contains "c",
    .put (accounts "c"), .put { accounts "b" with name := "Accounts of the year" }, .get "b"]

end Sample

theorem stores_agree_traffic :
    let m := after Sample.traffic MemoryStore.empty
    let f := after Sample.traffic (DirectoryStore.atPath "reports" (.sound .absent))
    answers Sample.traffic MemoryStore.empty =
        answers Sample.traffic (DirectoryStore.atPath "reports" (.sound .absent)) ∧
      (ReportStore.list m).Perm (ReportStore.list f) ∧
      (ReportStore.list m).map (·.id) = ["b", "a", "c"] ∧
      (ReportStore.list f).map (·.id) = ["a", "b", "c"] := by
  intro m f
  have hok : ∀ a ∈ answers Sample.traffic (DirectoryStore.atPath "reports" (.sound .absent)),
      a.isFault = false := by decide +kernel
  obtain ⟨hanswers, hlists, -⟩ := stores_agree hok
  obtain ⟨-, -, hperm, -⟩ := hlists Sample.traffic List.prefix_rfl
  exact ⟨hanswers, hperm, by decide +kernel, by decide +kernel⟩

end ReportFlow
