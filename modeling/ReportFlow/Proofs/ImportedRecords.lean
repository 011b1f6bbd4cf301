import ReportFlow.Library.Bundle
import ReportFlow.Proofs.DefinitionCodec

/-!
What an import makes of a record: a definition with an id, well formed, and no deeper than the record
or the types of a definition reach. A copy and a renamed import are as deep as the report they were
made from.
-/

namespace ReportFlow

namespace Source

theorem mem_ofMembers {members : List (String × Json)} {m : Key × Source}
    (h : m ∈ ofMembers members) : ∃ e ∈ members, m = (.name e.1, ofJson e.2) := by
  induction members with
  | nil => cases h
  | cons e rest ih =>
    obtain ⟨key, value⟩ := e
    rcases List.mem_cons.mp h with rfl | h
    · exact ⟨_, List.mem_cons_self, rfl⟩
    · obtain ⟨e, he, heq⟩ := ih h
      exact ⟨e, List.mem_cons_of_mem _ he, heq⟩

end Source

namespace Json

/-- The parts of a value in normal form are in normal form, and nest less deep. -/
theorem of_mem_items {items : List Json} (h : (array items).normal = array items) {item : Json}
    (hitem : item ∈ items) : item.normal = item ∧ item.depth < (array items).depth := by
  have hitems : normalItems items = items := Json.array.inj h
  constructor
  · clear h
    induction items with
    | nil => cases hitem
    | cons first rest ih =>
      obtain ⟨hfirst, hrest⟩ := List.cons.inj hitems
      rcases List.mem_cons.mp hitem with rfl | hitem
      · exact hfirst
      · exact ih hitem hrest
  · exact Nat.lt_succ_of_le (depth_le_itemsDepth hitem)

theorem get?_normal {members : List (String × Json)} (hkeys : (members.map (·.1)).Nodup)
    (key : String) : (object members).normal.get? key = (Keyed.get? key members).map normal := by
  have hnormal : ((members.map fun m => (m.1, m.2.normal)).map (·.1)).Nodup := by
    rw [List.map_map]
    exact hkeys
  show Keyed.get? key (Keyed.ofList (normalMembers members)) = _
  rw [normalMembers_eq_map, Keyed.get?_ofList key hnormal, Keyed.get?_map]

theorem of_get? {j value : Json} {key : String} (h : j.normal = j) (hget : j.get? key = some value) :
    value.normal = value ∧ value.depth < j.depth := by
  cases j with
  | object members =>
    have hmem : (key, value) ∈ members := Keyed.mem_of_get? hget
    exact ⟨(normal_object_iff.mp h).2 _ hmem, Nat.lt_succ_of_le (depth_le_membersDepth hmem)⟩
  | _ => cases hget

theorem membersDepth_put (key : String) (value : Json) (members : List (String × Json)) :
    membersDepth (Keyed.put key value members) ≤ max value.depth (membersDepth members) := by
  rw [membersDepth_le_iff]
  intro m hm
  rcases Keyed.mem_put hm with rfl | hold
  · exact Nat.le_max_left _ _
  · exact Nat.le_trans (depth_le_membersDepth hold) (Nat.le_max_right _ _)

end Json

namespace Record

/-- The members that an import sets: they are flat, and none of them is the id. -/
structure Resets (before after : List (String × Json)) : Prop where
  sorted : Keyed.Sorted before → Keyed.Sorted after
  id : Keyed.get? "id" after = Keyed.get? "id" before
  depth : Json.membersDepth after ≤ Json.membersDepth before

theorem Resets.put {before after : List (String × Json)} (h : Resets before after) {key : String}
    {value : Json} (hkey : "id" ≠ key) (hvalue : value.depth = 0) :
    Resets before (Keyed.put key value after) where
  sorted hbefore := Keyed.sorted_put key value (h.sorted hbefore)
  id := by
    rw [Keyed.get?_put, if_neg hkey]
    exact h.id
  depth := by
    have := Json.membersDepth_put key value after
    have := h.depth
    omega

theorem reset_object (members : List (String × Json)) (now : Timestamp) :
    ∃ after, reset (.object members) now = .object after ∧ Resets members after := by
  have hset : Resets members (Keyed.put "reportVersion" (.number (.integer 1))
      (Keyed.put "updatedAt" (Timestamp.codec.encode now)
        (Keyed.put "createdAt" (Timestamp.codec.encode now) members))) := by
    have hsame : Resets members members := ⟨id, rfl, Nat.le_refl _⟩
    exact ((hsame.put (by decide) rfl).put (by decide) rfl).put (by decide) rfl
  refine ⟨_, rfl, ?_⟩
  split
  · exact hset
  · exact hset.put (by decide) rfl

/-- A complete record is an object with an id. -/
theorem id_of_isComplete {record : Json} (h : isComplete record = true) :
    ∃ members id, record = .object members ∧ Keyed.get? "id" members = some (.string id) ∧ id ≠ "" := by
  have hid : ((record.get? "id").bind Json.string?).any (· ≠ "") = true :=
    List.all_eq_true.mp h "id" List.mem_cons_self
  cases record with
  | object members =>
    cases hget : Keyed.get? "id" members with
    | none =>
      rw [Json.get?, hget] at hid
      cases hid
    | some j =>
      rw [Json.get?, hget] at hid
      cases j with
      | string id => exact ⟨members, id, rfl, hget, of_decide_eq_true hid⟩
      | _ => cases hid
  | _ => cases hid

def Stands (members : List (String × Json)) (key : String) (s : Source) : Prop :=
  ∃ j, (key, j) ∈ members ∧ s = .ofJson j

/-- The id of a decoded object is that of its member. -/
theorem id_of_decode {members : List (String × Json)} (hsorted : Keyed.Sorted members) {id : String}
    (hid : Keyed.get? "id" members = some (.string id)) {d : Definition}
    (h : Definition.codec.ofJson? (.object members) = .ok d) : d.id = id := by
  obtain ⟨t, ht, rfl⟩ := map_eq_ok_iff.mp h
  have hmembers : ∀ m ∈ Source.ofMembers members, ∀ {key}, m.1 = .name key →
      Stands members key m.2 := by
    intro m hm key hkey
    obtain ⟨e, he, rfl⟩ := Source.mem_ofMembers hm
    cases hkey
    exact ⟨e.2, he, rfl⟩
  obtain ⟨-, hread, -⟩ := Fields.given_of_object hmembers ht
  obtain ⟨o, s, ⟨j, hj, rfl⟩, hs⟩ | habsent := hread
  · have hsame : Keyed.get? "id" members = some j := Keyed.get?_of_mem hsorted.distinct hj
    rw [hid] at hsame
    cases hsame
    exact (Except.ok.inj hs).symm
  · cases habsent

theorem id_withEntity (d : Definition) : (withEntity d).id = d.id := by
  unfold withEntity
  split
  · rfl
  · rfl

theorem wellFormed_withEntity {d : Definition} (h : d.WellFormed) : (withEntity d).WellFormed := by
  unfold withEntity
  split
  · exact ⟨h.parameters, h.graph, h.artifacts⟩
  · exact h

theorem depth_withEntity (d : Definition) :
    (Definition.codec.encode (withEntity d)).depth = (Definition.codec.encode d).depth := by
  unfold withEntity
  split
  · exact Definition.depth_of_flat d d.id d.name _ d.createdAt d.updatedAt d.reportVersion
  · rfl

/-- What an import makes of a record. -/
theorem of_definition {record : Json} {now : Timestamp} {d : Definition}
    (hnormal : record.normal = record) (h : definition record now = .ok d) :
    d.id ≠ "" ∧ d.WellFormed ∧ (Definition.codec.encode d).depth ≤ max record.depth 9 := by
  unfold definition at h
  split at h
  · rename_i hcomplete
    obtain ⟨e, he, rfl⟩ := map_eq_ok_iff.mp h
    have hread := mapError_eq_ok_iff.mp he
    obtain ⟨members, id, rfl, hid, hne⟩ := id_of_isComplete hcomplete
    obtain ⟨after, hafter, hresets⟩ := reset_object members now
    rw [hafter] at hread
    have hsame := id_of_decode (hresets.sorted (Json.normal_object_iff.mp hnormal).1)
      (hresets.id.trans hid) hread
    obtain ⟨hformed, hdepth⟩ := Definition.of_decode hread
    rw [Source.depth_ofJson, Json.depth] at hdepth
    refine ⟨?_, wellFormed_withEntity hformed, ?_⟩
    · rw [id_withEntity, hsame]
      exact hne
    · have := hresets.depth
      rw [depth_withEntity, Json.depth]
      omega
  · cases h

theorem depth_renamed (d : Definition) (s : Sources) :
    (Definition.codec.encode (renamed d s)).depth = (Definition.codec.encode d).depth :=
  Definition.depth_of_flat d _ _ d.primaryEntity d.createdAt d.updatedAt d.reportVersion

end Record

theorem Library.depth_copyOf (d : Definition) (name : Option String) (s : Sources) :
    (Definition.codec.encode (copyOf d name s)).depth = (Definition.codec.encode d).depth :=
  Definition.depth_of_flat d _ _ d.primaryEntity _ _ _

end ReportFlow
