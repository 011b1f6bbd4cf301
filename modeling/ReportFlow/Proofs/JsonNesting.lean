import ReportFlow.Json.Reader
import ReportFlow.Proofs.KeyedEntries
import ReportFlow.Proofs.Sequencing

/-!
How deep containers stand inside each other in a JSON value, and what a reader makes of a value when
only so many containers may be opened: the value itself while there is room, and a fault otherwise.
-/

namespace ReportFlow

open Json.Reader (tooDeep)

namespace Json

/-- Induction where the parts of a container are taken as one family. -/
theorem induct {P : Json → Prop} (hnull : P .null) (hbool : ∀ b, P (.bool b))
    (hnumber : ∀ n, P (.number n)) (hstring : ∀ s, P (.string s))
    (harray : ∀ items, (∀ item ∈ items, P item) → P (.array items))
    (hobject : ∀ members, (∀ m ∈ members, P m.2) → P (.object members)) (j : Json) : P j := by
  refine @Json.rec P (fun items => ∀ item ∈ items, P item) (fun members => ∀ m ∈ members, P m.2)
    (fun m => P m.2) hnull hbool hnumber hstring harray hobject ?_ ?_ ?_ ?_ ?_ j
  · exact List.forall_mem_nil P
  · intro item rest hitem hrest
    exact List.forall_mem_cons.mpr ⟨hitem, hrest⟩
  · exact List.forall_mem_nil _
  · intro m rest hm hrest
    exact List.forall_mem_cons.mpr ⟨hm, hrest⟩
  · intro key value hvalue
    exact hvalue

mutual

def depth : Json → Nat
  | array items => itemsDepth items + 1
  | object members => membersDepth members + 1
  | _ => 0

def itemsDepth : List Json → Nat
  | [] => 0
  | item :: rest => max (depth item) (itemsDepth rest)

def membersDepth : List (String × Json) → Nat
  | [] => 0
  | (_, value) :: rest => max (depth value) (membersDepth rest)

end

theorem itemsDepth_le_iff {items : List Json} {n : Nat} :
    itemsDepth items ≤ n ↔ ∀ item ∈ items, item.depth ≤ n := by
  induction items with
  | nil => simp [itemsDepth]
  | cons item rest ih => rw [itemsDepth, Nat.max_le, ih, List.forall_mem_cons]

theorem membersDepth_le_iff {members : List (String × Json)} {n : Nat} :
    membersDepth members ≤ n ↔ ∀ m ∈ members, m.2.depth ≤ n := by
  induction members with
  | nil => simp [membersDepth]
  | cons m rest ih => rw [membersDepth, Nat.max_le, ih, List.forall_mem_cons]

theorem depth_le_itemsDepth {items : List Json} {item : Json} (h : item ∈ items) :
    item.depth ≤ itemsDepth items :=
  itemsDepth_le_iff.mp (Nat.le_refl _) item h

theorem depth_le_membersDepth {members : List (String × Json)} {m : String × Json} (h : m ∈ members) :
    m.2.depth ≤ membersDepth members :=
  membersDepth_le_iff.mp (Nat.le_refl _) m h

mutual

/-- What stands in a text of the value for a reader who may open `room` more containers. -/
def asRead (room : Nat) : Json → Source
  | null => .null
  | bool b => .bool b
  | number n => .number n
  | string s => .string s
  | array items =>
    let source := Source.array (itemsAsRead (room - 1) items) .closed
    if room = 0 then tooDeep source .expectedValue else source
  | object members =>
    let source := Source.object (membersAsRead (room - 1) members) .closed
    if room = 0 then tooDeep source .nestingLimit else source

def itemsAsRead (room : Nat) : List Json → List Source
  | [] => []
  | item :: rest => asRead room item :: itemsAsRead room rest

def membersAsRead (room : Nat) : List (String × Json) → List (Key × Source)
  | [] => []
  | (key, value) :: rest => (.name key, asRead room value) :: membersAsRead room rest

end

theorem ofItems_eq_map (items : List Json) : Source.ofItems items = items.map Source.ofJson := by
  induction items with
  | nil => rfl
  | cons item rest ih => rw [Source.ofItems, ih, List.map_cons]

theorem ofMembers_eq_map (members : List (String × Json)) :
    Source.ofMembers members = members.map fun m => (.name m.1, Source.ofJson m.2) := by
  induction members with
  | nil => rfl
  | cons m rest ih => rw [Source.ofMembers, ih, List.map_cons]

theorem itemsAsRead_eq_map (room : Nat) (items : List Json) :
    itemsAsRead room items = items.map (asRead room) := by
  induction items with
  | nil => rfl
  | cons item rest ih => rw [itemsAsRead, ih, List.map_cons]

theorem membersAsRead_eq_map (room : Nat) (members : List (String × Json)) :
    membersAsRead room members = members.map fun m => (.name m.1, m.2.asRead room) := by
  induction members with
  | nil => rfl
  | cons m rest ih => rw [membersAsRead, ih, List.map_cons]

theorem normalItems_eq_map (items : List Json) : normalItems items = items.map normal := by
  induction items with
  | nil => rfl
  | cons item rest ih => rw [normalItems, ih, List.map_cons]

theorem normalMembers_eq_map (members : List (String × Json)) :
    normalMembers members = members.map fun m => (m.1, m.2.normal) := by
  induction members with
  | nil => rfl
  | cons m rest ih => rw [normalMembers, ih, List.map_cons]

/-! ## Free values

A free value is kept in its normal form, so reading gives the normal form of what was written. -/

theorem normalItems_of_normal {items : List Json} (h : ∀ item ∈ items, item.normal = item) :
    normalItems items = items := by
  induction items with
  | nil => rfl
  | cons item rest ih =>
    obtain ⟨hitem, hrest⟩ := List.forall_mem_cons.mp h
    rw [normalItems, hitem, ih hrest]

theorem normalMembers_of_normal {members : List (String × Json)}
    (h : ∀ m ∈ members, m.2.normal = m.2) : normalMembers members = members := by
  induction members with
  | nil => rfl
  | cons m rest ih =>
    obtain ⟨hm, hrest⟩ := List.forall_mem_cons.mp h
    rw [normalMembers, hm, ih hrest]

/-- An object is in normal form when its members ascend and are in normal form. -/
theorem normal_object {members : List (String × Json)} (hsorted : Keyed.Sorted members)
    (h : ∀ m ∈ members, m.2.normal = m.2) : (object members).normal = object members := by
  rw [normal, normalMembers_of_normal h, Keyed.ofList_of_sorted hsorted]

theorem toItems_asRead {room : Nat} {items : List Json}
    (h : ∀ item ∈ items, (item.asRead room).toJson =
      if item.depth ≤ room then .ok item.normal else .error .nestingLimit) :
    Source.toItems (itemsAsRead room items) =
      if itemsDepth items ≤ room then .ok (normalItems items) else .error .nestingLimit := by
  induction items with
  | nil => rfl
  | cons item rest ih =>
    obtain ⟨hitem, hrest⟩ := List.forall_mem_cons.mp h
    simp only [itemsAsRead, Source.toItems, itemsDepth, normalItems, Nat.max_le, hitem, ih hrest]
    by_cases hd : item.depth ≤ room
    · by_cases hds : itemsDepth rest ≤ room <;> simp [hd, hds] <;> rfl
    · simp only [hd, false_and, if_false]
      rfl

theorem toMembers_asRead {room : Nat} {members : List (String × Json)}
    (h : ∀ m ∈ members, (m.2.asRead room).toJson =
      if m.2.depth ≤ room then .ok m.2.normal else .error .nestingLimit) :
    Source.toMembers (membersAsRead room members) =
      if membersDepth members ≤ room then .ok (normalMembers members) else .error .nestingLimit := by
  induction members with
  | nil => rfl
  | cons m rest ih =>
    obtain ⟨key, value⟩ := m
    obtain ⟨hvalue, hrest⟩ := List.forall_mem_cons.mp h
    simp only [membersAsRead, Source.toMembers, membersDepth, normalMembers, Nat.max_le, hvalue,
      ih hrest]
    by_cases hd : value.depth ≤ room
    · by_cases hds : membersDepth rest ≤ room <;> simp [hd, hds] <;> rfl
    · simp only [hd, false_and, if_false]
      rfl

theorem toJson_asRead (j : Json) (room : Nat) :
    (j.asRead room).toJson = if j.depth ≤ room then .ok j.normal else .error .nestingLimit := by
  induction j using induct generalizing room with
  | hnull => rfl
  | hbool b => rfl
  | hnumber n => rfl
  | hstring s => rfl
  | harray items ih =>
    cases room with
    | zero => rfl
    | succ room =>
      have hitems := toItems_asRead fun item hitem => ih item hitem room
      simp only [asRead, Nat.add_one_ne_zero, if_false, Nat.add_sub_cancel, Source.toJson, hitems,
        depth, Nat.add_le_add_iff_right, normal]
      by_cases hd : itemsDepth items ≤ room <;> simp [hd] <;> rfl
  | hobject members ih =>
    cases room with
    | zero => rfl
    | succ room =>
      have hmembers := toMembers_asRead fun m hm => ih m hm room
      simp only [asRead, Nat.add_one_ne_zero, if_false, Nat.add_sub_cancel, Source.toJson, hmembers,
        depth, Nat.add_le_add_iff_right, normal]
      by_cases hd : membersDepth members ≤ room <;> simp [hd] <;> rfl

/-- With room for all its containers a value is read as it is. -/
theorem asRead_of_depth_le {j : Json} {room : Nat} (h : j.depth ≤ room) :
    j.asRead room = Source.ofJson j := by
  induction j using induct generalizing room with
  | hnull => rfl
  | hbool b => rfl
  | hnumber n => rfl
  | hstring s => rfl
  | harray items ih =>
    rw [depth] at h
    have hroom : room ≠ 0 := by omega
    simp only [asRead, if_neg hroom, itemsAsRead_eq_map, Source.ofJson, ofItems_eq_map]
    congr 1
    refine List.map_congr_left fun item hitem => ih item hitem ?_
    have hdepth := depth_le_itemsDepth hitem
    omega
  | hobject members ih =>
    rw [depth] at h
    have hroom : room ≠ 0 := by omega
    simp only [asRead, if_neg hroom, membersAsRead_eq_map, Source.ofJson, ofMembers_eq_map]
    congr 1
    refine List.map_congr_left fun m hm => congrArg (Prod.mk _) (ih m hm ?_)
    have hdepth := depth_le_membersDepth hm
    omega

theorem toJson_ofJson (j : Json) : (Source.ofJson j).toJson = .ok j.normal := by
  rw [← asRead_of_depth_le (Nat.le_refl j.depth), toJson_asRead, if_pos (Nat.le_refl j.depth)]

end Json

namespace Source

/-- Induction where the parts of a container are taken as one family. -/
theorem induct {P : Source → Prop} (hnull : P .null) (hbool : ∀ b, P (.bool b))
    (hnumber : ∀ n, P (.number n)) (hstring : ∀ s, P (.string s))
    (harray : ∀ items ending, (∀ item ∈ items, P item) → P (.array items ending))
    (hobject : ∀ members ending, (∀ m ∈ members, P m.2) → P (.object members ending))
    (hfaulty : ∀ f, P (.faulty f)) (s : Source) : P s := by
  refine @Source.rec P (fun items => ∀ item ∈ items, P item) (fun members => ∀ m ∈ members, P m.2)
    (fun m => P m.2) hnull hbool hnumber hstring harray hobject hfaulty ?_ ?_ ?_ ?_ ?_ s
  · exact List.forall_mem_nil P
  · intro item rest hitem hrest
    exact List.forall_mem_cons.mpr ⟨hitem, hrest⟩
  · exact List.forall_mem_nil _
  · intro m rest hm hrest
    exact List.forall_mem_cons.mpr ⟨hm, hrest⟩
  · intro key value hvalue
    exact hvalue

mutual

def depth : Source → Nat
  | array items _ => itemsDepth items + 1
  | object members _ => membersDepth members + 1
  | _ => 0

def itemsDepth : List Source → Nat
  | [] => 0
  | item :: rest => max (depth item) (itemsDepth rest)

def membersDepth : List (Key × Source) → Nat
  | [] => 0
  | (_, value) :: rest => max (depth value) (membersDepth rest)

end

theorem itemsDepth_le_iff {items : List Source} {n : Nat} :
    itemsDepth items ≤ n ↔ ∀ item ∈ items, item.depth ≤ n := by
  induction items with
  | nil => simp [itemsDepth]
  | cons item rest ih => rw [itemsDepth, Nat.max_le, ih, List.forall_mem_cons]

theorem membersDepth_le_iff {members : List (Key × Source)} {n : Nat} :
    membersDepth members ≤ n ↔ ∀ m ∈ members, m.2.depth ≤ n := by
  induction members with
  | nil => simp [membersDepth]
  | cons m rest ih => rw [membersDepth, Nat.max_le, ih, List.forall_mem_cons]

theorem depth_le_itemsDepth {items : List Source} {item : Source} (h : item ∈ items) :
    item.depth ≤ itemsDepth items :=
  itemsDepth_le_iff.mp (Nat.le_refl _) item h

theorem depth_le_membersDepth {members : List (Key × Source)} {m : Key × Source} (h : m ∈ members) :
    m.2.depth ≤ membersDepth members :=
  membersDepth_le_iff.mp (Nat.le_refl _) m h

theorem depth_ofJson (j : Json) : (ofJson j).depth = j.depth := by
  induction j using Json.induct with
  | hnull => rfl
  | hbool b => rfl
  | hnumber n => rfl
  | hstring s => rfl
  | harray items ih =>
    have hitems : itemsDepth (ofItems items) = Json.itemsDepth items := by
      induction items with
      | nil => rfl
      | cons item rest step =>
        obtain ⟨hitem, hrest⟩ := List.forall_mem_cons.mp ih
        rw [ofItems, itemsDepth, Json.itemsDepth, hitem, step hrest]
    rw [ofJson, depth, Json.depth, hitems]
  | hobject members ih =>
    have hmembers : membersDepth (ofMembers members) = Json.membersDepth members := by
      induction members with
      | nil => rfl
      | cons m rest step =>
        obtain ⟨key, value⟩ := m
        obtain ⟨hvalue, hrest⟩ := List.forall_mem_cons.mp ih
        rw [ofMembers, membersDepth, Json.membersDepth, hvalue, step hrest]
    rw [ofJson, depth, Json.depth, hmembers]

/-- A free value as a reader gives it: in normal form, and no deeper than what was read. -/
structure Holds (s : Source) (j : Json) : Prop where
  normal : j.normal = j
  depth_le : j.depth ≤ s.depth

theorem forall_of_toItems {items : List Source} {values : List Json}
    (ih : ∀ item ∈ items, ∀ j, item.toJson = .ok j → item.Holds j)
    (h : toItems items = .ok values) :
    ∀ j ∈ values, j.normal = j ∧ j.depth ≤ itemsDepth items := by
  induction items generalizing values with
  | nil =>
    cases h
    exact List.forall_mem_nil _
  | cons item rest step =>
    obtain ⟨hitem, hrest⟩ := List.forall_mem_cons.mp ih
    obtain ⟨first, hfirst, h⟩ := bind_eq_ok_iff.mp h
    obtain ⟨others, hothers, h⟩ := bind_eq_ok_iff.mp h
    cases h
    have hheld := hitem first hfirst
    refine List.forall_mem_cons.mpr ⟨⟨hheld.normal, ?_⟩, ?_⟩
    · exact Nat.le_trans hheld.depth_le (Nat.le_max_left _ _)
    · intro j hj
      obtain ⟨hnormal, hdepth⟩ := step hrest hothers j hj
      exact ⟨hnormal, Nat.le_trans hdepth (Nat.le_max_right _ _)⟩

theorem forall_of_toMembers {members : List (Key × Source)} {values : List (String × Json)}
    (ih : ∀ m ∈ members, ∀ j, m.2.toJson = .ok j → m.2.Holds j)
    (h : toMembers members = .ok values) :
    ∀ m ∈ values, m.2.normal = m.2 ∧ m.2.depth ≤ membersDepth members := by
  induction members generalizing values with
  | nil =>
    cases h
    exact List.forall_mem_nil _
  | cons m rest step =>
    obtain ⟨key, s⟩ := m
    obtain ⟨hm, hrest⟩ := List.forall_mem_cons.mp ih
    cases key with
    | faulty f => cases h
    | name key =>
      obtain ⟨first, hfirst, h⟩ := bind_eq_ok_iff.mp h
      obtain ⟨others, hothers, h⟩ := bind_eq_ok_iff.mp h
      cases h
      have hheld := hm first hfirst
      refine List.forall_mem_cons.mpr ⟨⟨hheld.normal, ?_⟩, ?_⟩
      · exact Nat.le_trans hheld.depth_le (Nat.le_max_left _ _)
      · intro m' hm'
        obtain ⟨hnormal, hdepth⟩ := step hrest hothers m' hm'
        exact ⟨hnormal, Nat.le_trans hdepth (Nat.le_max_right _ _)⟩

theorem holds_of_toJson {s : Source} {j : Json} (h : s.toJson = .ok j) : s.Holds j := by
  induction s using induct generalizing j with
  | hnull => cases h; exact ⟨rfl, Nat.le_refl _⟩
  | hbool b => cases h; exact ⟨rfl, Nat.le_refl _⟩
  | hnumber n => cases h; exact ⟨rfl, Nat.le_refl _⟩
  | hstring s => cases h; exact ⟨rfl, Nat.le_refl _⟩
  | hfaulty f => cases h
  | harray items ending ih =>
    obtain ⟨values, hvalues, h⟩ := bind_eq_ok_iff.mp h
    obtain ⟨-, -, h⟩ := bind_eq_ok_iff.mp h
    cases h
    have hall := forall_of_toItems (fun item hitem j => ih item hitem) hvalues
    constructor
    · rw [Json.normal, Json.normalItems_of_normal fun j hj => (hall j hj).1]
    · rw [Json.depth, depth, Nat.add_le_add_iff_right, Json.itemsDepth_le_iff]
      exact fun j hj => (hall j hj).2
  | hobject members ending ih =>
    obtain ⟨values, hvalues, h⟩ := bind_eq_ok_iff.mp h
    obtain ⟨-, -, h⟩ := bind_eq_ok_iff.mp h
    cases h
    have hall := forall_of_toMembers (fun m hm j => ih m hm) hvalues
    constructor
    · refine Json.normal_object (Keyed.sorted_ofList values) ?_
      exact fun m hm => (hall m (Keyed.mem_of_mem_ofList hm)).1
    · rw [Json.depth, depth, Nat.add_le_add_iff_right, Json.membersDepth_le_iff]
      exact fun m hm => (hall m (Keyed.mem_of_mem_ofList hm)).2

end Source

theorem Json.normal_normal (j : Json) : j.normal.normal = j.normal :=
  (Source.holds_of_toJson (toJson_ofJson j)).normal

/-- The members of an object in normal form ascend and are in normal form. -/
theorem Json.normal_object_iff {members : List (String × Json)} :
    (object members).normal = object members ↔
      Keyed.Sorted members ∧ ∀ m ∈ members, m.2.normal = m.2 := by
  constructor
  · intro h
    have hmembers : Keyed.ofList (normalMembers members) = members := Json.object.inj h
    refine ⟨hmembers ▸ Keyed.sorted_ofList _, ?_⟩
    intro m hm
    rw [← hmembers] at hm
    have hput := Keyed.mem_of_mem_ofList hm
    rw [normalMembers_eq_map] at hput
    obtain ⟨m, _, rfl⟩ := List.mem_map.mp hput
    exact normal_normal m.2
  · rintro ⟨hsorted, hnormal⟩
    exact normal_object hsorted hnormal

theorem Json.depth_normal_le (j : Json) : j.normal.depth ≤ j.depth := by
  have hdepth := (Source.holds_of_toJson (toJson_ofJson j)).depth_le
  rwa [Source.depth_ofJson] at hdepth

/-! ## Texts -/

namespace Json.Reader

theorem depth_word {v : Source} (h : v.depth = 0) (ws cs : List Char) : (word v ws cs).1.depth = 0 := by
  induction ws generalizing cs with
  | nil => exact h
  | cons w ws ih =>
    cases cs with
    | nil => rfl
    | cons c cs =>
      rw [word]
      split
      · exact ih cs
      · rfl

theorem depth_number (cs : List Char) : (number cs).1.depth = 0 := by
  unfold number
  split
  · rfl
  · split <;> rfl

/-- An element, and those after it. -/
theorem depth_element {fuel room : Nat} (hvalue : ∀ cs, (value fuel room cs).1.depth ≤ room)
    (helements : ∀ cs, Source.itemsDepth (elements fuel room false cs).1 ≤ room) (rest : List Char) :
    Source.itemsDepth (match value fuel room rest with
      | (item, none) => ([item], ArrayEnd.cut, none)
      | (item, some rest) =>
        let (items, ending, rest) := elements fuel room false rest
        (item :: items, ending, rest)).1 ≤ room := by
  have hitem := hvalue rest
  split
  · rename_i item heq
    rw [heq] at hitem
    exact Nat.max_le.mpr ⟨hitem, Nat.zero_le room⟩
  · rename_i item after heq
    rw [heq] at hitem
    exact Nat.max_le.mpr ⟨hitem, helements after⟩

/-- A member whose key has been read, and those after it. -/
theorem depth_entry {fuel room : Nat} (hvalue : ∀ cs, (value fuel room cs).1.depth ≤ room)
    (hentries : ∀ cs, Source.membersDepth (entries fuel room false cs).1 ≤ room) (key : Key)
    (rest : Option (List Char)) :
    Source.membersDepth (match rest with
      | none => ([(key, Source.faulty (.hard .eofObject))], ObjectEnd.cut, none)
      | some rest =>
        match dropBlanks rest with
        | [] => ([(key, .faulty (.hard .eofObject))], .cut, none)
        | ':' :: rest =>
          match value fuel room rest with
          | (item, none) => ([(key, item)], .cut, none)
          | (item, some rest) =>
            let (members, ending, rest) := entries fuel room false rest
            ((key, item) :: members, ending, rest)
        | _ => ([(key, .faulty (.hard .expectedColon))], .cut, none)).1 ≤ room := by
  have hfaulty (f : Fault) : Source.membersDepth [(key, .faulty f)] ≤ room := Nat.zero_le room
  split
  · exact hfaulty _
  · split
    · exact hfaulty _
    · rename_i rest _
      have hitem := hvalue rest
      split
      · rename_i item heq
        rw [heq] at hitem
        exact Nat.max_le.mpr ⟨hitem, Nat.zero_le room⟩
      · rename_i item after heq
        rw [heq] at hitem
        exact Nat.max_le.mpr ⟨hitem, hentries after⟩
    · exact hfaulty _

/-- A value, when what stands in its brackets is no deeper than there is room for. -/
theorem depth_value {fuel room : Nat}
    (helements : ∀ cs, Source.itemsDepth (elements fuel (room - 1) true cs).1 ≤ room - 1)
    (hentries : ∀ cs, Source.membersDepth (entries fuel (room - 1) true cs).1 ≤ room - 1)
    (cs : List Char) : (value (fuel + 1) room cs).1.depth ≤ room := by
  have hflat {s : Source} (h : s.depth = 0) : s.depth ≤ room := h ▸ Nat.zero_le room
  unfold value
  split
  · exact hflat rfl
  · exact hflat (depth_word rfl _ _)
  · exact hflat (depth_word rfl _ _)
  · exact hflat (depth_word rfl _ _)
  · split <;> exact hflat rfl
  · rename_i rest _
    have hitems := helements rest
    show (if room = 0 then tooDeep _ _ else Source.array _ _).depth ≤ room
    split
    · exact hflat rfl
    · rw [Source.depth]
      omega
  · rename_i rest _
    have hmembers := hentries rest
    show (if room = 0 then tooDeep _ _ else Source.object _ _).depth ≤ room
    split
    · exact hflat rfl
    · rw [Source.depth]
      omega
  · split
    · exact hflat (depth_number _)
    · exact hflat rfl

theorem depth_elements {fuel room : Nat} (hvalue : ∀ cs, (value fuel room cs).1.depth ≤ room)
    (helements : ∀ cs, Source.itemsDepth (elements fuel room false cs).1 ≤ room) (first : Bool)
    (cs : List Char) : Source.itemsDepth (elements (fuel + 1) room first cs).1 ≤ room := by
  have helement := depth_element hvalue helements
  unfold elements
  simp only
  split
  · exact Nat.zero_le room
  · exact Nat.zero_le room
  · split
    · exact helement _
    · split
      · split
        · exact Nat.zero_le room
        · exact Nat.zero_le room
        · exact helement _
      · exact Nat.zero_le room

theorem depth_entries {fuel room : Nat} (hvalue : ∀ cs, (value fuel room cs).1.depth ≤ room)
    (hentries : ∀ cs, Source.membersDepth (entries fuel room false cs).1 ≤ room) (first : Bool)
    (cs : List Char) : Source.membersDepth (entries (fuel + 1) room first cs).1 ≤ room := by
  have hentry := depth_entry hvalue hentries
  unfold entries
  simp only
  split
  · exact Nat.zero_le room
  · exact Nat.zero_le room
  · split
    · split
      · exact hentry _ _
      · exact Nat.zero_le room
    · split
      · split
        · exact Nat.zero_le room
        · exact hentry _ _
        · exact Nat.zero_le room
        · exact Nat.zero_le room
      · exact Nat.zero_le room

/-- No more containers are opened than may be. -/
theorem depth_read (fuel : Nat) :
    (∀ room cs, (value fuel room cs).1.depth ≤ room) ∧
      (∀ room first cs, Source.itemsDepth (elements fuel room first cs).1 ≤ room) ∧
      ∀ room first cs, Source.membersDepth (entries fuel room first cs).1 ≤ room := by
  induction fuel with
  | zero =>
    refine ⟨fun room cs => ?_, fun room first cs => ?_, fun room first cs => ?_⟩
    · unfold value
      exact Nat.zero_le room
    · unfold elements
      exact Nat.zero_le room
    · unfold entries
      exact Nat.zero_le room
  | succ fuel ih =>
    obtain ⟨hvalue, helements, hentries⟩ := ih
    refine ⟨?_, ?_, ?_⟩
    · intro room
      exact depth_value (helements (room - 1) true) (hentries (room - 1) true)
    · intro room
      exact depth_elements (hvalue room) (helements room false)
    · intro room
      exact depth_entries (hvalue room) (hentries room false)

end Json.Reader

theorem Document.depth_ofText (s : String) : (Document.ofText s).root.depth ≤ Json.Reader.maxDepth := by
  have hroot := (Json.Reader.depth_read (2 * s.toList.length + 2)).1 Json.Reader.maxDepth s.toList
  unfold Document.ofText
  simp only
  split
  · rename_i heq
    rw [heq] at hroot
    exact hroot
  · rename_i heq
    rw [heq] at hroot
    exact hroot

/-- What is read from a text is in normal form, and nests no deeper than a text may. -/
theorem Json.of_ofText {s : String} {j : Json} (h : Json.ofText s = .ok j) :
    j.normal = j ∧ j.depth ≤ Json.Reader.maxDepth := by
  obtain ⟨value, hvalue, h⟩ := bind_eq_ok_iff.mp h
  have hj : value = j := by
    split at h
    · cases h
    · cases h
      rfl
  obtain ⟨hnormal, hdepth⟩ := Source.holds_of_toJson hvalue
  rw [← hj]
  exact ⟨hnormal, Nat.le_trans hdepth (Document.depth_ofText s)⟩

end ReportFlow
