import ReportFlow.Json.Codec
import ReportFlow.Proofs.JsonText

/-!
Faithful codecs: a good value that was written is read back as it was, as a free value and, as long
as its containers may all be opened, from a text; and whatever is read is good and no deeper than its
source, but for a depth that the codec has of itself.
-/

namespace ReportFlow

namespace Codec

variable {α β : Type}

def within (room depth : Nat) (a : α) : Decoded α :=
  if depth ≤ room then .ok a else .error (.malformed .nestingLimit)

theorem within_zero (room : Nat) (a : α) : within room 0 a = .ok a := if_pos (Nat.zero_le room)

theorem within_succ (room depth : Nat) (a : α) : within (room + 1) (depth + 1) a = within room depth a := by
  simp only [within, Nat.add_le_add_iff_right]

theorem within_map (f : α → β) (room depth : Nat) (a : α) :
    (within room depth a).map f = within room depth (f a) := by
  unfold within
  split <;> rfl

/-- One value after the other. -/
theorem within_bind {room depth more : Nat} {a : α} {b : β} {f : α → Decoded β}
    (h : f a = within room more b) : (within room depth a >>= f) = within room (max depth more) b := by
  unfold within at h ⊢
  by_cases hdepth : depth ≤ room
  · simp only [hdepth, if_true, Nat.max_le, true_and]
    exact h
  · have hmax : ¬max depth more ≤ room := fun hle => hdepth (Nat.le_trans (Nat.le_max_left _ _) hle)
    rw [if_neg hdepth, if_neg hmax]
    rfl

theorem within_return (f : α → β) (room depth : Nat) (a : α) :
    (within room depth a >>= fun a => Except.ok (f a)) = within room depth (f a) := by
  unfold within
  split <;> rfl

theorem within_of_le {room depth : Nat} (h : depth ≤ room) (a : α) : within room depth a = .ok a :=
  if_pos h

/-- What was written for the value is read as the value: from a text, and as a free value, where the
members of an object stand in ascending order of their keys. -/
structure Restores (c : Codec α) (a : α) : Prop where
  text : ∀ o room, c.decode o ((c.encode a).asRead room) = within room (c.encode a).depth a
  value : ∀ o, c.decode o (.ofJson (c.encode a).normal) = .ok a

/-- Good values are restored, and only they are read. Defaults that fill gaps of the source may stand
deeper than the source, but no deeper than the span. -/
structure Lawful (c : Codec α) (span : Nat) (Good : α → Prop) : Prop where
  restores : ∀ {a}, Good a → c.Restores a
  good : ∀ {o s a}, c.decode o s = .ok a → Good a
  shallow : ∀ {o s a}, c.decode o s = .ok a → (c.encode a).depth ≤ max s.depth span

variable {n : Nat}

/-- A value that is wrapped, but written as before. -/
theorem Restores.wrapped {c : Codec α} {d : Codec β} {wrap : α → β} {a : α} (h : c.Restores a)
    (hencode : d.encode (wrap a) = c.encode a)
    (hdecode : ∀ o s, d.decode o s = (c.decode o s).map wrap) : d.Restores (wrap a) where
  text o room := by rw [hdecode, hencode, h.text, within_map]
  value o := by
    rw [hdecode, hencode, h.value]
    rfl

theorem restores_via {c : Codec β} {of : β → Decoded α} {written : α → β} {a : α}
    (h : c.Restores (written a)) (hof : of (written a) = .ok a) : (via c of written).Restores a where
  text o room := by
    have hof : of (written a) = within room 0 a := by rw [hof, within_zero]
    show (c.decode o ((c.encode (written a)).asRead room) >>= of) =
      within room (c.encode (written a)).depth a
    rw [h.text, within_bind hof, Nat.max_zero]
  value o := bind_eq_ok_iff.mpr ⟨written a, h.value o, hof⟩

theorem Lawful.congr {c : Codec α} {Good Fine : α → Prop} (h : c.Lawful n Good)
    (heq : ∀ a, Good a ↔ Fine a) : c.Lawful n Fine where
  restores ha := h.restores ((heq _).mpr ha)
  good hs := (heq _).mp (h.good hs)
  shallow := h.shallow

/-! ## Values that open no container -/

theorem normal_of_flat {j : Json} (h : j.depth = 0) : j.normal = j := by
  cases j with
  | array items => cases h
  | object members => cases h
  | _ => rfl

/-- A value whose text has no container is read wherever it stands. -/
theorem restores_flat {c : Codec α} {a : α} (hflat : (c.encode a).depth = 0)
    (h : ∀ o room, c.decode o ((c.encode a).asRead room) = .ok a) : c.Restores a where
  text o room := by rw [h, hflat, within_zero]
  value o := by
    rw [normal_of_flat hflat, ← Json.asRead_of_depth_le (Nat.le_refl (c.encode a).depth)]
    exact h o _

theorem lawful_flat {c : Codec α} {Good : α → Prop} (hflat : ∀ a, (c.encode a).depth = 0)
    (hrestores : ∀ a, Good a → ∀ o room, c.decode o ((c.encode a).asRead room) = .ok a)
    (hgood : ∀ {o s a}, c.decode o s = .ok a → Good a) : c.Lawful n Good where
  restores ha := restores_flat (hflat _) (hrestores _ ha)
  good := hgood
  shallow {o s a} _ := by
    rw [hflat]
    exact Nat.zero_le _

theorem lawful_string : string.Lawful n fun _ => True :=
  lawful_flat (fun _ => rfl) (fun _ _ _ _ => rfl) fun _ => trivial

theorem lawful_bool : bool.Lawful n fun _ => True :=
  lawful_flat (fun _ => rfl) (fun _ _ _ _ => rfl) fun _ => trivial

theorem lawful_double : double.Lawful n fun _ => True :=
  lawful_flat (fun _ => rfl) (fun _ _ _ _ => rfl) fun _ => trivial

theorem natural_of_lt {limit n : Nat} (h : n < limit) (name : String) :
    natural limit name (.number (.integer n)) = .ok n := by
  have hfits : (0 : Int) ≤ n ∧ (n : Int) < limit := by omega
  rw [natural, if_pos hfits]
  rfl

theorem lawful_uint32 : uint32.Lawful n fun _ => True := by
  refine lawful_flat (fun _ => rfl) (fun n _ o room => ?_) fun _ => trivial
  simp only [uint32, Json.asRead]
  rw [natural_of_lt]
  · exact congrArg Except.ok UInt32.ofNat_toNat
  · exact n.toNat_lt_size

theorem lawful_uint64 : uint64.Lawful n fun _ => True := by
  refine lawful_flat (fun _ => rfl) (fun n _ o room => ?_) fun _ => trivial
  simp only [uint64, Json.asRead]
  rw [natural_of_lt]
  · exact congrArg Except.ok UInt64.ofNat_toNat
  · exact n.toNat_lt_size

/-- A vocabulary needs names that tell its words apart. -/
theorem lawful_variant {all : List α} {name : α → String}
    (hnames : ∀ a, variantNamed all name (name a) = .ok a) :
    (variant all name).Lawful n fun _ => True :=
  lawful_flat (fun _ => rfl) (fun a _ _ _ => hnames a) fun _ => trivial

/-! ## Free values, and values that may be missing -/

theorem restores_free {j : Json} (hj : j.normal = j) : free.Restores j where
  text o room := by
    show ((j.asRead room).toJson).mapError DecodeError.malformed = within room j.depth j
    rw [Json.toJson_asRead, hj, within]
    split <;> rfl
  value o := by
    show ((Source.ofJson j.normal).toJson).mapError DecodeError.malformed = .ok j
    rw [Json.toJson_ofJson, hj, hj]
    rfl

theorem lawful_free : free.Lawful n fun j => j.normal = j where
  restores hj := restores_free hj
  good h := (Source.holds_of_toJson (mapError_eq_ok_iff.mp h)).normal
  shallow h := le_max_of_le_left (Source.holds_of_toJson (mapError_eq_ok_iff.mp h)).depth_le

theorem asRead_eq_null_iff {j : Json} {room : Nat} : j.asRead room = .null ↔ j = .null := by
  constructor
  · intro h
    cases j with
    | null => rfl
    | array items =>
      rw [Json.asRead] at h
      split at h <;> cases h
    | object members =>
      rw [Json.asRead] at h
      split at h <;> cases h
    | _ => cases h
  · rintro rfl
    rfl

theorem option_decode_of_ne {c : Codec α} {s : Source} (h : s ≠ .null) (o : Origin) :
    c.option.decode o s = (c.decode o s).map some := by
  cases s with
  | null => exact absurd rfl h
  | _ => rfl

theorem ofJson_normal_eq_null_iff {j : Json} : Source.ofJson j.normal = .null ↔ j = .null := by
  constructor
  · intro h
    cases j with
    | null => rfl
    | _ => cases h
  · rintro rfl
    rfl

/-- A present value that is never written as `null`. -/
theorem option_restores {c : Codec α} {a : α} (hnull : c.encode a ≠ .null) (ha : c.Restores a) :
    c.option.Restores (some a) where
  text o room := by
    show c.option.decode o ((c.encode a).asRead room) = within room (c.encode a).depth (some a)
    rw [option_decode_of_ne (mt asRead_eq_null_iff.mp hnull), ha.text, within_map]
  value o := by
    show c.option.decode o (.ofJson (c.encode a).normal) = .ok (some a)
    rw [option_decode_of_ne (mt ofJson_normal_eq_null_iff.mp hnull), ha.value]
    rfl

theorem option_restores_none (c : Codec α) : c.option.Restores none where
  text _ room := (within_zero room none).symm
  value _ := rfl

/-- What an optional value was read from. -/
theorem option_decode_some {c : Codec α} {o : Origin} {s : Source} {a : α}
    (h : c.option.decode o s = .ok (some a)) : s ≠ .null ∧ c.decode o s = .ok a := by
  by_cases hs : s = .null
  · rw [hs] at h
    cases h
  · refine ⟨hs, ?_⟩
    rw [option_decode_of_ne hs] at h
    obtain ⟨b, hb, heq⟩ := map_eq_ok_iff.mp h
    rw [hb, Option.some.inj heq]

theorem Lawful.option {c : Codec α} {Good : α → Prop} (h : c.Lawful n Good)
    (hnull : ∀ {a}, c.encode a ≠ .null) : c.option.Lawful n fun x => ∀ a ∈ x, Good a where
  restores {x} hx := by
    cases x with
    | none => exact option_restores_none c
    | some a => exact option_restores hnull (h.restores (hx a rfl))
  good {o s x} hs a ha := by
    cases ha
    exact h.good (option_decode_some hs).2
  shallow {o s x} hs := by
    cases x with
    | none => exact Nat.zero_le _
    | some a => exact h.shallow (option_decode_some hs).2

/-- A free value that is present is not `null`, which stands for nothing. -/
theorem lawful_free_option :
    free.option.Lawful n fun x => ∀ j ∈ x, j.normal = j ∧ j ≠ .null where
  restores {x} hx := by
    cases x with
    | none => exact option_restores_none free
    | some j => exact option_restores (hx j rfl).2 (restores_free (hx j rfl).1)
  good {o s x} hs j hj := by
    cases hj
    obtain ⟨hnull, hs⟩ := option_decode_some hs
    refine ⟨(lawful_free (n := 0)).good hs, ?_⟩
    rintro rfl
    have hheld := mapError_eq_ok_iff.mp hs
    cases s with
    | null => exact hnull rfl
    | array items ending =>
      obtain ⟨_, -, h⟩ := bind_eq_ok_iff.mp hheld
      obtain ⟨_, -, h⟩ := bind_eq_ok_iff.mp h
      cases h
    | object members ending =>
      obtain ⟨_, -, h⟩ := bind_eq_ok_iff.mp hheld
      obtain ⟨_, -, h⟩ := bind_eq_ok_iff.mp h
      cases h
    | _ => cases hheld
  shallow {o s x} hs := by
    cases x with
    | none => exact Nat.zero_le _
    | some j => exact lawful_free.shallow (option_decode_some hs).2

/-! ## Lists and maps -/

/-- Elements that are shown to a reader in one way. -/
theorem mapM_shown {c : Codec α} {o : Origin} (room : Nat) {shown : Json → Source} {xs : List α}
    (h : ∀ x ∈ xs, c.decode o (shown (c.encode x)) = within room (c.encode x).depth x) :
    ((xs.map c.encode).map shown).mapM (c.decode o) =
      within room (Json.itemsDepth (xs.map c.encode)) xs := by
  induction xs with
  | nil => exact (within_zero room []).symm
  | cons x xs ih =>
    obtain ⟨hx, hxs⟩ := List.forall_mem_cons.mp h
    rw [List.map_cons, List.map_cons, List.mapM_cons, hx, ih hxs, Json.itemsDepth]
    exact within_bind (within_return (x :: ·) room _ xs)

theorem list_decode {c : Codec α} {o : Origin} {s : Source} {xs : List α}
    (h : (list c).decode o s = .ok xs) :
    ∃ items ending, s = .array items ending ∧
      List.Forall₂ (fun item x => c.decode o item = .ok x) items xs := by
  cases s with
  | array items ending =>
    obtain ⟨_, hitems, h⟩ := bind_eq_ok_iff.mp h
    obtain ⟨_, -, h⟩ := bind_eq_ok_iff.mp h
    cases h
    exact ⟨items, ending, rfl, mapM_eq_ok_iff.mp hitems⟩
  | faulty f => cases h
  | _ => cases h

theorem restores_list {c : Codec α} {xs : List α} (h : ∀ x ∈ xs, c.Restores x) :
    (list c).Restores xs where
  text o room := by
    cases room with
    | zero => rfl
    | succ room =>
      have hread := mapM_shown room fun x hx => (h x hx).text o room
      show (Json.itemsAsRead room (xs.map c.encode)).mapM (c.decode o) >>= (fun xs => .ok xs) =
        within (room + 1) (Json.itemsDepth (xs.map c.encode) + 1) xs
      rw [Json.itemsAsRead_eq_map, hread, within_succ]
      exact within_return (fun xs => xs) room _ xs
  value o := by
    have hread : ((xs.map c.encode).map fun j => Source.ofJson j.normal).mapM (c.decode o) = .ok xs := by
      rw [mapM_shown (Json.itemsDepth (xs.map c.encode)), within_of_le (Nat.le_refl _)]
      intro x hx
      have hdepth := Json.depth_le_itemsDepth (List.mem_map_of_mem (f := c.encode) hx)
      rw [(h x hx).value, within_of_le hdepth]
    show (Source.ofItems (Json.normalItems (xs.map c.encode))).mapM (c.decode o) >>=
      (fun xs => .ok xs) = .ok xs
    rw [Json.normalItems_eq_map, Json.ofItems_eq_map, List.map_map]
    exact congrArg (· >>= fun xs => Except.ok xs) hread

theorem lawful_list {c : Codec α} {Good : α → Prop} (h : c.Lawful n Good) :
    (list c).Lawful (n + 1) fun xs => ∀ x ∈ xs, Good x where
  restores hxs := restores_list fun x hx => h.restores (hxs x hx)
  good {o s xs} hs x hx := by
    obtain ⟨items, ending, rfl, hall⟩ := list_decode hs
    obtain ⟨item, -, hread⟩ := forall₂_mem_right hall hx
    exact h.good hread
  shallow {o s xs} hs := by
    obtain ⟨items, ending, rfl, hall⟩ := list_decode hs
    show Json.itemsDepth (xs.map c.encode) + 1 ≤ max (Source.itemsDepth items + 1) (n + 1)
    rw [Nat.add_max_add_right, Nat.add_le_add_iff_right, Json.itemsDepth_le_iff]
    intro j hj
    obtain ⟨x, hx, rfl⟩ := List.mem_map.mp hj
    obtain ⟨item, hitem, hread⟩ := forall₂_mem_right hall hx
    have hdepth := Source.depth_le_itemsDepth hitem
    have hshallow := h.shallow hread
    omega

theorem entries_shown {c : Codec α} {o : Origin} (room : Nat) (shown : Json → Source)
    {xs : List (String × α)}
    (h : ∀ x ∈ xs, c.decode o (shown (c.encode x.2)) = within room (c.encode x.2).depth x.2) :
    entries c o ((xs.map fun x => (x.1, c.encode x.2)).map fun m => (.name m.1, shown m.2)) =
      within room (Json.membersDepth (xs.map fun x => (x.1, c.encode x.2))) xs := by
  induction xs with
  | nil => exact (within_zero room []).symm
  | cons x xs ih =>
    obtain ⟨key, a⟩ := x
    obtain ⟨hx, hxs⟩ := List.forall_mem_cons.mp h
    rw [List.map_cons, List.map_cons, entries, hx, ih hxs, Json.membersDepth]
    exact within_bind (within_return ((key, a) :: ·) room _ xs)

theorem entries_decode {c : Codec α} {o : Origin} {members : List (Key × Source)}
    {xs : List (String × α)} (h : entries c o members = .ok xs) :
    ∀ x ∈ xs, ∃ m ∈ members, c.decode o m.2 = .ok x.2 := by
  induction members generalizing xs with
  | nil =>
    cases h
    exact List.forall_mem_nil _
  | cons m members ih =>
    obtain ⟨key, s⟩ := m
    cases key with
    | faulty f => cases h
    | name key =>
      obtain ⟨a, ha, h⟩ := bind_eq_ok_iff.mp h
      obtain ⟨as, has, h⟩ := bind_eq_ok_iff.mp h
      cases h
      refine List.forall_mem_cons.mpr ⟨⟨_, List.mem_cons_self, ha⟩, ?_⟩
      intro x hx
      obtain ⟨m, hm, hread⟩ := ih has x hx
      exact ⟨m, List.mem_cons_of_mem _ hm, hread⟩

theorem map_decode {c : Codec α} {o : Origin} {s : Source} {xs : List (String × α)}
    (h : (map c).decode o s = .ok xs) :
    Keyed.Sorted xs ∧ ∃ members ending, s = .object members ending ∧
      ∀ x ∈ xs, ∃ m ∈ members, c.decode o m.2 = .ok x.2 := by
  cases s with
  | object members ending =>
    obtain ⟨read, hread, h⟩ := bind_eq_ok_iff.mp h
    obtain ⟨_, -, h⟩ := bind_eq_ok_iff.mp h
    cases h
    refine ⟨Keyed.sorted_ofList read, members, ending, rfl, ?_⟩
    intro x hx
    exact entries_decode hread x (Keyed.mem_of_mem_ofList hx)
  | faulty f => cases h
  | _ => cases h

theorem restores_map {c : Codec α} {xs : List (String × α)} (hsorted : Keyed.Sorted xs)
    (h : ∀ x ∈ xs, c.Restores x.2) : (map c).Restores xs where
  text o room := by
    cases room with
    | zero => rfl
    | succ room =>
      have hread := entries_shown room _ fun x hx => (h x hx).text o room
      show entries c o (Json.membersAsRead room (xs.map fun x => (x.1, c.encode x.2))) >>=
          (fun xs => .ok (Keyed.ofList xs)) =
        within (room + 1) (Json.membersDepth (xs.map fun x => (x.1, c.encode x.2)) + 1) xs
      rw [Json.membersAsRead_eq_map, hread, within_succ, within_return, Keyed.ofList_of_sorted hsorted]
  value o := by
    have hkeys : Keyed.Sorted ((xs.map fun x => (x.1, c.encode x.2)).map fun m => (m.1, m.2.normal)) := by
      unfold Keyed.Sorted
      rw [List.map_map]
      exact List.pairwise_map.mpr hsorted
    have hread : entries c o ((xs.map fun x => (x.1, c.encode x.2)).map
        fun m => (.name m.1, .ofJson m.2.normal)) = .ok xs := by
      rw [entries_shown (Json.membersDepth (xs.map fun x => (x.1, c.encode x.2)))
        (fun j => .ofJson j.normal), within_of_le (Nat.le_refl _)]
      intro x hx
      have hdepth := Json.depth_le_membersDepth
        (List.mem_map_of_mem (f := fun x => (x.1, c.encode x.2)) hx)
      rw [(h x hx).value, within_of_le hdepth]
    show entries c o (Source.ofMembers (Keyed.ofList (Json.normalMembers
      (xs.map fun x => (x.1, c.encode x.2))))) >>= (fun xs => .ok (Keyed.ofList xs)) = .ok xs
    rw [Json.normalMembers_eq_map, Keyed.ofList_of_sorted hkeys, Json.ofMembers_eq_map, List.map_map]
    refine bind_eq_ok_iff.mpr ⟨xs, hread, ?_⟩
    rw [Keyed.ofList_of_sorted hsorted]

theorem lawful_map {c : Codec α} {Good : α → Prop} (h : c.Lawful n Good) :
    (map c).Lawful (n + 1) fun xs => Keyed.Sorted xs ∧ ∀ x ∈ xs, Good x.2 where
  restores hxs := restores_map hxs.1 fun x hx => h.restores (hxs.2 x hx)
  good hs := by
    obtain ⟨hsorted, members, ending, rfl, hall⟩ := map_decode hs
    refine ⟨hsorted, fun x hx => ?_⟩
    obtain ⟨m, -, hread⟩ := hall x hx
    exact h.good hread
  shallow {o s xs} hs := by
    obtain ⟨-, members, ending, rfl, hall⟩ := map_decode hs
    show Json.membersDepth (xs.map fun x => (x.1, c.encode x.2)) + 1 ≤
      max (Source.membersDepth members + 1) (n + 1)
    rw [Nat.add_max_add_right, Nat.add_le_add_iff_right, Json.membersDepth_le_iff]
    intro e he
    obtain ⟨x, hx, rfl⟩ := List.mem_map.mp he
    obtain ⟨m, hm, hread⟩ := hall x hx
    have hdepth := Source.depth_le_membersDepth hm
    have hshallow := h.shallow hread
    show (c.encode x.2).depth ≤ max (Source.membersDepth members) n
    omega

/-! ## Texts -/

/-- A text of a value holds the value, for a reader who may open enough containers. -/
theorem Restores.ofText_chars {c : Codec α} {a : α} (h : c.Restores a) (hexact : (c.encode a).Exact)
    (layout : Option Nat) :
    c.ofText? (String.ofList ((c.encode a).chars layout)) =
      within Json.Reader.maxDepth (c.encode a).depth a := by
  rw [ofText?, Json.ofText_chars hexact]
  simp only [h.text]
  exact within_return (fun a => a) _ _ a

theorem decode_of_ofText {c : Codec α} {text : String} {a : α} (h : c.ofText? text = .ok a) :
    c.decode .text (Document.ofText text).root = .ok a := by
  obtain ⟨b, hread, h⟩ := bind_eq_ok_iff.mp h
  split at h
  · cases h
  · cases h
    exact hread

end Codec

end ReportFlow
