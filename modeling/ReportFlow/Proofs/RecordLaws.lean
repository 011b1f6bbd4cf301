import ReportFlow.Json.Record
import ReportFlow.Proofs.CodecLaws

/-!
Records of faithful codecs: the law of a record follows from those of its fields. A record is read
the same whatever the order of its members.
-/

namespace ReportFlow

/-- The value of a field is restored; one that is omitted is the default. -/
structure Field.Restores {α : Type} (field : Field α) (a : α) : Prop where
  codec : field.codec.Restores a
  omitted : field.omitted a = true → field.absent = some a

/-- The value was read from one of certain sources for its name, or is the default of the field. -/
def Field.Given {α : Type} (P : String → Source → Prop) (field : Field α) (a : α) : Prop :=
  (∃ o s, P field.name s ∧ field.codec.decode o s = .ok a) ∨ field.absent = some a

def Source.UpTo (depth : Nat) (_ : String) (s : Source) : Prop := s.depth ≤ depth

namespace Fields

open Codec (Decoded within)

def names {τ σ : Type} : Fields τ σ → List String
  | nil => []
  | cons field rest => field.name :: rest.names

/-- The slots that the values of a record fill; an omitted value leaves its slot empty. -/
def slots {τ σ : Type} : Fields τ σ → τ → σ
  | nil, _ => ()
  | cons field rest, (a, t) => (if field.omitted a then none else some a, rest.slots t)

def Restores {τ σ : Type} : Fields τ σ → τ → Prop
  | nil, _ => True
  | cons field rest, (a, t) => field.Restores a ∧ rest.Restores t

def Shown {τ σ : Type} (o : Origin) (room : Nat) (shown : Json → Source) : Fields τ σ → τ → Prop
  | nil, _ => True
  | cons field rest, (a, t) =>
    (field.omitted a = false → field.codec.decode o (shown (field.codec.encode a)) =
      within room (field.codec.encode a).depth a) ∧ rest.Shown o room shown t

def Given {τ σ : Type} (P : String → Source → Prop) : Fields τ σ → τ → Prop
  | nil, _ => True
  | cons field rest, (a, t) => field.Given P a ∧ rest.Given P t

def Shallow {τ σ : Type} (depth : Nat) : Fields τ σ → τ → Prop
  | nil, _ => True
  | cons field rest, (a, t) => (field.codec.encode a).depth ≤ depth ∧ rest.Shallow depth t

def Filled {τ σ : Type} (P : String → Source → Prop) : Fields τ σ → σ → Prop
  | nil, _ => True
  | cons field rest, (slot, slots) =>
    (∀ a ∈ slot, ∃ o s, P field.name s ∧ field.codec.decode o s = .ok a) ∧ rest.Filled P slots

variable {τ σ : Type} {P : String → Source → Prop}

theorem name_mem_of_member {fields : Fields τ σ} {t : τ} {m : String × Json}
    (h : m ∈ fields.members t) : m.1 ∈ fields.names := by
  induction fields with
  | nil => cases h
  | cons field rest ih =>
    obtain ⟨a, t⟩ := t
    rw [members] at h
    split at h
    · exact List.mem_cons_of_mem _ (ih h)
    · rcases List.mem_cons.mp h with rfl | h
      · exact List.mem_cons_self
      · exact List.mem_cons_of_mem _ (ih h)

theorem fill?_cons_ne {α : Type} {field : Field α} {rest : Fields τ σ} {o : Origin} {key : String}
    {s : Source} (h : field.name ≠ key) (slot : Option α) (slots : σ) :
    (cons field rest).fill? o key s (slot, slots) =
      (rest.fill? o key s slots).map (·.map fun filled => (slot, filled)) := by
  rw [fill?.eq_def]
  exact if_neg h

theorem fill?_cons_eq {α : Type} {field : Field α} {rest : Fields τ σ} {o : Origin} {key : String}
    {s : Source} (h : field.name = key) (slots : σ) :
    (cons field rest).fill? o key s (none, slots) =
      some ((field.codec.decode o s).map fun a => (some a, slots)) := by
  rw [fill?.eq_def]
  exact if_pos h

/-- Members under other names leave the slot of a field as it is. -/
theorem fillAll_cons {α : Type} {field : Field α} {rest : Fields τ σ} {o : Origin}
    {pass : Source → Decoded Unit} {ms : List (Key × Source)}
    (h : ∀ m ∈ ms, m.1 ≠ .name field.name) (slot : Option α) (slots : σ) :
    (cons field rest).fillAll o pass ms (slot, slots) =
      (rest.fillAll o pass ms slots).map fun filled => ((slot, filled.1), filled.2) := by
  induction ms generalizing slots with
  | nil => rfl
  | cons m ms ih =>
    obtain ⟨key, s⟩ := m
    obtain ⟨hm, hms⟩ := List.forall_mem_cons.mp h
    cases key with
    | faulty f => rfl
    | name key =>
      have hname : field.name ≠ key := fun heq => hm (heq ▸ rfl)
      rw [fillAll, fillAll, fill?_cons_ne hname]
      cases hfill : rest.fill? o key s slots with
      | some filled =>
        cases filled with
        | error e => rfl
        | ok filled => exact ih hms filled
      | none =>
        simp only [Option.map_none, ih hms]
        cases hpass : pass s with
        | error e => rfl
        | ok u =>
          cases hrest : rest.fillAll o pass ms slots with
          | error e => rfl
          | ok filled => rfl

/-- What is written for the other fields leaves the slot of the first field as it is. -/
theorem fillAll_members_cons {α : Type} {field : Field α} {rest : Fields τ σ} {t : τ} {o : Origin}
    {pass : Source → Decoded Unit} (hname : field.name ∉ rest.names) (shown : Json → Source)
    (slot : Option α) (slots : σ) :
    (cons field rest).fillAll o pass ((rest.members t).map fun m => (.name m.1, shown m.2))
        (slot, slots) =
      (rest.fillAll o pass ((rest.members t).map fun m => (.name m.1, shown m.2)) slots).map
        fun filled => ((slot, filled.1), filled.2) := by
  refine fillAll_cons ?_ slot slots
  intro m hm heq
  obtain ⟨e, he, rfl⟩ := List.mem_map.mp hm
  exact hname (Key.name.inj heq ▸ name_mem_of_member he)

/-- The members of a record fill the slots of its values, and none is left over. -/
theorem fillAll_shown {fields : Fields τ σ} {t : τ} {o : Origin} {room : Nat} {shown : Json → Source}
    (hnames : fields.names.Nodup) (h : fields.Shown o room shown t) (pass : Source → Decoded Unit) :
    fields.fillAll o pass ((fields.members t).map fun m => (.name m.1, shown m.2)) fields.empty =
      within room (Json.membersDepth (fields.members t)) (fields.slots t, []) := by
  induction fields with
  | nil => exact (Codec.within_zero room _).symm
  | cons field rest ih =>
    obtain ⟨a, t⟩ := t
    obtain ⟨ha, hrest⟩ := h
    obtain ⟨hname, hnames⟩ := List.nodup_cons.mp hnames
    have htail (slot : Option _) :
        (cons field rest).fillAll o pass ((rest.members t).map fun m => (.name m.1, shown m.2))
            (slot, rest.empty) =
          within room (Json.membersDepth (rest.members t)) ((slot, rest.slots t), []) := by
      rw [fillAll_members_cons hname, ih hnames hrest, Codec.within_map]
    cases homitted : field.omitted a with
    | true =>
      simp only [members, slots, homitted, if_true]
      exact htail none
    | false =>
      simp only [members, slots, homitted, Bool.false_eq_true, if_false, List.map_cons, fillAll,
        Json.membersDepth]
      rw [empty, fill?_cons_eq rfl, ha homitted, Codec.within_map]
      exact Codec.within_bind (htail (some a))

theorem Restores.shown_text {fields : Fields τ σ} {t : τ} (h : fields.Restores t) (o : Origin)
    (room : Nat) : fields.Shown o room (Json.asRead room) t := by
  induction fields with
  | nil => trivial
  | cons field rest ih =>
    obtain ⟨a, t⟩ := t
    obtain ⟨ha, hrest⟩ := h
    exact ⟨fun _ => ha.codec.text o room, ih hrest⟩

theorem Restores.shown_value {fields : Fields τ σ} {t : τ} (h : fields.Restores t) (o : Origin)
    {room : Nat} (hroom : Json.membersDepth (fields.members t) ≤ room) :
    fields.Shown o room (fun j => .ofJson j.normal) t := by
  induction fields with
  | nil => trivial
  | cons field rest ih =>
    obtain ⟨a, t⟩ := t
    obtain ⟨ha, hrest⟩ := h
    cases homitted : field.omitted a with
    | true =>
      rw [members, if_pos homitted] at hroom
      exact ⟨fun hwritten => absurd (hwritten.symm.trans homitted) Bool.false_ne_true, ih hrest hroom⟩
    | false =>
      rw [members, if_neg (homitted ▸ Bool.false_ne_true), Json.membersDepth] at hroom
      obtain ⟨hdepth, hroom⟩ := Nat.max_le.mp hroom
      refine ⟨fun _ => ?_, ih hrest hroom⟩
      rw [ha.codec.value, Codec.within_of_le hdepth]

/-! ### The order of the members

Members under different names fill different slots, so they may come in any order. -/

theorem nodup_members {fields : Fields τ σ} (hnames : fields.names.Nodup) (t : τ) :
    ((fields.members t).map (·.1)).Nodup := by
  induction fields with
  | nil => exact List.nodup_nil
  | cons field rest ih =>
    obtain ⟨a, t⟩ := t
    obtain ⟨hname, hnames⟩ := List.nodup_cons.mp hnames
    rw [members]
    split
    · exact ih hnames t
    · refine List.nodup_cons.mpr ⟨?_, ih hnames t⟩
      intro h
      obtain ⟨m, hm, heq⟩ := List.mem_map.mp h
      have heq : m.1 = field.name := heq
      exact hname (heq ▸ name_mem_of_member hm)

/-- A member fills the slot of the first field, which was empty, or one of the others. -/
theorem fill?_cons_eq_ok_iff {α : Type} {field : Field α} {rest : Fields τ σ} {o : Origin}
    {key : String} {s : Source} {slot filled : Option α} {slots more : σ} :
    (cons field rest).fill? o key s (slot, slots) = some (.ok (filled, more)) ↔
      (field.name = key ∧ slot = none ∧ more = slots ∧
        ∃ a, field.codec.decode o s = .ok a ∧ filled = some a) ∨
      (field.name ≠ key ∧ filled = slot ∧ rest.fill? o key s slots = some (.ok more)) := by
  by_cases hname : field.name = key
  · cases slot with
    | some b =>
      have htwice : (cons field rest).fill? o key s (some b, slots) =
          some (.error (.duplicateField key)) := by
        rw [fill?.eq_def]
        exact if_pos hname
      simp [htwice, hname]
    | none =>
      rw [fill?_cons_eq hname]
      cases hread : field.codec.decode o s with
      | error e => simp [hname, Except.map]
      | ok a => simp [hname, Except.map, eq_comm, and_comm]
  · rw [fill?_cons_ne hname]
    constructor
    · intro h
      obtain ⟨result, hfill, h⟩ := Option.map_eq_some_iff.mp h
      obtain ⟨inner, rfl, heq⟩ := map_eq_ok_iff.mp h
      cases heq
      exact .inr ⟨hname, rfl, hfill⟩
    · rintro (⟨heq, -⟩ | ⟨-, rfl, hfill⟩)
      · exact absurd heq hname
      · rw [hfill]
        rfl

theorem fill?_comm {fields : Fields τ σ} {o : Origin} {k l : String} {s r : Source}
    {slots mid last : σ} (hne : k ≠ l) (hk : fields.fill? o k s slots = some (.ok mid))
    (hl : fields.fill? o l r mid = some (.ok last)) :
    ∃ other, fields.fill? o l r slots = some (.ok other) ∧
      fields.fill? o k s other = some (.ok last) := by
  induction fields with
  | nil => cases hk
  | cons field rest ih =>
    obtain ⟨slot, slots⟩ := slots
    obtain ⟨slot', mid⟩ := mid
    obtain ⟨slot'', last⟩ := last
    rcases fill?_cons_eq_ok_iff.mp hk with ⟨hname, rfl, rfl, a, ha, rfl⟩ | ⟨hname, rfl, hrest⟩
    · rcases fill?_cons_eq_ok_iff.mp hl with ⟨hname', -⟩ | ⟨hname', rfl, hrest'⟩
      · exact absurd (hname.symm.trans hname') hne
      · exact ⟨(none, last), fill?_cons_eq_ok_iff.mpr (.inr ⟨hname', rfl, hrest'⟩),
          fill?_cons_eq_ok_iff.mpr (.inl ⟨hname, rfl, rfl, a, ha, rfl⟩)⟩
    · rcases fill?_cons_eq_ok_iff.mp hl with ⟨hname', rfl, rfl, a, ha, rfl⟩ | ⟨hname', rfl, hrest'⟩
      · exact ⟨(some a, slots), fill?_cons_eq_ok_iff.mpr (.inl ⟨hname', rfl, rfl, a, ha, rfl⟩),
          fill?_cons_eq_ok_iff.mpr (.inr ⟨hname, rfl, hrest⟩)⟩
      · obtain ⟨other, hother, hlast⟩ := ih hrest hrest'
        exact ⟨(slot'', other), fill?_cons_eq_ok_iff.mpr (.inr ⟨hname', rfl, hother⟩),
          fill?_cons_eq_ok_iff.mpr (.inr ⟨hname, rfl, hlast⟩)⟩

theorem fill?_eq_none_iff {fields : Fields τ σ} {o : Origin} {key : String} {s : Source} {slots : σ} :
    fields.fill? o key s slots = none ↔ key ∉ fields.names := by
  induction fields with
  | nil => simp [fill?, names]
  | cons field rest ih =>
    obtain ⟨slot, slots⟩ := slots
    rw [fill?.eq_def, names, List.mem_cons, not_or]
    by_cases hname : field.name = key
    · simp [hname]
    · simp [hname, ih, Ne.symm hname]

/-- A member is the value of a field, or is kept. -/
theorem fillAll_cons_eq_ok_iff {fields : Fields τ σ} {o : Origin} {pass : Source → Decoded Unit}
    {key : String} {s : Source} {ms : List (Key × Source)} {slots filled : σ}
    {others : List (String × Source)} :
    fields.fillAll o pass ((.name key, s) :: ms) slots = .ok (filled, others) ↔
      (∃ mid, fields.fill? o key s slots = some (.ok mid) ∧
        fields.fillAll o pass ms mid = .ok (filled, others)) ∨
      (key ∉ fields.names ∧ pass s = .ok () ∧
        ∃ left, fields.fillAll o pass ms slots = .ok (filled, left) ∧ others = (key, s) :: left) := by
  rw [fillAll]
  cases hfill : fields.fill? o key s slots with
  | some result =>
    have hnamed : ¬key ∉ fields.names := fun h => by
      rw [fill?_eq_none_iff.mpr h] at hfill
      cases hfill
    cases result with
    | error e => exact ⟨nofun, by rintro (⟨mid, heq, -⟩ | ⟨h, -⟩); cases heq; exact absurd h hnamed⟩
    | ok mid =>
      constructor
      · intro h
        exact .inl ⟨mid, rfl, h⟩
      · rintro (⟨_, heq, h⟩ | ⟨h, -⟩)
        · cases heq
          exact h
        · exact absurd h hnamed
  | none =>
    constructor
    · intro h
      obtain ⟨_, hpass, h⟩ := bind_eq_ok_iff.mp h
      obtain ⟨⟨inner, left⟩, hread, h⟩ := bind_eq_ok_iff.mp h
      cases h
      exact .inr ⟨fill?_eq_none_iff.mp hfill, hpass, left, hread, rfl⟩
    · rintro (⟨_, heq, -⟩ | ⟨-, hpass, left, hread, rfl⟩)
      · cases heq
      · simp only [hpass, hread]
        rfl

/-- Members under different names fill the same slots in every order, and the same are kept. -/
theorem fillAll_perm {fields : Fields τ σ} {o : Origin} {pass : Source → Decoded Unit}
    {ms ms' : List (String × Source)} (hperm : ms.Perm ms') (hkeys : (ms.map (·.1)).Nodup)
    {slots filled : σ} {others : List (String × Source)}
    (h : fields.fillAll o pass (ms.map fun m => (.name m.1, m.2)) slots = .ok (filled, others)) :
    ∃ left, left.Perm others ∧
      fields.fillAll o pass (ms'.map fun m => (.name m.1, m.2)) slots = .ok (filled, left) := by
  induction hperm generalizing slots others with
  | nil => exact ⟨others, .refl _, h⟩
  | cons m _ ih =>
    obtain ⟨-, hkeys⟩ := List.nodup_cons.mp hkeys
    rcases fillAll_cons_eq_ok_iff.mp h with ⟨mid, hfill, hrest⟩ | ⟨hname, hpass, kept, hrest, rfl⟩
    · obtain ⟨left, hleft, hread⟩ := ih hkeys hrest
      exact ⟨left, hleft, fillAll_cons_eq_ok_iff.mpr (.inl ⟨mid, hfill, hread⟩)⟩
    · obtain ⟨left, hleft, hread⟩ := ih hkeys hrest
      exact ⟨m :: left, hleft.cons m,
        fillAll_cons_eq_ok_iff.mpr (.inr ⟨hname, hpass, left, hread, rfl⟩)⟩
  | swap x y ms =>
    obtain ⟨kx, sx⟩ := x
    obtain ⟨ky, sy⟩ := y
    have hne : ky ≠ kx := fun heq =>
      (List.nodup_cons.mp hkeys).1 (List.mem_cons.mpr (.inl heq))
    rcases fillAll_cons_eq_ok_iff.mp h with ⟨mid, hy, hmore⟩ | ⟨hy, hpassy, kept, hmore, rfl⟩
    · rcases fillAll_cons_eq_ok_iff.mp hmore with ⟨last, hx, hrest⟩ | ⟨hx, hpassx, left, hrest, rfl⟩
      · obtain ⟨other, hx, hy⟩ := fill?_comm hne hy hx
        exact ⟨others, .refl _, fillAll_cons_eq_ok_iff.mpr (.inl ⟨other, hx,
          fillAll_cons_eq_ok_iff.mpr (.inl ⟨last, hy, hrest⟩)⟩)⟩
      · exact ⟨_, .refl _, fillAll_cons_eq_ok_iff.mpr (.inr ⟨hx, hpassx, left,
          fillAll_cons_eq_ok_iff.mpr (.inl ⟨mid, hy, hrest⟩), rfl⟩)⟩
    · rcases fillAll_cons_eq_ok_iff.mp hmore with ⟨mid, hx, hrest⟩ | ⟨hx, hpassx, left, hrest, rfl⟩
      · exact ⟨_, .refl _, fillAll_cons_eq_ok_iff.mpr (.inl ⟨mid, hx,
          fillAll_cons_eq_ok_iff.mpr (.inr ⟨hy, hpassy, kept, hrest, rfl⟩)⟩)⟩
      · exact ⟨(kx, sx) :: (ky, sy) :: left, .swap _ _ left, fillAll_cons_eq_ok_iff.mpr (.inr ⟨hx, hpassx,
          (ky, sy) :: left, fillAll_cons_eq_ok_iff.mpr (.inr ⟨hy, hpassy, left, hrest, rfl⟩), rfl⟩)⟩
  | trans hxy _ ihxy ihyz =>
    obtain ⟨mid, hmid, h⟩ := ihxy hkeys h
    obtain ⟨left, hleft, h⟩ := ihyz ((hxy.map _).nodup_iff.mp hkeys) h
    exact ⟨left, hleft.trans hmid, h⟩

/-- A free value shows the members of an object in ascending order of their keys. -/
theorem fillAll_normal {fields : Fields τ σ} {o : Origin} {pass : Source → Decoded Unit}
    {ms : List (String × Json)} (hkeys : (ms.map (·.1)).Nodup) {slots filled : σ}
    {others : List (String × Source)}
    (h : fields.fillAll o pass (ms.map fun m => (.name m.1, .ofJson m.2.normal)) slots =
      .ok (filled, others)) :
    ∃ left, left.Perm others ∧
      fields.fillAll o pass (Source.ofMembers (Keyed.ofList (Json.normalMembers ms))) slots =
        .ok (filled, left) := by
  have hnormal : ((ms.map fun m => (m.1, m.2.normal)).map (·.1)).Nodup := by
    rw [List.map_map]
    exact hkeys
  have hperm := (Keyed.ofList_perm hnormal).symm.map fun m => (m.1, Source.ofJson m.2)
  rw [List.map_map] at hperm
  have hshown : ((ms.map fun m => (m.1, Source.ofJson m.2.normal)).map (·.1)).Nodup := by
    rw [List.map_map]
    exact hkeys
  have hgiven : fields.fillAll o pass ((ms.map fun m => (m.1, Source.ofJson m.2.normal)).map
      fun m => (.name m.1, m.2)) slots = .ok (filled, others) := by
    rw [List.map_map]
    exact h
  obtain ⟨left, hleft, hread⟩ := fillAll_perm hperm hshown hgiven
  rw [List.map_map] at hread
  rw [Json.normalMembers_eq_map, Json.ofMembers_eq_map]
  exact ⟨left, hleft, hread⟩

theorem finish_slots {fields : Fields τ σ} {t : τ} (h : fields.Restores t) :
    fields.finish (fields.slots t) = .ok t := by
  induction fields with
  | nil => rfl
  | cons field rest ih =>
    obtain ⟨a, t⟩ := t
    obtain ⟨⟨-, habsent⟩, hrest⟩ := h
    have hslot : (if field.omitted a then none else some a).or field.absent = some a := by
      cases homitted : field.omitted a with
      | true => exact habsent homitted
      | false => rfl
    rw [slots, finish, hslot]
    simp only [ih hrest]
    rfl

theorem filled_empty (fields : Fields τ σ) : fields.Filled P fields.empty := by
  induction fields with
  | nil => trivial
  | cons field rest ih =>
    refine ⟨?_, ih⟩
    intro a ha
    cases ha

theorem fill?_filled {fields : Fields τ σ} {o : Origin} {key : String} {s : Source}
    {slots filled : σ} (hs : P key s) (hslots : fields.Filled P slots)
    (h : fields.fill? o key s slots = some (.ok filled)) : fields.Filled P filled := by
  induction fields with
  | nil => cases h
  | cons field rest ih =>
    obtain ⟨slot, slots⟩ := slots
    obtain ⟨hslot, hrest⟩ := hslots
    by_cases hname : field.name = key
    · cases slot with
      | some b =>
        rw [fill?.eq_def] at h
        simp only [hname, if_true] at h
        cases h
      | none =>
        rw [fill?_cons_eq hname] at h
        obtain ⟨a, ha, heq⟩ := map_eq_ok_iff.mp (Option.some.inj h)
        cases heq
        refine ⟨?_, hrest⟩
        intro b hb
        cases hb
        exact ⟨o, s, hname ▸ hs, ha⟩
    · rw [fill?_cons_ne hname] at h
      obtain ⟨result, hfill, h⟩ := Option.map_eq_some_iff.mp h
      obtain ⟨inner, hinner, heq⟩ := map_eq_ok_iff.mp h
      cases heq
      refine ⟨hslot, ih hrest ?_⟩
      rw [hfill, hinner]

theorem fillAll_filled {fields : Fields τ σ} {o : Origin} {pass : Source → Decoded Unit}
    {ms : List (Key × Source)} {slots filled : σ} {others : List (String × Source)}
    (hms : ∀ m ∈ ms, ∀ {key}, m.1 = .name key → P key m.2) (hslots : fields.Filled P slots)
    (h : fields.fillAll o pass ms slots = .ok (filled, others)) :
    fields.Filled P filled ∧ ∀ m ∈ others, P m.1 m.2 := by
  induction ms generalizing slots others with
  | nil =>
    cases h
    exact ⟨hslots, List.forall_mem_nil _⟩
  | cons m ms ih =>
    obtain ⟨key, s⟩ := m
    obtain ⟨hs, hrest⟩ := List.forall_mem_cons.mp hms
    cases key with
    | faulty f => cases h
    | name key =>
      rw [fillAll] at h
      cases hfill : fields.fill? o key s slots with
      | some result =>
        rw [hfill] at h
        obtain ⟨inner, hinner, h⟩ := bind_eq_ok_iff.mp h
        exact ih hrest (fill?_filled (hs rfl) hslots (hinner ▸ hfill)) h
      | none =>
        rw [hfill] at h
        obtain ⟨_, -, h⟩ := bind_eq_ok_iff.mp h
        obtain ⟨⟨inner, left⟩, hread, h⟩ := bind_eq_ok_iff.mp h
        cases h
        obtain ⟨hfilled, hleft⟩ := ih hrest hslots hread
        exact ⟨hfilled, List.forall_mem_cons.mpr ⟨hs rfl, hleft⟩⟩

theorem finish_cons_eq_ok_iff {α : Type} {field : Field α} {rest : Fields τ σ} {slot : Option α}
    {slots : σ} {result : α × τ} :
    (cons field rest).finish (slot, slots) = .ok result ↔
      ∃ a, slot.or field.absent = some a ∧ ∃ t, rest.finish slots = .ok t ∧ (a, t) = result := by
  rw [finish]
  cases slot.or field.absent with
  | none => exact ⟨nofun, nofun⟩
  | some b =>
    constructor
    · intro h
      obtain ⟨_, hb, h⟩ := bind_eq_ok_iff.mp h
      cases hb
      obtain ⟨t, ht, h⟩ := bind_eq_ok_iff.mp h
      exact ⟨b, rfl, t, ht, Except.ok.inj h⟩
    · rintro ⟨_, heq, t, ht, rfl⟩
      cases heq
      exact bind_eq_ok_iff.mpr ⟨b, rfl, bind_eq_ok_iff.mpr ⟨t, ht, rfl⟩⟩

theorem finish_given {fields : Fields τ σ} {slots : σ} {t : τ} (hslots : fields.Filled P slots)
    (h : fields.finish slots = .ok t) : fields.Given P t := by
  induction fields with
  | nil => trivial
  | cons field rest ih =>
    obtain ⟨slot, slots⟩ := slots
    obtain ⟨hslot, hrest⟩ := hslots
    obtain ⟨a, ha, t, ht, rfl⟩ := finish_cons_eq_ok_iff.mp h
    refine ⟨?_, ih hrest ht⟩
    cases slot with
    | some b =>
      cases ha
      exact .inl (hslot a rfl)
    | none => exact .inr ha

theorem ofItems_given {fields : Fields τ σ} {o : Origin} {wanted : String} {ending : ArrayEnd}
    {index : Nat} {items left : List Source} {t : τ} (hitems : ∀ s ∈ items, ∀ name, P name s)
    (h : fields.ofItems o wanted ending index items = .ok (t, left)) : fields.Given P t := by
  induction fields generalizing index items left with
  | nil => trivial
  | cons field rest ih =>
    cases items with
    | cons item items =>
      obtain ⟨hitem, hitems⟩ := List.forall_mem_cons.mp hitems
      obtain ⟨a, ha, h⟩ := bind_eq_ok_iff.mp h
      obtain ⟨⟨t, left⟩, ht, h⟩ := bind_eq_ok_iff.mp h
      cases h
      exact ⟨.inl ⟨o, item, hitem field.name, ha⟩, ih hitems ht⟩
    | nil =>
      obtain ⟨_, -, h⟩ := bind_eq_ok_iff.mp h
      cases habsent : field.absent with
      | some a =>
        rw [habsent] at h
        obtain ⟨_, ha, h⟩ := bind_eq_ok_iff.mp h
        cases ha
        obtain ⟨⟨t, left⟩, ht, h⟩ := bind_eq_ok_iff.mp h
        cases h
        exact ⟨.inr habsent, ih (List.forall_mem_nil _) ht⟩
      | none =>
        rw [habsent] at h
        cases h

/-- The values of an object stand under the names of their fields. -/
theorem given_of_object {fields : Fields τ σ} {name : String} {o : Origin}
    {members : List (Key × Source)} {ending : ObjectEnd} {t : τ}
    (hmembers : ∀ m ∈ members, ∀ {key}, m.1 = .name key → P key m.2)
    (h : fields.decode name o (.object members ending) = .ok t) : fields.Given P t := by
  obtain ⟨⟨slots, others⟩, hfill, h⟩ := bind_eq_ok_iff.mp h
  obtain ⟨_, -, h⟩ := bind_eq_ok_iff.mp h
  obtain ⟨hfilled, -⟩ := fillAll_filled hmembers (filled_empty fields) hfill
  exact finish_given hfilled h

/-- A record is read from a container, and each of its values from a part of that or by default. -/
theorem given_of_decode {fields : Fields τ σ} {name : String} {o : Origin} {s : Source} {t : τ}
    (h : fields.decode name o s = .ok t) :
    ∃ depth, s.depth = depth + 1 ∧ fields.Given (Source.UpTo depth) t := by
  cases s with
  | object members ending =>
    exact ⟨_, rfl, given_of_object (fun m hm _ _ => Source.depth_le_membersDepth hm) h⟩
  | array items ending =>
    obtain ⟨⟨t, left⟩, hread, h⟩ := bind_eq_ok_iff.mp h
    obtain ⟨_, -, h⟩ := bind_eq_ok_iff.mp h
    cases h
    exact ⟨_, rfl, ofItems_given (fun item hitem _ => Source.depth_le_itemsDepth hitem) hread⟩
  | faulty f => cases h
  | _ => cases h

end Fields

structure Field.Lawful {α : Type} (span : Nat) (field : Field α) (Good : α → Prop) : Prop where
  codec : field.codec.Lawful span Good
  absent : ∀ {a}, field.absent = some a → Good a ∧ (field.codec.encode a).depth ≤ span
  omitted : ∀ {a}, field.omitted a = true → field.absent = some a

namespace Field

variable {α : Type} {name : String} {span : Nat} {c : Codec α} {Good : α → Prop}

theorem Lawful.good {field : Field α} {P : String → Source → Prop} {a : α}
    (h : field.Lawful span Good) (ha : field.Given P a) : Good a := by
  obtain ⟨o, s, -, hs⟩ | habsent := ha
  · exact h.codec.good hs
  · exact (h.absent habsent).1

theorem Lawful.shallow {field : Field α} {depth : Nat} {a : α} (h : field.Lawful span Good)
    (ha : field.Given (Source.UpTo depth) a) : (field.codec.encode a).depth ≤ max depth span := by
  obtain ⟨o, s, hdepth, hs⟩ | habsent := ha
  · have hdepth : s.depth ≤ depth := hdepth
    have hshallow := h.codec.shallow hs
    omega
  · exact le_max_of_le_right (h.absent habsent).2

theorem restores_required {a : α} (h : c.Restores a) : (required name c).Restores a where
  codec := h
  omitted h := nomatch h

theorem restores_defaulted {value a : α} (h : c.Restores a) : (defaulted name c value).Restores a where
  codec := h
  omitted h := nomatch h

theorem restores_nullable {x : Option α} (h : c.option.Restores x) : (nullable name c).Restores x where
  codec := h
  omitted h := nomatch h

theorem restores_optional {x : Option α} (h : c.option.Restores x) : (optional name c).Restores x where
  codec := h
  omitted hx := by
    cases x with
    | none => rfl
    | some a => cases hx

theorem lawful_required (h : c.Lawful span Good) : (required name c).Lawful span Good where
  codec := h
  absent h := nomatch h
  omitted h := nomatch h

theorem lawful_defaulted {value : α} (h : c.Lawful span Good) (hvalue : Good value)
    (hdepth : (c.encode value).depth ≤ span) : (defaulted name c value).Lawful span Good where
  codec := h
  absent ha := by
    cases ha
    exact ⟨hvalue, hdepth⟩
  omitted h := nomatch h

theorem lawful_defaulted_nil {Good : List α → Prop} (h : c.list.Lawful (span + 1) Good)
    (hnil : Good []) : (defaulted name c.list []).Lawful (span + 1) Good :=
  lawful_defaulted h hnil (Nat.le_add_left 1 span)

theorem lawful_optional_of_option {Good : Option α → Prop} (h : c.option.Lawful span Good)
    (hnone : Good none) : (optional name c).Lawful span Good where
  codec := h
  absent ha := by
    cases ha
    exact ⟨hnone, Nat.zero_le _⟩
  omitted {a} ha := by
    cases a with
    | none => rfl
    | some a => cases ha

theorem lawful_optional (h : c.Lawful span Good) (hnull : ∀ {a}, c.encode a ≠ .null) :
    (optional name c).Lawful span fun x => ∀ a ∈ x, Good a :=
  lawful_optional_of_option (h.option hnull) nofun

theorem lawful_nullable (h : c.Lawful span Good) (hnull : ∀ {a}, c.encode a ≠ .null) :
    (nullable name c).Lawful span fun x => ∀ a ∈ x, Good a where
  codec := h.option hnull
  absent ha := by
    cases ha
    exact ⟨nofun, Nat.zero_le _⟩
  omitted h := nomatch h

end Field

namespace Fields

inductive Lawful (span : Nat) : {τ σ : Type} → Fields τ σ → (τ → Prop) → Prop
  | nil : Lawful span .nil fun _ => True
  | cons {α τ σ : Type} {field : Field α} {rest : Fields τ σ} {Good : α → Prop} {Fine : τ → Prop}
    (hfield : field.Lawful span Good) (hrest : Lawful span rest Fine) :
    Lawful span (.cons field rest) fun t => Good t.1 ∧ Fine t.2

variable {τ σ : Type} {fields : Fields τ σ} {Good : τ → Prop}

theorem Lawful.restores {n : Nat} (h : fields.Lawful n Good) {t : τ} (ht : Good t) :
    fields.Restores t := by
  induction h with
  | nil => trivial
  | cons hfield _ ih =>
    obtain ⟨ha, ht⟩ := ht
    exact ⟨⟨hfield.codec.restores ha, hfield.omitted⟩, ih ht⟩

theorem Lawful.good {n : Nat} {P : String → Source → Prop} (h : fields.Lawful n Good) {t : τ}
    (ht : fields.Given P t) : Good t := by
  induction h with
  | nil => trivial
  | cons hfield _ ih =>
    obtain ⟨ha, ht⟩ := ht
    exact ⟨hfield.good ha, ih ht⟩

theorem Lawful.shallow {n depth : Nat} (h : fields.Lawful n Good) {t : τ}
    (ht : fields.Given (Source.UpTo depth) t) : fields.Shallow (max depth n) t := by
  induction h with
  | nil => trivial
  | cons hfield _ ih =>
    obtain ⟨ha, ht⟩ := ht
    exact ⟨hfield.shallow ha, ih ht⟩

theorem membersDepth_le {n : Nat} {t : τ} (h : fields.Shallow n t) :
    Json.membersDepth (fields.members t) ≤ n := by
  induction fields with
  | nil => exact Nat.zero_le n
  | cons field rest ih =>
    obtain ⟨a, t⟩ := t
    obtain ⟨ha, ht⟩ := h
    rw [members]
    split
    · exact ih ht
    · rw [Json.membersDepth]
      exact Nat.max_le.mpr ⟨ha, ih ht⟩

end Fields

namespace Codec

variable {α τ σ : Type} {name : String} {fields : Fields τ σ} {split : α → τ} {build : τ → α}

theorem record_restores (hnames : fields.names.Nodup) {a : α} (hbuild : build (split a) = a)
    (h : fields.Restores (split a)) : (record name fields split build).Restores a where
  text o room := by
    cases room with
    | zero => rfl
    | succ room =>
      have hread := Fields.fillAll_shown hnames (h.shown_text o room) fun s => stopAt s.skip
      have hfinish : fields.finish (fields.slots (split a)) = within room 0 (split a) := by
        rw [Fields.finish_slots h, within_zero]
      show ((fields.fillAll o (fun s => stopAt s.skip) (Json.membersAsRead room (fields.members (split a)))
          fields.empty >>= fun filled => fields.finish filled.1).map build) =
        within (room + 1) (Json.membersDepth (fields.members (split a)) + 1) a
      rw [Json.membersAsRead_eq_map, hread, within_succ,
        within_bind (f := fun filled : _ × List (String × Source) => fields.finish filled.1) hfinish,
        Nat.max_zero, within_map, hbuild]
  value o := by
    have hread := Fields.fillAll_shown hnames (h.shown_value o (Nat.le_refl _)) fun s => stopAt s.skip
    rw [within_of_le (Nat.le_refl _)] at hread
    obtain ⟨left, -, hsorted⟩ := Fields.fillAll_normal (Fields.nodup_members hnames (split a)) hread
    have hfinish : fields.decode name o (.ofJson (Json.object (fields.members (split a))).normal) =
        .ok (split a) :=
      bind_eq_ok_iff.mpr ⟨_, hsorted, bind_eq_ok_iff.mpr ⟨(), rfl, Fields.finish_slots h⟩⟩
    exact map_eq_ok_iff.mpr ⟨split a, hfinish, hbuild⟩

/-- A record of lawful fields under different names. -/
theorem lawful_record {Good : τ → Prop} {Fine : α → Prop} {n : Nat} (hfields : fields.Lawful n Good)
    (hnames : fields.names.Nodup) (hbuild : ∀ a, build (split a) = a)
    (hsplit : ∀ t, split (build t) = t) (hfine : ∀ a, Good (split a) ↔ Fine a) :
    (record name fields split build).Lawful (n + 1) Fine where
  restores ha := record_restores hnames (hbuild _) (hfields.restores ((hfine _).mpr ha))
  good {o s a} hs := by
    obtain ⟨t, ht, rfl⟩ := map_eq_ok_iff.mp hs
    obtain ⟨depth, -, hgiven⟩ := Fields.given_of_decode ht
    have hgood := hfields.good hgiven
    rw [← hsplit t] at hgood
    exact (hfine _).mp hgood
  shallow {o s a} hs := by
    obtain ⟨t, ht, rfl⟩ := map_eq_ok_iff.mp hs
    obtain ⟨depth, hdepth, hgiven⟩ := Fields.given_of_decode ht
    have hshallow := Fields.membersDepth_le (hfields.shallow hgiven)
    show Json.membersDepth (fields.members (split (build t))) + 1 ≤ max s.depth (n + 1)
    rw [hsplit]
    omega

end Codec

end ReportFlow
