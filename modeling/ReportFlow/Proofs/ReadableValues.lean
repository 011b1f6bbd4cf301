import ReportFlow.Proofs.DefinitionCodec

/-!
Whatever is written can be read. A value that is not well formed does not come back as it was: a
default of `null` is dropped, and of repeated keys the last counts. But nothing that is written of it
is refused.
-/

namespace ReportFlow

namespace Codec

variable {α : Type} {c : Codec α}

def Takes (c : Codec α) (a : α) : Prop :=
  ∀ o, ∃ b, c.decode o (.ofJson (c.encode a).normal) = .ok b

theorem Restores.takes {a : α} (h : c.Restores a) : c.Takes a := fun o => ⟨a, h.value o⟩

theorem takes_free (j : Json) : free.Takes j := by
  intro o
  have hread : (Source.ofJson j.normal).toJson = .ok j.normal := by
    rw [Json.toJson_ofJson, Json.normal_normal]
  exact ⟨j.normal, mapError_eq_ok_iff.mpr hread⟩

theorem takes_option {x : Option α} (h : ∀ a ∈ x, c.Takes a) : c.option.Takes x := by
  intro o
  cases x with
  | none => exact ⟨none, rfl⟩
  | some a =>
    by_cases hnull : Source.ofJson (c.encode a).normal = .null
    · refine ⟨none, ?_⟩
      show c.option.decode o (.ofJson (c.encode a).normal) = .ok none
      rw [hnull]
      rfl
    · obtain ⟨b, hb⟩ := h a rfl o
      refine ⟨some b, ?_⟩
      show c.option.decode o (.ofJson (c.encode a).normal) = .ok (some b)
      rw [option_decode_of_ne hnull, hb]
      rfl

theorem takes_list {xs : List α} (h : ∀ x ∈ xs, c.Takes x) : (list c).Takes xs := by
  intro o
  have hread : ∃ ys, ((xs.map c.encode).map fun j => Source.ofJson j.normal).mapM (c.decode o) =
      .ok ys := by
    refine exists_mapM_iff.mpr ?_
    simp only [List.forall_mem_map]
    intro x hx
    exact h x hx o
  obtain ⟨ys, hys⟩ := hread
  refine ⟨ys, ?_⟩
  show (Source.ofItems (Json.normalItems (xs.map c.encode))).mapM (c.decode o) >>=
    (fun ys => .ok ys) = .ok ys
  rw [Json.normalItems_eq_map, Json.ofItems_eq_map, List.map_map]
  exact bind_eq_ok_iff.mpr ⟨ys, hys, rfl⟩

theorem exists_entries_eq_ok {o : Origin} {members : List (String × Json)}
    (h : ∀ m ∈ members, ∃ a, c.decode o (.ofJson m.2) = .ok a) :
    ∃ xs, entries c o (Source.ofMembers members) = .ok xs := by
  induction members with
  | nil => exact ⟨[], rfl⟩
  | cons m members ih =>
    obtain ⟨key, j⟩ := m
    obtain ⟨⟨a, ha⟩, hrest⟩ := List.forall_mem_cons.mp h
    obtain ⟨xs, hxs⟩ := ih hrest
    exact ⟨(key, a) :: xs, bind_eq_ok_iff.mpr ⟨a, ha, bind_eq_ok_iff.mpr ⟨xs, hxs, rfl⟩⟩⟩

/-- Keys may be repeated, and stand in any order. -/
theorem takes_map {xs : List (String × α)} (h : ∀ x ∈ xs, c.Takes x.2) : (map c).Takes xs := by
  intro o
  have hmembers : ∀ m ∈ Keyed.ofList (Json.normalMembers (xs.map fun x => (x.1, c.encode x.2))),
      ∃ a, c.decode o (.ofJson m.2) = .ok a := by
    intro m hm
    have hwritten := Keyed.mem_of_mem_ofList hm
    rw [Json.normalMembers_eq_map, List.map_map] at hwritten
    obtain ⟨x, hx, rfl⟩ := List.mem_map.mp hwritten
    exact h x hx o
  obtain ⟨ys, hys⟩ := exists_entries_eq_ok hmembers
  exact ⟨Keyed.ofList ys, bind_eq_ok_iff.mpr ⟨ys, hys, rfl⟩⟩

end Codec

/-- What is written of the value of a field is read; where it is left out, a default stands in. -/
structure Field.Takes {α : Type} (field : Field α) (a : α) : Prop where
  codec : field.omitted a = false → field.codec.Takes a
  omitted : field.omitted a = true → ∃ b, field.absent = some b

def Field.ReadAs {α : Type} (o : Origin) (field : Field α) (a b : α) : Prop :=
  if field.omitted a then field.absent = some b
  else field.codec.decode o (.ofJson (field.codec.encode a).normal) = .ok b

namespace Field

variable {α : Type} {name : String} {c : Codec α}

/-- A value that is restored is read as nothing else. -/
theorem ReadAs.eq {field : Field α} {o : Origin} {a b : α} (h : field.ReadAs o a b)
    (ha : field.Restores a) : b = a := by
  unfold ReadAs at h
  split at h
  next homitted => exact Option.some.inj (h.symm.trans (ha.omitted homitted))
  next => exact Except.ok.inj (h.symm.trans (ha.codec.value o))

theorem takes_required {a : α} (h : c.Takes a) : (required name c).Takes a where
  codec _ := h
  omitted h := nomatch h

theorem takes_defaulted {value a : α} (h : c.Takes a) : (defaulted name c value).Takes a where
  codec _ := h
  omitted h := nomatch h

theorem takes_optional {x : Option α} (h : ∀ a ∈ x, c.Takes a) : (optional name c).Takes x where
  codec _ := Codec.takes_option h
  omitted _ := ⟨none, rfl⟩

theorem takes_nullable {x : Option α} (h : ∀ a ∈ x, c.Takes a) : (nullable name c).Takes x where
  codec _ := Codec.takes_option h
  omitted h := nomatch h

end Field

namespace Fields

open Codec (Decoded stopAt)

variable {τ σ : Type}

def Takes {τ σ : Type} : Fields τ σ → τ → Prop
  | nil, _ => True
  | cons field rest, (a, t) => field.Takes a ∧ rest.Takes t

def ReadAs {τ σ : Type} (o : Origin) : Fields τ σ → τ → τ → Prop
  | nil, _, _ => True
  | cons field rest, (a, t), (b, u) => field.ReadAs o a b ∧ rest.ReadAs o t u

/-- The members that are written fill slots that can be finished. -/
theorem fillAll_taken {fields : Fields τ σ} {t : τ} (hnames : fields.names.Nodup)
    (h : fields.Takes t) (o : Origin) (pass : Source → Decoded Unit) :
    ∃ filled u, fields.fillAll o pass
        ((fields.members t).map fun m => (.name m.1, .ofJson m.2.normal)) fields.empty =
          .ok (filled, []) ∧ fields.finish filled = .ok u ∧ fields.ReadAs o t u := by
  induction fields with
  | nil => exact ⟨(), (), rfl, rfl, trivial⟩
  | cons field rest ih =>
    obtain ⟨a, t⟩ := t
    obtain ⟨hfield, hrest⟩ := h
    obtain ⟨hname, hnames⟩ := List.nodup_cons.mp hnames
    obtain ⟨filled, u, hfill, hfinish, hread⟩ := ih hnames hrest
    have htail (slot : Option _) : (cons field rest).fillAll o pass
        ((rest.members t).map fun m => (.name m.1, .ofJson m.2.normal)) (slot, rest.empty) =
          .ok ((slot, filled), []) := by
      rw [fillAll_members_cons hname fun j => .ofJson j.normal, hfill]
      rfl
    cases homitted : field.omitted a with
    | true =>
      obtain ⟨b, hb⟩ := hfield.omitted homitted
      refine ⟨(none, filled), (b, u), ?_, finish_cons_eq_ok_iff.mpr ⟨b, hb, u, hfinish, rfl⟩,
        ?_, hread⟩
      · rw [members, if_pos homitted]
        exact htail none
      · rw [Field.ReadAs, if_pos homitted]
        exact hb
    | false =>
      obtain ⟨b, hb⟩ := hfield.codec homitted o
      have hwritten : ¬field.omitted a = true := homitted ▸ Bool.false_ne_true
      refine ⟨(some b, filled), (b, u), ?_, finish_cons_eq_ok_iff.mpr ⟨b, rfl, u, hfinish, rfl⟩,
        ?_, hread⟩
      · rw [members, if_neg hwritten, List.map_cons, empty, fillAll, fill?_cons_eq rfl, hb]
        exact htail (some b)
      · rw [Field.ReadAs, if_neg hwritten]
        exact hb

end Fields

namespace Codec

variable {α τ σ : Type} {name : String} {fields : Fields τ σ} {split : α → τ} {build : τ → α} {a : α}

/-- A record is read, field by field. -/
theorem record_decode {P : α → Prop} {o : Origin} (hnames : fields.names.Nodup)
    (h : fields.Takes (split a)) (hP : ∀ u, fields.ReadAs o (split a) u → P (build u)) :
    ∃ r, (record name fields split build).decode o
      (.ofJson ((record name fields split build).encode a).normal) = .ok r ∧ P r := by
  obtain ⟨filled, u, hfill, hfinish, hu⟩ := Fields.fillAll_taken hnames h o fun s => stopAt s.skip
  obtain ⟨left, -, hsorted⟩ := Fields.fillAll_normal (Fields.nodup_members hnames (split a)) hfill
  have hread : fields.decode name o (.ofJson (Json.object (fields.members (split a))).normal) =
      .ok u :=
    bind_eq_ok_iff.mpr ⟨_, hsorted, bind_eq_ok_iff.mpr ⟨(), rfl, hfinish⟩⟩
  exact ⟨build u, map_eq_ok_iff.mpr ⟨u, hread, rfl⟩, hP u hu⟩

theorem takes_record (hnames : fields.names.Nodup) (h : fields.Takes (split a)) :
    (record name fields split build).Takes a := by
  intro o
  obtain ⟨r, hread, -⟩ := record_decode (P := fun _ => True) hnames h fun _ _ => trivial
  exact ⟨r, hread⟩

end Codec

/-! ## The parts of a definition -/

open Codec (takes_free takes_list takes_map takes_record)
open ReportFlow.Field (takes_required takes_defaulted takes_optional takes_nullable
  restores_required restores_defaulted)

theorem takes_string (s : String) : Codec.string.Takes s :=
  ((Codec.lawful_string (n := 0)).restores trivial).takes

theorem takes_double (d : Double) : Codec.double.Takes d :=
  ((Codec.lawful_double (n := 0)).restores trivial).takes

theorem takes_strings (ss : List String) : (Codec.list .string).Takes ss :=
  takes_list fun s _ => takes_string s

theorem CaptionedCondition.takes (x : CaptionedCondition) : CaptionedCondition.codec.Takes x :=
  takes_record (by decide)
    ⟨takes_required (takes_string _),
      takes_required ((Operator.lawful (n := 0)).restores trivial).takes,
      takes_required (takes_free _), takes_optional fun s _ => takes_string s, trivial⟩

theorem ParameterOption.takes (x : ParameterOption) : ParameterOption.codec.Takes x :=
  takes_record (by decide)
    ⟨takes_required (takes_free _), takes_required (takes_string _), trivial⟩

theorem Parameter.takes (p : Parameter) : Parameter.codec.Takes p :=
  takes_record (by decide)
    ⟨takes_required (takes_string _),
      takes_required ((ParameterType.lawful (n := 0)).restores trivial).takes,
      takes_optional fun j _ => takes_free j, takes_optional fun d _ => takes_double d,
      takes_optional fun d _ => takes_double d, takes_required (takes_string _),
      takes_optional fun s _ => takes_string s,
      takes_optional fun _ _ => ((Codec.lawful_bool (n := 0)).restores trivial).takes,
      takes_optional fun xs _ => takes_list fun x _ => ParameterOption.takes x, trivial⟩

theorem ChildPlan.takes (p : ChildPlan) : ChildPlan.codec.Takes p :=
  takes_record (by decide)
    ⟨takes_required (takes_string _), takes_required (takes_string _),
      takes_required (takes_strings _),
      takes_optional fun _ _ => ((lawful_sortKeys (n := 0)).restores trivial).takes,
      takes_optional fun xs _ => takes_list fun x _ => CaptionedCondition.takes x, trivial⟩

theorem Artifacts.takes (a : Artifacts) : Artifacts.codec.Takes a :=
  takes_record (by decide)
    ⟨takes_required (takes_string _), takes_required (takes_string _),
      takes_required ((SnapshotRef.lawful (n := 0)).restores trivial).takes,
      takes_optional fun s _ => takes_string s,
      takes_optional fun xs _ => takes_map fun x _ => takes_string x.2,
      takes_optional fun xs _ => takes_map fun x _ => ChildPlan.takes x.2, trivial⟩

/-- A definition is read under its id, with its primary entity and its graph, whatever parameters
and artifacts it has. -/
theorem Definition.decode_anyway {d : Definition} (hgraph : d.graph.WellFormed)
    (hcreated : d.createdAt.ReadsBack) (hupdated : d.updatedAt.ReadsBack) (o : Origin) :
    ∃ r, codec.decode o (.ofJson (codec.encode d).normal) = .ok r ∧
      r.id = d.id ∧ r.primaryEntity = d.primaryEntity ∧ r.graph = d.graph := by
  have hstring (s : String) : Codec.string.Restores s :=
    (Codec.lawful_string (n := 0)).restores trivial
  have hgraph : StoredGraph.codec.Restores d.graph := (StoredGraph.lawful (n := 0)).restores hgraph
  refine Codec.record_decode (by decide)
    ⟨takes_required (takes_string _), takes_required (takes_string _),
      takes_required (takes_string _), takes_defaulted (takes_string _),
      takes_defaulted ((Owner.lawful (n := 0)).restores trivial).takes,
      takes_nullable fun s _ => takes_string s, takes_defaulted (takes_strings _),
      takes_required (takes_string _), takes_required (Timestamp.restores hcreated).takes,
      takes_required (Timestamp.restores hupdated).takes,
      takes_required ((Codec.lawful_uint32 (n := 0)).restores trivial).takes,
      takes_defaulted ((Security.lawful (n := 0)).restores trivial).takes,
      takes_defaulted (takes_list fun p _ => Parameter.takes p),
      takes_defaulted hgraph.takes,
      takes_defaulted ((Layout.lawful (n := 0)).restores trivial).takes,
      takes_defaulted ((Limits.lawful (n := 0)).restores trivial).takes,
      takes_defaulted ((Hints.lawful (n := 0)).restores trivial).takes,
      takes_optional fun a _ => Artifacts.takes a, trivial⟩ fun u hu => ?_
  obtain ⟨-, hid, -, -, -, -, -, hentity, -, -, -, -, -, hnodes, -⟩ := hu
  exact ⟨hid.eq (restores_required (hstring _)), hentity.eq (restores_required (hstring _)),
    hnodes.eq (restores_defaulted hgraph)⟩

end ReportFlow
