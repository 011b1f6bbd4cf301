import Mathlib.Data.List.Nodup
import ReportFlow.Flow.Canvas
import ReportFlow.Proofs.FlowCodec

/-!
Which canvas documents become flows. A document is taken exactly when its ids are distinct, the settings
of each node fit its kind and its edges join its nodes. Each node becomes what a flow file would hold
for it, and a document that is refused is refused for the first thing that is wrong with it.
-/

namespace ReportFlow

open Codec (lawful_string lawful_free lawful_list lawful_record)
open ReportFlow.Field (lawful_required lawful_defaulted lawful_defaulted_nil lawful_optional)

/-! ## Settings that fit a kind -/

def NodeKind.Reads (body : Json) : NodeKind → Prop
  | .entity => ∃ c, EntityConfig.codec.ofJson? body = .ok c
  | .filter => ∃ c, FilterConfig.codec.ofJson? body = .ok c
  | .link => ∃ c, LinkConfig.codec.ofJson? body = .ok c
  | .transform => ∃ c, TransformConfig.codec.ofJson? body = .ok c
  | .aggregate => ∃ c, AggregateConfig.codec.ofJson? body = .ok c
  | .sheet => ∃ c, SheetConfig.codec.ofJson? body = .ok c
  | .output => ∃ c, ExportConfig.codec.ofJson? body = .ok c
  | .concatenate => True
  | .pivot => ∃ c, PivotConfig.codec.ofJson? body = .ok c

namespace NodeConfig

variable {node kind : String} {body : Json}

theorem exists_settings_iff {α : Type} {c : Codec α} {empty : α} (hbody : body.isNull = false) :
    (∃ a, settings node kind c empty body = .ok a) ↔ ∃ a, c.ofJson? body = .ok a := by
  simp [settings, hbody, mapError_eq_ok_iff]

/-- Settings of a kind that is not known are taken as they are. -/
theorem exists_ofParts_iff (hbody : body.isNull = false) :
    (∃ config, ofParts node kind body = .ok config) ↔
      ∀ known, NodeKind.ofName? kind = some known → known.Reads body := by
  unfold ofParts
  cases NodeKind.ofName? kind with
  | none => simp
  | some known =>
    cases known <;> simp [map_eq_ok_iff, NodeKind.Reads, exists_settings_iff hbody]

end NodeConfig

/-! ## One node -/

namespace CanvasNode

structure Declares (n : CanvasNode) (kind : String) (members : List (String × Json)) : Prop where
  data : n.data = .object members
  type : Keyed.get? "type" members = some (.string kind)

def settings (members : List (String × Json)) : Json :=
  .object (Keyed.erase "label" (Keyed.erase "type" members))

def caption (members : List (String × Json)) : Option String :=
  (Keyed.get? "label" members).bind Json.string?

def wire (n : CanvasNode) (kind : String) (members : List (String × Json)) : Json :=
  .object ([("id", .string n.id), ("kind", .string kind)] ++
    (n.position.toList.map fun p => ("position", Position.codec.encode p)) ++
    ((caption members).toList.map fun label => ("label", .string label)) ++
    [("config", settings members)])

def Fits (n : CanvasNode) : Prop :=
  ∃ kind members, n.Declares kind members ∧
    ∀ known, NodeKind.ofName? kind = some known → known.Reads (settings members)

/-- What is wrong with a node by itself. Settings that do not fit are reported as in a flow file. -/
inductive Fault (n : CanvasNode) : CanvasError → Prop
  | noData (h : ∀ members, n.data ≠ .object members) : Fault n (.noData n.id)
  | noType {members : List (String × Json)} (hdata : n.data = .object members)
      (htype : ∀ kind, Keyed.get? "type" members ≠ some (.string kind)) : Fault n (.noType n.id)
  | config {kind : String} {members : List (String × Json)} {e : ConfigError}
      (h : n.Declares kind members)
      (hread : FlowNode.codec.ofJson? (n.wire kind members).normal = .error e.toDecodeError) :
      Fault n (.config e)

variable {n : CanvasNode} {kind : String} {members : List (String × Json)}

theorem wire_eq_encode :
    n.wire kind members = FlowNode.writtenCodec.encode
      (n.id, kind, n.position, caption members, settings members, ()) := by
  unfold wire
  cases n.position <;> cases caption members <;> rfl

/-- Taking members out of a free value leaves a free value. -/
theorem Declares.normal_settings (h : n.Declares kind members) (hnormal : n.data.normal = n.data) :
    (settings members).normal = settings members := by
  rw [h.data, Json.normal_object_iff] at hnormal
  obtain ⟨hsorted, hmembers⟩ := hnormal
  refine Json.normal_object (Keyed.sorted_erase _ (Keyed.sorted_erase _ hsorted)) ?_
  intro m hm
  exact hmembers m (List.mem_of_mem_filter (List.mem_of_mem_filter hm))

/-- A node becomes what its settings, its place and its caption make. -/
theorem Declares.toFlowNode (h : n.Declares kind members) :
    n.toFlowNode = ((NodeConfig.ofParts n.id kind (settings members)).mapError .config).map
      fun config => ⟨n.id, config, n.position, caption members⟩ := by
  unfold CanvasNode.toFlowNode
  simp only [h.data, pure_bind, h.type]
  change ((NodeConfig.ofParts n.id kind (settings members)).mapError CanvasError.config >>= fun config =>
    pure (FlowNode.mk n.id config n.position (caption members))) = _
  cases NodeConfig.ofParts n.id kind (settings members) <;> rfl

theorem Declares.ofJson_wire (h : n.Declares kind members) (hnormal : n.data.normal = n.data) :
    FlowNode.codec.ofJson? (n.wire kind members).normal =
      ((NodeConfig.ofParts n.id kind (settings members)).mapError ConfigError.toDecodeError).map
        fun config => ⟨n.id, config, n.position, caption members⟩ := by
  have hwritten : FlowNode.writtenCodec.ofJson? (n.wire kind members).normal =
      .ok (n.id, kind, n.position, caption members, settings members, ()) := by
    rw [wire_eq_encode]
    exact ((FlowNode.lawful_written (n := 0)).restores (h.normal_settings hnormal)).value .value
  change (FlowNode.writtenCodec.ofJson? (n.wire kind members).normal >>= _) = _
  rw [hwritten]
  dsimp only [bind, Except.bind]
  cases NodeConfig.ofParts n.id kind (settings members) <;> rfl

def Becomes (n : CanvasNode) (m : FlowNode) : Prop :=
  ∃ kind members, n.Declares kind members ∧ FlowNode.codec.ofJson? (n.wire kind members).normal = .ok m

theorem toFlowNode_of_noData (h : ∀ members, n.data ≠ .object members) :
    n.toFlowNode = .error (.noData n.id) := by
  unfold CanvasNode.toFlowNode
  cases hdata : n.data with
  | object members => exact absurd hdata (h members)
  | _ => rfl

theorem toFlowNode_of_noType (hdata : n.data = .object members)
    (htype : ∀ kind, Keyed.get? "type" members ≠ some (.string kind)) :
    n.toFlowNode = .error (.noType n.id) := by
  unfold CanvasNode.toFlowNode
  simp only [hdata, pure_bind]
  rfl

/-- A node that names no kind is at fault. -/
theorem exists_declares_or_fault (n : CanvasNode) :
    (∃ kind members, n.Declares kind members) ∨ ∃ e, n.Fault e ∧ n.toFlowNode = .error e := by
  by_cases hdata : ∃ members, n.data = .object members
  · obtain ⟨members, hdata⟩ := hdata
    by_cases htype : ∃ kind, Keyed.get? "type" members = some (.string kind)
    · obtain ⟨kind, htype⟩ := htype
      exact .inl ⟨kind, members, hdata, htype⟩
    · have hnone := not_exists.mp htype
      exact .inr ⟨_, .noType hdata hnone, toFlowNode_of_noType hdata hnone⟩
  · have hnone := not_exists.mp hdata
    exact .inr ⟨_, .noData hnone, toFlowNode_of_noData hnone⟩

theorem exists_declares {m : FlowNode} (h : n.toFlowNode = .ok m) :
    ∃ kind members, n.Declares kind members := by
  refine n.exists_declares_or_fault.resolve_right ?_
  rintro ⟨e, -, herror⟩
  rw [h] at herror
  cases herror

theorem toFlowNode_eq_ok_iff (hnormal : n.data.normal = n.data) {m : FlowNode} :
    n.toFlowNode = .ok m ↔ n.Becomes m := by
  have hsame {kind members} (hd : n.Declares kind members) : n.toFlowNode = .ok m ↔
      FlowNode.codec.ofJson? (n.wire kind members).normal = .ok m := by
    simp only [hd.toFlowNode, hd.ofJson_wire hnormal, map_eq_ok_iff, mapError_eq_ok_iff]
  constructor
  · intro h
    obtain ⟨kind, members, hd⟩ := exists_declares h
    exact ⟨kind, members, hd, (hsame hd).mp h⟩
  · rintro ⟨kind, members, hd, hread⟩
    exact (hsame hd).mpr hread

theorem toFlowNode_eq_error_iff (hnormal : n.data.normal = n.data) {e : CanvasError} :
    n.toFlowNode = .error e ↔ n.Fault e := by
  have hsame {kind members} (hd : n.Declares kind members) (d : ConfigError) :
      n.toFlowNode = .error (.config d) ↔
        FlowNode.codec.ofJson? (n.wire kind members).normal = .error d.toDecodeError := by
    have hinj {d d' : ConfigError} : d.toDecodeError = d'.toDecodeError ↔ d = d' := by
      cases d
      cases d'
      simp [ConfigError.toDecodeError]
    simp only [hd.toFlowNode, hd.ofJson_wire hnormal, map_eq_error_iff, mapError_eq_error_iff, hinj,
      CanvasError.config.injEq]
  constructor
  · intro h
    rcases n.exists_declares_or_fault with ⟨kind, members, hd⟩ | ⟨e', hfault, herror⟩
    · have herror := h
      rw [hd.toFlowNode, map_eq_error_iff, mapError_eq_error_iff] at herror
      obtain ⟨d, _, rfl⟩ := herror
      exact .config hd ((hsame hd d).mp h)
    · rw [h] at herror
      cases herror
      exact hfault
  · intro h
    cases h with
    | noData h => exact toFlowNode_of_noData h
    | noType hdata htype => exact toFlowNode_of_noType hdata htype
    | config hd hread => exact (hsame hd _).mpr hread

theorem exists_toFlowNode_iff : (∃ m, n.toFlowNode = .ok m) ↔ n.Fits := by
  have hsame {kind members} (hd : n.Declares kind members) : (∃ m, n.toFlowNode = .ok m) ↔
      ∀ known, NodeKind.ofName? kind = some known → known.Reads (settings members) := by
    have hparts : (∃ config, NodeConfig.ofParts n.id kind (settings members) = .ok config) ↔ _ :=
      NodeConfig.exists_ofParts_iff rfl
    rw [← hparts]
    simp [hd.toFlowNode, map_eq_ok_iff, mapError_eq_ok_iff]
  constructor
  · rintro ⟨m, h⟩
    obtain ⟨kind, members, hd⟩ := exists_declares h
    exact ⟨kind, members, hd, (hsame hd).mp ⟨m, h⟩⟩
  · rintro ⟨kind, members, hd, hreads⟩
    exact (hsame hd).mpr hreads

end CanvasNode

/-! ## Edges -/

namespace CanvasEdge

structure Joins (e : CanvasEdge) (ids : List String) : Prop where
  source : e.source ∈ ids
  target : e.target ∈ ids

/-- The edge in a flow, with an id derived from its ends when it has none. -/
def converted (e : CanvasEdge) : FlowEdge :=
  ⟨e.id.getD (FlowEdge.derivedId e.source e.target), e.source, e.target⟩

/-- The first end of an edge that is no node. -/
inductive Fault (e : CanvasEdge) (ids : List String) : CanvasError → Prop
  | source (h : e.source ∉ ids) : Fault e ids (.unknownEndpoint e.source e.target e.source)
  | target (hsource : e.source ∈ ids) (h : e.target ∉ ids) :
      Fault e ids (.unknownEndpoint e.source e.target e.target)

variable {e : CanvasEdge} {ids : List String}

theorem toFlowEdge_eq_ok_iff {f : FlowEdge} :
    e.toFlowEdge ids = .ok f ↔ e.Joins ids ∧ f = e.converted := by
  unfold toFlowEdge
  constructor
  · intro h
    split at h
    · cases h
    · split at h
      · cases h
      · cases h
        exact ⟨⟨not_not.mp ‹_›, not_not.mp ‹_›⟩, rfl⟩
  · rintro ⟨⟨hsource, htarget⟩, rfl⟩
    rw [if_neg (not_not_intro hsource), if_neg (not_not_intro htarget)]
    rfl

theorem toFlowEdge_eq_error_iff {d : CanvasError} : e.toFlowEdge ids = .error d ↔ e.Fault ids d := by
  unfold toFlowEdge
  constructor
  · intro h
    split at h
    · cases h
      exact .source ‹_›
    · split at h
      · cases h
        exact .target (not_not.mp ‹_›) ‹_›
      · cases h
  · intro h
    cases h with
    | source h => rw [if_pos h]
    | target hsource h => rw [if_neg (not_not_intro hsource), if_pos h]

theorem exists_toFlowEdge_iff : (∃ f, e.toFlowEdge ids = .ok f) ↔ e.Joins ids := by
  simp [toFlowEdge_eq_ok_iff]

end CanvasEdge

/-! ## Nodes in a row -/

namespace Canvas

variable {seen : List String} {nodes before after : List CanvasNode} {converted : List FlowNode}

theorem flowNodes_cons_of_mem {n : CanvasNode} (h : n.id ∈ seen) (rest : List CanvasNode) :
    flowNodes seen (n :: rest) = .error (.duplicateNode n.id) := if_pos h

theorem flowNodes_cons_of_notMem {n : CanvasNode} (h : n.id ∉ seen) (rest : List CanvasNode) :
    flowNodes seen (n :: rest) =
      n.toFlowNode >>= fun m => (flowNodes (n.id :: seen) rest).map (m :: ·) := by
  rw [flowNodes, if_neg h]
  rfl

/-- Nodes are converted one by one; their ids are distinct and were not seen before. -/
theorem flowNodes_eq_ok_iff :
    flowNodes seen nodes = .ok converted ↔
      (nodes.map (·.id)).Nodup ∧ (∀ n ∈ nodes, n.id ∉ seen) ∧
        List.Forall₂ (fun n m => n.toFlowNode = .ok m) nodes converted := by
  induction nodes generalizing seen converted with
  | nil => simp [flowNodes, eq_comm]
  | cons n rest ih =>
    by_cases hn : n.id ∈ seen
    · rw [flowNodes_cons_of_mem hn]
      exact iff_of_false nofun fun h => h.2.1 n List.mem_cons_self hn
    · rw [flowNodes_cons_of_notMem hn, bind_eq_ok_iff]
      simp only [map_eq_ok_iff, ih, List.map_cons, List.nodup_cons, List.forall_mem_cons]
      constructor
      · rintro ⟨m, hm, others, ⟨hdistinct, hfresh, hothers⟩, rfl⟩
        refine ⟨⟨?_, hdistinct⟩, ⟨hn, ?_⟩, .cons hm hothers⟩
        · intro hmem
          obtain ⟨n', hn', heq⟩ := List.mem_map.mp hmem
          exact hfresh n' hn' (heq ▸ List.mem_cons_self)
        · exact fun n' hn' hseen => hfresh n' hn' (List.mem_cons_of_mem _ hseen)
      · rintro ⟨⟨hid, hdistinct⟩, ⟨-, hfresh⟩, _ | ⟨hm, hothers⟩⟩
        refine ⟨_, hm, _, ⟨hdistinct, ?_, hothers⟩, rfl⟩
        intro n' hn' hmem
        rcases List.mem_cons.mp hmem with heq | hseen
        · exact hid (heq ▸ List.mem_map_of_mem hn')
        · exact hfresh n' hn' hseen

/-- After nodes that are converted, the rest is looked at with their ids seen. -/
theorem flowNodes_append (h : flowNodes seen before = .ok converted) (rest : List CanvasNode) :
    flowNodes seen (before ++ rest) =
      (flowNodes ((before.map (·.id)).reverse ++ seen) rest).map (converted ++ ·) := by
  induction before generalizing seen converted with
  | nil =>
    cases h
    cases hrest : flowNodes seen rest <;> simp [hrest, Except.map]
  | cons n before ih =>
    have hn : n.id ∉ seen := (flowNodes_eq_ok_iff.mp h).2.1 n List.mem_cons_self
    rw [flowNodes_cons_of_notMem hn] at h
    obtain ⟨m, hm, h⟩ := bind_eq_ok_iff.mp h
    obtain ⟨others, hothers, rfl⟩ := map_eq_ok_iff.mp h
    rw [List.cons_append, flowNodes_cons_of_notMem hn, hm, List.map_cons, List.reverse_cons,
      List.append_assoc, List.singleton_append]
    change (flowNodes (n.id :: seen) (before ++ rest)).map (m :: ·) = _
    rw [ih hothers]
    cases flowNodes ((before.map (·.id)).reverse ++ n.id :: seen) rest <;> rfl

/-- What the first node is that is not converted, and why it is not. -/
theorem split_of_flowNodes_error {e : CanvasError} (h : flowNodes seen nodes = .error e) :
    ∃ before n after converted, nodes = before ++ n :: after ∧ flowNodes seen before = .ok converted ∧
      ((n.id ∈ (before.map (·.id)).reverse ++ seen ∧ e = .duplicateNode n.id) ∨
        (n.id ∉ (before.map (·.id)).reverse ++ seen ∧ n.toFlowNode = .error e)) := by
  induction nodes generalizing seen with
  | nil => cases h
  | cons n rest ih =>
    by_cases hn : n.id ∈ seen
    · rw [flowNodes_cons_of_mem hn] at h
      cases h
      exact ⟨[], n, rest, [], rfl, rfl, .inl ⟨hn, rfl⟩⟩
    · rw [flowNodes_cons_of_notMem hn, bind_eq_error_iff] at h
      rcases h with h | ⟨m, hm, h⟩
      · exact ⟨[], n, rest, [], rfl, rfl, .inr ⟨hn, h⟩⟩
      · obtain ⟨before, x, after, others, rfl, hbefore, hx⟩ := ih (map_eq_error_iff.mp h)
        refine ⟨n :: before, x, after, m :: others, rfl, ?_, ?_⟩
        · rw [flowNodes_cons_of_notMem hn, hm]
          exact map_eq_ok_iff.mpr ⟨others, hbefore, rfl⟩
        · rw [List.map_cons, List.reverse_cons, List.append_assoc]
          exact hx

/-! ## Whole documents -/

structure Compatible (nodes : List CanvasNode) : Prop where
  distinct : (nodes.map (·.id)).Nodup
  fit : ∀ n ∈ nodes, n.Fits

theorem exists_flowNodes_iff : (∃ converted, flowNodes [] nodes = .ok converted) ↔ Compatible nodes := by
  simp only [flowNodes_eq_ok_iff, ← mapM_eq_ok_iff]
  constructor
  · rintro ⟨converted, hdistinct, -, hconverted⟩
    have hall := exists_mapM_iff.mp ⟨converted, hconverted⟩
    exact ⟨hdistinct, fun n hn => CanvasNode.exists_toFlowNode_iff.mp (hall n hn)⟩
  · rintro ⟨hdistinct, hfit⟩
    obtain ⟨converted, hconverted⟩ :=
      exists_mapM_iff.mpr fun n hn => CanvasNode.exists_toFlowNode_iff.mpr (hfit n hn)
    exact ⟨converted, hdistinct, fun _ _ => List.not_mem_nil, hconverted⟩

def Proper (c : Canvas) : Prop := ∀ n ∈ c.nodes, n.data.normal = n.data

/-- A document that was read holds its free values in normal form. -/
theorem proper_of_decode {o : Origin} {s : Source} {c : Canvas} (h : codec.decode o s = .ok c) :
    c.Proper := by
  have hnode : CanvasNode.codec.Lawful 2 fun n => n.data.normal = n.data :=
    lawful_record
      (.cons (lawful_required lawful_string) <| .cons (lawful_optional Position.lawful nofun) <|
        .cons (lawful_defaulted lawful_free rfl (Nat.zero_le _)) .nil)
      (by decide) (fun _ => rfl) (fun _ => rfl) (by simp)
  have hedge : CanvasEdge.codec.Lawful 2 fun _ => True :=
    lawful_record
      (.cons (lawful_optional lawful_string nofun) <| .cons (lawful_required lawful_string) <|
        .cons (lawful_required lawful_string) .nil)
      (by decide) (fun _ => rfl) (fun _ => rfl) (by simp)
  have hcanvas : codec.Lawful 4 Proper :=
    lawful_record
      (.cons (lawful_required (lawful_list hnode)) <|
        .cons (lawful_defaulted_nil (lawful_list hedge) (List.forall_mem_nil _)) .nil)
      (by decide) (fun _ => rfl) (fun _ => rfl) (by simp [Proper])
  exact hcanvas.good h

def ids (c : Canvas) : List String := c.nodes.map (·.id)

structure WellFormed (c : Canvas) : Prop where
  nodes : Compatible c.nodes
  edges : ∀ e ∈ c.edges, e.Joins c.ids

structure Becomes (c : Canvas) (g : Flow) : Prop where
  nodes : List.Forall₂ CanvasNode.Becomes c.nodes g.nodes
  edges : g.edges = c.edges.map CanvasEdge.converted

/-- The first thing that is wrong: nodes come before edges, and an id that was seen before what else
is wrong with its node. -/
inductive FirstFault (c : Canvas) : CanvasError → Prop
  | repeated {before n after} (hnodes : c.nodes = before ++ n :: after) (hbefore : Compatible before)
      (hid : n.id ∈ before.map (·.id)) : FirstFault c (.duplicateNode n.id)
  | node {before n after e} (hnodes : c.nodes = before ++ n :: after) (hbefore : Compatible before)
      (hid : n.id ∉ before.map (·.id)) (h : n.Fault e) : FirstFault c e
  | edge {before x after e} (hnodes : Compatible c.nodes) (hedges : c.edges = before ++ x :: after)
      (hbefore : ∀ y ∈ before, y.Joins c.ids) (h : x.Fault c.ids e) : FirstFault c e

variable {c : Canvas}

theorem toFlow_eq_ok_iff {g : Flow} :
    c.toFlow = .ok g ↔ flowNodes [] c.nodes = .ok g.nodes ∧
      c.edges.mapM (CanvasEdge.toFlowEdge c.ids) = .ok g.edges := by
  unfold toFlow
  constructor
  · intro h
    obtain ⟨nodes, hnodes, h⟩ := bind_eq_ok_iff.mp h
    obtain ⟨edges, hedges, h⟩ := bind_eq_ok_iff.mp h
    cases h
    exact ⟨hnodes, hedges⟩
  · rintro ⟨hnodes, hedges⟩
    exact bind_eq_ok_iff.mpr ⟨_, hnodes, bind_eq_ok_iff.mpr ⟨_, hedges, rfl⟩⟩

/-- Edges are looked at when all nodes are converted. -/
theorem toFlow_eq_error_iff {e : CanvasError} :
    c.toFlow = .error e ↔ flowNodes [] c.nodes = .error e ∨
      Compatible c.nodes ∧ c.edges.mapM (CanvasEdge.toFlowEdge c.ids) = .error e := by
  rw [toFlow, bind_eq_error_iff, ← exists_flowNodes_iff]
  refine or_congr_right ?_
  constructor
  · rintro ⟨converted, hconverted, h⟩
    rcases bind_eq_error_iff.mp h with h | ⟨_, _, h⟩
    · exact ⟨⟨converted, hconverted⟩, h⟩
    · cases h
  · rintro ⟨⟨converted, hconverted⟩, h⟩
    exact ⟨converted, hconverted, bind_eq_error_iff.mpr (.inl h)⟩

theorem exists_toFlow_iff : (∃ g, c.toFlow = .ok g) ↔ c.WellFormed := by
  have hnodes := @exists_flowNodes_iff c.nodes
  have hedges : (∃ edges, c.edges.mapM (CanvasEdge.toFlowEdge c.ids) = .ok edges) ↔
      ∀ e ∈ c.edges, e.Joins c.ids := by
    simp only [exists_mapM_iff, CanvasEdge.exists_toFlowEdge_iff]
  constructor
  · rintro ⟨g, h⟩
    obtain ⟨hg, he⟩ := toFlow_eq_ok_iff.mp h
    exact ⟨hnodes.mp ⟨_, hg⟩, hedges.mp ⟨_, he⟩⟩
  · rintro ⟨hn, he⟩
    obtain ⟨nodes, hn⟩ := hnodes.mpr hn
    obtain ⟨edges, he⟩ := hedges.mpr he
    exact ⟨⟨nodes, edges⟩, toFlow_eq_ok_iff.mpr ⟨hn, he⟩⟩

theorem edges_of_toFlow {g : Flow} (h : c.toFlow = .ok g) : g.edges = c.edges.map CanvasEdge.converted :=
  eq_map_of_forall₂ ((mapM_eq_ok_iff.mp (toFlow_eq_ok_iff.mp h).2).imp fun _ _ he =>
    (CanvasEdge.toFlowEdge_eq_ok_iff.mp he).2)

theorem becomes_of_toFlow (hproper : c.Proper) {g : Flow} (h : c.toFlow = .ok g) : c.Becomes g := by
  obtain ⟨hnodes, -⟩ := toFlow_eq_ok_iff.mp h
  obtain ⟨-, -, hconverted⟩ := flowNodes_eq_ok_iff.mp hnodes
  refine ⟨forall₂_imp_of_mem hconverted ?_, edges_of_toFlow h⟩
  intro n hn m hm
  exact (CanvasNode.toFlowNode_eq_ok_iff (hproper n hn)).mp hm

theorem flowNodes_eq_error_iff (hproper : ∀ n ∈ nodes, n.data.normal = n.data) {e : CanvasError} :
    flowNodes [] nodes = .error e ↔ ∃ before n after, nodes = before ++ n :: after ∧
      Compatible before ∧ (n.id ∈ before.map (·.id) ∧ e = .duplicateNode n.id ∨
        n.id ∉ before.map (·.id) ∧ n.Fault e) := by
  constructor
  · intro h
    obtain ⟨before, n, after, converted, rfl, hbefore, hn⟩ := split_of_flowNodes_error h
    rw [List.append_nil, List.mem_reverse] at hn
    have hnormal := hproper n (List.mem_append_right _ List.mem_cons_self)
    rw [CanvasNode.toFlowNode_eq_error_iff hnormal] at hn
    exact ⟨before, n, after, rfl, exists_flowNodes_iff.mp ⟨_, hbefore⟩, hn⟩
  · rintro ⟨before, n, after, rfl, hbefore, hn⟩
    obtain ⟨converted, hconverted⟩ := exists_flowNodes_iff.mpr hbefore
    have hnormal := hproper n (List.mem_append_right _ List.mem_cons_self)
    rw [← List.mem_reverse, ← List.append_nil (before.map _).reverse,
      ← CanvasNode.toFlowNode_eq_error_iff hnormal] at hn
    rw [flowNodes_append hconverted, map_eq_error_iff]
    rcases hn with ⟨hid, rfl⟩ | ⟨hid, hn⟩
    · exact flowNodes_cons_of_mem hid after
    · rw [flowNodes_cons_of_notMem hid, hn]
      rfl

theorem toFlow_eq_error_iff_firstFault (hproper : c.Proper) {e : CanvasError} :
    c.toFlow = .error e ↔ c.FirstFault e := by
  simp only [toFlow_eq_error_iff, flowNodes_eq_error_iff hproper, mapM_eq_error_iff,
    CanvasEdge.exists_toFlowEdge_iff, CanvasEdge.toFlowEdge_eq_error_iff]
  constructor
  · rintro (⟨before, n, after, hnodes, hbefore, ⟨hid, rfl⟩ | ⟨hid, hn⟩⟩ |
      ⟨hnodes, before, x, after, hedges, hbefore, hx⟩)
    · exact .repeated hnodes hbefore hid
    · exact .node hnodes hbefore hid hn
    · exact .edge hnodes hedges hbefore hx
  · intro h
    cases h with
    | repeated hnodes hbefore hid => exact .inl ⟨_, _, _, hnodes, hbefore, .inl ⟨hid, rfl⟩⟩
    | node hnodes hbefore hid hn => exact .inl ⟨_, _, _, hnodes, hbefore, .inr ⟨hid, hn⟩⟩
    | edge hnodes hedges hbefore hx => exact .inr ⟨hnodes, _, _, _, hedges, hbefore, hx⟩

/-- A document becomes a flow exactly when it is well formed, and each node becomes what a flow file
would hold for it. Any other document is refused for the first thing that is wrong with it. -/
theorem conversion_exact (hproper : c.Proper) :
    ((∃ g, c.toFlow = .ok g) ↔ c.WellFormed) ∧
    (∀ g, c.toFlow = .ok g → c.Becomes g) ∧
    ∀ e, c.toFlow = .error e ↔ c.FirstFault e := by
  refine ⟨exists_toFlow_iff, ?_, ?_⟩
  · intro g h
    exact becomes_of_toFlow hproper h
  · intro e
    exact toFlow_eq_error_iff_firstFault hproper

namespace Board

/-- A document with a caption that is no text, a link called a join and a node of an unknown kind. -/
def document : Json :=
  .object [("nodes", .array [
      .object [("id", .string "a"),
        ("position", .object [("x", .number (.integer 50)), ("y", .number (.integer 60))]),
        ("data", .object [("type", .string "entity"), ("label", .number (.integer 5)),
          ("entity", .string "account")])],
      .object [("id", .string "j"),
        ("data", .object [("type", .string "join"), ("label", .string "Contacts")])],
      .object [("id", .string "h"),
        ("data", .object [("type", .string "heatmap"), ("colors", .number (.integer 3))])]]),
    ("edges", .array [
      .object [("source", .string "a"), ("target", .string "j")],
      .object [("id", .string "custom"), ("source", .string "j"), ("target", .string "h")]])]

def canvas : Canvas where
  nodes := [
    ⟨"a", some ⟨.ofInt 50, .ofInt 60⟩, .object [("entity", .string "account"),
      ("label", .number (.integer 5)), ("type", .string "entity")]⟩,
    ⟨"j", none, .object [("label", .string "Contacts"), ("type", .string "join")]⟩,
    ⟨"h", none, .object [("colors", .number (.integer 3)), ("type", .string "heatmap")]⟩]
  edges := [⟨none, "a", "j"⟩, ⟨some "custom", "j", "h"⟩]

def flow : Flow where
  nodes := [
    ⟨"a", .entity { EntityConfig.empty with entity := some "account" }, some ⟨.ofInt 50, .ofInt 60⟩, none⟩,
    ⟨"j", .link .empty, none, some "Contacts"⟩,
    ⟨"h", .unrecognized "heatmap" (.object [("colors", .number (.integer 3))]), none, none⟩]
  edges := [⟨"edge-a-j", "a", "j"⟩, ⟨"custom", "j", "h"⟩]

/-- The last node has no data either, and the edge leads nowhere. -/
def spoiled : Canvas := ⟨canvas.nodes ++ [⟨"a", none, .null⟩], [⟨none, "a", "x"⟩]⟩

end Board

open Board in
theorem conversion_exact_board :
    codec.ofJson? document = .ok Board.canvas ∧ Board.canvas.WellFormed ∧ Board.canvas.Becomes flow ∧
      spoiled.Proper ∧ spoiled.FirstFault (.duplicateNode "a") := by
  have hread : codec.ofJson? document = .ok Board.canvas := by decide +kernel
  obtain ⟨haccept, hbecomes, -⟩ := conversion_exact (proper_of_decode hread)
  have hflow : Board.canvas.toFlow = .ok flow := by decide +kernel
  have hspoiled : spoiled.Proper := by
    intro n hn
    rcases List.mem_append.mp hn with hn | hn
    · exact proper_of_decode hread n hn
    · rw [List.mem_singleton.mp hn]
      rfl
  obtain ⟨-, -, hrefuse⟩ := conversion_exact hspoiled
  have hrefused : spoiled.toFlow = .error (.duplicateNode "a") := by decide +kernel
  exact ⟨hread, haccept.mp ⟨flow, hflow⟩, hbecomes flow hflow, hspoiled, (hrefuse _).mp hrefused⟩

end Canvas

end ReportFlow
