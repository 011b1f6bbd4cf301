import Mathlib.Data.List.Chain
import Mathlib.Logic.Relation
import ReportFlow.Structure.Cycle

/-!
The search for a directed cycle is exact. Left to run without any bound it ends on every outline, the
bound it is given is never met, and it finds a cycle if and only if some links lead in a ring.
-/

namespace ReportFlow

namespace Outline

structure IsRing (o : Outline) (ring : List Link) : Prop where
  nonempty : ring ≠ []
  links : ∀ l ∈ ring, l ∈ o.links
  joined : ring.IsChain fun l next => l.target = next.source
  closed : (ring.getLast nonempty).target = (ring.head nonempty).source

def IsCyclic (o : Outline) : Prop := ∃ ring, o.IsRing ring

theorem transGen_of_chain {o : Outline} {l : Link} {rest : List Link}
    (hmem : ∀ x ∈ l :: rest, x ∈ o.links)
    (hchain : (l :: rest).IsChain fun x next => x.target = next.source) :
    Relation.TransGen o.Linked l.source ((l :: rest).getLast (List.cons_ne_nil l rest)).target := by
  have hl : o.Linked l.source l.target := hmem l List.mem_cons_self
  induction rest generalizing l with
  | nil => exact .single hl
  | cons next rest ih =>
    rw [List.isChain_cons_cons] at hchain
    obtain ⟨hjoin, hchain⟩ := hchain
    have hmem' : ∀ x ∈ next :: rest, x ∈ o.links := fun x hx => hmem x (List.mem_cons_of_mem l hx)
    have htail := ih hmem' hchain (hmem' next List.mem_cons_self)
    rw [← hjoin] at htail
    rw [List.getLast_cons (List.cons_ne_nil next rest)]
    exact .head hl htail

theorem exists_chain_of_transGen {o : Outline} {a b : String} (h : Relation.TransGen o.Linked a b) :
    ∃ l rest, (∀ x ∈ l :: rest, x ∈ o.links) ∧
      (l :: rest).IsChain (fun x next => x.target = next.source) ∧ l.source = a ∧
      ((l :: rest).getLast (List.cons_ne_nil l rest)).target = b := by
  induction h using Relation.TransGen.head_induction_on with
  | @single a h => exact ⟨⟨a, b⟩, [], List.forall_mem_singleton.mpr h, .singleton _, rfl, rfl⟩
  | @head a c h _ ih =>
    obtain ⟨l, rest, hmem, hchain, hsource, htarget⟩ := ih
    refine ⟨⟨a, c⟩, l :: rest, List.forall_mem_cons.mpr ⟨h, hmem⟩, ?_, rfl, ?_⟩
    · exact List.isChain_cons_cons.mpr ⟨hsource.symm, hchain⟩
    · rw [List.getLast_cons (List.cons_ne_nil l rest)]
      exact htarget

/-- Some id can be reached from itself. -/
theorem isCyclic_iff {o : Outline} : o.IsCyclic ↔ ∃ id, Relation.TransGen o.Linked id id := by
  constructor
  · rintro ⟨ring, hring⟩
    obtain ⟨hne, hmem, hchain, hclosed⟩ := hring
    cases ring with
    | nil => contradiction
    | cons l rest =>
      have h := transGen_of_chain hmem hchain
      rw [hclosed] at h
      exact ⟨l.source, h⟩
  · rintro ⟨id, h⟩
    obtain ⟨l, rest, hmem, hchain, hsource, htarget⟩ := exists_chain_of_transGen h
    exact ⟨l :: rest, List.cons_ne_nil l rest, hmem, hchain, htarget.trans hsource.symm⟩

theorem mem_targets {o : Outline} {id target : String} :
    target ∈ o.targets id ↔ o.Linked id target := by
  unfold targets Linked
  simp only [List.mem_map, List.mem_filter, beq_iff_eq]
  constructor
  · rintro ⟨⟨source, target⟩, ⟨hl, rfl⟩, rfl⟩
    exact hl
  · intro hl
    exact ⟨⟨id, target⟩, ⟨hl, rfl⟩, rfl⟩

theorem source_mem_roots {o : Outline} {id target : String} (h : o.Linked id target) :
    id ∈ o.roots :=
  List.mem_append_right _ (List.mem_map.mpr ⟨_, h, rfl⟩)

end Outline

namespace Search

variable {o : Outline} {s t : Search}

theorem mark?_cons (marks : List (String × Mark)) (stack : List (String × List String))
    (id x : String) (m : Mark) :
    (⟨(id, m) :: marks, stack⟩ : Search).mark? x = if x = id then some m else marks.lookup x := by
  unfold mark?
  rw [List.lookup_cons]
  by_cases h : x = id
  · rw [if_pos h, h, beq_self_eq_true]
  · rw [if_neg h, beq_false_of_ne h]

/-! ## What a step can do -/

/-- A step that goes on: an id is left, a target that was left before is skipped, or a target is
entered that no search has met. -/
inductive Moves (o : Outline) : Search → Search → Prop where
  | leave (marks id rest) : Moves o ⟨marks, (id, []) :: rest⟩ ⟨(id, .done) :: marks, rest⟩
  | skip (marks id target others rest) (h : marks.lookup target = some .done) :
      Moves o ⟨marks, (id, target :: others) :: rest⟩ ⟨marks, (id, others) :: rest⟩
  | enter (marks id target others rest) (h : marks.lookup target = none) :
      Moves o ⟨marks, (id, target :: others) :: rest⟩
        ⟨(target, .onStack) :: marks, (target, o.targets target) :: (id, others) :: rest⟩

theorem moves_of_step (h : s.step o = .next t) : Moves o s t := by
  rcases s with ⟨marks, _ | ⟨⟨id, _ | ⟨target, others⟩⟩, rest⟩⟩
  · cases h
  · cases h
    exact .leave marks id rest
  · unfold step at h
    simp only at h
    split at h
    next => cases h
    next hd => cases h; exact .skip marks id target others rest hd
    next hn => cases h; exact .enter marks id target others rest hn

theorem stack_of_finished (h : s.step o = .finished) : s.stack = [] := by
  rcases s with ⟨marks, _ | ⟨⟨id, _ | ⟨target, others⟩⟩, rest⟩⟩
  · rfl
  · cases h
  · unfold step at h
    simp only at h
    split at h <;> cases h

theorem top_of_cycle (h : s.step o = .cycle) :
    ∃ id target others rest, s.stack = (id, target :: others) :: rest ∧
      s.mark? target = some .onStack := by
  rcases s with ⟨marks, _ | ⟨⟨id, _ | ⟨target, others⟩⟩, rest⟩⟩
  · cases h
  · cases h
  · refine ⟨id, target, others, rest, rfl, ?_⟩
    unfold step at h
    simp only at h
    split at h
    next ho => exact ho
    next => cases h
    next => cases h

/-! ## What holds at every step -/

def IsDone (s : Search) (id : String) : Prop := s.mark? id = some .done

/-- Ids that lead only to ids of the same kind and to themselves in no way. -/
def Exhausted (o : Outline) (p : String → Prop) : Prop :=
  ∀ id, p id → (∀ target, o.Linked id target → p target) ∧ ¬ Relation.TransGen o.Linked id id

/-- Every target of an id on the stack is still to be examined, or is settled. Seen from an id below
the top, the id right above it counts as settled as well. -/
def Examined (o : Outline) : (String → Prop) → List (String × List String) → Prop
  | _, [] => True
  | settled, (id, others) :: below =>
    (∀ target, o.Linked id target → target ∈ others ∨ settled target) ∧
      Examined o (fun target => settled target ∨ target = id) below

theorem Examined.mono {p q : String → Prop} {stack : List (String × List String)}
    (hpq : ∀ id, p id → q id) (h : Examined o p stack) : Examined o q stack := by
  induction stack generalizing p q with
  | nil => trivial
  | cons entry below ih =>
    obtain ⟨htop, hbelow⟩ := h
    refine ⟨fun target ht => (htop target ht).imp_right (hpq target), ih ?_ hbelow⟩
    exact fun target => Or.imp_left (hpq target)

/-- The stack is a path that leads up to its top, and what is off the stack is exhausted. -/
structure Sound (o : Outline) (s : Search) : Prop where
  nodup : (s.stack.map (·.1)).Nodup
  onStack : ∀ id, s.mark? id = some .onStack ↔ id ∈ s.stack.map (·.1)
  path : s.stack.IsChain fun upper lower => o.Linked lower.1 upper.1
  pending : ∀ entry ∈ s.stack, ∀ target ∈ entry.2, o.Linked entry.1 target
  examined : Examined o s.IsDone s.stack
  exhausted : Exhausted o s.IsDone

theorem sound_empty (o : Outline) : Sound o ⟨[], []⟩ where
  nodup := .nil
  onStack := by simp [mark?]
  path := .nil
  pending := by simp
  examined := trivial
  exhausted := by intro id h; cases h

/-- An id that leads only to exhausted ids is on no ring, unless it is exhausted itself. -/
theorem Exhausted.insert {p : String → Prop} {id : String} (h : Exhausted o p) (hid : ¬ p id)
    (htargets : ∀ target, o.Linked id target → p target) :
    Exhausted o fun x => x = id ∨ p x := by
  have hclosed {a b : String} (ha : p a) (hab : Relation.ReflTransGen o.Linked a b) : p b := by
    induction hab with
    | refl => exact ha
    | tail _ hbc ih => exact (h _ ih).1 _ hbc
  rintro x (rfl | hx)
  · refine ⟨fun target ht => .inr (htargets target ht), fun hring => hid ?_⟩
    obtain ⟨target, hfirst, hback⟩ := Relation.TransGen.head'_iff.mp hring
    exact hclosed (htargets target hfirst) hback
  · exact ⟨fun target ht => .inr ((h x hx).1 target ht), (h x hx).2⟩

theorem isDone_leave (marks : List (String × Mark)) (stack rest : List (String × List String))
    (id x : String) :
    IsDone ⟨(id, .done) :: marks, rest⟩ x ↔ x = id ∨ IsDone ⟨marks, stack⟩ x := by
  unfold IsDone
  rw [mark?_cons]
  by_cases h : x = id
  · simp [h]
  · simp [h, mark?]

/-- An id that is met for the first time was not done before, and is not done now. -/
theorem isDone_enter {marks : List (String × Mark)} {id : String} (h : marks.lookup id = none)
    (stack rest : List (String × List String)) (x : String) :
    IsDone ⟨(id, .onStack) :: marks, rest⟩ x ↔ IsDone ⟨marks, stack⟩ x := by
  unfold IsDone
  rw [mark?_cons]
  by_cases hx : x = id
  · simp [hx, mark?, h]
  · simp [hx, mark?]

theorem Sound.leave {marks id rest} (h : Sound o ⟨marks, (id, []) :: rest⟩) :
    Sound o ⟨(id, .done) :: marks, rest⟩ := by
  obtain ⟨hnodup, honStack, hpath, hpending, ⟨htop, hbelow⟩, hexhausted⟩ := h
  simp only [List.map_cons, List.nodup_cons] at hnodup
  have hdone := isDone_leave marks ((id, []) :: rest) rest id
  have hid : ¬ IsDone ⟨marks, (id, []) :: rest⟩ id := by
    intro hd
    have ho := (honStack id).mpr List.mem_cons_self
    rw [IsDone, ho] at hd
    cases hd
  refine ⟨hnodup.2, ?_, hpath.tail, fun e he => hpending e (List.mem_cons_of_mem _ he), ?_, ?_⟩
  · intro x
    rw [mark?_cons]
    by_cases hx : x = id
    · simpa [hx] using hnodup.1
    · rw [if_neg hx]
      simpa [hx, mark?] using honStack x
  · refine hbelow.mono ?_
    rintro target (hd | rfl)
    · exact (hdone target).mpr (.inr hd)
    · exact (hdone target).mpr (.inl rfl)
  · have hins := hexhausted.insert hid fun target ht => (htop target ht).resolve_left List.not_mem_nil
    intro x hx
    obtain ⟨hclosed, hring⟩ := hins x ((hdone x).mp hx)
    exact ⟨fun target ht => (hdone target).mpr (hclosed target ht), hring⟩

theorem Sound.skip {marks id target others rest}
    (h : Sound o ⟨marks, (id, target :: others) :: rest⟩)
    (hd : marks.lookup target = some .done) : Sound o ⟨marks, (id, others) :: rest⟩ := by
  obtain ⟨hnodup, honStack, hpath, hpending, ⟨htop, hbelow⟩, hexhausted⟩ := h
  refine ⟨hnodup, honStack, ?_, ?_, ⟨?_, hbelow⟩, hexhausted⟩
  · cases hpath with
    | singleton => exact .singleton _
    | cons_cons hlink hrest => exact .cons_cons hlink hrest
  · intro e he t ht
    rcases List.mem_cons.mp he with rfl | he
    · exact hpending _ List.mem_cons_self t (List.mem_cons_of_mem target ht)
    · exact hpending e (List.mem_cons_of_mem _ he) t ht
  · intro t ht
    rcases htop t ht with ht | ht
    · rcases List.mem_cons.mp ht with rfl | ht
      · exact .inr hd
      · exact .inl ht
    · exact .inr ht

/-- An id that is met for the first time goes on top. The stack below it may have one target less to
examine than before, which is the id itself. -/
theorem Sound.push {id : String} {below : List (String × List String)} (h : Sound o s)
    (hnew : s.mark? id = none) (hids : below.map (·.1) = s.stack.map (·.1))
    (hpath : ((id, o.targets id) :: below).IsChain fun upper lower => o.Linked lower.1 upper.1)
    (hpending : ∀ entry ∈ below, ∀ target ∈ entry.2, o.Linked entry.1 target)
    (hexamined : Examined o (fun target => s.IsDone target ∨ target = id) below) :
    Sound o (push o id ⟨s.marks, below⟩) := by
  have hdone := isDone_enter hnew s.stack ((id, o.targets id) :: below)
  have hoff : id ∉ below.map (·.1) := by
    rw [hids, ← h.onStack, hnew]
    simp
  refine ⟨List.nodup_cons.mpr ⟨hoff, hids ▸ h.nodup⟩, ?_, hpath, ?_, ⟨?_, ?_⟩, ?_⟩
  · intro x
    unfold Search.push
    rw [mark?_cons]
    by_cases hx : x = id
    · simp [hx]
    · have hold := h.onStack x
      rw [← hids] at hold
      simpa [hx, mark?] using hold
  · exact List.forall_mem_cons.mpr ⟨fun target ht => Outline.mem_targets.mp ht, hpending⟩
  · exact fun target ht => .inl (Outline.mem_targets.mpr ht)
  · exact hexamined.mono fun target => Or.imp_left (hdone target).mpr
  · intro x hx
    obtain ⟨hclosed, hring⟩ := h.exhausted x ((hdone x).mp hx)
    exact ⟨fun target ht => (hdone target).mpr (hclosed target ht), hring⟩

theorem Sound.enter {marks id target others rest}
    (h : Sound o ⟨marks, (id, target :: others) :: rest⟩) (hnew : marks.lookup target = none) :
    Sound o (Search.push o target ⟨marks, (id, others) :: rest⟩) := by
  have hlink : o.Linked id target := h.pending _ List.mem_cons_self target List.mem_cons_self
  refine h.push hnew rfl ?_ ?_ ⟨?_, ?_⟩
  · cases h.path with
    | singleton => exact .cons_cons hlink (.singleton _)
    | cons_cons hbelow hrest => exact .cons_cons hlink (.cons_cons hbelow hrest)
  · intro e he t ht
    rcases List.mem_cons.mp he with rfl | he
    · exact h.pending _ List.mem_cons_self t (List.mem_cons_of_mem target ht)
    · exact h.pending e (List.mem_cons_of_mem _ he) t ht
  · intro t ht
    rcases h.examined.1 t ht with ht | ht
    · rcases List.mem_cons.mp ht with rfl | ht
      · exact .inr (.inr rfl)
      · exact .inl ht
    · exact .inr (.inl ht)
  · exact h.examined.2.mono fun t => Or.imp_left .inl

theorem Sound.moves (h : Sound o s) (hm : Moves o s t) : Sound o t := by
  cases hm with
  | leave marks id rest => exact h.leave
  | skip marks id target others rest hd => exact h.skip hd
  | enter marks id target others rest hnew => exact h.enter hnew

/-- A target that is still on the stack leads back to the top. -/
theorem Sound.isCyclic (h : Sound o s) (hc : s.step o = .cycle) : o.IsCyclic := by
  have hreach (top : String × List String) (below : List (String × List String))
      (hpath : (top :: below).IsChain fun upper lower => o.Linked lower.1 upper.1) :
      ∀ x ∈ (top :: below).map (·.1), Relation.ReflTransGen o.Linked x top.1 := by
    induction below generalizing top with
    | nil =>
      intro x hx
      rw [List.map_singleton, List.mem_singleton] at hx
      exact hx ▸ .refl
    | cons lower below ih =>
      obtain ⟨hlink, hrest⟩ := List.isChain_cons_cons.mp hpath
      intro x hx
      rcases List.mem_cons.mp hx with rfl | hx
      · exact .refl
      · exact (ih lower hrest x hx).tail hlink
  obtain ⟨id, target, others, rest, hstack, hmark⟩ := top_of_cycle hc
  have htop : (id, target :: others) ∈ s.stack := hstack ▸ List.mem_cons_self
  have hlink : o.Linked id target := h.pending _ htop target List.mem_cons_self
  have hmem := (h.onStack target).mp hmark
  have hpath := h.path
  rw [hstack] at hmem hpath
  exact Outline.isCyclic_iff.mpr ⟨id, .head' hlink (hreach _ _ hpath target hmem)⟩

/-! ## The search ends -/

/-- Where a search ends if nothing bounds its steps; `none` when a cycle is found. -/
inductive Ends (o : Outline) : Search → Option Search → Prop where
  | finished {s : Search} (h : s.step o = .finished) : Ends o s (some s)
  | cycle {s : Search} (h : s.step o = .cycle) : Ends o s none
  | next {s t : Search} {r : Option Search} (h : s.step o = .next t) (ht : Ends o t r) : Ends o s r

def unmet (o : Outline) (s : Search) : Nat := o.links.countP fun l => (s.mark? l.source).isNone

/-- A bound on the steps that are left. A link is worth two, as it is examined and may lead to an id
that is left later on. -/
def cost (o : Outline) (s : Search) : Nat :=
  2 * s.unmet o + 2 * (s.stack.flatMap (·.2)).length + s.stack.length

theorem length_targets (o : Outline) (id : String) :
    (o.targets id).length = o.links.countP (·.source == id) := by
  rw [Outline.targets, List.length_map, List.countP_eq_length_filter]

/-- Meeting an id uses up the links that leave it. -/
theorem unmet_enter {marks : List (String × Mark)} {id : String} (h : marks.lookup id = none)
    (stack rest : List (String × List String)) (m : Mark) :
    unmet o ⟨marks, stack⟩ = unmet o ⟨(id, m) :: marks, rest⟩ + (o.targets id).length := by
  have hold : (mark? ⟨marks, stack⟩ id).isNone = true := by simp [mark?, h]
  rw [length_targets]
  simp only [unmet, mark?_cons]
  induction o.links with
  | nil => rfl
  | cons l links ih =>
    simp only [List.countP_cons]
    by_cases hl : l.source = id
    · simp only [hold, hl, if_true, Option.isNone_some, beq_self_eq_true, Bool.false_eq_true, if_false]
      omega
    · simp only [hl, if_false, beq_eq_false_iff_ne.mpr hl, Bool.false_eq_true]
      change _ + (if (marks.lookup l.source).isNone = true then 1 else 0) = _
      omega

theorem unmet_leave (marks : List (String × Mark)) (stack rest : List (String × List String))
    (id : String) : unmet o ⟨(id, .done) :: marks, rest⟩ ≤ unmet o ⟨marks, stack⟩ := by
  refine List.countP_mono_left fun l _ hl => ?_
  rw [mark?_cons] at hl
  by_cases hs : l.source = id
  · simp [hs] at hl
  · simpa [hs, mark?] using hl

theorem cost_moves (hm : Moves o s t) : cost o t < cost o s := by
  cases hm with
  | leave marks id rest =>
    have := unmet_leave (o := o) marks ((id, []) :: rest) rest id
    simp only [cost, List.flatMap_cons, List.length_append, List.length_cons, List.length_nil]
    omega
  | skip marks id target others rest hd =>
    simp only [cost, unmet, mark?, List.flatMap_cons, List.length_append, List.length_cons]
    omega
  | enter marks id target others rest hnew =>
    have := unmet_enter (o := o) hnew ((id, target :: others) :: rest)
      ((target, o.targets target) :: (id, others) :: rest) .onStack
    simp only [cost, List.flatMap_cons, List.length_append, List.length_cons]
    omega

/-- Within its cost a search ends, and more steps would not change the answer. -/
theorem ends_run {fuel : Nat} (h : cost o s ≤ fuel) : Ends o s (run o fuel s) := by
  induction fuel generalizing s with
  | zero =>
    have hstack : s.stack = [] := by
      unfold cost at h
      cases hs : s.stack with
      | nil => rfl
      | cons entry below => simp [hs] at h
    refine .finished ?_
    unfold step
    rw [hstack]
  | succ fuel ih =>
    unfold run
    cases hstep : s.step o with
    | next t =>
      have := cost_moves (moves_of_step hstep)
      exact .next hstep (ih (by omega))
    | cycle => exact .cycle hstep
    | finished => exact .finished hstep

theorem met_cons {marks : List (String × Mark)} {stack : List (String × List String)}
    {id x : String} {m : Mark} (h : x = id ∨ (marks.lookup x).isSome = true) :
    (mark? ⟨(id, m) :: marks, stack⟩ x).isSome = true := by
  rw [mark?_cons]
  by_cases hx : x = id
  · simp [hx]
  · rw [if_neg hx]
    exact h.resolve_left hx

/-- An id that has been met stays met. -/
theorem Moves.met {id : String} (hm : Moves o s t) (h : (s.mark? id).isSome = true) :
    (t.mark? id).isSome = true := by
  cases hm with
  | skip marks top target others rest hd => exact h
  | leave marks top rest => exact met_cons (.inr h)
  | enter marks top target others rest hnew => exact met_cons (.inr h)

structure Finished (o : Outline) (s t : Search) : Prop where
  sound : Sound o t
  empty : t.stack = []
  met : ∀ id, (s.mark? id).isSome = true → (t.mark? id).isSome = true

theorem Ends.isCyclic {r : Option Search} (h : Ends o s r) (hs : Sound o s) (hr : r = none) :
    o.IsCyclic := by
  induction h with
  | finished _ => cases hr
  | cycle hc => exact hs.isCyclic hc
  | next hstep _ ih => exact ih (hs.moves (moves_of_step hstep)) hr

theorem Ends.finished_of_some {r : Option Search} (h : Ends o s r) (hs : Sound o s)
    (hr : r = some t) : Finished o s t := by
  induction h with
  | finished hf =>
    cases hr
    exact ⟨hs, stack_of_finished hf, fun _ hid => hid⟩
  | cycle _ => cases hr
  | next hstep _ ih =>
    have hm := moves_of_step hstep
    obtain ⟨hsound, hempty, hmet⟩ := ih (hs.moves hm) hr
    exact ⟨hsound, hempty, fun id hid => hmet id (hm.met hid)⟩

theorem Sound.push_root (hs : Sound o s) (hempty : s.stack = []) {root : String}
    (hnew : s.mark? root = none) : Sound o (Search.push o root s) := by
  rcases s with ⟨marks, stack⟩
  cases hempty
  exact hs.push hnew rfl (.singleton _) (by simp) trivial

theorem cost_push_root (hempty : s.stack = []) {root : String} (hnew : s.mark? root = none) :
    cost o (push o root s) ≤ o.searchBound := by
  rcases s with ⟨marks, stack⟩
  cases hempty
  have hunmet : unmet o ⟨marks, []⟩ = unmet o ⟨(root, .onStack) :: marks, [(root, o.targets root)]⟩ +
      (o.targets root).length := unmet_enter hnew _ _ _
  have hlinks : unmet o ⟨marks, []⟩ ≤ o.links.length := List.countP_le_length
  simp only [cost, push, Outline.searchBound, List.flatMap_singleton, List.length_singleton]
  omega

end Search

namespace Outline

open Search

/-- Where the searches from the roots end, one after the other, if nothing bounds them. -/
inductive Explores (o : Outline) : List String → Search → Option Search → Prop where
  | nil (s) : Explores o [] s (some s)
  | met {root rest s r} (h : (s.mark? root).isSome = true) (hr : Explores o rest s r) :
      Explores o (root :: rest) s r
  | cycle {root rest s} (h : s.mark? root = none) (he : Ends o (push o root s) none) :
      Explores o (root :: rest) s none
  | search {root rest s t r} (h : s.mark? root = none) (he : Ends o (push o root s) (some t))
      (hr : Explores o rest t r) : Explores o (root :: rest) s r

variable {o : Outline} {s t : Search}

theorem explores_searchFrom (roots : List String) (hs : Sound o s) (hempty : s.stack = []) :
    o.Explores roots s (o.searchFrom roots s) := by
  induction roots generalizing s with
  | nil => exact .nil s
  | cons root rest ih =>
    unfold searchFrom
    cases hroot : s.mark? root with
    | some m => exact .met (by simp [hroot]) (ih hs hempty)
    | none =>
      have he := ends_run (cost_push_root (o := o) hempty hroot)
      cases hrun : Search.run o o.searchBound (push o root s) with
      | none => exact .cycle hroot (hrun ▸ he)
      | some t =>
        rw [hrun] at he
        have ht := he.finished_of_some (hs.push_root hempty hroot) rfl
        exact .search hroot he (ih ht.sound ht.empty)

theorem Explores.isCyclic {roots : List String} {r : Option Search} (h : o.Explores roots s r)
    (hs : Sound o s) (hempty : s.stack = []) (hr : r = none) : o.IsCyclic := by
  induction h with
  | nil => cases hr
  | met _ _ ih => exact ih hs hempty hr
  | cycle hroot he => exact he.isCyclic (hs.push_root hempty hroot) rfl
  | search hroot he _ ih =>
    have ht := he.finished_of_some (hs.push_root hempty hroot) rfl
    exact ih ht.sound ht.empty hr

theorem Explores.finished {roots : List String} {r : Option Search} (h : o.Explores roots s r)
    (hs : Sound o s) (hempty : s.stack = []) (hr : r = some t) :
    Finished o s t ∧ ∀ root ∈ roots, (t.mark? root).isSome = true := by
  induction h with
  | nil s =>
    cases hr
    exact ⟨⟨hs, hempty, fun _ hid => hid⟩, by simp⟩
  | met hroot _ ih =>
    obtain ⟨hfinished, hroots⟩ := ih hs hempty hr
    exact ⟨hfinished, List.forall_mem_cons.mpr ⟨hfinished.met _ hroot, hroots⟩⟩
  | cycle => cases hr
  | @search root rest s u r hroot he _ ih =>
    have hu := he.finished_of_some (hs.push_root hempty hroot) rfl
    obtain ⟨⟨hsound, hstack, hmet⟩, hroots⟩ := ih hu.sound hu.empty hr
    have hmet' (id : String) (hid : id = root ∨ (s.mark? id).isSome = true) :
        (t.mark? id).isSome = true := hmet id (hu.met id (met_cons hid))
    refine ⟨⟨hsound, hstack, fun id hid => hmet' id (.inr hid)⟩, ?_⟩
    exact List.forall_mem_cons.mpr ⟨hmet' root (.inl rfl), hroots⟩

/-- With every root met and nothing on the stack, all that is met is exhausted. -/
theorem not_isCyclic_of_sound (hs : Sound o s) (hempty : s.stack = [])
    (hroots : ∀ root ∈ o.roots, (s.mark? root).isSome = true) : ¬ o.IsCyclic := by
  intro hc
  obtain ⟨id, hring⟩ := isCyclic_iff.mp hc
  obtain ⟨target, hfirst, _⟩ := Relation.TransGen.head'_iff.mp hring
  obtain ⟨m, hm⟩ := Option.isSome_iff_exists.mp (hroots id (source_mem_roots hfirst))
  cases m with
  | onStack =>
    have hmem := (hs.onStack id).mp hm
    rw [hempty] at hmem
    cases hmem
  | done => exact (hs.exhausted id hm).2 hring

theorem hasCycle_iff_isCyclic (o : Outline) : o.hasCycle = true ↔ o.IsCyclic := by
  have h := explores_searchFrom o.roots (sound_empty o) rfl
  unfold hasCycle
  constructor
  · intro hnone
    exact h.isCyclic (sound_empty o) rfl (Option.isNone_iff_eq_none.mp hnone)
  · intro hc
    cases hr : o.searchFrom o.roots ⟨[], []⟩ with
    | none => rfl
    | some t =>
      obtain ⟨ht, hroots⟩ := h.finished (sound_empty o) rfl hr
      exact absurd hc (not_isCyclic_of_sound ht.sound ht.empty hroots)

/-- The check for cycles terminates and is exact, whatever the nodes and links are: links may stand
twice, lead to their own source or join ids that no node has. -/
theorem hasCycle_exact (nodes : List OutlineNode) (links : List Link) :
    (∃ r, Explores ⟨nodes, links⟩ (roots ⟨nodes, links⟩) ⟨[], []⟩ r ∧
      hasCycle ⟨nodes, links⟩ = r.isNone) ∧
    (hasCycle ⟨nodes, links⟩ = true ↔ ∃ ring, IsRing ⟨nodes, links⟩ ring) :=
  ⟨⟨_, explores_searchFrom _ (sound_empty _) rfl, rfl⟩, hasCycle_iff_isCyclic ⟨nodes, links⟩⟩

/-- Two ways to the same id are no cycle. -/
example : hasCycle ⟨[], [⟨"a", "b"⟩, ⟨"a", "c"⟩, ⟨"b", "d"⟩, ⟨"c", "d"⟩]⟩ = false := by decide

example : hasCycle ⟨[], [⟨"a", "b"⟩, ⟨"b", "b"⟩]⟩ = true := by decide

end Outline

end ReportFlow
