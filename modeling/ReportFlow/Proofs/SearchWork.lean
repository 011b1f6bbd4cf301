import Mathlib.Data.List.Dedup
import Mathlib.Data.List.Perm.Subperm
import ReportFlow.Proofs.CycleSearch

/-!
The work that a search for a cycle does. What it pushes, examines and pops is logged over the whole
call. No id is pushed twice and no target examined twice, whatever the nodes and links are, so a call
ends within one pop for every id and one child step for every link.
-/

namespace ReportFlow

/-- What a search does with its stack. A target is known by the id that it is a target of and by its
place among the targets of that id. -/
inductive Act where
  | push (id : String)
  | examine (id : String) (place : Nat)
  | pop (id : String)
  deriving DecidableEq, Repr

namespace Act

@[simp] def pushed? : Act → Option String
  | push id => some id
  | _ => none

@[simp] def examined? : Act → Option (String × Nat)
  | examine id place => some (id, place)
  | _ => none

@[simp] def popped? : Act → Option String
  | pop id => some id
  | _ => none

def pushed (log : List Act) : List String := log.filterMap pushed?

def examined (log : List Act) : List (String × Nat) := log.filterMap examined?

def popped (log : List Act) : List String := log.filterMap popped?

@[simp] theorem pushed_snoc (log : List Act) (a : Act) :
    pushed (log ++ [a]) = pushed log ++ a.pushed?.toList := by
  cases a <;> simp [pushed]

@[simp] theorem examined_snoc (log : List Act) (a : Act) :
    examined (log ++ [a]) = examined log ++ a.examined?.toList := by
  cases a <;> simp [examined]

@[simp] theorem popped_snoc (log : List Act) (a : Act) :
    popped (log ++ [a]) = popped log ++ a.popped?.toList := by
  cases a <;> simp [popped]

theorem mem_examined_examine {log : List Act} {id x : String} {place y : Nat} :
    (x, y) ∈ examined (log ++ [examine id place]) ↔ (x, y) ∈ examined log ∨ x = id ∧ y = place := by
  simp

/-- A stack after an act. Each id stands there with the place of the target to examine next. -/
def applied (stack : List (String × Nat)) : Act → List (String × Nat)
  | push id => (id, 0) :: stack
  | examine id place => (id, place + 1) :: stack.tail
  | pop _ => stack.tail

end Act

open Act (pushed examined popped)

def Outline.ids (o : Outline) : List String := o.roots ++ o.links.map (·.target)

theorem Outline.target_mem_ids {o : Outline} {id target : String} (h : o.Linked id target) :
    target ∈ o.ids :=
  List.mem_append_right _ (List.mem_map.mpr ⟨_, h, rfl⟩)

namespace Search

variable {o : Outline} {s t : Search} {log : List Act}

def ids (s : Search) : List String := s.stack.map (·.1)

def cursors (o : Outline) (s : Search) : List (String × Nat) :=
  s.stack.map fun e => (e.1, (o.targets e.1).length - e.2.length)

def acts (o : Outline) (s : Search) : List Act :=
  match s.stack with
  | [] => []
  | (id, []) :: _ => [.pop id]
  | (id, target :: others) :: _ =>
    .examine id ((o.targets id).length - (target :: others).length) ::
      if (s.mark? target).isNone then [.push target] else []

theorem acts_new {marks : List (String × Mark)} {id target others rest}
    (h : marks.lookup target = none) :
    acts o ⟨marks, (id, target :: others) :: rest⟩ =
      [.examine id ((o.targets id).length - (target :: others).length), .push target] := by
  simp [acts, mark?, h]

theorem acts_met {marks : List (String × Mark)} {id target others rest m}
    (h : marks.lookup target = some m) :
    acts o ⟨marks, (id, target :: others) :: rest⟩ =
      [.examine id ((o.targets id).length - (target :: others).length)] := by
  simp [acts, mark?, h]

/-- A turn of the loop is one pop or one child step. -/
theorem length_acts (h : s.stack ≠ []) :
    (popped (s.acts o)).length + (examined (s.acts o)).length = 1 := by
  rcases s with ⟨marks, _ | ⟨⟨id, _ | ⟨target, others⟩⟩, rest⟩⟩
  · exact absurd rfl h
  · rfl
  · cases hmark : marks.lookup target with
    | none => rw [acts_new hmark]; rfl
    | some m => rw [acts_met hmark]; rfl

/-! ## What every act preserves -/

structure Marked (o : Outline) (log : List Act) (s : Search) : Prop where
  met : ∀ id, id ∈ pushed log ↔ (s.mark? id).isSome = true
  done : ∀ id, id ∈ popped log ↔ s.IsDone id
  pushed_once : (pushed log).Nodup
  popped_once : (popped log).Nodup
  known : ∀ id ∈ pushed log, id ∈ o.ids

/-- A log and the search that it has led to. The targets that are left to an id come after all that
were examined for it, and a link is in the log, on the stack or not yet met. -/
structure Accounted (o : Outline) (log : List Act) (s : Search) : Prop extends Marked o log s where
  examined_once : (examined log).Nodup
  places : ∀ id place, (id, place) ∈ examined log →
    id ∈ pushed log ∧ place < (o.targets id).length
  ahead : ∀ e ∈ s.stack, e.2 <:+ o.targets e.1 ∧
    ∀ place, (e.1, place) ∈ examined log → place + e.2.length < (o.targets e.1).length
  spent : (examined log).length + (s.stack.flatMap (·.2)).length + s.unmet o ≤ o.links.length
  replayed : s.cursors o = log.foldl Act.applied []

namespace Marked

theorem push {id : String} (h : Marked o log s) (hnew : s.mark? id = none) (hid : id ∈ o.ids) :
    Marked o (log ++ [.push id]) (s.push o id) := by
  have hnever : id ∉ pushed log := by
    rw [h.met, hnew]
    simp
  refine ⟨fun x => ?_, fun x => ?_, ?_, ?_, ?_⟩
  · simp only [Act.pushed_snoc, Act.pushed?, Option.toList_some, List.mem_append,
      List.mem_singleton, h.met, Search.push, mark?_cons]
    by_cases hx : x = id
    · simp [hx]
    · simp [hx, mark?]
  · simp only [Act.popped_snoc, Act.popped?, Option.toList_none, List.append_nil, h.done]
    exact (isDone_enter hnew s.stack _ x).symm
  · rw [Act.pushed_snoc, Act.pushed?, Option.toList_some, ← List.concat_eq_append]
    exact .concat hnever h.pushed_once
  · simpa using h.popped_once
  · rw [Act.pushed_snoc]
    exact List.forall_mem_append.mpr ⟨h.known, List.forall_mem_singleton.mpr hid⟩

theorem examine {stack : List (String × List String)} {marks rest} (h : Marked o log ⟨marks, stack⟩)
    (id : String) (place : Nat) : Marked o (log ++ [.examine id place]) ⟨marks, rest⟩ := by
  have hpushed : pushed (log ++ [.examine id place]) = pushed log := by simp
  have hpopped : popped (log ++ [.examine id place]) = popped log := by simp
  obtain ⟨hmet, hdone, hpushed_once, hpopped_once, hknown⟩ := h
  rw [← hpushed] at hmet hpushed_once hknown
  rw [← hpopped] at hdone hpopped_once
  exact ⟨hmet, hdone, hpushed_once, hpopped_once, hknown⟩

theorem pop {marks id rest} (h : Marked o log ⟨marks, (id, []) :: rest⟩)
    (hs : Sound o ⟨marks, (id, []) :: rest⟩) :
    Marked o (log ++ [.pop id]) ⟨(id, .done) :: marks, rest⟩ := by
  have hmark : mark? ⟨marks, (id, []) :: rest⟩ id = some .onStack :=
    (hs.onStack id).mpr List.mem_cons_self
  have hmet : id ∈ pushed log := by
    rw [h.met, hmark]
    rfl
  have hnever : id ∉ popped log := by
    rw [h.done, IsDone, hmark]
    simp
  refine ⟨fun x => ?_, fun x => ?_, ?_, ?_, ?_⟩
  · simp only [Act.pushed_snoc, Act.pushed?, Option.toList_none, List.append_nil, mark?_cons]
    by_cases hx : x = id
    · simp [hx, hmet]
    · rw [if_neg hx, h.met]
      rfl
  · rw [isDone_leave marks ((id, []) :: rest) rest, ← h.done]
    simp [or_comm]
  · simpa using h.pushed_once
  · rw [Act.popped_snoc, Act.popped?, Option.toList_some, ← List.concat_eq_append]
    exact .concat hnever h.popped_once
  · simpa using h.known

end Marked

namespace Accounted

theorem empty (o : Outline) : Accounted o [] ⟨[], []⟩ where
  met := by simp [pushed, mark?]
  done := by simp [popped, IsDone, mark?]
  pushed_once := .nil
  popped_once := .nil
  examined_once := .nil
  known := by simp [pushed]
  places := by simp [examined]
  ahead := by simp
  spent := by simpa [examined, unmet] using List.countP_le_length
  replayed := rfl

theorem push {id : String} (h : Accounted o log s) (hnew : s.mark? id = none) (hid : id ∈ o.ids) :
    Accounted o (log ++ [.push id]) (s.push o id) := by
  have hnever : id ∉ pushed log := by
    rw [h.met, hnew]
    simp
  have hexamined : examined (log ++ [.push id]) = examined log := by simp
  have hunmet : s.unmet o = (s.push o id).unmet o + (o.targets id).length :=
    unmet_enter hnew s.stack ((id, o.targets id) :: s.stack) .onStack
  refine ⟨h.toMarked.push hnew hid, ?_, ?_, ?_, ?_, ?_⟩
  · rw [hexamined]
    exact h.examined_once
  · intro x place hx
    rw [hexamined] at hx
    obtain ⟨hpushed, hplace⟩ := h.places x place hx
    exact ⟨by simp [hpushed], hplace⟩
  · rw [hexamined]
    refine List.forall_mem_cons.mpr ⟨⟨List.suffix_rfl, fun place hx => ?_⟩, h.ahead⟩
    exact absurd (h.places id place hx).1 hnever
  · have hspent := h.spent
    rw [hexamined]
    simp only [Search.push, List.flatMap_cons, List.length_append] at hunmet ⊢
    omega
  · rw [List.foldl_concat, ← h.replayed]
    simp [Act.applied, cursors, Search.push]

section Examine

variable {marks : List (String × Mark)} {id target : String} {others : List String}
  {rest : List (String × List String)}

/-- The targets that are left to the top of the stack end the list of all its targets. -/
theorem length_left (h : Accounted o log ⟨marks, (id, target :: others) :: rest⟩) :
    others.length + 1 ≤ (o.targets id).length :=
  (h.ahead _ List.mem_cons_self).1.length_le

/-- Nothing that was examined for the top of the stack stands at or behind the next target. -/
theorem next_unexamined (h : Accounted o log ⟨marks, (id, target :: others) :: rest⟩) :
    (id, (o.targets id).length - (others.length + 1)) ∉ examined log := by
  intro hmem
  have hplace : (o.targets id).length - (others.length + 1) + (others.length + 1) <
      (o.targets id).length := (h.ahead _ List.mem_cons_self).2 _ hmem
  omega

/-- With the next target examined, the others are still ahead, and so is all that is left to the
rest of the stack. -/
theorem ahead_of_examine (h : Accounted o log ⟨marks, (id, target :: others) :: rest⟩)
    (hs : Sound o ⟨marks, (id, target :: others) :: rest⟩) :
    ∀ e ∈ (id, others) :: rest, e.2 <:+ o.targets e.1 ∧ ∀ place,
      (e.1, place) ∈ examined (log ++ [.examine id ((o.targets id).length - (others.length + 1))]) →
        place + e.2.length < (o.targets e.1).length := by
  obtain ⟨hsuffix, hbefore⟩ := h.ahead _ List.mem_cons_self
  have hlength := h.length_left
  have hoff : id ∉ rest.map (·.1) := (List.nodup_cons.mp hs.nodup).1
  simp only [Act.mem_examined_examine]
  refine List.forall_mem_cons.mpr ⟨⟨(List.suffix_cons target others).trans hsuffix, ?_⟩, ?_⟩
  · show ∀ place, _ → place + others.length < (o.targets id).length
    rintro place (hx | ⟨-, rfl⟩)
    · have hplace : place + (others.length + 1) < (o.targets id).length := hbefore place hx
      omega
    · omega
  · intro e he
    obtain ⟨hbelow, hexamined⟩ := h.ahead e (List.mem_cons_of_mem _ he)
    refine ⟨hbelow, ?_⟩
    rintro place (hx | ⟨hid, -⟩)
    · exact hexamined place hx
    · exact absurd (List.mem_map.mpr ⟨e, he, hid⟩) hoff

/-- The next target is examined. That it is entered, if it is new, is another act. -/
theorem examine (h : Accounted o log ⟨marks, (id, target :: others) :: rest⟩)
    (hs : Sound o ⟨marks, (id, target :: others) :: rest⟩) :
    Accounted o (log ++ [.examine id ((o.targets id).length - (target :: others).length)])
      ⟨marks, (id, others) :: rest⟩ := by
  have hlength := h.length_left
  have hpushed : id ∈ pushed log := by
    rw [h.met, (hs.onStack id).mpr List.mem_cons_self]
    rfl
  rw [List.length_cons]
  refine ⟨h.toMarked.examine id _, ?_, ?_, h.ahead_of_examine hs, ?_, ?_⟩
  · rw [Act.examined_snoc, Act.examined?, Option.toList_some, ← List.concat_eq_append]
    exact .concat h.next_unexamined h.examined_once
  · intro x place hx
    rcases Act.mem_examined_examine.mp hx with hx | ⟨rfl, rfl⟩
    · simpa using h.places x place hx
    · exact ⟨by simpa using hpushed, by omega⟩
  · have hspent := h.spent
    simp only [Act.examined_snoc, Act.examined?, Option.toList_some, List.length_append,
      List.flatMap_cons, List.length_cons, List.length_nil] at hspent ⊢
    change _ + _ + unmet o ⟨marks, (id, target :: others) :: rest⟩ ≤ _
    omega
  · rw [List.foldl_concat, ← h.replayed]
    have hnext : (o.targets id).length - others.length =
        (o.targets id).length - (others.length + 1) + 1 := by omega
    simp [Act.applied, cursors, hnext]

end Examine

theorem pop {marks id rest} (h : Accounted o log ⟨marks, (id, []) :: rest⟩)
    (hs : Sound o ⟨marks, (id, []) :: rest⟩) :
    Accounted o (log ++ [.pop id]) ⟨(id, .done) :: marks, rest⟩ := by
  have hpushed : pushed (log ++ [.pop id]) = pushed log := by simp
  have hexamined : examined (log ++ [.pop id]) = examined log := by simp
  refine ⟨h.toMarked.pop hs, ?_, ?_, ?_, ?_, ?_⟩
  · rw [hexamined]
    exact h.examined_once
  · rw [hexamined, hpushed]
    exact h.places
  · rw [hexamined]
    exact (List.forall_mem_cons.mp h.ahead).2
  · have hspent := h.spent
    have hunmet := unmet_leave (o := o) marks ((id, []) :: rest) rest id
    rw [hexamined]
    simp only [List.flatMap_cons, List.nil_append] at hspent ⊢
    omega
  · rw [List.foldl_concat, ← h.replayed]
    rfl

theorem moves (h : Accounted o log s) (hs : Sound o s) (hm : Moves o s t) :
    Accounted o (log ++ s.acts o) t := by
  cases hm with
  | leave marks id rest => exact h.pop hs
  | skip marks id target others rest hmark =>
    rw [acts_met hmark]
    exact h.examine hs
  | enter marks id target others rest hmark =>
    have hlink : o.Linked id target := hs.pending _ List.mem_cons_self target List.mem_cons_self
    rw [acts_new hmark, List.append_cons]
    exact (h.examine hs).push hmark (Outline.target_mem_ids hlink)

/-- The turn that meets a cycle is accounted for as well. The search stops in the midst of it. -/
theorem turn (h : Accounted o log s) (hs : Sound o s) : ∃ t, Accounted o (log ++ s.acts o) t := by
  cases hstep : s.step o with
  | next t => exact ⟨t, h.moves hs (moves_of_step hstep)⟩
  | cycle =>
    obtain ⟨id, target, others, rest, hstack, hmark⟩ := top_of_cycle hstep
    rcases s with ⟨marks, stack⟩
    cases hstack
    rw [acts_met hmark]
    exact ⟨_, h.examine hs⟩
  | finished =>
    rw [acts, stack_of_finished hstep, List.append_nil]
    exact ⟨s, h⟩

end Accounted

end Search

namespace Outline

open Search

/-! ## A whole call -/

/-- A call on its way: the roots that are left, what has been done so far and the search. The next root
is taken when the loop has ended. -/
inductive Underway (o : Outline) : List String → List Act → Search → Prop where
  | opening : Underway o o.roots [] ⟨[], []⟩
  | pass {root roots log s} (h : Underway o (root :: roots) log s) (hend : s.step o = .finished)
      (hmet : (s.mark? root).isSome = true) : Underway o roots log s
  | start {root roots log s} (h : Underway o (root :: roots) log s) (hend : s.step o = .finished)
      (hnew : s.mark? root = none) : Underway o roots (log ++ [.push root]) (s.push o root)
  | turn {roots log s t} (h : Underway o roots log s) (hstep : s.step o = .next t) :
      Underway o roots (log ++ s.acts o) t

/-- Where a call ends: a link back to the stack has been met, or no root is left. -/
inductive Over (o : Outline) : Bool → Prop where
  | cycle {roots log s} (h : Underway o roots log s) (hcycle : s.step o = .cycle) : Over o true
  | clear {log s} (h : Underway o [] log s) (hend : s.step o = .finished) : Over o false

structure Bounded (o : Outline) (log : List Act) : Prop where
  pushed_once : (pushed log).Nodup
  examined_once : (examined log).Nodup
  places : ∀ id place, (id, place) ∈ examined log → place < (o.targets id).length
  pops : (popped log).length ≤ o.ids.dedup.length
  child_steps : (examined log).length ≤ o.links.length

variable {o : Outline} {roots : List String} {log : List Act} {s t : Search}

namespace Underway

theorem roots_known (h : Underway o roots log s) : ∀ root ∈ roots, root ∈ o.ids := by
  induction h with
  | opening => exact fun root hroot => List.mem_append_left _ hroot
  | pass _ _ _ ih => exact fun root hroot => ih root (List.mem_cons_of_mem _ hroot)
  | start _ _ _ ih => exact fun root hroot => ih root (List.mem_cons_of_mem _ hroot)
  | turn _ _ ih => exact ih

theorem sound (h : Underway o roots log s) : Sound o s := by
  induction h with
  | opening => exact sound_empty o
  | pass _ _ _ ih => exact ih
  | start _ hend hnew ih => exact ih.push_root (stack_of_finished hend) hnew
  | turn _ hstep ih => exact ih.moves (moves_of_step hstep)

theorem accounted (h : Underway o roots log s) : Accounted o log s := by
  induction h with
  | opening => exact .empty o
  | pass _ _ _ ih => exact ih
  | start h _ hnew ih => exact ih.push hnew (h.roots_known _ List.mem_cons_self)
  | turn h hstep ih => exact ih.moves h.sound (moves_of_step hstep)

theorem over_of_cycle {r : Option Search} (h : Underway o roots log s) (he : Ends o s r)
    (hr : r = none) : Over o true := by
  induction he generalizing log with
  | finished _ => cases hr
  | cycle hcycle => exact .cycle h hcycle
  | next hstep _ ih => exact ih (h.turn hstep) hr

theorem exists_ended {r : Option Search} (h : Underway o roots log s) (he : Ends o s r)
    (hr : r = some t) : ∃ log', Underway o roots log' t ∧ t.step o = .finished := by
  induction he generalizing log with
  | finished hend =>
    cases hr
    exact ⟨log, h, hend⟩
  | cycle _ => cases hr
  | next hstep _ ih => exact ih (h.turn hstep) hr

theorem over_of_finished {r : Option Search} (h : Underway o roots log s) (hend : s.step o = .finished)
    (hr : o.Explores roots s r) : Over o r.isNone := by
  induction hr generalizing log with
  | nil s => exact .clear h hend
  | met hmet _ ih => exact ih (h.pass hend hmet) hend
  | cycle hnew he => exact over_of_cycle (h.start hend hnew) he rfl
  | search hnew he _ ih =>
    obtain ⟨log', hunderway, hfinished⟩ := exists_ended (h.start hend hnew) he rfl
    exact ih hunderway hfinished

end Underway

theorem bounded_of_accounted (h : Accounted o log s) : Bounded o log where
  pushed_once := h.pushed_once
  examined_once := h.examined_once
  places id place hx := (h.places id place hx).2
  pops := by
    have hknown : popped log ⊆ o.ids.dedup := by
      intro id hid
      have hmet : (s.mark? id).isSome = true := by
        rw [(h.done id).mp hid]
        rfl
      exact List.mem_dedup.mpr (h.known id ((h.met id).mpr hmet))
    exact (h.popped_once.subperm hknown).length_le
  child_steps := by
    have := h.spent
    omega

/-- The work of a check for cycles is bounded, whatever the nodes and links are. At every turn of the
loop the ids on the stack differ and are those marked so. A turn is one pop or one child step, and with
it no id has been pushed twice and no target examined twice. The check ends, with the answer it gives. -/
theorem search_bounded (nodes : List OutlineNode) (links : List Link) :
    (∀ roots log s, Underway ⟨nodes, links⟩ roots log s →
      s.ids.Nodup ∧ (∀ id, s.mark? id = some .onStack ↔ id ∈ s.ids) ∧
      s.cursors ⟨nodes, links⟩ = log.foldl Act.applied [] ∧
      (s.stack ≠ [] → (popped (s.acts ⟨nodes, links⟩)).length +
        (examined (s.acts ⟨nodes, links⟩)).length = 1) ∧
      Bounded ⟨nodes, links⟩ (log ++ s.acts ⟨nodes, links⟩)) ∧
    Over ⟨nodes, links⟩ (hasCycle ⟨nodes, links⟩) := by
  constructor
  · intro roots log s h
    obtain ⟨t, ht⟩ := h.accounted.turn h.sound
    exact ⟨h.sound.nodup, h.sound.onStack, h.accounted.replayed, length_acts, bounded_of_accounted ht⟩
  · exact Underway.opening.over_of_finished rfl (explores_searchFrom _ (sound_empty _) rfl)

/-- `b` is linked twice and `c` is linked from two ids, so two targets of `a` have been left by the
time they are examined. -/
def twiceLinked : Outline := ⟨[⟨"a", "entity"⟩], [⟨"a", "b"⟩, ⟨"a", "b"⟩, ⟨"a", "c"⟩, ⟨"b", "c"⟩]⟩

theorem search_bounded_twiceLinked :
    ∃ log s, Underway twiceLinked ["a", "a", "a", "b"] log s ∧ s.ids = ["a"] ∧ s.ids.Nodup ∧
      pushed (log ++ s.acts twiceLinked) = ["a", "b", "c"] ∧
      examined (log ++ s.acts twiceLinked) = [("a", 0), ("b", 0), ("a", 1), ("a", 2)] ∧
      Bounded twiceLinked (log ++ s.acts twiceLinked) := by
  have hstart := Underway.opening (o := twiceLinked) |>.start rfl rfl
  have hentered := (hstart.turn rfl).turn rfl
  have hleft := (hentered.turn rfl).turn rfl
  have hskipped := hleft.turn rfl
  obtain ⟨hnodup, -, -, -, hbounded⟩ := (search_bounded _ _).1 _ _ _ hskipped
  exact ⟨_, _, hskipped, rfl, hnodup, rfl, rfl, hbounded⟩

end Outline

end ReportFlow
