import ReportFlow.Store.Basic

/-!
Calls on a store, whichever it is, and runs of them.
-/

namespace ReportFlow

namespace ReportStore

inductive Call where
  | put (d : Definition)
  | delete (id : String)
  | get (id : String)
  | contains (id : String)

/-- What a call is answered with. Only putting and deleting can fail. -/
inductive Answer where
  | put (outcome : Except StoreError Unit)
  | delete (outcome : Except StoreError Bool)
  | get (report : Option Definition)
  | contains (stored : Bool)

def Answer.isFault : Answer → Bool
  | put outcome => !outcome.isOk
  | delete outcome => !outcome.isOk
  | get _ | contains _ => false

theorem Answer.put_eq_ok {outcome : Except StoreError Unit} (h : (Answer.put outcome).isFault = false) :
    ∃ u, outcome = .ok u := by
  cases outcome with
  | error e => cases h
  | ok u => exact ⟨u, rfl⟩

theorem Answer.delete_eq_ok {outcome : Except StoreError Bool}
    (h : (Answer.delete outcome).isFault = false) : ∃ b, outcome = .ok b := by
  cases outcome with
  | error e => cases h
  | ok b => exact ⟨b, rfl⟩

/-- The call decides what stands under the id from then on. -/
def Call.Settles (id : String) : Call → Prop
  | put d => d.id = id
  | delete deleted => deleted = id
  | get _ | contains _ => False

instance (id : String) (c : Call) : Decidable (c.Settles id) := by
  cases c <;> unfold Call.Settles <;> infer_instance

variable {σ : Type} [ReportStore σ]

def Call.run (s : σ) : Call → Answer × σ
  | put d => (.put (ReportStore.put d s).result, (ReportStore.put d s).store)
  | delete id => (.delete (ReportStore.delete id s).result, (ReportStore.delete id s).store)
  | get id => (.get (ReportStore.get? s id), s)
  | contains id => (.contains (ReportStore.contains s id), s)

def after (calls : List Call) (s : σ) : σ := calls.foldl (fun s c => (c.run s).2) s

def answers : List Call → σ → List Answer
  | [], _ => []
  | c :: calls, s => (c.run s).1 :: answers calls (c.run s).2

theorem after_append (calls more : List Call) (s : σ) :
    after (calls ++ more) s = after more (after calls s) := List.foldl_append

theorem after_snoc (calls : List Call) (c : Call) (s : σ) :
    after (calls ++ [c]) s = (c.run (after calls s)).2 := after_append calls [c] s

theorem answers_append (calls more : List Call) (s : σ) :
    answers (calls ++ more) s = answers calls s ++ answers more (after calls s) := by
  induction calls generalizing s with
  | nil => rfl
  | cons c calls ih =>
    rw [List.cons_append, answers, answers, ih, List.cons_append]
    rfl

/-- What every call of a run preserves holds after the run. -/
theorem after_invariant {p : σ → Prop} {calls : List Call}
    (hstep : ∀ c ∈ calls, ∀ s, p s → p (c.run s).2) {s : σ} (h : p s) : p (after calls s) := by
  induction calls generalizing s with
  | nil => exact h
  | cons c calls ih =>
    obtain ⟨hc, hcalls⟩ := List.forall_mem_cons.mp hstep
    exact ih hcalls (hc s h)

end ReportStore

end ReportFlow
