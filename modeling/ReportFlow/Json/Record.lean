import ReportFlow.Json.Codec

/-!
Records: objects with a fixed list of fields. Members may come in any order and unknown ones are
passed over. An array is taken as the fields in their declared order.
-/

namespace ReportFlow

structure Field (α : Type) where
  name : String
  codec : Codec α
  absent : Option α
  omitted : α → Bool

namespace Field

variable {α : Type}

/-- Must be present. -/
def required (name : String) (codec : Codec α) : Field α := ⟨name, codec, none, fun _ => false⟩

/-- Takes a default when it is absent. -/
def defaulted (name : String) (codec : Codec α) (value : α) : Field α :=
  ⟨name, codec, some value, fun _ => false⟩

/-- May be absent or `null`; written only when there is something to write. -/
def optional (name : String) (codec : Codec α) : Field (Option α) :=
  ⟨name, codec.option, some none, Option.isNone⟩

/-- May be absent or `null`; always written. -/
def nullable (name : String) (codec : Codec α) : Field (Option α) :=
  ⟨name, codec.option, some none, fun _ => false⟩

end Field

/-- Fields in their declared order, with the type of their values and of the slots that are filled
while members are read. -/
inductive Fields : Type → Type → Type 1 where
  | nil : Fields Unit Unit
  | cons {α τ σ : Type} (field : Field α) (rest : Fields τ σ) : Fields (α × τ) (Option α × σ)

namespace Fields

open Codec (Decoded stopAt wrong)

def count {τ σ : Type} : Fields τ σ → Nat
  | nil => 0
  | cons _ rest => rest.count + 1

def members {τ σ : Type} : Fields τ σ → τ → List (String × Json)
  | nil, _ => []
  | cons field rest, (a, t) =>
    if field.omitted a then rest.members t else (field.name, field.codec.encode a) :: rest.members t

def empty {τ σ : Type} : Fields τ σ → σ
  | nil => ()
  | cons _ rest => (none, rest.empty)

/-- Fills the slot of the field under a key, or gives `none` when no field has that key. -/
def fill? {τ σ : Type} (o : Origin) (key : String) (s : Source) : Fields τ σ → σ → Option (Decoded σ)
  | nil, _ => none
  | cons field rest, (slot, slots) =>
    if field.name = key then
      some (match slot with
        | some _ => .error (.duplicateField key)
        | none => (field.codec.decode o s).map fun a => (some a, slots))
    else (rest.fill? o key s slots).map (·.map fun filled => (slot, filled))

/-- Reads members in their order. One that is no field goes through `pass` and is kept. -/
def fillAll {τ σ : Type} (o : Origin) (pass : Source → Decoded Unit) (fields : Fields τ σ) :
    List (Key × Source) → σ → Decoded (σ × List (String × Source))
  | [], slots => .ok (slots, [])
  | (.faulty f, _) :: _, _ => .error (.malformed f.read)
  | (.name key, s) :: rest, slots =>
    match fields.fill? o key s slots with
    | some filled => do
      let slots ← filled
      fillAll o pass fields rest slots
    | none => do
      pass s
      let (slots, others) ← fillAll o pass fields rest slots
      return (slots, (key, s) :: others)

/-- Values of all fields; the first that is absent without a default is reported. -/
def finish {τ σ : Type} : Fields τ σ → σ → Decoded τ
  | nil, _ => .ok ()
  | cons field rest, (slot, slots) => do
    let a ← match slot.or field.absent with
      | some a => .ok a
      | none => .error (.missingField field.name)
    let t ← rest.finish slots
    return (a, t)

def plural (n : Nat) : String := if n = 1 then "1 element" else toString n ++ " elements"

/-- Elements taken as fields, from the field at position `index` on; gives back those left over. -/
def ofItems {τ σ : Type} (o : Origin) (wanted : String) (ending : ArrayEnd) (index : Nat) :
    Fields τ σ → List Source → Decoded (τ × List Source)
  | nil, items => .ok ((), items)
  | cons field rest, item :: items => do
    let a ← field.codec.decode o item
    let (t, left) ← rest.ofItems o wanted ending (index + 1) items
    return ((a, t), left)
  | cons field rest, [] => do
    stopAt ending.read
    let a ← match field.absent with
      | some a => .ok a
      | none => .error (.wrongLength index wanted)
    let (t, left) ← rest.ofItems o wanted ending (index + 1) []
    return ((a, t), left)

/-- Elements that no field takes are refused. -/
def refuseLeft (o : Origin) (total count : Nat) (left : List Source) (ending : ArrayEnd) :
    Decoded Unit :=
  match o with
  | .text => if left.isEmpty then stopAt ending.close else .error (.malformed .trailingCharacters)
  | .value => if left.isEmpty then .ok () else .error (.wrongLength total "fewer elements in array")
  | .held =>
    if left.isEmpty then .ok () else .error (.wrongLength total (plural count ++ " in sequence"))

def decode {τ σ : Type} (name : String) (fields : Fields τ σ) (o : Origin) : Source → Decoded τ
  | .object members ending => do
    let (slots, _) ← fields.fillAll o (fun s => stopAt s.skip) members fields.empty
    stopAt ending.read
    fields.finish slots
  | .array items ending => do
    let wanted := "struct " ++ name ++ " with " ++ plural fields.count
    let (t, left) ← fields.ofItems o wanted ending 0 items
    refuseLeft o items.length fields.count left ending
    return t
  | s => wrong ("struct " ++ name) s

end Fields

/-- A record type, taken apart into its fields and put together from them. -/
def Codec.record {α τ σ : Type} (name : String) (fields : Fields τ σ) (split : α → τ)
    (build : τ → α) : Codec α where
  encode a := .object (fields.members (split a))
  decode o s := (fields.decode name o s).map build

end ReportFlow
