import ReportFlow.Json.Printer
import ReportFlow.Proofs.JsonNesting

/-!
The text of a JSON value, on one line or on many, reads back as the value, as deep as containers may
be opened. The one thing asked of the value is that the text of each number in it reads back.
-/

namespace ReportFlow

namespace Numeral

/-- What may stand behind a numeral without being taken for a part of it. -/
def Closes (rest : List Char) : Prop :=
  ∀ c ∈ rest.head?, c.isDigit = false ∧ c ≠ '.' ∧ c ≠ 'e' ∧ c ≠ 'E'

theorem takeDigits_append {rest : List Char} (h : Closes rest) (cs : List Char) :
    takeDigits (cs ++ rest) = ((takeDigits cs).1, (takeDigits cs).2 ++ rest) := by
  induction cs with
  | nil =>
    cases rest with
    | nil => rfl
    | cons c rest =>
      obtain ⟨hdigit, -⟩ := h c rfl
      simp [takeDigits, hdigit]
  | cons c cs ih =>
    unfold takeDigits at ih ⊢
    obtain ⟨htake, hdrop⟩ := Prod.mk.inj ih
    cases hc : c.isDigit with
    | false => simp [hc]
    | true => simp [hc, htake, hdrop]

def exponentSign : List Char → Bool × List Char
  | '+' :: rest => (false, rest)
  | '-' :: rest => (true, rest)
  | rest => (false, rest)

theorem splitExponent_mark {c : Char} (hc : c = 'e' ∨ c = 'E') (n : Numeral) (cs : List Char) :
    splitExponent n (c :: cs) =
      if (takeDigits (exponentSign cs).2).1.isEmpty then
        .error (broken (takeDigits (exponentSign cs).2).2)
      else .ok ({ n with exponent := some ((exponentSign cs).1, (takeDigits (exponentSign cs).2).1) },
        (takeDigits (exponentSign cs).2).2) := by
  unfold splitExponent
  simp only [if_pos hc]
  rfl

theorem exponentSign_append {cs : List Char} (h : cs ≠ []) (rest : List Char) :
    exponentSign (cs ++ rest) = ((exponentSign cs).1, (exponentSign cs).2 ++ rest) := by
  cases cs with
  | nil => exact absurd rfl h
  | cons c cs =>
    rw [List.cons_append, exponentSign.eq_def, exponentSign.eq_def]
    split <;> split <;> simp_all

theorem splitExponent_append {rest cs : List Char} {n m : Numeral} (hrest : Closes rest)
    (h : splitExponent n cs = .ok (m, [])) : splitExponent n (cs ++ rest) = .ok (m, rest) := by
  cases cs with
  | nil =>
    cases h
    cases rest with
    | nil => rfl
    | cons c rest =>
      obtain ⟨-, -, he, hE⟩ := hrest c rfl
      simp [splitExponent, he, hE]
  | cons c cs =>
    by_cases hc : c = 'e' ∨ c = 'E'
    · have hcs : cs ≠ [] := by
        rintro rfl
        rw [splitExponent_mark hc] at h
        cases h
      rw [splitExponent_mark hc] at h
      rw [List.cons_append, splitExponent_mark hc, exponentSign_append hcs,
        takeDigits_append hrest]
      split at h
      · cases h
      · rename_i hdigits
        obtain ⟨hm, hleft⟩ := Prod.mk.inj (Except.ok.inj h)
        rw [if_neg hdigits, ← hm, hleft]
        rfl
    · unfold splitExponent at h
      simp only [if_neg hc] at h
      cases h

theorem splitPoint_point (n : Numeral) (cs : List Char) :
    splitPoint n ('.' :: cs) =
      if (takeDigits cs).1.isEmpty then .error (broken (takeDigits cs).2)
      else splitExponent { n with point := some (takeDigits cs).1 } (takeDigits cs).2 := rfl

theorem splitPoint_other {cs : List Char} (h : cs.head? ≠ some '.') (n : Numeral) :
    splitPoint n cs = splitExponent n cs := by
  unfold splitPoint
  split
  · exact absurd rfl h
  · rfl

theorem splitPoint_append {rest cs : List Char} {n m : Numeral} (hrest : Closes rest)
    (h : splitPoint n cs = .ok (m, [])) : splitPoint n (cs ++ rest) = .ok (m, rest) := by
  by_cases hpoint : cs.head? = some '.'
  · obtain ⟨cs, rfl⟩ : ∃ tail, cs = '.' :: tail := by
      cases cs with
      | nil => cases hpoint
      | cons c tail =>
        cases hpoint
        exact ⟨tail, rfl⟩
    rw [splitPoint_point] at h
    rw [List.cons_append, splitPoint_point, takeDigits_append hrest]
    split at h
    · cases h
    · rename_i hdigits
      rw [if_neg hdigits]
      exact splitExponent_append hrest h
  · rw [splitPoint_other hpoint] at h
    have hboth : (cs ++ rest).head? ≠ some '.' := by
      cases cs with
      | nil =>
        intro hhead
        exact (hrest '.' hhead).2.1 rfl
      | cons c cs => exact hpoint
    rw [splitPoint_other hboth]
    exact splitExponent_append hrest h

def splitWhole (negative : Bool) (cs : List Char) : Except Fault (Numeral × List Char) :=
  match cs with
  | '0' :: rest =>
    if (rest.head?.map Char.isDigit).getD false then .error (broken rest)
    else splitPoint ⟨negative, ['0'], none, none⟩ rest
  | rest =>
    let (digits, rest) := takeDigits rest
    if digits.isEmpty then .error (broken rest)
    else splitPoint ⟨negative, digits, none, none⟩ rest

theorem split_minus (cs : List Char) : split ('-' :: cs) = splitWhole true cs := rfl

theorem split_plain {cs : List Char} (h : cs.head? ≠ some '-') : split cs = splitWhole false cs := by
  unfold split
  split
  rename_i heq
  split at heq
  · exact absurd rfl h
  · cases heq
    rfl

theorem splitWhole_zero (negative : Bool) (cs : List Char) :
    splitWhole negative ('0' :: cs) =
      if (cs.head?.map Char.isDigit).getD false then .error (broken cs)
      else splitPoint ⟨negative, ['0'], none, none⟩ cs := rfl

theorem splitWhole_other {cs : List Char} (h : cs.head? ≠ some '0') (negative : Bool) :
    splitWhole negative cs =
      if (takeDigits cs).1.isEmpty then .error (broken (takeDigits cs).2)
      else splitPoint ⟨negative, (takeDigits cs).1, none, none⟩ (takeDigits cs).2 := by
  unfold splitWhole
  split
  · exact absurd rfl h
  · rfl

theorem splitWhole_append {rest cs : List Char} {negative : Bool} {m : Numeral}
    (hrest : Closes rest) (h : splitWhole negative cs = .ok (m, [])) :
    splitWhole negative (cs ++ rest) = .ok (m, rest) := by
  cases cs with
  | nil => cases h
  | cons c cs =>
    by_cases hzero : c = '0'
    · subst hzero
      have hhead : ((cs ++ rest).head?.map Char.isDigit).getD false =
          (cs.head?.map Char.isDigit).getD false := by
        cases cs with
        | cons d cs => rfl
        | nil =>
          cases rest with
          | nil => rfl
          | cons d rest => exact (hrest d rfl).1
      rw [splitWhole_zero] at h
      rw [List.cons_append, splitWhole_zero, hhead]
      split at h
      · cases h
      · rename_i hdigit
        rw [if_neg hdigit]
        exact splitPoint_append hrest h
    · have hne {tail : List Char} : (c :: tail).head? ≠ some '0' := fun h => hzero (Option.some.inj h)
      rw [splitWhole_other hne] at h
      rw [List.cons_append, splitWhole_other hne, ← List.cons_append, takeDigits_append hrest]
      split at h
      · cases h
      · rename_i hdigits
        rw [if_neg hdigits]
        exact splitPoint_append hrest h

/-- What closes a numeral is left over behind it. -/
theorem split_append {rest cs : List Char} {m : Numeral} (hrest : Closes rest)
    (h : split cs = .ok (m, [])) : split (cs ++ rest) = .ok (m, rest) := by
  cases cs with
  | nil => cases h
  | cons c cs =>
    by_cases hminus : c = '-'
    · subst hminus
      rw [split_minus] at h
      rw [List.cons_append, split_minus]
      exact splitWhole_append hrest h
    · have hne {tail : List Char} : (c :: tail).head? ≠ some '-' :=
        fun h => hminus (Option.some.inj h)
      rw [split_plain hne] at h
      rw [List.cons_append, split_plain hne, ← List.cons_append]
      exact splitWhole_append hrest h

/-- A numeral begins with a sign or a digit. -/
theorem head_of_split {cs rest : List Char} {m : Numeral} (h : split cs = .ok (m, rest)) :
    ∃ c tail, cs = c :: tail ∧ (c = '-' ∨ c.isDigit) := by
  cases cs with
  | nil => cases h
  | cons c cs =>
    refine ⟨c, cs, rfl, ?_⟩
    by_cases hminus : c = '-'
    · exact .inl hminus
    · right
      have hplain : (c :: cs).head? ≠ some '-' := fun h => hminus (Option.some.inj h)
      rw [split_plain hplain] at h
      by_cases hzero : c = '0'
      · rw [hzero]
        rfl
      · have hother : (c :: cs).head? ≠ some '0' := fun h => hzero (Option.some.inj h)
        rw [splitWhole_other hother] at h
        cases hdigit : c.isDigit with
        | true => rfl
        | false =>
          have hnone : (takeDigits (c :: cs)).1 = [] := by simp [takeDigits, hdigit]
          rw [if_pos (by rw [hnone]; rfl)] at h
          cases h

end Numeral

namespace Number

def reread (n : Number) : Option Number :=
  match Numeral.split n.text.toList with
  | .ok (numeral, []) => numeral.value?
  | _ => none

def ReadsBack (n : Number) : Prop := n.reread = some n

instance (n : Number) : Decidable n.ReadsBack := inferInstanceAs (Decidable (_ = _))

theorem ReadsBack.split {n : Number} (h : n.ReadsBack) :
    ∃ numeral, Numeral.split n.text.toList = .ok (numeral, []) ∧ numeral.value? = some n := by
  unfold ReadsBack reread at h
  split at h
  · rename_i numeral hsplit
    exact ⟨numeral, hsplit, h⟩
  · cases h

end Number

namespace Json

mutual

def numbers : Json → List Number
  | number n => [n]
  | array items => itemNumbers items
  | object members => memberNumbers members
  | _ => []

def itemNumbers : List Json → List Number
  | [] => []
  | item :: rest => numbers item ++ itemNumbers rest

def memberNumbers : List (String × Json) → List Number
  | [] => []
  | (_, value) :: rest => numbers value ++ memberNumbers rest

end

theorem itemNumbers_eq_flatMap (items : List Json) : itemNumbers items = items.flatMap numbers := by
  induction items with
  | nil => rfl
  | cons item rest ih => rw [itemNumbers, ih, List.flatMap_cons]

theorem memberNumbers_eq_flatMap (members : List (String × Json)) :
    memberNumbers members = members.flatMap fun m => m.2.numbers := by
  induction members with
  | nil => rfl
  | cons m rest ih => rw [memberNumbers, ih, List.flatMap_cons]

def Exact (j : Json) : Prop := ∀ n ∈ j.numbers, n.ReadsBack

instance (j : Json) : Decidable j.Exact := inferInstanceAs (Decidable (∀ n ∈ _, _))

theorem exact_array {items : List Json} : (array items).Exact ↔ ∀ item ∈ items, item.Exact := by
  rw [Exact, numbers, itemNumbers_eq_flatMap]
  exact List.forall_mem_flatMap

theorem exact_object {members : List (String × Json)} :
    (object members).Exact ↔ ∀ m ∈ members, m.2.Exact := by
  rw [Exact, numbers, memberNumbers_eq_flatMap]
  exact List.forall_mem_flatMap

namespace Reader

theorem dropBlanks_cons {c : Char} (h : isBlank c = false) (cs : List Char) :
    dropBlanks (c :: cs) = c :: cs := by
  simp [dropBlanks, h]

theorem dropBlanks_blank {c : Char} (h : isBlank c = true) (cs : List Char) :
    dropBlanks (c :: cs) = dropBlanks cs := by
  simp [dropBlanks, h]

theorem dropBlanks_lineBreak (depth : Option Nat) (cs : List Char) :
    dropBlanks (lineBreak depth ++ cs) = dropBlanks cs := by
  cases depth with
  | none => rfl
  | some depth =>
    rw [lineBreak, List.cons_append, dropBlanks_blank rfl]
    induction 2 * depth with
    | zero => rfl
    | succ n ih => rw [List.replicate_succ, List.cons_append, dropBlanks_blank rfl, ih]

/-! ## Strings -/

theorem hexDigit?_hexDigit {n : Nat} (h : n < 16) : hexDigit? (hexDigit n) = some n := by
  revert n
  decide

theorem utf8Size_hexDigit {n : Nat} (h : n < 16) : (hexDigit n).utf8Size = 1 := by
  revert n
  decide

theorem hexGroup_control {n : Nat} (h : n < 32) (rest : List Char) :
    hexGroup ('0' :: '0' :: hexDigit (n / 16) :: hexDigit (n % 16) :: rest) = .ok n := by
  have hhigh : n / 16 < 16 := by omega
  have hlow : n % 16 < 16 := by omega
  have hzero : hexDigit? '0' = some 0 := by decide
  have hsize : '0'.utf8Size = 1 := by decide
  simp only [hexGroup, List.take_succ_cons, List.take_zero, List.map_cons, List.map_nil,
    List.foldr_cons, List.foldr_nil, utf8Size_hexDigit hhigh, utf8Size_hexDigit hlow, hsize]
  simp [hexDigit?_hexDigit hhigh, hexDigit?_hexDigit hlow, hzero]
  omega

theorem lt_space_iff {c : Char} : c < ' ' ↔ c.toNat < 32 := by
  rw [Char.lt_def, UInt32.lt_iff_toNat_lt]
  rfl

theorem unicodeEscape_control {c : Char} (h : c.toNat < 32) (rest : List Char) :
    unicodeEscape ('0' :: '0' :: hexDigit (c.toNat / 16) :: hexDigit (c.toNat % 16) :: rest) =
      .ok (c, rest) := by
  have hlow : isLow c.toNat = false := by simp [isLow]; omega
  have hhigh : isHigh c.toNat = false := by simp [isHigh]; omega
  rw [unicodeEscape, hexGroup_control h]
  simp only [bind, Except.bind, hlow, hhigh, Char.ofNat_toNat]
  rfl

/-- One step of a reader takes one escaped character. -/
theorem stringStep_escape (c : Char) (rest : List Char) :
    stringStep (escape c ++ rest) = .ok (some c, rest) := by
  unfold escape
  split
  · subst_vars; rfl
  split
  · subst_vars; rfl
  split
  · subst_vars; rfl
  split
  · subst_vars; rfl
  split
  · subst_vars; rfl
  split
  · subst_vars; rfl
  split
  · subst_vars; rfl
  split
  · rename_i hspace
    have hread := unicodeEscape_control (lt_space_iff.mp hspace) rest
    exact congrArg (Except.map fun read => (some read.1, read.2)) hread
  · rw [List.singleton_append, stringStep.eq_def]
    split <;> simp_all

theorem stringBody_escape {s : List Char} {acc rest : List Char} {fuel : Nat}
    (hfuel : s.length < fuel) :
    stringBody fuel acc (s.flatMap escape ++ '"' :: rest) =
      .ok (String.ofList (acc.reverse ++ s), rest) := by
  induction s generalizing fuel acc with
  | nil =>
    obtain ⟨fuel, rfl⟩ := Nat.exists_eq_add_one_of_ne_zero (Nat.ne_zero_of_lt hfuel)
    rw [List.append_nil]
    rfl
  | cons c s ih =>
    obtain ⟨fuel, rfl⟩ := Nat.exists_eq_add_one_of_ne_zero (Nat.ne_zero_of_lt hfuel)
    rw [List.flatMap_cons, List.append_assoc, stringBody, stringStep_escape]
    simp only
    rw [ih (by simpa using hfuel), List.reverse_cons, List.append_assoc, List.singleton_append]

theorem length_le_flatMap_escape (s : List Char) : s.length ≤ (s.flatMap escape).length := by
  induction s with
  | nil => exact Nat.le_refl 0
  | cons c s ih =>
    have hone : 1 ≤ (escape c).length := by unfold escape; grind
    rw [List.flatMap_cons, List.length_append, List.length_cons]
    omega

/-- A quoted text behind its opening quote. -/
theorem text_quote (s : String) (rest : List Char) :
    text (s.toList.flatMap escape ++ '"' :: rest) = (.ok s, some rest) := by
  have hfuel : s.toList.length < (s.toList.flatMap escape ++ '"' :: rest).length + 1 := by
    have := length_le_flatMap_escape s.toList
    rw [List.length_append]
    omega
  rw [text, stringBody_escape hfuel, List.reverse_nil, List.nil_append, String.ofList_toList]

/-! ## Values -/

theorem closes_of_mem {c : Char} (h : c ∈ [',', '\n', ']', '\x7d']) (cs : List Char) :
    Numeral.Closes (c :: cs) := by
  intro d hd
  cases hd
  simp only [List.mem_cons, List.not_mem_nil, or_false] at h
  rcases h with rfl | rfl | rfl | rfl <;> decide

theorem closes_lineBreak {c : Char} (h : c ∈ [',', '\n', ']', '\x7d']) (depth : Option Nat)
    (cs : List Char) : Numeral.Closes (lineBreak depth ++ c :: cs) := by
  cases depth with
  | none => exact closes_of_mem h cs
  | some depth => exact closes_of_mem (by decide) _

/-- The first character of a value tells that it is one. -/
theorem head_of_chars (depth : Option Nat) {j : Json} (hexact : j.Exact) :
    ∃ c cs, chars depth j = c :: cs ∧ isBlank c = false ∧ c ≠ ']' := by
  cases j with
  | null => exact ⟨'n', _, by rw [chars], rfl, by decide⟩
  | bool b =>
    cases b with
    | true => exact ⟨'t', _, by rw [chars], rfl, by decide⟩
    | false => exact ⟨'f', _, by rw [chars], rfl, by decide⟩
  | number n =>
    obtain ⟨numeral, hsplit, -⟩ := (hexact n (List.mem_singleton_self n)).split
    obtain ⟨c, cs, htext, hc⟩ := Numeral.head_of_split hsplit
    refine ⟨c, cs, by rw [chars, htext], ?_⟩
    obtain rfl | hdigit := hc
    · decide
    · constructor
      · simp only [isBlank, Bool.or_eq_false_iff, decide_eq_false_iff_not]
        refine ⟨⟨⟨?_, ?_⟩, ?_⟩, ?_⟩ <;> rintro rfl <;> cases hdigit
      · rintro rfl
        cases hdigit
  | string s => exact ⟨'"', _, by rw [chars]; rfl, rfl, by decide⟩
  | array items =>
    cases items with
    | nil => exact ⟨'[', _, by rw [chars], rfl, by decide⟩
    | cons item rest => exact ⟨'[', _, by rw [chars], rfl, by decide⟩
  | object members =>
    cases members with
    | nil => exact ⟨'\x7b', _, by rw [chars], rfl, by decide⟩
    | cons m rest => exact ⟨'\x7b', _, by rw [chars], rfl, by decide⟩

theorem value_number {n : Number} (h : n.ReadsBack) {rest : List Char}
    (hrest : Numeral.Closes rest) (fuel room : Nat) :
    value (fuel + 1) room (n.text.toList ++ rest) = (.number n, some rest) := by
  obtain ⟨numeral, hsplit, hvalue⟩ := h.split
  obtain ⟨c, cs, htext, hc⟩ := Numeral.head_of_split hsplit
  have hnumber : number (c :: (cs ++ rest)) = (.number n, some rest) := by
    have happend := Numeral.split_append hrest hsplit
    rw [htext, List.cons_append] at happend
    rw [number, happend]
    simp only [hvalue]
  have hblank : isBlank c = false := by
    obtain ⟨d, ds, hd, hblank, -⟩ := head_of_chars none (j := .number n) (by simpa [Exact, numbers])
    rw [chars, htext] at hd
    rw [(List.cons.inj hd).1, hblank]
  rw [htext, List.cons_append, value, dropBlanks_cons hblank]
  have hdigit : (decide (c = '-') || c.isDigit) = true := by simpa using hc
  split
  case h_8 heq =>
    cases heq
    rw [if_pos hdigit, hnumber]
  -- no other value begins with a sign or a digit
  all_goals cases ‹c :: (cs ++ rest) = _› <;> cases hdigit

theorem elements_close {room : Nat} {first : Bool} {cs rest : List Char}
    (h : dropBlanks cs = ']' :: rest) (fuel : Nat) :
    elements (fuel + 1) room first cs = ([], .closed, some rest) := by
  rw [elements, h]
  rfl

theorem elements_first {fuel room : Nat} {cs rest : List Char} {c : Char} {tail : List Char}
    {item : Source} (h : dropBlanks cs = c :: tail) (hc : c ≠ ']')
    (hvalue : value fuel room (c :: tail) = (item, some rest)) :
    elements (fuel + 1) room true cs =
      (item :: (elements fuel room false rest).1, (elements fuel room false rest).2) := by
  rw [elements, h]
  split
  case h_1 heq => cases heq
  case h_2 heq => exact absurd (List.cons.inj heq).1 hc
  case h_3 heq =>
    cases heq
    rw [if_pos rfl]
    simp only [hvalue]

theorem elements_next {fuel room : Nat} {cs after rest : List Char} {c : Char} {tail : List Char}
    {item : Source} (h : dropBlanks cs = ',' :: after) (hafter : dropBlanks after = c :: tail)
    (hc : c ≠ ']') (hvalue : value fuel room (c :: tail) = (item, some rest)) :
    elements (fuel + 1) room false cs =
      (item :: (elements fuel room false rest).1, (elements fuel room false rest).2) := by
  rw [elements, h]
  split
  case h_1 heq => cases heq
  case h_2 heq => cases heq
  case h_3 heq =>
    cases heq
    rw [if_neg Bool.false_ne_true, if_pos rfl, hafter]
    split
    case h_1 heq => cases heq
    case h_2 heq => exact absurd (List.cons.inj heq).1 hc
    case h_3 => simp only [hvalue]

theorem entries_close {room : Nat} {first : Bool} {cs rest : List Char}
    (h : dropBlanks cs = '\x7d' :: rest) (fuel : Nat) :
    entries (fuel + 1) room first cs = ([], .closed, some rest) := by
  rw [entries, h]
  rfl

theorem entries_first {fuel room : Nat} {cs body after more rest : List Char} {key : String}
    {item : Source} (h : dropBlanks cs = '"' :: body) (hkey : text body = (.ok key, some after))
    (hcolon : dropBlanks after = ':' :: more) (hvalue : value fuel room more = (item, some rest)) :
    entries (fuel + 1) room true cs =
      ((.name key, item) :: (entries fuel room false rest).1, (entries fuel room false rest).2) := by
  rw [entries, h]
  simp [hkey, hcolon, hvalue]

theorem entries_next {fuel room : Nat} {cs next body after more rest : List Char} {key : String}
    {item : Source} (h : dropBlanks cs = ',' :: next) (hnext : dropBlanks next = '"' :: body)
    (hkey : text body = (.ok key, some after)) (hcolon : dropBlanks after = ':' :: more)
    (hvalue : value fuel room more = (item, some rest)) :
    entries (fuel + 1) room false cs =
      ((.name key, item) :: (entries fuel room false rest).1, (entries fuel room false rest).2) := by
  rw [entries, h]
  simp [hnext, hkey, hcolon, hvalue]

theorem value_blank {c : Char} (h : isBlank c = true) (fuel room : Nat) (cs : List Char) :
    value fuel room (c :: cs) = value fuel room cs := by
  cases fuel with
  | zero => rw [value, value]
  | succ fuel => rw [value, value, dropBlanks_blank h]

/-- The value is taken off the text in front of anything that may stand behind it. -/
def Reads (depth : Option Nat) (j : Json) : Prop :=
  ∀ ⦃fuel room rest⦄, 2 * (chars depth j).length ≤ fuel → Numeral.Closes rest →
    value fuel room (chars depth j ++ rest) = (j.asRead room, some rest)

theorem closes_itemChars (inner depth : Option Nat) (items : List Json) (rest : List Char) :
    Numeral.Closes (itemChars inner items ++ (lineBreak depth ++ ']' :: rest)) := by
  cases items with
  | nil => exact closes_lineBreak (by decide) depth rest
  | cons item items => exact closes_of_mem (by decide) _

theorem closes_memberChars (inner depth : Option Nat) (members : List (String × Json))
    (rest : List Char) :
    Numeral.Closes (memberChars inner members ++ (lineBreak depth ++ '\x7d' :: rest)) := by
  cases members with
  | nil => exact closes_lineBreak (by decide) depth rest
  | cons m members => exact closes_of_mem (by decide) _

/-- A reader behind a bracket or a comma takes the next element. -/
theorem reads_item {inner : Option Nat} {item : Json} (hexact : item.Exact) (hread : Reads inner item)
    {fuel : Nat} (room : Nat) {tail : List Char} (hfuel : 2 * (chars inner item).length ≤ fuel)
    (htail : Numeral.Closes tail) :
    ∃ c cs, dropBlanks (lineBreak inner ++ (chars inner item ++ tail)) = c :: cs ∧ c ≠ ']' ∧
      value fuel room (c :: cs) = (item.asRead room, some tail) := by
  obtain ⟨c, cs, hhead, hblank, hbracket⟩ := head_of_chars inner hexact
  refine ⟨c, cs ++ tail, ?_, hbracket, ?_⟩
  · rw [dropBlanks_lineBreak, hhead, List.cons_append, dropBlanks_cons hblank]
  · rw [← List.cons_append, ← hhead]
    exact hread hfuel htail

theorem elements_items {inner depth : Option Nat} {items : List Json}
    (hexact : ∀ item ∈ items, item.Exact) (hreads : ∀ item ∈ items, Reads inner item)
    {fuel room : Nat} {rest : List Char} (hfuel : 2 * (itemChars inner items).length < fuel) :
    elements fuel room false (itemChars inner items ++ (lineBreak depth ++ ']' :: rest)) =
      (itemsAsRead room items, .closed, some rest) := by
  obtain ⟨fuel, rfl⟩ := Nat.exists_eq_add_one_of_ne_zero (Nat.ne_zero_of_lt hfuel)
  induction items generalizing fuel with
  | nil =>
    refine elements_close ?_ fuel
    rw [itemChars, List.nil_append, dropBlanks_lineBreak, dropBlanks_cons rfl]
  | cons item items ih =>
    obtain ⟨hitem, hitems⟩ := List.forall_mem_cons.mp hexact
    obtain ⟨hread, hrest⟩ := List.forall_mem_cons.mp hreads
    simp only [itemChars, List.length_cons, List.length_append] at hfuel
    obtain ⟨tail, htail⟩ : ∃ tail, itemChars inner items ++ (lineBreak depth ++ ']' :: rest) = tail :=
      ⟨_, rfl⟩
    have hcomma : dropBlanks (itemChars inner (item :: items) ++ (lineBreak depth ++ ']' :: rest)) =
        ',' :: (lineBreak inner ++ (chars inner item ++ tail)) := by
      rw [itemChars, List.cons_append, dropBlanks_cons rfl, List.append_assoc, List.append_assoc,
        htail]
    have hlength : 2 * (chars inner item).length ≤ fuel := by omega
    obtain ⟨c, cs, hnext, hbracket, hvalue⟩ :=
      reads_item hitem hread room hlength (htail ▸ closes_itemChars inner depth items rest)
    rw [elements_next hcomma hnext hbracket hvalue, ← htail]
    cases fuel with
    | zero => omega
    | succ fuel => rw [ih hitems hrest fuel (by omega), itemsAsRead]

theorem quote_append (key : String) (cs : List Char) :
    quote key ++ cs = '"' :: (key.toList.flatMap escape ++ '"' :: cs) := by
  rw [quote, List.cons_append, List.cons_append, List.append_assoc, List.singleton_append]

theorem dropBlanks_colon (depth : Option Nat) (cs : List Char) :
    ∃ more, dropBlanks (colon depth ++ cs) = ':' :: more ∧
      ∀ fuel room, value fuel room more = value fuel room cs := by
  cases depth with
  | none => exact ⟨cs, dropBlanks_cons rfl cs, fun fuel room => rfl⟩
  | some depth => exact ⟨' ' :: cs, dropBlanks_cons rfl _, fun fuel room => value_blank rfl fuel room cs⟩

/-- A reader behind a brace or a comma takes the next member. -/
theorem reads_member {inner : Option Nat} {j : Json} (hread : Reads inner j) (mark : Option Nat)
    (key : String) {fuel : Nat} (room : Nat) {tail : List Char}
    (hfuel : 2 * (chars inner j).length ≤ fuel) (htail : Numeral.Closes tail) :
    ∃ body after more,
      dropBlanks (lineBreak inner ++ (quote key ++ (colon mark ++ (chars inner j ++ tail)))) =
        '"' :: body ∧ text body = (.ok key, some after) ∧ dropBlanks after = ':' :: more ∧
      value fuel room more = (j.asRead room, some tail) := by
  obtain ⟨more, hcolon, hmore⟩ := dropBlanks_colon mark (chars inner j ++ tail)
  refine ⟨_, _, more, ?_, text_quote key _, hcolon, ?_⟩
  · rw [dropBlanks_lineBreak, quote_append, dropBlanks_cons rfl]
  · rw [hmore]
    exact hread hfuel htail

theorem entries_members {inner depth : Option Nat} {members : List (String × Json)}
    (hreads : ∀ m ∈ members, Reads inner m.2) {fuel room : Nat} {rest : List Char}
    (hfuel : 2 * (memberChars inner members).length < fuel) :
    entries fuel room false (memberChars inner members ++ (lineBreak depth ++ '\x7d' :: rest)) =
      (membersAsRead room members, .closed, some rest) := by
  obtain ⟨fuel, rfl⟩ := Nat.exists_eq_add_one_of_ne_zero (Nat.ne_zero_of_lt hfuel)
  induction members generalizing fuel with
  | nil =>
    refine entries_close ?_ fuel
    rw [memberChars, List.nil_append, dropBlanks_lineBreak, dropBlanks_cons rfl]
  | cons m members ih =>
    obtain ⟨key, j⟩ := m
    obtain ⟨hread, hrest⟩ := List.forall_mem_cons.mp hreads
    simp only [memberChars, List.length_cons, List.length_append] at hfuel
    obtain ⟨tail, htail⟩ :
        ∃ tail, memberChars inner members ++ (lineBreak depth ++ '\x7d' :: rest) = tail := ⟨_, rfl⟩
    have hcomma :
        dropBlanks (memberChars inner ((key, j) :: members) ++ (lineBreak depth ++ '\x7d' :: rest)) =
          ',' :: (lineBreak inner ++ (quote key ++ (colon inner ++ (chars inner j ++ tail)))) := by
      rw [memberChars, List.cons_append, dropBlanks_cons rfl]
      simp only [List.append_assoc, htail]
    have hlength : 2 * (chars inner j).length ≤ fuel := by omega
    obtain ⟨body, after, more, hquote, hkey, hcolon, hvalue⟩ :=
      reads_member hread inner key room hlength (htail ▸ closes_memberChars inner depth members rest)
    rw [entries_next hcomma hquote hkey hcolon hvalue, ← htail]
    cases fuel with
    | zero => omega
    | succ fuel => rw [ih hrest fuel (by omega), membersAsRead]

theorem value_array (fuel room : Nat) (cs : List Char) :
    value (fuel + 1) room ('[' :: cs) =
      let (items, ending, rest) := elements fuel (room - 1) true cs
      (if room = 0 then tooDeep (.array items ending) .expectedValue else .array items ending, rest) := by
  rw [value, dropBlanks_cons rfl]
  rfl

theorem value_object (fuel room : Nat) (cs : List Char) :
    value (fuel + 1) room ('\x7b' :: cs) =
      let (members, ending, rest) := entries fuel (room - 1) true cs
      (if room = 0 then tooDeep (.object members ending) .nestingLimit else .object members ending,
        rest) := by
  rw [value, dropBlanks_cons rfl]
  rfl

theorem reads_array {depth : Option Nat} {items : List Json} (hexact : ∀ item ∈ items, item.Exact)
    (hreads : ∀ item ∈ items, Reads (depth.map (· + 1)) item) : Reads depth (.array items) := by
  intro fuel room rest hfuel hrest
  cases items with
  | nil =>
    rw [chars] at hfuel ⊢
    obtain ⟨fuel, rfl⟩ : ∃ n, fuel = n + 2 := ⟨fuel - 2, by simp at hfuel; omega⟩
    rw [List.cons_append, value_array, List.singleton_append, elements_close (dropBlanks_cons rfl rest)]
    rfl
  | cons item items =>
    obtain ⟨hitem, hitems⟩ := List.forall_mem_cons.mp hexact
    obtain ⟨hread, hothers⟩ := List.forall_mem_cons.mp hreads
    simp only [chars, List.length_cons, List.length_append] at hfuel
    obtain ⟨fuel, rfl⟩ : ∃ n, fuel = n + 2 := ⟨fuel - 2, by omega⟩
    obtain ⟨tail, htail⟩ :
        ∃ tail, itemChars (depth.map (· + 1)) items ++ (lineBreak depth ++ ']' :: rest) = tail :=
      ⟨_, rfl⟩
    have hlength : 2 * (chars (depth.map (· + 1)) item).length ≤ fuel := by omega
    obtain ⟨c, cs, hfirst, hbracket, hvalue⟩ :=
      reads_item hitem hread (room - 1) hlength (htail ▸ closes_itemChars _ depth items rest)
    have htexts : chars depth (.array (item :: items)) ++ rest =
        '[' :: (lineBreak (depth.map (· + 1)) ++ (chars (depth.map (· + 1)) item ++ tail)) := by
      rw [chars, ← htail]
      simp only [List.append_assoc, List.cons_append, List.nil_append]
    rw [htexts, value_array, elements_first hfirst hbracket hvalue, ← htail,
      elements_items hitems hothers (by omega)]
    rfl

theorem reads_object {depth : Option Nat} {members : List (String × Json)}
    (hreads : ∀ m ∈ members, Reads (depth.map (· + 1)) m.2) : Reads depth (.object members) := by
  intro fuel room rest hfuel hrest
  cases members with
  | nil =>
    rw [chars] at hfuel ⊢
    obtain ⟨fuel, rfl⟩ : ∃ n, fuel = n + 2 := ⟨fuel - 2, by simp at hfuel; omega⟩
    rw [List.cons_append, value_object, List.singleton_append, entries_close (dropBlanks_cons rfl rest)]
    rfl
  | cons m members =>
    obtain ⟨key, j⟩ := m
    obtain ⟨hread, hothers⟩ := List.forall_mem_cons.mp hreads
    simp only [chars, List.length_cons, List.length_append] at hfuel
    obtain ⟨fuel, rfl⟩ : ∃ n, fuel = n + 2 := ⟨fuel - 2, by omega⟩
    obtain ⟨tail, htail⟩ :
        ∃ tail, memberChars (depth.map (· + 1)) members ++ (lineBreak depth ++ '\x7d' :: rest) = tail :=
      ⟨_, rfl⟩
    have hlength : 2 * (chars (depth.map (· + 1)) j).length ≤ fuel := by omega
    obtain ⟨body, after, more, hquote, hkey, hcolon, hvalue⟩ :=
      reads_member hread depth key (room - 1) hlength (htail ▸ closes_memberChars _ depth members rest)
    have htexts : chars depth (.object ((key, j) :: members)) ++ rest =
        '\x7b' :: (lineBreak (depth.map (· + 1)) ++
          (quote key ++ (colon depth ++ (chars (depth.map (· + 1)) j ++ tail)))) := by
      rw [chars, ← htail]
      simp only [List.append_assoc, List.cons_append, List.nil_append]
    rw [htexts, value_object, entries_first hquote hkey hcolon hvalue, ← htail,
      entries_members hothers (by omega)]
    rfl

theorem reads_string (depth : Option Nat) (s : String) : Reads depth (.string s) := by
  intro fuel room rest hfuel hrest
  rw [chars] at hfuel ⊢
  obtain ⟨fuel, rfl⟩ : ∃ n, fuel = n + 1 := ⟨fuel - 1, by simp [quote] at hfuel; omega⟩
  rw [quote_append, value, dropBlanks_cons rfl]
  simp only [text_quote]
  rfl

theorem reads_number {n : Number} (h : n.ReadsBack) (depth : Option Nat) : Reads depth (.number n) := by
  intro fuel room rest hfuel hrest
  obtain ⟨c, cs, hhead, -⟩ := head_of_chars depth (j := .number n) (by simpa [Exact, numbers])
  rw [hhead] at hfuel
  obtain ⟨fuel, rfl⟩ : ∃ n, fuel = n + 1 := ⟨fuel - 1, by simp at hfuel; omega⟩
  rw [chars, value_number h hrest]
  rfl

/-- A word alone is taken off the text by its letters. -/
theorem reads_word {depth : Option Nat} {j : Json} {w : List Char} (hw : w ≠ [])
    (h : chars depth j = w)
    (hread : ∀ fuel room rest, value (fuel + 1) room (w ++ rest) = (j.asRead room, some rest)) :
    Reads depth j := by
  intro fuel room rest hfuel hrest
  rw [h] at hfuel ⊢
  have hlength := List.length_pos_iff.mpr hw
  obtain ⟨fuel, rfl⟩ : ∃ n, fuel = n + 1 := ⟨fuel - 1, by omega⟩
  exact hread fuel room rest

/-- A reader takes the value off its text. -/
theorem reads_chars (j : Json) (hexact : j.Exact) (depth : Option Nat) : Reads depth j := by
  induction j using induct generalizing depth with
  | hnull =>
    refine reads_word (List.cons_ne_nil _ _) (by rw [chars]) fun fuel room rest => ?_
    rw [List.cons_append, value, dropBlanks_cons rfl]
    rfl
  | hbool b =>
    cases b with
    | true =>
      refine reads_word (List.cons_ne_nil _ _) (by rw [chars]) fun fuel room rest => ?_
      rw [List.cons_append, value, dropBlanks_cons rfl]
      rfl
    | false =>
      refine reads_word (List.cons_ne_nil _ _) (by rw [chars]) fun fuel room rest => ?_
      rw [List.cons_append, value, dropBlanks_cons rfl]
      rfl
  | hnumber n => exact reads_number (hexact n (List.mem_singleton_self n)) depth
  | hstring s => exact reads_string depth s
  | harray items ih =>
    have hitems := exact_array.mp hexact
    exact reads_array hitems fun item hitem => ih item hitem (hitems item hitem) _
  | hobject members ih =>
    have hmembers := exact_object.mp hexact
    exact reads_object fun m hm => ih m hm (hmembers m hm) _

end Reader

theorem ofText_chars {j : Json} (hexact : j.Exact) (depth : Option Nat) :
    Document.ofText (String.ofList (chars depth j)) = ⟨j.asRead Reader.maxDepth, false⟩ := by
  have hlength : 2 * (chars depth j).length ≤ 2 * (chars depth j).length + 2 := by omega
  have hread : Reader.value _ Reader.maxDepth (chars depth j ++ []) = _ :=
    Reader.reads_chars j hexact depth hlength nofun
  rw [List.append_nil] at hread
  rw [Document.ofText, String.toList_ofList, hread]
  rfl

/-- A written value is read as its normal form, unless it nests too deep. -/
theorem ofText_of_chars {j : Json} (hexact : j.Exact) (layout : Option Nat) :
    ofText (String.ofList (j.chars layout)) =
      if j.depth ≤ Reader.maxDepth then .ok j.normal else .error .nestingLimit := by
  rw [ofText, ofText_chars hexact]
  simp only [toJson_asRead]
  split
  · rfl
  · rfl

end Json

end ReportFlow
