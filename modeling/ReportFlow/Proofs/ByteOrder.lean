import Mathlib.Data.String.Basic
import Mathlib.Tactic.SplitIfs

/-!
The order of texts is that of the bytes they are written as: of two characters the greater one has
the greater bytes, whatever follows them.
-/

namespace ReportFlow

namespace Text

def bytes (s : String) : List UInt8 := s.toUTF8.data.toList

theorem bytes_eq_flatMap (s : String) : bytes s = s.toList.flatMap String.utf8EncodeChar := by
  rw [bytes, String.toUTF8_eq_toByteArray, ← s.utf8Encode_toList, List.utf8Encode]
  simp

/-- Greater numbers below the bound are written as greater bytes, whatever follows. -/
def Ascends (write : Nat → List UInt8) (bound : Nat) : Prop :=
  ∀ m n, m < n → n < bound → ∀ more rest, write m ++ more < write n ++ rest

theorem first_lt {a b : Nat} (h : a < b) (hb : b < 256) (more rest : List UInt8) :
    UInt8.ofNat a :: more < UInt8.ofNat b :: rest := by
  apply List.cons_lt_cons_iff.mpr
  left
  rw [UInt8.lt_iff_toNat_lt, UInt8.toNat_ofNat', UInt8.toNat_ofNat']
  omega

theorem ascends_first (size base : Nat) (h : size + base ≤ 256) :
    Ascends (fun n => [UInt8.ofNat (n % size + base)]) size := by
  intro m n hlt hn more rest
  simp only [Nat.mod_eq_of_lt hn, Nat.mod_eq_of_lt (Nat.lt_trans hlt hn)]
  exact first_lt (by omega) (by omega) more rest

/-- The lowest six bits are written in a byte of their own. -/
theorem Ascends.snoc {write : Nat → List UInt8} {bound : Nat} (h : Ascends write bound) :
    Ascends (fun n => write (n / 64) ++ [UInt8.ofNat (n % 64 + 128)]) (bound * 64) := by
  intro m n hlt hn more rest
  simp only [List.append_assoc, List.singleton_append]
  by_cases hhigh : m / 64 < n / 64
  · exact h _ _ hhigh (Nat.div_lt_of_lt_mul (by omega)) _ _
  · have hsame : m / 64 = n / 64 := by omega
    rw [hsame]
    exact List.append_left_lt (first_lt (by omega) (by omega) more rest)

theorem toNat_lt (c : Char) : c.val.toNat < 0x110000 := by
  rcases c.valid with h | h
  · exact Nat.lt_trans h (by decide)
  · exact h.2

theorem encoded_lt {c d : Char} (h : c < d) (more rest : List UInt8) :
    String.utf8EncodeChar c ++ more < String.utf8EncodeChar d ++ rest := by
  have hlt : c.val.toNat < d.val.toNat := h
  have hmax := toNat_lt d
  have htwo := (ascends_first 32 192 (by decide)).snoc
  have hthree := (ascends_first 16 224 (by decide)).snoc.snoc
  have hfour := (ascends_first 8 240 (by decide)).snoc.snoc.snoc
  unfold Ascends at htwo hthree hfour
  unfold String.utf8EncodeChar
  simp only [Nat.div_div_eq_div_mul, Nat.reduceMul, List.cons_append, List.nil_append]
    at htwo hthree hfour ⊢
  generalize c.val.toNat = m at hlt
  generalize d.val.toNat = n at hlt hmax
  -- a smaller character never takes more bytes, and between sizes the first byte decides
  split_ifs <;> try omega
  · exact first_lt hlt (by omega) more rest
  · exact first_lt (by omega) (by omega) _ _
  · exact first_lt (by omega) (by omega) _ _
  · exact first_lt (by omega) (by omega) _ _
  · exact htwo m n hlt (by omega) more rest
  · exact first_lt (by omega) (by omega) _ _
  · exact first_lt (by omega) (by omega) _ _
  · exact hthree m n hlt (by omega) more rest
  · exact first_lt (by omega) (by omega) _ _
  · exact hfour m n hlt (by omega) more rest

theorem flatMap_encoded_lt {cs ds : List Char} (h : cs < ds) :
    cs.flatMap String.utf8EncodeChar < ds.flatMap String.utf8EncodeChar := by
  induction cs generalizing ds with
  | nil =>
    cases ds with
    | nil => exact absurd h (List.not_lt_nil [])
    | cons d ds =>
      obtain ⟨first, more, hfirst⟩ := List.exists_cons_of_ne_nil (@String.utf8EncodeChar_ne_nil d)
      rw [List.flatMap_cons, hfirst]
      exact List.nil_lt_cons first _
  | cons c cs ih =>
    cases ds with
    | nil => exact absurd h (List.not_lt_nil _)
    | cons d ds =>
      rw [List.flatMap_cons, List.flatMap_cons]
      rcases List.cons_lt_cons_iff.mp h with hlt | ⟨rfl, hrest⟩
      · exact encoded_lt hlt _ _
      · exact List.append_left_lt (ih hrest)

theorem bytes_lt {a b : String} (h : a < b) : bytes a < bytes b := by
  rw [bytes_eq_flatMap, bytes_eq_flatMap]
  exact flatMap_encoded_lt (String.lt_iff_toList_lt.mp h)

end Text

end ReportFlow
