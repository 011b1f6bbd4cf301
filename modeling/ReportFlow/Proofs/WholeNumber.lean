import Mathlib.Algebra.Group.Nat.Defs
import Mathlib.Tactic.SplitIfs
import ReportFlow.Numeric.Double

/-!
Whole numbers as doubles. One that is not zero is never read as zero. One of at most 53 bits is not
rounded at all, and neither is a product of that size.
-/

namespace ReportFlow

namespace Double

theorem le_roundHalfEven (num den : Nat) : num / den ≤ roundHalfEven num den := by
  unfold roundHalfEven
  dsimp only
  split_ifs <;> omega

theorem nearestPattern_pos {num den : Nat} (hd : 0 < den) (h : den ≤ num) :
    0 < nearestPattern num den := by
  have hq : 0 < num / den := Nat.div_pos h hd
  unfold nearestPattern
  dsimp only
  by_cases hz : Nat.log2 (num / den) - 52 = 0
  · have hr := le_roundHalfEven num den
    rw [hz, Nat.pow_zero, Nat.mul_one]
    omega
  · exact Nat.add_pos_left (Nat.mul_pos (Nat.pos_of_ne_zero hz) (Nat.two_pow_pos 52)) _

/-- Below the pattern of infinity a pattern is the bits themselves. -/
theorem ofPattern?_of_lt (pattern : Nat) (h : pattern < 2047 * 2 ^ 52) :
    ∃ d, ofPattern? false pattern = some d ∧ d.bits.toNat = pattern := by
  have hb : (UInt64.ofNat pattern).toNat = pattern := by
    rw [UInt64.toNat_ofNat']
    omega
  have hf : pattern < 2047 * 2 ^ 52 ∧
      (UInt64.ofNat pattern).toNat / 2 ^ 52 % 2 ^ 11 ≠ 2047 := by
    rw [hb]
    omega
  refine ⟨⟨UInt64.ofNat pattern, hf.2⟩, ?_, hb⟩
  unfold ofPattern?
  exact dif_pos hf

theorem bits_of_ofPattern? {pattern : Nat} {d : Double} (h : ofPattern? false pattern = some d) :
    pattern < 2047 * 2 ^ 52 ∧ d.bits.toNat = pattern := by
  have hlt : pattern < 2047 * 2 ^ 52 := by
    refine Nat.lt_of_not_le fun hle => ?_
    rw [ofPattern?, dif_neg fun hfinite => Nat.not_lt.mpr hle hfinite.1] at h
    cases h
  obtain ⟨e, he, hbits⟩ := ofPattern?_of_lt pattern hlt
  obtain rfl : e = d := Option.some.inj (he.symm.trans h)
  exact ⟨hlt, hbits⟩

theorem isZero_of_bits {d : Double} (hp : 0 < d.bits.toNat) (hs : d.bits.toNat < 2 ^ 63) :
    d.isZero = false := by
  have hsig : d.significand ≠ 0 := by
    unfold significand exponentField fraction
    split_ifs with h
    · omega
    · omega
  have hunits : d.units ≠ 0 := Nat.mul_ne_zero hsig (Nat.pos_iff_ne_zero.mp (Nat.two_pow_pos _))
  simp [isZero, hunits]

theorem mul_two_pow_lt {n a : Nat} (h : n < 2 ^ a) (b : Nat) : n * 2 ^ b < 2 ^ (a + b) := by
  rw [Nat.pow_add]
  exact Nat.mul_lt_mul_of_pos_right h (Nat.two_pow_pos b)

theorem unitsPerOne_eq : unitsPerOne = 2 ^ 1074 := by
  simp only [unitsPerOne]

theorem unitsPerOne_pos : 0 < unitsPerOne := by
  obtain ⟨e, he⟩ : ∃ e, unitsPerOne = 2 ^ e := ⟨_, unitsPerOne_eq⟩
  rw [he]
  exact Nat.two_pow_pos e

/-- However large the number, it never comes out as zero. -/
theorem isZero_ofNat {n : Nat} (hp : 0 < n) : (ofNat n).isZero = false := by
  have hunits : 1 ≤ n * unitsPerOne := Nat.mul_pos hp unitsPerOne_pos
  have hpositive := nearestPattern_pos Nat.one_pos hunits
  cases hd : ofNat? false n with
  | none =>
    rw [ofNat, hd]
    exact isZero_of_bits (by decide) (by decide)
  | some d =>
    obtain ⟨hfinite, hbits⟩ := bits_of_ofPattern? hd
    rw [ofNat, hd]
    exact isZero_of_bits (d := d) (by omega) (by omega)

/-! ## Numbers that are not rounded -/

/-- A quotient without remainder is left as it is. -/
theorem roundHalfEven_mul (q : Nat) {den : Nat} (hden : 0 < den) : roundHalfEven (q * den) den = q := by
  simp [roundHalfEven, Nat.mul_div_cancel _ hden, Nat.mul_mod_left, hden]

/-- The bits that are left when those past the 53 of a significand are dropped. -/
theorem kept_bits {q t drop : Nat} (hdrop : q.log2 - 52 = drop) (hq : q = t * 2 ^ drop) :
    t < 2 ^ 53 ∧ (drop = 0 ∨ 2 ^ 52 ≤ t) := by
  have hupper : q < 2 ^ (53 + drop) :=
    Nat.lt_of_lt_of_le Nat.lt_log2_self (Nat.pow_le_pow_right (by decide) (by omega))
  rw [hq, Nat.pow_add] at hupper
  refine ⟨Nat.lt_of_mul_lt_mul_right hupper, ?_⟩
  rcases Nat.eq_zero_or_pos drop with hzero | hpos
  · exact .inl hzero
  · have hne : q ≠ 0 := by
      rintro rfl
      rw [Nat.log2_zero] at hdrop
      omega
    have hlower : 2 ^ (52 + drop) ≤ q := (Nat.le_log2 hne).mp (by omega)
    rw [hq, Nat.pow_add] at hlower
    exact .inr (Nat.le_of_mul_le_mul_right hlower (Nat.two_pow_pos drop))

/-- Nothing is lost of a significand of 53 bits, whatever its exponent. -/
theorem nearestPattern_exact {s e den : Nat} (hden : 0 < den) (hs : s < 2 ^ 53) :
    ∃ drop t, nearestPattern (s * 2 ^ e * den) den = drop * 2 ^ 52 + t ∧ t * 2 ^ drop = s * 2 ^ e ∧
      drop ≤ e ∧ t < 2 ^ 53 ∧ (drop = 0 ∨ 2 ^ 52 ≤ t) := by
  have hle : (s * 2 ^ e).log2 - 52 ≤ e := by
    rcases Nat.eq_zero_or_pos (s * 2 ^ e) with hzero | hpos
    · rw [hzero, Nat.log2_zero]
      omega
    · have hlog := (Nat.log2_lt (by omega)).mpr (mul_two_pow_lt hs e)
      omega
  generalize hdrop : (s * 2 ^ e).log2 - 52 = drop at hle
  have hsplit : s * 2 ^ e = s * 2 ^ (e - drop) * 2 ^ drop := by
    rw [Nat.mul_assoc, ← Nat.pow_add, Nat.sub_add_cancel hle]
  refine ⟨drop, s * 2 ^ (e - drop), ?_, hsplit.symm, hle, kept_bits hdrop hsplit⟩
  have hnum : s * 2 ^ e * den = s * 2 ^ (e - drop) * (den * 2 ^ drop) := by
    rw [hsplit, Nat.mul_assoc, Nat.mul_comm (2 ^ drop) den]
  unfold nearestPattern
  simp only [Nat.mul_div_cancel _ hden, hdrop]
  rw [hnum, roundHalfEven_mul _ (Nat.mul_pos hden (Nat.two_pow_pos drop))]

/-- The magnitude that a pattern stands for. -/
theorem units_of_bits {d : Double} {drop t : Nat} (hbits : d.bits.toNat = drop * 2 ^ 52 + t)
    (hdrop : drop < 2046) (ht : t < 2 ^ 53) (hnormal : drop = 0 ∨ 2 ^ 52 ≤ t) :
    d.isNegative = false ∧ d.units = t * 2 ^ drop := by
  constructor
  · simp only [isNegative, decide_eq_false_iff_not]
    omega
  · unfold units significand step exponentField fraction
    rw [hbits]
    by_cases hsmall : t < 2 ^ 52
    · obtain rfl : drop = 0 := by omega
      have hfield : (0 * 2 ^ 52 + t) / 2 ^ 52 % 2 ^ 11 = 0 := by omega
      rw [hfield, if_pos rfl]
      congr 1
      omega
    · have hfield : (drop * 2 ^ 52 + t) / 2 ^ 52 % 2 ^ 11 = drop + 1 := by omega
      rw [hfield, if_neg (Nat.succ_ne_zero drop), Nat.add_sub_cancel]
      congr 1
      omega

theorem ofUnits?_exact {num s e u den : Nat} (hnum : num = s * u * den) (hu : u = 2 ^ e)
    (hden : 0 < den) (hs : s < 2 ^ 53) (he : e < 2045) :
    ∃ d, ofUnits? false num den = some d ∧ d.isNegative = false ∧ d.units = s * u := by
  subst hu hnum
  obtain ⟨drop, t, hpattern, hunits, hdrop, ht, hnormal⟩ := nearestPattern_exact (e := e) hden hs
  obtain ⟨d, hd, hbits⟩ := ofPattern?_of_lt (drop * 2 ^ 52 + t) (by omega)
  refine ⟨d, ?_, ?_⟩
  · rw [ofUnits?, hpattern, hd]
  · rw [← hunits]
    exact units_of_bits hbits (by omega) ht hnormal

/-- The double stands for the number itself and not for a neighbour of it. -/
structure Exactly (d : Double) (n : Nat) : Prop where
  sign : d.isNegative = false
  units : d.units = n * unitsPerOne

theorem ofUnits?_exactly {num n den : Nat} (hnum : num = n * unitsPerOne * den) (hden : 0 < den)
    (hn : n < 2 ^ 53) : ∃ d, ofUnits? false num den = some d ∧ d.Exactly n := by
  obtain ⟨d, hd, hsign, hunits⟩ := ofUnits?_exact hnum unitsPerOne_eq hden hn (by decide)
  exact ⟨d, hd, hsign, hunits⟩

theorem exactly_ofNat {n : Nat} (h : n < 2 ^ 53) : (ofNat n).Exactly n := by
  obtain ⟨d, hd, hexact⟩ := ofUnits?_exactly (Nat.mul_one (n * unitsPerOne)).symm Nat.one_pos h
  have hofNat : ofNat n = d := by
    rw [ofNat, ofNat?, hd]
    rfl
  exact hofNat ▸ hexact

namespace Exactly

variable {a b d : Double} {m n : Nat}

theorem mul (ha : a.Exactly m) (hb : b.Exactly n) (h : m * n < 2 ^ 53) :
    ∃ d, a.mul? b = some d ∧ d.Exactly (m * n) := by
  have hproduct : a.units * b.units = m * n * unitsPerOne * unitsPerOne := by
    rw [ha.units, hb.units]
    generalize unitsPerOne = one
    ac_rfl
  obtain ⟨d, hd, hexact⟩ := ofUnits?_exactly hproduct unitsPerOne_pos h
  refine ⟨d, ?_, hexact⟩
  rw [mul?, ha.sign, hb.sign]
  exact hd

theorem toUInt64 (h : d.Exactly n) (hn : n < 2 ^ 64) : d.toUInt64.toNat = n := by
  unfold Double.toUInt64
  rw [h.sign, if_neg Bool.false_ne_true, h.units, Nat.mul_div_cancel _ unitsPerOne_pos]
  exact UInt64.toNat_ofNatClamp_of_lt hn

end Exactly

end Double

end ReportFlow
