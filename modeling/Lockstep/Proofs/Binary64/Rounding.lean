import Lockstep.Binary64.Basic
import Mathlib.Algebra.GroupWithZero.Nat
set_option autoImplicit false

/-!
# Rounding to binary64

What fits into a binary64 number is not rounded.  Rounding keeps the order of
integers, though not the strict order: two integers may have the same nearest
number.  Below `2 ^ 64` the nearest number is finite, and two integers that
share it are no more than `2048` apart.

The units of an integer are cut into blocks by their leading bit.  Inside of a
block all magnitudes are rounded to whole multiples of one weight, and the ends
of the block are multiples of that weight, so rounding does not leave the block.
That is why it keeps the order across blocks as well.
-/

namespace Lockstep.Binary64

/-! ## Quotients -/

/-- A quotient is rounded down if the rest is at most half of the divisor, or up
if it is at least half. -/
theorem roundQuotient_cases (num den : Nat) :
    (roundQuotient num den = num / den ∧ 2 * (num % den) ≤ den) ∨
      (roundQuotient num den = num / den + 1 ∧ den ≤ 2 * (num % den)) := by
  unfold roundQuotient
  dsimp only
  split
  · exact .inl ⟨rfl, by omega⟩
  · exact .inr ⟨rfl, by omega⟩

theorem roundQuotient_mul (quotient : Nat) {den : Nat} (pos : 0 < den) :
    roundQuotient (quotient * den) den = quotient := by
  simp [roundQuotient, Nat.mul_div_cancel quotient pos, pos]

theorem roundQuotient_mono {a b : Nat} (h : a ≤ b) (den : Nat) :
    roundQuotient a den ≤ roundQuotient b den := by
  have hquotient : a / den ≤ b / den := Nat.div_le_div_right h
  rcases Nat.lt_or_eq_of_le hquotient with hlt | heq
  · rcases roundQuotient_cases a den with ⟨ha, -⟩ | ⟨ha, -⟩ <;>
      rcases roundQuotient_cases b den with ⟨hb, -⟩ | ⟨hb, -⟩ <;> omega
  · -- of two rests over one quotient the larger is not rounded down if the
    -- smaller is rounded up
    have ha := Nat.div_add_mod a den
    have hb := Nat.div_add_mod b den
    rw [heq] at ha
    have hrest : a % den ≤ b % den := by omega
    unfold roundQuotient
    dsimp only
    rw [heq]
    split <;> split <;> omega

/-! ## Magnitudes -/

theorem unitsPerOne_eq : unitsPerOne = 2 ^ 1074 := by
  unfold unitsPerOne
  generalize 1074 = bits
  exact Nat.pow_eq

theorem unitsPerOne_pos : 0 < unitsPerOne := by
  rw [unitsPerOne_eq]
  generalize 1074 = bits
  exact Nat.two_pow_pos bits

theorem unitLimit_eq : unitLimit = 2 ^ limitBits := by
  unfold unitLimit
  generalize limitBits = bits
  exact Nat.pow_eq

theorem lastBit_pos (units : Nat) : 0 < lastBit units := Nat.two_pow_pos _

theorem nearestUnits_one (units : Nat) :
    nearestUnits units 1 = roundQuotient units (lastBit units) * lastBit units := by
  unfold nearestUnits
  dsimp only
  rw [Nat.div_one, Nat.one_mul]

theorem two_pow_log2_add (units more : Nat) :
    2 ^ (units.log2 + more) = 2 ^ (min 52 units.log2 + more) * lastBit units := by
  have hweight : lastBit units = 2 ^ (units.log2 - 52) := rfl
  rw [hweight, ← Nat.pow_add]
  congr 1
  omega

/-- Rounding stays between the powers of two around a magnitude. -/
theorem nearestUnits_bounds {units : Nat} (h : units ≠ 0) :
    2 ^ units.log2 ≤ nearestUnits units 1 ∧
      nearestUnits units 1 ≤ 2 ^ (units.log2 + 1) := by
  have hpos := lastBit_pos units
  have hlower : 2 ^ units.log2 ≤ units := Nat.log2_self_le h
  have hupper : units ≤ 2 ^ (units.log2 + 1) := Nat.le_of_lt Nat.lt_log2_self
  have hround := two_pow_log2_add units 0
  rw [Nat.add_zero] at hround
  rw [nearestUnits_one]
  constructor
  · rw [hround] at hlower ⊢
    have hmono := roundQuotient_mono hlower (lastBit units)
    rw [roundQuotient_mul _ hpos] at hmono
    exact Nat.mul_le_mul_right _ hmono
  · rw [two_pow_log2_add units 1] at hupper ⊢
    have hmono := roundQuotient_mono hupper (lastBit units)
    rw [roundQuotient_mul _ hpos] at hmono
    exact Nat.mul_le_mul_right _ hmono

theorem log2_mono {a b : Nat} (h : a ≤ b) : a.log2 ≤ b.log2 := by
  by_cases ha : a = 0
  · simp [ha]
  · exact (Nat.le_log2 (by omega)).mpr (Nat.le_trans (Nat.log2_self_le ha) h)

/-- Rounding keeps the order of magnitudes. -/
theorem nearestUnits_mono {a b : Nat} (h : a ≤ b) :
    nearestUnits a 1 ≤ nearestUnits b 1 := by
  by_cases ha : a = 0
  · rw [ha]
    exact Nat.zero_le _
  · have hb : b ≠ 0 := by omega
    rcases Nat.lt_or_eq_of_le (log2_mono h) with hlt | heq
    · calc nearestUnits a 1
          ≤ 2 ^ (a.log2 + 1) := (nearestUnits_bounds ha).2
        _ ≤ 2 ^ b.log2 := Nat.pow_le_pow_right (by decide) hlt
        _ ≤ nearestUnits b 1 := (nearestUnits_bounds hb).1
    · have hweight : lastBit a = lastBit b := by
        unfold lastBit
        rw [heq]
      rw [nearestUnits_one, nearestUnits_one, hweight]
      exact Nat.mul_le_mul_right _ (roundQuotient_mono h _)

/-- A magnitude is rounded by half of the weight of its last bit at most. -/
theorem nearestUnits_error (units : Nat) :
    2 * nearestUnits units 1 ≤ 2 * units + lastBit units ∧
      2 * units ≤ 2 * nearestUnits units 1 + lastBit units := by
  have hsplit := Nat.div_add_mod units (lastBit units)
  have hrest := Nat.mod_lt units (lastBit_pos units)
  rw [nearestUnits_one]
  rw [Nat.mul_comm] at hsplit
  rcases roundQuotient_cases units (lastBit units)
    with ⟨hround, hhalf⟩ | ⟨hround, hhalf⟩
  · rw [hround]
    omega
  · rw [hround, Nat.add_mul, Nat.one_mul]
    omega

/-- What rounding gives has few enough bits, and is finite unless its leading
bit is beyond all bounds. -/
theorem fits_nearestUnits {units : Nat} (h : units.log2 + 1 < limitBits) :
    Fits (nearestUnits units 1) := by
  by_cases hzero : units = 0
  · rw [hzero]
    exact ⟨unitLimit_pos, Nat.zero_mod _⟩
  · obtain ⟨hlower, hupper⟩ := nearestUnits_bounds hzero
    refine ⟨?_, ?_⟩
    · rw [unitLimit_eq]
      exact Nat.lt_of_le_of_lt hupper (Nat.pow_lt_pow_right (by decide) h)
    · have hsome : nearestUnits units 1 ≠ 0 :=
        Nat.ne_zero_of_lt (Nat.lt_of_lt_of_le (Nat.two_pow_pos _) hlower)
      rcases Nat.lt_or_eq_of_le hupper with hlt | heq
      · have hlog : (nearestUnits units 1).log2 = units.log2 :=
          (Nat.log2_eq_iff hsome).mpr ⟨hlower, hlt⟩
        rw [hlog, nearestUnits_one]
        exact Nat.mul_mod_left _ _
      · rw [heq, Nat.log2_two_pow]
        exact Nat.mod_eq_zero_of_dvd (Nat.pow_dvd_pow 2 (Nat.sub_le _ _))

theorem nearestUnits_mul {units : Nat} (h : Fits units) {den : Nat} (hden : 0 < den) :
    nearestUnits (units * den) den = units := by
  obtain ⟨significand, hunits⟩ : lastBit units ∣ units := Nat.dvd_of_mod_eq_zero h.2
  have hexact : units * den = significand * (den * lastBit units) := by
    calc units * den = lastBit units * significand * den := congrArg (· * den) hunits
      _ = significand * (den * lastBit units) := by
        rw [Nat.mul_comm (lastBit units), Nat.mul_assoc, Nat.mul_comm den]
  have hround : roundQuotient (units * den) (den * lastBit units) = significand := by
    rw [hexact, roundQuotient_mul _ (Nat.mul_pos hden (lastBit_pos units))]
  rw [nearestUnits, Nat.mul_div_cancel units hden, hround, Nat.mul_comm, ← hunits]

theorem ofRatio?_exact (f : Binary64) {den : Nat} (hden : 0 < den) :
    ofRatio? f.negative (f.units * den) den = some f := by
  rw [ofRatio?, nearestUnits_mul f.fits hden, ofUnits?, dif_pos f.fits]

/-! ## Integers -/

/-- The units of the number nearest to an integer, as long as it is finite. -/
def roundedUnits (n : Int) : Int :=
  let magnitude := nearestUnits (n.natAbs * unitsPerOne) 1
  if n < 0 then -(magnitude : Int) else magnitude

/-- Rounding keeps the order of integers. -/
theorem roundedUnits_mono {m n : Int} (h : m ≤ n) :
    roundedUnits m ≤ roundedUnits n := by
  have hmono : ∀ a b : Nat, a ≤ b →
      nearestUnits (a * unitsPerOne) 1 ≤ nearestUnits (b * unitsPerOne) 1 :=
    fun a b hab => nearestUnits_mono (Nat.mul_le_mul_right _ hab)
  unfold roundedUnits
  dsimp only
  split
  · split
    · exact Int.neg_le_neg (Int.ofNat_le.mpr (hmono _ _ (by omega)))
    · omega
  · split
    · omega
    · exact Int.ofNat_le.mpr (hmono _ _ (by omega))

variable {n : Int}

theorem log2_mul_two_pow_lt {a bits : Nat} (h : a < 2 ^ bits) (pos : 0 < bits)
    (shift : Nat) :
    (a * 2 ^ shift).log2 < bits + shift := by
  by_cases hzero : a * 2 ^ shift = 0
  · rw [hzero, Nat.log2_zero]
    omega
  · rw [Nat.log2_lt hzero, Nat.pow_add]
    exact Nat.mul_lt_mul_of_pos_right h (Nat.two_pow_pos _)

theorem lastBit_mul_two_pow_le {a : Nat} (h : a < 2 ^ 64) (shift : Nat) :
    lastBit (a * 2 ^ shift) ≤ 2048 * 2 ^ shift := by
  have hlog := log2_mul_two_pow_lt h (by decide) shift
  have hpow : lastBit (a * 2 ^ shift) ≤ 2 ^ (11 + shift) :=
    Nat.pow_le_pow_right (by decide) (by omega)
  rwa [Nat.pow_add] at hpow

/-- The number nearest to an integer of 64 bits is finite. -/
theorem exists_ofInt? (h : n.natAbs < 2 ^ 64) :
    ∃ x, ofInt? n = some x ∧ x.negative = decide (n < 0) ∧
      x.units = nearestUnits (n.natAbs * unitsPerOne) 1 := by
  have hfits : Fits (nearestUnits (n.natAbs * unitsPerOne) 1) := by
    have hlog := log2_mul_two_pow_lt h (by decide) 1074
    rw [← unitsPerOne_eq] at hlog
    refine fits_nearestUnits ?_
    unfold limitBits
    omega
  unfold ofInt? ofRatio? ofUnits?
  rw [dif_pos hfits]
  exact ⟨_, rfl, rfl, rfl⟩

theorem exists_signedUnits (h : n.natAbs < 2 ^ 64) :
    ∃ x, ofInt? n = some x ∧ x.signedUnits = roundedUnits n := by
  obtain ⟨x, hx, hnegative, hunits⟩ := exists_ofInt? h
  refine ⟨x, hx, ?_⟩
  unfold signedUnits roundedUnits
  rw [hnegative, hunits]
  simp

theorem roundedUnits_neg_iff (n : Int) : roundedUnits n < 0 ↔ n < 0 := by
  unfold roundedUnits
  dsimp only
  split
  · rename_i hneg
    have hunits : n.natAbs * unitsPerOne ≠ 0 :=
      Nat.ne_of_gt (Nat.mul_pos (Int.natAbs_pos.mpr (by omega)) unitsPerOne_pos)
    have hpos : 0 < nearestUnits (n.natAbs * unitsPerOne) 1 :=
      Nat.lt_of_lt_of_le (Nat.two_pow_pos _) (nearestUnits_bounds hunits).1
    omega
  · omega

/-- Two integers of 64 bits have one nearest number exactly if their units are
rounded to the same. -/
theorem ofInt?_eq_iff {m : Int} (hm : m.natAbs < 2 ^ 64) (hn : n.natAbs < 2 ^ 64) :
    ofInt? m = ofInt? n ↔ roundedUnits m = roundedUnits n := by
  obtain ⟨x, hx, hxvalue⟩ := exists_signedUnits hm
  obtain ⟨y, hy, hyvalue⟩ := exists_signedUnits hn
  obtain ⟨x', hx', hxnegative, -⟩ := exists_ofInt? hm
  obtain ⟨y', hy', hynegative, -⟩ := exists_ofInt? hn
  obtain rfl : x' = x := Option.some.inj (hx'.symm.trans hx)
  obtain rfl : y' = y := Option.some.inj (hy'.symm.trans hy)
  rw [hx, hy, Option.some.injEq, ← hxvalue, ← hyvalue]
  constructor
  · exact congrArg signedUnits
  · intro hvalue
    have hsign : x'.negative = y'.negative := by
      rw [hxnegative, hynegative, decide_eq_decide, ← roundedUnits_neg_iff m,
        ← roundedUnits_neg_iff n, ← hxvalue, ← hyvalue, hvalue]
    obtain ⟨xnegative, xunits, xfits⟩ := x'
    obtain ⟨ynegative, yunits, yfits⟩ := y'
    cases hsign
    have hunits : xunits = yunits := by
      unfold signedUnits at hvalue
      dsimp only at hvalue
      split at hvalue <;> omega
    cases hunits
    rfl

/-- An integer of 64 bits is rounded by no more than `1024`. -/
theorem roundedUnits_error (h : n.natAbs < 2 ^ 64) :
    (roundedUnits n - n * unitsPerOne).natAbs ≤ 1024 * unitsPerOne := by
  have hweight := lastBit_mul_two_pow_le h 1074
  rw [← unitsPerOne_eq] at hweight
  obtain ⟨hlower, hupper⟩ := nearestUnits_error (n.natAbs * unitsPerOne)
  have hsign : n * (unitsPerOne : Int) =
      if n < 0 then -((n.natAbs * unitsPerOne : Nat) : Int)
          else ((n.natAbs * unitsPerOne : Nat) : Int) := by
    rw [Int.natCast_mul]
    split
    · rw [← Int.neg_mul]
      congr 1
      omega
    · congr 1
      omega
  rw [hsign]
  unfold roundedUnits
  dsimp only
  generalize unitsPerOne = one at hweight hlower hupper ⊢
  generalize n.natAbs * one = units at hweight hlower hupper ⊢
  split <;> omega

/-- Integers of 64 bits that have the same nearest number are close to each other. -/
theorem natAbs_sub_le_of_roundedUnits {m : Int} (hm : m.natAbs < 2 ^ 64)
    (hn : n.natAbs < 2 ^ 64) (same : roundedUnits m = roundedUnits n) :
    (m - n).natAbs ≤ 2048 := by
  have hm' := roundedUnits_error hm
  have hn' := roundedUnits_error hn
  rw [same] at hm'
  have hunits : (m * (unitsPerOne : Int) - n * unitsPerOne).natAbs ≤
      2048 * unitsPerOne := by
    generalize unitsPerOne = one at hm' hn' ⊢
    generalize m * (one : Int) = a at hm' ⊢
    generalize n * (one : Int) = b at hn' ⊢
    omega
  rw [← Int.sub_mul, Int.natAbs_mul, Int.natAbs_natCast] at hunits
  exact Nat.le_of_mul_le_mul_right hunits unitsPerOne_pos

/-- The order of the nearest numbers is the order of the integers, unless
they are one number. -/
theorem compare_roundedUnits {m : Int} (differ : roundedUnits m ≠ roundedUnits n) :
    compare (roundedUnits m) (roundedUnits n) = compare m n := by
  rcases Int.lt_trichotomy m n with hlt | heq | hgt
  · have hrounded := roundedUnits_mono (Int.le_of_lt hlt)
    rw [Int.compare_eq_lt.mpr hlt, Int.compare_eq_lt]
    omega
  · exact absurd (congrArg roundedUnits heq) differ
  · have hrounded := roundedUnits_mono (Int.le_of_lt hgt)
    rw [Int.compare_eq_gt.mpr hgt, Int.compare_eq_gt]
    omega

end Lockstep.Binary64
