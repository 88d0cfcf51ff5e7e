import Lockstep.Proofs.Binary64.Rounding
import Lockstep.Query.Predicate
set_option autoImplicit false

/-!
# Comparing integers

Integers are equal or different as the integers that they are.  They are ordered
so as well if both are signed integers of 64 bits.  Otherwise each is rounded to
the nearest binary64 number first, and two integers that share it are neither
less nor greater, although they are different.  This happens only beyond the
signed integers, and only to integers that are no more than `2048` apart.
-/

namespace Lockstep

/-- The relation between integers that a comparison stands for. -/
def Comparison.Relates : Comparison → Int → Int → Prop
  | .eq, m, n => m = n
  | .ne, m, n => m ≠ n
  | .ge, m, n => n ≤ m
  | .gt, m, n => n < m
  | .le, m, n => m ≤ n
  | .lt, m, n => m < n

instance (c : Comparison) (m n : Int) : Decidable (c.Relates m n) :=
  match c with
  | .eq => inferInstanceAs (Decidable (m = n))
  | .ne => inferInstanceAs (Decidable (m ≠ n))
  | .ge => inferInstanceAs (Decidable (n ≤ m))
  | .gt => inferInstanceAs (Decidable (n < m))
  | .le => inferInstanceAs (Decidable (m ≤ n))
  | .lt => inferInstanceAs (Decidable (m < n))

namespace Number

/-- An integer of 64 bits, signed or not. -/
def IsWord (n : Int) : Prop := -maxSigned - 1 ≤ n ∧ n ≤ 2 * maxSigned + 1

instance (n : Int) : Decidable (IsWord n) := inferInstanceAs (Decidable (_ ∧ _))

/-- Two integers whose order can be told: they are one, or both are signed
integers of 64 bits, or they are rounded to different numbers. -/
def ToldApart (m n : Int) : Prop :=
  m = n ∨ (m ≤ maxSigned ∧ n ≤ maxSigned) ∨ Binary64.ofInt? m ≠ Binary64.ofInt? n

variable {m n : Int}

theorem IsWord.natAbs_lt (h : IsWord n) : n.natAbs < 2 ^ 64 := by
  unfold IsWord maxSigned at h
  omega

theorem IsWord.asSigned?_eq (h : IsWord n) :
    (Number.int n).asSigned? = if n ≤ maxSigned then some n else none := by
  unfold asSigned?
  simp only [h.1, true_and]

theorem asBinary64?_int (n : Int) : (Number.int n).asBinary64? = Binary64.ofInt? n :=
  rfl

/-- Signed integers of 64 bits are ordered as they are, all others by what
they are rounded to. -/
theorem order?_int (hm : IsWord m) (hn : IsWord n) :
    (Number.int m).order? (.int n) = some (
      if m ≤ maxSigned ∧ n ≤ maxSigned then compare m n
      else compare (Binary64.roundedUnits m) (Binary64.roundedUnits n)) := by
  obtain ⟨x, hx, hxunits⟩ := Binary64.exists_signedUnits hm.natAbs_lt
  obtain ⟨y, hy, hyunits⟩ := Binary64.exists_signedUnits hn.natAbs_lt
  have hrounded : x.order y =
      compare (Binary64.roundedUnits m) (Binary64.roundedUnits n) := by
    rw [← hxunits, ← hyunits]
    rfl
  unfold order?
  rw [hm.asSigned?_eq, hn.asSigned?_eq, asBinary64?_int, asBinary64?_int, hx, hy, ← hrounded]
  by_cases hmsigned : m ≤ maxSigned <;> by_cases hnsigned : n ≤ maxSigned <;>
    simp [hmsigned, hnsigned]

/-- Integers whose order can be told are ordered as they are. -/
theorem ToldApart.order? (h : ToldApart m n) (hm : IsWord m) (hn : IsWord n) :
    (Number.int m).order? (.int n) = some (compare m n) := by
  rw [order?_int hm hn]
  split
  · rfl
  · rename_i hsigned
    rcases h with rfl | hboth | hdiffer
    · rw [Int.compare_eq_eq.mpr rfl, Int.compare_eq_eq.mpr rfl]
    · exact absurd hboth hsigned
    · rw [Ne, Binary64.ofInt?_eq_iff hm.natAbs_lt hn.natAbs_lt] at hdiffer
      rw [Binary64.compare_roundedUnits hdiffer]

/-- Others pass for the same. -/
theorem order?_of_not_toldApart (h : ¬ ToldApart m n) (hm : IsWord m) (hn : IsWord n) :
    (Number.int m).order? (.int n) = some .eq := by
  unfold ToldApart at h
  rw [not_or, not_or, Decidable.not_not,
    Binary64.ofInt?_eq_iff hm.natAbs_lt hn.natAbs_lt] at h
  obtain ⟨-, hsigned, hsame⟩ := h
  rw [order?_int hm hn, if_neg hsigned, Int.compare_eq_eq.mpr hsame]

/-- Integers that are far apart can be told apart. -/
theorem toldApart_of_lt_natAbs_sub (hm : IsWord m) (hn : IsWord n)
    (far : 2048 < (m - n).natAbs) :
    ToldApart m n := by
  refine .inr (.inr fun hsame => ?_)
  rw [Binary64.ofInt?_eq_iff hm.natAbs_lt hn.natAbs_lt] at hsame
  exact Nat.not_le.mpr far
    (Binary64.natAbs_sub_le_of_roundedUnits hm.natAbs_lt hn.natAbs_lt hsame)

end Number

theorem Value.equal_int (m n : Int) :
    (Value.int m).equal (.int n) = decide (m = n) := by
  rw [Bool.eq_iff_iff]
  simp [Value.int, Value.equal, Number.equal]

theorem Value.sameType_int (m n : Int) : (Value.int m).sameType (.int n) = true := rfl

/-- What a comparison of integers comes to, once their order is known. -/
theorem Comparison.holds_int {m n : Int} {order : Ordering}
    (h : (Number.int m).order? (.int n) = some order) (c : Comparison) :
    c.holds (.int m) (.int n) = match c with
      | .eq => decide (m = n)
      | .ne => decide (m ≠ n)
      | .ge => order.isGE
      | .gt => order.isGT
      | .le => order.isLE
      | .lt => order.isLT := by
  have horder : (Value.int m).order? (.int n) = some order := h
  unfold holds
  rw [horder]
  cases c <;> simp [Value.equal_int, Value.sameType_int]

namespace Predicate

/-- A predicate on a field that is an integer, with an integer as its operand,
holds exactly if the two stand in its relation, as long as their order can be
told.  Otherwise they are different, and the predicate holds exactly if it asks
for that, or lets equal integers pass.  All integers of 64 bits that are more
than `2048` apart can be told apart, and all that are signed. -/
theorem holds_iff_relates {row : Value} {field : String} {m n : Int}
    (bound : row.get? field = some (.int m)) (hm : Number.IsWord m)
    (hn : Number.IsWord n) :
    (Number.ToldApart m n → ∀ c : Comparison,
      Predicate.holds ⟨field, c, .int n⟩ row = true ↔ c.Relates m n) ∧
    (¬ Number.ToldApart m n → m ≠ n ∧ ∀ c : Comparison,
      Predicate.holds ⟨field, c, .int n⟩ row = true ↔ c = .ne ∨ c = .le ∨ c = .ge) ∧
    (2048 < (m - n).natAbs ∨ m ≤ Number.maxSigned ∧ n ≤ Number.maxSigned →
      Number.ToldApart m n) := by
  have hcompare : ∀ c : Comparison,
      Predicate.holds ⟨field, c, .int n⟩ row = c.holds (.int m) (.int n) := by
    intro c
    unfold Predicate.holds
    dsimp only
    rw [bound]
    rfl
  refine ⟨fun htold c => ?_,
    fun huntold => ⟨fun hsame => huntold (.inl hsame), fun c => ?_⟩, ?_⟩
  · rw [hcompare, Comparison.holds_int (htold.order? hm hn)]
    cases c with
    | eq | ne => exact decide_eq_true_iff
    | ge => exact Int.isGE_compare
    | le => exact Int.isLE_compare
    | gt => exact Ordering.isGT_iff_eq_gt.trans Int.compare_eq_gt
    | lt => exact Ordering.isLT_iff_eq_lt.trans Int.compare_eq_lt
  · have hdiffer : m ≠ n := fun hsame => huntold (.inl hsame)
    rw [hcompare, Comparison.holds_int (Number.order?_of_not_toldApart huntold hm hn)]
    cases c <;> simp [hdiffer]
  · rintro (hfar | hsigned)
    · exact Number.toldApart_of_lt_natAbs_sub hm hn hfar
    · exact .inr (.inl hsigned)

/-- A row whose only field is an integer. -/
def rowOf (n : Int) : Value := .ofFields [("n", .int n)]

/-- The largest integer of 64 bits is told from the largest signed
one, and is greater. -/
theorem holds_iff_relates_largest :
    (rowOf 0xFFFFFFFFFFFFFFFF).get? "n" = some (.int 0xFFFFFFFFFFFFFFFF) ∧
      Number.IsWord 0xFFFFFFFFFFFFFFFF ∧ Number.IsWord Number.maxSigned ∧
      (∀ c : Comparison,
        Predicate.holds ⟨"n", c, .int Number.maxSigned⟩ (rowOf 0xFFFFFFFFFFFFFFFF) = true ↔
          c.Relates 0xFFFFFFFFFFFFFFFF Number.maxSigned) ∧
      Predicate.holds ⟨"n", .gt, .int Number.maxSigned⟩ (rowOf 0xFFFFFFFFFFFFFFFF) = true := by
  have hbound : (rowOf 0xFFFFFFFFFFFFFFFF).get? "n" = some (.int 0xFFFFFFFFFFFFFFFF) :=
    rfl
  have hlargest : Number.IsWord 0xFFFFFFFFFFFFFFFF := by decide
  have hsigned : Number.IsWord Number.maxSigned := by decide
  obtain ⟨htold, -, hfar⟩ := holds_iff_relates hbound hlargest hsigned
  have hall := htold (hfar (.inl (by decide)))
  exact ⟨hbound, hlargest, hsigned, hall, (hall .gt).mpr (by decide)⟩

/-- The first two integers beyond the signed ones are different, and neither is
less than the other: of the predicates that ask for less, for equal and for
greater none holds. -/
theorem neighbours_beyond_signed :
    Number.IsWord 0x8000000000000000 ∧ Number.IsWord 0x8000000000000001 ∧
      (rowOf 0x8000000000000000).get? "n" = some (.int 0x8000000000000000) ∧
      Comparison.lt.Relates 0x8000000000000000 0x8000000000000001 ∧
      ∀ c ∈ [Comparison.lt, .eq, .gt],
        Predicate.holds ⟨"n", c, .int 0x8000000000000001⟩ (rowOf 0x8000000000000000) = false :=
  ⟨by decide, by decide, rfl, by decide, by decide +kernel⟩

end Predicate

end Lockstep
