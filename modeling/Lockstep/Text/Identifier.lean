set_option autoImplicit false

/-!
# Identifiers

Engines and batches are named by identifiers: thirty-two hexadecimal digits in
groups of eight, four, four, four and twelve, joined by hyphens.
-/

namespace Lockstep.Text.Identifier

/-- Where an identifier has digits and where it has hyphens. -/
def shape : List Char := "00000000-0000-0000-0000-000000000000".toList

/-- Put digits into a shape, one after the other. -/
def fill : List Char → List Char → List Char
  | [], _ => []
  | p :: ps, digits =>
    if p = '-' then '-' :: fill ps digits
    else match digits with
      | [] => []
      | d :: ds => d :: fill ps ds

/-- The identifier of thirty-two hexadecimal digits. -/
def ofDigits (digits : List Char) : String := String.ofList (fill shape digits)

/-- How many digits a shape takes. -/
def places (pattern : List Char) : Nat := pattern.countP (· != '-')

theorem places_shape : places shape = 32 := by decide

theorem length_shape : shape.length = 36 := by decide

/-- A shape that is filled keeps its length. -/
theorem length_fill {pattern digits : List Char}
    (enough : places pattern ≤ digits.length) :
    (fill pattern digits).length = pattern.length := by
  induction pattern generalizing digits with
  | nil => rfl
  | cons p ps ih =>
    by_cases hyphen : p = '-'
    · simp only [places, List.countP_cons, hyphen, bne_self_eq_false,
        Bool.false_eq_true, if_false, Nat.add_zero] at enough
      simp [fill, hyphen, ih enough]
    · cases digits with
      | nil => simp [places, hyphen] at enough
      | cons d ds =>
        simp only [places, List.countP_cons, bne_iff_ne, ne_eq, hyphen,
          not_false_eq_true, if_true, List.length_cons] at enough
        simp [fill, hyphen, ih (Nat.le_of_succ_le_succ enough)]

/-- The digits can be read off a shape that was filled with them. -/
theorem filter_fill {pattern digits : List Char}
    (enough : places pattern ≤ digits.length) (plain : ∀ d ∈ digits, d ≠ '-') :
    (fill pattern digits).filter (· != '-') = digits.take (places pattern) := by
  induction pattern generalizing digits with
  | nil => rfl
  | cons p ps ih =>
    by_cases hyphen : p = '-'
    · simp only [places, List.countP_cons, hyphen, bne_self_eq_false,
        Bool.false_eq_true, if_false, Nat.add_zero] at enough
      simp [fill, places, hyphen, ih enough plain]
    · cases digits with
      | nil => simp [places, hyphen] at enough
      | cons d ds =>
        simp only [places, List.countP_cons, bne_iff_ne, ne_eq, hyphen,
          not_false_eq_true, if_true, List.length_cons] at enough
        have hrest := ih (Nat.le_of_succ_le_succ enough) fun x hx =>
          plain x (List.mem_cons_of_mem d hx)
        have hd : d ≠ '-' := plain d List.mem_cons_self
        simp [fill, places, hyphen, hd, hrest]

theorem length_ofDigits {digits : List Char} (enough : 32 ≤ digits.length) :
    (ofDigits digits).length = 36 := by
  have hplaces : places shape ≤ digits.length := by rw [places_shape]; exact enough
  rw [ofDigits, String.length_ofList, length_fill hplaces, length_shape]

/-- Other digits make another identifier. -/
theorem ofDigits_inj {digits others : List Char} (enough : digits.length = 32)
    (enough' : others.length = 32) (plain : ∀ d ∈ digits, d ≠ '-')
    (plain' : ∀ d ∈ others, d ≠ '-') (same : ofDigits digits = ofDigits others) :
    digits = others := by
  have hread : ∀ ds : List Char, ds.length = 32 → (∀ d ∈ ds, d ≠ '-') →
      (ofDigits ds).toList.filter (· != '-') = ds := by
    intro ds hlength hplain
    have hplaces : places shape ≤ ds.length := by
      rw [places_shape]; exact Nat.le_of_eq hlength.symm
    rw [ofDigits, String.toList_ofList, filter_fill hplaces hplain, places_shape,
      ← hlength, List.take_length]
  rw [← hread digits enough plain, same, hread others enough' plain']

end Lockstep.Text.Identifier
