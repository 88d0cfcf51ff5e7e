import Lockstep.Proofs.Binary64.Rounding
import Lockstep.Proofs.Query.Rendering
set_option autoImplicit false

/-!
# Every expressible query has a text

Each terminal of an expressible query can be spelled: an integer by the digits
of its magnitude, a string with a backslash before every character, and a
binary64 number exactly, because a multiple of `2 ^ -1074` is a decimal with
1074 digits behind the point.  The spellings with one blank before each of them
are a text that renders the query.
-/

namespace Lockstep

namespace Binary64

theorem five_pow_mul_two_pow (n : Nat) : Nat.pow 5 n * Nat.pow 2 n = Nat.pow 10 n :=
  (Nat.mul_pow 5 2 n).symm

/-- So many digits behind the point make a unit a whole number. -/
theorem exists_unitPlaces : ∃ places, 0 < places ∧ unitsPerOne = Nat.pow 2 places := by
  unfold unitsPerOne
  have hpositive : 0 < 1074 := by decide
  generalize 1074 = places at hpositive
  exact ⟨places, hpositive, rfl⟩

/-- A number is the one nearest to itself as a decimal with so many digits
behind the point. -/
theorem ofDecimal?_exact (f : Binary64) {places : Nat}
    (h : unitsPerOne = Nat.pow 2 places) :
    ofDecimal? f.negative (f.units * Nat.pow 5 places) (-(places : Int)) = some f := by
  have hwhole : (-(places : Int)).toNat = 0 := by omega
  have hplaces : (-(-(places : Int))).toNat = places := by omega
  have hunits : f.units * Nat.pow 5 places * Nat.pow 10 0 * Nat.pow 2 places =
      f.units * Nat.pow 10 places := by
    rw [show Nat.pow 10 0 = 1 from rfl, Nat.mul_one, Nat.mul_assoc,
      five_pow_mul_two_pow]
  rw [ofDecimal?, h, hwhole, hplaces, hunits]
  exact f.ofRatio?_exact (Nat.pow_pos (by decide))

end Binary64

namespace Query

theorem digitsValue_eq (digits : List Char) :
    NumberLiteral.digitsValue digits = Nat.ofDigitChars 10 digits 0 := by
  simp only [NumberLiteral.digitsValue, NumberLiteral.digitValue,
    Nat.ofDigitChars_eq_foldl, Nat.mul_comm 10]

theorem isDigits_toDigits (n : Nat) : IsDigits (Nat.toDigits 10 n) :=
  ⟨Nat.toDigits_ne_nil,
    fun _ hc => Nat.isDigit_of_mem_toDigits (by decide) (by decide) hc⟩

theorem digitsValue_toDigits (n : Nat) :
    NumberLiteral.digitsValue (Nat.toDigits 10 n) = n := by
  rw [digitsValue_eq, Nat.ofDigitChars_toDigits (by decide) (by decide)]

theorem digitsValue_zeros_append (n : Nat) (digits : List Char) :
    NumberLiteral.digitsValue (List.replicate n '0' ++ digits) =
      NumberLiteral.digitsValue digits := by
  induction n with
  | zero => rfl
  | succ n ih => exact ih

theorem spellsNumber_int {n : Int} (h : IsLiteral (.number (.int n))) :
    SpellsNumber (decide (n < 0)) (.int n) (Nat.toDigits 10 n.natAbs) := by
  refine .int (isDigits_toDigits _) ?_ h
  rw [digitsValue_toDigits]
  split <;> rename_i hsign <;> simp only [decide_eq_true_eq] at hsign <;> omega

/-- A binary64 number is spelled by its sign and all of its digits. -/
theorem spellsNumber_float (f : Binary64) :
    ∃ digits, SpellsNumber f.negative (.float f) digits := by
  obtain ⟨places, hpositive, hunits⟩ := Binary64.exists_unitPlaces
  -- zeros in front leave digits before the point
  obtain ⟨digits, hdigits, hvalue, hlong⟩ : ∃ digits, (∀ c ∈ digits, c.isDigit = true) ∧
      NumberLiteral.digitsValue digits = f.units * Nat.pow 5 places ∧
          places < digits.length := by
    refine ⟨List.replicate (places + 1) '0' ++
      Nat.toDigits 10 (f.units * Nat.pow 5 places), ?_, ?_, ?_⟩
    · refine List.forall_mem_append.mpr ⟨fun c hc => ?_, (isDigits_toDigits _).2⟩
      rw [List.eq_of_mem_replicate hc]
      rfl
    · rw [digitsValue_zeros_append, digitsValue_toDigits]
    · rw [List.length_append, List.length_replicate]
      omega
  have hbehind : (digits.drop (digits.length - places)).length = places := by
    rw [List.length_drop]
    omega
  refine ⟨digits.take (digits.length - places) ++
    '.' :: digits.drop (digits.length - places), .float ⟨?_, ?_⟩ ⟨?_, ?_⟩ ?_⟩
  · exact List.ne_nil_of_length_pos (by rw [List.length_take]; omega)
  · exact fun c hc => hdigits c (List.mem_of_mem_take hc)
  · exact List.ne_nil_of_length_pos (by omega)
  · exact fun c hc => hdigits c (List.mem_of_mem_drop hc)
  · rw [List.take_append_drop, hvalue, hbehind, f.ofDecimal?_exact hunits]

theorem quoted_escaped (quote : Char) (cs : List Char) :
    Quoted quote cs (cs.flatMap fun c => ['\\', c]) := by
  induction cs with
  | nil => exact .nil
  | cons c cs ih => exact ih.escaped

/-- Some token that stands for the terminal can be spelled. -/
def Terminal.Spellable (t : Terminal) : Prop :=
  ∃ token written, t.ReadAs token ∧ token.Spelled written

theorem spellable_word {t : Terminal} {word : String} (hread : t.ReadAs (.word word))
    (hword : IsName word) : t.Spellable := by
  refine ⟨_, word.toList, hread, ?_⟩
  have hspelled := Token.Spelled.word hword
  rwa [String.ofList_toList] at hspelled

theorem spellable_literal {value : Value} (h : IsLiteral value) :
    (Terminal.literal value).Spellable := by
  have hread : (Terminal.literal value).ReadAs (.literal value) := rfl
  cases value with
  | null =>
    have hword : literalWord? .null = some "null".toLower := by decide +kernel
    exact spellable_word hword ⟨by decide, List.all_eq_true.mp (by decide)⟩
  | bool b =>
    cases b with
    | false =>
      have hword : literalWord? (.bool false) = some "false".toLower := by
        decide +kernel
      exact spellable_word hword ⟨by decide, List.all_eq_true.mp (by decide)⟩
    | true =>
      have hword : literalWord? (.bool true) = some "true".toLower := by decide +kernel
      exact spellable_word hword ⟨by decide, List.all_eq_true.mp (by decide)⟩
  | number n =>
    cases n with
    | int n => exact ⟨_, _, hread, .number (spellsNumber_int h)⟩
    | float f =>
      obtain ⟨digits, hspelled⟩ := spellsNumber_float f
      exact ⟨_, _, hread, .number hspelled⟩
  | string text =>
    have hspelled := Token.Spelled.string (.inl rfl) (quoted_escaped '\'' text.toList)
    rw [String.ofList_toList] at hspelled
    exact ⟨_, _, hread, hspelled⟩
  | array _ => exact h.elim
  | object _ => exact h.elim

/-- Terminals that can be spelled are, with a blank before each spelling. -/
theorem exists_laid {ts : List Terminal} (h : ∀ t ∈ ts, t.Spellable) : ∃ tokens text,
    List.Forall₂ Terminal.ReadAs ts tokens ∧ Laid Token.Apart tokens text ∧
      ∀ c ∈ text.head?, c = ' ' := by
  induction ts with
  | nil => exact ⟨[], [], .nil, .done (by simp), by simp⟩
  | cons t ts ih =>
    obtain ⟨⟨token, written, hread, hspelled⟩, hts⟩ := List.forall_mem_cons.mp h
    obtain ⟨tokens, text, hreads, hlaid, hblank⟩ := ih hts
    have hapart : token.Apart text := by
      cases token with
      | word word =>
        intro c hc
        rw [hblank c hc]
        decide
      | _ => trivial
    exact ⟨token :: tokens, ' ' :: (written ++ text), .cons hread hreads,
      @Laid.next _ [' '] _ _ _ _ (List.forall_mem_singleton.mpr (by decide)) hspelled
        hapart hlaid, by simp⟩

/-- The keywords of the grammar. -/
def keywords : List String := ["match", "where", "and", "return", "limit"]

theorem spellable_keyword {lower : String} (h : lower ∈ keywords) :
    (Terminal.keyword lower).Spellable := by
  have hread : ∀ word ∈ keywords, word.toLower = word ∧ IsName word := by
    intro word hword
    simp only [keywords, List.mem_cons, List.not_mem_nil, or_false] at hword
    rcases hword with rfl | rfl | rfl | rfl | rfl <;>
      exact ⟨by decide +kernel, by decide, List.all_eq_true.mp (by decide)⟩
  exact spellable_word (hread lower h).1 (hread lower h).2

theorem mem_joined_cases {separator : Terminal} {parts : List (List Terminal)}
    {t : Terminal} (h : t ∈ joined separator parts) :
    t = separator ∨ ∃ part ∈ parts, t ∈ part := by
  induction parts with
  | nil => cases h
  | cons first others ih =>
    cases others with
    | nil => exact .inr ⟨first, List.mem_cons_self, h⟩
    | cons next others =>
      rw [joined_cons_cons] at h
      rcases List.mem_append.mp h with h | h
      · exact .inr ⟨first, List.mem_cons_self, h⟩
      · rcases List.mem_cons.mp h with rfl | h
        · exact .inl rfl
        · exact (ih h).imp_right fun ⟨part, hpart, ht⟩ =>
            ⟨part, List.mem_cons_of_mem _ hpart, ht⟩

theorem spellable_sign (s : Symbol) : (Terminal.sign s).Spellable :=
  ⟨.symbol s, _, rfl, .symbol s⟩

end Query

namespace MatchQuery.Expressible

open Query

variable {q : MatchQuery}

theorem spellable_label (h : q.Expressible) :
    ∀ t ∈ labelTerminals q.label, t.Spellable := by
  cases hq : q.label with
  | none => simp [labelTerminals]
  | some label =>
    simp only [labelTerminals, List.forall_mem_cons]
    exact ⟨spellable_sign _, spellable_word rfl (h.label label hq), by simp⟩

theorem spellable_predicate (h : q.Expressible) {p : Predicate}
    (hp : p ∈ q.predicates) :
    ∀ t ∈ p.terminals q.binding, t.Spellable := by
  obtain ⟨hfield, hoperand⟩ := h.predicates p hp
  simp only [Predicate.terminals, List.forall_mem_cons]
  exact ⟨spellable_word rfl h.binding, spellable_sign _, spellable_word rfl hfield,
    spellable_sign _, spellable_literal hoperand, by simp⟩

theorem spellable_where (h : q.Expressible) :
    ∀ t ∈ whereTerminals q.binding q.predicates, t.Spellable := by
  have hjoined :
    ∀ t ∈ joined (.keyword "and") (q.predicates.map (Predicate.terminals q.binding)),
      t.Spellable := by
    intro t ht
    rcases mem_joined_cases ht with rfl | ⟨part, hpart, ht⟩
    · exact spellable_keyword (by decide)
    · obtain ⟨p, hp, rfl⟩ := List.mem_map.mp hpart
      exact h.spellable_predicate hp t ht
  cases hq : q.predicates with
  | nil => simp [whereTerminals]
  | cons p ps =>
    rw [hq] at hjoined
    exact List.forall_mem_cons.mpr ⟨spellable_keyword (by decide), hjoined⟩

theorem spellable_item (h : q.Expressible) {item : Item} (hitem : item ∈ q.returns) :
    ∀ t ∈ item.terminals, t.Spellable := by
  obtain ⟨hof, hproperty⟩ := h.returns item hitem
  cases item with
  | node name =>
    cases hof
    exact List.forall_mem_cons.mpr ⟨spellable_word rfl h.binding, by simp⟩
  | property name property =>
    cases hof
    simp only [Item.terminals, List.forall_mem_cons]
    exact ⟨spellable_word rfl h.binding, spellable_sign _,
      spellable_word rfl (hproperty property rfl), by simp⟩

theorem spellable_returns (h : q.Expressible) :
    ∀ t ∈ joined (.sign .comma) (q.returns.map Item.terminals), t.Spellable := by
  intro t ht
  rcases mem_joined_cases ht with rfl | ⟨part, hpart, ht⟩
  · exact spellable_sign _
  · obtain ⟨item, hitem, rfl⟩ := List.mem_map.mp hpart
    exact h.spellable_item hitem t ht

theorem spellable_limit (h : q.Expressible) :
    ∀ t ∈ limitTerminals q.limit, t.Spellable := by
  cases hq : q.limit with
  | none => simp [limitTerminals]
  | some limit =>
    simp only [limitTerminals, List.forall_mem_cons]
    exact ⟨spellable_keyword (by decide), spellable_literal (h.limit limit hq), by simp⟩

/-- Every terminal of an expressible query can be spelled. -/
theorem spellable (h : q.Expressible) : ∀ t ∈ q.terminals, t.Spellable := by
  simp only [terminals, List.forall_mem_cons, List.forall_mem_append]
  exact ⟨spellable_keyword (by decide), spellable_sign _, spellable_word rfl h.binding,
    h.spellable_label, spellable_sign _, h.spellable_where,
      spellable_keyword (by decide),
    h.spellable_returns, h.spellable_limit⟩

/-- Every expressible query is read from some text. -/
theorem exists_parse (h : q.Expressible) : ∃ text, parse text = .ok q := by
  obtain ⟨tokens, text, hstand, hlaid, -⟩ := exists_laid h.spellable
  refine ⟨String.ofList text, parse_of_renderedBy h ⟨[], by simp, tokens, ?_, ?_⟩⟩
  · rwa [List.append_nil]
  · rwa [String.toList_ofList]

end MatchQuery.Expressible

end Lockstep
