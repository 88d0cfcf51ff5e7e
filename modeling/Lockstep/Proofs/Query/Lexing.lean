import Lockstep.Proofs.Query.Grammar
import Mathlib.Data.List.TakeWhile
set_option autoImplicit false

/-!
# Scanning

The scanner reads a text into tokens exactly if they are laid out in it, each
followed by a text that does not go on with it: a word by no word character, a
number by no digit and no point with a digit behind it, "less" and "greater" by
no sign that makes them another one.  A reader of a token is right if what it
takes off the front of a text spells the token it returns and what it leaves
does not go on with it, and it misses nothing if it returns every token so
spelled and followed.
-/

namespace Lockstep

theorem bind_eq_ok_iff {ε α β : Type} {first : Except ε α} {second : α → Except ε β}
    {b : β} :
    (first >>= second) = .ok b ↔ ∃ a, first = .ok a ∧ second a = .ok b := by
  cases first with
  | error e => simp [bind, Except.bind]
  | ok a => simp [bind, Except.bind]

namespace Text

/-- The code points of white space. -/
def blankPoints : List Nat :=
  List.range' 0x09 5 ++ [0x20, 0x85, 0xA0, 0x1680] ++ List.range' 0x2000 11 ++
    [0x2028, 0x2029, 0x202F, 0x205F, 0x3000]

theorem toNat_mem_blankPoints {c : Char} (h : isBlank c = true) :
    c.toNat ∈ blankPoints := by
  simp only [isBlank, Bool.or_eq_true, Bool.and_eq_true, decide_eq_true_eq, beq_iff_eq] at h
  simp only [blankPoints, List.mem_append, List.mem_range'_1, List.mem_cons,
    List.not_mem_nil]
  omega

theorem continuesWord_blankPoints :
    ∀ n ∈ blankPoints, continuesWord (Char.ofNat n) = false := by decide +kernel

theorem continuesWord_of_isBlank {c : Char} (h : isBlank c = true) :
    continuesWord c = false := by
  have hpoint := continuesWord_blankPoints _ (toNat_mem_blankPoints h)
  rwa [Char.ofNat_toNat] at hpoint

theorem continuesWord_of_isDigit {c : Char} (h : c.isDigit = true) :
    continuesWord c = true := by
  have hsmall : c.toNat < 128 := by
    simp only [Char.isDigit, Bool.and_eq_true, decide_eq_true_eq] at h
    have : c.toNat ≤ '9'.toNat := h.2
    exact Nat.lt_of_le_of_lt this (by decide)
  simp [continuesWord, isNumeral, hsmall, h]

theorem isDigit_of_startsWord {c : Char} (h : startsWord c = true) :
    c.isDigit = false := by
  by_contra hdigit
  have hpoint : c.toNat ∈ List.range' 48 10 := by
    simp only [Char.isDigit, Bool.and_eq_true, decide_eq_true_eq, Bool.not_eq_false] at hdigit
    have hlow : '0'.toNat ≤ c.toNat := hdigit.1
    have hhigh : c.toNat ≤ '9'.toNat := hdigit.2
    exact List.mem_range'_1.mpr ⟨hlow, Nat.lt_succ_of_le hhigh⟩
  have hnot : ∀ n ∈ List.range' 48 10, startsWord (Char.ofNat n) = false := by decide
  have hc := hnot _ hpoint
  rw [Char.ofNat_toNat, h] at hc
  cases hc

theorem isBlank_of_continuesWord {c : Char} (h : continuesWord c = true) :
    isBlank c = false := by
  by_contra hblank
  rw [continuesWord_of_isBlank (by simpa using hblank)] at h
  cases h

end Text

namespace Query

/-! ## Strings -/

theorem scanString_cons {quote c : Char} (bare : c ≠ '\\') (rest : List Char) :
    scanString quote (c :: rest) = if c = quote then some ([], rest)
      else (scanString quote rest).map fun (cs, r) => (c :: cs, r) := by
  rw [scanString]
  exact fun _ _ hc _ => bare hc

/-- What is read of a string is quoted in front of the quote that ends it. -/
theorem scanString_sound {quote : Char} (hquote : quote ≠ '\\')
    {text cs rest : List Char} (h : scanString quote text = some (cs, rest)) :
    ∃ written, Quoted quote cs written ∧ text = written ++ quote :: rest := by
  induction text using scanString.induct quote generalizing cs with
  | case1 => cases h
  | case2 c text ih =>
    simp only [scanString, Option.map_eq_some_iff, Prod.mk.injEq] at h
    obtain ⟨⟨others, _⟩, hothers, rfl, rfl⟩ := h
    obtain ⟨written, hwritten, rfl⟩ := ih hothers
    exact ⟨_, hwritten.escaped, rfl⟩
  | case3 text _ =>
    rw [scanString_cons hquote, if_pos rfl] at h
    cases h
    exact ⟨[], .nil, rfl⟩
  | case4 c text hescape hinner ih =>
    by_cases hbare : c = '\\'
    · -- a backslash that nothing follows leaves the string open
      cases text with
      | nil => simp [scanString, hinner] at h
      | cons d text => exact (hescape d text hbare rfl).elim
    · rw [scanString_cons hbare, if_neg hinner] at h
      simp only [Option.map_eq_some_iff, Prod.mk.injEq] at h
      obtain ⟨⟨others, _⟩, hothers, rfl, rfl⟩ := h
      obtain ⟨written, hwritten, rfl⟩ := ih hothers
      exact ⟨_, hwritten.plain hinner hbare, rfl⟩

theorem scanString_complete {quote : Char} (hquote : quote ≠ '\\')
    {cs written : List Char} (h : Quoted quote cs written) (rest : List Char) :
    scanString quote (written ++ quote :: rest) = some (cs, rest) := by
  induction h with
  | nil => rw [List.nil_append, scanString_cons hquote, if_pos rfl]
  | plain inner bare _ ih =>
    rw [List.cons_append, scanString_cons bare, if_neg inner, ih]; rfl
  | escaped _ ih => simp [scanString, ih]

/-! ## Numbers -/

/-- The text does not go on with a number. -/
def EndsNumber (rest : List Char) : Prop := (scanDigits rest).1 = []

/-- Whether the scan of a number goes on over a character. -/
def inNumber (c : Char) (rest : List Char) : Bool :=
  c.isDigit || (c == '.' && (rest.head?.map Char.isDigit).getD false)

theorem scanDigits_cons (c : Char) (rest : List Char) :
    scanDigits (c :: rest) = if inNumber c rest then
      (c :: (scanDigits rest).1, (scanDigits rest).2)
      else ([], c :: rest) := rfl

theorem scanDigits_of_endsNumber {rest : List Char} (h : EndsNumber rest) :
    scanDigits rest = ([], rest) := by
  have happend := scanDigits_append rest
  rw [h] at happend
  exact Prod.ext h happend

theorem scanDigits_digits_append {digits : List Char}
    (h : ∀ c ∈ digits, c.isDigit = true) (rest : List Char) :
    scanDigits (digits ++ rest) =
      (digits ++ (scanDigits rest).1, (scanDigits rest).2) := by
  induction digits with
  | nil => rfl
  | cons c digits ih =>
    obtain ⟨hc, hdigits⟩ := List.forall_mem_cons.mp h
    simp [scanDigits_cons, inNumber, hc, ih hdigits]

theorem endsNumber_scanDigits (cs : List Char) : EndsNumber (scanDigits cs).2 := by
  induction cs with
  | nil => rfl
  | cons c rest ih =>
    rw [scanDigits_cons]
    split
    · exact ih
    · rename_i hc
      simp [EndsNumber, scanDigits_cons, hc]

theorem mem_scanDigits {cs : List Char} {c : Char} (h : c ∈ (scanDigits cs).1)
    (hc : c ≠ '.') :
    c.isDigit = true := by
  induction cs with
  | nil => cases h
  | cons d rest ih =>
    rw [scanDigits_cons] at h
    split at h
    · rename_i hd
      obtain rfl | h := List.mem_cons.mp h
      · simpa [inNumber, hc] using hd
      · exact ih h
    · cases h

/-- A point is read only if a digit is read behind it. -/
theorem scanDigits_point {cs before behind : List Char}
    (h : (scanDigits cs).1 = before ++ '.' :: behind) : behind ≠ [] := by
  induction cs generalizing before with
  | nil => simp [scanDigits] at h
  | cons c rest ih =>
    rw [scanDigits_cons] at h
    split at h
    · rename_i hc
      cases before with
      | cons d before => exact ih (List.cons.inj h).2
      | nil =>
        obtain ⟨rfl, hbehind⟩ := List.cons.inj h
        rintro rfl
        cases rest with
        | nil => simp [inNumber] at hc
        | cons d rest =>
          have hd : d.isDigit = true := by simpa [inNumber] using hc
          simp [scanDigits_cons, inNumber, hd] at hbehind
    · simp at h

theorem isDigit_ne_point {c : Char} (h : c.isDigit = true) : (c != '.') = true := by
  rw [bne_iff_ne]
  rintro rfl
  exact absurd h (by decide)

theorem numberValue?_digits (negative : Bool) {digits : List Char}
    (h : ∀ c ∈ digits, c.isDigit = true) :
    numberValue? negative digits =
      let n : Int := if negative then -(NumberLiteral.digitsValue digits : Int)
        else NumberLiteral.digitsValue digits
      if -Number.maxSigned - 1 ≤ n ∧ n ≤ Number.maxSigned then some (.int n) else none := by
  have hall : ∀ c ∈ digits, (c != '.') = true := fun c hc => isDigit_ne_point (h c hc)
  rw [numberValue?, List.dropWhile_eq_nil_iff.mpr hall,
    List.takeWhile_eq_self_iff.mpr hall]

theorem numberValue?_point (negative : Bool) {before behind : List Char}
    (h : ∀ c ∈ before, c.isDigit = true) (hbehind : ∀ c ∈ behind, c.isDigit = true) :
    numberValue? negative (before ++ '.' :: behind) =
      (Binary64.ofDecimal? negative (NumberLiteral.digitsValue (before ++ behind))
        (-(behind.length : Int))).map .float := by
  have hall : ∀ c ∈ before, (c != '.') = true := fun c hc => isDigit_ne_point (h c hc)
  rw [numberValue?, List.dropWhile_append_of_pos hall,
    List.takeWhile_append_of_pos hall]
  simp [List.all_eq_true.mpr hbehind]

theorem scanNumber_sound {negative : Bool} {c : Char} {cs rest : List Char}
    {token : Token} (hc : c.isDigit = true)
    (h : scanNumber negative (c :: cs) = .ok (token, rest)) :
    ∃ n digits, token = .literal (.number n) ∧ SpellsNumber negative n digits ∧
      c :: cs = digits ++ rest ∧ EndsNumber rest := by
  have hread := scanDigits_append (c :: cs)
  have hends := endsNumber_scanDigits (c :: cs)
  have hfirst : (scanDigits (c :: cs)).1 = c :: (scanDigits cs).1 := by
    simp [scanDigits_cons, inNumber, hc]
  have hwhole : IsDigits ((scanDigits (c :: cs)).1.takeWhile (· != '.')) := by
    refine ⟨?_, fun d hd => ?_⟩
    · simp [hfirst, isDigit_ne_point hc]
    · have hpoint := List.mem_takeWhile_imp hd
      exact mem_scanDigits (List.takeWhile_subset _ hd) (bne_iff_ne.mp hpoint)
  simp only [scanNumber] at h
  split at h
  · rename_i n hn
    cases h
    refine ⟨n, _, rfl, ?_, hread.symm, hends⟩
    have hparts := List.takeWhile_append_dropWhile (p := (· != '.'))
      (l := (scanDigits (c :: cs)).1)
    cases hdrop : (scanDigits (c :: cs)).1.dropWhile (· != '.') with
    | nil =>
      rw [hdrop, List.append_nil] at hparts
      rw [hparts] at hwhole
      rw [numberValue?_digits negative hwhole.2] at hn
      obtain ⟨hsigned, hn⟩ := Option.ite_none_right_eq_some.mp hn
      cases hn
      exact .int hwhole rfl hsigned
    | cons point behind =>
      have hpoint : point = '.' := by
        have hstop := List.head?_dropWhile_not (· != '.') (scanDigits (c :: cs)).1
        rw [hdrop] at hstop
        simpa using hstop
      rw [hdrop, hpoint] at hparts
      rw [numberValue?, hdrop] at hn
      dsimp only at hn
      split at hn
      · rename_i hall
        obtain ⟨f, hf, rfl⟩ := Option.map_eq_some_iff.mp hn
        have hfraction : IsDigits behind :=
          ⟨scanDigits_point hparts.symm, List.all_eq_true.mp hall⟩
        rw [← hparts]
        exact .float hwhole hfraction hf
      · cases hn
  · cases h

theorem scanNumber_complete {negative : Bool} {n : Number} {digits : List Char}
    (h : SpellsNumber negative n digits) {rest : List Char} (hrest : EndsNumber rest) :
    scanNumber negative (digits ++ rest) = .ok (.literal (.number n), rest) := by
  cases h with
  | int whole value signed =>
    subst value
    simp only [scanNumber, scanDigits_digits_append whole.2,
      scanDigits_of_endsNumber hrest, List.append_nil,
      numberValue?_digits negative whole.2, if_pos signed]
  | @float before behind f whole fraction nearest =>
    obtain ⟨d, digits, rfl⟩ := List.exists_cons_of_ne_nil fraction.1
    have hd : d.isDigit = true := fraction.2 d List.mem_cons_self
    have hpoint : scanDigits ('.' :: (d :: digits ++ rest)) =
        ('.' :: d :: digits, rest) := by
      rw [scanDigits_cons, scanDigits_digits_append fraction.2,
        scanDigits_of_endsNumber hrest]
      simp [inNumber, hd]
    have hread : scanDigits (before ++ '.' :: d :: digits ++ rest) =
        (before ++ '.' :: d :: digits, rest) := by
      rw [List.append_assoc, scanDigits_digits_append whole.2, List.cons_append, hpoint]
    simp only [scanNumber, hread, numberValue?_point negative whole.2 fraction.2,
      nearest, Option.map_some]

/-! ## Tokens -/

/-- The text does not go on with the token. -/
def Token.EndsAt : Token → List Char → Prop
  | .word _, rest => ∀ c ∈ rest.head?, Text.continuesWord c = false
  | .literal (.number _), rest => EndsNumber rest
  | .symbol .lt, rest => ∀ c ∈ rest.head?, c ≠ '=' ∧ c ≠ '>'
  | .symbol .gt, rest => ∀ c ∈ rest.head?, c ≠ '='
  | _, _ => True

/-- What a sign starts with. -/
def signs : List Char := ['(', ')', ':', '.', ',', ';', '=', '<', '>', '!']

/-- A token that starts like no sign is a string, a number or a word. -/
theorem scanToken_of_notMem_signs {c : Char} (h : c ∉ signs) (position : Nat)
    (rest : List Char) :
    scanToken position c rest =
      if c = '\'' ∨ c = '"' then
        match scanString c rest with
        | some (cs, r) => .ok (.literal (.string (String.ofList cs)), r)
        | none => .error .unterminatedString
      else if c.isDigit then scanNumber false (c :: rest)
      else if c = '-' ∧ (rest.head?.map Char.isDigit).getD false = true then
        scanNumber true rest
      else if Text.startsWord c then .ok (scanWord (c :: rest))
      else .error (.unexpectedCharacter c position) := by
  unfold scanToken
  split
  case h_14 => rfl
  all_goals exact absurd h (by decide)

theorem scanWord_sound {c : Char} (hc : Text.startsWord c = true) (cs : List Char) :
    ∃ written rest, scanWord (c :: cs) = (.word (String.ofList written), rest) ∧
      IsWord written ∧
      c :: cs = written ++ rest ∧ ∀ d ∈ rest.head?, Text.continuesWord d = false := by
  refine ⟨_, _, rfl, ?_, List.takeWhile_append_dropWhile.symm, fun d hd => ?_⟩
  · rw [List.takeWhile_cons_of_pos (Text.continuesWord_of_startsWord hc)]
    exact ⟨hc, fun d hd => List.mem_takeWhile_imp hd⟩
  · have hstop := List.head?_dropWhile_not Text.continuesWord (c :: cs)
    rwa [hd] at hstop

theorem scanWord_complete {written : List Char} (h : IsWord written) {rest : List Char}
    (hrest : ∀ d ∈ rest.head?, Text.continuesWord d = false) :
    scanWord (written ++ rest) = (.word (String.ofList written), rest) := by
  have hall : ∀ d ∈ written, Text.continuesWord d = true := by
    cases written with
    | nil => exact h.elim
    | cons c cs =>
      exact List.forall_mem_cons.mpr ⟨Text.continuesWord_of_startsWord h.1, h.2⟩
  have hstop : rest.takeWhile Text.continuesWord = [] ∧
      rest.dropWhile Text.continuesWord = rest := by
    cases rest with
    | nil => exact ⟨rfl, rfl⟩
    | cons d rest =>
      have hd := hrest d rfl
      exact ⟨List.takeWhile_cons_of_neg (by simp [hd]),
        List.dropWhile_cons_of_neg (by simp [hd])⟩
  rw [scanWord, List.takeWhile_append_of_pos hall, List.dropWhile_append_of_pos hall,
    hstop.1, hstop.2, List.append_nil]

/-- What is read as a token spells it, and what is left does not go on with it. -/
theorem scanToken_sound {position : Nat} {c : Char} {cs rest : List Char}
    {token : Token} (h : scanToken position c cs = .ok (token, rest)) :
    ∃ written, token.Spelled written ∧ c :: cs = written ++ rest ∧
      token.EndsAt rest := by
  unfold scanToken at h
  split at h
  case h_14 =>
    split at h
    · rename_i hquote
      split at h
      · rename_i text r hread
        cases h
        have hbare : c ≠ '\\' := by rintro rfl; exact absurd hquote (by decide)
        obtain ⟨written, hwritten, rfl⟩ := scanString_sound hbare hread
        exact ⟨_, .string hquote hwritten, by simp, trivial⟩
      · cases h
    · split at h
      · rename_i hdigit
        obtain ⟨n, digits, rfl, hspelled, htext, hends⟩ := scanNumber_sound hdigit h
        exact ⟨_, .number hspelled, htext, hends⟩
      · split at h
        · rename_i hminus
          obtain ⟨rfl, hdigit⟩ := hminus
          cases cs with
          | nil => cases hdigit
          | cons d cs =>
            obtain ⟨n, digits, rfl, hspelled, htext, hends⟩ := scanNumber_sound hdigit h
            exact ⟨_, .number hspelled, congrArg ('-' :: ·) htext, hends⟩
        · split at h
          · rename_i hword
            obtain ⟨written, r, hread, hwritten, htext, hends⟩ :=
              scanWord_sound hword cs
            rw [hread] at h
            cases h
            exact ⟨written, .word hwritten, htext, hends⟩
          · cases h
  case h_10 heq hgt =>
    cases h
    refine ⟨_, .symbol .lt, rfl, fun d hd => ?_⟩
    obtain ⟨r, rfl⟩ := List.head?_eq_some_iff.mp hd
    exact ⟨fun hd => heq r (by rw [hd]), fun hd => hgt r (by rw [hd])⟩
  case h_12 heq =>
    cases h
    refine ⟨_, .symbol .gt, rfl, fun d hd => ?_⟩
    obtain ⟨r, rfl⟩ := List.head?_eq_some_iff.mp hd
    exact fun hd => heq r (by rw [hd])
  case h_13 =>
    cases h
    exact ⟨_, .differs, rfl, trivial⟩
  all_goals
    cases h
    exact ⟨_, .symbol _, rfl, trivial⟩

theorem notMem_signs_of {p : Char → Bool} (none : (signs.all fun d => !p d) = true)
    {c : Char} (h : p c = true) : c ∉ signs := by
  intro hc
  have hnot := List.all_eq_true.mp none c hc
  rw [h] at hnot
  cases hnot

theorem notMem_signs_of_startsWord {c : Char} : Text.startsWord c = true → c ∉ signs :=
  notMem_signs_of (by decide)

theorem notMem_signs_of_isDigit {c : Char} : c.isDigit = true → c ∉ signs :=
  notMem_signs_of (by decide)

theorem SpellsNumber.exists_cons {negative : Bool} {n : Number} {digits : List Char}
    (h : SpellsNumber negative n digits) :
    ∃ d ds, digits = d :: ds ∧ d.isDigit = true := by
  cases h with
  | int whole _ _ =>
    obtain ⟨d, ds, rfl⟩ := List.exists_cons_of_ne_nil whole.1
    exact ⟨d, ds, rfl, whole.2 d List.mem_cons_self⟩
  | float whole _ _ =>
    obtain ⟨d, ds, rfl⟩ := List.exists_cons_of_ne_nil whole.1
    exact ⟨d, _, rfl, whole.2 d List.mem_cons_self⟩

theorem Symbol.toList_text (s : Symbol) : s.text.toList = match s with
    | .openParen =>
      ['('] | .closeParen => [')'] | .colon => [':'] | .dot => ['.'] | .comma => [',']
    | .semicolon =>
      [';'] | .eq => ['='] | .ne => ['<', '>'] | .lt => ['<'] | .le => ['<', '=']
    | .gt => ['>'] | .ge => ['>', '='] := by
  cases s <;> rfl

/-- A sign is read unless it is half of another one. -/
theorem scanToken_symbol {s : Symbol} {c : Char} {cs rest : List Char}
    (hwritten : c :: cs = s.text.toList) (hrest : (Token.symbol s).EndsAt rest)
    (position : Nat) :
    scanToken position c (cs ++ rest) = .ok (.symbol s, rest) := by
  rw [Symbol.toList_text] at hwritten
  cases s
  case lt =>
    cases hwritten
    cases rest with
    | nil => rfl
    | cons d rest =>
      obtain ⟨heq, hgt⟩ := hrest d rfl
      simp [scanToken, heq, hgt]
  case gt =>
    cases hwritten
    cases rest with
    | nil => rfl
    | cons d rest =>
      have heq := hrest d rfl
      simp [scanToken, heq]
  all_goals
    cases hwritten
    rfl

/-- A token that is spelled in front of a text that does not go on with it is read. -/
theorem scanToken_complete {token : Token} {c : Char} {cs : List Char}
    (h : token.Spelled (c :: cs)) {rest : List Char} (hrest : token.EndsAt rest)
    (position : Nat) :
    scanToken position c (cs ++ rest) = .ok (token, rest) := by
  generalize hwritten : c :: cs = written at h
  cases h with
  | symbol s => exact scanToken_symbol hwritten hrest position
  | differs =>
    cases hwritten
    rfl
  | word name =>
    subst hwritten
    have hstarts : Text.startsWord c = true := name.1
    have hquote : ¬(c = '\'' ∨ c = '"') := by
      rintro (rfl | rfl) <;> exact absurd hstarts (by decide)
    have hminus :
        ¬(c = '-' ∧ ((cs ++ rest).head?.map Char.isDigit).getD false = true) := by
      rintro ⟨rfl, _⟩
      exact absurd hstarts (by decide)
    rw [scanToken_of_notMem_signs (notMem_signs_of_startsWord hstarts), if_neg hquote,
      if_neg (by simp [Text.isDigit_of_startsWord hstarts]), if_neg hminus,
        if_pos hstarts,
      ← List.cons_append, scanWord_complete name hrest]
  | string either spelled =>
    cases hwritten
    have hsign : c ∉ signs := by rcases either with rfl | rfl <;> decide
    have hbare : c ≠ '\\' := by rcases either with rfl | rfl <;> decide
    rw [scanToken_of_notMem_signs hsign, if_pos (show c = '\'' ∨ c = '"' from either),
      List.append_assoc, List.singleton_append, scanString_complete hbare spelled]
  | @number negative n digits spelled =>
    obtain ⟨d, ds, rfl, hd⟩ := spelled.exists_cons
    cases negative with
    | false =>
      cases hwritten
      have hquote : ¬(c = '\'' ∨ c = '"') := by
        rintro (rfl | rfl) <;> exact absurd hd (by decide)
      rw [scanToken_of_notMem_signs (notMem_signs_of_isDigit hd), if_neg hquote,
        if_pos hd, ← List.cons_append, scanNumber_complete spelled hrest]
    | true =>
      cases hwritten
      rw [scanToken_of_notMem_signs (by decide), if_neg (by decide), if_neg (by decide),
        if_pos ⟨rfl, by simpa using hd⟩]
      exact scanNumber_complete spelled hrest

/-! ## Texts -/

/-- No token starts with white space. -/
theorem Token.Spelled.exists_cons {token : Token} {written : List Char}
    (h : token.Spelled written) :
    ∃ c cs, written = c :: cs ∧ Text.isBlank c = false := by
  cases h with
  | @word written name =>
    cases written with
    | nil => exact name.elim
    | cons c cs =>
      exact ⟨c, cs, rfl,
        Text.isBlank_of_continuesWord (Text.continuesWord_of_startsWord name.1)⟩
  | symbol s => cases s <;> exact ⟨_, _, rfl, by decide⟩
  | differs => exact ⟨_, _, rfl, by decide⟩
  | @number negative n digits spelled =>
    obtain ⟨d, ds, rfl, hd⟩ := spelled.exists_cons
    cases negative with
    | false =>
      exact ⟨d, ds, rfl,
        Text.isBlank_of_continuesWord (Text.continuesWord_of_isDigit hd)⟩
    | true => exact ⟨'-', d :: ds, rfl, by decide⟩
  | string either _ => exact ⟨_, _, rfl, by rcases either with rfl | rfl <;> decide⟩

namespace Laid

variable {Bears : Token → List Char → Prop} {tokens : List Token}

theorem nil_iff : Laid Bears tokens [] ↔ tokens = [] := by
  constructor
  · intro h
    generalize htext : [] = text at h
    cases h with
    | done _ => rfl
    | next _ spelled _ _ =>
      obtain ⟨c, cs, rfl, _⟩ := spelled.exists_cons
      simp at htext
  · rintro rfl
    exact .done (by simp)

/-- White space in front changes nothing. -/
theorem cons_of_isBlank {c : Char} (hc : Text.isBlank c = true) (rest : List Char) :
    Laid Bears tokens (c :: rest) ↔ Laid Bears tokens rest := by
  constructor
  · intro h
    generalize htext : c :: rest = text at h
    cases h with
    | done blank =>
      subst htext
      exact .done (List.forall_mem_cons.mp blank).2
    | @next blanks written after token tokens blank spelled bears others =>
      cases blanks with
      | nil =>
        obtain ⟨d, ds, rfl, hd⟩ := spelled.exists_cons
        cases htext
        rw [hc] at hd
        cases hd
      | cons b blanks =>
        cases htext
        exact .next (List.forall_mem_cons.mp blank).2 spelled bears others
  · intro h
    cases h with
    | done blank => exact .done (List.forall_mem_cons.mpr ⟨hc, blank⟩)
    | @next blanks _ _ _ _ blank spelled bears others =>
      have hall : ∀ b ∈ c :: blanks, Text.isBlank b = true :=
        List.forall_mem_cons.mpr ⟨hc, blank⟩
      exact .next hall spelled bears others

/-- What is no white space starts the first token. -/
theorem cons_of_not_isBlank {c : Char} (hc : Text.isBlank c = false)
    (rest : List Char) :
    Laid Bears tokens (c :: rest) ↔ ∃ token others cs after, tokens = token :: others ∧
      rest = cs ++ after ∧ token.Spelled (c :: cs) ∧ Bears token after ∧
      Laid Bears others after := by
  constructor
  · intro h
    generalize htext : c :: rest = text at h
    cases h with
    | done blank =>
      subst htext
      rw [(List.forall_mem_cons.mp blank).1] at hc
      cases hc
    | @next blanks written after token others blank spelled bears laid =>
      cases blanks with
      | nil =>
        obtain ⟨d, ds, rfl, _⟩ := spelled.exists_cons
        cases htext
        exact ⟨token, others, ds, after, rfl, rfl, spelled, bears, laid⟩
      | cons b blanks =>
        cases htext
        rw [(List.forall_mem_cons.mp blank).1] at hc
        cases hc
  · rintro ⟨token, others, cs, after, rfl, rfl, spelled, bears, laid⟩
    exact @Laid.next _ [] _ _ _ _ (by simp) spelled bears laid

end Laid

theorem scanAll_cons_eq_ok_iff {total fuel : Nat} {c : Char}
    (hc : Text.isBlank c = false) (rest : List Char) (read : List Token) :
    scanAll total (fuel + 1) (c :: rest) = .ok read ↔ ∃ token after others,
      scanToken (total - (rest.length + 1)) c rest = .ok (token, after) ∧
        scanAll total fuel after = .ok others ∧ read = token :: others := by
  rw [scanAll, if_neg (by simp [hc]), bind_eq_ok_iff]
  simp only [Prod.exists, bind_eq_ok_iff, pure, Except.pure, Except.ok.injEq,
    eq_comm (a := read)]
  grind

/-- What is scanned of a text is laid out in it, and what is laid out
in it is scanned. -/
theorem scanAll_eq_ok_iff (total : Nat) {fuel : Nat} {cs : List Char}
    (hfuel : cs.length ≤ fuel) (read : List Token) :
    scanAll total fuel cs = .ok read ↔ Laid Token.EndsAt read cs := by
  induction fuel generalizing cs read with
  | zero =>
    rw [List.eq_nil_of_length_eq_zero (Nat.le_zero.mp hfuel), Laid.nil_iff]
    simp [scanAll, eq_comm]
  | succ fuel ih =>
    cases cs with
    | nil => simp [scanAll, Laid.nil_iff, eq_comm]
    | cons c rest =>
      have hrest : rest.length ≤ fuel := Nat.le_of_succ_le_succ hfuel
      have hafter {cs after : List Char} (h : rest = cs ++ after) :
          after.length ≤ fuel := by
        rw [h, List.length_append] at hrest
        omega
      cases hc : Text.isBlank c with
      | true => rw [scanAll, if_pos hc, Laid.cons_of_isBlank hc, ih hrest]
      | false =>
        rw [scanAll_cons_eq_ok_iff hc, Laid.cons_of_not_isBlank hc]
        constructor
        · rintro ⟨token, after, others, hread, hothers, rfl⟩
          obtain ⟨written, hspelled, htext, hends⟩ := scanToken_sound hread
          obtain ⟨d, cs, rfl, _⟩ := hspelled.exists_cons
          obtain ⟨rfl, hrest⟩ := List.cons.inj htext
          exact ⟨token, others, cs, after, rfl, hrest, hspelled, hends,
            (ih (hafter hrest) others).mp hothers⟩
        · rintro ⟨token, others, cs, after, rfl, rfl, hspelled, hends, hlaid⟩
          exact ⟨token, after, others, scanToken_complete hspelled hends _,
            (ih (hafter rfl) others).mpr hlaid, rfl⟩

/-- A text is read into tokens exactly if they are laid out in it. -/
theorem tokens_eq_ok_iff (text : String) (read : List Token) :
    tokens text = .ok read ↔ Laid Token.EndsAt read text.toList :=
  scanAll_eq_ok_iff _ (Nat.le_refl _) read

end Query

end Lockstep
