import Lockstep.Query.Basic
import Lockstep.Query.Token
import Mathlib.Data.List.Forall2
set_option autoImplicit false

/-!
# The grammar of queries

What a query text is, told without a scanner and without a parser.  A query is a
sequence of terminals; each terminal stands as one token, a keyword as a word in
any ASCII case; a token is spelled by characters, a number or a string by many;
and the spellings stand one after the other with white space in between, which
has to be there only between a word and a word or digit after it.
-/

namespace Lockstep

namespace Query

/-! ## Names and literals -/

/-- A letter or underscore, then letters, numerals and underscores. -/
def IsWord : List Char → Prop
  | [] => False
  | c :: cs => Text.startsWord c = true ∧ ∀ d ∈ cs, Text.continuesWord d = true

/-- A name; keywords are names too. -/
def IsName (name : String) : Prop := IsWord name.toList

/-- A value that a literal of a query can have. -/
def IsLiteral : Value → Prop
  | .null | .bool _ | .string _ | .number (.float _) => True
  | .number (.int n) => -Number.maxSigned - 1 ≤ n ∧ n ≤ Number.maxSigned
  | .array _ | .object _ => False

/-! ## Spellings -/

/-- One or more decimal digits. -/
def IsDigits (cs : List Char) : Prop := cs ≠ [] ∧ ∀ c ∈ cs, c.isDigit = true

/-- The sign of a number, before its digits. -/
def minus (negative : Bool) : List Char := if negative then ['-'] else []

/-- The spellings of a number behind its sign.  An integer is one of 64 bits; a
number with a point is the binary64 number nearest to the decimal. -/
inductive SpellsNumber (negative : Bool) : Number → List Char → Prop where
  | int {digits : List Char} {n : Int} (whole : IsDigits digits)
      (value : n = if negative then -(NumberLiteral.digitsValue digits : Int)
        else NumberLiteral.digitsValue digits)
      (signed : -Number.maxSigned - 1 ≤ n ∧ n ≤ Number.maxSigned) :
        SpellsNumber negative (.int n) digits
  | float {before behind : List Char} {f : Binary64} (whole : IsDigits before)
      (fraction : IsDigits behind)
      (nearest : Binary64.ofDecimal? negative
        (NumberLiteral.digitsValue (before ++ behind))
        (-(behind.length : Int)) = some f) :
      SpellsNumber negative (.float f) (before ++ '.' :: behind)

/-- What may stand between two quotes for some characters: a backslash before
any of them, and before a quote or a backslash always. -/
inductive Quoted (quote : Char) : List Char → List Char → Prop where
  | nil : Quoted quote [] []
  | plain {c : Char} {cs written : List Char} (inner : c ≠ quote) (bare : c ≠ '\\')
      (rest : Quoted quote cs written) : Quoted quote (c :: cs) (c :: written)
  | escaped {c : Char} {cs written : List Char} (rest : Quoted quote cs written) :
      Quoted quote (c :: cs) ('\\' :: c :: written)

/-- A quote of either sort. -/
def IsQuote (c : Char) : Prop := c = '\'' ∨ c = '"'

/-- The spellings of a token. -/
inductive Token.Spelled : Token → List Char → Prop where
  | word {cs : List Char} (name : IsWord cs) : Spelled (.word (String.ofList cs)) cs
  | symbol (s : Symbol) : Spelled (.symbol s) s.text.toList
  | differs : Spelled (.symbol .ne) ['!', '=']
  | number {negative : Bool} {n : Number} {digits : List Char}
      (spelled : SpellsNumber negative n digits) :
      Spelled (.literal (.number n)) (minus negative ++ digits)
  | string {quote : Char} {cs written : List Char} (either : IsQuote quote)
      (spelled : Quoted quote cs written) :
      Spelled (.literal (.string (String.ofList cs))) (quote :: (written ++ [quote]))

/-- Text that may follow a token: behind a word neither a word nor a digit. -/
def Token.Apart : Token → List Char → Prop
  | .word _, rest => ∀ c ∈ rest.head?, Text.startsWord c = false ∧ c.isDigit = false
  | _, _ => True

/-- Texts in which tokens stand one after the other, white space around them,
where a token bears what follows it. -/
inductive Laid (Bears : Token → List Char → Prop) : List Token → List Char → Prop where
  | done {blanks : List Char} (blank : ∀ c ∈ blanks, Text.isBlank c = true) :
      Laid Bears [] blanks
  | next {blanks written rest : List Char} {token : Token} {tokens : List Token}
      (blank : ∀ c ∈ blanks, Text.isBlank c = true) (spelled : token.Spelled written)
      (bears : Bears token rest) (others : Laid Bears tokens rest) :
      Laid Bears (token :: tokens) (blanks ++ (written ++ rest))

/-! ## Terminals -/

/-- What the grammar makes queries of. -/
inductive Terminal where
  /-- a keyword, given in lower case -/
  | keyword (lower : String)
  | name (text : String)
  | sign (symbol : Symbol)
  | literal (value : Value)

/-- The word of a literal that is one, in lower case. -/
def literalWord? : Value → Option String
  | .null => some "null"
  | .bool true => some "true"
  | .bool false => some "false"
  | _ => none

/-- The tokens that stand for a terminal. -/
def Terminal.ReadAs : Terminal → Token → Prop
  | .keyword lower, .word text => text.toLower = lower
  | .name text, .word word => word = text
  | .sign s, .symbol t => t = s
  | .literal value, .word text => literalWord? value = some text.toLower
  | .literal value, .literal read => read = value
  | _, _ => False

/-- The terminals of parts with a separator between them. -/
def joined (separator : Terminal) : List (List Terminal) → List Terminal
  | [] => []
  | [part] => part
  | part :: others => part ++ separator :: joined separator others

theorem joined_cons_cons (separator : Terminal) (part next : List Terminal)
    (others : List (List Terminal)) : joined separator (part :: next :: others) =
      part ++ separator :: joined separator (next :: others) := rfl

end Query

/-- The sign that a query has for a comparison. -/
def Comparison.sign : Comparison → Query.Symbol
  | .eq => .eq
  | .ne => .ne
  | .ge => .ge
  | .gt => .gt
  | .le => .le
  | .lt => .lt

open Query

/-- A predicate on the node that `binding` names. -/
def Predicate.terminals (binding : String) (p : Predicate) : List Terminal :=
  [.name binding, .sign .dot, .name p.field, .sign p.comparison.sign,
    .literal p.operand]

/-- A returned column. -/
def Item.terminals : Item → List Terminal
  | .node binding => [.name binding]
  | .property binding name => [.name binding, .sign .dot, .name name]

/-- The column is of the node that `binding` names. -/
def Item.IsOf (binding : String) : Item → Prop
  | .node name => name = binding
  | .property name _ => name = binding

/-- The property that a column names. -/
def Item.property? : Item → Option String
  | .node _ => none
  | .property _ name => some name

namespace MatchQuery

/-- The label behind a colon. -/
def labelTerminals : Option String → List Terminal
  | some label => [.sign .colon, .name label]
  | none => []

/-- The predicates behind WHERE. -/
def whereTerminals (binding : String) : List Predicate → List Terminal
  | [] => []
  | ps =>
    .keyword "where" :: joined (.keyword "and") (ps.map (Predicate.terminals binding))

/-- The literal behind LIMIT. -/
def limitTerminals : Option Value → List Terminal
  | some limit => [.keyword "limit", .literal limit]
  | none => []

/-- The terminals of a query. -/
def terminals (q : MatchQuery) : List Terminal :=
  .keyword "match" :: .sign .openParen :: .name q.binding :: (labelTerminals q.label ++
    .sign .closeParen :: (whereTerminals q.binding q.predicates ++
      .keyword "return" :: (joined (.sign .comma) (q.returns.map Item.terminals) ++
        limitTerminals q.limit)))

/-- What a query text can say: its names are names and its literals literals,
something is returned, and all of it is of the node that the pattern binds. -/
structure Expressible (q : MatchQuery) : Prop where
  binding : IsName q.binding
  label : ∀ label ∈ q.label, IsName label
  predicates : ∀ p ∈ q.predicates, IsName p.field ∧ IsLiteral p.operand
  returned : q.returns ≠ []
  returns : ∀ item ∈ q.returns, item.IsOf q.binding ∧ ∀ name ∈ item.property?, IsName name
  limit : ∀ limit ∈ q.limit, IsLiteral limit

/-- A text renders a query if its tokens stand for the terminals of the query,
with or without a semicolon behind them. -/
def RenderedBy (q : MatchQuery) (text : String) : Prop :=
  ∃ ending ∈ [[], [Terminal.sign .semicolon]], ∃ tokens,
    List.Forall₂ Terminal.ReadAs (q.terminals ++ ending) tokens ∧
    Laid Token.Apart tokens text.toList

end MatchQuery

end Lockstep
