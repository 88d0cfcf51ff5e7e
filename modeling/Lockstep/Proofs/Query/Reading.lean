import Lockstep.Proofs.Query.Lexing
import Lockstep.Query.Parse
set_option autoImplicit false

/-!
# Reading terminals

Every reader of the parser takes the terminals of what it returns off the front
of the tokens.  A reader that ends where a part is missing (a label, predicates,
a limit, one more column) returns a part that is there only if it is not
followed by what would belong to it; in a query it never is, because each part
is followed by a terminal that starts nothing else.
-/

namespace Lockstep

namespace Query

/-- The first tokens stand for the terminals, and `rest` is behind them. -/
def Reads : List Terminal → List Token → List Token → Prop
  | [], tokens, rest => tokens = rest
  | t :: ts, tokens, rest =>
    ∃ token after, tokens = token :: after ∧ t.ReadAs token ∧ Reads ts after rest

theorem Reads.append {ts us : List Terminal} {tokens mid rest : List Token}
    (h : Reads ts tokens mid) (hmid : Reads us mid rest) :
    Reads (ts ++ us) tokens rest := by
  induction ts generalizing tokens with
  | nil => exact h ▸ hmid
  | cons t ts ih =>
    obtain ⟨token, after, rfl, hread, hafter⟩ := h
    exact ⟨token, after, rfl, hread, ih hafter⟩

theorem reads_append_iff {ts us : List Terminal} {tokens rest : List Token} :
    Reads (ts ++ us) tokens rest ↔ ∃ mid, Reads ts tokens mid ∧ Reads us mid rest := by
  refine ⟨fun h => ?_, fun ⟨_, h, hmid⟩ => h.append hmid⟩
  induction ts generalizing tokens with
  | nil => exact ⟨tokens, rfl, h⟩
  | cons t ts ih =>
    obtain ⟨token, after, rfl, hread, hafter⟩ := h
    obtain ⟨mid, hts, hus⟩ := ih hafter
    exact ⟨mid, ⟨token, after, rfl, hread, hts⟩, hus⟩

theorem reads_cons_iff {t : Terminal} {ts : List Terminal} {tokens rest : List Token} :
    Reads (t :: ts) tokens rest ↔ ∃ mid, Reads [t] tokens mid ∧ Reads ts mid rest :=
  @reads_append_iff [t] ts tokens rest

theorem reads_singleton_iff {t : Terminal} {tokens rest : List Token} :
    Reads [t] tokens rest ↔ ∃ token, tokens = token :: rest ∧ t.ReadAs token := by
  simp only [Reads]
  exact ⟨fun ⟨token, _, h, hread, hrest⟩ => ⟨token, hrest ▸ h, hread⟩,
    fun ⟨token, h, hread⟩ => ⟨token, rest, h, hread, rfl⟩⟩

theorem reads_nil_iff_forall₂ {ts : List Terminal} {tokens : List Token} :
    Reads ts tokens [] ↔ List.Forall₂ Terminal.ReadAs ts tokens := by
  induction ts generalizing tokens with
  | nil => simp [Reads]
  | cons t ts ih => simp only [Reads, ih, List.forall₂_cons_left_iff]; grind

theorem Reads.length {ts : List Terminal} {tokens rest : List Token}
    (h : Reads ts tokens rest) :
    tokens.length = ts.length + rest.length := by
  induction ts generalizing tokens with
  | nil => simp [show tokens = rest from h]
  | cons t ts ih =>
    obtain ⟨token, after, rfl, _, hafter⟩ := h
    simp [ih hafter]
    omega

/-! ## Single tokens -/

theorem skip?_eq_some_iff {accept : Token → Bool} {tokens rest : List Token} :
    skip? accept tokens = some rest ↔ ∃ token, tokens = token :: rest ∧
      accept token = true := by
  cases tokens with
  | nil => simp [skip?]
  | cons token after => simp [skip?]; grind

/-- The property is that of the tokens that stand for a terminal. -/
def Accepts (accept : Token → Bool) (t : Terminal) : Prop :=
  ∀ token, accept token = true ↔ t.ReadAs token

theorem accepts_keyword (lower : String) :
    Accepts (isKeyword lower) (.keyword lower) := by
  intro token
  cases token <;> simp [isKeyword, Terminal.ReadAs]

theorem accepts_sign (s : Symbol) : Accepts (isSymbol s) (.sign s) := by
  intro token
  cases token <;> simp [isSymbol, Terminal.ReadAs]

theorem Accepts.skip? {accept : Token → Bool} {t : Terminal} (h : Accepts accept t)
    {tokens rest : List Token} :
    skip? accept tokens = some rest ↔ Reads [t] tokens rest := by
  rw [skip?_eq_some_iff, reads_singleton_iff]
  exact exists_congr fun token => and_congr_right fun _ => h token

/-- No token with the property comes next. -/
def Stops (accept : Token → Bool) (tokens : List Token) : Prop :=
  skip? accept tokens = none

theorem stops_nil (accept : Token → Bool) : Stops accept [] := rfl

theorem Reads.stops {accept : Token → Bool} {t : Terminal} {ts : List Terminal}
    {tokens rest : List Token} (h : Reads (t :: ts) tokens rest)
    (hother : ∀ token, t.ReadAs token → accept token = false) :
    Stops accept tokens := by
  obtain ⟨token, after, rfl, hread, _⟩ := h
  simp [Stops, skip?, hother token hread]

theorem isSymbol_of_readAs_sign {s t : Symbol} (h : s ≠ t) {token : Token}
    (hread : (Terminal.sign s).ReadAs token) : isSymbol t token = false := by
  cases token <;> simp_all [isSymbol, Terminal.ReadAs]

theorem isSymbol_of_readAs_keyword {lower : String} {t : Symbol} {token : Token}
    (hread : (Terminal.keyword lower).ReadAs token) : isSymbol t token = false := by
  cases token <;> simp_all [isSymbol, Terminal.ReadAs]

theorem isKeyword_of_readAs_sign {lower : String} {s : Symbol} {token : Token}
    (hread : (Terminal.sign s).ReadAs token) : isKeyword lower token = false := by
  cases token <;> simp_all [isKeyword, Terminal.ReadAs]

theorem isKeyword_of_readAs_keyword {lower other : String} (h : lower ≠ other)
    {token : Token} (hread : (Terminal.keyword lower).ReadAs token) :
    isKeyword other token = false := by
  cases token <;> simp_all [isKeyword, Terminal.ReadAs]

theorem demand_eq_ok_iff {wanted : Wanted} {accept : Token → Bool} {t : Terminal}
    (h : Accepts accept t) {tokens rest : List Token} :
    demand wanted accept tokens = .ok rest ↔ Reads [t] tokens rest := by
  rw [← h.skip?, demand]
  cases Query.skip? accept tokens <;> simp

theorem demandKeyword_eq_ok_iff {name lower : String} {tokens rest : List Token} :
    demandKeyword name lower tokens = .ok rest ↔ Reads [.keyword lower] tokens rest :=
  demand_eq_ok_iff (accepts_keyword lower)

theorem demandSymbol_eq_ok_iff {s : Symbol} {tokens rest : List Token} :
    demandSymbol s tokens = .ok rest ↔ Reads [.sign s] tokens rest :=
  demand_eq_ok_iff (accepts_sign s)

theorem exists_head_iff {token : Token} {after rest : List Token} {p : Token → Prop} :
    (∃ first, token :: after = first :: rest ∧ p first) ↔ after = rest ∧ p token := by
  grind

theorem identifier_eq_ok_iff {tokens rest : List Token} {name : String} :
    identifier tokens = .ok (name, rest) ↔ Reads [.name name] tokens rest := by
  rw [reads_singleton_iff]
  cases tokens with
  | nil => simp [identifier]
  | cons token after =>
    rw [exists_head_iff]
    cases token <;> simp [identifier, Terminal.ReadAs, and_comm]

theorem boundName_eq_ok_iff {binding : String} {tokens rest : List Token} :
    boundName binding tokens = .ok rest ↔ Reads [.name binding] tokens rest := by
  simp only [boundName, bind_eq_ok_iff, Prod.exists, identifier_eq_ok_iff]
  constructor
  · rintro ⟨name, after, hname, h⟩
    split at h
    · rename_i hbinding
      cases h
      exact hbinding ▸ hname
    · cases h
  · intro h
    exact ⟨binding, rest, h, if_pos rfl⟩

theorem wordLiteral?_eq_some_iff {text : String} {value : Value} :
    wordLiteral? text = some value ↔ literalWord? value = some text.toLower := by
  unfold wordLiteral?
  constructor
  · intro h
    split at h <;> rename_i hword <;> cases h <;> exact congrArg some hword.symm
  · intro h
    cases value with
    | null => simp [← Option.some.inj h]
    | bool b => cases b <;> simp [← Option.some.inj h]
    | _ => cases h

theorem literal_eq_ok_iff {tokens rest : List Token} {value : Value} :
    literal tokens = .ok (value, rest) ↔ Reads [.literal value] tokens rest := by
  rw [reads_singleton_iff]
  cases tokens with
  | nil => simp [literal]
  | cons token after =>
    rw [exists_head_iff]
    cases token with
    | literal read => simp [literal, Terminal.ReadAs, and_comm]
    | word text =>
      simp only [literal, Terminal.ReadAs, ← wordLiteral?_eq_some_iff]
      cases wordLiteral? text <;> simp [and_comm]
    | symbol s => simp [literal, Terminal.ReadAs]

theorem comparison?_eq_some_iff {s : Symbol} {c : Comparison} :
    comparison? s = some c ↔ s = c.sign := by
  cases s <;> cases c <;> simp [comparison?, Comparison.sign]

/-! ## Parts -/

theorem predicate_eq_ok_iff {binding : String} {tokens rest : List Token}
    {p : Predicate} :
    predicate binding tokens = .ok (p, rest) ↔
      Reads (p.terminals binding) tokens rest := by
  simp only [predicate, bind_eq_ok_iff, boundName_eq_ok_iff, demandSymbol_eq_ok_iff,
    Prod.exists, identifier_eq_ok_iff]
  constructor
  · rintro ⟨behind, hname, after, hdot, field, signed, hfield, h⟩
    split at h
    · rename_i sign compared
      simp only [bind_eq_ok_iff, Prod.exists, literal_eq_ok_iff] at h
      obtain ⟨operand, last, hoperand, h⟩ := h
      split at h
      · rename_i comparison hcomparison
        cases h
        have hsign :
            Reads [.sign comparison.sign] (.symbol sign :: compared) compared :=
          reads_singleton_iff.mpr ⟨_, rfl, comparison?_eq_some_iff.mp hcomparison⟩
        exact hname.append (hdot.append (hfield.append (hsign.append hoperand)))
      · cases h
    · cases h
  · intro h
    obtain ⟨behind, hname, h⟩ := reads_cons_iff.mp h
    obtain ⟨after, hdot, h⟩ := reads_cons_iff.mp h
    obtain ⟨signed, hfield, h⟩ := reads_cons_iff.mp h
    obtain ⟨compared, hsign, hoperand⟩ := reads_cons_iff.mp h
    refine ⟨behind, hname, after, hdot, p.field, signed, hfield, ?_⟩
    obtain ⟨token, rfl, hstands⟩ := reads_singleton_iff.mp hsign
    cases token with
    | symbol s =>
      simp only [bind_eq_ok_iff, Prod.exists, literal_eq_ok_iff]
      refine ⟨p.operand, rest, hoperand, ?_⟩
      rw [comparison?_eq_some_iff.mpr hstands]
    | word text => exact hstands.elim
    | literal value => exact hstands.elim

theorem item_sound {binding : String} {tokens rest : List Token} {i : Item}
    (h : item binding tokens = .ok (i, rest)) :
    i.IsOf binding ∧ Reads i.terminals tokens rest := by
  simp only [item, bind_eq_ok_iff, boundName_eq_ok_iff] at h
  obtain ⟨after, hname, h⟩ := h
  split at h
  · rename_i behind hdot
    simp only [bind_eq_ok_iff, Prod.exists, identifier_eq_ok_iff] at h
    obtain ⟨name, _, hproperty, h⟩ := h
    cases h
    exact ⟨rfl, hname.append (((accepts_sign .dot).skip?.mp hdot).append hproperty)⟩
  · cases h
    exact ⟨rfl, hname⟩

theorem item_complete {binding : String} {tokens rest : List Token} {i : Item}
    (hof : i.IsOf binding) (h : Reads i.terminals tokens rest)
    (hrest : Stops (isSymbol .dot) rest) :
    item binding tokens = .ok (i, rest) := by
  simp only [item, bind_eq_ok_iff, boundName_eq_ok_iff]
  cases i with
  | node name =>
    cases hof
    exact ⟨rest, h, by rw [hrest]⟩
  | property name property =>
    cases hof
    obtain ⟨after, hname, h⟩ := reads_cons_iff.mp h
    obtain ⟨behind, hdot, hproperty⟩ := reads_cons_iff.mp h
    refine ⟨after, hname, ?_⟩
    rw [(accepts_sign .dot).skip?.mpr hdot]
    simp only [bind_eq_ok_iff, Prod.exists, identifier_eq_ok_iff]
    exact ⟨property, rest, hproperty, rfl⟩

section Separated

variable {α : Type} {part : List Token → Except ParseError (Parsed α)}
  {terminals : α → List Terminal}
  {accept : Token → Bool} {separator : Terminal} (haccept : Accepts accept separator)

include haccept

/-- Parts that are read stand with separators between them. -/
theorem separated_sound {P : α → Prop}
    (hpart : ∀ {tokens x rest}, part tokens = .ok (x, rest) →
      P x ∧ Reads (terminals x) tokens rest) {fuel : Nat} {tokens rest : List Token}
    {xs : List α} (hfuel : tokens.length < fuel)
    (h : separated part accept fuel tokens = .ok (xs, rest)) :
    xs ≠ [] ∧ (∀ x ∈ xs, P x) ∧
      Reads (joined separator (xs.map terminals)) tokens rest := by
  induction fuel generalizing tokens xs with
  | zero => cases hfuel
  | succ fuel ih =>
    simp only [separated, bind_eq_ok_iff, Prod.exists] at h
    obtain ⟨x, after, hx, h⟩ := h
    obtain ⟨hgood, hreads⟩ := hpart hx
    split at h
    · rename_i behind hseparator
      simp only [bind_eq_ok_iff, Prod.exists] at h
      obtain ⟨others, _, hothers, h⟩ := h
      cases h
      have hseparated := haccept.skip?.mp hseparator
      have hshort : behind.length < fuel := by
        have hbehind := hreads.length
        have hafter := hseparated.length
        rw [List.length_singleton] at hafter
        omega
      obtain ⟨hsome, hall, hrest⟩ := ih hshort hothers
      obtain ⟨y, ys, rfl⟩ := List.exists_cons_of_ne_nil hsome
      exact ⟨List.cons_ne_nil _ _, List.forall_mem_cons.mpr ⟨hgood, hall⟩,
        hreads.append (hseparated.append hrest)⟩
    · cases h
      exact ⟨List.cons_ne_nil _ _, List.forall_mem_cons.mpr ⟨hgood, by simp⟩, hreads⟩

/-- Parts with separators between them are read, in front of what is neither a
separator nor goes on with the last part. -/
theorem separated_complete {P : α → Prop} {Q : List Token → Prop}
    (hpart : ∀ {x tokens rest}, P x → Reads (terminals x) tokens rest → Q rest →
      part tokens = .ok (x, rest))
    (hends : ∀ {tokens rest}, Reads [separator] tokens rest → Q tokens) {xs : List α}
    (hsome : xs ≠ []) (hall : ∀ x ∈ xs, P x) {fuel : Nat} {tokens rest : List Token}
    (hfuel : tokens.length < fuel)
    (h : Reads (joined separator (xs.map terminals)) tokens rest) (hlast : Q rest)
    (hstop : Stops accept rest) :
    separated part accept fuel tokens = .ok (xs, rest) := by
  induction xs generalizing fuel tokens with
  | nil => exact (hsome rfl).elim
  | cons x xs ih =>
    obtain ⟨hx, hxs⟩ := List.forall_mem_cons.mp hall
    obtain ⟨fuel, rfl⟩ := Nat.exists_eq_succ_of_ne_zero (Nat.ne_zero_of_lt hfuel)
    simp only [separated, bind_eq_ok_iff, Prod.exists]
    cases xs with
    | nil =>
      refine ⟨x, rest, hpart hx h hlast, ?_⟩
      rw [hstop]
    | cons y ys =>
      obtain ⟨after, hreads, h⟩ := reads_append_iff.mp h
      obtain ⟨behind, hseparator, h⟩ := reads_cons_iff.mp h
      have hshort : behind.length < fuel := by
        have hbehind := hreads.length
        have hafter := hseparator.length
        rw [List.length_singleton] at hafter
        omega
      refine ⟨x, after, hpart hx hreads (hends hseparator), ?_⟩
      rw [haccept.skip?.mpr hseparator]
      simp only [bind_eq_ok_iff, Prod.exists]
      exact ⟨_, _, ih (List.cons_ne_nil _ _) hxs hshort h, rfl⟩

end Separated

theorem label?_sound {tokens rest : List Token} {label : Option String}
    (h : label? tokens = .ok (label, rest)) :
    Reads (MatchQuery.labelTerminals label) tokens rest := by
  unfold label? at h
  split at h
  · rename_i behind hcolon
    simp only [bind_eq_ok_iff, Prod.exists, identifier_eq_ok_iff] at h
    obtain ⟨name, _, hname, h⟩ := h
    cases h
    exact ((accepts_sign .colon).skip?.mp hcolon).append hname
  · cases h
    rfl

theorem label?_complete {tokens rest : List Token} {label : Option String}
    (h : Reads (MatchQuery.labelTerminals label) tokens rest)
    (hstop : Stops (isSymbol .colon) rest) :
    label? tokens = .ok (label, rest) := by
  unfold label?
  cases label with
  | none =>
    rw [show tokens = rest from h, hstop]
  | some label =>
    obtain ⟨behind, hcolon, hname⟩ := reads_cons_iff.mp h
    rw [(accepts_sign .colon).skip?.mpr hcolon]
    simp only [bind_eq_ok_iff, Prod.exists, identifier_eq_ok_iff]
    exact ⟨label, rest, hname, rfl⟩

theorem limit?_sound {tokens rest : List Token} {limit : Option Value}
    (h : limit? tokens = .ok (limit, rest)) :
    Reads (MatchQuery.limitTerminals limit) tokens rest := by
  unfold limit? at h
  split at h
  · rename_i behind hkeyword
    simp only [bind_eq_ok_iff, Prod.exists, literal_eq_ok_iff] at h
    obtain ⟨value, _, hvalue, h⟩ := h
    cases h
    exact ((accepts_keyword "limit").skip?.mp hkeyword).append hvalue
  · cases h
    rfl

theorem limit?_complete {tokens rest : List Token} {limit : Option Value}
    (h : Reads (MatchQuery.limitTerminals limit) tokens rest)
    (hstop : Stops (isKeyword "limit") rest) : limit? tokens = .ok (limit, rest) := by
  unfold limit?
  cases limit with
  | none =>
    rw [show tokens = rest from h, hstop]
  | some limit =>
    obtain ⟨behind, hkeyword, hvalue⟩ := reads_cons_iff.mp h
    rw [(accepts_keyword "limit").skip?.mpr hkeyword]
    simp only [bind_eq_ok_iff, Prod.exists, literal_eq_ok_iff]
    exact ⟨limit, rest, hvalue, rfl⟩

theorem predicates_sound {binding : String} {tokens rest : List Token}
    {ps : List Predicate} (h : predicates binding tokens = .ok (ps, rest)) :
    Reads (MatchQuery.whereTerminals binding ps) tokens rest := by
  unfold predicates at h
  split at h
  · rename_i behind hkeyword
    obtain ⟨hsome, -, hreads⟩ :=
      separated_sound (P := fun _ => True) (accepts_keyword "and")
      (fun hp => ⟨trivial, predicate_eq_ok_iff.mp hp⟩) (Nat.lt_succ_self _) h
    obtain ⟨p, others, rfl⟩ := List.exists_cons_of_ne_nil hsome
    exact ((accepts_keyword "where").skip?.mp hkeyword).append hreads
  · cases h
    rfl

theorem predicates_complete {binding : String} {tokens rest : List Token}
    {ps : List Predicate} (h : Reads (MatchQuery.whereTerminals binding ps) tokens rest)
    (hwhere : Stops (isKeyword "where") rest) (hand : Stops (isKeyword "and") rest) :
    predicates binding tokens = .ok (ps, rest) := by
  unfold predicates
  cases ps with
  | nil => rw [show tokens = rest from h, hwhere]
  | cons p others =>
    obtain ⟨behind, hkeyword, hreads⟩ := reads_cons_iff.mp h
    rw [(accepts_keyword "where").skip?.mpr hkeyword]
    exact separated_complete (P := fun _ => True) (Q := fun _ => True)
      (accepts_keyword "and")
      (fun _ hp _ => predicate_eq_ok_iff.mpr hp) (fun _ => trivial)
        (List.cons_ne_nil _ _) (by simp)
      (Nat.lt_succ_self _) hreads trivial hand

/-! ## Queries -/

end Query

/-- Something is returned, and all of it is of the node that the pattern binds. -/
def MatchQuery.ReturnsBound (q : MatchQuery) : Prop :=
  q.returns ≠ [] ∧ ∀ item ∈ q.returns, item.IsOf q.binding

namespace Query

/-- Tokens that are read as a query stand for its terminals. -/
theorem ofTokens_sound {read : List Token} {q : MatchQuery}
    (h : ofTokens read = .ok q) :
    q.ReturnsBound ∧ ∃ ending ∈ [[], [Terminal.sign .semicolon]],
      Reads (q.terminals ++ ending) read [] := by
  simp only [ofTokens, bind_eq_ok_iff, demandKeyword_eq_ok_iff, demandSymbol_eq_ok_iff,
    Prod.exists, identifier_eq_ok_iff] at h
  obtain ⟨t₁, hmatch, t₂, hopen, binding, t₃, hbinding, label, t₄, hlabel, t₅, hclose,
    ps, t₆, hwhere, t₇, hreturn, returns, t₈, hreturns, limit, t₉, hlimit, h⟩ := h
  obtain ⟨hsome, hall, hitems⟩ := separated_sound (accepts_sign .comma) item_sound
    (Nat.lt_succ_self _) hreturns
  have hreads :
      Reads (MatchQuery.terminals ⟨binding, label, ps, returns, limit⟩) read t₉ :=
    hmatch.append
      (hopen.append (hbinding.append ((label?_sound hlabel).append (hclose.append
      ((predicates_sound hwhere).append
        (hreturn.append (hitems.append (limit?_sound hlimit))))))))
  split at h
  · rename_i hend
    cases h
    refine ⟨⟨hsome, hall⟩, ?_⟩
    cases hsemicolon : skip? (isSymbol .semicolon) t₉ with
    | none =>
      rw [hsemicolon, Option.getD_none] at hend
      exact ⟨[], by simp, hreads.append hend⟩
    | some rest =>
      rw [hsemicolon, Option.getD_some] at hend
      subst hend
      exact ⟨_, by simp, hreads.append ((accepts_sign .semicolon).skip?.mp hsemicolon)⟩
  · cases h

theorem stops_of_ending {ending : List Terminal}
    (hending : ending ∈ [[], [Terminal.sign .semicolon]]) {tokens : List Token}
    (h : Reads ending tokens []) {accept : Token → Bool}
    (hother : ∀ token, (Terminal.sign .semicolon).ReadAs token → accept token = false) :
    Stops accept tokens := by
  rcases List.mem_cons.mp hending with rfl | hending
  · rw [show tokens = [] from h]
    exact stops_nil accept
  · rw [List.mem_singleton.mp hending] at h
    exact h.stops hother

/-- Tokens that stand for the terminals of a query are read as that query. -/
theorem ofTokens_complete {read : List Token} {q : MatchQuery} (hbound : q.ReturnsBound)
    {ending : List Terminal} (hending : ending ∈ [[], [Terminal.sign .semicolon]])
    (h : Reads (q.terminals ++ ending) read []) : ofTokens read = .ok q := by
  obtain ⟨t₉, hquery, hend⟩ := reads_append_iff.mp h
  obtain ⟨t₁, hmatch, hquery⟩ := reads_cons_iff.mp hquery
  obtain ⟨t₂, hopen, hquery⟩ := reads_cons_iff.mp hquery
  obtain ⟨t₃, hbinding, hquery⟩ := reads_cons_iff.mp hquery
  obtain ⟨t₄, hlabel, hquery⟩ := reads_append_iff.mp hquery
  obtain ⟨t₅, hclose, hquery⟩ := reads_cons_iff.mp hquery
  obtain ⟨t₆, hwhere, hquery⟩ := reads_append_iff.mp hquery
  obtain ⟨t₇, hreturn, hquery⟩ := reads_cons_iff.mp hquery
  obtain ⟨t₈, hitems, hlimit⟩ := reads_append_iff.mp hquery
  have hbehind {accept : Token → Bool}
      (hlimited : ∀ token, (Terminal.keyword "limit").ReadAs token →
        accept token = false)
      (hother : ∀ token, (Terminal.sign .semicolon).ReadAs token →
        accept token = false) :
      Stops accept t₈ := by
    cases hq : q.limit with
    | none =>
      rw [hq] at hlimit
      rw [show t₈ = t₉ from hlimit]
      exact stops_of_ending hending hend hother
    | some limit =>
      rw [hq] at hlimit
      exact hlimit.stops hlimited
  have hreturns : separated (item q.binding) (isSymbol .comma) (t₇.length + 1) t₇ =
      .ok (q.returns, t₈) :=
    separated_complete (accepts_sign .comma) item_complete
      (fun h => h.stops fun _ => isSymbol_of_readAs_sign (by decide)) hbound.1 hbound.2
      (Nat.lt_succ_self _) hitems
      (hbehind (fun _ => isSymbol_of_readAs_keyword) fun _ =>
        isSymbol_of_readAs_sign (by decide))
      (hbehind (fun _ => isSymbol_of_readAs_keyword) fun _ =>
        isSymbol_of_readAs_sign (by decide))
  simp only [ofTokens, bind_eq_ok_iff, demandKeyword_eq_ok_iff, demandSymbol_eq_ok_iff,
    Prod.exists, identifier_eq_ok_iff]
  refine ⟨t₁, hmatch, t₂, hopen, q.binding, t₃, hbinding, q.label, t₄, ?_, t₅, hclose,
    q.predicates, t₆, ?_, t₇, hreturn, q.returns, t₈, hreturns, q.limit, t₉, ?_, ?_⟩
  · exact label?_complete hlabel
      (hclose.stops fun _ => isSymbol_of_readAs_sign (by decide))
  · exact predicates_complete hwhere
      (hreturn.stops fun _ => isKeyword_of_readAs_keyword (by decide))
      (hreturn.stops fun _ => isKeyword_of_readAs_keyword (by decide))
  · exact limit?_complete hlimit
      (stops_of_ending hending hend fun _ => isKeyword_of_readAs_sign)
  · rcases List.mem_cons.mp hending with rfl | hending
    · rw [show t₉ = [] from hend]
      rfl
    · rw [List.mem_singleton.mp hending] at hend
      rw [(accepts_sign .semicolon).skip?.mpr hend]
      rfl

end Query

end Lockstep
