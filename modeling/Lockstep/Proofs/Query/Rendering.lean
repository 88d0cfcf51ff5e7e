import Lockstep.Proofs.Query.Reading
import Mathlib.Data.List.Chain
set_option autoImplicit false

/-!
# Texts of queries

A text is read as a query exactly if the query is expressible and the text
renders it.  The grammar asks for white space only between words; the scanner
also would go on over a point behind a number, a sign behind "less" and a
numeral behind a word.  None of these comes up in a query, because of what its
terminals can be next to.
-/

namespace Lockstep

namespace Query

/-! ## What spellings start with -/

theorem Token.Spelled.notMem_signs {token : Token} {c : Char} {cs : List Char}
    (h : token.Spelled (c :: cs)) (hnot : ∀ s, token ≠ .symbol s) : c ∉ signs := by
  generalize hwritten : c :: cs = written at h
  cases h with
  | word name =>
    subst hwritten
    exact notMem_signs_of_startsWord name.1
  | symbol s => exact (hnot s rfl).elim
  | differs => exact (hnot .ne rfl).elim
  | @number negative n digits spelled =>
    obtain ⟨d, ds, rfl, hd⟩ := spelled.exists_cons
    cases negative with
    | false =>
      cases hwritten
      exact notMem_signs_of_isDigit hd
    | true =>
      cases hwritten
      decide
  | string either _ =>
    cases hwritten
    rcases either with rfl | rfl <;> decide

theorem Token.Spelled.isWord {text : String} {written : List Char}
    (h : (Token.word text).Spelled written) :
    IsWord written ∧ String.ofList written = text := by
  cases h with
  | word name => exact ⟨name, rfl⟩

/-- A spelling that would go on with a word starts a word or is a number. -/
theorem Token.Spelled.startsWord_or_isDigit {token : Token} {c : Char} {cs : List Char}
    (h : token.Spelled (c :: cs)) (hc : Text.continuesWord c = true) :
    Text.startsWord c = true ∨ c.isDigit = true := by
  generalize hwritten : c :: cs = written at h
  cases h with
  | word name =>
    subst hwritten
    exact .inl name.1
  | symbol s =>
    rw [Symbol.toList_text] at hwritten
    cases s <;> cases hwritten <;> exact absurd hc (by decide)
  | differs =>
    cases hwritten
    exact absurd hc (by decide)
  | @number negative n digits spelled =>
    obtain ⟨d, ds, rfl, hd⟩ := spelled.exists_cons
    cases negative with
    | false =>
      cases hwritten
      exact .inr hd
    | true =>
      cases hwritten
      exact absurd hc (by decide)
  | string either _ =>
    cases hwritten
    rcases either with rfl | rfl <;> exact absurd hc (by decide)

/-- A text starts with white space or with the spelling of its first token. -/
theorem Laid.isBlank_or_spelled {Bears : Token → List Char → Prop} {tokens : List Token}
    {text : List Char} (h : Laid Bears tokens text) {c : Char} (hc : c ∈ text.head?) :
    Text.isBlank c = true ∨ ∃ token cs, tokens.head? = some token ∧
      token.Spelled (c :: cs) := by
  obtain ⟨rest, rfl⟩ := List.head?_eq_some_iff.mp hc
  cases hblank : Text.isBlank c with
  | true => exact .inl rfl
  | false =>
    obtain ⟨token, others, cs, after, rfl, -, spelled, -, -⟩ :=
      (Laid.cons_of_not_isBlank hblank rest).mp h
    exact .inr ⟨token, cs, rfl, spelled⟩

theorem notMem_signs_of_isBlank {c : Char} : Text.isBlank c = true → c ∉ signs :=
  notMem_signs_of (by decide)

theorem endsNumber_of_head {rest : List Char}
    (h : ∀ c ∈ rest.head?, c.isDigit = false ∧ c ≠ '.') : EndsNumber rest := by
  cases rest with
  | nil => rfl
  | cons c rest =>
    obtain ⟨hdigit, hpoint⟩ := h c rfl
    simp [EndsNumber, scanDigits_cons, inNumber, hdigit, hpoint]

/-! ## What stands next to what -/

/-- A terminal that may stand behind another one in a query, as far as the
scanner cares: behind a literal a keyword or a semicolon, behind "less" and
"greater" a literal. -/
def Terminal.Precedes : Terminal → Terminal → Prop
  | .literal _, .keyword _ | .literal _, .sign .semicolon => True
  | .literal _, _ => False
  | .sign .lt, .literal _ | .sign .gt, .literal _ => True
  | .sign .lt, _ | .sign .gt, _ => False
  | _, _ => True

/-- What starts a text behind a terminal: white space, or the spelling of a
token for a terminal that may stand there. -/
theorem Laid.isBlank_or_precedes {t : Terminal} {ts : List Terminal}
    {tokens : List Token} {rest : List Char} (h : Laid Token.Apart tokens rest)
    (hts : List.Forall₂ Terminal.ReadAs ts tokens)
    (hnext : ∀ u ∈ ts.head?, t.Precedes u) {c : Char} (hc : c ∈ rest.head?) :
    Text.isBlank c = true ∨
      ∃ u token cs, t.Precedes u ∧ u.ReadAs token ∧ token.Spelled (c :: cs) := by
  refine (h.isBlank_or_spelled hc).imp_right ?_
  rintro ⟨token, cs, hhead, spelled⟩
  obtain ⟨others, rfl⟩ := List.head?_eq_some_iff.mp hhead
  obtain ⟨u, us, hu, -, rfl⟩ := List.forall₂_cons_right_iff.mp hts
  exact ⟨u, token, cs, hnext u rfl, hu, spelled⟩

theorem Laid.notMem_signs {s : Symbol} (hs : s = .lt ∨ s = .gt) {ts : List Terminal}
    {tokens : List Token} {rest : List Char} (h : Laid Token.Apart tokens rest)
    (hts : List.Forall₂ Terminal.ReadAs ts tokens)
    (hnext : ∀ u ∈ ts.head?, (Terminal.sign s).Precedes u) :
    ∀ c ∈ rest.head?, c ∉ signs := by
  intro c hc
  rcases h.isBlank_or_precedes hts hnext hc
    with hblank | ⟨u, token, cs, hprecedes, hu, spelled⟩
  · exact notMem_signs_of_isBlank hblank
  · refine spelled.notMem_signs ?_
    rintro t rfl
    cases u with
    | literal value => exact hu
    | _ => rcases hs with rfl | rfl <;> exact hprecedes

/-- Behind a number stands neither a digit nor a point. -/
theorem Laid.endsNumber {value : Value} {ts : List Terminal} {tokens : List Token}
    {rest : List Char} (h : Laid Token.Apart tokens rest)
    (hts : List.Forall₂ Terminal.ReadAs ts tokens)
    (hnext : ∀ u ∈ ts.head?, (Terminal.literal value).Precedes u) :
    EndsNumber rest := by
  refine endsNumber_of_head fun c hc => ?_
  rcases h.isBlank_or_precedes hts hnext hc
    with hblank | ⟨u, token, cs, hprecedes, hu, spelled⟩
  · constructor
    · by_contra hdigit
      have hcontinues := Text.continuesWord_of_isDigit (by simpa using hdigit)
      rw [Text.continuesWord_of_isBlank hblank] at hcontinues
      cases hcontinues
    · rintro rfl
      exact absurd hblank (by decide)
  · cases u with
    | keyword lower =>
      cases token with
      | word text =>
        have hstarts : Text.startsWord c = true := spelled.isWord.1.1
        refine ⟨Text.isDigit_of_startsWord hstarts, ?_⟩
        rintro rfl
        exact absurd hstarts (by decide)
      | _ => exact hu.elim
    | sign s =>
      cases s with
      | semicolon =>
        cases token with
        | symbol s =>
          cases hu
          cases spelled
          decide
        | _ => exact hu.elim
      | _ => exact hprecedes.elim
    | name text => exact hprecedes.elim
    | literal value => exact hprecedes.elim

/-- A token that bears the text behind it ends there, if that text starts with
what may stand behind it. -/
theorem Token.Apart.endsAt {token : Token} {t : Terminal} {ts : List Terminal}
    {tokens : List Token} {rest : List Char} (h : token.Apart rest)
    (hread : t.ReadAs token) (hts : List.Forall₂ Terminal.ReadAs ts tokens)
    (hnext : ∀ u ∈ ts.head?, t.Precedes u) (hlaid : Laid Token.Apart tokens rest) :
    token.EndsAt rest := by
  cases token with
  | word text =>
    intro c hc
    obtain ⟨hstarts, hdigit⟩ := h c hc
    rcases hlaid.isBlank_or_spelled hc with hblank | ⟨next, cs, -, spelled⟩
    · exact Text.continuesWord_of_isBlank hblank
    · by_contra hcontinues
      rcases spelled.startsWord_or_isDigit (by simpa using hcontinues)
        with hfirst | hfirst
      · rw [hstarts] at hfirst
        cases hfirst
      · rw [hdigit] at hfirst
        cases hfirst
  | literal value =>
    cases t with
    | literal _ =>
      cases value with
      | number n => exact hlaid.endsNumber hts hnext
      | _ => trivial
    | _ => exact hread.elim
  | symbol s =>
    cases t with
    | sign _ =>
      cases hread
      cases s with
      | lt =>
        intro c hc
        have hsign := hlaid.notMem_signs (.inl rfl) hts hnext c hc
        exact ⟨fun h => hsign (h ▸ by decide), fun h => hsign (h ▸ by decide)⟩
      | gt =>
        intro c hc
        have hsign := hlaid.notMem_signs (.inr rfl) hts hnext c hc
        exact fun h => hsign (h ▸ by decide)
      | _ => trivial
    | _ => exact hread.elim

theorem Laid.endsAt {ts : List Terminal} {tokens : List Token} {text : List Char}
    (h : Laid Token.Apart tokens text) (hread : List.Forall₂ Terminal.ReadAs ts tokens)
    (hchain : List.IsChain Terminal.Precedes ts) : Laid Token.EndsAt tokens text := by
  induction h generalizing ts with
  | done blank => exact .done blank
  | next blank spelled bears others ih =>
    obtain ⟨t, ts, hfirst, hothers, rfl⟩ := List.forall₂_cons_right_iff.mp hread
    obtain ⟨hnext, hchain⟩ := List.isChain_cons.mp hchain
    exact .next blank spelled (bears.endsAt hfirst hothers hnext others)
      (ih hothers hchain)

theorem Token.EndsAt.apart {token : Token} {rest : List Char} (h : token.EndsAt rest) :
    token.Apart rest := by
  cases token with
  | word text =>
    intro c hc
    have hcontinues := h c hc
    constructor
    · by_contra hstarts
      rw [Text.continuesWord_of_startsWord (by simpa using hstarts)] at hcontinues
      cases hcontinues
    · by_contra hdigit
      rw [Text.continuesWord_of_isDigit (by simpa using hdigit)] at hcontinues
      cases hcontinues
  | literal value => trivial
  | symbol s => trivial

theorem Laid.apart {tokens : List Token} {text : List Char}
    (h : Laid Token.EndsAt tokens text) :
    Laid Token.Apart tokens text := by
  induction h with
  | done blank => exact .done blank
  | next blank spelled bears _ ih => exact .next blank spelled bears.apart ih

/-! ## The terminals of a query -/

/-- Terminals that may stand before anything. -/
theorem isChain_append_of_free {ts rest : List Terminal}
    (hfree : ∀ t ∈ ts, ∀ u, t.Precedes u) (h : List.IsChain Terminal.Precedes rest) :
    List.IsChain Terminal.Precedes (ts ++ rest) := by
  induction ts with
  | nil => exact h
  | cons t ts ih =>
    obtain ⟨ht, hts⟩ := List.forall_mem_cons.mp hfree
    exact List.isChain_cons.mpr ⟨fun u _ => ht u, ih hts⟩

theorem isChain_predicate (binding : String) (p : Predicate) {rest : List Terminal}
    (hrest : ∀ u ∈ rest.head?, (Terminal.literal p.operand).Precedes u)
    (h : List.IsChain Terminal.Precedes rest) :
    List.IsChain Terminal.Precedes (p.terminals binding ++ rest) := by
  have hsign : (Terminal.sign p.comparison.sign).Precedes (.literal p.operand) := by
    cases p.comparison <;> trivial
  exact .cons_cons trivial (.cons_cons trivial (.cons_cons trivial (.cons_cons hsign
    (List.isChain_cons.mpr ⟨hrest, h⟩))))

/-- Predicates may stand before a keyword. -/
theorem isChain_predicates (binding : String) (ps : List Predicate) (lower : String)
    {rest : List Terminal}
    (h : List.IsChain Terminal.Precedes (.keyword lower :: rest)) :
    List.IsChain Terminal.Precedes
      (joined (.keyword "and") (ps.map (Predicate.terminals binding)) ++
        .keyword lower :: rest) := by
  have hkeyword : ∀ (value : Value) (lower : String) (ts : List Terminal),
      ∀ u ∈ (Terminal.keyword lower :: ts).head?,
          (Terminal.literal value).Precedes u := by
    rintro value lower ts u ⟨⟩
    trivial
  induction ps with
  | nil => exact h
  | cons p ps ih =>
    cases ps with
    | nil => exact isChain_predicate binding p (hkeyword _ _ _) h
    | cons p' ps =>
      rw [List.map_cons, List.map_cons, joined_cons_cons, List.append_assoc]
      exact isChain_predicate binding p (hkeyword _ _ _)
        (List.isChain_cons.mpr ⟨fun _ _ => trivial, ih⟩)

theorem precedes_of_mem_item {i : Item} : ∀ t ∈ i.terminals, ∀ u, t.Precedes u := by
  cases i <;> simp [Item.terminals, Terminal.Precedes]

theorem precedes_of_mem_items {items : List Item} :
    ∀ t ∈ joined (.sign .comma) (items.map Item.terminals), ∀ u, t.Precedes u := by
  induction items with
  | nil => simp [joined]
  | cons i items ih =>
    cases items with
    | nil => exact precedes_of_mem_item
    | cons i' items =>
      rw [List.map_cons, List.map_cons, joined_cons_cons]
      exact List.forall_mem_append.mpr
        ⟨precedes_of_mem_item, List.forall_mem_cons.mpr ⟨fun _ => trivial, ih⟩⟩

theorem isChain_limit (limit : Option Value) {ending : List Terminal}
    (hending : ending ∈ [[], [Terminal.sign .semicolon]]) :
    List.IsChain Terminal.Precedes (MatchQuery.limitTerminals limit ++ ending) := by
  have hliteral (value : Value) :
      List.IsChain Terminal.Precedes (.literal value :: ending) := by
    rcases List.mem_cons.mp hending with rfl | hending
    · exact .singleton _
    · rw [List.mem_singleton.mp hending]
      exact .cons_cons trivial (.singleton _)
  cases limit with
  | none => exact (hliteral .null).tail
  | some value => exact .cons_cons trivial (hliteral value)

/-- The terminals of a query stand next to each other as they may. -/
theorem isChain_terminals (q : MatchQuery) {ending : List Terminal}
    (hending : ending ∈ [[], [Terminal.sign .semicolon]]) :
    List.IsChain Terminal.Precedes (q.terminals ++ ending) := by
  have hreturn : List.IsChain Terminal.Precedes (.keyword "return" ::
      (joined (.sign .comma) (q.returns.map Item.terminals) ++
        (MatchQuery.limitTerminals q.limit ++ ending))) :=
    List.isChain_cons.mpr ⟨fun _ _ => trivial,
      isChain_append_of_free precedes_of_mem_items (isChain_limit q.limit hending)⟩
  have hwhere :
    List.IsChain Terminal.Precedes (MatchQuery.whereTerminals q.binding q.predicates ++
      .keyword "return" :: (joined (.sign .comma) (q.returns.map Item.terminals) ++
        (MatchQuery.limitTerminals q.limit ++ ending))) := by
    cases q.predicates with
    | nil => exact hreturn
    | cons p ps =>
      exact List.isChain_cons.mpr
        ⟨fun _ _ => trivial, isChain_predicates q.binding (p :: ps) "return" hreturn⟩
  have hlabel : ∀ t ∈ MatchQuery.labelTerminals q.label, ∀ u, t.Precedes u := by
    cases q.label <;> simp [MatchQuery.labelTerminals, Terminal.Precedes]
  have hclose : List.IsChain Terminal.Precedes (.sign .closeParen ::
      (MatchQuery.whereTerminals q.binding q.predicates ++
        .keyword "return" :: (joined (.sign .comma) (q.returns.map Item.terminals) ++
          (MatchQuery.limitTerminals q.limit ++ ending)))) :=
    List.isChain_cons.mpr ⟨fun _ _ => trivial, hwhere⟩
  have hfree : ∀ t ∈ [Terminal.keyword "match", .sign .openParen, .name q.binding],
      ∀ u, t.Precedes u := by simp [Terminal.Precedes]
  have hopening := isChain_append_of_free hfree (isChain_append_of_free hlabel hclose)
  simpa only [MatchQuery.terminals, List.cons_append, List.append_assoc,
    List.nil_append] using hopening

/-! ## Names and literals -/

/-- What a terminal names is a name, and a literal one that a query can have. -/
def Terminal.Valid : Terminal → Prop
  | .name text => IsName text
  | .literal value => IsLiteral value
  | _ => True

/-- A terminal whose token can be spelled is valid. -/
theorem Token.Spelled.valid {token : Token} {written : List Char}
    (h : token.Spelled written) {t : Terminal} (hread : t.ReadAs token) : t.Valid := by
  cases t with
  | keyword lower => trivial
  | sign s => trivial
  | name text =>
    cases token with
    | word word =>
      obtain ⟨hword, rfl⟩ := h.isWord
      cases hread
      simpa [Terminal.Valid, IsName] using hword
    | _ => exact hread.elim
  | literal value =>
    cases token with
    | word text =>
      cases value with
      | null => trivial
      | bool b => trivial
      | _ => cases hread
    | literal read =>
      cases hread
      cases h with
      | number spelled =>
        cases spelled with
        | int _ _ signed => exact signed
        | float _ _ _ => trivial
      | string _ _ => trivial
    | symbol s => exact hread.elim

theorem Laid.valid {Bears : Token → List Char → Prop} {tokens : List Token}
    {text : List Char} (h : Laid Bears tokens text) {ts : List Terminal}
    (hread : List.Forall₂ Terminal.ReadAs ts tokens) :
    ∀ t ∈ ts, t.Valid := by
  induction h generalizing ts with
  | done _ =>
    cases hread
    simp
  | next _ spelled _ _ ih =>
    obtain ⟨t, ts, hfirst, hothers, rfl⟩ := List.forall₂_cons_right_iff.mp hread
    exact List.forall_mem_cons.mpr ⟨spelled.valid hfirst, ih hothers⟩

theorem mem_joined (separator : Terminal) {parts : List (List Terminal)}
    {part : List Terminal} (hpart : part ∈ parts) {t : Terminal} (ht : t ∈ part) :
    t ∈ joined separator parts := by
  induction parts with
  | nil => cases hpart
  | cons first others ih =>
    cases others with
    | nil =>
      rw [List.mem_singleton.mp hpart] at ht
      exact ht
    | cons next others =>
      rw [joined_cons_cons]
      rcases List.mem_cons.mp hpart with rfl | hpart
      · exact List.mem_append_left _ ht
      · exact List.mem_append_right _ (List.mem_cons_of_mem _ (ih hpart))

end Query

open Query

/-- A query with valid terminals that returns something, all of it of its
node, is expressible. -/
theorem MatchQuery.ReturnsBound.expressible {q : MatchQuery} (h : q.ReturnsBound)
    (hvalid : ∀ t ∈ q.terminals, t.Valid) : q.Expressible where
  binding := hvalid (.name q.binding) (by simp [terminals])
  label label hlabel :=
    hvalid (.name label) (by simp [terminals, labelTerminals, Option.mem_def.mp hlabel])
  predicates p hp := by
    have hmem : ∀ t ∈ p.terminals q.binding, t ∈ q.terminals := by
      intro t ht
      have hjoined := mem_joined (.keyword "and")
        (List.mem_map_of_mem (f := Predicate.terminals q.binding) hp) ht
      have hwhere : t ∈ whereTerminals q.binding q.predicates := by
        obtain ⟨first, others, hps⟩ :=
          List.exists_cons_of_ne_nil (List.ne_nil_of_mem hp)
        rw [hps] at hjoined ⊢
        exact List.mem_cons_of_mem _ hjoined
      simp [terminals, hwhere]
    exact ⟨hvalid (.name p.field) (hmem _ (by simp [Predicate.terminals])),
      hvalid (.literal p.operand) (hmem _ (by simp [Predicate.terminals]))⟩
  returned := h.1
  returns item hitem := by
    refine ⟨h.2 item hitem, fun name hname => ?_⟩
    have ht : Terminal.name name ∈ item.terminals := by
      cases item with
      | node binding => cases hname
      | property binding property =>
        cases hname
        simp [Item.terminals]
    have hjoined := mem_joined (.sign .comma)
      (List.mem_map_of_mem (f := Item.terminals) hitem) ht
    exact hvalid (.name name) (by simp [terminals, hjoined])
  limit limit hlimit :=
    hvalid (.literal limit)
      (by simp [terminals, limitTerminals, Option.mem_def.mp hlimit])

namespace Query

/-- Reading a text is reading its tokens. -/
theorem parse_eq_ok_iff_tokens {text : String} {q : MatchQuery} :
    parse text = .ok q ↔ ∃ read, tokens text = .ok read ∧ ofTokens read = .ok q := by
  unfold parse
  cases tokens text <;> simp

/-- A text that renders an expressible query is read as it. -/
theorem parse_of_renderedBy {text : String} {q : MatchQuery} (h : q.Expressible)
    (rendered : q.RenderedBy text) : parse text = .ok q := by
  obtain ⟨ending, hending, read, hstand, hlaid⟩ := rendered
  have hends := hlaid.endsAt hstand (isChain_terminals q hending)
  have hbound : q.ReturnsBound :=
    ⟨h.returned, fun item hitem => (h.returns item hitem).1⟩
  exact parse_eq_ok_iff_tokens.mpr ⟨read, (tokens_eq_ok_iff text read).mpr hends,
    ofTokens_complete hbound hending (reads_nil_iff_forall₂.mpr hstand)⟩

/-- A text is read as a query exactly if the query is expressible and the
text renders it. -/
theorem parse_eq_ok_iff (text : String) (q : MatchQuery) :
    parse text = .ok q ↔ q.Expressible ∧ q.RenderedBy text := by
  refine ⟨fun h => ?_, fun ⟨hexpressible, hrendered⟩ =>
    parse_of_renderedBy hexpressible hrendered⟩
  obtain ⟨read, hread, hquery⟩ := parse_eq_ok_iff_tokens.mp h
  obtain ⟨hbound, ending, hending, hreads⟩ := ofTokens_sound hquery
  have hlaid := (tokens_eq_ok_iff text read).mp hread
  have hstand := reads_nil_iff_forall₂.mp hreads
  have hvalid := hlaid.valid hstand
  exact ⟨hbound.expressible fun t ht => hvalid t (List.mem_append_left _ ht),
    ending, hending, read, hstand, hlaid.apart⟩

/-- White space is left out wherever no word would run on. -/
example : ((parse "match(n)RETURN n.id,n limit-1;").toOption.map fun q =>
    (q.returns, q.limit.map Value.compact)) =
      some ([.property "n" "id", .node "n"], some "-1") := by
  decide +kernel

end Query

end Lockstep
