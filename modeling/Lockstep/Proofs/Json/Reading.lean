import Lockstep.Json.Document
import Lockstep.Proofs.Value.Fields
import Lockstep.Text.Quoted
set_option autoImplicit false

/-!
# Reading objects of strings

A writer that escapes what the grammar forbids in a string is read back as it
meant: every character it writes gives one piece, and the pieces give the
characters.  On top of the strings each level of the reader takes the form of
the text as it stands, so an object of strings is read as its members, the later
of two with one key.  What follows a part of the text is arbitrary in each
lemma, so the lemmas compose.
-/

namespace Lockstep.Json

/-! ## Characters -/

/-- Whether some text is read as one piece, whatever follows. -/
def ReadsAs (text : List Char) (piece : Piece) : Prop :=
  ∀ rest, scanString (text ++ rest) = (scanString rest).map fun (pieces, r) =>
    (piece :: pieces, r)

theorem readsAs_plain {c : Char} (quote : c ≠ '"') (backslash : c ≠ '\\')
    (printable : 0x20 ≤ c.toNat) :
    ReadsAs [c] (.char c) := by
  intro rest
  rw [List.singleton_append, scanString]
  · rw [if_neg]
    rintro (h | h)
    · exact backslash h
    · omega
  · exact quote
  · intro _ _ _ _ _ h
    exact absurd h backslash
  · intro _ _ h
    exact absurd h backslash

theorem readsAs_short {e c : Char} (short : shortEscape? e = some c) :
    ReadsAs ['\\', e] (.char c) := by
  intro rest
  rw [List.cons_append, List.singleton_append, scanString]
  · rw [short, Option.bind_some]
  · rintro _ _ _ _ _ rfl
    cases short

theorem hexValue?_hexDigit (n : Nat) : hexValue? (Text.hexDigit n) = some (n % 16) := by
  have hall : ∀ d < 16, hexValue? (Nat.digitChar d) = some d := by decide
  exact hall (n % 16) (Nat.mod_lt n (by decide))

theorem readsAs_unicodeEscape {c : Char} (short : c.toNat < 0x10000) :
    ReadsAs (Text.unicodeEscape c) (.unit c.toNat) := by
  have hunit : unit? (Text.hexDigit (c.toNat / 4096)) (Text.hexDigit (c.toNat / 256))
      (Text.hexDigit (c.toNat / 16)) (Text.hexDigit c.toNat) = some c.toNat := by
    unfold unit?
    simp only [hexValue?_hexDigit, Option.bind_eq_bind, Option.bind_some,
      Option.pure_def, Option.some.injEq]
    omega
  intro rest
  unfold Text.unicodeEscape
  simp only [List.cons_append, List.nil_append]
  rw [scanString, hunit, Option.bind_some]

/-- Whether a piece is read as a character: it is that character, or its code
unit if it is no surrogate. -/
def StandsFor (piece : Piece) (c : Char) : Prop :=
  piece = .char c ∨ piece = .unit c.toNat ∧ c.toNat < 0xD800

theorem decode?_cons {piece : Piece} {c : Char} (stands : StandsFor piece c)
    (rest : List Piece) :
    decode? (piece :: rest) = (decode? rest).map (c :: ·) := by
  rcases stands with rfl | ⟨rfl, hlow⟩
  · rw [decode?]
  · have hleading : isLeading c.toNat = false := by
      simp [isLeading]
      omega
    have htrailing : isTrailing c.toNat = false := by
      simp [isTrailing]
      omega
    cases rest with
    | nil => simp [decode?, hleading, htrailing]
    | cons next rest =>
      cases next <;> simp [decode?, hleading, htrailing]

/-! ## Strings -/

/-- An escaping that writes every character as one piece that stands for it. -/
structure Legible (escape : Char → List Char) (piece : Char → Piece) : Prop where
  readsAs : ∀ c, ReadsAs (escape c) (piece c)
  standsFor : ∀ c, StandsFor (piece c) c

/-- The pieces of a string. -/
def pieces (piece : Char → Piece) (text : String) : List Piece := text.toList.map piece

variable {escape : Char → List Char} {piece : Char → Piece}

theorem Legible.scanString_flatMap (h : Legible escape piece) (cs rest : List Char) :
    scanString (cs.flatMap escape ++ '"' :: rest) = some (cs.map piece, rest) := by
  induction cs with
  | nil => rfl
  | cons c cs ih =>
    rw [List.flatMap_cons, List.append_assoc, h.readsAs, ih, Option.map_some,
      List.map_cons]

theorem Legible.decode?_map (h : Legible escape piece) (cs : List Char) :
    decode? (cs.map piece) = some cs := by
  induction cs with
  | nil => rfl
  | cons c cs ih =>
    rw [List.map_cons, decode?_cons (h.standsFor c), ih, Option.map_some]

theorem Legible.text?_pieces (h : Legible escape piece) (text : String) :
    text? (pieces piece text) = some text := by
  rw [text?, pieces, h.decode?_map, Option.map_some, String.ofList_toList]

/-! ## Tokens -/

/-- Whether a text consists of some tokens, with white space between them. -/
def Lexes (text : List Char) (tokens : List Token) : Prop :=
  ∀ fuel, text.length ≤ fuel → scanAll fuel text = some tokens

theorem lexes_nil : Lexes [] [] := fun fuel _ => by cases fuel <;> rfl

theorem Lexes.tokens? {text : List Char} {tokens : List Token} (h : Lexes text tokens) :
    tokens? text = some tokens :=
  h text.length (Nat.le_refl _)

theorem Lexes.space {c : Char} {text : List Char} {tokens : List Token}
    (h : Lexes text tokens) (blank : isSpace c = true) : Lexes (c :: text) tokens := by
  intro fuel hfuel
  cases fuel with
  | zero => cases hfuel
  | succ fuel =>
    rw [scanAll, if_pos blank]
    exact h fuel (Nat.le_of_succ_le_succ hfuel)

/-- A token in front of a text, if it is read from there on to the text. -/
theorem Lexes.cons {c : Char} {front text : List Char} {token : Token}
    {tokens : List Token} (h : Lexes text tokens) (ink : isSpace c = false)
    (scan : scanToken (c :: (front ++ text)) = some (token, text)) :
    Lexes (c :: (front ++ text)) (token :: tokens) := by
  intro fuel hfuel
  rw [List.length_cons, List.length_append] at hfuel
  cases fuel with
  | zero => cases hfuel
  | succ fuel =>
    rw [scanAll, if_neg (Bool.eq_false_iff.mp ink), scan, Option.bind_some]
    dsimp only
    rw [h fuel (by omega), Option.map_some]

theorem Lexes.sign {c : Char} {text : List Char} {token : Token} {tokens : List Token}
    (h : Lexes text tokens) (ink : isSpace c = false)
    (scan : scanToken (c :: text) = some (token, text)) :
    Lexes (c :: text) (token :: tokens) :=
  @Lexes.cons c [] text token tokens h ink scan

theorem Lexes.quoted (legible : Legible escape piece) {rest : List Char}
    {tokens : List Token} (h : Lexes rest tokens) (text : String) :
    Lexes (Text.quoted escape text.toList ++ rest)
      (.string (pieces piece text) :: tokens) := by
  have htext : Text.quoted escape text.toList ++ rest =
      '"' :: ((text.toList.flatMap escape ++ ['"']) ++ rest) := rfl
  rw [htext]
  refine h.cons rfl ?_
  rw [List.append_assoc, List.singleton_append, scanToken, legible.scanString_flatMap,
    Option.map_some, pieces]

/-! ## Objects -/

/-- A member with its key and its text between quotes. -/
def stringMember (escape : Char → List Char) (member : String × String) : List Char :=
  Text.quoted escape member.1.toList ++ ':' :: Text.quoted escape member.2.toList

/-- The tokens of a member. -/
def memberTokens (piece : Char → Piece) (member : String × String) : List Token :=
  [.string (pieces piece member.1), .colon, .string (pieces piece member.2)]

theorem Lexes.member (legible : Legible escape piece) {rest : List Char}
    {tokens : List Token} (h : Lexes rest tokens) (member : String × String) :
    Lexes (stringMember escape member ++ rest)
      (memberTokens piece member ++ tokens) := by
  unfold stringMember memberTokens
  rw [List.append_assoc, List.cons_append]
  have hvalue := h.quoted legible member.2
  have hcolon : Lexes (':' :: (Text.quoted escape member.2.toList ++ rest))
      (.colon :: .string (pieces piece member.2) :: tokens) :=
    hvalue.sign rfl rfl
  exact hcolon.quoted legible member.1

/-- The tokens of members that come after others. -/
def laterTokens (piece : Char → Piece) (members : List (String × String)) :
    List Token :=
  members.flatMap fun member => .comma :: memberTokens piece member

/-- The members of an object, with commas between them. -/
theorem Lexes.members (legible : Legible escape piece) {rest : List Char}
    {tokens : List Token} (h : Lexes rest tokens) (first : String × String)
    (members : List (String × String)) :
    Lexes ([','].intercalate ((first :: members).map (stringMember escape)) ++ rest)
      (memberTokens piece first ++ (laterTokens piece members ++ tokens)) := by
  induction members generalizing first with
  | nil =>
    rw [List.map_singleton, List.intercalate_singleton]
    exact h.member legible first
  | cons next members ih =>
    rw [List.map_cons, List.map_cons, List.intercalate_cons_cons, ← List.map_cons,
      List.append_assoc, List.append_assoc, laterTokens, List.flatMap_cons,
      ← laterTokens, List.append_assoc]
    have hcomma : Lexes
      (',' :: ([','].intercalate ((next :: members).map (stringMember escape)) ++ rest))
        (.comma ::
            (memberTokens piece next ++ (laterTokens piece members ++ tokens))) :=
      (ih next).sign rfl rfl
    exact hcomma.member legible first

/-- The document of a member. -/
def memberDocument (piece : Char → Piece) (member : String × String) :
    List Piece × Document :=
  (pieces piece member.1, .string (pieces piece member.2))

/-- The reader takes member after member up to the end of the object. -/
theorem foldlM_members (done : List (List Piece × Document))
    (members : List (String × String)) :
    (laterTokens piece members ++ [Token.closeObject]).foldlM Reader.step
      ⟨.nextMember done, []⟩ =
      some ⟨.done (.object (done.reverse ++ members.map (memberDocument piece))), []⟩ := by
  induction members generalizing done with
  | nil =>
    rw [List.map_nil, List.append_nil]
    rfl
  | cons member members ih =>
    have hmember := ih (memberDocument piece member :: done)
    rw [List.reverse_cons, List.append_assoc, List.singleton_append, ← List.map_cons] at hmember
    -- a comma and the three tokens of the member bring the reader back, with
    -- one more member behind it
    exact hmember

theorem Legible.membersToFields? (h : Legible escape piece)
    (members : List (String × String)) (depth : Nat) :
    membersToFields? (members.map (memberDocument piece)) depth =
      some (members.map fun member => (member.1, .string member.2)) := by
  induction members with
  | nil => rfl
  | cons member members ih =>
    rw [List.map_cons, memberDocument, Json.membersToFields?, h.text?_pieces,
      Document.toValue?, h.text?_pieces, ih]
    rfl

/-- The text of an object of strings, its members in the order given. -/
def objectText (escape : Char → List Char) (members : List (String × String)) :
    List Char :=
  '\x7b' :: ([','].intercalate (members.map (stringMember escape)) ++ ['\x7d'])

/-- An object of strings is read as its members, whatever the strings are and
however often a key occurs. -/
theorem Legible.read?_object (h : Legible escape piece) (first : String × String)
    (members : List (String × String)) {rest : List Char} (blank : Lexes rest []) :
    Value.read? (String.ofList (objectText escape (first :: members) ++ rest)) =
      some (.ofFields
        ((first :: members).map fun member => (member.1, .string member.2))) := by
  have hclose : Lexes ('\x7d' :: rest) [.closeObject] := blank.sign rfl rfl
  have hlexes : Lexes (objectText escape (first :: members) ++ rest)
      (.openObject ::
          (memberTokens piece first ++
            (laterTokens piece members ++ [.closeObject]))) := by
    unfold objectText
    rw [List.cons_append, List.append_assoc, List.singleton_append]
    exact (hclose.members h first members).sign rfl rfl
  have hread : (Token.openObject ::
      (memberTokens piece first ++
        (laterTokens piece members ++ [.closeObject]))).foldlM
        Reader.step Reader.start =
      some ⟨.done (.object ((first :: members).map (memberDocument piece))), []⟩ :=
    foldlM_members [memberDocument piece first] members
  have hdocument :
    Document.read? (String.ofList (objectText escape (first :: members) ++ rest)) =
      some (.object ((first :: members).map (memberDocument piece))) := by
    simp only [Document.read?, String.toList_ofList, hlexes.tokens?,
      Option.bind_eq_bind, Option.bind_some, hread]
  rw [Value.read?, hdocument, Option.bind_some, maxDepth, Document.toValue?,
    h.membersToFields?]
  rfl

/-! ## What the text does not hold -/

/-- A character that the grammar has no use for stands in the text only if the
escaping writes it. -/
theorem not_mem_objectText {c : Char} (unused : c ∉ ['"', ':', ',', '\x7b', '\x7d'])
    (unwritten : ∀ d, c ∉ escape d) (members : List (String × String)) :
    c ∉ objectText escape members := by
  simp only [List.mem_cons, List.not_mem_nil, or_false, not_or] at unused
  obtain ⟨hquote, hcolon, hcomma, hopen, hclose⟩ := unused
  have hquoted (cs : List Char) : c ∉ Text.quoted escape cs := by
    simp [Text.quoted, hquote, unwritten]
  have hmember (member : String × String) : c ∉ stringMember escape member := by
    simp [stringMember, hquoted, hcolon]
  have hmembers : c ∉ [','].intercalate (members.map (stringMember escape)) := by
    induction members with
    | nil => exact List.not_mem_nil
    | cons first members ih =>
      cases members with
      | nil => simpa using hmember first
      | cons next members =>
        rw [List.map_cons] at ih ⊢
        rw [List.map_cons, List.intercalate_cons_cons]
        simp [hmember first, hcomma, ih]
  simp [objectText, hopen, hclose, hmembers]

end Lockstep.Json
