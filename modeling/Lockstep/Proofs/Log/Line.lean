import Lockstep.Log.Line
import Lockstep.Proofs.Json.Reading
import Mathlib.Data.List.Nodup
set_option autoImplicit false

/-!
# Reading log lines back

A log line is an object of strings in an escaping of its own, which writes every
control character as an escape: so what is logged can end neither its string nor
its line, and the reader gives back every string that was logged.  The fields
stand in the order of their keys, so the order they were given in is not seen.
-/

namespace Lockstep

namespace LogEntry

/-! ## The escaping of log lines -/

/-- What a character of a log line is read as: control characters without a
letter of their own are written as code units. -/
def piece (c : Char) : Json.Piece :=
  if c = '\n' ∨ c = '\r' ∨ c = '\t' then .char c else if isControl c then .unit c.toNat
    else .char c

theorem toNat_of_isControl {c : Char} (control : isControl c = true) :
    c.toNat < 0xA0 := by
  simp [isControl] at control
  omega

/-- A character has an escape of one letter, or is written as its code unit, or
stands for itself. -/
theorem escape_cases (c : Char) :
    (∃ e, escape c = ['\\', e] ∧ Json.shortEscape? e = some c ∧ piece c = .char c) ∨
      (isControl c = true ∧ escape c = Text.unicodeEscape c ∧ piece c = .unit c.toNat) ∨
      (isControl c = false ∧ c ≠ '"' ∧ c ≠ '\\' ∧ c ≠ '\n' ∧ escape c = [c] ∧
        piece c = .char c) := by
  by_cases hshort : c = '"' ∨ c = '\\' ∨ c = '\n' ∨ c = '\r' ∨ c = '\t'
  · left
    rcases hshort with rfl | rfl | rfl | rfl | rfl
    all_goals exact ⟨_, rfl, rfl, rfl⟩
  · right
    simp only [not_or] at hshort
    obtain ⟨hquote, hbackslash, hfeed, hreturn, htab⟩ := hshort
    have hletter : ¬ (c = '\n' ∨ c = '\r' ∨ c = '\t') := by simp [hfeed, hreturn, htab]
    unfold escape piece
    rw [if_neg hquote, if_neg hbackslash, if_neg hfeed, if_neg hreturn, if_neg htab,
      if_neg hletter]
    cases isControl c with
    | true => exact .inl ⟨rfl, rfl, rfl⟩
    | false => exact .inr ⟨rfl, hquote, hbackslash, hfeed, rfl, rfl⟩

theorem legible_escape : Json.Legible escape piece where
  readsAs := fun c => by
    rcases escape_cases c
      with ⟨e, hescape, hshort, hpiece⟩ | ⟨hcontrol, hescape, hpiece⟩ |
      ⟨hplain, hquote, hbackslash, -, hescape, hpiece⟩
    · rw [hescape, hpiece]
      exact Json.readsAs_short hshort
    · rw [hescape, hpiece]
      exact Json.readsAs_unicodeEscape
        (Nat.lt_trans (toNat_of_isControl hcontrol) (by decide))
    · rw [hescape, hpiece]
      refine Json.readsAs_plain hquote hbackslash (Nat.le_of_not_lt fun hlow => ?_)
      simp [isControl, hlow] at hplain
  standsFor := fun c => by
    rcases escape_cases c
      with ⟨e, -, -, hpiece⟩ | ⟨hcontrol, -, hpiece⟩ | ⟨-, -, -, -, -, hpiece⟩
    · exact .inl hpiece
    · exact .inr ⟨hpiece, Nat.lt_trans (toNat_of_isControl hcontrol) (by decide)⟩
    · exact .inl hpiece

theorem hexDigit_ne_feed (n : Nat) : Text.hexDigit n ≠ '\n' := by
  have hall : ∀ d < 16, Nat.digitChar d ≠ '\n' := by decide
  exact hall (n % 16) (Nat.mod_lt n (by decide))

theorem feed_not_mem_escape (c : Char) : '\n' ∉ escape c := by
  rcases escape_cases c
    with ⟨e, hescape, hshort, -⟩ | ⟨-, hescape, -⟩ | ⟨-, -, -, hfeed, hescape, -⟩
  · have hletter : '\n' ≠ e := by
      rintro rfl
      cases hshort
    rw [hescape]
    simp [hletter]
  · rw [hescape]
    simp [Text.unicodeEscape, (hexDigit_ne_feed _).symm]
  · rw [hescape]
    simpa using Ne.symm hfeed

/-! ## Lines -/

/-- The members of the object that the line of an entry is. -/
def members (e : LogEntry) : List (String × String) :=
  ("event", e.event) :: ("severity", e.severity.name) :: e.sortedFields

theorem line_eq (e : LogEntry) :
    e.line = String.ofList (Json.objectText escape e.members ++ ['\n']) := by
  unfold line Json.objectText
  rw [List.cons_append, List.append_assoc]
  rfl

/-- The line of an entry is read as its members. -/
theorem read?_line (e : LogEntry) : Value.read? e.line =
    some (.ofFields (e.members.map fun member => (member.1, .string member.2))) := by
  rw [line_eq]
  exact legible_escape.read?_object _ _ (Json.lexes_nil.space rfl)

theorem sortedFields_perm (e : LogEntry) : e.sortedFields.Perm e.fields :=
  List.mergeSort_perm _ _

theorem sortedFields_pairwise (e : LogEntry) :
    e.sortedFields.Pairwise fun a b => a.1 ≤ b.1 := by
  have htrans (a b c : String × String) (hab : decide (a.1 ≤ b.1) = true)
      (hbc : decide (b.1 ≤ c.1) = true) : decide (a.1 ≤ c.1) = true :=
    decide_eq_true (String.le_trans (of_decide_eq_true hab) (of_decide_eq_true hbc))
  have htotal (a b : String × String) :
      (decide (a.1 ≤ b.1) || decide (b.1 ≤ a.1)) = true := by
    simpa using String.le_total a.1 b.1
  exact (List.pairwise_mergeSort htrans htotal e.fields).imp of_decide_eq_true

theorem members_perm (e : LogEntry) :
    e.members.Perm (("event", e.event) :: ("severity", e.severity.name) :: e.fields) :=
  (e.sortedFields_perm.cons _).cons _

/-- Fields with distinct keys have one order. -/
theorem sortedFields_eq_of_perm {e e' : LogEntry}
    (distinct : (e.fields.map Prod.fst).Nodup) (reordered : e'.fields.Perm e.fields) :
    e'.sortedFields = e.sortedFields := by
  have hperm := (e'.sortedFields_perm.trans reordered).trans e.sortedFields_perm.symm
  refine hperm.eq_of_pairwise ?_ e'.sortedFields_pairwise e.sortedFields_pairwise
  intro a b ha hb hab hba
  have ha' : a ∈ e.fields := (e'.sortedFields_perm.trans reordered).mem_iff.mp ha
  have hb' : b ∈ e.fields := e.sortedFields_perm.mem_iff.mp hb
  exact List.inj_on_of_nodup_map distinct ha' hb' (String.le_antisymm hab hba)

/-- Whatever strings are logged, if the keys are distinct and none is a key of
the line's own: the line ends with its only line feed, it is read as an object
that binds the keys to the strings and nothing else, and it does not depend on
the order of the fields. -/
theorem line_reads_back (severity : Severity) (event : String)
    (fields : List (String × String)) (distinct : (fields.map Prod.fst).Nodup)
    (apart : ∀ field ∈ fields, field.1 ≠ "event" ∧ field.1 ≠ "severity") :
    let e : LogEntry := ⟨severity, event, fields⟩
    (∃ front, e.line.toList = front ++ ['\n'] ∧ '\n' ∉ front) ∧
      (∃ members : Fields, Value.read? e.line = some (.object members) ∧
        members.Ordered ∧
        ∀ member, member ∈ members ↔ member = ("event", .string event) ∨
          member = ("severity", .string severity.name) ∨
          ∃ field ∈ fields, member = (field.1, .string field.2)) ∧
      ∀ fields', fields'.Perm fields → (⟨severity, event, fields'⟩ : LogEntry).line =
        e.line := by
  intro e
  have hkeys :
      ((e.members.map fun member => (member.1, Value.string member.2)).map
        Prod.fst).Nodup := by
    rw [List.map_map]
    refine (e.members_perm.map Prod.fst).nodup_iff.mpr ?_
    refine List.nodup_cons.mpr ⟨?_, List.nodup_cons.mpr ⟨?_, distinct⟩⟩
    · intro hmem
      rcases List.mem_cons.mp hmem with hevent | hmem
      · change "event" = "severity" at hevent
        exact absurd hevent (by decide)
      · obtain ⟨field, hfield, hkey⟩ := List.mem_map.mp hmem
        exact (apart field hfield).1 hkey
    · intro hmem
      obtain ⟨field, hfield, hkey⟩ := List.mem_map.mp hmem
      exact (apart field hfield).2 hkey
  refine ⟨⟨Json.objectText escape e.members, ?_, ?_⟩,
    ⟨_, e.read?_line, Fields.ordered_ofList _, ?_⟩, ?_⟩
  · rw [line_eq, String.toList_ofList]
  · exact Json.not_mem_objectText (by decide) feed_not_mem_escape _
  · intro member
    rw [(Fields.perm_ofList hkeys).mem_iff, (e.members_perm.map _).mem_iff]
    simp [e, eq_comm]
  · intro fields' hperm
    have hsorted : (⟨severity, event, fields'⟩ : LogEntry).sortedFields =
        e.sortedFields :=
      sortedFields_eq_of_perm distinct hperm
    rw [line_eq, line_eq, members, members, hsorted]

/-- Fields that try to end their strings and the line, with control characters
and an empty key. -/
def hostileFields : List (String × String) :=
  [("query", "\"\x7d\n\x7b\"event\":\"forged"), ("\\\"", "\x00\x1f\x7f\u0085\\"),
    ("", "\t\ré😀\u2028")]

/-- They come back as they were, in either order. -/
theorem line_reads_back_hostile :
    let e : LogEntry := ⟨.warn, "\"\n", hostileFields⟩
    (∃ front, e.line.toList = front ++ ['\n'] ∧ '\n' ∉ front) ∧
      (∃ members, Value.read? e.line = some (.object members) ∧
        ("query", .string "\"\x7d\n\x7b\"event\":\"forged") ∈ members ∧
        ("event", .string "\"\n") ∈ members) ∧
      (⟨.warn, "\"\n", hostileFields.reverse⟩ : LogEntry).line = e.line := by
  intro e
  obtain ⟨hfeed, ⟨members, hread, -, hmembers⟩, hreordered⟩ :=
    line_reads_back .warn "\"\n" hostileFields (by decide) (by decide)
  refine ⟨hfeed, ⟨members, hread, (hmembers _).mpr ?_, (hmembers _).mpr (.inl rfl)⟩,
    hreordered _ (List.reverse_perm _)⟩
  exact .inr (.inr ⟨_, List.mem_cons_self, rfl⟩)

end LogEntry

end Lockstep
