import Lockstep.Value.Basic
set_option autoImplicit false

/-!
# Fields of an object

Binding a key changes what that key is bound to and nothing else, and keeps the
fields in the order of their keys.  So an object made of pairs holds each key
once, bound to the last value given for it.
-/

namespace Lockstep.Fields

/-- Whether the fields stand in increasing order of their keys, each key once. -/
def Ordered (fields : Fields) : Prop := fields.Pairwise fun a b => a.1 < b.1

theorem get?_cons (k : String) (v : Value) (rest : Fields) (key : String) :
    get? ((k, v) :: rest) key = if k = key then some v else get? rest key := by
  unfold get?
  rw [List.find?_cons]
  by_cases h : k = key
  · simp [h]
  · have hbeq : (k == key) = false := beq_false_of_ne h
    simp [h, hbeq]

theorem get?_append (front back : Fields) (key : String) :
    get? (front ++ back) key = (get? front key).or (get? back key) := by
  unfold get?
  rw [List.find?_append]
  cases front.find? fun field => field.1 == key <;> rfl

/-- Binding a key leaves the other keys as they are. -/
theorem get?_insert_of_ne {key other : String} (h : other ≠ key) (value : Value)
    (fields : Fields) :
    get? (insert key value fields) other = get? fields other := by
  have hkey : ¬ key = other := fun heq => h heq.symm
  induction fields with
  | nil => rw [insert, get?_cons, if_neg hkey]
  | cons field rest ih =>
    obtain ⟨k, v⟩ := field
    rw [insert]
    split
    · rw [get?_cons, if_neg hkey]
    · split
      · rename_i heq
        subst heq
        rw [get?_cons, if_neg hkey, get?_cons, if_neg hkey]
      · rw [get?_cons, ih, get?_cons]

theorem get?_insert (key other : String) (value : Value) (fields : Fields) :
    get? (insert key value fields) other = if other = key then some value
      else get? fields other := by
  split
  · rename_i h
    rw [h, get?_insert_self]
  · rename_i h
    exact get?_insert_of_ne h value fields

/-- Binding a key adds no other key. -/
theorem key_of_mem_insert {key : String} {value : Value} {fields : Fields}
    {field : String × Value} (h : field ∈ insert key value fields) :
    field.1 = key ∨ field ∈ fields := by
  induction fields with
  | nil =>
    rw [insert, List.mem_singleton] at h
    exact .inl (congrArg Prod.fst h)
  | cons head rest ih =>
    obtain ⟨k, v⟩ := head
    rw [insert] at h
    split at h
    · rcases List.mem_cons.mp h with rfl | hmem
      · exact .inl rfl
      · exact .inr hmem
    · split at h
      · rcases List.mem_cons.mp h with rfl | hmem
        · exact .inl rfl
        · exact .inr (List.mem_cons_of_mem _ hmem)
      · rcases List.mem_cons.mp h with rfl | hmem
        · exact .inr List.mem_cons_self
        · exact (ih hmem).imp_right (List.mem_cons_of_mem _)

/-- Binding a key keeps the fields in order. -/
theorem Ordered.insert {fields : Fields} (h : Ordered fields) (key : String)
    (value : Value) :
    Ordered (fields.insert key value) := by
  induction fields with
  | nil => exact List.pairwise_singleton _ _
  | cons head rest ih =>
    obtain ⟨k, v⟩ := head
    obtain ⟨hhead, hrest⟩ := List.pairwise_cons.mp h
    rw [Fields.insert]
    split
    · rename_i hlt
      refine List.pairwise_cons.mpr ⟨?_, h⟩
      intro field hfield
      rcases List.mem_cons.mp hfield with rfl | hmem
      · exact hlt
      · exact String.lt_trans hlt (hhead field hmem)
    · rename_i hge
      split
      · rename_i heq
        subst heq
        exact List.pairwise_cons.mpr ⟨hhead, hrest⟩
      · rename_i hne
        have hlt : k < key :=
          String.not_le.mp fun hle =>
            hne (String.le_antisymm hle (String.not_lt.mp hge))
        refine List.pairwise_cons.mpr ⟨?_, ih hrest⟩
        intro field hfield
        rcases key_of_mem_insert hfield with hkey | hmem
        · rw [hkey]
          exact hlt
        · exact hhead field hmem

theorem ordered_ofList (pairs : List (String × Value)) : Ordered (ofList pairs) := by
  suffices h : ∀ fields : Fields, Ordered fields →
      Ordered (pairs.foldl (fun fields pair => insert pair.1 pair.2 fields) fields) from
    h [] List.Pairwise.nil
  induction pairs with
  | nil => exact fun fields h => h
  | cons pair pairs ih => exact fun fields h => ih _ (h.insert pair.1 pair.2)

/-- Of several values given for a key the last one stays. -/
theorem get?_ofList (pairs : List (String × Value)) (key : String) :
    get? (ofList pairs) key = get? pairs.reverse key := by
  suffices h : ∀ fields : Fields,
      get? (pairs.foldl (fun fields pair => insert pair.1 pair.2 fields) fields) key =
        (get? pairs.reverse key).or (get? fields key) by
    have hnil : get? [] key = none := rfl
    rw [ofList, h, hnil, Option.or_none]
  induction pairs with
  | nil => exact fun fields => rfl
  | cons pair pairs ih =>
    intro fields
    obtain ⟨k, v⟩ := pair
    rw [List.foldl_cons, ih, get?_insert, List.reverse_cons, get?_append,
      Option.or_assoc, get?_cons]
    congr 1
    by_cases h : key = k
    · rw [if_pos h, if_pos h.symm]
      rfl
    · rw [if_neg h, if_neg fun heq => h heq.symm]
      rfl

theorem mem_of_get? {fields : Fields} {key : String} {value : Value}
    (h : get? fields key = some value) : (key, value) ∈ fields := by
  induction fields with
  | nil => cases h
  | cons head rest ih =>
    obtain ⟨k, v⟩ := head
    rw [get?_cons] at h
    split at h
    · rename_i heq
      cases h
      rw [heq]
      exact List.mem_cons_self
    · exact List.mem_cons_of_mem _ (ih h)

theorem perm_insert {key : String} {value : Value} {fields : Fields}
    (unbound : key ∉ fields.map Prod.fst) :
    (insert key value fields).Perm ((key, value) :: fields) := by
  induction fields with
  | nil => exact .refl _
  | cons head rest ih =>
    obtain ⟨k, v⟩ := head
    obtain ⟨hne, hrest⟩ := List.ne_and_not_mem_of_not_mem_cons unbound
    rw [insert]
    split
    · exact .refl _
    · exact ((ih hrest).cons _).trans (.swap _ _ _)

/-- If no key is given twice, the object has the fields that it is made of. -/
theorem perm_ofList {pairs : List (String × Value)}
    (distinct : (pairs.map Prod.fst).Nodup) :
    (ofList pairs).Perm pairs := by
  suffices h : ∀ fields : Fields, ((fields ++ pairs).map Prod.fst).Nodup →
      (pairs.foldl (fun fields pair => insert pair.1 pair.2 fields) fields).Perm
        (fields ++ pairs) from
    h [] distinct
  clear distinct
  induction pairs with
  | nil => exact fun fields _ => .of_eq (List.append_nil _).symm
  | cons pair pairs ih =>
    intro fields hdistinct
    have hmiddle : (fields ++ pair :: pairs).Perm (pair :: (fields ++ pairs)) :=
      List.perm_middle
    have hkeys := (hmiddle.map Prod.fst).nodup_iff.mp hdistinct
    rw [List.map_cons, List.nodup_cons, List.map_append, List.mem_append, not_or] at hkeys
    have hinsert : (insert pair.1 pair.2 fields ++ pairs).Perm
        (fields ++ pair :: pairs) :=
      ((perm_insert hkeys.1.1).append_right pairs).trans hmiddle.symm
    exact (ih _ ((hinsert.map Prod.fst).nodup_iff.mpr hdistinct)).trans hinsert

theorem isSome_get?_of_mem {fields : Fields} {key : String} {value : Value}
    (h : (key, value) ∈ fields) : (get? fields key).isSome = true := by
  unfold get?
  rw [Option.isSome_map, List.find?_isSome]
  exact ⟨(key, value), h, beq_self_eq_true key⟩

end Lockstep.Fields
