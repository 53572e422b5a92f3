import Covenant.Proofs.Json.Reader

/-!
# Reading back the canonical text

A canonical text says of a value all but the order in which its members were given. `Json.ordered`
puts the members of all objects in the order of their keys; it is one of the changes that
`Json.mapObjects` makes at every depth. Main statement: a value in which all floats are finite is
read back from its canonical text in this form (`readValue_write`), by induction on the fuel of the
reader. So values with one canonical text are the same up to the order of members
(`ordered_eq_of_write_eq`).
-/

set_option autoImplicit false

namespace Covenant.Json

open Lexeme (isBlank)
open Text (opensWith)

/-! ## Values that can be read back -/

mutual

/-- No infinity and no not-a-number occurs in the value. -/
def isFinite : Json → Bool
  | nonFinite => false
  | arr items => itemsFinite items
  | obj members => membersFinite members
  | _ => true

/-- The same for several values. -/
def itemsFinite : List Json → Bool
  | [] => true
  | item :: rest => item.isFinite && itemsFinite rest

/-- The same for the values of members. -/
def membersFinite : List (String × Json) → Bool
  | [] => true
  | (_, value) :: rest => value.isFinite && membersFinite rest

end

/-! ## Values up to the order of members -/

mutual

/-- The value after a change to the members of every object, made from the inside out. -/
def mapObjects (change : List (String × Json) → List (String × Json)) : Json → Json
  | arr items => arr (mapObjectsItems change items)
  | obj members => obj (change (mapObjectsMembers change members))
  | value => value

/-- The same for several values. -/
def mapObjectsItems (change : List (String × Json) → List (String × Json)) : List Json → List Json
  | [] => []
  | item :: rest => item.mapObjects change :: mapObjectsItems change rest

/-- The same for the values of members. -/
def mapObjectsMembers (change : List (String × Json) → List (String × Json)) :
    List (String × Json) → List (String × Json)
  | [] => []
  | (key, value) :: rest => (key, value.mapObjects change) :: mapObjectsMembers change rest

end

section Change

variable {change : List (String × Json) → List (String × Json)}

theorem mapObjects_arr (items : List Json) :
    (arr items).mapObjects change = arr (items.map (mapObjects change)) := by
  rw [mapObjects]
  congr 1
  induction items with
  | nil => rfl
  | cons item rest ih => rw [mapObjectsItems, ih, List.map_cons]

theorem mapObjects_obj (members : List (String × Json)) :
    (obj members).mapObjects change
      = obj (change (members.map fun member => (member.1, member.2.mapObjects change))) := by
  rw [mapObjects]
  congr 2
  induction members with
  | nil => rfl
  | cons member rest ih => rw [mapObjectsMembers, ih, List.map_cons]

end Change

/-- The members of an object in the order of their keys. -/
def byKey (members : List (String × Json)) : List (String × Json) :=
  sortBy (fun a b => decide (a.1 ≤ b.1)) members

/-- The value with the members of all its objects in the order of their keys. -/
def ordered (value : Json) : Json :=
  value.mapObjects byKey

theorem writeItems_eq (items : List Json) : writeItems items = items.map write := by
  induction items with
  | nil => simp [writeItems]
  | cons item rest ih => simp [writeItems, ih]

theorem writeMembers_eq (members : List (String × Json)) :
    writeMembers members = members.map fun member => (member.1, member.2.write) := by
  induction members with
  | nil => simp [writeMembers]
  | cons member rest ih => simp [writeMembers, ih]

theorem itemsFinite_iff {items : List Json} :
    itemsFinite items = true ↔ ∀ item ∈ items, item.isFinite = true := by
  induction items with
  | nil => simp [itemsFinite]
  | cons item rest ih => simp [itemsFinite, ih]

theorem membersFinite_iff {members : List (String × Json)} :
    membersFinite members = true ↔ ∀ member ∈ members, member.2.isFinite = true := by
  induction members with
  | nil => simp [membersFinite]
  | cons member rest ih => simp [membersFinite, ih]

@[simp] theorem isFinite_str (text : String) : (str text).isFinite = true := rfl

@[simp] theorem isFinite_arr (items : List Json) : (arr items).isFinite = itemsFinite items := rfl

@[simp] theorem isFinite_obj (members : List (String × Json)) :
    (obj members).isFinite = true ↔ ∀ member ∈ members, member.2.isFinite = true :=
  membersFinite_iff

theorem itemsFinite_map {α : Type} {form : α → Json} (h : ∀ a, (form a).isFinite = true)
    (items : List α) : itemsFinite (items.map form) = true := by
  rw [itemsFinite_iff]
  intro item member
  obtain ⟨a, -, rfl⟩ := List.mem_map.mp member
  exact h a

/-! ## Values are read back -/

theorem mem_byKey {members : List (String × Json)} {member : String × Json} :
    member ∈ byKey members ↔ member ∈ members :=
  mem_sortBy _ _ _

theorem ordered_arr (items : List Json) : (arr items).ordered = arr (items.map ordered) :=
  mapObjects_arr items

theorem ordered_obj (members : List (String × Json)) :
    (obj members).ordered
      = obj ((byKey members).map fun member => (member.1, member.2.ordered)) := by
  rw [ordered, mapObjects_obj]
  exact congrArg obj (sortBy_map (fun _ _ => rfl) members)

/-- The text of a member. -/
def memberText (member : String × Json) : List Char :=
  writeMember (member.1, member.2.write)

theorem write_arr (items : List Json) :
    (arr items).write = '[' :: commaSeparated (items.map write) ++ [']'] := by
  rw [← writeItems_eq]
  rfl

theorem write_obj (members : List (String × Json)) :
    (obj members).write
      = '\x7b' :: commaSeparated ((byKey members).map memberText) ++ ['\x7d'] := by
  have sorted : sortMembers (writeMembers members)
      = (byKey members).map fun member => (member.1, member.2.write) := by
    rw [sortMembers, writeMembers_eq, byKey]
    exact sortBy_map (fun _ _ => rfl) members
  have texts : (byKey members).map memberText
      = (sortMembers (writeMembers members)).map writeMember := by
    rw [sorted, List.map_map]
    rfl
  rw [texts]
  rfl

theorem length_le_length_commaSeparated {texts : List (List Char)} {text : List Char}
    (member : text ∈ texts) : text.length ≤ (commaSeparated texts).length := by
  induction texts with
  | nil => cases member
  | cons first later ih =>
      cases later with
      | nil =>
          rw [List.mem_singleton.mp member]
          exact Nat.le_refl _
      | cons next more =>
          rw [commaSeparated_cons_cons, List.length_append, List.length_cons]
          rcases List.mem_cons.mp member with rfl | member
          · omega
          · have later := ih member
            omega

theorem length_le_length_commaSeparated_succ (texts : List (List Char)) :
    texts.length ≤ (commaSeparated texts).length + 1 := by
  induction texts with
  | nil => exact Nat.zero_le _
  | cons first later ih =>
      cases later with
      | nil => simp [commaSeparated]
      | cons next more =>
          rw [commaSeparated_cons_cons, List.length_append]
          simp only [List.length_cons] at ih ⊢
          omega

/-- The reader gives the value back from its text, before any text that does not go on with a
digit. -/
def ReadsBack (fuel : Nat) (value : Json) : Prop :=
  ∀ rest, opensWith Char.isDigit rest = false →
    readValue fuel (value.write ++ rest) = some (value.ordered, rest)

theorem readValue_cons {c : Char} (solid : isBlank c = false) (fuel : Nat) (rest : List Char) :
    readValue (fuel + 1) (c :: rest) =
      if c = '"' then
        (readString fuel rest).map fun read => (str (String.ofList read.1), read.2)
      else if c = '[' then
        (readSequence (readValue fuel) ']' fuel rest).map fun read => (arr read.1, read.2)
      else if c = '\x7b' then
        (readSequence (readMember (readValue fuel) fuel) '\x7d' fuel rest).map fun read =>
          (obj read.1, read.2)
      else if c = '-' ∨ c.isDigit then
        (readInt (c :: rest)).map fun read => (int read.1, read.2)
      else readWord (c :: rest) := by
  rw [readValue, List.dropWhile_cons_of_neg (by simp [solid])]

theorem writeString_append (text : String) (rest : List Char) :
    writeString text ++ rest = '"' :: (text.toList.flatMap escapeChar ++ '"' :: rest) := by
  simp [writeString]

theorem length_lt_length_writeString (text : String) :
    text.toList.length + 1 < (writeString text).length := by
  have long := length_le_length_flatMap_escapeChar text.toList
  simp only [writeString, List.cons_append, List.length_cons, List.length_append,
    List.length_nil]
  omega

/-- A character that opens an integer opens nothing else. -/
theorem opens_int {c : Char} (h : c = '-' ∨ c.isDigit = true) :
    isBlank c = false ∧ c ≠ ']' ∧ c ≠ '"' ∧ c ≠ '[' ∧ c ≠ '\x7b' := by
  have other (d : Char) (minus : d ≠ '-') (digit : d.isDigit = false) : c ≠ d := by
    rintro rfl
    rcases h with rfl | h
    · exact minus rfl
    · rw [digit] at h
      cases h
  have solid : isBlank c = false := by
    simp only [isBlank, Bool.or_eq_false_iff, beq_eq_false_iff_ne]
    exact ⟨⟨⟨other _ (by decide) (by decide), other _ (by decide) (by decide)⟩,
      other _ (by decide) (by decide)⟩, other _ (by decide) (by decide)⟩
  exact ⟨solid, other _ (by decide) (by decide), other _ (by decide) (by decide),
    other _ (by decide) (by decide), other _ (by decide) (by decide)⟩

/-- A value opens with no blank and not with the end of an array. -/
theorem exists_write (value : Json) :
    ∃ first tail, value.write = first :: tail ∧ isBlank first = false ∧ first ≠ ']' := by
  cases value with
  | null => exact ⟨'n', _, rfl, by decide, by decide⟩
  | bool value =>
      cases value with
      | false => exact ⟨'f', _, rfl, by decide, by decide⟩
      | true => exact ⟨'t', _, rfl, by decide, by decide⟩
  | int value =>
      obtain ⟨first, tail, written, opening⟩ := exists_toString_int value
      obtain ⟨solid, notClose, -⟩ := opens_int opening
      exact ⟨first, tail, written, solid, notClose⟩
  | nonFinite => exact ⟨'N', _, rfl, by decide, by decide⟩
  | str text => exact ⟨'"', _, rfl, by decide, by decide⟩
  | arr items => exact ⟨'[', _, rfl, by decide, by decide⟩
  | obj members => exact ⟨'\x7b', _, rfl, by decide, by decide⟩

theorem readsBack_int (value : Int) (fuel : Nat) : ReadsBack (fuel + 1) (int value) := by
  intro rest stop
  have read := readInt_toString value stop
  obtain ⟨first, tail, written, opening⟩ := exists_toString_int value
  obtain ⟨solid, -, notQuote, notArray, notObject⟩ := opens_int opening
  show readValue (fuel + 1) ((toString value).toList ++ rest) = _
  rw [written, List.cons_append] at read ⊢
  rw [readValue_cons solid, if_neg notQuote, if_neg notArray, if_neg notObject, if_pos opening,
    read]
  rfl

theorem readsBack_str {text : String} {fuel : Nat} (enough : (str text).write.length ≤ fuel) :
    ReadsBack (fuel + 1) (str text) := by
  intro rest _
  have long : text.toList.length < fuel := by
    have shorter := length_lt_length_writeString text
    have written : (writeString text).length ≤ fuel := enough
    omega
  show readValue (fuel + 1) (writeString text ++ rest) = _
  rw [writeString_append, readValue_cons rfl, if_pos rfl, readString_flatMap _ long,
    Option.map_some, String.ofList_toList]
  rfl

theorem readsBack_arr {items : List Json} {fuel : Nat} (enough : (arr items).write.length ≤ fuel)
    (h : ∀ item ∈ items, ReadsBack fuel item) : ReadsBack (fuel + 1) (arr items) := by
  intro rest _
  rw [write_arr] at enough
  have count := length_le_length_commaSeparated_succ (items.map write)
  simp only [List.cons_append, List.length_cons, List.length_append, List.length_nil,
    List.length_map] at enough count
  have written : (arr items).write ++ rest
      = '[' :: (commaSeparated (items.map write) ++ ']' :: rest) := by
    simp [write_arr]
  have read := readSequence_commaSeparated (show isBlank ']' = false from rfl) (by decide)
    (by decide) (fun item _ => exists_write item) h (show items.length ≤ fuel by omega) rest
  rw [written, readValue_cons rfl, if_neg (by decide), if_pos rfl, read, ordered_arr]
  rfl

/-- A member is read back if its value is. -/
theorem readMember_memberText {member : String × Json} {fuel : Nat}
    (enough : (memberText member).length ≤ fuel) (h : ReadsBack fuel member.2)
    {rest : List Char} (stop : opensWith Char.isDigit rest = false) :
    readMember (readValue fuel) fuel (memberText member ++ rest)
      = some ((member.1, member.2.ordered), rest) := by
  obtain ⟨key, value⟩ := member
  have long : key.toList.length < fuel := by
    have shorter := length_lt_length_writeString key
    simp only [memberText, writeMember, List.length_append] at enough
    omega
  have written : memberText (key, value) ++ rest
      = '"' :: (key.toList.flatMap escapeChar ++ '"' :: ':' :: (value.write ++ rest)) := by
    rw [memberText, writeMember, List.append_assoc, List.cons_append, writeString_append]
  rw [written]
  simp only [readMember, readToken_cons (show isBlank '"' = false from rfl),
    readToken_cons (show isBlank ':' = false from rfl), if_true, readString_flatMap _ long,
    h rest stop, Option.pure_def, Option.bind_eq_bind, Option.bind_some, String.ofList_toList]

theorem readsBack_obj {members : List (String × Json)} {fuel : Nat}
    (enough : (obj members).write.length ≤ fuel)
    (h : ∀ member ∈ members, ReadsBack fuel member.2) : ReadsBack (fuel + 1) (obj members) := by
  intro rest _
  rw [write_obj] at enough
  have count := length_le_length_commaSeparated_succ ((byKey members).map memberText)
  simp only [List.cons_append, List.length_cons, List.length_append, List.length_nil,
    List.length_map] at enough count
  have written : (obj members).write ++ rest
      = '\x7b' :: (commaSeparated ((byKey members).map memberText) ++ '\x7d' :: rest) := by
    simp [write_obj]
  -- the reader meets the members as they were written, in the order of their keys
  have reads : ∀ member ∈ byKey members, ∀ rest, opensWith Char.isDigit rest = false →
      readMember (readValue fuel) fuel (memberText member ++ rest)
        = some ((member.1, member.2.ordered), rest) := by
    intro member listed rest stop
    have inside := length_le_length_commaSeparated
      (List.mem_map_of_mem (f := memberText) listed)
    exact readMember_memberText (by omega) (h member (mem_byKey.mp listed)) stop
  have opens : ∀ member ∈ byKey members, ∃ first tail, memberText member = first :: tail ∧
      isBlank first = false ∧ first ≠ '\x7d' :=
    fun member _ => ⟨'"', _, rfl, rfl, by decide⟩
  have read := readSequence_commaSeparated (show isBlank '\x7d' = false from rfl) (by decide)
    (by decide) opens reads (show (byKey members).length ≤ fuel by omega) rest
  rw [written, readValue_cons rfl, if_neg (by decide), if_neg (by decide), if_pos rfl, read,
    ordered_obj]
  rfl

/-- A value is read back from its canonical text, its members in the order of their keys. -/
theorem readValue_write {value : Json} (finite : value.isFinite = true) {fuel : Nat}
    (enough : value.write.length < fuel) : ReadsBack fuel value := by
  -- one unit of fuel is for the outermost bracket, the rest for what is inside
  induction fuel generalizing value with
  | zero => exact absurd enough (Nat.not_lt_zero _)
  | succ fuel ih =>
      have inner := Nat.le_of_lt_succ enough
      cases value with
      | null => exact fun _ _ => rfl
      | bool value => cases value <;> exact fun _ _ => rfl
      | int value => exact readsBack_int value fuel
      | nonFinite => cases finite
      | str text => exact readsBack_str inner
      | arr items =>
          apply readsBack_arr inner
          intro item member
          have inside := length_le_length_commaSeparated (List.mem_map_of_mem (f := write) member)
          rw [write_arr, List.length_append, List.length_cons] at inner
          exact ih (itemsFinite_iff.mp finite item member) (by omega)
      | obj members =>
          apply readsBack_obj inner
          intro member listed
          have inside := length_le_length_commaSeparated
            (List.mem_map_of_mem (f := memberText) (mem_byKey.mpr listed))
          rw [write_obj, List.length_append, List.length_cons] at inner
          have shorter : member.2.write.length < (memberText member).length := by
            simp only [memberText, writeMember, List.length_append, List.length_cons]
            omega
          exact ih (membersFinite_iff.mp finite member listed) (by omega)

/-- Values with one canonical text are the same up to the order of members. -/
theorem ordered_eq_of_write_eq {value other : Json} (finite : value.isFinite = true)
    (finite' : other.isFinite = true) (same : value.write = other.write) :
    value.ordered = other.ordered := by
  have read := readValue_write finite (Nat.lt_succ_self _) [] rfl
  have read' := readValue_write finite' (Nat.lt_succ_self _) [] rfl
  rw [same, read'] at read
  exact (congrArg Prod.fst (Option.some.inj read)).symm

/-! ## Values that are the same up to the order of members -/

@[simp] theorem ordered_str (text : String) : (str text).ordered = str text := rfl

/-- Objects that are the same up to the order of members have the same fields. -/
theorem exists_member_of_ordered_eq {members others : List (String × Json)}
    (same : (obj members).ordered = (obj others).ordered) :
    ∀ member ∈ members, ∃ other ∈ others,
      other.1 = member.1 ∧ other.2.ordered = member.2.ordered := by
  intro member listed
  -- sorting keeps the members, so both sides are compared as they were given
  rw [ordered_obj, ordered_obj] at same
  have found := List.mem_map_of_mem (f := fun entry : String × Json => (entry.1, entry.2.ordered))
    (mem_byKey.mpr listed)
  rw [obj.inj same] at found
  obtain ⟨other, listed', equal⟩ := List.mem_map.mp found
  exact ⟨other, mem_byKey.mp listed', Prod.mk.inj equal⟩

/-- Arrays that are the same up to the order of members agree in all that their items tell. -/
theorem map_eq_of_ordered_eq {α β : Type} {form : α → Json} (told : α → β) {items others : List α}
    (h : ∀ a b, (form a).ordered = (form b).ordered → told a = told b)
    (same : (arr (items.map form)).ordered = (arr (others.map form)).ordered) :
    items.map told = others.map told := by
  rw [ordered_arr, ordered_arr, List.map_map, List.map_map] at same
  have forms := arr.inj same
  clear same
  induction items generalizing others with
  | nil => cases others with
    | nil => rfl
    | cons other more => cases forms
  | cons item rest ih => cases others with
    | nil => cases forms
    | cons other more =>
        obtain ⟨first, later⟩ := List.cons.inj forms
        rw [List.map_cons, List.map_cons, h item other first, ih later]

theorem list_eq_of_ordered_eq {α : Type} {form : α → Json} {items others : List α}
    (h : ∀ a b, (form a).ordered = (form b).ordered → a = b)
    (same : (arr (items.map form)).ordered = (arr (others.map form)).ordered) :
    items = others := by
  have told := map_eq_of_ordered_eq id h same
  rwa [List.map_id, List.map_id] at told

end Covenant.Json
