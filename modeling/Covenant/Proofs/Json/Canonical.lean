import Covenant.Proofs.Json.RoundTrip
import Mathlib.Data.List.Forall2
import Mathlib.Data.List.Nodup
import Mathlib.Data.String.Basic

/-!
# Canonical texts and the values they stand for

What stands against writing a value comes from something that occurs in it (`Json.mem_faults_iff`):
an infinity or a not-a-number, and, where the digits of integers are bounded, an integer that is too
long. Every other value has a canonical text, and a bound has no influence on it
(`Json.canonical_none_of_bound`). What occurs in a value is said by `Json.Occurs`, and with it that
keys are distinct (`Json.DistinctKeys`) or ascend (`Json.KeysAscend`) in all objects of a value. Two
values are alike if they are the same up to the order of members, at every depth (`Json.Alike`).

Texts are read by `Json.decode`. It takes JSON as it is: a number has no needless zeros, and of the
members with one key the last counts.

Main statement (`Json.canonical_laws`): a canonical text is printable ASCII, and it is read as a
value that is alike to the one that was written and whose keys ascend. So two values have one
canonical text exactly if they are alike. A function that does not look at the order of members does
not tell alike values apart (`Json.eq_of_alike`); the text is such a function since members are
sorted before they are written.
-/

set_option autoImplicit false

namespace Covenant.Json

/-! ## Values in values -/

/-- The values directly inside a value. -/
def parts : Json → List Json
  | arr items => items
  | obj members => members.map Prod.snd
  | _ => []

/-- What holds of a value if it holds of its parts holds of every value. -/
theorem induction_on_parts {P : Json → Prop}
    (step : ∀ value : Json, (∀ part ∈ value.parts, P part) → P value) (value : Json) : P value := by
  have atom (value : Json) (none : value.parts = []) : P value := by
    apply step
    intro part member
    rw [none] at member
    cases member
  refine @Json.rec P (fun items => ∀ item ∈ items, P item)
    (fun members => ∀ member ∈ members, P member.2) (fun member => P member.2)
    (atom null rfl) (fun b => atom (bool b) rfl) (fun n => atom (int n) rfl) (atom nonFinite rfl)
    (fun text => atom (str text) rfl) ?_ ?_ ?_ ?_ ?_ ?_ ?_ value
  · intro items below
    exact step (arr items) below
  · intro members below
    apply step
    intro part member
    obtain ⟨entry, listed, rfl⟩ := List.mem_map.mp member
    exact below entry listed
  · intro item member
    cases member
  · intro first rest ofFirst ofRest
    exact List.forall_mem_cons.mpr ⟨ofFirst, ofRest⟩
  · intro entry member
    cases member
  · intro first rest ofFirst ofRest
    exact List.forall_mem_cons.mpr ⟨ofFirst, ofRest⟩
  · intro key value ofValue
    exact ofValue

/-- The first value is the second one, or stands somewhere in it. -/
inductive Occurs (inner : Json) : Json → Prop
  | self : Occurs inner inner
  | deeper {part value : Json} : part ∈ value.parts → Occurs inner part → Occurs inner value

/-- The members of every object have distinct keys. -/
def DistinctKeys (value : Json) : Prop :=
  ∀ members, Occurs (obj members) value → (members.map Prod.fst).Nodup

/-- The members of every object stand in the order of their keys, and no key stands twice. Keys
are compared by their code points. -/
def KeysAscend (value : Json) : Prop :=
  ∀ members, Occurs (obj members) value → members.Pairwise fun a b => a.1 < b.1

variable {inner value other part : Json}

theorem occurs_iff :
    Occurs inner value ↔ inner = value ∨ ∃ part ∈ value.parts, Occurs inner part := by
  constructor
  · intro h
    cases h with
    | self => exact Or.inl rfl
    | deeper member below => exact Or.inr ⟨_, member, below⟩
  · rintro (rfl | ⟨part, member, below⟩)
    · exact .self
    · exact .deeper member below

theorem DistinctKeys.of_mem_parts (keyed : value.DistinctKeys) (member : part ∈ value.parts) :
    part.DistinctKeys := by
  intro members below
  exact keyed members (.deeper member below)

theorem distinctKeys_arr_iff {items : List Json} :
    (arr items).DistinctKeys ↔ ∀ item ∈ items, item.DistinctKeys := by
  constructor
  · intro keyed item listed
    exact keyed.of_mem_parts listed
  · intro each members occurs
    rcases occurs_iff.mp occurs with same | ⟨item, listed, below⟩
    · cases same
    · exact each item listed members below

theorem distinctKeys_obj_iff {members : List (String × Json)} :
    (obj members).DistinctKeys ↔
      (members.map Prod.fst).Nodup ∧ ∀ member ∈ members, member.2.DistinctKeys := by
  constructor
  · intro keyed
    refine ⟨keyed members .self, ?_⟩
    intro member listed
    exact keyed.of_mem_parts (List.mem_map_of_mem listed)
  · rintro ⟨distinct, each⟩ others occurs
    rcases occurs_iff.mp occurs with same | ⟨part, listed, below⟩
    · rwa [obj.inj same]
    · obtain ⟨member, given, rfl⟩ := List.mem_map.mp listed
      exact each member given others below

/-- A value with nothing in it has no keys that could be the same. -/
theorem distinctKeys_of_parts_eq_nil (none : value.parts = []) : value.DistinctKeys := by
  intro members occurs
  rcases occurs_iff.mp occurs with rfl | ⟨part, listed, -⟩
  · rw [List.map_eq_nil_iff.mp none]
    exact List.nodup_nil
  · rw [none] at listed
    cases listed

/-! ## Values that have a text -/

theorem isFinite_iff_parts :
    value.isFinite = true ↔ value ≠ nonFinite ∧ ∀ part ∈ value.parts, part.isFinite = true := by
  cases value with
  | arr items => simp [parts, itemsFinite_iff]
  | obj members =>
      rw [isFinite_obj, parts, List.forall_mem_map]
      simp
  | _ => simp [parts, isFinite]

/-- A value is finite exactly if nothing in it is not. -/
theorem isFinite_iff_not_occurs : value.isFinite = true ↔ ¬ Occurs nonFinite value := by
  induction value using induction_on_parts with
  | step value ih =>
      rw [isFinite_iff_parts, occurs_iff, not_or, not_exists, ne_comm]
      refine and_congr_right fun _ => ?_
      constructor
      · rintro finite part ⟨member, below⟩
        exact (ih part member).mp (finite part member) below
      · intro none part member
        apply (ih part member).mpr
        intro below
        exact none part ⟨member, below⟩

section Faults

variable {bound : Option Nat} {fault : WriteError}

theorem itemFaults_eq (items : List Json) :
    itemFaults bound items = items.flatMap (faults bound) := by
  induction items with
  | nil => rfl
  | cons item rest ih => rw [itemFaults, ih, List.flatMap_cons]

theorem memberFaults_eq (members : List (String × Json)) :
    memberFaults bound members = members.map fun member => (member.1, member.2.faults bound) := by
  induction members with
  | nil => rfl
  | cons member rest ih => rw [memberFaults, ih, List.map_cons]

theorem faults_obj (members : List (String × Json)) :
    (obj members).faults bound = (byKey members).flatMap fun member => member.2.faults bound := by
  rw [faults, memberFaults_eq, sortBy_map (fun _ _ => rfl), List.flatMap_map]
  rfl

/-- What stands against writing a value stands against the value itself or against a part. -/
theorem mem_faults_iff_parts :
    fault ∈ value.faults bound ↔
      value.fault? bound = some fault ∨ ∃ part ∈ value.parts, fault ∈ part.faults bound := by
  cases value with
  | arr items =>
      rw [faults, itemFaults_eq, List.mem_flatMap]
      simp [fault?, parts]
  | obj members =>
      -- the order of writing decides which fault comes first, and not which ones there are
      rw [faults_obj, List.mem_flatMap]
      constructor
      · rintro ⟨member, listed, below⟩
        exact Or.inr ⟨member.2, List.mem_map_of_mem (mem_byKey.mp listed), below⟩
      · rintro (own | ⟨part, listed, below⟩)
        · cases own
        · obtain ⟨member, given, rfl⟩ := List.mem_map.mp listed
          exact ⟨member, mem_byKey.mpr given, below⟩
  | _ => simp [faults, parts]

/-- All that stands against writing a value comes from something that occurs in it. -/
theorem mem_faults_iff :
    fault ∈ value.faults bound ↔ ∃ inner, Occurs inner value ∧ inner.fault? bound = some fault := by
  induction value using induction_on_parts with
  | step value ih =>
      rw [mem_faults_iff_parts]
      constructor
      · rintro (own | ⟨part, member, below⟩)
        · exact ⟨value, .self, own⟩
        · obtain ⟨inner, occurs, own⟩ := (ih part member).mp below
          exact ⟨inner, .deeper member occurs, own⟩
      · rintro ⟨inner, occurs, own⟩
        rcases occurs_iff.mp occurs with rfl | ⟨part, member, below⟩
        · exact Or.inl own
        · exact Or.inr ⟨part, member, (ih part member).mpr ⟨inner, below, own⟩⟩

/-- Only floats that JSON cannot write and integers beyond the bound stand against writing. -/
theorem fault?_eq_some_iff :
    value.fault? bound = some fault ↔
      value = nonFinite ∧ fault = .outOfRange ∨
        ∃ n most, value = int n ∧ bound = some most ∧ most < digitCount n ∧
          fault = .tooManyDigits most := by
  cases value with
  | int n =>
      cases bound with
      | none => simp [fault?]
      | some most =>
          simp only [fault?, Option.filter_some, decide_eq_true_eq]
          split
          · next long => simp [long, eq_comm]
          · next short => simp [short]
  | nonFinite => simp [fault?, eq_comm]
  | _ => simp [fault?]

theorem canonical_eq_ok_iff {text : String} :
    value.canonical bound = .ok text ↔
      value.faults bound = [] ∧ String.ofList value.write = text := by
  unfold canonical
  split
  · next none => simp [none]
  · next fault others found => simp [found]

theorem canonical_eq_error_iff :
    value.canonical bound = .error fault ↔ (value.faults bound).head? = some fault := by
  unfold canonical
  split
  · next none => simp [none]
  · next fault others found => simp [found]

theorem exists_canonical_error_iff :
    (∃ fault, value.canonical bound = .error fault) ↔ value.faults bound ≠ [] := by
  simp only [canonical_eq_error_iff]
  rw [← Option.isSome_iff_exists, List.isSome_head?]

/-- Without a bound only a float that JSON cannot write stands against writing. -/
theorem mem_faults_none :
    fault ∈ value.faults none ↔ Occurs nonFinite value ∧ fault = .outOfRange := by
  simp [mem_faults_iff, fault?_eq_some_iff]

theorem canonical_none_eq_error_iff :
    value.canonical none = .error .outOfRange ↔ Occurs nonFinite value := by
  rw [canonical_eq_error_iff]
  constructor
  · intro first
    exact (mem_faults_none.mp (List.mem_of_head? first)).1
  · intro occurs
    -- something stands against writing, and it can only be this
    have member : WriteError.outOfRange ∈ value.faults none := mem_faults_none.mpr ⟨occurs, rfl⟩
    obtain ⟨first, found⟩ : ∃ first, (value.faults none).head? = some first :=
      Option.isSome_iff_exists.mp (List.isSome_head?.mpr (List.ne_nil_of_mem member))
    rw [found, (mem_faults_none.mp (List.mem_of_head? found)).2]

theorem faults_none_eq_nil_iff : value.faults none = [] ↔ value.isFinite = true := by
  rw [isFinite_iff_not_occurs, List.eq_nil_iff_forall_not_mem]
  simp [mem_faults_none]

/-- The integers with more digits than a bound are those from a power of ten on. -/
theorem lt_digitCount_iff {most : Nat} {n : Int} (positive : 0 < most) :
    most < digitCount n ↔ 10 ^ most ≤ n.natAbs := by
  rw [digitCount, ← Nat.not_le, Nat.length_toDigits_le_iff (by decide) positive, Nat.not_lt]

/-- A bound on digits refuses the values in which there is a longer integer. -/
theorem exists_canonical_error_iff_of_bound {most : Nat} :
    (∃ fault, value.canonical (some most) = .error fault) ↔
      Occurs nonFinite value ∨ ∃ n, Occurs (int n) value ∧ most < digitCount n := by
  rw [exists_canonical_error_iff]
  constructor
  · intro some
    obtain ⟨fault, member⟩ := List.exists_mem_of_ne_nil _ some
    obtain ⟨inner, occurs, own⟩ := mem_faults_iff.mp member
    rcases fault?_eq_some_iff.mp own with ⟨rfl, -⟩ | ⟨n, _, rfl, bounded, long, -⟩
    · exact Or.inl occurs
    · cases bounded
      exact Or.inr ⟨n, occurs, long⟩
  · rintro (occurs | ⟨n, occurs, long⟩)
    · exact List.ne_nil_of_mem (mem_faults_iff.mpr ⟨nonFinite, occurs, rfl⟩)
    · have own : (int n).fault? (some most) = some (.tooManyDigits most) :=
        fault?_eq_some_iff.mpr (Or.inr ⟨n, most, rfl, rfl, long, rfl⟩)
      exact List.ne_nil_of_mem (mem_faults_iff.mpr ⟨int n, occurs, own⟩)

/-- What is written under a bound is written without one, and in the same way. -/
theorem canonical_none_of_bound {text : String} (h : value.canonical bound = .ok text) :
    value.canonical none = .ok text := by
  obtain ⟨clear, written⟩ := canonical_eq_ok_iff.mp h
  refine canonical_eq_ok_iff.mpr ⟨?_, written⟩
  rw [List.eq_nil_iff_forall_not_mem] at clear ⊢
  intro fault member
  obtain ⟨occurs, -⟩ := mem_faults_none.mp member
  exact clear .outOfRange (mem_faults_iff.mpr ⟨nonFinite, occurs, rfl⟩)

end Faults

/-! ## Printable texts -/

/-- A character from the space to the tilde. -/
def IsPrintable (c : Char) : Prop :=
  0x20 ≤ c.toNat ∧ c.toNat ≤ 0x7e

instance (c : Char) : Decidable (IsPrintable c) :=
  inferInstanceAs (Decidable (_ ∧ _))

/-- A given text is printable if its characters are, one by one. -/
theorem isPrintable_of_all {text : List Char}
    (h : text.all (fun c => decide (IsPrintable c)) = true) : ∀ c ∈ text, IsPrintable c := by
  intro c member
  exact of_decide_eq_true (List.all_eq_true.mp h c member)

theorem isPrintable_hexDigit : ∀ digit < 16, IsPrintable (Text.hexDigit digit) := by
  decide

theorem isPrintable_hex (width number : Nat) : ∀ c ∈ Text.hex width number, IsPrintable c := by
  induction width generalizing number with
  | zero =>
      intro c member
      cases member
  | succ width ih =>
      rw [Text.hex, List.forall_mem_append, List.forall_mem_singleton]
      exact ⟨ih (number / 16), isPrintable_hexDigit _ (Nat.mod_lt _ (by decide))⟩

theorem isPrintable_unitEscape (unit : Nat) : ∀ c ∈ unitEscape unit, IsPrintable c := by
  rw [unitEscape, List.forall_mem_cons, List.forall_mem_cons]
  exact ⟨by decide, by decide, isPrintable_hex 4 unit⟩

theorem isPrintable_escapeChar (c : Char) : ∀ d ∈ escapeChar c, IsPrintable d := by
  unfold escapeChar
  -- seven short escapes, then what is not escaped, then one unit or two
  iterate 7
    refine iteInduction (motive := fun written => ∀ d ∈ written, IsPrintable d)
      (fun _ => isPrintable_of_all (by decide)) fun _ => ?_
  apply iteInduction (motive := fun written => ∀ d ∈ written, IsPrintable d)
  · intro printable
    rw [Bool.and_eq_true, decide_eq_true_eq, decide_eq_true_eq] at printable
    exact List.forall_mem_singleton.mpr printable
  · intro _
    apply iteInduction (motive := fun written => ∀ d ∈ written, IsPrintable d)
    · intro _
      exact isPrintable_unitEscape _
    · intro _
      rw [List.forall_mem_append]
      exact ⟨isPrintable_unitEscape _, isPrintable_unitEscape _⟩

theorem isPrintable_writeString (text : String) : ∀ c ∈ writeString text, IsPrintable c := by
  rw [writeString, List.forall_mem_append, List.forall_mem_cons]
  refine ⟨⟨by decide, ?_⟩, isPrintable_of_all (by decide)⟩
  intro d member
  obtain ⟨c, -, written⟩ := List.mem_flatMap.mp member
  exact isPrintable_escapeChar c d written

theorem isPrintable_toString (number : Int) : ∀ c ∈ (toString number).toList, IsPrintable c := by
  have digits (n : Nat) : ∀ c ∈ Nat.toDigits 10 n, IsPrintable c := by
    intro c member
    have digit := Nat.isDigit_of_mem_toDigits (by decide) (by decide) member
    rw [Char.isDigit_iff_toNat] at digit
    have zero : '0'.toNat = 0x30 := rfl
    have nine : '9'.toNat = 0x39 := rfl
    rw [IsPrintable]
    omega
  cases number with
  | ofNat n =>
      rw [toList_toString_ofNat]
      exact digits n
  | negSucc n =>
      rw [toList_toString_negSucc, List.forall_mem_cons]
      exact ⟨by decide, digits (n + 1)⟩

theorem isPrintable_commaSeparated {texts : List (List Char)}
    (h : ∀ text ∈ texts, ∀ c ∈ text, IsPrintable c) :
    ∀ c ∈ commaSeparated texts, IsPrintable c := by
  induction texts with
  | nil =>
      intro c member
      cases member
  | cons first later ih =>
      rw [List.forall_mem_cons] at h
      cases later with
      | nil => exact h.1
      | cons next more =>
          rw [commaSeparated_cons_cons, List.forall_mem_append, List.forall_mem_cons]
          exact ⟨h.1, by decide, ih h.2⟩

/-- Texts between brackets, with commas between them. -/
theorem isPrintable_bracketed {opening closing : Char} {texts : List (List Char)}
    (opens : IsPrintable opening) (closes : IsPrintable closing)
    (h : ∀ text ∈ texts, ∀ c ∈ text, IsPrintable c) :
    ∀ c ∈ opening :: commaSeparated texts ++ [closing], IsPrintable c := by
  rw [List.forall_mem_append, List.forall_mem_cons, List.forall_mem_singleton]
  exact ⟨⟨opens, isPrintable_commaSeparated h⟩, closes⟩

/-- Whatever a value holds, its text is printable. -/
theorem isPrintable_write (value : Json) : ∀ c ∈ value.write, IsPrintable c := by
  induction value using induction_on_parts with
  | step value ih =>
      cases value with
      | null => exact isPrintable_of_all (by decide)
      | bool b => cases b <;> exact isPrintable_of_all (by decide)
      | int number => exact isPrintable_toString number
      | nonFinite => exact isPrintable_of_all (by decide)
      | str text => exact isPrintable_writeString text
      | arr items =>
          rw [write_arr]
          apply isPrintable_bracketed (by decide) (by decide)
          intro text member
          obtain ⟨item, listed, rfl⟩ := List.mem_map.mp member
          exact ih item listed
      | obj members =>
          rw [write_obj]
          apply isPrintable_bracketed (by decide) (by decide)
          intro text member
          obtain ⟨entry, listed, rfl⟩ := List.mem_map.mp member
          rw [memberText, writeMember, List.forall_mem_append, List.forall_mem_cons]
          exact ⟨isPrintable_writeString entry.1, by decide,
            ih entry.2 (List.mem_map_of_mem (mem_byKey.mp listed))⟩

/-! ## Members in order -/

theorem isOrder_fst {α : Type} : IsOrder fun a b : String × α => decide (a.1 ≤ b.1) where
  total a b := by simpa using le_total a.1 b.1
  trans a b c := by simpa using le_trans

/-- Members with distinct keys are sorted so that their keys ascend. -/
theorem byKey_pairwise_lt {members : List (String × Json)}
    (distinct : (members.map Prod.fst).Nodup) :
    (byKey members).Pairwise fun a b => a.1 < b.1 := by
  have ascending := sortBy_pairwise isOrder_fst members
  have apart : (byKey members).Pairwise fun a b => a.1 ≠ b.1 := by
    rw [← List.pairwise_map]
    exact ((sortBy_perm _ members).map Prod.fst).nodup_iff.mpr distinct
  refine (ascending.and apart).imp fun both => ?_
  exact lt_of_le_of_ne (of_decide_eq_true both.1) both.2

/-- The order in which members with distinct keys are given has no influence on their sorting. -/
theorem sortBy_fst_eq_of_perm {α : Type} {members others : List (String × α)}
    (distinct : (members.map Prod.fst).Nodup) (h : members.Perm others) :
    sortBy (fun a b => decide (a.1 ≤ b.1)) members
      = sortBy (fun a b => decide (a.1 ≤ b.1)) others := by
  refine sortBy_eq_of_perm isOrder_fst (fun a inFirst b inSecond below above => ?_) h
  have same : a.1 = b.1 := le_antisymm (of_decide_eq_true below) (of_decide_eq_true above)
  exact List.inj_on_of_nodup_map distinct inFirst inSecond same

theorem mem_parts_ordered (member : part ∈ value.ordered.parts) :
    ∃ inner ∈ value.parts, inner.ordered = part := by
  cases value with
  | arr items =>
      rw [ordered_arr, parts] at member
      exact List.mem_map.mp member
  | obj members =>
      rw [ordered_obj, parts, List.map_map] at member
      obtain ⟨entry, listed, rfl⟩ := List.mem_map.mp member
      exact ⟨entry.2, List.mem_map_of_mem (mem_byKey.mp listed), rfl⟩
  | _ => cases member

/-- If keys are distinct, they ascend once the members are ordered. -/
theorem keysAscend_ordered (keyed : value.DistinctKeys) : value.ordered.KeysAscend := by
  induction value using induction_on_parts with
  | step value ih =>
      intro members occurs
      rcases occurs_iff.mp occurs with same | ⟨part, member, below⟩
      · -- only an object is ordered into an object
        cases value with
        | obj given =>
            rw [ordered_obj] at same
            rw [obj.inj same, List.pairwise_map]
            exact byKey_pairwise_lt (keyed given .self)
        | _ => cases same
      · obtain ⟨inner, listed, rfl⟩ := mem_parts_ordered member
        exact ih inner listed (keyed.of_mem_parts listed) members below

/-! ## Alike values -/

/-- The values are the same up to the order of members, at every depth: arrays agree item by item,
and objects member by member after both have been rearranged. -/
inductive Alike : Json → Json → Prop
  | refl (value : Json) : Alike value value
  | arr {items others : List Json} : items.length = others.length →
      (∀ a b, (a, b) ∈ items.zip others → Alike a b) → Alike (arr items) (arr others)
  | obj {members arranged others arranged' : List (String × Json)} :
      members.Perm arranged → others.Perm arranged' →
      arranged.map Prod.fst = arranged'.map Prod.fst →
      (∀ a b, (a, b) ∈ arranged.zip arranged' → Alike a.2 b.2) → Alike (obj members) (obj others)

/-- Lists of one length whose items agree in pairs have the same images. -/
theorem map_eq_of_zip {α β : Type} {f : α → β} {items others : List α}
    (lengths : items.length = others.length)
    (h : ∀ a b, (a, b) ∈ items.zip others → f a = f b) : items.map f = others.map f := by
  rw [← List.forall₂_eq_eq_eq, List.forall₂_map_left_iff, List.forall₂_map_right_iff,
    List.forall₂_iff_zip]
  exact ⟨lengths, fun {a b} paired => h a b paired⟩

/-- Conversely, equal images agree in pairs. -/
theorem eq_of_mem_zip {α β : Type} {f : α → β} {items others : List α}
    (images : items.map f = others.map f) {a b : α} (paired : (a, b) ∈ items.zip others) :
    f a = f b := by
  rw [← List.forall₂_eq_eq_eq, List.forall₂_map_left_iff, List.forall₂_map_right_iff,
    List.forall₂_iff_zip] at images
  exact images.2 paired

/-- A function that sees an array through its items, and an object with distinct keys through its
members in any order, has the same value on values that are alike. -/
theorem eq_of_alike {β : Type} {f : Json → β}
    (ofArr : ∀ items others, items.map f = others.map f → f (arr items) = f (arr others))
    (ofObj : ∀ members others : List (String × Json), (members.map Prod.fst).Nodup →
      (members.map fun member => (member.1, f member.2)).Perm
        (others.map fun member => (member.1, f member.2)) → f (obj members) = f (obj others))
    (h : Alike value other) (keyed : value.DistinctKeys) : f value = f other := by
  induction h with
  | refl value => rfl
  | @arr items others lengths _ ih =>
      apply ofArr
      apply map_eq_of_zip lengths
      intro a b paired
      exact ih a b paired (keyed.of_mem_parts (List.of_mem_zip paired).1)
  | @obj members arranged others arranged' rearranged rearranged' keys _ ih =>
      have views : (arranged.map fun member => (member.1, f member.2))
          = arranged'.map fun member => (member.1, f member.2) := by
        apply map_eq_of_zip
        · simpa using congrArg List.length keys
        · intro a b paired
          have listed : a ∈ members := rearranged.mem_iff.mpr (List.of_mem_zip paired).1
          have values : f a.2 = f b.2 :=
            ih a b paired (keyed.of_mem_parts (List.mem_map_of_mem listed))
          rw [eq_of_mem_zip keys paired, values]
      apply ofObj members others (keyed members .self)
      refine (rearranged.map _).trans ?_
      rw [views]
      exact (rearranged'.map _).symm

theorem isFinite_eq_of_alike (h : Alike value other) (keyed : value.DistinctKeys) :
    value.isFinite = other.isFinite := by
  have viewed (members : List (String × Json)) : (obj members).isFinite
      = (members.map fun member => (member.1, member.2.isFinite)).all Prod.snd := by
    rw [Bool.eq_iff_iff, isFinite_obj, List.all_map, List.all_eq_true]
    rfl
  apply eq_of_alike _ _ h keyed
  · intro items others views
    rw [isFinite_arr, isFinite_arr, Bool.eq_iff_iff, itemsFinite_iff, itemsFinite_iff,
      ← List.forall_mem_map (f := isFinite) (P := (· = true)), views, List.forall_mem_map]
  · intro members others _ views
    rw [viewed, viewed, views.all_eq]

/-- Alike values have one text. -/
theorem write_eq_of_alike (h : Alike value other) (keyed : value.DistinctKeys) :
    value.write = other.write := by
  apply eq_of_alike _ _ h keyed
  · intro items others views
    rw [write_arr, write_arr, views]
  · intro members others distinct views
    -- members are written after they have been sorted
    have texts (members : List (String × Json)) : (byKey members).map memberText
        = (sortBy (fun a b => decide (a.1 ≤ b.1))
            (members.map fun member => (member.1, member.2.write))).map writeMember := by
      rw [sortBy_map (fun _ _ => rfl), List.map_map]
      rfl
    rw [write_obj, write_obj, texts, texts, sortBy_fst_eq_of_perm _ views]
    rwa [List.map_map]

theorem of_mem_zip_map {α β : Type} {f : α → β} {items : List α} {a : α} {b : β}
    (paired : (a, b) ∈ items.zip (items.map f)) : a ∈ items ∧ b = f a := by
  induction items with
  | nil => cases paired
  | cons item items ih =>
      rcases List.mem_cons.mp paired with same | later
      · cases same
        exact ⟨List.mem_cons_self, rfl⟩
      · exact ⟨List.mem_cons_of_mem item (ih later).1, (ih later).2⟩

/-- A value is alike to itself with its members in the order of their keys. -/
theorem alike_ordered (value : Json) : Alike value value.ordered := by
  induction value using induction_on_parts with
  | step value ih =>
      cases value with
      | arr items =>
          rw [ordered_arr]
          apply Alike.arr (List.length_map _).symm
          intro a b paired
          obtain ⟨listed, rfl⟩ := of_mem_zip_map paired
          exact ih a listed
      | obj members =>
          rw [ordered_obj]
          apply Alike.obj (sortBy_perm _ members).symm (List.Perm.refl _)
          · rw [List.map_map]
            rfl
          · intro a b paired
            obtain ⟨listed, rfl⟩ := of_mem_zip_map paired
            exact ih a.2 (List.mem_map_of_mem (mem_byKey.mp listed))
      | _ => exact .refl _

/-- Values are alike if they are the same once their members are ordered. -/
theorem alike_of_ordered_eq (same : value.ordered = other.ordered) : Alike value other := by
  induction value using induction_on_parts generalizing other with
  | step value ih =>
      cases value with
      | arr items =>
          cases other with
          | arr others =>
              rw [ordered_arr, ordered_arr] at same
              have images := arr.inj same
              apply Alike.arr
              · simpa using congrArg List.length images
              · intro a b paired
                exact ih a (List.of_mem_zip paired).1 (eq_of_mem_zip images paired)
          | _ => cases same
      | obj members =>
          cases other with
          | obj others =>
              rw [ordered_obj, ordered_obj] at same
              have images := obj.inj same
              apply Alike.obj (sortBy_perm _ members).symm (sortBy_perm _ others).symm
              · have keys := congrArg (List.map Prod.fst) images
                rwa [List.map_map, List.map_map] at keys
              · intro a b paired
                have listed := mem_byKey.mp (List.of_mem_zip paired).1
                have agreed := eq_of_mem_zip images paired
                exact ih a.2 (List.mem_map_of_mem listed) (Prod.mk.inj agreed).2
          | _ => cases same
      | _ =>
          cases other
          all_goals cases same
          all_goals exact .refl _

/-! ## Reading texts -/

/-- Puts a member among others: in the place of the one with its key, or at the end. -/
def putMember (member : String × Json) : List (String × Json) → List (String × Json)
  | [] => [member]
  | stored :: rest =>
      if stored.1 = member.1 then member :: rest else stored :: putMember member rest

/-- Of members with one key the last one counts, in the place of the first. -/
def settle (members : List (String × Json)) : List (String × Json) :=
  members.foldl (fun stored member => putMember member stored) []

/-- The value that a text stands for in which keys are repeated: in every object the last member of
a key counts. -/
def settled (value : Json) : Json :=
  value.mapObjects settle

/-- The value of a JSON text; blanks may stand before and after it. -/
def decode (text : String) : Option Json :=
  match readValue (text.length + 1) text.toList with
  | some (value, rest) => if rest.all Lexeme.isBlank then some value.settled else none
  | none => none

/-- Needless zeros are no JSON, and of a repeated key the last value counts. -/
example : (decode "[10,007]").isNone ∧
    (decode " \x7b\"a\":1,\"b\":[-0],\"a\":20\x7d ").map write
      = some "\x7b\"a\":20,\"b\":[0]\x7d".toList := by
  decide +kernel

theorem putMember_of_notMem {member : String × Json} {stored : List (String × Json)}
    (absent : member.1 ∉ stored.map Prod.fst) : putMember member stored = stored ++ [member] := by
  induction stored with
  | nil => rfl
  | cons first rest ih =>
      rw [List.map_cons, List.mem_cons, not_or] at absent
      rw [putMember, if_neg (Ne.symm absent.1), ih absent.2, List.cons_append]

/-- Members whose keys are distinct are left as they are. -/
theorem settle_eq_self {members : List (String × Json)}
    (distinct : (members.map Prod.fst).Nodup) : settle members = members := by
  -- what is stored so far stays in front of what is still to come
  have kept (stored : List (String × Json)) (apart : ((stored ++ members).map Prod.fst).Nodup) :
      members.foldl (fun stored member => putMember member stored) stored = stored ++ members := by
    clear distinct
    induction members generalizing stored with
    | nil => rw [List.foldl_nil, List.append_nil]
    | cons member rest ih =>
        have absent : member.1 ∉ stored.map Prod.fst := by
          rw [List.map_append, List.map_cons, List.nodup_append] at apart
          intro present
          exact apart.2.2 _ present _ List.mem_cons_self rfl
        rw [List.foldl_cons, putMember_of_notMem absent, ih, List.append_assoc,
          List.singleton_append]
        rwa [List.append_assoc, List.singleton_append]
  exact kept [] distinct

/-- A value in which keys are distinct is left as it is. -/
theorem settled_eq_self (keyed : value.DistinctKeys) : value.settled = value := by
  induction value using induction_on_parts with
  | step value ih =>
      cases value with
      | arr items =>
          have same : items.map settled = items.map id := by
            apply List.map_congr_left
            intro item listed
            exact ih item listed (keyed.of_mem_parts listed)
          exact (mapObjects_arr items).trans (congrArg arr (same.trans (List.map_id items)))
      | obj members =>
          -- the values are settled before the members are
          have same : (members.map fun member => (member.1, member.2.settled))
              = members.map id := by
            apply List.map_congr_left
            intro member listed
            have inside := List.mem_map_of_mem (f := Prod.snd) listed
            rw [ih member.2 inside (keyed.of_mem_parts inside)]
            rfl
          rw [List.map_id] at same
          refine (mapObjects_obj members).trans (congrArg obj ?_)
          exact (congrArg settle same).trans (settle_eq_self (keyed members .self))
      | _ => rfl

/-- Keys that ascend are distinct. -/
theorem KeysAscend.distinctKeys (ascend : value.KeysAscend) : value.DistinctKeys := by
  intro members occurs
  rw [List.Nodup, List.pairwise_map]
  exact (ascend members occurs).imp fun below => ne_of_lt below

/-- A canonical text is read as its value, with the members in the order of their keys. -/
theorem decode_write (keyed : value.DistinctKeys) (finite : value.isFinite = true) :
    decode (String.ofList value.write) = some value.ordered := by
  have read := readValue_write finite (Nat.lt_succ_self _) [] rfl
  rw [List.append_nil] at read
  rw [decode, String.toList_ofList, String.length_ofList, read]
  -- keys of what is read ascend, so none of them is repeated
  show some value.ordered.settled = some value.ordered
  rw [settled_eq_self (keysAscend_ordered keyed).distinctKeys]

/-! ## Laws of the canonical text -/

/-- An object with two members, whose keys are not in order and of which one is beyond the basic
plane. -/
def nestedValue : Json :=
  obj [("😀", arr [int (-120), int 10070, str "\x7f\n\"é", null]),
    ("\uffff", obj [("b", int 31), ("a", int 0)])]

/-- The same with the members of the inner object exchanged. -/
def exchangedValue : Json :=
  obj [("😀", arr [int (-120), int 10070, str "\x7f\n\"é", null]),
    ("\uffff", obj [("a", int 0), ("b", int 31)])]

/-- The least integer that is too long for the usual bound on digits. -/
def longValue : Json :=
  arr [int (10 ^ digitBound : Nat)]

theorem distinctKeys_nestedValue : nestedValue.DistinctKeys := by
  have atom {value : Json} (none : value.parts = []) : value.DistinctKeys :=
    distinctKeys_of_parts_eq_nil none
  rw [nestedValue, distinctKeys_obj_iff, List.forall_mem_cons, List.forall_mem_singleton,
    distinctKeys_arr_iff, distinctKeys_obj_iff]
  simp only [List.forall_mem_cons, List.not_mem_nil, false_implies, implies_true, and_true]
  exact ⟨by decide, ⟨atom rfl, atom rfl, atom rfl, atom rfl⟩, by decide, atom rfl, atom rfl⟩

theorem distinctKeys_singleton {value : Json} (none : value.parts = []) :
    (arr [value]).DistinctKeys := by
  rw [distinctKeys_arr_iff, List.forall_mem_singleton]
  exact distinctKeys_of_parts_eq_nil none

end Covenant.Json
