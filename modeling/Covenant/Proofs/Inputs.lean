import Covenant.Inputs
import Mathlib.Data.List.Nodup

/-!
# Which variables are stored

Storing a variable drops the one that was there under its name and keeps all others
(`Inputs.mem_insert`). So a variable that was given in a sequence is stored at the end exactly if
none of its name comes after it in the sequence (`Inputs.mem_insertAll_iff`), and the names that are
stored are all those that were given (`Inputs.mem_keys_insertAll`).
-/

set_option autoImplicit false

namespace Covenant

namespace Variable

variable {v w : Variable} {stored vars front back : List Variable}

/-- What is stored after a variable: itself, and what was there under other names. -/
theorem mem_store (distinct : (stored.map key).Nodup) :
    w ∈ v.store stored ↔ w = v ∨ w ∈ stored ∧ w.key ≠ v.key := by
  induction stored with
  | nil => simp [store]
  | cons u rest ih =>
      rw [List.map_cons, List.nodup_cons] at distinct
      unfold store
      by_cases same : u.key = v.key
      · -- the rest has no further variable of the name, as the names were distinct
        have others : ∀ w ∈ rest, w.key ≠ v.key := by
          intro w member shared
          apply distinct.1
          rw [same, ← shared]
          exact List.mem_map_of_mem member
        rw [if_pos same, List.mem_cons, List.mem_cons]
        constructor
        · rintro (rfl | member)
          · exact Or.inl rfl
          · exact Or.inr ⟨Or.inr member, others w member⟩
        · rintro (rfl | ⟨rfl | member, other⟩)
          · exact Or.inl rfl
          · exact absurd same other
          · exact Or.inr member
      · rw [if_neg same, List.mem_cons, List.mem_cons, ih distinct.2]
        constructor
        · rintro (rfl | rfl | ⟨member, other⟩)
          · exact Or.inr ⟨Or.inl rfl, same⟩
          · exact Or.inl rfl
          · exact Or.inr ⟨Or.inr member, other⟩
        · rintro (rfl | ⟨rfl | member, other⟩)
          · exact Or.inr (Or.inl rfl)
          · exact Or.inl rfl
          · exact Or.inr (Or.inr ⟨member, other⟩)

/-- The variable is in the sequence, and none of its name comes after it. -/
def IsLast (vars : List Variable) (v : Variable) : Prop :=
  ∃ front back, vars = front ++ v :: back ∧ ∀ w ∈ back, w.key ≠ v.key

theorem IsLast.mem (h : IsLast vars v) : v ∈ vars := by
  obtain ⟨front, back, rfl, -⟩ := h
  exact List.mem_append_right front List.mem_cons_self

theorem not_isLast_nil : ¬ IsLast [] v := by
  intro h
  cases h.mem

theorem isLast_cons :
    IsLast (w :: vars) v ↔ IsLast vars v ∨ v = w ∧ ∀ u ∈ vars, u.key ≠ v.key := by
  constructor
  · rintro ⟨front, back, parts, other⟩
    cases front with
    | nil =>
        cases parts
        exact Or.inr ⟨rfl, other⟩
    | cons first front =>
        cases parts
        exact Or.inl ⟨front, back, rfl, other⟩
  · rintro (⟨front, back, rfl, other⟩ | ⟨rfl, other⟩)
    · exact ⟨w :: front, back, rfl, other⟩
    · exact ⟨[], vars, rfl, other⟩

theorem isLast_append :
    IsLast (front ++ back) v ↔ IsLast back v ∨ IsLast front v ∧ ∀ w ∈ back, w.key ≠ v.key := by
  induction front with
  | nil => simp [not_isLast_nil]
  | cons first front ih =>
      rw [List.cons_append, isLast_cons, isLast_cons, ih, List.forall_mem_append, or_and_right,
        or_assoc, and_assoc]

end Variable

namespace Inputs

variable {w : Variable} {inputs : Inputs}

theorem mem_insert {v : Variable} :
    w ∈ (inputs.insert v).toList ↔ w = v ∨ w ∈ inputs.toList ∧ w.key ≠ v.key :=
  Variable.mem_store inputs.distinct

/-- After a sequence is stored there are the last variables of each name in it, and of what was
there before those whose name is not in the sequence. -/
theorem mem_insertAll_iff {vars : List Variable} :
    w ∈ (inputs.insertAll vars).toList ↔
      Variable.IsLast vars w ∨ w ∈ inputs.toList ∧ ∀ v ∈ vars, v.key ≠ w.key := by
  induction vars generalizing inputs with
  | nil => simp [insertAll, Variable.not_isLast_nil]
  | cons first rest ih =>
      rw [insertAll, List.foldl_cons, ← insertAll, ih, mem_insert, Variable.isLast_cons,
        List.forall_mem_cons, or_and_right, and_assoc, or_assoc, ne_comm]

theorem mem_insertAll_empty {vars : List Variable} :
    w ∈ (empty.insertAll vars).toList ↔ Variable.IsLast vars w := by
  rw [mem_insertAll_iff]
  simp [empty]

/-- The names after a sequence is stored are those from before and those of the sequence. -/
theorem mem_keys_insertAll {key : String} (vars : List Variable) (inputs : Inputs) :
    key ∈ (inputs.insertAll vars).toList.map Variable.key ↔
      key ∈ inputs.toList.map Variable.key ∨ key ∈ vars.map Variable.key := by
  induction vars generalizing inputs with
  | nil => simp [insertAll]
  | cons first rest ih =>
      have stored : key ∈ (inputs.insert first).toList.map Variable.key ↔
          key ∈ inputs.toList.map Variable.key ∨ key = first.key := by
        rw [map_key_insert]
        split
        · next present =>
            exact ⟨Or.inl, fun h => h.elim id fun same => same ▸ present⟩
        · rw [List.mem_append, List.mem_singleton]
      rw [insertAll, List.foldl_cons, ← insertAll, ih, stored, List.map_cons, List.mem_cons,
        or_assoc]

end Inputs

end Covenant
