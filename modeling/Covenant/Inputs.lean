import Covenant.Contract

/-!
# Inputs of a clause

The variables of a clause, one for each camel-case name. A variable that comes under a name
already there replaces the stored one and takes its place; a new name goes to the end. The names
are distinct by the type.
-/

set_option autoImplicit false

namespace Covenant

/-- The camel-case name of a variable, which is its identity in a clause. -/
def Variable.key (v : Variable) : String := v.name.camel

/-- Stores a variable among others. -/
def Variable.store (v : Variable) : List Variable → List Variable
  | [] => [v]
  | stored :: rest => if stored.key = v.key then v :: rest else stored :: v.store rest

/-- The names after storing: unchanged if the name was there, else extended by it. -/
theorem Variable.map_key_store (v : Variable) (stored : List Variable) :
    (v.store stored).map key
      = if v.key ∈ stored.map key then stored.map key else stored.map key ++ [v.key] := by
  induction stored with
  | nil => simp [store]
  | cons w rest ih =>
      unfold store
      by_cases same : w.key = v.key
      · simp [same]
      · have other : ¬ v.key = w.key := fun h => same h.symm
        simp only [same, if_false, List.map_cons, ih, List.mem_cons, other, false_or]
        split <;> simp

/-- Variables with distinct camel-case names, in the order in which the names came up. -/
structure Inputs where
  toList : List Variable
  distinct : (toList.map Variable.key).Nodup

namespace Inputs

/-- No variables. -/
def empty : Inputs := ⟨[], List.nodup_nil⟩

/-- The variable of that name. -/
def get? (inputs : Inputs) (camel : String) : Option Variable :=
  inputs.toList.find? fun v => v.key == camel

/-- Whether there is a variable of that name. -/
def contains (inputs : Inputs) (camel : String) : Bool :=
  inputs.toList.any fun v => v.key == camel

/-- The number of variables. -/
def size (inputs : Inputs) : Nat := inputs.toList.length

/-- Stores a variable. -/
def insert (inputs : Inputs) (v : Variable) : Inputs where
  toList := v.store inputs.toList
  distinct := by
    rw [Variable.map_key_store]
    split
    · exact inputs.distinct
    · next absent =>
        rw [List.nodup_append]
        refine ⟨inputs.distinct, by simp, ?_⟩
        intro a stored b single same
        rw [List.mem_singleton] at single
        exact absent (single ▸ same ▸ stored)

/-- Stores variables one after the other. -/
def insertAll (inputs : Inputs) (vars : List Variable) : Inputs :=
  vars.foldl insert inputs

/-- The names after storing a variable. -/
theorem map_key_insert (inputs : Inputs) (v : Variable) :
    (inputs.insert v).toList.map Variable.key
      = if v.key ∈ inputs.toList.map Variable.key then inputs.toList.map Variable.key
        else inputs.toList.map Variable.key ++ [v.key] :=
  Variable.map_key_store v inputs.toList

/-- Having a variable of a name is having the name among the names. -/
theorem contains_iff (inputs : Inputs) (camel : String) :
    inputs.contains camel = true ↔ camel ∈ inputs.toList.map Variable.key := by
  simp [contains]

end Inputs

end Covenant
