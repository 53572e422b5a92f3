/-!
# Sorting

Insertion sort by a Boolean order. Equal elements keep their places, and the sort evaluates by
structural recursion, so closed lists sort by computation. The main statements are that a sorted
list holds what the list held (`sortBy_perm`), is in ascending order (`sortBy_pairwise`) and, under
an antisymmetric order, does not depend on the order of the list (`sortBy_eq_of_perm`).
-/

set_option autoImplicit false

namespace Covenant

variable {α : Type}

/-- Puts an element in front of the first one that it does not exceed. -/
def insertBy (le : α → α → Bool) (a : α) : List α → List α
  | [] => [a]
  | b :: rest => if le a b then a :: b :: rest else b :: insertBy le a rest

/-- The list in ascending order. -/
def sortBy (le : α → α → Bool) : List α → List α
  | [] => []
  | a :: rest => insertBy le a (sortBy le rest)

/-- Texts in the order of their code points. -/
def sortTexts (texts : List String) : List String :=
  sortBy (fun a b => decide (a ≤ b)) texts

theorem insertBy_perm (le : α → α → Bool) (a : α) (list : List α) :
    (insertBy le a list).Perm (a :: list) := by
  induction list with
  | nil => exact List.Perm.refl _
  | cons b rest ih =>
      unfold insertBy
      split
      · exact List.Perm.refl _
      · exact (ih.cons b).trans (List.Perm.swap a b rest)

/-- Sorting keeps the elements. -/
theorem sortBy_perm (le : α → α → Bool) (list : List α) : (sortBy le list).Perm list := by
  induction list with
  | nil => exact List.Perm.refl _
  | cons a rest ih => exact (insertBy_perm le a _).trans (ih.cons a)

/-- Sorting neither adds nor drops an element. -/
theorem mem_sortBy (le : α → α → Bool) (list : List α) (a : α) :
    a ∈ sortBy le list ↔ a ∈ list :=
  (sortBy_perm le list).mem_iff

section Map

variable {β : Type} {le : α → α → Bool} {le' : β → β → Bool} {f : α → β}

theorem insertBy_map (h : ∀ a b, le' (f a) (f b) = le a b) (a : α) (list : List α) :
    insertBy le' (f a) (list.map f) = (insertBy le a list).map f := by
  induction list with
  | nil => rfl
  | cons b rest ih =>
      rw [List.map_cons, insertBy, insertBy, h, ih]
      split <;> rfl

/-- Sorting commutes with a map that keeps the order. -/
theorem sortBy_map (h : ∀ a b, le' (f a) (f b) = le a b) (list : List α) :
    sortBy le' (list.map f) = (sortBy le list).map f := by
  induction list with
  | nil => rfl
  | cons a rest ih => rw [List.map_cons, sortBy, sortBy, ih, insertBy_map h]

end Map

/-- An order that compares any two elements and composes. -/
structure IsOrder (le : α → α → Bool) : Prop where
  total : ∀ a b, le a b = true ∨ le b a = true
  trans : ∀ a b c, le a b = true → le b c = true → le a c = true

theorem insertBy_pairwise {le : α → α → Bool} (order : IsOrder le) (a : α) {list : List α}
    (sorted : list.Pairwise fun x y => le x y = true) :
    (insertBy le a list).Pairwise fun x y => le x y = true := by
  induction list with
  | nil => simp [insertBy]
  | cons b rest ih =>
      obtain ⟨first, later⟩ := List.pairwise_cons.mp sorted
      unfold insertBy
      split
      · next before =>
          -- the new element is below the head, hence below everything after it
          refine List.pairwise_cons.mpr ⟨fun c member => ?_, sorted⟩
          rcases List.mem_cons.mp member with rfl | member
          · exact before
          · exact order.trans a b c before (first c member)
      · next after =>
          -- the head stays first, also before the new element
          refine List.pairwise_cons.mpr ⟨fun c member => ?_, ih later⟩
          rcases List.mem_cons.mp ((insertBy_perm le a rest).mem_iff.mp member) with rfl | member
          · exact (order.total c b).resolve_left after
          · exact first c member

/-- A sorted list is in ascending order. -/
theorem sortBy_pairwise {le : α → α → Bool} (order : IsOrder le) (list : List α) :
    (sortBy le list).Pairwise fun x y => le x y = true := by
  induction list with
  | nil => exact List.Pairwise.nil
  | cons a rest ih => exact insertBy_pairwise order a ih

/-- Lists of the same elements are sorted alike, if no two different elements are in both orders. -/
theorem sortBy_eq_of_perm {le : α → α → Bool} (order : IsOrder le) {list other : List α}
    (antisymm : ∀ a ∈ list, ∀ b ∈ list, le a b = true → le b a = true → a = b)
    (h : list.Perm other) : sortBy le list = sortBy le other := by
  apply List.Perm.eq_of_pairwise _ (sortBy_pairwise order list) (sortBy_pairwise order other)
  · exact (sortBy_perm le list).trans (h.trans (sortBy_perm le other).symm)
  · intro a b inFirst inSecond below above
    apply antisymm a _ b _ below above
    · exact (mem_sortBy le list a).mp inFirst
    · exact h.mem_iff.mpr ((mem_sortBy le other b).mp inSecond)

end Covenant
