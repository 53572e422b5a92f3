import Covenant.Order
import Covenant.Tree

/-!
# Routing on node kinds

A routing decides for every kind of node whether it is handled, and how, or ignored. No kind is
left open and none is both: the type carries the two facts, `Routing.build` checks them for
routings given as data, and `Routing.covering` ignores all that it does not handle. Hence a kind
has no handler exactly if it is ignored (`Routing.handler?_eq_none_iff`).
-/

set_option autoImplicit false

namespace Covenant

/-- A division of the kinds into handled and ignored ones. -/
structure Routing (α : Type) where
  /-- What the routing is for; shown in reports. -/
  name : String
  /-- The kinds that are handled, each with its handler. -/
  handlers : List (Kind × α)
  /-- The kinds that are passed over with everything below them. -/
  ignored : List Kind
  /-- No kind is both handled and ignored. -/
  disjoint : ∀ kind ∈ handlers.map Prod.fst, kind ∉ ignored
  /-- Every kind is handled or ignored. -/
  total : ∀ kind : Kind, kind ∈ handlers.map Prod.fst ∨ kind ∈ ignored

/-- Why a routing was refused. -/
inductive RoutingFault where
  | overlap (name : String) (kinds : List Kind)
  | gap (name : String) (kinds : List Kind)
  deriving DecidableEq, Repr

/-- Kinds by name, in the order of their names. -/
def sortedNames (kinds : List Kind) : List String :=
  sortTexts (kinds.map Kind.name)

/-- The report on a refused routing. -/
def RoutingFault.message : RoutingFault → String
  | overlap name kinds =>
      name ++ ": kinds both handled and ignored: " ++ Text.quotedList (sortedNames kinds)
  | gap name kinds => name ++ ": kinds not dispatched: " ++ Text.quotedList (sortedNames kinds)

namespace Routing

variable {α : Type}

/-- The kinds that are handled. -/
def handled (routing : Routing α) : List Kind :=
  routing.handlers.map Prod.fst

/-- The handler of a kind. -/
def handler? (routing : Routing α) (kind : Kind) : Option α :=
  routing.handlers.lookup kind

/-- The nodes that are handled, each with its handler, in their order. -/
def select (routing : Routing α) (nodes : List Tree) : List (α × Tree) :=
  nodes.filterMap fun node => (routing.handler? node.kind).map fun handler => (handler, node)

/-- The kinds that are both handled and ignored. -/
def overlapOf (handlers : List (Kind × α)) (ignored : List Kind) : List Kind :=
  Kind.all.filter fun kind => kind ∈ handlers.map Prod.fst ∧ kind ∈ ignored

/-- The kinds that are neither handled nor ignored. -/
def gapOf (handlers : List (Kind × α)) (ignored : List Kind) : List Kind :=
  Kind.all.filter fun kind => kind ∉ handlers.map Prod.fst ∧ kind ∉ ignored

theorem disjoint_of_overlapOf_eq_nil {handlers : List (Kind × α)} {ignored : List Kind}
    (h : overlapOf handlers ignored = []) : ∀ kind ∈ handlers.map Prod.fst, kind ∉ ignored := by
  intro kind handled skipped
  have absent := List.filter_eq_nil_iff.mp h kind (Kind.mem_all kind)
  exact absent (decide_eq_true ⟨handled, skipped⟩)

theorem total_of_gapOf_eq_nil {handlers : List (Kind × α)} {ignored : List Kind}
    (h : gapOf handlers ignored = []) (kind : Kind) :
    kind ∈ handlers.map Prod.fst ∨ kind ∈ ignored := by
  have absent := List.filter_eq_nil_iff.mp h kind (Kind.mem_all kind)
  by_cases handled : kind ∈ handlers.map Prod.fst
  · exact Or.inl handled
  · by_cases skipped : kind ∈ ignored
    · exact Or.inr skipped
    · exact absurd (decide_eq_true ⟨handled, skipped⟩) absent

/-- The routing with these handlers and ignored kinds. An overlap is reported before a gap. -/
def build (name : String) (handlers : List (Kind × α)) (ignored : List Kind) :
    Except RoutingFault (Routing α) :=
  if overlap : overlapOf handlers ignored = [] then
    if gap : gapOf handlers ignored = [] then
      .ok
        { name, handlers
          ignored := Kind.all.filter fun kind => kind ∈ ignored
          disjoint := by
            intro kind handled skipped
            exact disjoint_of_overlapOf_eq_nil overlap kind handled
              (of_decide_eq_true (List.mem_filter.mp skipped).2)
          total := by
            intro kind
            refine (total_of_gapOf_eq_nil gap kind).imp id fun skipped => ?_
            exact List.mem_filter.mpr ⟨Kind.mem_all kind, decide_eq_true skipped⟩ }
    else .error (.gap name (gapOf handlers ignored))
  else .error (.overlap name (overlapOf handlers ignored))

/-- The routing that ignores every kind it has no handler for. -/
def covering (name : String) (handlers : List (Kind × α)) : Routing α where
  name := name
  handlers := handlers
  ignored := Kind.all.filter fun kind => kind ∉ handlers.map Prod.fst
  disjoint := by
    intro kind handled skipped
    exact of_decide_eq_true (List.mem_filter.mp skipped).2 handled
  total := by
    intro kind
    by_cases handled : kind ∈ handlers.map Prod.fst
    · exact Or.inl handled
    · exact Or.inr (List.mem_filter.mpr ⟨Kind.mem_all kind, decide_eq_true handled⟩)

/-- A kind has no handler exactly if it is ignored. -/
theorem handler?_eq_none_iff (routing : Routing α) (kind : Kind) :
    routing.handler? kind = none ↔ kind ∈ routing.ignored := by
  have absent : routing.handler? kind = none ↔ kind ∉ routing.handlers.map Prod.fst := by
    unfold handler?
    rw [List.lookup_eq_none_iff]
    constructor
    · intro h member
      obtain ⟨pair, inside, rfl⟩ := List.mem_map.mp member
      have other := h pair inside
      simp at other
    · intro h pair inside
      have other : kind ≠ pair.1 := fun same => h (List.mem_map.mpr ⟨pair, inside, same.symm⟩)
      simpa using other
  rw [absent]
  constructor
  · intro h
    exact (routing.total kind).resolve_left h
  · intro skipped handled
    exact routing.disjoint kind handled skipped

end Routing

end Covenant
