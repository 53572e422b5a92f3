import Covenant.Proofs.Assembly.Contract

/-!
# Blocks in any order

All that the assembly takes from a contract stands at the end of a few ways down from it: its name,
the statements in its blocks of dates and parties, and its clauses. If the same headings stand there
in two contracts, and their clauses come out the same one by one, then the contracts cannot be told
apart, whether they are assembled or fail (`Tree.SameReading`, `Contract.ofTree_congr`).

The ways lead through children of one kind at a time. So it does not matter how children of
different kinds are mixed. Nor does it matter where a block ends and the next one of its kind
begins, since the ways go on below the blocks. Main statement: a contract whose children are put
into another order, without changing the order among those of one kind, or one of whose blocks is
written in two parts, is assembled as before (`Contract.ofTree_eq_of_rearranges`).
-/

set_option autoImplicit false

namespace Covenant

/-- What comes out of a visit of all items depends on what comes out of each of them. -/
theorem mapM_eq_of_map_eq {ε α β : Type} {visit : α → Except ε β} {items others : List α}
    (h : items.map visit = others.map visit) : items.mapM visit = others.mapM visit := by
  have outcomes (items : List α) : items.mapM visit = (items.map visit).mapM id := by
    rw [List.mapM_map]
    rfl
  rw [outcomes, outcomes, h]

namespace Tree

variable {tree other : Tree} {kinds : List Kind}

/-! ## What is read of a contract -/

/-- The ways from a contract to its name and to the statements of its dates and parties. -/
def headingWays : List (List (List Kind)) :=
  [[[.identifier]], [[.dates], [.beginDate]], [[.dates], [.dueDate]],
    [[.parties], [.application]], [[.parties], [.process]]]

/-- The same headings stand in both trees, and their clauses have the same outcomes. -/
structure SameReading (tree other : Tree) : Prop where
  headings : ∀ way ∈ headingWays, other.reach way = tree.reach way
  /-- A clause may be assembled or fail; the two outcomes are equal at each position. -/
  clauses : other.clauseNodes.map Clause.ofTree = tree.clauseNodes.map Clause.ofTree

theorem reach_congr (h : other.pick kinds = tree.pick kinds) (levels : List (List Kind)) :
    other.reach (kinds :: levels) = tree.reach (kinds :: levels) := by
  rw [reach, reach, h]

/-- Only children of four kinds are read. -/
theorem SameReading.of_pick
    (h : ∀ kind ∈ [Kind.identifier, .dates, .parties, .clauses],
      other.pick [kind] = tree.pick [kind]) :
    SameReading tree other := by
  constructor
  · have name := h .identifier (by simp)
    have dates := h .dates (by simp)
    have parties := h .parties (by simp)
    simp only [headingWays, List.forall_mem_cons]
    exact ⟨reach_congr name [], reach_congr dates [[.beginDate]], reach_congr dates [[.dueDate]],
      reach_congr parties [[.application]], reach_congr parties [[.process]], by simp⟩
  · have clauses := h .clauses (by simp)
    rw [clauseNodes, clauseNodes, reach_congr clauses [[.clause]]]

end Tree

/-- Contracts in which the same is read have the same outcome. -/
theorem Contract.ofTree_congr {tree other : Tree} (kind : tree.kind = .contract)
    (kind' : other.kind = .contract) (same : tree.SameReading other) :
    Contract.ofTree other = Contract.ofTree tree := by
  have headings := same.headings
  simp only [Tree.headingWays, List.forall_mem_cons] at headings
  obtain ⟨name, beginning, due, application, process, -⟩ := headings
  have filled : withClauses other = withClauses tree := by
    funext clauses
    simp only [withClauses, Tree.identifierText, Tree.firstOf?_eq_head?_reach, name, beginning, due,
      application, process]
  rw [ofTree_eq kind, ofTree_eq kind', mapM_eq_of_map_eq same.clauses, filled]

/-! ## Other orders and other divisions -/

namespace Tree

variable {kinds step : List Kind} {levels : List (List Kind)}

/-- Steps from the children of a contract to others that say the same. -/
inductive Rearranges : List Tree → List Tree → Prop
  /-- Another order in which the children of each kind keep their own. -/
  | reorder {children others : List Tree} :
      (∀ kind : Kind, (others.filter fun child => child.kind == kind)
        = children.filter fun child => child.kind == kind) →
      Rearranges children others
  /-- A block in two parts that stand side by side and hold what it held. What the three nodes carry
  as texts of their own does not matter. -/
  | split {kind : Kind} {front back entries more : List Tree} {own first second : Option String} :
      kind ∈ [Kind.dates, .parties, .clauses] →
      Rearranges (front ++ mk kind own (entries ++ more) :: back)
        (front ++ mk kind first entries :: mk kind second more :: back)
  | trans {children middle others : List Tree} :
      Rearranges children middle → Rearranges middle others → Rearranges children others

/-- The nodes below a block are those below its parts. -/
theorem among_split {kind : Kind} {front back entries more : List Tree}
    {own first second : Option String} :
    among kinds (step :: levels) (front ++ mk kind first entries :: mk kind second more :: back)
      = among kinds (step :: levels) (front ++ mk kind own (entries ++ more) :: back) := by
  have parts : among kinds (step :: levels) [mk kind own (entries ++ more)]
      = among kinds (step :: levels) [mk kind first entries]
        ++ among kinds (step :: levels) [mk kind second more] := by
    by_cases taken : kind ∈ kinds
    · have single (own : Option String) (entries : List Tree) :
          among kinds (step :: levels) [mk kind own entries] = among step levels entries := by
        rw [among_singleton_of_mem taken, reach_cons, children_mk]
      rw [single, single, single, among_append]
    · have none (own : Option String) (entries : List Tree) :
          among kinds (step :: levels) [mk kind own entries] = [] :=
        among_singleton_of_not_mem taken
      rw [none, none, none, List.append_nil]
  rw [among_append, among_append, among_cons, among_cons (mk kind second more),
    among_cons (mk kind own (entries ++ more)), parts, List.append_assoc]

/-- A block in two parts is read as one. -/
theorem SameReading.of_split {kind : Kind} {front back entries more : List Tree}
    {value own first second : Option String} (block : kind ∈ [Kind.dates, .parties, .clauses]) :
    SameReading (Tree.mk .contract value (front ++ Tree.mk kind own (entries ++ more) :: back))
      (Tree.mk .contract value
        (front ++ Tree.mk kind first entries :: Tree.mk kind second more :: back)) := by
  have notName : kind ≠ .identifier := by
    rintro rfl
    exact absurd block (by decide)
  have name : among [.identifier] []
        (front ++ Tree.mk kind first entries :: Tree.mk kind second more :: back)
      = among [.identifier] [] (front ++ Tree.mk kind own (entries ++ more) :: back) := by
    simp [among, notName]
  constructor
  · simp only [headingWays, List.forall_mem_cons, reach_cons, children_mk]
    exact ⟨name, among_split, among_split, among_split, among_split, by simp⟩
  · exact congrArg (List.map Clause.ofTree) among_split

theorem SameReading.of_reorder {value : Option String} {children others : List Tree}
    (order : ∀ kind : Kind, (others.filter fun child => child.kind == kind)
      = children.filter fun child => child.kind == kind) :
    SameReading (Tree.mk .contract value children) (Tree.mk .contract value others) := by
  apply of_pick
  intro kind _
  rw [pick_singleton, pick_singleton]
  exact order kind

end Tree

/-- The order and the division of the blocks of a contract do not matter, whether it is assembled or
fails. -/
theorem Contract.ofTree_eq_of_rearranges {value : Option String} {children others : List Tree}
    (h : Tree.Rearranges children others) :
    Contract.ofTree (.mk .contract value others)
      = Contract.ofTree (.mk .contract value children) := by
  induction h with
  | reorder order => exact ofTree_congr rfl rfl (.of_reorder order)
  | split block => exact ofTree_congr rfl rfl (.of_split block)
  | trans _ _ ih ih' => exact ih'.trans ih

/-- A date statement. -/
def statedDay (kind : Kind) (text : String) : Tree :=
  .inner kind [.leaf .date text]

/-- A name, a block of dates that gives the first day twice, and a block with two lists of
clauses. -/
def gatheredBlocks (clauses more : List Tree) : List Tree :=
  [.leaf .identifier "c",
    .inner .dates
      [statedDay .beginDate "2024-01-01", statedDay .dueDate "2024-12-31",
        statedDay .beginDate "2024-02-01"],
    .inner .clauses (clauses ++ more)]

/-- The same in five nodes, with the name in the middle and the corrected first day at the end. -/
def scatteredBlocks (clauses more : List Tree) : List Tree :=
  [.inner .clauses clauses,
    .inner .dates [statedDay .beginDate "2024-01-01", statedDay .dueDate "2024-12-31"],
    .leaf .identifier "c", .inner .clauses more,
    .inner .dates [statedDay .beginDate "2024-02-01"]]

theorem rearranges_scatteredBlocks (clauses more : List Tree) :
    Tree.Rearranges (gatheredBlocks clauses more) (scatteredBlocks clauses more) := by
  let name := Tree.leaf .identifier "c"
  let early := [statedDay .beginDate "2024-01-01", statedDay .dueDate "2024-12-31"]
  let late := [statedDay .beginDate "2024-02-01"]
  -- first the two blocks are divided where they stand, then the parts are mixed
  have dates : Tree.Rearranges (gatheredBlocks clauses more)
      [name, .inner .dates early, .inner .dates late, .inner .clauses (clauses ++ more)] :=
    @Tree.Rearranges.split .dates [name] _ early late none none none (by decide)
  have lists : Tree.Rearranges
      [name, .inner .dates early, .inner .dates late, .inner .clauses (clauses ++ more)]
      [name, .inner .dates early, .inner .dates late, .inner .clauses clauses,
        .inner .clauses more] :=
    @Tree.Rearranges.split .clauses [name, .inner .dates early, .inner .dates late] [] clauses more
      none none none (by decide)
  have mixed : Tree.Rearranges
      [name, .inner .dates early, .inner .dates late, .inner .clauses clauses, .inner .clauses more]
      (scatteredBlocks clauses more) := by
    apply Tree.Rearranges.reorder
    intro kind
    cases kind <;> rfl
  exact (dates.trans lists).trans mixed

/-- The corrected day wins in both, and of two clauses that fail the first one is reported in
both. -/
theorem Contract.ofTree_eq_of_rearranges_scattered :
    (∃ contract, Contract.ofTree (.mk .contract none (gatheredBlocks [] [])) = .ok contract ∧
      Contract.ofTree (.mk .contract none (scatteredBlocks [] [])) = .ok contract ∧
        contract.beginDate = "2024-02-01") ∧
    ∃ fault, Contract.ofTree (.mk .contract none
        (gatheredBlocks [.inner .clause []] [.inner .clause [.leaf .clauseType "right"]]))
          = .error fault ∧
      Contract.ofTree (.mk .contract none
        (scatteredBlocks [.inner .clause []] [.inner .clause [.leaf .clauseType "right"]]))
          = .error fault ∧
        fault = .missing .clause (.position 0) := by
  refine ⟨⟨_, rfl, ?_, rfl⟩, ⟨_, rfl, ?_, rfl⟩⟩
  · exact Contract.ofTree_eq_of_rearranges (rearranges_scatteredBlocks [] [])
  · exact Contract.ofTree_eq_of_rearranges (rearranges_scatteredBlocks _ _)

end Covenant
