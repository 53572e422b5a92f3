import Covenant.Grammar.Productions
import Covenant.Proofs.Grammar.Terminal
import Covenant.Proofs.Tree

/-!
# Derivations of patterns

A pattern derives lists of nodes when it is read as a grammar rule: either alternative of a
choice may be taken, an option may be left out, and a repetition may stop after any round
(`Pattern.Derives`). Running a pattern follows one of its derivations (`derives_of_reads`).
Alternatives that were given up leave nothing behind: what was read is the text of the leaves in
order, with a gap before each, and the rest of the text stands after it as it was
(`spelled_of_reads`).

Names are the one place where derivation looks further than the reading of a terminal, since a
name is told from a reserved word by what follows it. `Pattern.isClosed` checks that after every
place where a name can end no numeral or date can begin.
-/

set_option autoImplicit false

namespace Covenant

open Lexeme (Gap opensGap isForeign skipLayout)
open Text (opensWith)

/-! ## Leaves -/

namespace Tree

/-- The texts that the nodes of a tree carry, in document order. -/
def lexemes (tree : Tree) : List (List Char) :=
  (tree :: tree.beneath).filterMap fun node => node.value.map String.toList

@[simp] theorem lexemes_leaf (kind : Kind) (text : String) :
    (leaf kind text).lexemes = [text.toList] := by
  simp [lexemes, leaf, beneath, beneathOf]

@[simp] theorem lexemes_inner (kind : Kind) (children : List Tree) :
    (inner kind children).lexemes = children.flatMap lexemes := by
  have below : (inner kind children).beneath = beneathOf children := by simp [inner, beneath]
  rw [lexemes, below, beneathOf_eq_flatMap, List.filterMap_cons, List.filterMap_flatMap]
  rfl

end Tree

theorem Terminal.lexemes_leaves {terminal : Terminal} (solid : terminal.isSolid = true)
    (lexeme : List Char) : (terminal.leaves lexeme).flatMap Tree.lexemes = [lexeme] := by
  cases terminal with
  | endOfDocument => cases solid
  | _ => simp [leaves, leafKind?]

deriving instance DecidableEq for Pattern

namespace Pattern

@[simp] theorem append_eq_sequence (first second : Pattern) :
    first ++ second = sequence first second := rfl

@[simp] theorem orElse_eq_choice (first second : Pattern) :
    (first <|> second) = choice first second := rfl

/-- The lists of nodes that a pattern stands for. -/
inductive Derives : Pattern → List Tree → Prop
  | terminal {terminal : Terminal} {lexeme : List Char} :
      terminal.Accepts lexeme → Derives (.terminal terminal) (terminal.leaves lexeme)
  | sequence {first second : Pattern} {front back : List Tree} :
      Derives first front → Derives second back → Derives (.sequence first second) (front ++ back)
  | first {first second : Pattern} {nodes : List Tree} :
      Derives first nodes → Derives (.choice first second) nodes
  | second {first second : Pattern} {nodes : List Tree} :
      Derives second nodes → Derives (.choice first second) nodes
  | skip {pattern : Pattern} : Derives (.maybe pattern) []
  | take {pattern : Pattern} {nodes : List Tree} :
      Derives pattern nodes → Derives (.maybe pattern) nodes
  | stop {pattern : Pattern} : Derives (.many pattern) []
  | round {pattern : Pattern} {front back : List Tree} :
      Derives pattern front → Derives (.many pattern) back → Derives (.many pattern) (front ++ back)
  | node {kind : Kind} {pattern : Pattern} {nodes : List Tree} :
      Derives pattern nodes → Derives (.node kind pattern) [Tree.inner kind nodes]

variable {pattern first second : Pattern} {kind : Kind} {text mid rest : List Char}
  {nodes front back : List Tree}

/-- A repetition derives its rounds side by side. -/
theorem derives_many_iff :
    (many pattern).Derives nodes ↔
      ∃ rounds : List (List Tree), (∀ round ∈ rounds, pattern.Derives round) ∧
        nodes = rounds.flatten := by
  constructor
  · intro h
    -- the induction is on the derivation, whose pattern has to be a variable for it
    generalize repetition : many pattern = whole at h
    induction h with
    | stop => exact ⟨[], by simp, rfl⟩
    | @round _ front _ derived _ _ ih =>
        cases repetition
        obtain ⟨rounds, all, rfl⟩ := ih rfl
        exact ⟨front :: rounds, List.forall_mem_cons.mpr ⟨derived, all⟩, rfl⟩
    | _ => cases repetition
  · rintro ⟨rounds, all, rfl⟩
    induction rounds with
    | nil => exact .stop
    | cons round rounds ih =>
        rw [List.forall_mem_cons] at all
        exact .round all.1 (ih all.2)

/-! ## Runs -/

/-- The pattern reads these nodes from the text and leaves the rest. -/
def Reads (pattern : Pattern) (text : List Char) (nodes : List Tree) (rest : List Char) : Prop :=
  (pattern.scan text).outcome = some (nodes, rest)

/-- Rounds of a repetition, one after the other. -/
inductive Repeats (pattern : Pattern) : List Char → List Tree → List Char → Prop
  | stop {text : List Char} : Repeats pattern text [] text
  | round {text mid rest : List Char} {front back : List Tree} :
      pattern.Reads text front mid → Repeats pattern mid back rest →
        Repeats pattern text (front ++ back) rest

theorem reads_terminal_iff {terminal : Terminal} :
    (Pattern.terminal terminal).Reads text nodes rest ↔
      ∃ lexeme, terminal.read (skipLayout text) = some (lexeme, rest) ∧
        nodes = terminal.leaves lexeme := by
  unfold Reads scan Scan.ofTerminal
  cases found : terminal.read (skipLayout text) with
  | none => simp [found]
  | some cut =>
      obtain ⟨lexeme, after⟩ := cut
      simp only [found, Option.some.injEq, Prod.mk.injEq]
      constructor
      · rintro ⟨rfl, rfl⟩
        exact ⟨lexeme, ⟨rfl, rfl⟩, rfl⟩
      · rintro ⟨_, ⟨rfl, rfl⟩, rfl⟩
        exact ⟨rfl, rfl⟩

theorem outcome_andThen {scan : Scan} {next : List Char → Scan} :
    (scan.andThen next).outcome = some (nodes, rest) ↔
      ∃ front mid back, scan.outcome = some (front, mid) ∧
        (next mid).outcome = some (back, rest) ∧ nodes = front ++ back := by
  unfold Scan.andThen
  cases found : scan.outcome with
  | none => simp [found]
  | some result =>
      obtain ⟨front, mid⟩ := result
      simp only [Option.map_eq_some_iff, Prod.exists, Prod.mk.injEq, Option.some.injEq]
      constructor
      · rintro ⟨back, _, after, rfl, rfl⟩
        exact ⟨front, mid, back, ⟨rfl, rfl⟩, after, rfl⟩
      · rintro ⟨_, _, back, ⟨rfl, rfl⟩, after, rfl⟩
        exact ⟨back, rest, after, rfl, rfl⟩

theorem outcome_andThen_eq_none {scan : Scan} {next : List Char → Scan}
    (h : scan.outcome = none) : (scan.andThen next).outcome = none := by
  rw [Scan.andThen, h]
  exact h

theorem outcome_orElse {scan : Scan} {other : Unit → Scan} :
    (scan.orElse other).outcome = some (nodes, rest) ↔
      scan.outcome = some (nodes, rest) ∨
        scan.outcome = none ∧ (other ()).outcome = some (nodes, rest) := by
  unfold Scan.orElse
  cases found : scan.outcome with
  | none => simp
  | some result => simp [found]

theorem reads_sequence_iff :
    (sequence first second).Reads text nodes rest ↔
      ∃ front mid back, first.Reads text front mid ∧ second.Reads mid back rest ∧
        nodes = front ++ back :=
  outcome_andThen

theorem reads_choice_iff :
    (choice first second).Reads text nodes rest ↔
      first.Reads text nodes rest ∨
        (first.scan text).outcome = none ∧ second.Reads text nodes rest :=
  outcome_orElse

theorem outcome_empty :
    (Scan.empty text).outcome = some (nodes, rest) ↔ nodes = [] ∧ rest = text := by
  simp only [Scan.empty, Option.some.injEq, Prod.mk.injEq]
  exact ⟨fun h => ⟨h.1.symm, h.2.symm⟩, fun h => ⟨h.1.symm, h.2.symm⟩⟩

theorem outcome_gather {scan : Scan} :
    (scan.gather kind).outcome = some (nodes, rest) ↔
      ∃ children, scan.outcome = some (children, rest) ∧
        nodes = [Tree.inner kind children] := by
  simp only [Scan.gather, Option.map_eq_some_iff, Prod.exists, Prod.mk.injEq]
  constructor
  · rintro ⟨children, _, found, rfl, rfl⟩
    exact ⟨children, found, rfl⟩
  · rintro ⟨children, found, rfl⟩
    exact ⟨children, rest, found, rfl, rfl⟩

theorem reads_maybe_iff :
    (maybe pattern).Reads text nodes rest ↔
      pattern.Reads text nodes rest ∨
        (pattern.scan text).outcome = none ∧ nodes = [] ∧ rest = text := by
  rw [← outcome_empty]
  exact outcome_orElse

theorem reads_node_iff :
    (node kind pattern).Reads text nodes rest ↔
      ∃ children, pattern.Reads text children rest ∧ nodes = [Tree.inner kind children] :=
  outcome_gather

theorem repeats_of_repeated (limit : Nat) :
    ∀ {text : List Char} {nodes : List Tree},
      (Scan.repeated pattern.scan limit text).outcome = some (nodes, rest) →
        Repeats pattern text nodes rest := by
  induction limit with
  | zero =>
      intro text nodes h
      cases h
      exact .stop
  | succ limit ih =>
      intro text nodes h
      rw [Scan.repeated, outcome_orElse] at h
      rcases h with h | ⟨-, h⟩
      · obtain ⟨front, mid, back, read, later, rfl⟩ := outcome_andThen.mp h
        exact .round read (ih later)
      · cases h
        exact .stop

theorem repeats_of_reads_many (h : (many pattern).Reads text nodes rest) :
    Repeats pattern text nodes rest :=
  repeats_of_repeated (text.length + 1) h

/-! ## How a pattern opens -/

/-- The pattern may read nothing. -/
def nullable : Pattern → Bool
  | terminal _ => false
  | sequence first second => first.nullable && second.nullable
  | choice first second => first.nullable || second.nullable
  | maybe _ => true
  | many _ => true
  | node _ pattern => pattern.nullable

/-- The terminals that can come first. -/
def firsts : Pattern → List Terminal
  | terminal t => [t]
  | sequence first second => first.firsts ++ if first.nullable then second.firsts else []
  | choice first second => first.firsts ++ second.firsts
  | maybe pattern => pattern.firsts
  | many pattern => pattern.firsts
  | node _ pattern => pattern.firsts

/-- All terminals of the pattern are solid. -/
def isSolid : Pattern → Bool
  | terminal t => t.isSolid
  | sequence first second => first.isSolid && second.isSolid
  | choice first second => first.isSolid && second.isSolid
  | maybe pattern => pattern.isSolid
  | many pattern => pattern.isSolid
  | node _ pattern => pattern.isSolid

/-- What a pattern that is not nullable derives has leaves. -/
theorem lexemes_ne_nil_of_derives (solid : pattern.isSolid = true)
    (proper : pattern.nullable = false) (h : pattern.Derives nodes) :
    nodes.flatMap Tree.lexemes ≠ [] := by
  induction h with
  | terminal accepted => simp [Terminal.lexemes_leaves solid]
  | sequence _ _ ihFront ihBack =>
      rw [isSolid, Bool.and_eq_true] at solid
      rw [nullable, Bool.and_eq_false_iff] at proper
      rw [List.flatMap_append, Ne, List.append_eq_nil_iff]
      rintro ⟨noneFront, noneBack⟩
      rcases proper with proper | proper
      · exact ihFront solid.1 proper noneFront
      · exact ihBack solid.2 proper noneBack
  | first _ ih =>
      rw [isSolid, Bool.and_eq_true] at solid
      rw [nullable, Bool.or_eq_false_iff] at proper
      exact ih solid.1 proper.1
  | second _ ih =>
      rw [isSolid, Bool.and_eq_true] at solid
      rw [nullable, Bool.or_eq_false_iff] at proper
      exact ih solid.2 proper.2
  | node _ ih =>
      rw [List.flatMap_singleton, Tree.lexemes_inner]
      exact ih solid proper
  | _ => cases proper

/-- A run reads nothing, which only a nullable pattern does, or one of the first terminals opens
the text. -/
theorem nullable_or_opens (solid : pattern.isSolid = true) (h : pattern.Reads text nodes rest) :
    (pattern.nullable = true ∧ nodes.flatMap Tree.lexemes = [] ∧ rest = text) ∨
      ∃ t ∈ pattern.firsts, opensWith t.opens (skipLayout text) = true := by
  induction pattern generalizing text nodes rest with
  | terminal t =>
      obtain ⟨lexeme, read, -⟩ := reads_terminal_iff.mp h
      have opens := Terminal.opensWith_opens_of_read solid read
      have nonempty : lexeme ≠ [] := by
        rintro rfl
        cases opens
      refine Or.inr ⟨t, List.mem_singleton_self t, ?_⟩
      rw [← Terminal.read_append read, Text.opensWith_append nonempty]
      exact opens
  | sequence first second ihFirst ihSecond =>
      rw [isSolid, Bool.and_eq_true] at solid
      obtain ⟨front, mid, back, readFirst, readSecond, rfl⟩ := reads_sequence_iff.mp h
      rcases ihFirst solid.1 readFirst with ⟨null, none, rfl⟩ | ⟨t, member, opens⟩
      · rcases ihSecond solid.2 readSecond with ⟨null', none', rfl⟩ | ⟨t, member, opens⟩
        · exact Or.inl ⟨by simp [nullable, null, null'], by simp [none, none'], rfl⟩
        · exact Or.inr ⟨t, by simp [firsts, null, member], opens⟩
      · exact Or.inr ⟨t, by simp [firsts, member], opens⟩
  | choice first second ihFirst ihSecond =>
      rw [isSolid, Bool.and_eq_true] at solid
      rcases reads_choice_iff.mp h with read | ⟨-, read⟩
      · rcases ihFirst solid.1 read with ⟨null, nothing⟩ | ⟨t, member, opens⟩
        · exact Or.inl ⟨by simp [nullable, null], nothing⟩
        · exact Or.inr ⟨t, by simp [firsts, member], opens⟩
      · rcases ihSecond solid.2 read with ⟨null, nothing⟩ | ⟨t, member, opens⟩
        · exact Or.inl ⟨by simp [nullable, null], nothing⟩
        · exact Or.inr ⟨t, by simp [firsts, member], opens⟩
  | maybe pattern ih =>
      rcases reads_maybe_iff.mp h with read | ⟨-, rfl, rfl⟩
      · exact (ih solid read).imp (fun nothing => ⟨rfl, nothing.2⟩) id
      · exact Or.inl ⟨rfl, rfl, rfl⟩
  | many pattern ih =>
      have rounds := repeats_of_reads_many h
      clear h
      -- rounds that read nothing may come before the one that opens the text
      induction rounds with
      | stop => exact Or.inl ⟨rfl, rfl, rfl⟩
      | round read _ later =>
          rcases ih solid read with ⟨-, none, rfl⟩ | opens
          · rw [List.flatMap_append, none, List.nil_append]
            exact later
          · exact Or.inr opens
  | node kind pattern ih =>
      obtain ⟨children, read, rfl⟩ := reads_node_iff.mp h
      rw [List.flatMap_singleton, Tree.lexemes_inner]
      exact ih solid read

/-- A pattern that reads something fails on a text that none of its first terminals opens. -/
theorem outcome_eq_none (solid : pattern.isSolid = true) (proper : pattern.nullable = false)
    (h : ∀ t ∈ pattern.firsts, opensWith t.opens (skipLayout text) = false) :
    (pattern.scan text).outcome = none := by
  cases found : (pattern.scan text).outcome with
  | none => rfl
  | some result =>
      rcases nullable_or_opens solid (show pattern.Reads text result.1 result.2 from found) with
        ⟨null, -⟩ | ⟨t, member, opens⟩
      · rw [proper] at null
        cases null
      · rw [h t member] at opens
        cases opens

/-! ## Nothing is lost -/

/-- The text up to the rest is the leaves of the nodes in order, with a gap before each. -/
def Spelled (nodes : List Tree) (text rest : List Char) : Prop :=
  ∃ pieces, text = laidOut pieces rest ∧
    pieces.map Piece.lexeme = nodes.flatMap Tree.lexemes ∧
      ∀ piece ∈ pieces, Gap false piece.gap

theorem Spelled.nil (text : List Char) : Spelled [] text text :=
  ⟨[], rfl, rfl, by simp⟩

theorem Spelled.append (h : Spelled front text mid) (h' : Spelled back mid rest) :
    Spelled (front ++ back) text rest := by
  obtain ⟨left, rfl, spelledLeft, gapsLeft⟩ := h
  obtain ⟨right, rfl, spelledRight, gapsRight⟩ := h'
  refine ⟨left ++ right, by simp [laidOut], by simp [spelledLeft, spelledRight], ?_⟩
  intro piece member
  rcases List.mem_append.mp member with member | member
  · exact gapsLeft piece member
  · exact gapsRight piece member

theorem spelled_of_read {terminal : Terminal} {lexeme : List Char}
    (solid : terminal.isSolid = true)
    (read : terminal.read (skipLayout text) = some (lexeme, rest)) :
    Spelled (terminal.leaves lexeme) text rest := by
  obtain ⟨gap, split, skipped⟩ := Lexeme.exists_gap_append_skipLayout text
  have whole := Terminal.read_append read
  -- the lexeme is not empty, so the gap before it is not at the end
  have more : (skipLayout text).isEmpty = false := by
    obtain ⟨c, tail, rfl, -⟩ :=
      Text.exists_cons_of_opensWith (Terminal.opensWith_opens_of_read solid read)
    rw [← whole]
    rfl
  rw [more] at skipped
  refine ⟨[⟨gap, lexeme⟩], ?_, ?_, ?_⟩
  · rw [laidOut_cons, laidOut_nil, whole, ← split]
  · rw [Terminal.lexemes_leaves solid]
    rfl
  · intro piece member
    rw [List.mem_singleton.mp member]
    exact skipped

/-- A run reads the leaves of its nodes, in order, and nothing else but gaps. -/
theorem spelled_of_reads (solid : pattern.isSolid = true) (h : pattern.Reads text nodes rest) :
    Spelled nodes text rest := by
  induction pattern generalizing text nodes rest with
  | terminal t =>
      obtain ⟨lexeme, read, rfl⟩ := reads_terminal_iff.mp h
      exact spelled_of_read solid read
  | sequence first second ihFirst ihSecond =>
      rw [isSolid, Bool.and_eq_true] at solid
      obtain ⟨front, mid, back, readFirst, readSecond, rfl⟩ := reads_sequence_iff.mp h
      exact (ihFirst solid.1 readFirst).append (ihSecond solid.2 readSecond)
  | choice first second ihFirst ihSecond =>
      rw [isSolid, Bool.and_eq_true] at solid
      rcases reads_choice_iff.mp h with read | ⟨-, read⟩
      · exact ihFirst solid.1 read
      · exact ihSecond solid.2 read
  | maybe pattern ih =>
      rcases reads_maybe_iff.mp h with read | ⟨-, rfl, rfl⟩
      · exact ih solid read
      · exact Spelled.nil _
  | many pattern ih =>
      have rounds := repeats_of_reads_many h
      clear h
      induction rounds with
      | stop => exact Spelled.nil _
      | round read _ later => exact (ih solid read).append later
  | node kind pattern ih =>
      obtain ⟨children, read, rfl⟩ := reads_node_iff.mp h
      have spelled := ih solid read
      unfold Spelled at spelled ⊢
      rw [List.flatMap_singleton, Tree.lexemes_inner]
      exact spelled

/-! ## Runs follow derivations -/

end Pattern

/-- Some lexeme of the terminal opens with a word character that no identifier holds. -/
def Terminal.opensForeign : Terminal → Bool
  | .literal text => opensWith isForeign text.toList
  | .number | .datetime | .date => true
  | _ => false

theorem Terminal.not_isForeign_of_opens {terminal : Terminal} {c : Char}
    (plain : terminal.opensForeign = false) (h : terminal.opens c = true) :
    isForeign c = false := by
  have ofWords : ∀ {words : List String},
      (∀ word ∈ words, opensWith isForeign word.toList = false) →
        Lexeme.opensOneOf words c = true → isForeign c = false := by
    intro words plain h
    obtain ⟨word, member, opens⟩ := List.any_eq_true.mp h
    obtain ⟨d, tail, same, found⟩ := Text.exists_cons_of_opensWith opens
    have settled := plain word member
    rw [same, Text.opensWith_cons, beq_iff_eq.mp found] at settled
    exact settled
  cases terminal with
  | literal text =>
      obtain ⟨d, tail, same, found⟩ := Text.exists_cons_of_opensWith h
      rw [opensForeign, same, Text.opensWith_cons, beq_iff_eq.mp found] at plain
      exact plain
  | identifier => simp [isForeign, Text.isIdentifierChar_of_isIdentifierStart h]
  | string =>
      simp only [opens, Vocabulary.quotes, List.contains_iff_mem, List.mem_cons,
        List.not_mem_nil, or_false] at h
      rcases h with rfl | rfl <;> decide
  | number => cases plain
  | datetime => cases plain
  | date => cases plain
  | comparator => exact ofWords (by decide) h
  | clauseType => exact ofWords (by decide) h
  | partyRole => exact ofWords (by decide) h
  | connective => exact ofWords (by decide) h
  | endOfDocument => cases h

namespace Pattern

variable {pattern first second : Pattern} {kind : Kind} {text mid rest : List Char}
  {nodes front back : List Tree}

/-- The last lexeme that the pattern reads can be a name. -/
def endsInName : Pattern → Bool
  | terminal t => t = .identifier
  | sequence first second => second.endsInName || second.nullable && first.endsInName
  | choice first second => first.endsInName || second.endsInName
  | maybe pattern => pattern.endsInName
  | many pattern => pattern.endsInName
  | node _ pattern => pattern.endsInName

/-- No first lexeme opens with a foreign word character. -/
def opensPlain (pattern : Pattern) : Bool :=
  pattern.firsts.all fun t => !t.opensForeign

/-- Where a name can end inside the pattern, what comes next opens plainly. -/
def isClosed : Pattern → Bool
  | terminal _ => true
  | sequence first second =>
      first.isClosed && second.isClosed && (!first.endsInName || second.opensPlain)
  | choice first second => first.isClosed && second.isClosed
  | maybe pattern => pattern.isClosed
  | many pattern => pattern.isClosed && (!pattern.endsInName || pattern.opensPlain)
  | node _ pattern => pattern.isClosed

/-- A text before which a pattern that opens plainly was read does not open with a foreign word
character, unless it is the text that was left. -/
theorem settled_of_reads (solid : pattern.isSolid = true) (plain : pattern.opensPlain = true)
    (h : pattern.Reads text nodes rest)
    (settled : pattern.nullable = true → opensWith isForeign rest = false) :
    opensWith isForeign text = false := by
  rcases nullable_or_opens solid h with ⟨null, -, rfl⟩ | ⟨t, member, opens⟩
  · exact settled null
  · cases foreign : opensWith isForeign text with
    | false => rfl
    | true =>
        have plainFirst : t.opensForeign = false := by
          simpa using List.all_eq_true.mp plain t member
        -- a foreign character is no layout, so it would open the first lexeme
        obtain ⟨c, tail, rfl, found⟩ := Text.exists_cons_of_opensWith foreign
        have word : Text.isWordChar c = true := by
          rw [isForeign, Bool.and_eq_true] at found
          exact found.1
        have noGap : opensWith opensGap (c :: tail) = false := by
          cases gap : opensGap c with
          | false => exact gap
          | true =>
              rw [not_isWordChar_of_opensGap gap] at word
              cases word
        rw [Lexeme.skipLayout_of_not_opensGap noGap, Text.opensWith_cons] at opens
        rw [Terminal.not_isForeign_of_opens plainFirst opens] at found
        cases found

theorem settled_of_repeats (solid : pattern.isSolid = true) (plain : pattern.opensPlain = true)
    (h : Repeats pattern text nodes rest) (settled : opensWith isForeign rest = false) :
    opensWith isForeign text = false := by
  induction h with
  | stop => exact settled
  | round read _ ih => exact settled_of_reads solid plain read fun _ => ih settled

/-- A run follows a derivation. A name at the end has to be told from a reserved word by what
follows. -/
theorem derives_of_reads (solid : pattern.isSolid = true) (closed : pattern.isClosed = true)
    (h : pattern.Reads text nodes rest)
    (settled : pattern.endsInName = true → opensWith isForeign rest = false) :
    pattern.Derives nodes := by
  induction pattern generalizing text nodes rest with
  | terminal t =>
      obtain ⟨lexeme, read, rfl⟩ := reads_terminal_iff.mp h
      refine .terminal (Terminal.accepts_of_read read fun name => settled ?_)
      rw [endsInName, name]
      rfl
  | sequence first second ihFirst ihSecond =>
      rw [isSolid, Bool.and_eq_true] at solid
      simp only [isClosed, Bool.and_eq_true] at closed
      obtain ⟨⟨closedFirst, closedSecond⟩, plain⟩ := closed
      obtain ⟨front, mid, back, readFirst, readSecond, rfl⟩ := reads_sequence_iff.mp h
      refine .sequence (ihFirst solid.1 closedFirst readFirst fun name => ?_)
        (ihSecond solid.2 closedSecond readSecond fun name => settled (by simp [endsInName, name]))
      -- the first part ends in a name, so what the second part reads settles it
      rw [name, Bool.not_true, Bool.false_or] at plain
      exact settled_of_reads solid.2 plain readSecond fun null =>
        settled (by simp [endsInName, null, name])
  | choice first second ihFirst ihSecond =>
      rw [isSolid, Bool.and_eq_true] at solid
      rw [isClosed, Bool.and_eq_true] at closed
      rcases reads_choice_iff.mp h with read | ⟨-, read⟩
      · exact .first (ihFirst solid.1 closed.1 read fun name =>
          settled (by simp [endsInName, name]))
      · exact .second (ihSecond solid.2 closed.2 read fun name =>
          settled (by simp [endsInName, name]))
  | maybe pattern ih =>
      rcases reads_maybe_iff.mp h with read | ⟨-, rfl, rfl⟩
      · exact .take (ih solid closed read settled)
      · exact .skip
  | many pattern ih =>
      rw [isSolid] at solid
      rw [isClosed, Bool.and_eq_true] at closed
      have rounds := repeats_of_reads_many h
      clear h
      induction rounds with
      | stop => exact .stop
      | round read later ihLater =>
          refine .round (ih solid closed.1 read fun name => ?_) (ihLater settled)
          have plain := closed.2
          rw [name, Bool.not_true, Bool.false_or] at plain
          exact settled_of_repeats solid plain later (settled name)
  | node kind pattern ih =>
      obtain ⟨children, read, rfl⟩ := reads_node_iff.mp h
      exact .node (ih solid closed read settled)

end Pattern

end Covenant
