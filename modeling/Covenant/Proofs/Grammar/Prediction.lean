import Covenant.Proofs.Grammar.Derivation

/-!
# Prediction by the next character

A run of a pattern never goes back on a choice that succeeded, so it follows a given derivation
only if the next lexeme always tells which way to go. `Pattern.predicts` checks this for a
pattern and the terminals that may follow it: alternatives, and going on against stopping, open
with different characters. Two choices are told apart further on. A date with a time is tried
before a date alone, and a comparison before its left side alone; there the following terminals
must not let the longer alternative succeed.

Main statement: a pattern that predicts reads every list of nodes that it derives, in every
spaced layout, and stops where the layout of the nodes ends (`predictive_of_predicts`).
-/

set_option autoImplicit false

namespace Covenant

open Lexeme (Gap opensGap skipLayout)
open Text (opensWith endsWith)

/-! ## Terminals that open apart -/

namespace Terminal

/-- A lexeme of the second terminal never continues one of the first. -/
def clearsBefore : Terminal → Terminal → Bool
  | number, next => !next.opens '.'
  | comparator, next => !next.opens '='
  | _, _ => true

/-- No character opens lexemes of both terminals. -/
def opensApart : Terminal → Terminal → Bool
  | literal text, other => opensWith (fun c => !other.opens c) text.toList
  | terminal, literal text => opensWith (fun c => !terminal.opens c) text.toList
  | number, string => true
  | number, identifier => true
  | string, identifier => true
  | _, _ => false

variable {terminal other : Terminal} {c : Char}

theorem clears_of_clearsBefore (clear : terminal.clearsBefore other = true)
    (h : other.opens c = true) : terminal.clears c = true := by
  cases terminal with
  | number =>
      rw [clears, bne_iff_ne]
      rintro rfl
      rw [clearsBefore, h] at clear
      cases clear
  | comparator =>
      rw [clears, bne_iff_ne]
      rintro rfl
      rw [clearsBefore, h] at clear
      cases clear
  | _ => rfl

theorem not_isDecimalDigit_of_isIdentifierStart (h : Text.isIdentifierStart c = true) :
    Text.isDecimalDigit c = false := by
  simp only [Text.isIdentifierStart, Bool.or_eq_true, beq_iff_eq] at h
  rcases h with rfl | alpha
  · decide
  · have ascii := Text.toNat_lt_of_isAlphanum (show c.isAlphanum = true by
      simp [Char.isAlphanum, alpha])
    rw [Text.isDecimalDigit_of_ascii ascii]
    unfold Char.isAlpha Char.isUpper Char.isLower at alpha
    simp only [Bool.or_eq_true, Bool.and_eq_true, decide_eq_true_eq, ge_iff_le,
      UInt32.le_iff_toNat_le] at alpha
    simp only [Char.isDigit, ge_iff_le, Bool.and_eq_false_iff, decide_eq_false_iff_not,
      UInt32.le_iff_toNat_le]
    have upper : 'A'.val.toNat = 65 := rfl
    have lower : 'a'.val.toNat = 97 := rfl
    have nine : '9'.val.toNat = 57 := rfl
    omega

theorem not_opens_string_of_opens_identifier (h : identifier.opens c = true) :
    string.opens c = false := by
  cases quoted : string.opens c with
  | false => rfl
  | true =>
      simp only [opens, Vocabulary.quotes, List.contains_iff_mem, List.mem_cons,
        List.not_mem_nil, or_false] at quoted
      rcases quoted with rfl | rfl <;> exact absurd h (by decide)

theorem not_opens_number_of_opens_identifier (h : identifier.opens c = true) :
    number.opens c = false := by
  have digit : Text.isDecimalDigit c = false := not_isDecimalDigit_of_isIdentifierStart h
  cases signed : Lexeme.isSign c with
  | false => simp [opens, signed, digit]
  | true =>
      simp only [Lexeme.isSign, Bool.or_eq_true, beq_iff_eq] at signed
      rcases signed with rfl | rfl <;> exact absurd h (by decide)

theorem not_opens_of_opensApart (apart : terminal.opensApart other = true)
    (h : other.opens c = true) : terminal.opens c = false := by
  unfold opensApart at apart
  split at apart
  · next text =>
      obtain ⟨d, tail, same, free⟩ := Text.exists_cons_of_opensWith apart
      cases found : (literal text).opens c with
      | false => rfl
      | true =>
          rw [opens, same, Text.opensWith_cons, beq_iff_eq] at found
          rw [found, h] at free
          cases free
  · next terminal text _ =>
      obtain ⟨d, tail, same, free⟩ := Text.exists_cons_of_opensWith apart
      rw [opens, same, Text.opensWith_cons, beq_iff_eq] at h
      rw [h, Bool.not_eq_true'] at free
      exact free
  · exact not_opens_number_of_opens_string h
  · exact not_opens_number_of_opens_identifier h
  · exact not_opens_string_of_opens_identifier h
  · cases apart

end Terminal

/-- No character opens lexemes of terminals of both lists. -/
def opensAllApart (terminals others : List Terminal) : Bool :=
  terminals.all fun terminal => others.all terminal.opensApart

theorem not_opens_of_opensAllApart {terminals others : List Terminal}
    (apart : opensAllApart terminals others = true) {c : Char} {other : Terminal}
    (member : other ∈ others) (h : other.opens c = true) :
    ∀ terminal ∈ terminals, terminal.opens c = false := by
  intro terminal mem
  have all := List.all_eq_true.mp apart terminal mem
  exact Terminal.not_opens_of_opensApart (List.all_eq_true.mp all other member) h

namespace Pattern

/-! ## The check -/

/-- The terminals that may come after a pattern that is followed by another one. -/
def followed (next : Pattern) (follow : List Terminal) : List Terminal :=
  next.firsts ++ if next.nullable then follow else []

/-- The first alternative fails where the second one and then one of the terminals stand. -/
def yields : Pattern → Pattern → List Terminal → Bool
  | terminal .datetime, terminal .date, follow => opensAllApart [.date] follow
  | sequence (sequence start next) _, short, follow =>
      start = short && !next.nullable && opensAllApart next.firsts follow
  | long, short, _ => !long.nullable && !short.nullable && opensAllApart long.firsts short.firsts

/-- The next character always tells which way a run has to go. -/
def predicts : Pattern → List Terminal → Bool
  | terminal t, follow => follow.all t.clearsBefore
  | sequence first second, follow =>
      first.predicts (second.followed follow) && second.predicts follow
  | choice first second, follow =>
      first.predicts follow && second.predicts follow && first.yields second follow
  | maybe pattern, follow =>
      pattern.predicts follow && !pattern.nullable && opensAllApart pattern.firsts follow
  | many pattern, follow =>
      pattern.predicts (pattern.firsts ++ follow) && !pattern.nullable &&
        opensAllApart pattern.firsts follow
  | node _ pattern, follow => pattern.predicts follow

/-! ## What comes next -/

/-- After layout the text is at its end, or it opens as a lexeme of one of the terminals does. -/
def Meets (text : List Char) (follow : List Terminal) : Prop :=
  ∀ c, (skipLayout text).head? = some c → ∃ t ∈ follow, t.opens c = true

variable {pattern first second : Pattern} {nodes : List Tree} {text rest : List Char}
  {follow : List Terminal}

/-- What comes next opens as none of the terminals does that open apart from what follows. -/
theorem Meets.not_opens (meets : Meets text follow) {terminals : List Terminal}
    (apart : opensAllApart terminals follow = true) :
    ∀ t ∈ terminals, opensWith t.opens (skipLayout text) = false := by
  intro t member
  cases opens : opensWith t.opens (skipLayout text) with
  | false => rfl
  | true =>
      obtain ⟨c, tail, same, found⟩ := Text.exists_cons_of_opensWith opens
      obtain ⟨u, mem, opensNext⟩ := meets c (by rw [same]; rfl)
      rw [not_opens_of_opensAllApart apart mem opensNext t member] at found
      cases found

/-- A pattern fails where what comes next opens otherwise. -/
theorem Meets.outcome_eq_none (meets : Meets text follow) (solid : pattern.isSolid = true)
    (proper : pattern.nullable = false) (apart : opensAllApart pattern.firsts follow = true) :
    (pattern.scan text).outcome = none :=
  Pattern.outcome_eq_none solid proper (meets.not_opens apart)

/-- Before a pattern that was read come its first terminals, or what follows it if it read
nothing. -/
theorem Meets.followed (meets : Meets rest follow) (solid : pattern.isSolid = true)
    (h : pattern.Reads text nodes rest) : Meets text (pattern.followed follow) := by
  intro c next
  rcases nullable_or_opens solid h with ⟨null, -, rfl⟩ | ⟨t, member, opens⟩
  · obtain ⟨u, mem, found⟩ := meets c next
    exact ⟨u, by simp [Pattern.followed, null, mem], found⟩
  · rw [opensWith, next] at opens
    exact ⟨t, by simp [Pattern.followed, member], opens⟩

/-! ## Alternatives that yield -/

/-- Alternatives that open apart: the second one's first lexeme makes the first one fail. -/
theorem fails_of_opensAllApart (solidFirst : first.isSolid = true)
    (solidSecond : second.isSolid = true) (properFirst : first.nullable = false)
    (properSecond : second.nullable = false)
    (apart : opensAllApart first.firsts second.firsts = true)
    (read : second.Reads text nodes rest) : (first.scan text).outcome = none := by
  rcases nullable_or_opens solidSecond read with ⟨null, -⟩ | ⟨t, member, opens⟩
  · rw [properSecond] at null
    cases null
  · have meets : Meets text second.firsts := by
      intro c next
      rw [opensWith, next] at opens
      exact ⟨t, member, opens⟩
    exact meets.outcome_eq_none solidFirst properFirst apart

/-- A longer alternative fails after the shorter one, where what it goes on with does not
come. -/
theorem fails_of_longer {next long : Pattern} (solid : next.isSolid = true)
    (proper : next.nullable = false) (apart : opensAllApart next.firsts follow = true)
    (meets : Meets rest follow) (read : second.Reads text nodes rest) :
    ((sequence (sequence second next) long).scan text).outcome = none := by
  have stopped := meets.outcome_eq_none solid proper apart
  -- the shorter alternative is the start of the longer one and is read by it too
  have short : ((sequence second next).scan text).outcome = none := by
    show ((second.scan text).andThen next.scan).outcome = none
    rw [Scan.andThen, show (second.scan text).outcome = _ from read]
    simp [stopped]
  exact outcome_andThen_eq_none short

/-- A date with a time fails where a date stands, if neither a `T` nor a digit comes after it. -/
theorem fails_of_date (apart : opensAllApart [.date] follow = true) (meets : Meets rest follow)
    (noMark : opensWith (· == 'T') rest = false)
    (read : (terminal .date).Reads text nodes rest) :
    ((terminal .datetime).scan text).outcome = none := by
  obtain ⟨lexeme, found, -⟩ := reads_terminal_iff.mp read
  obtain ⟨dated, whole⟩ := Lexeme.date_eq_some_iff.mp found
  have noDigit := meets.not_opens apart .date (List.mem_singleton_self _)
  have missed := Terminal.datetime_append_eq_none dated noMark noDigit
  rw [scan, Scan.ofTerminal, whole, show Terminal.datetime.read _ = none from missed]

/-- The first alternative fails where the second one is read, if it yields to it. -/
theorem fails_of_yields (solidFirst : first.isSolid = true) (solidSecond : second.isSolid = true)
    (h : first.yields second follow = true) (meets : Meets rest follow)
    (noMark : second = terminal .date → opensWith (· == 'T') rest = false)
    (read : second.Reads text nodes rest) : (first.scan text).outcome = none := by
  unfold yields at h
  split at h
  · exact fails_of_date h meets (noMark rfl) read
  · next start next _ =>
      simp only [Bool.and_eq_true, decide_eq_true_eq, Bool.not_eq_true'] at h
      obtain ⟨⟨rfl, proper⟩, apart⟩ := h
      simp only [isSolid, Bool.and_eq_true] at solidFirst
      exact fails_of_longer solidFirst.1.2 proper apart meets read
  · simp only [Bool.and_eq_true, Bool.not_eq_true'] at h
    obtain ⟨⟨properFirst, properSecond⟩, apart⟩ := h
    exact fails_of_opensAllApart solidFirst solidSecond properFirst properSecond apart read

/-! ## Laid-out texts -/

/-- The next lexeme, if there is one, opens as a lexeme of one of the terminals does. -/
def Follows (later : List Piece) (follow : List Terminal) : Prop :=
  ∀ c, opening later = some c → ∃ t ∈ follow, t.opens c = true

variable {pieces later : List Piece} {closing : List Char}

theorem meets_laidOut_iff (spaced : Spaced later) (closed : Gap true closing) :
    Meets (laidOut later closing) follow ↔ Follows later follow := by
  rw [Meets, head?_skipLayout_laidOut spaced closed]
  rfl

/-- In every spaced layout the pattern reads what it derives. -/
def Predictive (pattern : Pattern) (follow : List Terminal) : Prop :=
  ∀ {nodes : List Tree} {pieces later : List Piece} {closing : List Char},
    pattern.Derives nodes → pieces.map Piece.lexeme = nodes.flatMap Tree.lexemes →
      Spaced (pieces ++ later) → Gap true closing → Follows later follow →
        pattern.Reads (laidOut (pieces ++ later) closing) nodes (laidOut later closing)

/-! ## Terminals and sequences -/

theorem predictive_terminal {t : Terminal} (solid : t.isSolid = true)
    (clear : follow.all t.clearsBefore = true) : (terminal t).Predictive follow := by
  intro nodes pieces later closing derived spelled spaced closed follows
  cases derived with
  | @terminal _ lexeme accepted =>
      rw [Terminal.lexemes_leaves solid, List.map_eq_singleton_iff] at spelled
      obtain ⟨piece, rfl, rfl⟩ := spelled
      refine reads_terminal_iff.mpr ⟨piece.lexeme, ?_, rfl⟩
      rw [List.singleton_append] at spaced ⊢
      rw [skipLayout_laidOut_cons spaced]
      refine Terminal.read_laidOut solid accepted spaced closed fun c next => ?_
      obtain ⟨u, member, opens⟩ := follows c next
      exact Terminal.clears_of_clearsBefore (List.all_eq_true.mp clear u member) opens

theorem predictive_sequence (solid : second.isSolid = true)
    (first_reads : first.Predictive (second.followed follow))
    (second_reads : second.Predictive follow) : (sequence first second).Predictive follow := by
  intro nodes pieces later closing derived spelled spaced closed follows
  cases derived with
  | sequence front back =>
      rw [List.flatMap_append] at spelled
      obtain ⟨left, right, rfl, spelledLeft, spelledRight⟩ := List.map_eq_append_iff.mp spelled
      rw [List.append_assoc] at spaced ⊢
      -- from the end: what the second part reads says what follows the first
      have readSecond := second_reads back spelledRight spaced.of_append closed follows
      have meets := (meets_laidOut_iff spaced.of_append.of_append closed).mpr follows
      have next := (meets_laidOut_iff spaced.of_append closed).mp (meets.followed solid readSecond)
      have readFirst := first_reads front spelledLeft spaced closed next
      exact reads_sequence_iff.mpr ⟨_, _, _, readFirst, readSecond, rfl⟩

/-! ## Choices -/

/-- The second alternative is read where the first one fails. -/
theorem predictive_choice (first_reads : first.Predictive follow)
    (second_reads : second.Predictive follow)
    (fails : ∀ {nodes : List Tree} {pieces later : List Piece} {closing : List Char},
      second.Derives nodes → pieces.map Piece.lexeme = nodes.flatMap Tree.lexemes →
        Spaced (pieces ++ later) → Gap true closing → Follows later follow →
          second.Reads (laidOut (pieces ++ later) closing) nodes (laidOut later closing) →
            (first.scan (laidOut (pieces ++ later) closing)).outcome = none) :
    (choice first second).Predictive follow := by
  intro nodes pieces later closing derived spelled spaced closed follows
  rw [reads_choice_iff]
  cases derived with
  | first derived => exact Or.inl (first_reads derived spelled spaced closed follows)
  | second derived =>
      have read := second_reads derived spelled spaced closed follows
      exact Or.inr ⟨fails derived spelled spaced closed follows read, read⟩

/-- No `T` stands right after a date in a spaced text. -/
theorem not_opensWith_mark (derived : (terminal .date).Derives nodes)
    (spelled : pieces.map Piece.lexeme = nodes.flatMap Tree.lexemes)
    (spaced : Spaced (pieces ++ later)) (closed : Gap true closing) :
    opensWith (· == 'T') (laidOut later closing) = false := by
  cases derived with
  | @terminal _ lexeme dated =>
      rw [Terminal.lexemes_leaves rfl, List.map_eq_singleton_iff] at spelled
      obtain ⟨piece, rfl, rfl⟩ := spelled
      have noWord := Spaced.not_opensWith_isWordChar spaced closed (Lexeme.IsTriple.endsWith dated)
      refine Text.opensWith_eq_false_of_imp noWord fun c found => ?_
      rw [beq_iff_eq.mp found]
      decide

/-! ## Options and repetitions -/

theorem predictive_maybe (solid : pattern.isSolid = true) (proper : pattern.nullable = false)
    (apart : opensAllApart pattern.firsts follow = true) (reads : pattern.Predictive follow) :
    (maybe pattern).Predictive follow := by
  intro nodes pieces later closing derived spelled spaced closed follows
  rw [reads_maybe_iff]
  cases derived with
  | skip =>
      rw [List.flatMap_nil, List.map_eq_nil_iff] at spelled
      subst spelled
      have meets := (meets_laidOut_iff spaced closed).mpr follows
      exact Or.inr ⟨meets.outcome_eq_none solid proper apart, rfl, rfl⟩
  | take derived => exact Or.inl (reads derived spelled spaced closed follows)

/-- A repetition reads all rounds, with any limit that the text does not reach. -/
theorem repeated_laidOut (solid : pattern.isSolid = true) (proper : pattern.nullable = false)
    (apart : opensAllApart pattern.firsts follow = true)
    (reads : pattern.Predictive (pattern.firsts ++ follow)) (closed : Gap true closing)
    (follows : Follows later follow) (rounds : List (List Tree))
    (derived : ∀ round ∈ rounds, pattern.Derives round) :
    ∀ {pieces : List Piece} {limit : Nat},
      pieces.map Piece.lexeme = rounds.flatten.flatMap Tree.lexemes →
        Spaced (pieces ++ later) → (laidOut (pieces ++ later) closing).length < limit →
          (Scan.repeated pattern.scan limit (laidOut (pieces ++ later) closing)).outcome
            = some (rounds.flatten, laidOut later closing) := by
  induction rounds with
  | nil =>
      intro pieces limit spelled spaced enough
      rw [List.flatten_nil, List.flatMap_nil, List.map_eq_nil_iff] at spelled
      subst spelled
      obtain ⟨limit, rfl⟩ := Nat.exists_eq_succ_of_ne_zero (Nat.ne_zero_of_lt enough)
      have meets := (meets_laidOut_iff spaced closed).mpr follows
      have stopped := meets.outcome_eq_none solid proper apart
      exact outcome_orElse.mpr (Or.inr ⟨outcome_andThen_eq_none stopped, rfl⟩)
  | cons round rounds ih =>
      intro pieces limit spelled spaced enough
      rw [List.flatten_cons, List.flatMap_append] at spelled
      obtain ⟨left, right, rfl, spelledLeft, spelledRight⟩ := List.map_eq_append_iff.mp spelled
      rw [List.append_assoc] at spaced enough ⊢
      obtain ⟨limit, rfl⟩ := Nat.exists_eq_succ_of_ne_zero (Nat.ne_zero_of_lt enough)
      rw [List.forall_mem_cons] at derived
      -- the later rounds are a repetition again, which says what follows this one
      have whole : (many pattern).Reads (laidOut (right ++ later) closing) rounds.flatten
          (laidOut later closing) :=
        ih derived.2 spelledRight spaced.of_append (Nat.lt_succ_self _)
      have meets := (meets_laidOut_iff spaced.of_append.of_append closed).mpr follows
      have next := (meets_laidOut_iff spaced.of_append closed).mp
        (meets.followed (show (many pattern).isSolid = true from solid) whole)
      have readRound := reads derived.1 spelledLeft spaced closed next
      -- the round is not empty, so less text is left than before
      have shorter : (laidOut (right ++ later) closing).length
          < (laidOut (left ++ (right ++ later)) closing).length := by
        apply spaced.length_laidOut_lt
        rintro rfl
        exact lexemes_ne_nil_of_derives solid proper derived.1 spelledLeft.symm
      exact outcome_orElse.mpr (Or.inl (outcome_andThen.mpr ⟨round, _, rounds.flatten, readRound,
        ih derived.2 spelledRight spaced.of_append (by omega), rfl⟩))

theorem predictive_many (solid : pattern.isSolid = true) (proper : pattern.nullable = false)
    (apart : opensAllApart pattern.firsts follow = true)
    (reads : pattern.Predictive (pattern.firsts ++ follow)) : (many pattern).Predictive follow := by
  intro nodes pieces later closing derived spelled spaced closed follows
  obtain ⟨rounds, derivedRounds, rfl⟩ := derives_many_iff.mp derived
  exact repeated_laidOut solid proper apart reads closed follows rounds derivedRounds spelled
    spaced (Nat.lt_succ_self _)

theorem predictive_node {kind : Kind} (reads : pattern.Predictive follow) :
    (node kind pattern).Predictive follow := by
  intro nodes pieces later closing derived spelled spaced closed follows
  cases derived with
  | node derived =>
      rw [List.flatMap_singleton, Tree.lexemes_inner] at spelled
      exact reads_node_iff.mpr ⟨_, reads derived spelled spaced closed follows, rfl⟩

/-! ## Patterns that predict -/

/-- A pattern that predicts reads what it derives, in every spaced layout. -/
theorem predictive_of_predicts (solid : pattern.isSolid = true)
    (h : pattern.predicts follow = true) : pattern.Predictive follow := by
  induction pattern generalizing follow with
  | terminal t => exact predictive_terminal solid h
  | sequence first second ihFirst ihSecond =>
      rw [isSolid, Bool.and_eq_true] at solid
      rw [predicts, Bool.and_eq_true] at h
      exact predictive_sequence solid.2 (ihFirst solid.1 h.1) (ihSecond solid.2 h.2)
  | choice first second ihFirst ihSecond =>
      rw [isSolid, Bool.and_eq_true] at solid
      simp only [predicts, Bool.and_eq_true] at h
      refine predictive_choice (ihFirst solid.1 h.1.1) (ihSecond solid.2 h.1.2) ?_
      intro nodes pieces later closing derived spelled spaced closed follows read
      have meets := (meets_laidOut_iff spaced.of_append closed).mpr follows
      refine fails_of_yields solid.1 solid.2 h.2 meets ?_ read
      rintro rfl
      exact not_opensWith_mark derived spelled spaced closed
  | maybe pattern ih =>
      rw [isSolid] at solid
      simp only [predicts, Bool.and_eq_true, Bool.not_eq_true'] at h
      exact predictive_maybe solid h.1.2 h.2 (ih solid h.1.1)
  | many pattern ih =>
      rw [isSolid] at solid
      simp only [predicts, Bool.and_eq_true, Bool.not_eq_true'] at h
      exact predictive_many solid h.1.2 h.2 (ih solid h.1.1)
  | node kind pattern ih => exact predictive_node (ih solid h)

end Pattern

end Covenant
