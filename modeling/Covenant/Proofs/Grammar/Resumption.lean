import Covenant.Proofs.Grammar.Prediction

/-!
# Reading again after a change of the text

A run looks further than what it reads, but not far: a word ends before the next character, a
numeral before a character that does not continue it, and an option or a repetition is left where
the next lexeme opens otherwise. So what was read stays read if the text behind it is replaced by
one that opens with the same character, or by one that opens with a line feed.

One lexeme does not stand by itself. A reserved word is read as a name where a foreign word
character follows it, and before a line feed it would be refused. There an underscore has to be put
between the word and the line feed, which makes a name of it. `Resumes` says that a part of a text
can be read again in both ways, with `glue` for the underscore where it is needed. Main statement:
this holds of all that a pattern reads, if the pattern predicts and its terminals halt before what
follows them (`resumes_of_reads`).
-/

set_option autoImplicit false

namespace Covenant

open Lexeme (Gap opensGap isForeign skipLayout)
open Text (opensWith)

/-- The text opens with a line feed. -/
def Text.opensLine (text : List Char) : Bool :=
  opensWith (· == '\n') text

/-- How a text opens is said by its first character. -/
theorem Text.opensWith_congr {accepts : Char → Bool} {text other : List Char}
    (same : other.head? = text.head?) : opensWith accepts other = opensWith accepts text := by
  rw [opensWith, same, opensWith]

/-- A class without the line feed does not open a new line. -/
theorem Text.not_opensWith_of_opensLine {accepts : Char → Bool} {text : List Char}
    (line : opensLine text = true) (other : accepts '\n' = false) :
    opensWith accepts text = false := by
  obtain ⟨c, tail, rfl, found⟩ := exists_cons_of_opensWith line
  rw [opensWith_cons, beq_iff_eq.mp found]
  exact other

/-! ## Where words end -/

namespace Lexeme

variable {text lexeme rest : List Char}

/-- No word character follows a keyword that was read. -/
theorem not_opensWith_isWordChar_of_keyword {words : List String}
    (h : keyword words text = some (lexeme, rest)) : opensWith Text.isWordChar rest = false := by
  unfold keyword at h
  split at h
  · cases h
    exact Text.opensWith_dropWhile Text.isWordChar text
  · cases h

theorem not_opensWith_isIdentifierChar_of_identifier (h : identifier text = some (lexeme, rest)) :
    opensWith Text.isIdentifierChar rest = false := by
  unfold identifier at h
  split at h
  · cases h
  · split at h
    · cases h
    · split at h
      · cases h
        exact Text.opensWith_dropWhile Text.isIdentifierChar _
      · cases h

/-- No word of the vocabulary holds a foreign character. -/
theorem not_mem_reserved_of_foreign {word : List Char} {c : Char} (member : c ∈ word)
    (foreign : isForeign c = true) : String.ofList word ∉ Vocabulary.reserved := by
  intro reserved
  have plain : (Vocabulary.reserved.all fun word => word.toList.all Text.isIdentifierChar)
      = true := by
    decide
  have inside := Terminal.isIdentifierChar_of_mem_words plain reserved c member
  rw [isForeign, inside] at foreign
  simp at foreign

/-- An identifier is read where no identifier character follows it. A reserved word is read where
a foreign character does. -/
theorem identifier_append_of_foreign (h : IsIdentifier lexeme)
    (stop : opensWith Text.isIdentifierChar rest = false)
    (settled : String.ofList lexeme ∈ Vocabulary.reserved → opensWith isForeign rest = true) :
    identifier (lexeme ++ rest) = some (lexeme, rest) := by
  cases foreign : opensWith isForeign rest with
  | false =>
      -- neither an identifier character nor a foreign one: the word ends here
      have free : IsFreeIdentifier lexeme := by
        refine ⟨h, fun reserved => ?_⟩
        rw [settled reserved] at foreign
        cases foreign
      apply identifier_append_of_stop free
      cases rest with
      | nil => rfl
      | cons c rest =>
          rw [Text.opensWith_cons] at stop foreign ⊢
          rw [isForeign, stop] at foreign
          simpa using foreign
  | true =>
      obtain ⟨c, tail, rfl, found⟩ := Text.exists_cons_of_opensWith foreign
      have word : Text.isWordChar c = true := by
        rw [isForeign, Bool.and_eq_true] at found
        exact found.1
      -- the leading word is longer than the identifier and holds the foreign character
      have longer : c ∈ Text.leadingWord (lexeme ++ c :: tail) := by
        rw [Text.leadingWord, List.takeWhile_append_of_pos fun d member =>
          Text.isWordChar_of_isIdentifierChar (h.isIdentifierChar d member)]
        simp [word]
      have free : startsWithWord Vocabulary.reserved (lexeme ++ c :: tail) = false :=
        Bool.eq_false_iff.mpr fun listed =>
          not_mem_reserved_of_foreign longer found (List.contains_iff_mem.mp listed)
      obtain ⟨d, inner, start, inside, rfl⟩ := h
      rw [List.cons_append] at free ⊢
      simp [identifier, free, start, Text.takeWhile_append_of_stop inside stop,
        Text.dropWhile_append_of_stop inside stop]

/-- A gap is closed by a line feed, also after a comment that lacks its own. -/
theorem Gap.append_lineFeed {atEnd : Bool} {gap : List Char} (h : Gap atEnd gap) :
    Gap false (gap ++ ['\n']) := by
  induction h with
  | nil => exact .blank (by decide) .nil
  | blank blank _ ih => exact .blank blank ih
  | @comment body rest absent _ ih =>
      have shape : '/' :: '/' :: (body ++ '\n' :: rest) ++ ['\n']
          = '/' :: '/' :: (body ++ '\n' :: (rest ++ ['\n'])) := by simp
      rw [shape]
      exact .comment absent ih
  | lastComment _ absent => exact .comment absent .nil

end Lexeme

/-! ## Terminals -/

namespace Terminal

open Lexeme

/-- The characters, word ends apart, with which a lexeme of the terminal could go on. A `T` after a
date would make it a date with a time. -/
def continuedBy : Terminal → Char → Bool
  | number, c => continuesNumeral c
  | comparator, c => c == '='
  | date, c => c == 'T'
  | _, _ => false

/-- No lexeme of the second terminal opens with a character that continues one of the first. -/
def haltsBefore : Terminal → Terminal → Bool
  | number, literal text => opensWith (fun c => !continuesNumeral c) text.toList
  | number, comparator => true
  | number, _ => false
  | comparator, next => !next.opens '='
  | date, next => !next.opens 'T'
  | _, _ => true

variable {terminal next : Terminal} {text lexeme rest other : List Char} {c : Char}

theorem not_continuedBy_of_opens (halts : terminal.haltsBefore next = true)
    (h : next.opens c = true) : terminal.continuedBy c = false := by
  unfold haltsBefore at halts
  split at halts
  · next word =>
      obtain ⟨d, tail, same, free⟩ := Text.exists_cons_of_opensWith halts
      rw [opens, same, Text.opensWith_cons, beq_iff_eq] at h
      rw [h, Bool.not_eq_true'] at free
      exact free
  · simp only [opens, opensOneOf, List.any_eq_true] at h
    obtain ⟨word, listed, found⟩ := h
    obtain ⟨d, tail, same, first⟩ := Text.exists_cons_of_opensWith found
    have plain : (Vocabulary.comparators.all fun word =>
        opensWith (fun c => !continuesNumeral c) word.toList) = true := by
      decide
    have free := List.all_eq_true.mp plain word listed
    rw [same, Text.opensWith_cons, beq_iff_eq.mp first, Bool.not_eq_true'] at free
    exact free
  · cases halts
  · rw [continuedBy, beq_eq_false_iff_ne]
    rintro rfl
    rw [h] at halts
    cases halts
  · rw [continuedBy, beq_eq_false_iff_ne]
    rintro rfl
    rw [h] at halts
    cases halts
  · cases terminal with
    | number => simp_all
    | comparator => simp_all
    | date => simp_all
    | _ => rfl

/-- What continues a lexeme is no layout. -/
theorem not_opensGap_of_continuedBy (h : terminal.continuedBy c = true) : opensGap c = false := by
  cases gap : opensGap c with
  | false => rfl
  | true =>
      simp only [opensGap, isBlank, Bool.or_eq_true, beq_iff_eq] at gap
      cases terminal with
      | number | comparator | date =>
          rcases gap with (((rfl | rfl) | rfl) | rfl) | rfl <;> exact absurd h (by decide)
      | _ => cases h

/-- Nothing that follows a terminal continues its lexeme. -/
theorem not_opensWith_continuedBy {follow : List Terminal}
    (halts : follow.all terminal.haltsBefore = true) (meets : Pattern.Meets rest follow) :
    opensWith terminal.continuedBy rest = false := by
  cases continued : opensWith terminal.continuedBy rest with
  | false => rfl
  | true =>
      obtain ⟨c, tail, rfl, found⟩ := Text.exists_cons_of_opensWith continued
      have noGap : opensWith opensGap (c :: tail) = false := not_opensGap_of_continuedBy found
      obtain ⟨next, member, opens⟩ := meets c (by rw [skipLayout_of_not_opensGap noGap]; rfl)
      rw [not_continuedBy_of_opens (List.all_eq_true.mp halts next member) opens] at found
      cases found

/-- A lexeme is read before a line feed. -/
theorem read_append_of_opensLine (solid : terminal.isSolid = true) (h : terminal.Accepts lexeme)
    (line : Text.opensLine rest = true) :
    terminal.read (lexeme ++ rest) = some (lexeme, rest) := by
  have noWord : opensWith Text.isWordChar rest = false :=
    Text.not_opensWith_of_opensLine line (by decide)
  cases terminal with
  | literal expected => exact exactly_eq_some_iff.mpr ⟨h, congrArg (· ++ rest) h⟩
  | identifier => exact identifier_append_of_stop h noWord
  | number => exact number_append_of_stop h (Text.not_opensWith_of_opensLine line (by decide))
  | string => exact quotation_eq_some_iff.mpr ⟨h, rfl⟩
  | datetime => exact datetime_eq_some_iff.mpr ⟨h, rfl⟩
  | date => exact date_eq_some_iff.mpr ⟨h, rfl⟩
  | comparator =>
      exact comparator_append_of_stop h (Text.not_opensWith_of_opensLine line (by decide))
  | clauseType =>
      exact keyword_append_of_stop h (isIdentifierChar_of_mem_words (by decide) h) noWord
  | partyRole =>
      exact keyword_append_of_stop h (isIdentifierChar_of_mem_words (by decide) h) noWord
  | connective =>
      exact keyword_append_of_stop h (isIdentifierChar_of_mem_words (by decide) h) noWord
  | endOfDocument => cases solid

/-- What a terminal read is one of its lexemes, or becomes one by an underscore. -/
theorem exists_accepts_append (h : terminal.read text = some (lexeme, rest)) :
    ∃ glue, terminal.Accepts (lexeme ++ glue) := by
  by_cases name : terminal = identifier
  · subst name
    obtain ⟨c, tail, start, inside, rfl⟩ := (identifier_facts h).1
    refine ⟨['_'], ⟨c, tail ++ ['_'], start, ?_, rfl⟩, ?_⟩
    · intro d member
      rcases List.mem_append.mp member with member | member
      · exact inside d member
      · rw [List.mem_singleton.mp member]
        decide
    · -- no reserved word ends with an underscore
      intro reserved
      have ends : (Vocabulary.reserved.all fun word => word.toList.getLast? != some '_')
          = true := by
        decide
      have other := List.all_eq_true.mp ends _ reserved
      rw [String.toList_ofList, List.getLast?_append] at other
      cases other
  · refine ⟨[], ?_⟩
    rw [List.append_nil]
    exact accepts_of_read h fun same => absurd same name

/-- A lexeme that was read is read again before a text that opens with the same character, if what
could continue it does not follow. -/
theorem read_append_of_head?_eq (solid : terminal.isSolid = true)
    (h : terminal.read (lexeme ++ rest) = some (lexeme, rest)) (same : other.head? = rest.head?)
    (clear : opensWith terminal.continuedBy other = false) :
    terminal.read (lexeme ++ other) = some (lexeme, other) := by
  -- keywords and names look at the character after them, which is the same
  have keywords {words : List String} (read : keyword words (lexeme ++ rest) = some (lexeme, rest))
      (plain : (words.all fun word => word.toList.all Text.isIdentifierChar) = true) :
      keyword words (lexeme ++ other) = some (lexeme, other) := by
    have listed := mem_of_keyword read
    apply keyword_append_of_stop listed (isIdentifierChar_of_mem_words plain listed)
    rw [Text.opensWith_congr same]
    exact not_opensWith_isWordChar_of_keyword read
  cases terminal with
  | literal expected =>
      obtain ⟨rfl, -⟩ := exactly_eq_some_iff.mp h
      exact exactly_eq_some_iff.mpr ⟨rfl, rfl⟩
  | identifier =>
      obtain ⟨named, free⟩ := identifier_facts h
      apply identifier_append_of_foreign named
      · rw [Text.opensWith_congr same]
        exact not_opensWith_isIdentifierChar_of_identifier h
      · intro reserved
        rw [Text.opensWith_congr same]
        cases foreign : opensWith isForeign rest with
        | true => rfl
        | false => exact absurd reserved (free foreign).2
  | number => exact number_append_of_stop (isNumeral_of_number h) clear
  | string => exact quotation_eq_some_iff.mpr ⟨(quotation_eq_some_iff.mp h).1, rfl⟩
  | datetime => exact datetime_eq_some_iff.mpr ⟨(datetime_eq_some_iff.mp h).1, rfl⟩
  | date => exact date_eq_some_iff.mpr ⟨(date_eq_some_iff.mp h).1, rfl⟩
  | comparator =>
      exact comparator_append_of_stop ((Vocabulary.mem_alternatives _ _).mp (mem_of_firstOf h))
        clear
  | clauseType => exact keywords h (by decide)
  | partyRole => exact keywords h (by decide)
  | connective => exact keywords h (by decide)
  | endOfDocument => cases solid

end Terminal

/-! ## Parts of a text that can be read again -/

namespace Pattern

/-- The pattern reads the text up to the rest. -/
def Passes (pattern : Pattern) (text rest : List Char) : Prop :=
  ∃ nodes, pattern.Reads text nodes rest

/-- Every terminal halts before the terminals that may follow it. -/
def halts : Pattern → List Terminal → Bool
  | terminal t, follow => follow.all t.haltsBefore
  | sequence first second, follow => first.halts (second.followed follow) && second.halts follow
  | choice first second, follow => first.halts follow && second.halts follow
  | maybe pattern, follow => pattern.halts follow
  | many pattern, follow => pattern.halts (pattern.firsts ++ follow)
  | node _ pattern, follow => pattern.halts follow

/-- The part `read` of a text, which is followed by `rest`, is passed also before other texts that
open with one of the terminals after layout. -/
structure Resumes (passes : List Char → List Char → Prop) (follow : List Terminal)
    (read rest glue : List Char) : Prop where
  /-- A text that opens with the same character as the rest. -/
  alike : ∀ {other : List Char}, other.head? = rest.head? → Meets other follow →
    passes (read ++ other) other
  /-- A text that opens with a line feed, after the glue. -/
  broken : ∀ {other : List Char}, Text.opensLine other = true → Meets other follow →
    passes (read ++ (glue ++ other)) other
  /-- There is nothing to glue where nothing was read. -/
  fresh : read = [] → glue = []

variable {pattern first second : Pattern} {nodes : List Tree} {follow : List Terminal}
  {text front back mid rest other glue : List Char}

theorem Resumes.imp {passes passes' : List Char → List Char → Prop} {read : List Char}
    (h : Resumes passes follow read rest glue)
    (imp : ∀ {text other}, Meets other follow → passes text other → passes' text other) :
    Resumes passes' follow read rest glue where
  alike same meets := imp meets (h.alike same meets)
  broken line meets := imp meets (h.broken line meets)
  fresh := h.fresh

theorem Resumes.stop {passes : List Char → List Char → Prop}
    (h : ∀ {other}, Meets other follow → passes other other) :
    Resumes passes follow [] rest [] where
  alike _ meets := h meets
  broken _ meets := h meets
  fresh _ := rfl

/-- Two parts that stand side by side. Where the second one is empty, the glue of the first one
stands before the line feed. -/
theorem Resumes.andThen {passes passes' whole : List Char → List Char → Prop}
    {between : List Terminal} {glue' : List Char}
    (h : Resumes passes between front (back ++ rest) glue)
    (h' : Resumes passes' follow back rest glue')
    (next : ∀ {text other}, Meets other follow → passes' text other → Meets text between)
    (join : ∀ {text mid other}, passes text mid → passes' mid other → whole text other) :
    Resumes whole follow (front ++ back) rest (if back = [] then glue else glue') where
  alike := by
    intro other same meets
    have later := h'.alike same meets
    have sameMid : (back ++ other).head? = (back ++ rest).head? := by
      rw [List.head?_append, List.head?_append, same]
    rw [List.append_assoc]
    exact join (h.alike sameMid (next meets later)) later
  broken := by
    intro other line meets
    have later := h'.broken line meets
    rw [List.append_assoc]
    split
    · next none =>
        -- nothing stands between the first part and the line feed
        rw [none, h'.fresh none, List.nil_append, List.nil_append] at later
        rw [none, List.nil_append]
        exact join (h.broken line (next meets later)) later
    · next some =>
        have sameMid : (back ++ (glue' ++ other)).head? = (back ++ rest).head? := by
          rw [List.head?_append_of_ne_nil back some, List.head?_append_of_ne_nil back some]
        exact join (h.alike sameMid (next meets later)) later
  fresh := by
    intro none
    obtain ⟨noneFront, noneBack⟩ := List.append_eq_nil_iff.mp none
    rw [if_pos noneBack]
    exact h.fresh noneFront

/-! ## What patterns pass -/

theorem Passes.sequence (h : first.Passes text mid) (h' : second.Passes mid rest) :
    (Pattern.sequence first second).Passes text rest := by
  obtain ⟨front, readFirst⟩ := h
  obtain ⟨back, readSecond⟩ := h'
  exact ⟨_, reads_sequence_iff.mpr ⟨front, mid, back, readFirst, readSecond, rfl⟩⟩

theorem Passes.choice (h : first.Passes text rest) :
    (Pattern.choice first second).Passes text rest := by
  obtain ⟨nodes, read⟩ := h
  exact ⟨nodes, reads_choice_iff.mpr (Or.inl read)⟩

theorem Passes.maybe (h : pattern.Passes text rest) : (Pattern.maybe pattern).Passes text rest := by
  obtain ⟨nodes, read⟩ := h
  exact ⟨nodes, reads_maybe_iff.mpr (Or.inl read)⟩

theorem Passes.node {kind : Kind} (h : pattern.Passes text rest) :
    (Pattern.node kind pattern).Passes text rest := by
  obtain ⟨nodes, read⟩ := h
  exact ⟨_, reads_node_iff.mpr ⟨nodes, read, rfl⟩⟩

/-- A terminal passes a gap and a text that it reads. -/
theorem passes_terminal {t : Terminal} {gap lexeme : List Char} (solid : t.isSolid = true)
    (skipped : Gap false gap) (read : t.read (lexeme ++ rest) = some (lexeme, rest)) :
    (terminal t).Passes (gap ++ (lexeme ++ rest)) rest := by
  have opens := Terminal.opensWith_opens_of_read solid read
  have nonempty : lexeme ≠ [] := by
    rintro rfl
    cases opens
  have noGap : opensWith opensGap (lexeme ++ rest) = false := by
    rw [Text.opensWith_append nonempty]
    exact Terminal.opensWith_opensGap_of_opens solid opens
  refine ⟨t.leaves lexeme, reads_terminal_iff.mpr ⟨lexeme, ?_, rfl⟩⟩
  rw [Lexeme.skipLayout_gap_append skipped, Lexeme.skipLayout_of_not_opensGap noGap]
  exact read

theorem resumes_terminal {t : Terminal} {lexeme : List Char} (solid : t.isSolid = true)
    (halts : follow.all t.haltsBefore = true)
    (read : t.read (skipLayout text) = some (lexeme, rest)) :
    ∃ front glue, text = front ++ rest ∧ Resumes (terminal t).Passes follow front rest glue := by
  have whole := Terminal.read_append read
  have opens := Terminal.opensWith_opens_of_read solid read
  obtain ⟨gap, split, skipped⟩ := Lexeme.exists_gap_append_skipLayout text
  obtain ⟨c, tail, rfl, -⟩ := Text.exists_cons_of_opensWith opens
  rw [← whole] at split skipped read
  obtain ⟨glue, accepted⟩ := Terminal.exists_accepts_append read
  refine ⟨gap ++ c :: tail, glue, by rw [split, List.append_assoc], ?_, ?_, ?_⟩
  · -- the same first character ends a word, and what follows continues no other lexeme
    intro other same meets
    rw [List.append_assoc]
    exact passes_terminal solid skipped
      (Terminal.read_append_of_head?_eq solid read same
        (Terminal.not_opensWith_continuedBy halts meets))
  · intro other line meets
    rw [List.append_assoc, ← List.append_assoc (c :: tail)]
    exact passes_terminal solid skipped (Terminal.read_append_of_opensLine solid accepted line)
  · intro none
    simp at none

/-- An option is left out where what follows it comes. -/
theorem passes_maybe_of_meets (solid : pattern.isSolid = true) (proper : pattern.nullable = false)
    (apart : opensAllApart pattern.firsts follow = true) (meets : Meets other follow) :
    (maybe pattern).Passes other other :=
  ⟨[], reads_maybe_iff.mpr (Or.inr ⟨meets.outcome_eq_none solid proper apart, rfl, rfl⟩)⟩

/-- A run leaves no more text than there was, and less if the pattern is not nullable. -/
theorem length_le_of_reads (solid : pattern.isSolid = true) (h : pattern.Reads text nodes rest) :
    rest.length ≤ text.length ∧ (pattern.nullable = false → rest.length < text.length) := by
  induction pattern generalizing text nodes rest with
  | terminal t =>
      obtain ⟨lexeme, read, -⟩ := reads_terminal_iff.mp h
      obtain ⟨c, tail, rfl, -⟩ :=
        Text.exists_cons_of_opensWith (Terminal.opensWith_opens_of_read solid read)
      obtain ⟨gap, split, -⟩ := Lexeme.exists_gap_append_skipLayout text
      rw [split, ← Terminal.read_append read]
      simp only [List.length_append, List.length_cons]
      omega
  | sequence first second ihFirst ihSecond =>
      rw [isSolid, Bool.and_eq_true] at solid
      obtain ⟨front, mid, back, readFirst, readSecond, rfl⟩ := reads_sequence_iff.mp h
      have fewerFirst := ihFirst solid.1 readFirst
      have fewerSecond := ihSecond solid.2 readSecond
      refine ⟨fewerSecond.1.trans fewerFirst.1, fun proper => ?_⟩
      rw [nullable, Bool.and_eq_false_iff] at proper
      rcases proper with proper | proper
      · exact fewerSecond.1.trans_lt (fewerFirst.2 proper)
      · exact (fewerSecond.2 proper).trans_le fewerFirst.1
  | choice first second ihFirst ihSecond =>
      rw [isSolid, Bool.and_eq_true] at solid
      rw [nullable, Bool.or_eq_false_iff]
      rcases reads_choice_iff.mp h with read | ⟨-, read⟩
      · exact (ihFirst solid.1 read).imp id fun fewer proper => fewer proper.1
      · exact (ihSecond solid.2 read).imp id fun fewer proper => fewer proper.2
  | maybe pattern ih =>
      refine ⟨?_, fun proper => by cases proper⟩
      rcases reads_maybe_iff.mp h with read | ⟨-, -, rfl⟩
      · exact (ih solid read).1
      · exact le_rfl
  | many pattern ih =>
      refine ⟨?_, fun proper => by cases proper⟩
      have rounds := repeats_of_reads_many h
      clear h
      induction rounds with
      | stop => exact le_rfl
      | round read _ fewer => exact fewer.trans (ih solid read).1
  | node kind pattern ih =>
      obtain ⟨children, read, -⟩ := reads_node_iff.mp h
      exact ih solid read

/-- The limit of a repetition does not matter if the text does not reach it. -/
theorem outcome_repeated_eq (solid : pattern.isSolid = true) (proper : pattern.nullable = false)
    (limit : Nat) :
    ∀ {limit' : Nat} {text : List Char}, text.length < limit → text.length < limit' →
      (Scan.repeated pattern.scan limit text).outcome
        = (Scan.repeated pattern.scan limit' text).outcome := by
  induction limit with
  | zero => intro limit' text enough; omega
  | succ limit ih =>
      intro limit' text enough enough'
      obtain ⟨limit', rfl⟩ := Nat.exists_eq_succ_of_ne_zero (Nat.ne_zero_of_lt enough')
      cases found : (pattern.scan text).outcome with
      | none => simp [Scan.repeated, Scan.andThen, Scan.orElse, found]
      | some result =>
          obtain ⟨front, mid⟩ := result
          -- a round leaves less text, so what is left reaches neither limit
          have fewer := (length_le_of_reads solid found).2 proper
          have same := @ih limit' mid (by omega) (by omega)
          simp only [Scan.repeated, Scan.andThen, Scan.orElse, found, same]
          cases (Scan.repeated pattern.scan limit' mid).outcome <;> rfl

/-- A repetition goes on after a round. -/
theorem passes_many_of_round (solid : pattern.isSolid = true) (proper : pattern.nullable = false)
    (round : pattern.Passes text mid) (later : (many pattern).Passes mid rest) :
    (many pattern).Passes text rest := by
  obtain ⟨front, readRound⟩ := round
  obtain ⟨back, readLater⟩ := later
  have fewer := (length_le_of_reads solid readRound).2 proper
  refine ⟨front ++ back, outcome_orElse.mpr (Or.inl (outcome_andThen.mpr
    ⟨front, mid, back, readRound, ?_, rfl⟩))⟩
  rw [outcome_repeated_eq solid proper text.length fewer (Nat.lt_succ_self _)]
  exact readLater

/-- A repetition stops where what follows it comes. -/
theorem passes_many_of_meets (solid : pattern.isSolid = true) (proper : pattern.nullable = false)
    (apart : opensAllApart pattern.firsts follow = true) (meets : Meets other follow) :
    (many pattern).Passes other other := by
  have stopped := meets.outcome_eq_none solid proper apart
  exact ⟨[], outcome_orElse.mpr (Or.inr ⟨outcome_andThen_eq_none stopped, rfl⟩)⟩

/-- What comes before a pattern that passes. -/
theorem Meets.of_passes (meets : Meets rest follow) (solid : pattern.isSolid = true)
    (h : pattern.Passes text rest) : Meets text (pattern.followed follow) := by
  obtain ⟨nodes, read⟩ := h
  exact meets.followed solid read

/-- The second alternative is passed where it yields. -/
theorem passes_choice_of_second (solidFirst : first.isSolid = true)
    (solidSecond : second.isSolid = true) (yields : first.yields second follow = true)
    (meets : Meets rest follow)
    (noMark : second = terminal .date → opensWith (· == 'T') rest = false)
    (h : second.Passes text rest) : (choice first second).Passes text rest := by
  obtain ⟨nodes, read⟩ := h
  have failed := fails_of_yields solidFirst solidSecond yields meets noMark read
  exact ⟨nodes, reads_choice_iff.mpr (Or.inr ⟨failed, read⟩)⟩

/-! ## Patterns that predict and halt -/

/-- What a pattern reads can be read again. -/
theorem resumes_of_reads (solid : pattern.isSolid = true)
    (predicts : pattern.predicts follow = true) (halts : pattern.halts follow = true)
    (h : pattern.Reads text nodes rest) :
    ∃ front glue, text = front ++ rest ∧ Resumes pattern.Passes follow front rest glue := by
  induction pattern generalizing follow text nodes rest with
  | terminal t =>
      obtain ⟨lexeme, read, -⟩ := reads_terminal_iff.mp h
      exact resumes_terminal solid halts read
  | sequence first second ihFirst ihSecond =>
      rw [isSolid, Bool.and_eq_true] at solid
      rw [Pattern.predicts, Bool.and_eq_true] at predicts
      rw [Pattern.halts, Bool.and_eq_true] at halts
      obtain ⟨_, mid, _, readFirst, readSecond, -⟩ := reads_sequence_iff.mp h
      -- from the end, since the first part is followed by what the second one reads
      obtain ⟨back, glue', rfl, resumesSecond⟩ :=
        ihSecond solid.2 predicts.2 halts.2 readSecond
      obtain ⟨front, glue, rfl, resumesFirst⟩ := ihFirst solid.1 predicts.1 halts.1 readFirst
      refine ⟨front ++ back, _, (List.append_assoc _ _ _).symm,
        resumesFirst.andThen resumesSecond ?_ Passes.sequence⟩
      exact fun meets => meets.of_passes solid.2
  | choice first second ihFirst ihSecond =>
      rw [isSolid, Bool.and_eq_true] at solid
      simp only [Pattern.predicts, Bool.and_eq_true] at predicts
      rw [Pattern.halts, Bool.and_eq_true] at halts
      rcases reads_choice_iff.mp h with read | ⟨-, read⟩
      · obtain ⟨front, glue, split, resumes⟩ := ihFirst solid.1 predicts.1.1 halts.1 read
        exact ⟨front, glue, split, resumes.imp fun _ => Passes.choice⟩
      · obtain ⟨front, glue, split, resumes⟩ := ihSecond solid.2 predicts.1.2 halts.2 read
        refine ⟨front, glue, split, resumes.imp fun meets =>
          passes_choice_of_second solid.1 solid.2 predicts.2 meets ?_⟩
        rintro rfl
        have clear : follow.all Terminal.date.haltsBefore = true := halts.2
        exact Terminal.not_opensWith_continuedBy clear meets
  | maybe pattern ih =>
      rw [isSolid] at solid
      simp only [Pattern.predicts, Bool.and_eq_true, Bool.not_eq_true'] at predicts
      rcases reads_maybe_iff.mp h with read | ⟨-, -, rfl⟩
      · obtain ⟨front, glue, split, resumes⟩ := ih solid predicts.1.1 halts read
        exact ⟨front, glue, split, resumes.imp fun _ => Passes.maybe⟩
      · refine ⟨[], [], rfl, .stop fun meets => ?_⟩
        exact passes_maybe_of_meets solid predicts.1.2 predicts.2 meets
  | many pattern ih =>
      rw [isSolid] at solid
      simp only [Pattern.predicts, Bool.and_eq_true, Bool.not_eq_true'] at predicts
      obtain ⟨⟨predictsRound, proper⟩, apart⟩ := predicts
      have rounds := repeats_of_reads_many h
      clear h
      -- round by round, from the last one; after each come further rounds or what follows
      induction rounds with
      | stop =>
          exact ⟨[], [], rfl, .stop fun meets => passes_many_of_meets solid proper apart meets⟩
      | round read _ later =>
          obtain ⟨back, glue', rfl, resumesLater⟩ := later
          obtain ⟨front, glue, rfl, resumesRound⟩ := ih solid predictsRound halts read
          refine ⟨front ++ back, _, (List.append_assoc _ _ _).symm,
            resumesRound.andThen resumesLater ?_ (passes_many_of_round solid proper)⟩
          exact fun meets => meets.of_passes (show (many pattern).isSolid = true from solid)
  | node kind pattern ih =>
      obtain ⟨_, read, -⟩ := reads_node_iff.mp h
      obtain ⟨front, glue, split, resumes⟩ := ih solid predicts halts read
      exact ⟨front, glue, split, resumes.imp fun _ => Passes.node⟩

end Pattern

end Covenant
