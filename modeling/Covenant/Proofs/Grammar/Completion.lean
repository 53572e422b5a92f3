import Covenant.Proofs.Grammar.Resumption

/-!
# Completing a text where a terminal was missed

Where a run misses a terminal, the text before that place can be completed: a line feed and a
lexeme of the terminal are put there, and after it a shortest text for all that the pattern still
asks for. What was read before is read again there, since it resumes. The statement is about every
terminal that the run recorded (`completes_of_missed`), those of alternatives that it gave up
included, because with the missing lexeme the alternative would have gone on.
-/

set_option autoImplicit false

namespace Covenant

open Lexeme (Gap skipLayout)
open Text (opensWith opensLine)

theorem Text.opensLine_append {text : List Char} (h : opensLine text = true) (rest : List Char) :
    opensLine (text ++ rest) = true := by
  obtain ⟨c, tail, rfl, found⟩ := exists_cons_of_opensWith h
  exact found

/-! ## Shortest texts -/

namespace Terminal

/-- A lexeme of the terminal. -/
def sample : Terminal → List Char
  | literal text => text.toList
  | identifier => "x".toList
  | number => "0".toList
  | string => "\"\"".toList
  | datetime => "2000-01-01 00:00:00".toList
  | date => "2000-01-01".toList
  | comparator => "<".toList
  | clauseType => "right".toList
  | partyRole => "process".toList
  | connective => "and".toList
  | endOfDocument => []

theorem read_sample (terminal : Terminal) :
    terminal.read terminal.sample = some (terminal.sample, []) := by
  cases terminal with
  | literal text => exact Lexeme.exactly_eq_some_iff.mpr ⟨rfl, (List.append_nil _).symm⟩
  | _ => decide

theorem accepts_sample (terminal : Terminal) : terminal.Accepts terminal.sample :=
  accepts_of_read terminal.read_sample fun _ => rfl

end Terminal

namespace Pattern

/-- A text that the pattern reads, with each lexeme on a line of its own. Options and repetitions
are left out. -/
def sample : Pattern → List Char
  | terminal t => '\n' :: t.sample
  | sequence first second => first.sample ++ second.sample
  | choice first _ => first.sample
  | maybe _ => []
  | many _ => []
  | node _ pattern => pattern.sample

variable {pattern first second : Pattern} {follow between : List Terminal}
  {text front back used more rest other glue : List Char} {attempt : Attempt}

theorem opensLine_sample_append (pattern : Pattern) (line : opensLine other = true) :
    opensLine (pattern.sample ++ other) = true := by
  induction pattern generalizing other with
  | terminal t => rfl
  | sequence first second ihFirst ihSecond =>
      rw [sample, List.append_assoc]
      exact ihFirst (ihSecond line)
  | choice first second ih => exact ih line
  | maybe pattern => exact line
  | many pattern => exact line
  | node kind pattern ih => exact ih line

theorem gap_lineFeed : Gap false ['\n'] :=
  .blank (by decide) .nil

/-- A pattern that predicts passes its sample before a new line. -/
theorem passes_sample (solid : pattern.isSolid = true) (predicts : pattern.predicts follow = true)
    (line : opensLine other = true) (meets : Meets other follow) :
    pattern.Passes (pattern.sample ++ other) other := by
  induction pattern generalizing follow other with
  | terminal t =>
      exact passes_terminal solid gap_lineFeed
        (Terminal.read_append_of_opensLine solid t.accepts_sample line)
  | sequence first second ihFirst ihSecond =>
      rw [isSolid, Bool.and_eq_true] at solid
      rw [Pattern.predicts, Bool.and_eq_true] at predicts
      have later := ihSecond solid.2 predicts.2 line meets
      have earlier := ihFirst solid.1 predicts.1 (opensLine_sample_append second line)
        (meets.of_passes solid.2 later)
      rw [sample, List.append_assoc]
      exact earlier.sequence later
  | choice first second ih =>
      rw [isSolid, Bool.and_eq_true] at solid
      simp only [Pattern.predicts, Bool.and_eq_true] at predicts
      exact (ih solid.1 predicts.1.1 line meets).choice
  | maybe pattern =>
      rw [isSolid] at solid
      simp only [Pattern.predicts, Bool.and_eq_true, Bool.not_eq_true'] at predicts
      exact passes_maybe_of_meets solid predicts.1.2 predicts.2 meets
  | many pattern =>
      rw [isSolid] at solid
      simp only [Pattern.predicts, Bool.and_eq_true, Bool.not_eq_true'] at predicts
      exact passes_many_of_meets solid predicts.1.2 predicts.2 meets
  | node kind pattern ih => exact (ih solid predicts line meets).node

/-! ## Completions -/

/-- The part `used` of a text is passed if `more` comes after it, and then a new line on which one
of the terminals stands. -/
structure Completes (passes : List Char → List Char → Prop) (follow : List Terminal)
    (used more : List Char) : Prop where
  ends : ∀ {other : List Char}, opensLine other = true → Meets other follow →
    passes (used ++ (more ++ other)) other
  /-- Without a used part the completion opens with a new line. -/
  line : used = [] → opensLine more = true

theorem Completes.imp {passes passes' : List Char → List Char → Prop}
    (h : Completes passes follow used more)
    (imp : ∀ {text other}, opensLine other = true → Meets other follow → passes text other →
      passes' text other) : Completes passes' follow used more where
  ends line meets := imp line meets (h.ends line meets)
  line := h.line

/-- A part that was read and a completed one after it. Where nothing of the second one was used,
the glue of the first one stands before the new line. -/
theorem Resumes.completes {passes passes' whole : List Char → List Char → Prop}
    (h : Resumes passes between front (used ++ rest) glue)
    (h' : Completes passes' follow used more)
    (next : ∀ {text other}, Meets other follow → passes' text other → Meets text between)
    (join : ∀ {text mid other}, passes text mid → passes' mid other → whole text other) :
    Completes whole follow (front ++ used) (if used = [] then glue ++ more else more) where
  ends := by
    intro other line meets
    have later := h'.ends line meets
    rw [List.append_assoc]
    split
    · next none =>
        -- the missing lexeme stands right after the first part, on a new line
        rw [none, List.nil_append] at later
        rw [none, List.nil_append, List.append_assoc]
        have opens := Text.opensLine_append (h'.line none) other
        exact join (h.broken opens (next meets later)) later
    · next some =>
        have same : (used ++ (more ++ other)).head? = (used ++ rest).head? := by
          rw [List.head?_append_of_ne_nil used some, List.head?_append_of_ne_nil used some]
        exact join (h.alike same (next meets later)) later
  line := by
    intro none
    obtain ⟨noneFront, noneUsed⟩ := List.append_eq_nil_iff.mp none
    rw [if_pos noneUsed, h.fresh noneFront, List.nil_append]
    exact h'.line noneUsed

/-- A completed part and a text after it that is passed on a new line. -/
theorem Completes.andThen {passes passes' whole : List Char → List Char → Prop}
    (h : Completes passes between used more)
    (later : ∀ {other}, opensLine other = true → Meets other follow → passes' (back ++ other) other)
    (opens : ∀ {other}, opensLine other = true → opensLine (back ++ other) = true)
    (next : ∀ {text other}, Meets other follow → passes' text other → Meets text between)
    (join : ∀ {text mid other}, passes text mid → passes' mid other → whole text other) :
    Completes whole follow used (more ++ back) where
  ends := by
    intro other line meets
    have passed := later line meets
    rw [List.append_assoc]
    exact join (h.ends (opens line) (next meets passed)) passed
  line none := Text.opensLine_append (h.line none) back

/-! ## Terminals that were missed -/

theorem rest_of_mem_missed_terminal {t : Terminal}
    (h : attempt ∈ ((terminal t).scan text).missed) : attempt.rest = skipLayout text := by
  unfold scan Scan.ofTerminal at h
  cases read : t.read (skipLayout text) with
  | none =>
      simp only [read, List.mem_singleton] at h
      rw [h]
  | some cut => simp [read] at h

theorem mem_missed_andThen {scan : Scan} {next : List Char → Scan}
    (h : attempt ∈ (scan.andThen next).missed) :
    attempt ∈ scan.missed ∨
      ∃ nodes rest, scan.outcome = some (nodes, rest) ∧ attempt ∈ (next rest).missed := by
  unfold Scan.andThen at h
  split at h
  · exact Or.inl h
  · next nodes rest found =>
      rcases List.mem_append.mp h with earlier | later
      · exact Or.inl earlier
      · exact Or.inr ⟨nodes, rest, found, later⟩

/-- What a scan missed is on record also if another one comes after it. -/
theorem mem_missed_andThen_of_mem {scan : Scan} {next : List Char → Scan}
    (h : attempt ∈ scan.missed) : attempt ∈ (scan.andThen next).missed := by
  unfold Scan.andThen
  split
  · exact h
  · exact List.mem_append_left _ h

theorem mem_missed_orElse {scan : Scan} {other : Unit → Scan}
    (h : attempt ∈ (scan.orElse other).missed) :
    attempt ∈ scan.missed ∨ attempt ∈ (other ()).missed := by
  unfold Scan.orElse at h
  split at h
  · exact Or.inl h
  · exact List.mem_append.mp h

/-- The gap before a missed terminal is closed by a line feed, and a lexeme put after it. -/
theorem completes_terminal {t : Terminal} (solid : t.isSolid = true) :
    ∃ used more, text = used ++ skipLayout text ∧
      Completes (terminal t).Passes follow used more := by
  obtain ⟨gap, split, skipped⟩ := Lexeme.exists_gap_append_skipLayout text
  refine ⟨gap, '\n' :: t.sample, split, ?_, fun _ => rfl⟩
  intro other line meets
  have read := Terminal.read_append_of_opensLine solid t.accepts_sample line
  have passed := passes_terminal solid skipped.append_lineFeed read
  rw [List.append_assoc, List.singleton_append] at passed
  exact passed

/-- A terminal missed in a repetition was missed in one of its rounds. -/
theorem completes_of_missed_repeated (solid : pattern.isSolid = true)
    (predicts : (many pattern).predicts follow = true) (halts : (many pattern).halts follow = true)
    (inRound : ∀ {text}, attempt ∈ (pattern.scan text).missed →
      ∃ used more, text = used ++ attempt.rest ∧
        Completes pattern.Passes (pattern.firsts ++ follow) used more) (limit : Nat) :
    ∀ {text}, attempt ∈ (Scan.repeated pattern.scan limit text).missed →
      ∃ used more, text = used ++ attempt.rest ∧
        Completes (many pattern).Passes follow used more := by
  simp only [Pattern.predicts, Bool.and_eq_true, Bool.not_eq_true'] at predicts
  obtain ⟨⟨predictsRound, proper⟩, apart⟩ := predicts
  have next : ∀ {text other}, Meets other follow → (many pattern).Passes text other →
      Meets text (pattern.firsts ++ follow) :=
    fun meets => meets.of_passes (show (many pattern).isSolid = true from solid)
  have join : ∀ {text mid other}, pattern.Passes text mid → (many pattern).Passes mid other →
      (many pattern).Passes text other :=
    passes_many_of_round solid proper
  induction limit with
  | zero => intro text missed; cases missed
  | succ limit ih =>
      intro text missed
      rcases mem_missed_orElse missed with missed | missed
      · rcases mem_missed_andThen missed with missed | ⟨nodes, mid, read, missed⟩
        · -- the round that missed it is the last one of the completed text
          obtain ⟨used, more, split, completes⟩ := inRound missed
          refine ⟨used, more ++ [], split, completes.andThen ?_ id next join⟩
          exact fun _ meets => passes_many_of_meets solid proper apart meets
        · obtain ⟨used, more, rfl, completes⟩ := ih missed
          obtain ⟨front, glue, rfl, resumes⟩ := resumes_of_reads solid predictsRound halts read
          exact ⟨front ++ used, _, (List.append_assoc _ _ _).symm,
            resumes.completes completes next join⟩
      · cases missed

/-- Where a pattern misses a terminal, the text can be completed. -/
theorem completes_of_missed (solid : pattern.isSolid = true)
    (predicts : pattern.predicts follow = true) (halts : pattern.halts follow = true)
    (h : attempt ∈ (pattern.scan text).missed) :
    ∃ used more, text = used ++ attempt.rest ∧ Completes pattern.Passes follow used more := by
  induction pattern generalizing follow text with
  | terminal t =>
      rw [rest_of_mem_missed_terminal h]
      exact completes_terminal solid
  | sequence first second ihFirst ihSecond =>
      rw [isSolid, Bool.and_eq_true] at solid
      rw [Pattern.predicts, Bool.and_eq_true] at predicts
      rw [Pattern.halts, Bool.and_eq_true] at halts
      have next : ∀ {text other}, Meets other follow → second.Passes text other →
          Meets text (second.followed follow) := fun meets => meets.of_passes solid.2
      rcases mem_missed_andThen h with missed | ⟨nodes, mid, read, missed⟩
      · -- the first part is completed, and the second one comes after it from nothing
        obtain ⟨used, more, split, completes⟩ := ihFirst solid.1 predicts.1 halts.1 missed
        exact ⟨used, more ++ second.sample, split,
          completes.andThen (passes_sample solid.2 predicts.2) (opensLine_sample_append second)
            next Passes.sequence⟩
      · -- the first part was read and is read again before the completed second one
        obtain ⟨used, more, rfl, completes⟩ := ihSecond solid.2 predicts.2 halts.2 missed
        obtain ⟨front, glue, rfl, resumes⟩ := resumes_of_reads solid.1 predicts.1 halts.1 read
        exact ⟨front ++ used, _, (List.append_assoc _ _ _).symm,
          resumes.completes completes next Passes.sequence⟩
  | choice first second ihFirst ihSecond =>
      rw [isSolid, Bool.and_eq_true] at solid
      simp only [Pattern.predicts, Bool.and_eq_true] at predicts
      rw [Pattern.halts, Bool.and_eq_true] at halts
      rcases mem_missed_orElse h with missed | missed
      · obtain ⟨used, more, split, completes⟩ := ihFirst solid.1 predicts.1.1 halts.1 missed
        exact ⟨used, more, split, completes.imp fun _ _ => Passes.choice⟩
      · -- a new line does not let the first alternative go on after the second one
        obtain ⟨used, more, split, completes⟩ := ihSecond solid.2 predicts.1.2 halts.2 missed
        refine ⟨used, more, split, completes.imp fun line meets =>
          passes_choice_of_second solid.1 solid.2 predicts.2 meets fun _ => ?_⟩
        exact Text.not_opensWith_of_opensLine line (by decide)
  | maybe pattern ih =>
      simp only [Pattern.predicts, Bool.and_eq_true] at predicts
      rcases mem_missed_orElse h with missed | missed
      · obtain ⟨used, more, split, completes⟩ := ih solid predicts.1.1 halts missed
        exact ⟨used, more, split, completes.imp fun _ _ => Passes.maybe⟩
      · cases missed
  | many pattern ih =>
      rw [isSolid] at solid
      have predictsRound : pattern.predicts (pattern.firsts ++ follow) = true := by
        simp only [Pattern.predicts, Bool.and_eq_true] at predicts
        exact predicts.1.1
      exact completes_of_missed_repeated solid predicts halts (ih solid predictsRound halts) _ h
  | node kind pattern ih =>
      obtain ⟨used, more, split, completes⟩ := ih solid predicts halts h
      exact ⟨used, more, split, completes.imp fun _ _ => Passes.node⟩

end Pattern

end Covenant
