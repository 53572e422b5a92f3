import Covenant.Proofs.Compile
import Mathlib.Data.List.Nodup

/-!
# Names of terms

The name of a term is a bare concatenation: the category of its clause, the name that the clause
declares, the tag of the term, and its index. The declared name may hold anything that an
identifier may, also text that looks like a tag and an index, so it cannot be found by searching.
It is what remains between the ends. In each of the three renderings the index is the digits at the
end, no tag as written is the end of another (`SuffixFree`), and no category as written is the
beginning of another (`PrefixFree`); so the parts can be read back (`Rendering.write_inj`).

Main statement: over all terms of a contract two names are the same exactly if category, declared
name, tag and index are, where the two cased renderings compare declared names up to the case of
their first character (`term_name_eq_iff`).
-/

set_option autoImplicit false

namespace Covenant

/-! ## Words at the ends of a text -/

/-- No word of the list, as written, begins another. -/
def PrefixFree (words : List String) (written : String → String) : Prop :=
  ∀ word ∈ words, ∀ other ∈ words, (written word).toList <+: (written other).toList → word = other

/-- No word of the list, as written, ends another. -/
def SuffixFree (words : List String) (written : String → String) : Prop :=
  ∀ word ∈ words, ∀ other ∈ words, (written word).toList <:+ (written other).toList → word = other

instance (words : List String) (written : String → String) :
    Decidable (PrefixFree words written) :=
  inferInstanceAs (Decidable (∀ word ∈ words, ∀ other ∈ words, _ → _))

instance (words : List String) (written : String → String) :
    Decidable (SuffixFree words written) :=
  inferInstanceAs (Decidable (∀ word ∈ words, ∀ other ∈ words, _ → _))

section Ends

variable {words : List String} {written : String → String} {word other rest more : String}

theorem PrefixFree.append_inj (free : PrefixFree words written) (listed : word ∈ words)
    (listed' : other ∈ words) :
    written word ++ rest = written other ++ more ↔ word = other ∧ rest = more := by
  constructor
  · intro same
    have lists := congrArg String.toList same
    rw [String.toList_append, String.toList_append] at lists
    have first : (written word).toList <+: (written other).toList ++ more.toList :=
      ⟨rest.toList, lists⟩
    -- of two beginnings of one text the shorter begins the longer
    obtain rfl : word = other := by
      rcases List.prefix_or_prefix_of_prefix first ⟨more.toList, rfl⟩ with begins | begins
      · exact free word listed other listed' begins
      · exact (free other listed' word listed begins).symm
    exact ⟨rfl, (String.append_right_inj _).mp same⟩
  · rintro ⟨rfl, rfl⟩
    rfl

theorem SuffixFree.append_inj (free : SuffixFree words written) (listed : word ∈ words)
    (listed' : other ∈ words) :
    rest ++ written word = more ++ written other ↔ rest = more ∧ word = other := by
  constructor
  · intro same
    have lists := congrArg String.toList same
    rw [String.toList_append, String.toList_append] at lists
    have last : (written word).toList <:+ more.toList ++ (written other).toList :=
      ⟨rest.toList, lists⟩
    obtain rfl : word = other := by
      rcases List.suffix_or_suffix_of_suffix last ⟨more.toList, rfl⟩ with ends | ends
      · exact free word listed other listed' ends
      · exact (free other listed' word listed ends).symm
    exact ⟨(String.append_left_inj _).mp same, rfl⟩
  · rintro ⟨rfl, rfl⟩
    rfl

end Ends

/-- Numbers at the end of two texts are told from what stands before them, if no digit does. -/
theorem append_toString_inj {front back : String} {i j : Nat}
    (frontEnds : Text.endsWith (fun c => !c.isDigit) front.toList = true)
    (backEnds : Text.endsWith (fun c => !c.isDigit) back.toList = true) :
    front ++ toString i = back ++ toString j ↔ front = back ∧ i = j := by
  have inside (n : Nat) : ∀ c ∈ (Nat.toDigits 10 n).reverse, c.isDigit = true := by
    intro c member
    exact Nat.isDigit_of_mem_toDigits (by decide) (by decide) (List.mem_reverse.mp member)
  have stop {text : String} (ends : Text.endsWith (fun c => !c.isDigit) text.toList = true) :
      Text.opensWith Char.isDigit text.toList.reverse = false := by
    rw [← List.reverse_reverse text.toList] at ends
    cases found : text.toList.reverse with
    | nil => rfl
    | cons c tail =>
        rw [found, Text.endsWith, List.getLast?_reverse] at ends
        simpa using ends
  constructor
  · intro same
    -- read from the end, the digits are the longest run of digits
    have lists := congrArg (fun text => text.toList.reverse.takeWhile Char.isDigit) same
    simp only [Nat.toString_eq_ofList_toDigits, String.toList_append, String.toList_ofList,
      List.reverse_append, Text.takeWhile_append_of_stop (inside i) (stop frontEnds),
      Text.takeWhile_append_of_stop (inside j) (stop backEnds), List.reverse_inj] at lists
    obtain rfl := toDigits_inj.mp lists
    exact ⟨(String.append_left_inj _).mp same, rfl⟩
  · rintro ⟨rfl, rfl⟩
    rfl

/-! ## Renderings -/

/-- The tags of terms. -/
def Vocabulary.tags : List String :=
  [timeoutTag, messageContentTag]

/-- How a rendering writes the parts of a term's name. The index is written in decimal. -/
structure Rendering where
  category : String → String
  title : String → String
  tag : String → String

namespace Rendering

/-- The name of a term in a rendering. -/
def write (rendering : Rendering) (category title tag : String) (index : Nat) : String :=
  rendering.category category ++ rendering.title title ++ rendering.tag tag ++ toString index

/-- Parts joined by underscores. -/
def snake : Rendering where
  category := fun word => word ++ "_"
  title := id
  tag := fun word => "_" ++ word ++ "_"

/-- Parts joined by casing, the category in lower case. -/
def camel : Rendering where
  category := Text.lowerAll
  title := Text.upperFirst
  tag := Text.upperFirst

/-- Parts joined by casing, the category capitalized. -/
def pascal : Rendering where
  category := Text.capitalize
  title := Text.upperFirst
  tag := Text.upperFirst

/-- The parts of names in the rendering can be told apart. -/
structure Readable (rendering : Rendering) : Prop where
  category : PrefixFree Vocabulary.categories rendering.category
  tag : SuffixFree Vocabulary.tags rendering.tag
  stop : ∀ tag ∈ Vocabulary.tags,
    Text.endsWith (fun c => !c.isDigit) (rendering.tag tag).toList = true

theorem readable_snake : snake.Readable := ⟨by decide, by decide, by decide⟩

theorem readable_camel : camel.Readable := ⟨by decide, by decide, by decide⟩

theorem readable_pascal : pascal.Readable := ⟨by decide, by decide, by decide⟩

/-- From a name its parts are read back, the declared name as far as it is written. -/
theorem write_inj {rendering : Rendering} (readable : rendering.Readable)
    {category category' title title' tag tag' : String} {i j : Nat}
    (listed : category ∈ Vocabulary.categories) (listed' : category' ∈ Vocabulary.categories)
    (tagged : tag ∈ Vocabulary.tags) (tagged' : tag' ∈ Vocabulary.tags) :
    rendering.write category title tag i = rendering.write category' title' tag' j ↔
      category = category' ∧ rendering.title title = rendering.title title' ∧ tag = tag' ∧
        i = j := by
  have ends {word : String} (tagged : word ∈ Vocabulary.tags) (front : String) :
      Text.endsWith (fun c => !c.isDigit) (front ++ rendering.tag word).toList = true := by
    have stop := readable.stop word tagged
    have proper : (rendering.tag word).toList ≠ [] := by
      intro empty
      rw [empty] at stop
      cases stop
    rw [String.toList_append, Text.endsWith_append proper]
    exact stop
  -- the index is cut off at the end, then the tag; the category is cut off at the beginning
  rw [write, write, append_toString_inj (ends tagged _) (ends tagged' _),
    readable.tag.append_inj tagged tagged', readable.category.append_inj listed listed']
  tauto

end Rendering

/-! ## Names of terms in their renderings -/

/-- The tag of a term. -/
def Term.tag : Term → String
  | timeout _ _ => Vocabulary.timeoutTag
  | messageContent _ _ _ _ => Vocabulary.messageContentTag

theorem Term.tag_mem (term : Term) : term.tag ∈ Vocabulary.tags := by
  cases term <;> simp [tag, Vocabulary.tags]

theorem TermSummary.name_term (summary : TermSummary) (clause : Name) (index : Nat) :
    (summary.term clause index).name
      = clause.extend [.word (summary.term clause index).tag, .index index] := by
  cases summary <;> rfl

theorem Name.snake_extend (category title tag : String) (index : Nat) :
    ((ofClause category title).extend [.word tag, .index index]).snake
      = Rendering.snake.write category title tag index := by
  show underscored _ _ = _
  simp only [underscored_cons, underscored_nil, ofClause, Part.text, Rendering.write,
    Rendering.snake, id, String.append_assoc]
  rfl

theorem Name.cased_extend (tag : String) (index : Nat) :
    cased [.word tag, .index index] = Text.upperFirst tag ++ toString index := by
  have number : Text.upperFirst (Part.index index).text = toString index :=
    Text.upperFirst_toString index
  rw [cased, List.map_cons, List.map_singleton, number, ← String.toList_inj]
  simp [Part.text]

theorem Name.camel_extend (category title tag : String) (index : Nat) :
    ((ofClause category title).extend [.word tag, .index index]).camel
      = Rendering.camel.write category title tag index := by
  show _ ++ cased _ = _
  rw [cased_extend, ← String.append_assoc]
  rfl

theorem Name.pascal_extend (category title tag : String) (index : Nat) :
    ((ofClause category title).extend [.word tag, .index index]).pascal
      = Rendering.pascal.write category title tag index := by
  show _ ++ cased _ = _
  rw [cased_extend, ← String.append_assoc]
  rfl

/-- Texts that differ in the case of their first character at most. -/
def Text.SameButFirstCase (text other : String) : Prop :=
  ∃ c d tail, text.toList = c :: tail ∧ other.toList = d :: tail ∧ c.toLower = d.toLower

theorem Text.toNat_lt_of_isIdentifierStart {c : Char} (h : isIdentifierStart c = true) :
    c.toNat < 0x80 := by
  simp only [isIdentifierStart, Bool.or_eq_true, beq_iff_eq] at h
  rcases h with rfl | alpha
  · decide
  · exact toNat_lt_of_isAlphanum (by simp [Char.isAlphanum, alpha])

theorem Text.toLower_toUpper {c : Char} (ascii : c.toNat < 0x80) : c.toUpper.toLower = c.toLower :=
  of_ascii (fun c => c.toUpper.toLower = c.toLower) (by decide +kernel) ascii

theorem Text.toUpper_toLower {c : Char} (ascii : c.toNat < 0x80) : c.toLower.toUpper = c.toUpper :=
  of_ascii (fun c => c.toLower.toUpper = c.toUpper) (by decide +kernel) ascii

/-- Both ways of casing identify the two cases of a letter and nothing else. -/
theorem Text.toUpper_eq_iff {c d : Char} (ascii : c.toNat < 0x80) (ascii' : d.toNat < 0x80) :
    c.toUpper = d.toUpper ↔ c.toLower = d.toLower := by
  constructor
  · intro upper
    rw [← toLower_toUpper ascii, upper, toLower_toUpper ascii']
  · intro lower
    rw [← toUpper_toLower ascii, lower, toUpper_toLower ascii']

/-- Identifiers are written alike with a capital exactly if they differ in the case of their first
character at most. -/
theorem Text.upperFirst_eq_iff {text other : String} (h : Lexeme.IsIdentifier text.toList)
    (h' : Lexeme.IsIdentifier other.toList) :
    upperFirst text = upperFirst other ↔ SameButFirstCase text other := by
  obtain ⟨c, tail, start, -, same⟩ := h
  obtain ⟨d, tail', start', -, same'⟩ := h'
  have cases_iff := toUpper_eq_iff (toNat_lt_of_isIdentifierStart start)
    (toNat_lt_of_isIdentifierStart start')
  rw [upperFirst, upperFirst, SameButFirstCase, same, same']
  simp only [upper_of_ascii (toNat_lt_of_isIdentifierStart start),
    upper_of_ascii (toNat_lt_of_isIdentifierStart start'), String.ofList_inj,
    List.singleton_append, List.cons.injEq, cases_iff]
  constructor
  · rintro ⟨lower, rfl⟩
    exact ⟨c, d, tail, ⟨rfl, rfl⟩, ⟨rfl, rfl⟩, lower⟩
  · rintro ⟨_, _, _, ⟨rfl, rfl⟩, ⟨rfl, rfl⟩, lower⟩
    exact ⟨lower, rfl⟩

/-! ## Names in a contract -/

/-- The names that the clauses of a contract declare, in document order. -/
def Tree.localNames (contract : Tree) : List String :=
  contract.clauseNodes.map (textAt 1)

/-- A term with its place: the clause, the name that the clause declares, and the index. -/
structure TermSite where
  clause : Clause
  title : String
  index : Nat
  term : Term

namespace TermSite

/-- The place is one of the contract of a tree. -/
structure Stands (tree : Tree) (contract : Contract) (site : TermSite) : Prop where
  clause : (site.clause, site.title) ∈ contract.clauses.zip tree.localNames
  term : site.clause.terms[site.index]? = some site.term

/-- The places agree in category, tag and index, and in the declared name by some comparison. -/
structure Agree (same : String → String → Prop) (site other : TermSite) : Prop where
  category : site.clause.category = other.clause.category
  title : same site.title other.title
  tag : site.term.tag = other.term.tag
  index : site.index = other.index

/-- What the contract of a tree says of a place. -/
structure Named (site : TermSite) : Prop where
  category : site.clause.category ∈ Vocabulary.categories
  title : Lexeme.IsIdentifier site.title.toList
  name : site.term.name = (Name.ofClause site.clause.category site.title).extend
    [.word site.term.tag, .index site.index]

theorem named_of_stands {tree : Tree} (formed : tree.WellFormed) {site : TermSite}
    (stands : site.Stands tree tree.summary.contract) : site.Named := by
  obtain ⟨clause, title, index, term⟩ := site
  obtain ⟨paired, found⟩ := stands
  rw [Summary.contract, Tree.summary, Tree.localNames, List.map_map, List.zip_map'] at paired
  obtain ⟨node, member, same⟩ := List.mem_map.mp paired
  obtain ⟨rfl, rfl⟩ := Prod.mk.inj same
  have kind := Tree.kind_of_mem_reach [[.clauses]] _ member
  obtain ⟨category, identifier, -⟩ :=
    (formed.of_mem_reach member).clause_words (by simpa using kind)
  refine ⟨category, identifier, ?_⟩
  have listed : (node.clauseSummary.terms.mapIdx _)[index]? = some term := found
  rw [List.getElem?_mapIdx] at listed
  obtain ⟨summary, -, rfl⟩ := Option.map_eq_some_iff.mp listed
  exact summary.name_term _ _

/-- Each term of a summary has its place in the contract. -/
theorem stands_of_summary {tree : Tree} {summary : ClauseSummary} {title : String}
    (paired : (summary, title) ∈ tree.summary.clauses.zip tree.localNames) {i : Nat}
    {term : TermSummary} (found : summary.terms[i]? = some term) :
    (TermSite.mk summary.clause title i
      (term.term (Name.ofClause summary.category summary.title) i)).Stands
        tree tree.summary.contract := by
  constructor
  · show (summary.clause, title) ∈ (tree.summary.clauses.map _).zip _
    rw [List.zip_map_left]
    exact List.mem_map.mpr ⟨_, paired, rfl⟩
  · show (summary.terms.mapIdx _)[i]? = _
    rw [List.getElem?_mapIdx, found]
    rfl

section Named

variable {site other : TermSite}

/-- In a readable rendering places have one name exactly if they agree, declared names being
compared as the rendering writes them. -/
theorem Named.write_eq_iff (h : site.Named) (h' : other.Named) {rendering : Rendering}
    (readable : rendering.Readable) {same : String → String → Prop}
    (titles : rendering.title site.title = rendering.title other.title ↔
      same site.title other.title) :
    rendering.write site.clause.category site.title site.term.tag site.index
        = rendering.write other.clause.category other.title other.term.tag other.index ↔
      site.Agree same other := by
  rw [Rendering.write_inj readable h.category h'.category site.term.tag_mem other.term.tag_mem,
    titles]
  constructor
  · rintro ⟨category, title, tag, index⟩
    exact ⟨category, title, tag, index⟩
  · rintro ⟨category, title, tag, index⟩
    exact ⟨category, title, tag, index⟩

theorem Named.snake_eq_iff (h : site.Named) (h' : other.Named) :
    site.term.name.snake = other.term.name.snake ↔ site.Agree (· = ·) other := by
  rw [h.name, h'.name, Name.snake_extend, Name.snake_extend]
  exact h.write_eq_iff h' Rendering.readable_snake Iff.rfl

theorem Named.camel_eq_iff (h : site.Named) (h' : other.Named) :
    site.term.name.camel = other.term.name.camel ↔ site.Agree Text.SameButFirstCase other := by
  rw [h.name, h'.name, Name.camel_extend, Name.camel_extend]
  exact h.write_eq_iff h' Rendering.readable_camel (Text.upperFirst_eq_iff h.title h'.title)

theorem Named.pascal_eq_iff (h : site.Named) (h' : other.Named) :
    site.term.name.pascal = other.term.name.pascal ↔ site.Agree Text.SameButFirstCase other := by
  rw [h.name, h'.name, Name.pascal_extend, Name.pascal_extend]
  exact h.write_eq_iff h' Rendering.readable_pascal (Text.upperFirst_eq_iff h.title h'.title)

end Named

end TermSite

/-- Terms whose names tell their indexes have different names. -/
theorem Clause.nodup_names {clause : Clause} {read : Term → String}
    (h : ∀ (i j : Nat) (term other : Term), clause.terms[i]? = some term →
      clause.terms[j]? = some other → read term = read other → i = j) :
    (clause.terms.map read).Nodup := by
  rw [List.nodup_iff_getElem?_ne_getElem?]
  intro i j before inside same
  rw [List.length_map] at inside
  rw [List.getElem?_map, List.getElem?_map, List.getElem?_eq_getElem inside,
    List.getElem?_eq_getElem (before.trans inside)] at same
  have index := h i j _ _ (List.getElem?_eq_getElem _) (List.getElem?_eq_getElem _)
    (Option.some.inj same)
  omega

theorem Tree.localNames_eq (tree : Tree) :
    tree.localNames = tree.summary.clauses.map ClauseSummary.title := by
  rw [localNames, summary, List.map_map]
  rfl

/-- Two terms of a contract have the same name exactly if their clauses are of one category and
declare one name, and the terms have one tag and one index; the cased renderings compare declared
names up to the case of their first character. So the terms of one clause have different names. -/
theorem term_name_eq_iff {source : String} {tree : Tree}
    (read : Document.parse source = .ok tree) :
    ∃ contract, compile (.text source) = .ok contract ∧
      contract.clauses.length = tree.localNames.length ∧
      (∀ site other : TermSite, site.Stands tree contract → other.Stands tree contract →
        (site.term.name.snake = other.term.name.snake ↔ site.Agree (· = ·) other) ∧
        (site.term.name.camel = other.term.name.camel ↔
          site.Agree Text.SameButFirstCase other) ∧
        (site.term.name.pascal = other.term.name.pascal ↔
          site.Agree Text.SameButFirstCase other)) ∧
      ∀ clause ∈ contract.clauses,
        (clause.terms.map fun term => term.name.snake).Nodup ∧
        (clause.terms.map fun term => term.name.camel).Nodup ∧
        (clause.terms.map fun term => term.name.pascal).Nodup := by
  obtain ⟨-, formed⟩ := Pattern.derives_contract_iff.mp (Document.derives_of_parse read)
  have lengths : tree.summary.contract.clauses.length = tree.localNames.length := by
    rw [Tree.localNames_eq, List.length_map, Summary.contract, List.length_map]
  refine ⟨_, compile_eq_summary read, lengths, ?_, ?_⟩
  · intro site other stands stands'
    have named := TermSite.named_of_stands formed stands
    have named' := TermSite.named_of_stands formed stands'
    exact ⟨named.snake_eq_iff named', named.camel_eq_iff named', named.pascal_eq_iff named'⟩
  · intro clause member
    obtain ⟨position, inside, rfl⟩ := List.getElem_of_mem member
    -- a clause stands at one place, with one declared name
    have paired : (tree.summary.contract.clauses[position], tree.localNames[position])
        ∈ tree.summary.contract.clauses.zip tree.localNames := by
      rw [← List.getElem_zip (h := by simpa [← lengths] using inside)]
      exact List.getElem_mem _
    have named (i : Nat) (term : Term)
        (found : tree.summary.contract.clauses[position].terms[i]? = some term) :
        (TermSite.mk _ _ i term).Named :=
      TermSite.named_of_stands formed ⟨paired, found⟩
    refine ⟨Clause.nodup_names ?_, Clause.nodup_names ?_, Clause.nodup_names ?_⟩
    · intro i j term other found found' same
      exact (((named i term found).snake_eq_iff (named j other found')).mp same).index
    · intro i j term other found found' same
      exact (((named i term found).camel_eq_iff (named j other found')).mp same).index
    · intro i j term other found found' same
      exact (((named i term found).pascal_eq_iff (named j other found')).mp same).index

/-- Two rights whose declared names differ in the case of their first character, and end in what
looks like a tag and an index. Each has a timeout and a condition on a message. -/
def casedSource : String :=
  "contract c\x7bclauses\x7b" ++
    "right rTimeout0\x7brolePlayer=process terms\x7bTimeout(1)and MessageContent()\x7d\x7d" ++
    "right RTimeout0\x7brolePlayer=process terms\x7bTimeout(2)MessageContent(a<3)\x7d\x7d\x7d\x7d"

/-- What a right says beside its name and its terms is the same in both. -/
def rightSummary (title : String) (terms : List TermSummary) : ClauseSummary where
  category := "right"
  title := title
  role := "process"
  breach := ""
  terms := terms

def smallSummary : ClauseSummary :=
  rightSummary "rTimeout0" [.timeout "1", .presence]

def capitalSummary : ClauseSummary :=
  rightSummary "RTimeout0" [.timeout "2", .comparison (.name "a") "<" (.number "3")]

def casedSummary : Summary where
  name := "c"
  beginDate := ""
  dueDate := ""
  application := ""
  process := ""
  clauses := [smallSummary, capitalSummary]

/-- Terms at one place in the two rights share a name in camel case, and not with underscores.
Terms at different places do not. -/
theorem term_name_eq_iff_cased :
    ∃ tree contract, Document.parse casedSource = .ok tree ∧
      compile (.text casedSource) = .ok contract ∧
      ∃ timeout message timeout' message' : TermSite,
        (∀ site ∈ [timeout, message, timeout', message'], site.Stands tree contract) ∧
        timeout.term.name.camel = "rightRTimeout0Timeout0" ∧
        timeout.term.name.camel = timeout'.term.name.camel ∧
        timeout.term.name.snake ≠ timeout'.term.name.snake ∧
        message.term.name.camel = "rightRTimeout0MessageContent1" ∧
        message.term.name.camel = message'.term.name.camel ∧
        message.term.name.snake ≠ message'.term.name.snake ∧
        timeout.term.name.camel ≠ message'.term.name.camel := by
  obtain ⟨tree, read, said⟩ :=
    exists_parse_of_view (show (Document.parse casedSource).toOption.map Tree.summary
      = some casedSummary by decide +kernel)
  obtain ⟨contract, compiled, -, names, -⟩ := term_name_eq_iff read
  obtain rfl : tree.summary.contract = contract :=
    Except.ok.inj ((compile_eq_summary read).symm.trans compiled)
  have paired : tree.summary.clauses.zip tree.localNames
      = [(smallSummary, "rTimeout0"), (capitalSummary, "RTimeout0")] := by
    rw [tree.localNames_eq, said]
    rfl
  have first : (smallSummary, "rTimeout0") ∈ tree.summary.clauses.zip tree.localNames := by
    simp [paired]
  have second : (capitalSummary, "RTimeout0") ∈ tree.summary.clauses.zip tree.localNames := by
    simp [paired]
  have small {i : Nat} {term : TermSummary} (found : smallSummary.terms[i]? = some term) :=
    TermSite.stands_of_summary first found
  have capital {i : Nat} {term : TermSummary} (found : capitalSummary.terms[i]? = some term) :=
    TermSite.stands_of_summary second found
  have cased : Text.SameButFirstCase "rTimeout0" "RTimeout0" := ⟨'r', 'R', _, rfl, rfl, rfl⟩
  obtain ⟨snake, camel, -⟩ := names _ _ (small (i := 0) rfl) (capital (i := 0) rfl)
  obtain ⟨snake', camel', -⟩ := names _ _ (small (i := 1) rfl) (capital (i := 1) rfl)
  obtain ⟨-, across, -⟩ := names _ _ (small (i := 0) rfl) (capital (i := 1) rfl)
  refine ⟨tree, _, read, compiled, _, _, _, _, ?_, ?_, camel.mpr ⟨rfl, cased, rfl, rfl⟩, ?_, ?_,
    camel'.mpr ⟨rfl, cased, rfl, rfl⟩, ?_, ?_⟩
  · simp only [List.forall_mem_cons, List.not_mem_nil, false_implies, implies_true, and_true]
    exact ⟨small rfl, small rfl, capital rfl, capital rfl⟩
  · decide +kernel
  · intro shared
    exact absurd (snake.mp shared).title (by decide)
  · decide +kernel
  · intro shared
    exact absurd (snake'.mp shared).title (by decide)
  · intro shared
    exact absurd (across.mp shared).index (by decide)

end Covenant
