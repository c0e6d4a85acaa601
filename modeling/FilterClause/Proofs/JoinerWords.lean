import FilterClause.Proofs.AttributePath
import FilterClause.Proofs.ClauseText

/-!
# The joining words of a clause

The words of a filter expression are the runs of letters, digits and `_@.-` outside of its quoted
literals, and its joining words are those that spell `AND` or `OR` in some letter case.

A quoted value has no joining word, because no value contains a quote; paths, symbols and names have
none either. The value of a relational comparison stands bare, so its own words count. Together with
one joiner between adjacent filters these are all joining words there are (`joinerWords_statement`).
-/

namespace FilterClause

open FilterClause.Filter

/-! ## Words outside of literals -/

/-- The characters outside of literals between single quotes; of a literal only the opening quote is
left. A literal that is not closed goes on to the end. -/
def outsideLiterals : Bool → List Char → List Char
  | _, [] => []
  | false, c :: cs => c :: outsideLiterals (c = '\'') cs
  | true, c :: cs => outsideLiterals (c ≠ '\'') cs

/-- The words outside of literals, among them empty ones. -/
def wordsOf (cs : List Char) : List (List Char) :=
  (outsideLiterals false cs).splitOnP fun c => !isValueChar c

/-- A word joins conditions if it spells `AND` or `OR`, in any letter case. -/
def isJoinerWord (word : List Char) : Bool :=
  word.map Char.toLower ∈ [['a', 'n', 'd'], ['o', 'r']]

/-- The joining words among characters. -/
def joinersOf (cs : List Char) : List (List Char) :=
  (wordsOf cs).filter isJoinerWord

/-- The joining words of a text, from left to right. -/
def joinerWords (s : String) : List String :=
  (joinersOf s.toList).map String.ofList

theorem outsideLiterals_of_notMem {cs : List Char} (h : '\'' ∉ cs) (rest : List Char) :
    outsideLiterals false (cs ++ rest) = cs ++ outsideLiterals false rest := by
  induction cs with
  | nil => rfl
  | cons c cs ih =>
    rw [List.mem_cons, not_or] at h
    have hc : decide (c = '\'') = false := decide_eq_false (Ne.symm h.1)
    rw [List.cons_append, outsideLiterals, hc, ih h.2, List.cons_append]

/-- A literal ends at its closing quote. -/
theorem outsideLiterals_of_inside {cs : List Char} (h : '\'' ∉ cs) (rest : List Char) :
    outsideLiterals true (cs ++ '\'' :: rest) = outsideLiterals false rest := by
  induction cs with
  | nil => rfl
  | cons c cs ih =>
    rw [List.mem_cons, not_or] at h
    have hc : decide (c ≠ '\'') = true := decide_eq_true (Ne.symm h.1)
    rw [List.cons_append, outsideLiterals, hc, ih h.2]

/-- The two joining words have letters only. -/
theorem isJoinerWord_eq_false {word : List Char} {c : Char} (hc : c ∈ word)
    (hletter : c.isAlpha = false) : isJoinerWord word = false := by
  obtain ⟨hupper, hlower⟩ := Bool.or_eq_false_iff.1 hletter
  have hsame : c.toLower = c := dif_neg (of_decide_eq_false hupper)
  refine decide_eq_false fun hmem => ?_
  have hword : c ∈ word.map Char.toLower := hsame ▸ List.mem_map_of_mem hc
  have hlowers : ∀ w ∈ [['a', 'n', 'd'], ['o', 'r']], w.all Char.isLower = true := by decide
  rw [List.all_eq_true.1 (hlowers _ hmem) c hword] at hlower
  cases hlower

theorem isAlpha_of_isDigit {c : Char} (h : c.isDigit = true) : c.isAlpha = false := by
  obtain ⟨-, hdigit⟩ := Char.isDigit_iff_toNat.1 h
  have hbounds : '9'.toNat < 'A'.toNat ∧ '9'.toNat < 'a'.toNat := by decide
  have hupper : ¬ (c.val ≥ 'A'.val ∧ c.val ≤ 'Z'.val) := by
    intro hle
    have hnat : 'A'.toNat ≤ c.toNat := UInt32.le_iff_toNat_le.1 hle.1
    omega
  have hlower : ¬ c.val ≥ 'a'.val := by
    intro hle
    have hnat : 'a'.toNat ≤ c.toNat := UInt32.le_iff_toNat_le.1 hle
    omega
  refine Bool.or_eq_false_iff.2 ⟨decide_eq_false hupper, ?_⟩
  exact Bool.and_eq_false_iff.2 (Or.inl (decide_eq_false hlower))

/-! ## Texts with known joining words -/

/-- The characters are part of a line, do not end inside a literal, and have the given joining
words. -/
structure HasJoiners (cs : List Char) (words : List (List Char)) : Prop where
  line : '\n' ∉ cs
  closed : ∀ rest, outsideLiterals false (cs ++ rest) =
    outsideLiterals false cs ++ outsideLiterals false rest
  joiners : joinersOf cs = words

/-- A character that is neither part of a word nor begins a literal or a line. -/
def isSeparator (c : Char) : Bool :=
  !isValueChar c && c ≠ '\'' && c ≠ '\n'

namespace HasJoiners

/-- Without quotes nothing is a literal. -/
theorem of_notMem {cs : List Char} (hline : '\n' ∉ cs) (hquote : '\'' ∉ cs) :
    HasJoiners cs (joinersOf cs) where
  line := hline
  closed rest := by
    have hall := outsideLiterals_of_notMem hquote []
    rw [List.append_nil, outsideLiterals, List.append_nil] at hall
    rw [outsideLiterals_of_notMem hquote, hall]
  joiners := rfl

/-- A word with a character that is no letter is not a joining word. -/
theorem of_word {cs : List Char} (hword : ∀ c ∈ cs, isValueChar c = true) {c : Char} (hc : c ∈ cs)
    (hletter : c.isAlpha = false) : HasJoiners cs [] := by
  have hnot : ∀ d, isValueChar d = false → d ∉ cs := by
    intro d hd hmem
    rw [hword d hmem] at hd
    cases hd
  have h := of_notMem (hnot '\n' rfl) (hnot '\'' rfl)
  have hall := outsideLiterals_of_notMem (hnot '\'' rfl) []
  rw [List.append_nil, outsideLiterals, List.append_nil] at hall
  have hone : wordsOf cs = [cs] := by
    rw [wordsOf, hall]
    exact List.splitOnP_eq_singleton fun d hd => by rw [hword d hd]; rfl
  rw [joinersOf, hone, List.filter_cons, isJoinerWord_eq_false hc hletter] at h
  exact h

/-- A literal has no joining word, whatever stands in it. -/
theorem of_literal {cs : List Char} (hline : '\n' ∉ cs) (hquote : '\'' ∉ cs) :
    HasJoiners ('\'' :: (cs ++ ['\''])) [] := by
  have hliteral : ∀ rest, outsideLiterals false ('\'' :: (cs ++ '\'' :: rest)) =
      '\'' :: outsideLiterals false rest := by
    intro rest
    exact congrArg ('\'' :: ·) (outsideLiterals_of_inside hquote rest)
  refine ⟨?_, fun rest => ?_, ?_⟩
  · simp [hline]
  · rw [List.cons_append, List.append_assoc, List.singleton_append, hliteral, hliteral]
    rfl
  · rw [joinersOf, wordsOf, hliteral]
    decide

/-- Between two parts of a line stands a character that separates words. -/
theorem append {xs ys : List Char} {words words' : List (List Char)} (h : HasJoiners xs words)
    (h' : HasJoiners ys words') {c : Char} (hc : isSeparator c = true) :
    HasJoiners (xs ++ c :: ys) (words ++ words') := by
  simp only [isSeparator, Bool.and_eq_true, Bool.not_eq_true', decide_eq_true_eq] at hc
  obtain ⟨⟨hvalue, hquote⟩, hline⟩ := hc
  have hcons : ∀ rest, outsideLiterals false (c :: rest) = c :: outsideLiterals false rest := by
    intro rest
    rw [outsideLiterals, decide_eq_false hquote]
  -- the first part is closed, so the second one is read as if it stood alone
  refine ⟨?_, fun rest => ?_, ?_⟩
  · simp [h.line, h'.line, Ne.symm hline]
  · rw [List.append_assoc, List.cons_append, h.closed, h.closed, hcons, hcons, h'.closed,
      List.append_assoc, List.cons_append]
  · rw [joinersOf, wordsOf, h.closed, hcons, List.splitOnP_append_cons _ _ (by rw [hvalue]; rfl),
      List.filter_append]
    exact congrArg₂ (· ++ ·) h.joiners h'.joiners

/-- Parts of a line with blanks between them. -/
theorem intercalate {parts : List (List Char)} {words : List Char → List (List Char)}
    (h : ∀ part ∈ parts, HasJoiners part (words part)) :
    HasJoiners ([' '].intercalate parts) (parts.flatMap words) := by
  induction parts with
  | nil => exact of_notMem (by simp) (by simp)
  | cons part parts ih =>
    have hpart := h part List.mem_cons_self
    cases parts with
    | nil =>
      rw [List.intercalate_singleton, List.flatMap_cons, List.flatMap_nil, List.append_nil]
      exact hpart
    | cons next parts =>
      have hrest := ih fun p hp => h p (List.mem_cons_of_mem part hp)
      rw [List.intercalate_cons_cons, List.flatMap_cons, List.append_assoc]
      exact hpart.append hrest rfl

end HasJoiners

/-! ## Conditions -/

/-- The value of a relational plain comparison stands in the condition as it is. -/
def Operator.hasBareValue : Operator → Bool
  | .generic c => c.isRelational
  | .date _ | .array _ => false

/-- The joining words that a filter brings into a clause by its value. -/
def Filter.bareJoinerWords (f : Filter) : List String :=
  if f.operator.hasBareValue then joinerWords f.value else []

/-- The right-hand side of a comparison has the joining words of a bare value only. -/
theorem Operator.Renders.hasJoiners {op : Operator} {value text : String} (h : op.Renders value text)
    (hline : '\n' ∉ value.toList) (hquote : '\'' ∉ value.toList) :
    HasJoiners text.toList (if op.hasBareValue then joinersOf value.toList else []) := by
  have hliteral := HasJoiners.of_literal hline hquote
  cases h with
  | @bare c hc =>
    rw [hasBareValue, if_pos hc]
    exact .of_notMem hline hquote
  | @quoted c hc =>
    rw [hasBareValue, hc, if_neg Bool.false_ne_true, toList_quote]
    exact hliteral
  | @date c hdate =>
    have htext : ("DATE_ISO8601(" ++ quote value ++ ")").toList =
        "DATE_ISO8601".toList ++ '(' :: ('\'' :: (value.toList ++ ['\'']) ++ ')' :: []) := by
      rw [String.toList_append, String.toList_append, toList_quote, List.append_assoc]
      rfl
    have hname : HasJoiners "DATE_ISO8601".toList [] :=
      .of_word (c := '8') (List.all_eq_true.1 (by decide)) (by decide) rfl
    have hnone : HasJoiners [] [] := .of_notMem (by simp) (by simp)
    rw [htext, hasBareValue, if_neg Bool.false_ne_true]
    exact hname.append (hliteral.append hnone rfl) rfl

theorem hasJoiners_symbol (op : Operator) : HasJoiners op.symbol.toList [] := by
  have hnone : ∀ op ∈ Operator.all, joinersOf op.symbol.toList = [] := by decide
  have h := HasJoiners.of_notMem (Operator.notMem_symbol (by decide) op)
    (Operator.notMem_symbol (by decide) op)
  rwa [hnone op (Operator.mem_all op)] at h

/-- A path from a loop variable is a word with a dot in it. -/
theorem hasJoiners_path {loopVar mapped : String} (hloop : IsIdentifier loopVar)
    (hmapped : IsDottedPath mapped) :
    HasJoiners ((Anchor.relative loopVar).attach mapped).toList [] := by
  have hpath : IsDottedPath ((Anchor.relative loopVar).attach mapped) := by
    refine hmapped.attach fun v hv => ?_
    cases hv
    exact hloop
  refine .of_word (c := '.') (fun c hc => ?_) ?_ rfl
  · by_cases hdot : c = '.'
    · rw [hdot]
      rfl
    · exact isValueChar_of_isFieldChar (hpath.isFieldChar hc hdot)
  · simp [Anchor.attach]

/-- A numbered name is a word with a digit in it. -/
theorem hasJoiners_sequential {stem : String} (h : IsIdentifier stem) (i : ℕ) :
    HasJoiners ((NameSupply.sequential stem).name i).toList [] := by
  have hname := isIdentifier_sequential h i
  obtain ⟨d, digits, hdigits⟩ := List.exists_cons_of_ne_nil (Nat.toDigits_ne_nil (n := i) (b := 10))
  have hd : d.isDigit = true :=
    Nat.isDigit_of_mem_toDigits (by decide) (by decide) (hdigits ▸ List.mem_cons_self)
  refine .of_word (c := d) (fun c hc => isValueChar_of_isFieldChar (hname.isFieldChar hc)) ?_ ?_
  · rw [NameSupply.sequential, String.toList_append, Nat.toString_eq_repr, Nat.toList_repr, hdigits]
    exact List.mem_append_right _ List.mem_cons_self
  · exact isAlpha_of_isDigit hd

/-- The condition of a filter has the joining words of a bare value only. -/
theorem Compiles.hasJoiners {fields : FieldMap} {loopVar : String} {f : Filter} {c : Compiled}
    (h : Compiles (.relative loopVar) fields f c)
    (hpath : ∀ mapped, fields.get? f.field = some mapped → IsDottedPath mapped)
    (hloop : IsIdentifier loopVar) (hline : '\n' ∉ f.value.toList) (hquote : '\'' ∉ f.value.toList)
    (hnames : ∀ b ∈ c.binding, HasJoiners b.name.toList []) :
    HasJoiners c.term.condition.text.toList
      (if f.operator.hasBareValue then joinersOf f.value.toList else []) := by
  obtain ⟨l, ⟨rfl, mapped, hmapped, hl⟩, hbecomes⟩ := h
  cases hbecomes with
  | @compare operand hcategory hoperand =>
    have hvalue := (Operator.renders_of_operandText hoperand hcategory).hasJoiners hline hquote
    have htext : (Condition.compare l.path l.filter.operator.symbol operand).text.toList =
        l.path.toList ++ ' ' :: (l.filter.operator.symbol.toList ++ ' ' :: operand.text.toList) := by
      show (l.path ++ " " ++ l.filter.operator.symbol ++ " " ++ operand.text).toList = _
      simp
    rw [htext, hl]
    exact (hasJoiners_path hloop (hpath mapped hmapped)).append
      ((hasJoiners_symbol _).append hvalue rfl) rfl
  | @test test name hop =>
    have hname := hnames _ rfl
    have htext : (Condition.nonempty name).text.toList =
        "LENGTH".toList ++ '(' :: (name.toList ++ ')' :: " > 0".toList) := by
      show ("LENGTH(" ++ name ++ ") > 0").toList = _
      simp
    have hlength : HasJoiners "LENGTH".toList (joinersOf "LENGTH".toList) :=
      .of_notMem (by decide) (by decide)
    have hzero : HasJoiners " > 0".toList (joinersOf " > 0".toList) :=
      .of_notMem (by decide) (by decide)
    rw [htext, hop, Operator.hasBareValue, if_neg Bool.false_ne_true]
    exact hlength.append (hname.append hzero rfl) rfl

/-! ## The expression -/

theorem joinersOf_keyword (j : Combinator) : joinersOf j.keyword.toList = [j.keyword.toList] := by
  cases j <;> decide

/-- The joining words of a grouped expression are those of its tokens. -/
theorem hasJoiners_groupedExpression {terms : List (Term String)}
    (h : ∀ t ∈ terms, ∃ words, HasJoiners t.condition.toList words) :
    HasJoiners (groupedExpression terms).toList
      ((group terms).flatMap fun token => joinersOf token.text.toList) := by
  have hparts : ∀ part ∈ (groupTexts terms).map String.toList, HasJoiners part (joinersOf part) := by
    intro part hpart
    obtain ⟨text, htext, rfl⟩ := List.mem_map.1 hpart
    obtain ⟨token, htoken, rfl⟩ := List.mem_map.1 htext
    cases token with
    | term c =>
      obtain ⟨t, ht, rfl⟩ := term_mem_group.1 htoken
      obtain ⟨words, hwords⟩ := h t ht
      exact ⟨hwords.line, hwords.closed, rfl⟩
    | opening => exact .of_notMem (by decide) (by decide)
    | closing => exact .of_notMem (by decide) (by decide)
    | joiner j => cases j <;> exact .of_notMem (by decide) (by decide)
  have hall := HasJoiners.intercalate hparts
  rw [groupTexts, List.map_map, List.flatMap_map] at hall
  rw [groupedExpression, String.toList_intercalate, groupTexts, List.map_map]
  exact hall

/-! ## Clauses of filter strings -/

/-- A term has the joiner of its filter, and the joining words of its bare value. -/
def Brings (f : Filter) (t : Term String) : Prop :=
  t.joiner = f.joiner ∧ HasJoiners t.condition.toList
    (if f.operator.hasBareValue then joinersOf f.value.toList else [])

/-- The joining words of an expression, in the order of the filters: those of the bare value of each,
and then its joiner. -/
theorem joinerWords_groupedExpression {fs : List Filter} {terms : List (Term String)}
    (h : List.Forall₂ Brings fs terms) (hsettled : Settled (fs.map Filter.joiner)) :
    '\n' ∉ (groupedExpression terms).toList ∧ joinerWords (groupedExpression terms) =
      fs.flatMap fun f => f.bareJoinerWords ++ (f.joiner.map Combinator.keyword).toList := by
  have hjoiners : terms.map Term.joiner = fs.map Filter.joiner :=
    (map_eq_of_forall₂ (h.imp fun _ _ hft => hft.1.symm)).symm
  have hall := hasJoiners_groupedExpression fun t ht => by
    obtain ⟨f, hf, hft⟩ := exists_mem_of_forall₂ h ht
    exact ⟨_, hft.2⟩
  refine ⟨hall.line, ?_⟩
  rw [joinerWords, hall.joiners, flatMap_group (hjoiners ▸ hsettled) (by decide) (by decide)]
  clear hall hjoiners hsettled
  induction h with
  | nil => rfl
  | @cons f t fs terms hhead htail ih =>
    have hwords : (joinersOf t.condition.toList).map String.ofList = f.bareJoinerWords := by
      rw [hhead.2.joiners, Filter.bareJoinerWords, joinerWords]
      split
      · rfl
      · rfl
    have hkeyword : (t.joiner.toList.flatMap fun j => joinersOf (Token.joiner j).text.toList).map
        String.ofList = (f.joiner.map Combinator.keyword).toList := by
      rw [hhead.1]
      cases f.joiner with
      | none => rfl
      | some j =>
        have hj : joinersOf (Token.joiner j).text.toList = [j.keyword.toList] := joinersOf_keyword j
        simp [hj]
    rw [List.flatMap_cons, List.map_append, List.map_append, ih, List.flatMap_cons, ← hwords,
      ← hkeyword]
    rfl

/-- Filters bring along the joining words of their bare values, and one joiner less than they are. -/
theorem length_flatMap_bareJoinerWords {fs : List Filter} (h : Settled (fs.map Filter.joiner)) :
    (fs.flatMap fun f => f.bareJoinerWords ++ (f.joiner.map Combinator.keyword).toList).length =
      (fs.length - 1) + (fs.flatMap Filter.bareJoinerWords).length := by
  induction fs with
  | nil => rfl
  | cons f fs ih =>
    cases fs with
    | nil =>
      have hnone : f.joiner = none := h
      simp [hnone]
    | cons g rest =>
      obtain ⟨hsome, hrest⟩ := h
      obtain ⟨j, hj⟩ := Option.isSome_iff_exists.1 hsome
      have hlength := ih hrest
      have hbare : ((f :: g :: rest).flatMap Filter.bareJoinerWords).length =
          f.bareJoinerWords.length + ((g :: rest).flatMap Filter.bareJoinerWords).length := by
        rw [List.flatMap_cons, List.length_append]
      rw [List.flatMap_cons, List.length_append, hlength, hbare, List.length_append, hj]
      simp only [Option.map_some, Option.toList_some, List.length_cons, List.length_nil]
      omega

/-- The filter expression of a filter string has the joining words of its bare values, and between
adjacent filters one that joins them; quoted values, dates and list tests add none. -/
theorem joinerWords_statement {s : String} {fs : List Filter} {fields : FieldMap}
    {loopVar stem text : String} (hparse : Filter.parse s = .ok fs) (hne : fs ≠ [])
    (hpaths : ∀ f ∈ fs, ∀ mapped, fields.get? f.field = some mapped → IsDottedPath mapped)
    (hloop : IsIdentifier loopVar) (hstem : IsIdentifier stem)
    (htext : (statement fields (.relative loopVar) fs (.sequential stem)).1 = .ok text) :
    ∃ expression, (Text.lines text).getLast? = some ("FILTER " ++ expression) ∧
      joinerWords expression =
        fs.flatMap (fun f => f.bareJoinerWords ++ (f.joiner.map Combinator.keyword).toList) ∧
      (joinerWords expression).length =
        (fs.length - 1) + (fs.flatMap Filter.bareJoinerWords).length := by
  obtain ⟨hread, hsettled⟩ := isRead_of_parse hparse
  have hsettled' : Settled (fs.map Filter.joiner) := hsettled ▸ settled_settleJoiners fs
  obtain ⟨clause, ⟨cs, hcompiles, hissues, rfl⟩, rfl⟩ := exists_clause_of_statement htext
  have hbrings : List.Forall₂ Brings fs
      ((Clause.ofCompiled cs).terms.map (Term.map Condition.text)) := by
    rw [Clause.ofCompiled, List.map_map, List.forall₂_map_right_iff]
    refine forall₂_of_mem hcompiles fun f hf c hc hfc => ⟨hfc.joiner_eq, ?_⟩
    refine hfc.hasJoiners (hpaths f hf) hloop ((hread f hf).notMem_value rfl rfl)
      ((hread f hf).notMem_value rfl rfl) fun b hb => ?_
    -- the names of bindings come from the supply
    have hname : b.name ∈ bindingNames cs :=
      List.mem_map_of_mem (List.mem_filterMap.2 ⟨c, hc, hb⟩)
    obtain ⟨i, hi⟩ := hissues.supplied b.name hname
    exact hi ▸ hasJoiners_sequential hstem i
  obtain ⟨hline, hwords⟩ := joinerWords_groupedExpression hbrings hsettled'
  have hterms : (Clause.ofCompiled cs).terms ≠ [] := by
    intro hnil
    rw [hnil, List.map_nil, List.forall₂_nil_right_iff] at hbrings
    exact hne hbrings
  refine ⟨groupedExpression ((Clause.ofCompiled cs).terms.map (Term.map Condition.text)), ?_,
    hwords, ?_⟩
  · rw [Clause.text, clauseText, filterLine, if_neg (groupedExpression_ne_empty hterms)]
    apply getLast?_lines_intercalate
    · simp
    · rw [String.toList_append, List.mem_append, not_or]
      exact ⟨by decide, hline⟩
  · rw [hwords, length_flatMap_bareJoinerWords hsettled']

/-- The first value brings an `OR` of its own, the quoted one none; the other two words join. -/
theorem joinerWords_statement_three :
    let fs : List Filter := [⟨"a", .generic .gt, "1 OR 2", some .or⟩,
      ⟨"b", .array .has, "x", some .and⟩, ⟨"c", .generic .like, "and or", none⟩]
    let fields := FieldMap.ofList [("a", "n.a"), ("b", "tags"), ("c", "c")]
    let text := "LET tmp0 = (\n    FILTER 'x' IN doc.tags[*]\n    RETURN 1\n)\n" ++
      "FILTER ( doc.n.a > 1 OR 2 OR LENGTH(tmp0) > 0 ) AND doc.c =~ 'and or'"
    Filter.parse "a>1 OR 2,b@==x;c=~and or" = .ok fs ∧
      (statement fields (.relative "doc") fs (.sequential "tmp")).1 = .ok text ∧
      ∃ expression, (Text.lines text).getLast? = some ("FILTER " ++ expression) ∧
        joinerWords expression = ["OR", "OR", "AND"] := by
  intro fs fields text
  have hparse : Filter.parse "a>1 OR 2,b@==x;c=~and or" = .ok fs := by decide +kernel
  have htext : (statement fields (.relative "doc") fs (.sequential "tmp")).1 = .ok text := by
    decide +kernel
  obtain ⟨expression, hline, hwords, -⟩ := joinerWords_statement hparse (by decide)
    (by decide +kernel) (by decide) (by decide) htext
  have hfs : fs.flatMap (fun f => f.bareJoinerWords ++ (f.joiner.map Combinator.keyword).toList) =
      ["OR", "OR", "AND"] := by decide +kernel
  exact ⟨hparse, htext, expression, hline, hwords.trans hfs⟩

/-- A bare value can join conditions that are not there: `a>1 OR 2` is one filter, and its expression
has a joining word. -/
theorem joinerWords_statement_bare_value :
    ¬ ∀ (s : String) (fs : List Filter) (fields : FieldMap) (loopVar stem text expression : String),
      Filter.parse s = .ok fs → fs ≠ [] →
      (∀ f ∈ fs, ∃ mapped, fields.get? f.field = some mapped ∧ IsDottedPath mapped) →
      IsIdentifier loopVar → IsIdentifier stem →
      (statement fields (.relative loopVar) fs (.sequential stem)).1 = .ok text →
      (Text.lines text).getLast? = some ("FILTER " ++ expression) →
      (joinerWords expression).length = fs.length - 1 := by
  intro h
  have hone := h "a>1 OR 2" [⟨"a", .generic .gt, "1 OR 2", none⟩] (FieldMap.ofList [("a", "a")])
    "doc" "tmp" "FILTER doc.a > 1 OR 2" "doc.a > 1 OR 2" (by decide +kernel) (by decide)
    (fun f hf => ⟨"a", by rw [List.mem_singleton.1 hf]; decide +kernel⟩) (by decide) (by decide)
    (by decide +kernel) (by decide +kernel)
  have htwo : (joinerWords "doc.a > 1 OR 2").length = 1 := by decide +kernel
  rw [htwo] at hone
  cases hone

end FilterClause
