import FilterClause.Proofs.AttributePath
import FilterClause.Proofs.ClauseText
import Mathlib.Algebra.Group.Even

/-!
# The quoted literals of a clause

The literals of a text are what stands between its first and second single quote, its third and fourth,
and so on (`literals`). A value is put between quotes as it is; nothing in it is escaped. It cannot end
its own literal, because no value that was read has a quote in it.

Texts whose quotes come in pairs can be put one after the other (`Quotes.append`), and no literal
begins in one part and ends in another one. So the literals of a clause are those of its bindings and
then those of its conditions: the values of list tests, newest first, and the values of the comparisons
that quote theirs, in the order of the filters (`literals_statement`).
-/

namespace FilterClause

open FilterClause.Filter

/-! ## Literals -/

/-- The second element of a list, the fourth one, and so on. -/
def everySecond {α : Type} : List α → List α
  | [] => []
  | [_] => []
  | _ :: a :: rest => a :: everySecond rest

/-- What stands between the first and the second quote, between the third and the fourth, and so
on. -/
def literals (s : String) : List String :=
  (everySecond (s.toList.splitOn '\'')).map String.ofList

/-- The quotes among the characters come in pairs, and the given values stand between them. -/
inductive Quotes : List Char → List String → Prop
  | plain {cs : List Char} (h : '\'' ∉ cs) : Quotes cs []
  | literal {cs rest : List Char} {value : String} {values : List String} (h : '\'' ∉ cs)
      (hvalue : '\'' ∉ value.toList) (hrest : Quotes rest values) :
      Quotes (cs ++ '\'' :: (value.toList ++ '\'' :: rest)) (value :: values)

namespace Quotes

theorem count_eq {cs : List Char} {values : List String} (h : Quotes cs values) :
    cs.count '\'' = 2 * values.length := by
  induction h with
  | plain h => rw [List.count_eq_zero_of_not_mem h, List.length_nil]
  | literal h hvalue hrest ih =>
    simp only [List.count_append, List.count_cons_self, List.count_eq_zero_of_not_mem h,
      List.count_eq_zero_of_not_mem hvalue, ih, List.length_cons]
    omega

theorem everySecond_splitOn {cs : List Char} {values : List String} (h : Quotes cs values) :
    everySecond (cs.splitOn '\'') = values.map String.toList := by
  induction h with
  | plain h => rw [List.splitOn_eq_singleton h, everySecond, List.map_nil]
  | literal h hvalue hrest ih =>
    rw [List.splitOn_append_cons_self_of_not_mem h,
      List.splitOn_append_cons_self_of_not_mem hvalue, everySecond, ih, List.map_cons]

/-- The values between the quotes are the literals. -/
theorem literals_eq {s : String} {values : List String} (h : Quotes s.toList values) :
    literals s = values := by
  have hid : String.ofList ∘ String.toList = id := funext fun _ => String.ofList_toList
  rw [literals, h.everySecond_splitOn, List.map_map, hid, List.map_id]

theorem of_literals {s : String} {values : List String} (h : Quotes s.toList values) :
    Quotes s.toList (literals s) :=
  h.literals_eq.symm ▸ h

theorem plain_append {xs ys : List Char} {values : List String} (hxs : '\'' ∉ xs)
    (h : Quotes ys values) : Quotes (xs ++ ys) values := by
  cases h with
  | plain h => exact .plain (by simp [hxs, h])
  | literal h hvalue hrest =>
    rw [← List.append_assoc]
    exact .literal (by simp [hxs, h]) hvalue hrest

/-- Literals stay what they are when something is put after them. -/
theorem append {xs ys : List Char} {values values' : List String} (h : Quotes xs values)
    (h' : Quotes ys values') : Quotes (xs ++ ys) (values ++ values') := by
  induction h with
  | plain h => exact h'.plain_append h
  | literal h hvalue hrest ih =>
    rw [List.append_assoc, List.cons_append, List.append_assoc, List.cons_append]
    exact .literal h hvalue ih

theorem intercalate {separator : String} {parts : List String}
    (hseparator : '\'' ∉ separator.toList)
    (h : ∀ part ∈ parts, Quotes part.toList (literals part)) :
    Quotes (separator.intercalate parts).toList (parts.flatMap literals) := by
  induction parts with
  | nil => exact .plain (by simp)
  | cons part parts ih =>
    have hpart := h part List.mem_cons_self
    have hrest := ih fun p hp => h p (List.mem_cons_of_mem part hp)
    cases parts with
    | nil =>
      rw [String.intercalate_singleton, List.flatMap_cons, List.flatMap_nil, List.append_nil]
      exact hpart
    | cons next parts =>
      rw [String.intercalate_cons_cons, String.toList_append, String.toList_append,
        List.append_assoc, List.flatMap_cons]
      exact hpart.append (hrest.plain_append hseparator)

end Quotes

/-! ## Conditions and bindings -/

/-- The value stands between quotes in the condition: that of a comparison, if it is one with a date or
is not relational. -/
def Operator.quotesValue : Operator → Bool
  | .generic c => !c.isRelational
  | .date _ => true
  | .array _ => false

theorem quotes_quote {value : String} (h : '\'' ∉ value.toList) :
    Quotes (quote value).toList [value] := by
  rw [toList_quote]
  show Quotes ([] ++ '\'' :: (value.toList ++ '\'' :: [])) [value]
  exact .literal List.not_mem_nil h (.plain List.not_mem_nil)

/-- A right-hand side quotes the value or has no quotes. -/
theorem Operator.Renders.quotes {op : Operator} {value text : String} (h : op.Renders value text)
    (hvalue : '\'' ∉ value.toList) :
    Quotes text.toList (if op.quotesValue then [value] else []) := by
  cases h with
  | @bare c hc =>
    rw [quotesValue, hc]
    exact .plain hvalue
  | @quoted c hc =>
    rw [quotesValue, hc]
    exact quotes_quote hvalue
  | date hdate =>
    rw [String.toList_append, String.toList_append]
    exact ((quotes_quote hvalue).plain_append (by decide)).append (.plain (by decide))

/-- A binding quotes the value that it looks for, once. -/
theorem Binding.quotes_text {b : Binding} (hname : '\'' ∉ b.name.toList)
    (hpath : '\'' ∉ b.path.toList) (hvalue : '\'' ∉ b.value.toList) :
    Quotes b.text.toList [b.value] := by
  obtain ⟨name, test, path, value⟩ := b
  have hone : ∀ before after : String, '\'' ∉ before.toList → '\'' ∉ after.toList →
      Quotes (before ++ quote value ++ after).toList [value] := by
    intro before after hbefore hafter
    rw [String.toList_append, String.toList_append]
    exact ((quotes_quote hvalue).plain_append hbefore).append (.plain hafter)
  have hn : '\'' ∉ name.toList := hname
  have hp : '\'' ∉ path.toList := hpath
  cases test with
  | has =>
    have h := hone ("LET " ++ name ++ " = (\n    FILTER ") (" IN " ++ path ++ "[*]\n    RETURN 1\n)")
      (by simp [hn]) (by simp [hp])
    simpa [Binding.text] using h
  | lacks =>
    have h := hone ("LET " ++ name ++ " = (\n    FILTER ")
      (" NOT IN " ++ path ++ "[*]\n    RETURN 1\n)") (by simp [hn]) (by simp [hp])
    simpa [Binding.text] using h
  | contains =>
    have h := hone ("LET " ++ name ++ " = (\n    FOR " ++ name ++ "_item IN " ++ path ++
        "[*]\n        FILTER CONTAINS(LOWER(" ++ name ++ "_item), LOWER(")
      "))\n        LIMIT 1\n        RETURN 1\n)" (by simp [hn, hp]) (by simp)
    simpa [Binding.text] using h

/-- The value of the filter stands between quotes in its condition, or in its binding, or nowhere. -/
structure Quoting (f : Filter) (c : Compiled) : Prop where
  condition : Quotes c.term.condition.text.toList (if f.operator.quotesValue then [f.value] else [])
  binding : ∀ b ∈ c.binding, Quotes b.text.toList [b.value]
  value : c.binding.map Binding.value = if f.operator.category = .array then some f.value else none

theorem Compiles.quoting {anchor : Anchor} {fields : FieldMap} {f : Filter} {c : Compiled}
    (h : Compiles anchor fields f c)
    (hpath : ∀ mapped, fields.get? f.field = some mapped → '\'' ∉ (anchor.attach mapped).toList)
    (hvalue : '\'' ∉ f.value.toList) (hnames : ∀ b ∈ c.binding, '\'' ∉ b.name.toList) :
    Quoting f c := by
  obtain ⟨l, ⟨rfl, mapped, hmapped, hl⟩, hbecomes⟩ := h
  have hpath' : '\'' ∉ l.path.toList := hl ▸ hpath mapped hmapped
  cases hbecomes with
  | @compare operand hcategory hoperand =>
    refine ⟨?_, fun b hb => (nomatch hb), (if_neg hcategory).symm⟩
    have hoperand' := (Operator.renders_of_operandText hoperand hcategory).quotes hvalue
    have hbefore : '\'' ∉ (l.path ++ " " ++ l.filter.operator.symbol ++ " ").toList := by
      have hsymbol := l.filter.operator.notMem_symbol (c := '\'') (by decide)
      simp [hpath', hsymbol]
    rw [Condition.text, String.toList_append]
    exact hoperand'.plain_append hbefore
  | @test test name hop =>
    have hname : '\'' ∉ name.toList := hnames _ rfl
    have hcategory : l.filter.operator.category = .array := by rw [hop]; rfl
    have hbare : l.filter.operator.quotesValue = false := by rw [hop]; rfl
    refine ⟨?_, fun b hb => ?_, (if_pos hcategory).symm⟩
    · rw [hbare]
      exact .plain (by simp [Condition.text, hname])
    · obtain rfl := Option.some.inj hb
      exact Binding.quotes_text hname hpath' hvalue

/-! ## Expressions -/

theorem quotes_keyword (j : Combinator) : Quotes j.keyword.toList [] := by
  cases j <;> exact .plain (by decide)

/-- The literals of an expression are those of its conditions. -/
theorem quotes_groupedExpression {terms : List (Term String)}
    (hsettled : Settled (terms.map Term.joiner))
    (h : ∀ t ∈ terms, Quotes t.condition.toList (literals t.condition)) :
    Quotes (groupedExpression terms).toList (terms.flatMap fun t => literals t.condition) := by
  have hparts : ∀ text ∈ groupTexts terms, Quotes text.toList (literals text) := by
    intro text htext
    obtain ⟨token, htoken, rfl⟩ := List.mem_map.1 htext
    cases token with
    | term c =>
      obtain ⟨t, ht, rfl⟩ := term_mem_group.1 htoken
      exact h t ht
    | opening | closing => exact .plain (by decide)
    | joiner j => exact (quotes_keyword j).of_literals
  have hall : Quotes (groupedExpression terms).toList ((groupTexts terms).flatMap literals) :=
    .intercalate (by decide) hparts
  have hjoiners : ∀ t : Term String,
      (t.joiner.toList.flatMap fun j => literals (Token.joiner j).text) = [] := by
    intro t
    rw [List.flatMap_eq_nil_iff]
    exact fun j _ => (quotes_keyword j).literals_eq
  rw [groupTexts, List.flatMap_map, flatMap_group hsettled (by decide) (by decide)] at hall
  simp only [hjoiners, List.append_nil] at hall
  exact hall

theorem quotes_filterLine {terms : List (Term String)} {values : List String}
    (h : Quotes (groupedExpression terms).toList values) : Quotes (filterLine terms).toList values := by
  rw [filterLine]
  split
  · next hempty =>
    -- an empty expression has no literals
    have hnone : literals "" = [] := by decide
    rw [hempty] at h
    rw [← h.literals_eq, hnone]
    exact .plain (by decide)
  · rw [String.toList_append]
    exact h.plain_append (by decide)

/-! ## Clauses -/

/-- The literals of the bindings, in filter order, are the values of the list tests. -/
theorem values_bindings {fs : List Filter} {cs : List Compiled}
    (h : List.Forall₂ Quoting fs cs) :
    (cs.filterMap Compiled.binding).map Binding.value =
      (fs.filter fun f => f.operator.category = .array).map Filter.value := by
  induction h with
  | nil => rfl
  | @cons f c fs cs hfc hrest ih =>
    have hvalue := hfc.value
    cases hbinding : c.binding with
    | none =>
      rw [hbinding] at hvalue
      have hcategory : f.operator.category ≠ .array := by
        intro hcategory
        rw [if_pos hcategory] at hvalue
        cases hvalue
      rw [List.filterMap_cons_none hbinding, ih, List.filter_cons_of_neg (by simpa using hcategory)]
    | some b =>
      rw [hbinding] at hvalue
      have hcategory : f.operator.category = .array := by
        by_contra hcategory
        rw [if_neg hcategory] at hvalue
        cases hvalue
      rw [if_pos hcategory] at hvalue
      rw [List.filterMap_cons_some hbinding, List.map_cons, ih,
        List.filter_cons_of_pos (by simpa using hcategory), List.map_cons, Option.some.inj hvalue]

/-- The literals of the conditions are the values of the comparisons that quote theirs. -/
theorem literals_conditions {fs : List Filter} {cs : List Compiled}
    (h : List.Forall₂ Quoting fs cs) :
    (cs.flatMap fun c => literals c.term.condition.text) =
      (fs.filter fun f => f.operator.quotesValue).map Filter.value := by
  induction h with
  | nil => rfl
  | @cons f c fs cs hfc hrest ih =>
    rw [List.flatMap_cons, hfc.condition.literals_eq, ih]
    by_cases hquotes : f.operator.quotesValue = true
    · rw [if_pos hquotes, List.filter_cons, if_pos hquotes]
      rfl
    · rw [if_neg hquotes, List.filter_cons, if_neg hquotes]
      rfl

/-- The literals of the last line are the values of the comparisons that quote theirs. -/
theorem quotes_lastLine {fs : List Filter} {cs : List Compiled} (h : List.Forall₂ Quoting fs cs)
    (hsettled : Settled (cs.map fun c => c.term.joiner)) :
    Quotes (Clause.ofCompiled cs).lastLine.toList
      ((fs.filter fun f => f.operator.quotesValue).map Filter.value) := by
  have hterms : (Clause.ofCompiled cs).terms.map (Term.map Condition.text) =
      cs.map fun c => c.term.map Condition.text := List.map_map
  have hexpression : Quotes (groupedExpression (cs.map fun c => c.term.map Condition.text)).toList
      ((cs.map fun c => c.term.map Condition.text).flatMap fun t => literals t.condition) := by
    refine quotes_groupedExpression (by rw [List.map_map]; exact hsettled) fun t ht => ?_
    obtain ⟨c, hc, rfl⟩ := List.mem_map.1 ht
    obtain ⟨f, hf, hfc⟩ := exists_mem_of_forall₂ h hc
    exact hfc.condition.of_literals
  rw [List.flatMap_map] at hexpression
  rw [← literals_conditions h, Clause.lastLine, hterms]
  exact quotes_filterLine hexpression

/-- The quotes of a compiled clause come in pairs. Between them stand the values of the list tests, the
last one first, and then those of the comparisons that quote theirs. -/
theorem quotes_text_ofCompiled {fs : List Filter} {cs : List Compiled}
    (h : List.Forall₂ Quoting fs cs) (hsettled : Settled (cs.map fun c => c.term.joiner)) :
    Quotes (Clause.ofCompiled cs).text.toList
      (((fs.filter fun f => f.operator.category = .array).map Filter.value).reverse ++
        (fs.filter fun f => f.operator.quotesValue).map Filter.value) := by
  have hlast := quotes_lastLine h hsettled
  have hbindings : ∀ b ∈ (Clause.ofCompiled cs).bindings, Quotes b.text.toList [b.value] := by
    intro b hb
    obtain ⟨c, hc, hcb⟩ := mem_bindings_ofCompiled.1 hb
    obtain ⟨f, hf, hfc⟩ := exists_mem_of_forall₂ h hc
    exact hfc.binding b hcb
  have hparts : ∀ part ∈ (Clause.ofCompiled cs).bindings.map Binding.text ++
      [(Clause.ofCompiled cs).lastLine], Quotes part.toList (literals part) := by
    intro part hpart
    rcases List.mem_append.1 hpart with hpart | hpart
    · obtain ⟨b, hb, rfl⟩ := List.mem_map.1 hpart
      exact (hbindings b hb).of_literals
    · obtain rfl := List.mem_singleton.1 hpart
      exact hlast.of_literals
  have hvalues : ((Clause.ofCompiled cs).bindings.flatMap fun b => literals b.text) =
      ((fs.filter fun f => f.operator.category = .array).map Filter.value).reverse := by
    rw [← values_bindings h, ← List.map_reverse, ← List.flatMap_pure_eq_map]
    exact List.flatMap_congr fun b hb => (hbindings b hb).literals_eq
  have htext : Quotes (Clause.ofCompiled cs).text.toList (((Clause.ofCompiled cs).bindings.map
      Binding.text ++ [(Clause.ofCompiled cs).lastLine]).flatMap literals) :=
    .intercalate (by decide) hparts
  rw [List.flatMap_append, List.flatMap_map, hvalues, List.flatMap_singleton,
    hlast.literals_eq] at htext
  exact htext

/-- No value breaks out of its literal: the quotes of the clause of a filter string come in pairs, and
between them stand the values of its list tests, from the last one to the first, and after them the
values of its comparisons that are not relational or have a date. -/
theorem literals_compile {s : String} {fs : List Filter} {c : Compiler} {clause : Clause}
    (hparse : Filter.parse s = .ok fs) (hpaths : ∀ path ∈ c.fields.paths, '\'' ∉ path.toList)
    (hloop : ∀ loopVar, c.anchor = .relative loopVar → '\'' ∉ loopVar.toList)
    (hnames : ∀ i, '\'' ∉ (c.names.supply.name i).toList)
    (hcompile : (c.compile fs).1 = .ok clause) :
    Even (clause.text.toList.count '\'') ∧ literals clause.text =
      ((fs.filter fun f => f.operator.category = .array).map Filter.value).reverse ++
        (fs.filter fun f => f.operator.quotesValue).map Filter.value := by
  obtain ⟨hread, hsettled⟩ := isRead_of_parse hparse
  obtain ⟨cs, hcompiles, hissues, rfl⟩ := Compiler.compile_ok (Prod.ext hcompile rfl)
  have hquoting : List.Forall₂ Quoting fs cs := by
    refine forall₂_of_mem hcompiles fun f hf d hd hfd => ?_
    refine hfd.quoting (fun mapped hmapped => ?_) ((hread f hf).notMem_value rfl rfl)
      fun b hb => ?_
    · have hmem := hpaths mapped (FieldMap.mem_paths_of_get? hmapped)
      cases hanchor : c.anchor with
      | qualified => exact hmem
      | relative loopVar => simp [Anchor.attach, hmem, hloop loopVar hanchor]
    · obtain ⟨i, hi⟩ := hissues.supplied b.name
        (List.mem_map_of_mem (List.mem_filterMap.2 ⟨d, hd, hb⟩))
      exact hi ▸ hnames i
  have hquotes := quotes_text_ofCompiled hquoting
    (map_joiner_of_compiles hcompiles ▸ hsettled ▸ settled_settleJoiners fs)
  exact ⟨⟨_, hquotes.count_eq.trans (Nat.two_mul _)⟩, hquotes.literals_eq⟩

/-- Two list tests, a quoted value, a date and a bare value, which is no literal. -/
theorem literals_compile_five :
    let fs : List Filter := [⟨"tag", .array .has, "red", some .or⟩,
      ⟨"age", .generic .gt, "30", some .and⟩, ⟨"age", .generic .ne, "not yet", some .and⟩,
      ⟨"tag", .array .contains, "or so", some .and⟩, ⟨"day", .date .le, "2020-02-29", none⟩]
    let compiler := Compiler.new (FieldMap.ofList [("tag", "tags"), ("age", "age"), ("day", "at.day")])
      (.relative "doc") (.sequential "tmp")
    let clause : Clause := ⟨[⟨"tmp1", .contains, "doc.tags", "or so"⟩,
        ⟨"tmp0", .has, "doc.tags", "red"⟩],
      [⟨.nonempty "tmp0", some .or⟩, ⟨.compare "doc.age" ">" (.bare "30"), some .and⟩,
        ⟨.compare "doc.age" "!=" (.quoted "not yet"), some .and⟩, ⟨.nonempty "tmp1", some .and⟩,
        ⟨.compare "doc.at.day" "<=" (.date "2020-02-29"), none⟩]⟩
    Filter.parse "tag@==red,age>30;age!=not yet;tag@=~or so;day$<=2020-02-29" = .ok fs ∧
      (compiler.compile fs).1 = .ok clause ∧ Even (clause.text.toList.count '\'') ∧
      literals clause.text = ["or so", "red", "not yet", "2020-02-29"] := by
  intro fs compiler clause
  have hparse : Filter.parse "tag@==red,age>30;age!=not yet;tag@=~or so;day$<=2020-02-29" =
      .ok fs := by decide +kernel
  have hcompile : (compiler.compile fs).1 = .ok clause := by decide +kernel
  have hquote : Filter.isFieldChar '\'' = false := rfl
  have hnames : ∀ i, '\'' ∉ (compiler.names.supply.name i).toList := by
    intro i
    have hname : IsIdentifier (compiler.names.supply.name i) := isIdentifier_sequential (by decide) i
    exact hname.notMem hquote
  obtain ⟨heven, hliterals⟩ := literals_compile hparse (by decide +kernel)
    (fun loopVar h => by cases h; decide) hnames hcompile
  exact ⟨hparse, hcompile, heven, hliterals.trans (by decide +kernel)⟩

end FilterClause
