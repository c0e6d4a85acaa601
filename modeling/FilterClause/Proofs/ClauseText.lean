import FilterClause.Clause.Statement
import FilterClause.Proofs.Compiling
import FilterClause.Proofs.Grouping
import FilterClause.Proofs.Lines
import FilterClause.Proofs.Reading

/-!
# Texts of clauses

What the text of a clause is made of. A statement is the text of a clause that filters were compiled
to (`exists_clause_of_statement`). Its last line is `FILTER` with the expression of the terms, which is
not empty where there is a term (`groupedExpression_ne_empty`); the tokens of an expression bring along
what their terms and joiners do (`flatMap_group`).

Conditions are parts of a line and bindings have no carriage return, if the names, paths and values
in them are parts of a line (`Compiles.isLine`). So the text of a clause is made of its lines
(`Clause.IsLaidOut.intercalate_lines`).
-/

namespace FilterClause

open FilterClause.Filter

/-- The text of a statement is that of a clause made of compiled filters. -/
theorem exists_clause_of_statement {fields : FieldMap} {anchor : Anchor} {fs : List Filter}
    {supply : NameSupply} {text : String}
    (h : (statement fields anchor fs supply).1 = .ok text) :
    ∃ clause, (∃ cs, List.Forall₂ (Compiles anchor fields) fs cs ∧
      Names.Issues ⟨supply, anchor.reserved fields⟩ (bindingNames cs) ∧
        clause = Clause.ofCompiled cs) ∧ clause.text = text := by
  simp only [statement] at h
  cases hcompile : (Compiler.new fields anchor supply).compile fs with
  | mk result after =>
    rw [hcompile] at h
    cases result with
    | error e => cases h
    | ok clause =>
      rw [Except.map, Except.ok.injEq] at h
      exact ⟨clause, Compiler.compile_ok hcompile, h⟩

theorem toList_quote (value : String) : (quote value).toList = '\'' :: (value.toList ++ ['\'']) := by
  rw [quote, String.toList_append, String.toList_append, List.append_assoc]
  rfl

/-! ## Expressions -/

/-- A joiner that is there has effect. -/
theorem joiner_eq_of_isSome {α : Type} {t : Term α} {j : Combinator} (h : t.joiner.isSome = true)
    (heff : t.effectiveJoiner = j) : t.joiner = some j := by
  obtain ⟨k, hk⟩ := Option.isSome_iff_exists.1 h
  rw [Term.effectiveJoiner, hk, Option.getD_some] at heff
  rw [hk, heff]

/-- What the tokens of settled terms bring along: each term its own, and each joiner its own. -/
theorem flatMap_group {α β : Type} {terms : List (Term α)} (h : Settled (terms.map Term.joiner))
    {g : Token α → List β} (hopening : g .opening = []) (hclosing : g .closing = []) :
    (group terms).flatMap g = terms.flatMap fun t =>
      g (.term t.condition) ++ t.joiner.toList.flatMap fun j => g (.joiner j) := by
  have hfrom : ∀ isOpen, (groupFrom isOpen terms).flatMap g = terms.flatMap fun t =>
      g (.term t.condition) ++ t.joiner.toList.flatMap fun j => g (.joiner j) := by
    intro isOpen
    fun_induction groupFrom isOpen terms with
    | case1 => rfl
    | case2 isOpen t =>
      have hnone : t.joiner = none := h
      cases isOpen <;> simp [hnone, hclosing]
    | case3 isOpen t next rest heff ih =>
      obtain ⟨hsome, hrest⟩ := h
      have hjoiner : t.joiner = some .or := joiner_eq_of_isSome hsome heff
      cases isOpen <;> simp [hjoiner, hopening, ih hrest]
    | case4 isOpen t next rest heff ih =>
      obtain ⟨hsome, hrest⟩ := h
      have hjoiner : t.joiner = some .and := joiner_eq_of_isSome hsome heff
      cases isOpen <;> simp [hjoiner, hclosing, ih hrest]
  exact hfrom false

theorem Condition.text_ne_empty (c : Condition) : c.text ≠ "" := by
  intro h
  have hchars := congrArg String.toList h
  cases c with
  | compare path symbol operand =>
    rw [Condition.text, String.toList_append, String.toList_append, String.toList_append] at hchars
    simp at hchars
  | nonempty name =>
    rw [Condition.text, String.toList_append, String.toList_append] at hchars
    simp at hchars

theorem intercalate_ne_empty {parts : List String} {part : String} (h : part ∈ parts)
    (hne : part ≠ "") : " ".intercalate parts ≠ "" := by
  intro hempty
  have hchars := congrArg String.toList hempty
  match parts with
  | [] => cases h
  | [p] =>
    rw [String.intercalate_singleton] at hempty
    exact hne ((List.mem_singleton.1 h).trans hempty)
  | p :: q :: rest =>
    rw [String.intercalate_cons_cons, String.toList_append, String.toList_append] at hchars
    simp at hchars

/-- An expression of conditions is not empty. -/
theorem groupedExpression_ne_empty {terms : List (Term Condition)} (hne : terms ≠ []) :
    groupedExpression (terms.map (Term.map Condition.text)) ≠ "" := by
  obtain ⟨t, rest, rfl⟩ := List.exists_cons_of_ne_nil hne
  have hmem : t.condition.text ∈ groupTexts ((t :: rest).map (Term.map Condition.text)) :=
    List.mem_map_of_mem (term_mem_group.2 ⟨t.map Condition.text, List.mem_cons_self, rfl⟩)
  exact intercalate_ne_empty hmem (Condition.text_ne_empty t.condition)

/-! ## Right-hand sides -/

/-- How an operator that compares writes a value: bare, between quotes, or as a date. -/
inductive Operator.Renders (value : String) : Operator → String → Prop
  | bare {c : Comparison} (hc : c.isRelational = true) : Renders value (.generic c) value
  | quoted {c : Comparison} (hc : c.isRelational = false) : Renders value (.generic c) (quote value)
  | date {c : DateComparison} (hdate : CalendarDate.isDate value = true) :
      Renders value (.date c) ("DATE_ISO8601(" ++ quote value ++ ")")

theorem Operator.renders_of_operandText {op : Operator} {value text : String}
    (h : op.operandText value = .ok text) (hcategory : op.category ≠ .array) :
    op.Renders value text := by
  cases op with
  | generic c =>
    rw [Operator.operandText, Except.ok.injEq, Comparison.operand] at h
    subst h
    by_cases hc : c.isRelational = true
    · rw [if_pos hc]
      exact .bare hc
    · rw [if_neg hc]
      exact .quoted (Bool.eq_false_iff.2 hc)
  | date c =>
    rw [Operator.operandText, dateOperand] at h
    split at h
    · next hdate =>
      rw [Except.map, Except.ok.injEq] at h
      subst h
      exact .date hdate
    · cases h
  | array t => exact absurd rfl hcategory

/-! ## Parts of a line -/

theorem notMem_intercalate {c : Char} {separator : String} {parts : List String}
    (hseparator : c ∉ separator.toList) (h : ∀ part ∈ parts, c ∉ part.toList) :
    c ∉ (separator.intercalate parts).toList := by
  induction parts with
  | nil => simp
  | cons part parts ih =>
    have hpart := h part List.mem_cons_self
    have hrest := ih fun p hp => h p (List.mem_cons_of_mem part hp)
    cases parts with
    | nil =>
      rw [String.intercalate_singleton]
      exact hpart
    | cons next parts =>
      rw [String.intercalate_cons_cons, String.toList_append, String.toList_append, List.mem_append,
        List.mem_append, not_or, not_or]
      exact ⟨⟨hpart, hseparator⟩, hrest⟩

theorem isLine_groupedExpression {terms : List (Term String)} (h : ∀ t ∈ terms, IsLine t.condition) :
    IsLine (groupedExpression terms) := by
  have hparts : ∀ text ∈ groupTexts terms, IsLine text := by
    intro text htext
    obtain ⟨token, htoken, rfl⟩ := List.mem_map.1 htext
    cases token with
    | term c =>
      obtain ⟨t, ht, rfl⟩ := term_mem_group.1 htoken
      exact h t ht
    | opening => exact (by decide : IsLine "(")
    | closing => exact (by decide : IsLine ")")
    | joiner j => cases j <;> exact (by decide)
  exact ⟨notMem_intercalate (by decide) fun p hp => (hparts p hp).1,
    notMem_intercalate (by decide) fun p hp => (hparts p hp).2⟩

theorem filterLine_ne_empty (terms : List (Term String)) : filterLine terms ≠ "" := by
  rw [filterLine]
  split
  · decide
  · intro h
    have hchars := congrArg String.toList h
    rw [String.toList_append] at hchars
    simp at hchars

/-- The last line of a clause is one, if its conditions are parts of a line. -/
theorem isLine_filterLine {terms : List (Term String)} (h : ∀ t ∈ terms, IsLine t.condition) :
    IsLine (filterLine terms) := by
  rw [filterLine]
  split
  · decide
  · rw [isLine_append]
    exact ⟨by decide, isLine_groupedExpression h⟩

theorem isLine_symbol (op : Operator) : IsLine op.symbol :=
  ⟨op.notMem_symbol (by decide), op.notMem_symbol (by decide)⟩

theorem isLine_quote {value : String} (h : IsLine value) : IsLine (quote value) := by
  rw [quote, isLine_append, isLine_append]
  exact ⟨⟨by decide, h⟩, by decide⟩

theorem Operator.Renders.isLine {op : Operator} {value text : String} (h : op.Renders value text)
    (hvalue : IsLine value) : IsLine text := by
  cases h with
  | bare hc => exact hvalue
  | quoted hc => exact isLine_quote hvalue
  | date hdate =>
    rw [isLine_append, isLine_append]
    exact ⟨⟨by decide, isLine_quote hvalue⟩, by decide⟩

/-- The line feeds of a binding are those of its layout, which has no carriage returns. -/
theorem Binding.notMem_text {b : Binding} (hname : IsLine b.name) (hpath : IsLine b.path)
    (hvalue : IsLine b.value) : '\r' ∉ b.text.toList := by
  obtain ⟨name, test, path, value⟩ := b
  have hn : '\r' ∉ name.toList := hname.2
  have hp : '\r' ∉ path.toList := hpath.2
  have hv : '\r' ∉ value.toList := hvalue.2
  cases test with
  | has | lacks | contains => simp [Binding.text, quote, hn, hp, hv]

/-- What a filter becomes: a condition that is part of a line, and a binding without carriage
returns. -/
theorem Compiles.isLine {anchor : Anchor} {fields : FieldMap} {f : Filter} {c : Compiled}
    (h : Compiles anchor fields f c)
    (hpath : ∀ mapped, fields.get? f.field = some mapped → IsLine (anchor.attach mapped))
    (hvalue : IsLine f.value) (hnames : ∀ b ∈ c.binding, IsLine b.name) :
    IsLine c.term.condition.text ∧ ∀ b ∈ c.binding, '\r' ∉ b.text.toList := by
  obtain ⟨l, ⟨rfl, mapped, hmapped, hl⟩, hbecomes⟩ := h
  have hline : IsLine l.path := hl ▸ hpath mapped hmapped
  cases hbecomes with
  | @compare operand hcategory hoperand =>
    refine ⟨?_, fun b hb => nomatch hb⟩
    have hoperand' := (Operator.renders_of_operandText hoperand hcategory).isLine hvalue
    simp only [Condition.text, isLine_append]
    exact ⟨⟨⟨⟨hline, by decide⟩, isLine_symbol _⟩, by decide⟩, hoperand'⟩
  | @test test name hop =>
    have hname : IsLine name := hnames _ rfl
    refine ⟨?_, fun b hb => ?_⟩
    · simp only [Condition.text, isLine_append]
      exact ⟨⟨by decide, hname⟩, by decide⟩
    · obtain rfl := Option.some.inj hb
      exact Binding.notMem_text hname hline hvalue

/-! ## Lines of a clause -/

/-- The conditions of a clause are parts of a line, and its bindings have no carriage returns. -/
structure Clause.IsLaidOut (c : Clause) : Prop where
  conditions : ∀ t ∈ c.terms, IsLine t.condition.text
  bindings : ∀ b ∈ c.bindings, '\r' ∉ b.text.toList

/-- The last line of a clause. -/
def Clause.lastLine (c : Clause) : String :=
  filterLine (c.terms.map (Term.map Condition.text))

theorem Clause.text_eq (c : Clause) :
    c.text = "\n".intercalate (c.bindings.map Binding.text ++ [c.lastLine]) := rfl

/-- The text of a clause ends as its last line does. -/
theorem Clause.exists_toList_text (c : Clause) :
    ∃ before, c.text.toList = before ++ c.lastLine.toList := by
  rw [text_eq]
  by_cases hnil : c.bindings = []
  · rw [hnil, List.map_nil, List.nil_append, String.intercalate_singleton]
    exact ⟨[], rfl⟩
  · rw [toList_intercalate_append (by simpa using hnil)]
    exact ⟨_, List.append_cons _ '\n' _⟩

theorem Clause.toList_lastLine_ne_nil (c : Clause) : c.lastLine.toList ≠ [] :=
  fun hempty => filterLine_ne_empty _ (String.toList_eq_nil_iff.1 hempty)

/-- The text of a clause is not empty, not even that of one without terms. -/
theorem Clause.text_ne_empty (c : Clause) : c.text ≠ "" := by
  obtain ⟨before, htext⟩ := c.exists_toList_text
  intro hempty
  rw [hempty] at htext
  exact c.toList_lastLine_ne_nil (List.append_eq_nil_iff.1 htext.symm).2

theorem Clause.IsLaidOut.lastLine {c : Clause} (h : c.IsLaidOut) : IsLine c.lastLine := by
  refine isLine_filterLine fun t ht => ?_
  obtain ⟨t', ht', rfl⟩ := List.mem_map.1 ht
  exact h.conditions t' ht'

/-- The text of a clause is made of its lines. -/
theorem Clause.IsLaidOut.intercalate_lines {c : Clause} (h : c.IsLaidOut) :
    '\r' ∉ c.text.toList ∧ "\n".intercalate (Text.lines c.text) = c.text := by
  have hreturn : '\r' ∉ c.text.toList := by
    rw [Clause.text_eq]
    refine notMem_intercalate (by decide) fun part hpart => ?_
    rcases List.mem_append.1 hpart with hpart | hpart
    · obtain ⟨b, hb, rfl⟩ := List.mem_map.1 hpart
      exact h.bindings b hb
    · rw [List.mem_singleton.1 hpart]
      exact h.lastLine.2
  obtain ⟨before, htext⟩ := c.exists_toList_text
  refine ⟨hreturn, FilterClause.intercalate_lines hreturn fun hlast => ?_⟩
  rw [htext, List.getLast?_append_of_ne_nil _ c.toList_lastLine_ne_nil] at hlast
  exact h.lastLine.1 (List.mem_of_mem_getLast? hlast)

/-- Compiled filters make a clause that is laid out in lines. -/
theorem isLaidOut_ofCompiled {anchor : Anchor} {fields : FieldMap} {fs : List Filter}
    {cs : List Compiled} (h : List.Forall₂ (Compiles anchor fields) fs cs)
    (hpaths : ∀ f ∈ fs, ∀ mapped, fields.get? f.field = some mapped → IsLine (anchor.attach mapped))
    (hvalues : ∀ f ∈ fs, IsLine f.value) (hnames : ∀ name ∈ bindingNames cs, IsLine name) :
    (Clause.ofCompiled cs).IsLaidOut := by
  have hall : ∀ c ∈ cs, IsLine c.term.condition.text ∧ ∀ b ∈ c.binding, '\r' ∉ b.text.toList := by
    intro c hc
    obtain ⟨f, hf, hfc⟩ := exists_mem_of_forall₂ h hc
    refine hfc.isLine (hpaths f hf) (hvalues f hf) fun b hb => hnames _ ?_
    exact List.mem_map_of_mem (List.mem_filterMap.2 ⟨c, hc, hb⟩)
  constructor
  · intro t ht
    obtain ⟨c, hc, rfl⟩ := List.mem_map.1 ht
    exact (hall c hc).1
  · intro b hb
    obtain ⟨c, hc, hcb⟩ := mem_bindings_ofCompiled.1 hb
    exact (hall c hc).2 b hcb

/-- Values that were read are parts of a line. -/
theorem Filter.isLine_value {f : Filter} (h : f.toPiece.IsRead) : IsLine f.value :=
  ⟨h.notMem_value rfl rfl, h.notMem_value rfl rfl⟩

end FilterClause
