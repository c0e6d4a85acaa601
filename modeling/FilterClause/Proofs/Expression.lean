import FilterClause.Clause.Grouping

/-!
# Boolean expressions

The grammar that the tokens of a grouped expression are read by. Parentheses bind tightest, and `AND`
binds tighter than `OR`:

* `expression  = conjunction (OR conjunction)*`
* `conjunction = primary (AND primary)*`
* `primary     = term | ( expression )`

`Reads` relates tokens to the expression they spell. A token list spells one expression at most
(`Reads.unique`): a reading cannot stop early, because what follows it cannot go on with it.
-/

namespace FilterClause

/-- A boolean expression over terms. -/
inductive Expression (α : Type)
  | term (condition : α)
  | and (left right : Expression α)
  | or (left right : Expression α)
  deriving DecidableEq, Repr

namespace Expression

variable {α : Type}

/-- The value of an expression whose terms have the given values. -/
def value (assign : α → Bool) : Expression α → Bool
  | .term c => assign c
  | .and e f => e.value assign && f.value assign
  | .or e f => e.value assign || f.value assign

/-- The terms of an expression, from left to right. -/
def terms : Expression α → List α
  | .term c => [c]
  | .and e f => e.terms ++ f.terms
  | .or e f => e.terms ++ f.terms

/-- The value depends only on the values of the terms that occur. -/
theorem value_congr {assign assign' : α → Bool} {e : Expression α}
    (h : ∀ c ∈ e.terms, assign c = assign' c) : e.value assign = e.value assign' := by
  induction e with
  | term c => exact h c (List.mem_singleton_self c)
  | and e f ihe ihf | or e f ihe ihf =>
    simp only [terms, List.mem_append] at h
    rw [value, value, ihe fun c hc => h c (Or.inl hc), ihf fun c hc => h c (Or.inr hc)]

end Expression

/-- The three kinds of phrase of the grammar. -/
inductive Rank
  | primary
  | conjunction
  | expression
  deriving DecidableEq, Repr

/-- The tokens are a phrase of the given rank that spells the expression. -/
inductive Reads {α : Type} : Rank → List (Token α) → Expression α → Prop
  | term (c : α) : Reads .primary [.term c] (.term c)
  | parens {ts : List (Token α)} {e : Expression α} (h : Reads .expression ts e) :
      Reads .primary (.opening :: (ts ++ [.closing])) e
  | primary {ts : List (Token α)} {e : Expression α} (h : Reads .primary ts e) :
      Reads .conjunction ts e
  | and {ts us : List (Token α)} {e f : Expression α} (he : Reads .primary ts e)
      (hf : Reads .conjunction us f) : Reads .conjunction (ts ++ .joiner .and :: us) (.and e f)
  | conjunction {ts : List (Token α)} {e : Expression α} (h : Reads .conjunction ts e) :
      Reads .expression ts e
  | or {ts us : List (Token α)} {e f : Expression α} (he : Reads .conjunction ts e)
      (hf : Reads .expression us f) : Reads .expression (ts ++ .joiner .or :: us) (.or e f)

namespace Reads

variable {α : Type}

/-- The terms of the expression are the terms among the tokens. -/
theorem mem_terms {rank : Rank} {ts : List (Token α)} {e : Expression α} (h : Reads rank ts e)
    {c : α} : c ∈ e.terms ↔ .term c ∈ ts := by
  induction h with
  | term c' => simp [Expression.terms]
  | parens h ih => simp [ih]
  | primary h ih | conjunction h ih => exact ih
  | and he hf ihe ihf | or he hf ihe ihf => simp [Expression.terms, ihe, ihf]

/-- What stands after a phrase does not go on with it. -/
def Ends : Rank → List (Token α) → Prop
  | .primary, _ => True
  | .conjunction, rest => rest.head? ≠ some (.joiner .and)
  | .expression, rest => ∀ c, rest.head? ≠ some (.joiner c)

/-- Two phrases of one rank at the head of the same tokens are the same phrase, if neither goes on
behind its end. -/
theorem prefix_unique {rank : Rank} {ts us rest rest' : List (Token α)} {e f : Expression α}
    (h : Reads rank ts e) (h' : Reads rank us f) (heq : ts ++ rest = us ++ rest')
    (hend : Ends rank rest) (hend' : Ends rank rest') : ts = us ∧ e = f := by
  -- rule by rule: where the readings differ, one stops before a token that goes on with it
  induction h generalizing us f rest rest' with
  | term c =>
    cases h' with
    | term c' =>
      simp only [List.cons_append, List.cons.injEq, Token.term.injEq] at heq
      rw [heq.1]
      exact ⟨rfl, rfl⟩
    | parens h' => simp at heq
  | @parens ts e h ih =>
    cases h' with
    | term c' => simp at heq
    | @parens us f h' =>
      simp only [List.cons_append, List.append_assoc, List.cons.injEq, true_and] at heq
      -- inside the parentheses both expressions end before the closing one
      have hclosing : ∀ rest : List (Token α), Ends .expression (.closing :: rest) := by
        intro rest c
        simp
      obtain ⟨rfl, rfl⟩ := ih h' heq (hclosing rest) (hclosing rest')
      exact ⟨rfl, rfl⟩
  | primary h ih =>
    cases h' with
    | primary h' => exact ih h' heq trivial trivial
    | @and us₁ us₂ f₁ f₂ h₁ h₂ =>
      -- the first phrase would end right before an `AND`
      rw [List.append_assoc] at heq
      obtain ⟨rfl, -⟩ := ih h₁ heq trivial trivial
      rw [List.append_cancel_left heq] at hend
      exact absurd rfl hend
  | @and ts₁ ts₂ e₁ e₂ h₁ h₂ ih₁ ih₂ =>
    rw [List.append_assoc] at heq
    cases h' with
    | primary h' =>
      obtain ⟨rfl, -⟩ := ih₁ h' heq trivial trivial
      rw [← List.append_cancel_left heq] at hend'
      exact absurd rfl hend'
    | @and us₁ us₂ f₁ f₂ h₁' h₂' =>
      rw [List.append_assoc] at heq
      obtain ⟨rfl, rfl⟩ := ih₁ h₁' heq trivial trivial
      have htail := List.append_cancel_left heq
      simp only [List.cons_append, List.cons.injEq, true_and] at htail
      obtain ⟨rfl, rfl⟩ := ih₂ h₂' htail hend hend'
      exact ⟨rfl, rfl⟩
  | conjunction h ih =>
    cases h' with
    | conjunction h' => exact ih h' heq (hend .and) (hend' .and)
    | @or us₁ us₂ f₁ f₂ h₁ h₂ =>
      rw [List.append_assoc] at heq
      obtain ⟨rfl, -⟩ := ih h₁ heq (hend .and) (by simp [Ends])
      rw [List.append_cancel_left heq] at hend
      exact absurd rfl (hend .or)
  | @or ts₁ ts₂ e₁ e₂ h₁ h₂ ih₁ ih₂ =>
    rw [List.append_assoc] at heq
    cases h' with
    | conjunction h' =>
      obtain ⟨rfl, -⟩ := ih₁ h' heq (by simp [Ends]) (hend' .and)
      rw [← List.append_cancel_left heq] at hend'
      exact absurd rfl (hend' .or)
    | @or us₁ us₂ f₁ f₂ h₁' h₂' =>
      rw [List.append_assoc] at heq
      obtain ⟨rfl, rfl⟩ := ih₁ h₁' heq (by simp [Ends]) (by simp [Ends])
      have htail := List.append_cancel_left heq
      simp only [List.cons_append, List.cons.injEq, true_and] at htail
      obtain ⟨rfl, rfl⟩ := ih₂ h₂' htail hend hend'
      exact ⟨rfl, rfl⟩

/-- Tokens spell one expression at most. -/
theorem unique {ts : List (Token α)} {e f : Expression α} (h : Reads .expression ts e)
    (h' : Reads .expression ts f) : e = f := by
  have hend : Ends .expression ([] : List (Token α)) := by simp [Ends]
  exact (h.prefix_unique h' rfl hend hend).2

end Reads

/-! ## Words as tokens -/

/-- The words that are tokens of their own and so cannot spell a term. -/
def reservedWords : List String := ["(", ")", "AND", "OR"]

/-- A word with a blank in it is not reserved. -/
theorem notMem_reservedWords {word : String} (h : ' ' ∈ word.toList) : word ∉ reservedWords := by
  have hwords : ∀ w ∈ reservedWords, ' ' ∉ w.toList := by decide
  exact fun hmem => hwords word hmem h

/-- The token that a word stands for. -/
def Token.ofText (word : String) : Token String :=
  if word = "(" then .opening
  else if word = ")" then .closing
  else if word = "AND" then .joiner .and
  else if word = "OR" then .joiner .or
  else .term word

/-- A word that is not reserved is read as a term. -/
theorem Token.ofText_of_not_reserved {word : String} (h : word ∉ reservedWords) :
    Token.ofText word = .term word := by
  simp only [reservedWords, List.mem_cons, List.not_mem_nil, or_false, not_or] at h
  rw [Token.ofText, if_neg h.1, if_neg h.2.1, if_neg h.2.2.1, if_neg h.2.2.2]

/-- A token whose term, if it is one, is not reserved is read back from its spelling. -/
theorem Token.ofText_text {t : Token String} (h : ∀ c, t = .term c → c ∉ reservedWords) :
    Token.ofText t.text = t := by
  cases t with
  | term c => exact Token.ofText_of_not_reserved (h c rfl)
  | opening | closing => rfl
  | joiner c => cases c <;> rfl

end FilterClause
