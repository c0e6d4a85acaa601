import FilterClause.Operand
import FilterClause.Proofs.AttributePath
import FilterClause.Proofs.Expression
import Mathlib.Logic.Function.Basic

/-!
# What a clause says

The part of the query language that clauses are written in, with its spelling and its meaning. A
`LET` names the result of a subquery, a list that is empty or not. A subquery asks for membership in
the list at a path, or runs a variable over that list and stops at the first element that passes. A
condition of the filter expression compares the value at a path, or says that a named result is not
empty.

Values are those of an arbitrary `Interpretation`. A name may be declared once only, and a path can
be followed only from a variable that holds a value; where a fragment breaks these rules it has no
meaning (`none`, or no derivation of `Runs` and `Holds`).

Texts are read by their spelling: a text means what the syntax that spells it means. Names are
identifiers and paths are dotted, so a text has one reading at most (`Let.text_injective`,
`Holds.unique`), whatever characters the quoted values have.
-/

namespace FilterClause.Query

/-! ## Values and environments -/

/-- How values behave: attributes, list elements, text literals, the two functions that substring
tests call, and comparisons with a spelled right-hand side. -/
structure Interpretation (V : Type) where
  get : V → String → V
  elements : V → List V
  text : String → V
  lower : V → V
  contains : V → V → Bool
  compares : V → String → String → Bool

/-- What a variable stands for: a value, or the result of a subquery. -/
inductive Bound (V : Type)
  | value (v : V)
  | results (ones : List Nat)

/-- The variables in scope. -/
abbrev Env (V : Type) := String → Option (Bound V)

/-- The scope in which the given variables hold values, and no other is declared. -/
def Env.ofRoots {V : Type} (roots : List String) (assign : String → V) : Env V :=
  fun name => if name ∈ roots then some (.value (assign name)) else none

/-- The scope with one more variable. -/
def Env.bind {V : Type} (env : Env V) (name : String) (b : Bound V) : Env V :=
  Function.update env name (some b)

variable {V : Type}

/-- The value that attributes lead to. -/
def Interpretation.follow (I : Interpretation V) (v : V) (attributes : List String) : V :=
  attributes.foldl I.get v

/-- The value at a path; its first step must be a variable that holds a value. -/
def Env.valueAt (I : Interpretation V) (env : Env V) (path : String) : Option V :=
  match steps path with
  | [] => none
  | root :: attributes =>
    match env root with
    | some (.value v) => some (I.follow v attributes)
    | _ => none

/-! ## Subqueries -/

/-- The condition of a subquery. -/
inductive Test
  | isIn (value path : String)
  | notIn (value path : String)
  | hasPart (name value : String)
  deriving DecidableEq, Repr

/-- The spelling of a test. -/
def Test.text : Test → String
  | .isIn value path => "'" ++ value ++ "' IN " ++ path ++ "[*]"
  | .notIn value path => "'" ++ value ++ "' NOT IN " ++ path ++ "[*]"
  | .hasPart name value => "CONTAINS(LOWER(" ++ name ++ "), LOWER('" ++ value ++ "'))"

/-- Names are identifiers and paths are dotted. -/
def Test.WellFormed : Test → Prop
  | .isIn _ path | .notIn _ path => IsDottedPath path
  | .hasPart name _ => IsIdentifier name

/-- The outcome of a test: membership, its negation, or containment in any letter case. -/
def Test.holds [DecidableEq V] (I : Interpretation V) (env : Env V) : Test → Option Bool
  | .isIn value path => (env.valueAt I path).map fun v => I.text value ∈ I.elements v
  | .notIn value path => (env.valueAt I path).map fun v => I.text value ∉ I.elements v
  | .hasPart name value =>
    match env name with
    | some (.value v) => some (I.contains (I.lower v) (I.lower (I.text value)))
    | _ => none

/-- A query inside a `LET`. -/
inductive Subquery
  | filter (test : Test)
  | search (name path : String) (test : Test)
  deriving DecidableEq, Repr

/-- The spelling of a subquery. -/
def Subquery.text : Subquery → String
  | .filter test => "    FILTER " ++ test.text ++ "\n    RETURN 1\n"
  | .search name path test =>
    "    FOR " ++ name ++ " IN " ++ path ++ "[*]\n        FILTER " ++ test.text ++
      "\n        LIMIT 1\n        RETURN 1\n"

/-- Names are identifiers and paths are dotted. -/
def Subquery.WellFormed : Subquery → Prop
  | .filter test => test.WellFormed
  | .search name path test => IsIdentifier name ∧ IsDottedPath path ∧ test.WellFormed

/-- The list that a subquery returns: a one if the test holds, or for the first element of the list
for which it holds. -/
def Subquery.results [DecidableEq V] (I : Interpretation V) (env : Env V) :
    Subquery → Option (List Nat)
  | .filter test => (test.holds I env).map fun b => if b then [1] else []
  | .search name path test =>
    match env name with
    | some _ => none
    | none => do
      let v ← env.valueAt I path
      let outcomes ← (I.elements v).mapM fun e => test.holds I (env.bind name (.value e))
      return ((outcomes.filter id).map fun _ => 1).take 1

/-! ## Bindings -/

/-- A name for the result of a subquery. -/
structure Let where
  name : String
  subquery : Subquery
  deriving DecidableEq, Repr

/-- The spelling of a binding. -/
def Let.text (l : Let) : String :=
  "LET " ++ l.name ++ " = (\n" ++ l.subquery.text ++ ")"

/-- Names are identifiers and paths are dotted. -/
def Let.WellFormed (l : Let) : Prop :=
  IsIdentifier l.name ∧ l.subquery.WellFormed

/-- Texts of bindings, evaluated from the first to the last, lead from one scope to another. -/
inductive Runs [DecidableEq V] (I : Interpretation V) : List String → Env V → Env V → Prop
  | nil (env : Env V) : Runs I [] env env
  | cons {text : String} {texts : List String} {env env' : Env V} {ones : List Nat} (l : Let)
      (hform : l.WellFormed) (htext : l.text = text) (hnew : env l.name = none)
      (hresults : l.subquery.results I env = some ones)
      (hrest : Runs I texts (env.bind l.name (.results ones)) env') :
      Runs I (text :: texts) env env'

/-! ## Conditions -/

/-- The text is a condition that has the given outcome: a comparison of the value at a path, or the
statement that a named result is not empty. -/
inductive Holds (I : Interpretation V) (env : Env V) : String → Bool → Prop
  | compare {text path symbol operand : String} {v : V} (hpath : IsDottedPath path)
      (hsymbol : ' ' ∉ symbol.toList) (htext : path ++ " " ++ symbol ++ " " ++ operand = text)
      (hvalue : env.valueAt I path = some v) : Holds I env text (I.compares v symbol operand)
  | nonempty {text name : String} {ones : List Nat} (hname : IsIdentifier name)
      (htext : "LENGTH(" ++ name ++ ") > 0" = text) (hresults : env name = some (.results ones)) :
      Holds I env text (0 < ones.length)

/-- The texts of bindings and the words of a filter expression say whether a document passes: the
bindings run, and the expression has the given value in the scope that they leave. -/
def Passes [DecidableEq V] (I : Interpretation V) (env : Env V) (bindings words : List String)
    (b : Bool) : Prop :=
  ∃ env' e assign, Runs I bindings env env' ∧ Reads .expression (words.map Token.ofText) e ∧
    (∀ c ∈ e.terms, Holds I env' c (assign c)) ∧ e.value assign = b

/-! ## Readings are unique -/

/-- What stands before the first occurrence of a character is determined. -/
theorem eq_of_append_eq {c : Char} {xs ys r s : List Char} (hx : c ∉ xs) (hy : c ∉ ys)
    (hr : r.head? = some c) (hs : s.head? = some c) (h : xs ++ r = ys ++ s) : xs = ys ∧ r = s := by
  induction xs generalizing ys with
  | nil =>
    cases ys with
    | nil => exact ⟨rfl, h⟩
    | cons y ys =>
      rw [List.nil_append] at h
      rw [h, List.cons_append, List.head?_cons, Option.some.injEq] at hr
      exact absurd (hr ▸ List.mem_cons_self) hy
  | cons x xs ih =>
    rw [List.mem_cons, not_or] at hx
    cases ys with
    | nil =>
      rw [List.nil_append] at h
      rw [← h, List.cons_append, List.head?_cons, Option.some.injEq] at hs
      exact absurd hs.symm hx.1
    | cons y ys =>
      rw [List.mem_cons, not_or] at hy
      rw [List.cons_append, List.cons_append, List.cons.injEq] at h
      obtain ⟨rfl, rfl⟩ := ih hx.2 hy.2 h.2
      exact ⟨by rw [h.1], rfl⟩

/-- What stands after the last occurrence of a character is determined. -/
theorem eq_of_append_eq_right {c : Char} {xs ys r s : List Char} (hr : c ∉ r) (hs : c ∉ s)
    (hx : xs.getLast? = some c) (hy : ys.getLast? = some c) (h : xs ++ r = ys ++ s) :
    xs = ys ∧ r = s := by
  have hrev := congrArg List.reverse h
  rw [List.reverse_append, List.reverse_append] at hrev
  obtain ⟨h₁, h₂⟩ := eq_of_append_eq (by rwa [List.mem_reverse]) (by rwa [List.mem_reverse])
    (by rwa [List.head?_reverse]) (by rwa [List.head?_reverse]) hrev
  exact ⟨List.reverse_injective h₂, List.reverse_injective h₁⟩

/-- The path of a membership test is what stands after the last blank. -/
theorem eq_of_membership_eq {v w p q : String} {mid mid' : List Char} (hp : IsDottedPath p)
    (hq : IsDottedPath q) (hmid : mid.getLast? = some ' ') (hmid' : mid'.getLast? = some ' ')
    (h : ['\''] ++ v.toList ++ mid ++ p.toList ++ ['[', '*', ']'] =
      ['\''] ++ w.toList ++ mid' ++ q.toList ++ ['[', '*', ']']) :
    v.toList ++ mid = w.toList ++ mid' ∧ p = q := by
  have hlast : ∀ (xs : List Char) {ys : List Char}, ys.getLast? = some ' ' →
      (['\''] ++ xs ++ ys).getLast? = some ' ' := by
    intro xs ys hys
    rw [List.getLast?_append, hys, Option.some_or]
  obtain ⟨h₁, h₂⟩ := eq_of_append_eq_right (hp.notMem rfl (by decide)) (hq.notMem rfl (by decide))
    (hlast _ hmid) (hlast _ hmid') (List.append_cancel_right h)
  rw [List.append_assoc, List.append_assoc] at h₁
  exact ⟨List.append_cancel_left h₁, String.toList_inj.1 h₂⟩

/-! The characters of the spellings. -/

theorem Test.toList_isIn (v p : String) : (Test.isIn v p).text.toList =
    ['\''] ++ v.toList ++ ['\'', ' ', 'I', 'N', ' '] ++ p.toList ++ ['[', '*', ']'] := by
  show ("'" ++ v ++ "' IN " ++ p ++ "[*]").toList = _
  simp only [String.toList_append, String.reduceToList]

theorem Test.toList_notIn (v p : String) : (Test.notIn v p).text.toList =
    ['\''] ++ v.toList ++ ['\'', ' ', 'N', 'O', 'T', ' ', 'I', 'N', ' '] ++ p.toList ++
      ['[', '*', ']'] := by
  show ("'" ++ v ++ "' NOT IN " ++ p ++ "[*]").toList = _
  simp only [String.toList_append, String.reduceToList]

theorem Test.toList_hasPart (x v : String) : (Test.hasPart x v).text.toList =
    "CONTAINS(LOWER(".toList ++ (x.toList ++ ("), LOWER('".toList ++ (v.toList ++
      "'))".toList))) := by
  show ("CONTAINS(LOWER(" ++ x ++ "), LOWER('" ++ v ++ "'))").toList = _
  simp only [String.toList_append, List.append_assoc]

theorem Subquery.toList_filter (t : Test) : (Subquery.filter t).text.toList =
    "    FILTER ".toList ++ (t.text.toList ++ "\n    RETURN 1\n".toList) := by
  show ("    FILTER " ++ t.text ++ "\n    RETURN 1\n").toList = _
  simp only [String.toList_append, List.append_assoc]

theorem Subquery.toList_search (x p : String) (t : Test) : (Subquery.search x p t).text.toList =
    "    FOR ".toList ++ (x.toList ++ (" IN ".toList ++ (p.toList ++
      ("[*]\n        FILTER ".toList ++ (t.text.toList ++
        "\n        LIMIT 1\n        RETURN 1\n".toList))))) := by
  show ("    FOR " ++ x ++ " IN " ++ p ++ "[*]\n        FILTER " ++ t.text ++
      "\n        LIMIT 1\n        RETURN 1\n").toList = _
  simp only [String.toList_append, List.append_assoc]

theorem Let.toList_text (l : Let) : l.text.toList =
    "LET ".toList ++ (l.name.toList ++ (" = (\n".toList ++ (l.subquery.text.toList ++
      ")".toList))) := by
  show ("LET " ++ l.name ++ " = (\n" ++ l.subquery.text ++ ")").toList = _
  simp only [String.toList_append, List.append_assoc]

theorem Test.text_injective {t u : Test} (ht : t.WellFormed) (hu : u.WellFormed)
    (h : t.text = u.text) : t = u := by
  have hchars := congrArg String.toList h
  cases t with
  | isIn v p =>
    have hp : IsDottedPath p := ht
    cases u with
    | isIn w q =>
      have hq : IsDottedPath q := hu
      rw [Test.toList_isIn, Test.toList_isIn] at hchars
      obtain ⟨hv, rfl⟩ := eq_of_membership_eq hp hq rfl rfl hchars
      rw [String.toList_inj.1 (List.append_cancel_right hv)]
    | notIn w q =>
      have hq : IsDottedPath q := hu
      rw [Test.toList_isIn, Test.toList_notIn] at hchars
      -- one literal would end in a quote, the other one in `NOT`
      have hrev := congrArg List.reverse (eq_of_membership_eq hp hq rfl rfl hchars).1
      simp at hrev
    | hasPart y w =>
      rw [Test.toList_isIn, Test.toList_hasPart] at hchars
      simp at hchars
  | notIn v p =>
    have hp : IsDottedPath p := ht
    cases u with
    | isIn w q =>
      have hq : IsDottedPath q := hu
      rw [Test.toList_notIn, Test.toList_isIn] at hchars
      have hrev := congrArg List.reverse (eq_of_membership_eq hp hq rfl rfl hchars).1
      simp at hrev
    | notIn w q =>
      have hq : IsDottedPath q := hu
      rw [Test.toList_notIn, Test.toList_notIn] at hchars
      obtain ⟨hv, rfl⟩ := eq_of_membership_eq hp hq rfl rfl hchars
      rw [String.toList_inj.1 (List.append_cancel_right hv)]
    | hasPart y w =>
      rw [Test.toList_notIn, Test.toList_hasPart] at hchars
      simp at hchars
  | hasPart x v =>
    have hx : IsIdentifier x := ht
    cases u with
    | isIn w q =>
      rw [Test.toList_hasPart, Test.toList_isIn] at hchars
      simp at hchars
    | notIn w q =>
      rw [Test.toList_hasPart, Test.toList_notIn] at hchars
      simp at hchars
    | hasPart y w =>
      have hy : IsIdentifier y := hu
      rw [Test.toList_hasPart, Test.toList_hasPart] at hchars
      obtain ⟨hxy, hvw⟩ := eq_of_append_eq (hx.notMem (c := ')') rfl) (hy.notMem rfl) rfl rfl
        (List.append_cancel_left hchars)
      rw [String.toList_inj.1 hxy,
        String.toList_inj.1 (List.append_cancel_right (List.append_cancel_left hvw))]

theorem Subquery.text_injective {s t : Subquery} (hs : s.WellFormed) (ht : t.WellFormed)
    (h : s.text = t.text) : s = t := by
  have hchars := congrArg String.toList h
  -- the keyword decides between the two forms
  cases s with
  | filter test =>
    cases t with
    | filter test' =>
      rw [Subquery.toList_filter, Subquery.toList_filter] at hchars
      have htests := List.append_cancel_right (List.append_cancel_left hchars)
      rw [Test.text_injective hs ht (String.toList_inj.1 htests)]
    | search y q test' =>
      rw [Subquery.toList_filter, Subquery.toList_search] at hchars
      simp at hchars
  | search x p test =>
    cases t with
    | filter test' =>
      rw [Subquery.toList_search, Subquery.toList_filter] at hchars
      simp at hchars
    | search y q test' =>
      obtain ⟨hx, hp, htest⟩ := hs
      obtain ⟨hy, hq, htest'⟩ := ht
      rw [Subquery.toList_search, Subquery.toList_search] at hchars
      obtain ⟨hxy, hrest⟩ := eq_of_append_eq (hx.notMem (c := ' ') rfl) (hy.notMem rfl) rfl rfl
        (List.append_cancel_left hchars)
      obtain ⟨hpq, hrest⟩ := eq_of_append_eq (hp.notMem (c := '[') rfl (by decide))
        (hq.notMem rfl (by decide)) rfl rfl (List.append_cancel_left hrest)
      have htests := List.append_cancel_right (List.append_cancel_left hrest)
      rw [String.toList_inj.1 hxy, String.toList_inj.1 hpq,
        Test.text_injective htest htest' (String.toList_inj.1 htests)]

/-- A text spells one binding at most. -/
theorem Let.text_injective {l m : Let} (hl : l.WellFormed) (hm : m.WellFormed)
    (h : l.text = m.text) : l = m := by
  have hchars := congrArg String.toList h
  rw [Let.toList_text, Let.toList_text] at hchars
  obtain ⟨hname, hrest⟩ := eq_of_append_eq (hl.1.notMem (c := ' ') rfl) (hm.1.notMem rfl) rfl rfl
    (List.append_cancel_left hchars)
  have hsub := List.append_cancel_right (List.append_cancel_left hrest)
  cases l
  cases m
  rw [Let.mk.injEq]
  exact ⟨String.toList_inj.1 hname,
    Subquery.text_injective hl.2 hm.2 (String.toList_inj.1 hsub)⟩

/-! ## Outcomes are unique -/

variable [DecidableEq V] {I : Interpretation V}

/-- Bindings lead to one scope at most. -/
theorem Runs.unique {texts : List String} {env env₁ env₂ : Env V} (h₁ : Runs I texts env env₁)
    (h₂ : Runs I texts env env₂) : env₁ = env₂ := by
  induction h₁ with
  | nil env =>
    cases h₂
    rfl
  | cons l hform htext hnew hresults hrest ih =>
    cases h₂ with
    | cons m hform' htext' hnew' hresults' hrest' =>
      obtain rfl := Let.text_injective hform hform' (htext.trans htext'.symm)
      rw [hresults, Option.some.injEq] at hresults'
      subst hresults'
      exact ih hrest'

/-- A comparison does not start like the statement that a result is not empty. -/
theorem compare_text_ne {path symbol operand name : String} (hpath : IsDottedPath path)
    (hname : IsIdentifier name) :
    path ++ " " ++ symbol ++ " " ++ operand ≠ "LENGTH(" ++ name ++ ") > 0" := by
  intro h
  have hchars := congrArg String.toList h
  simp only [String.toList_append, String.reduceToList, List.append_assoc] at hchars
  -- before the first blank one text has a parenthesis, the other a path
  have hblank : ' ' ∉ "LENGTH(".toList ++ name.toList ++ [')'] := by
    have := hname.notMem (c := ' ') rfl
    simpa using this
  have hsplit : path.toList ++ ([' '] ++ (symbol.toList ++ ([' '] ++ operand.toList))) =
      "LENGTH(".toList ++ name.toList ++ [')'] ++ " > 0".toList := by
    rw [hchars]
    simp
  obtain ⟨hp, -⟩ := eq_of_append_eq (hpath.notMem rfl (by decide)) hblank rfl rfl hsplit
  exact hpath.notMem (c := '(') rfl (by decide) (by simp [hp])

omit [DecidableEq V] in
/-- A condition has one outcome at most. -/
theorem Holds.unique {env : Env V} {text : String} {a b : Bool} (ha : Holds I env text a)
    (hb : Holds I env text b) : a = b := by
  cases ha with
  | @compare p symbol operand v hp hsymbol htext hv =>
    cases hb with
    | @compare q symbol' operand' w hq hsymbol' htext' hw =>
      have hchars := congrArg String.toList (htext.trans htext'.symm)
      simp only [String.toList_append, String.reduceToList, List.append_assoc] at hchars
      obtain ⟨hpq, hrest⟩ := eq_of_append_eq (hp.notMem (c := ' ') rfl (by decide))
        (hq.notMem rfl (by decide)) rfl rfl hchars
      obtain ⟨hs, hrest⟩ := eq_of_append_eq hsymbol hsymbol' rfl rfl (List.append_cancel_left hrest)
      obtain rfl := String.toList_inj.1 hpq
      rw [hv, Option.some.injEq] at hw
      rw [hw, String.toList_inj.1 hs, String.toList_inj.1 (List.append_cancel_left hrest)]
    | nonempty hname htext' hones => exact absurd (htext.trans htext'.symm) (compare_text_ne hp hname)
  | @nonempty name ones hname htext hones =>
    cases hb with
    | compare hq hsymbol' htext' hw => exact absurd (htext'.trans htext.symm) (compare_text_ne hq hname)
    | @nonempty name' ones' hname' htext' hones' =>
      have h := htext.trans htext'.symm
      rw [String.append_left_inj, String.append_right_inj] at h
      subst h
      rw [hones, Option.some.injEq, Bound.results.injEq] at hones'
      rw [hones']

/-- A fragment says one thing at most. -/
theorem Passes.unique {env : Env V} {bindings words : List String} {a b : Bool}
    (ha : Passes I env bindings words a) (hb : Passes I env bindings words b) : a = b := by
  obtain ⟨env₁, e, assign, hrun, hread, hholds, rfl⟩ := ha
  obtain ⟨env₂, f, assign', hrun', hread', hholds', rfl⟩ := hb
  obtain rfl := hrun.unique hrun'
  obtain rfl := hread.unique hread'
  exact Expression.value_congr fun c hc => (hholds c hc).unique (hholds' c hc)

end FilterClause.Query
