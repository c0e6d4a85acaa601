import FilterClause.Clause.Compiler
import FilterClause.Filter.Grammar
import Mathlib.Data.List.Basic

/-!
# Identifiers and attribute paths

An identifier is a letter or `_` with letters, digits and `_` after it, and a dotted path is a list of
identifiers with dots between them: a variable and the attributes that lead on from it. A dotted path
starts from its first step (`steps_eq_cons`), and putting a variable in front of it gives a dotted
path again (`steps_attach`).
-/

namespace FilterClause

/-- The characters of an identifier: no digit comes first. -/
def isIdentifier : List Char → Bool
  | [] => false
  | c :: cs => !c.isDigit && Filter.isFieldChar c && cs.all Filter.isFieldChar

/-- A text that is a name of the query language. -/
def IsIdentifier (name : String) : Prop :=
  isIdentifier name.toList = true

instance (name : String) : Decidable (IsIdentifier name) :=
  inferInstanceAs (Decidable (_ = true))

/-- The names that dots separate in a path. -/
def steps (path : String) : List String :=
  (path.toList.splitOn '.').map String.ofList

/-- Identifiers with dots between them. -/
def IsDottedPath (path : String) : Prop :=
  ∀ step ∈ steps path, IsIdentifier step

instance (path : String) : Decidable (IsDottedPath path) :=
  inferInstanceAs (Decidable (∀ step ∈ steps path, IsIdentifier step))

/-! ## Characters -/

theorem IsIdentifier.isFieldChar {name : String} (h : IsIdentifier name) {c : Char}
    (hc : c ∈ name.toList) : Filter.isFieldChar c = true := by
  rw [IsIdentifier] at h
  cases hname : name.toList with
  | nil => simp [hname] at hc
  | cons d ds =>
    simp only [hname, isIdentifier, Bool.and_eq_true, List.all_eq_true] at h
    rcases List.mem_cons.1 (hname ▸ hc) with rfl | hc
    · exact h.1.2
    · exact h.2 c hc

/-- A character outside the class of names is not in an identifier. -/
theorem IsIdentifier.notMem {name : String} (h : IsIdentifier name) {c : Char}
    (hc : Filter.isFieldChar c = false) : c ∉ name.toList := by
  intro hmem
  rw [h.isFieldChar hmem] at hc
  exact Bool.noConfusion hc

/-- Letters, digits and `_` can go on with an identifier. -/
theorem IsIdentifier.append {name rest : String} (h : IsIdentifier name)
    (hrest : ∀ c ∈ rest.toList, Filter.isFieldChar c = true) : IsIdentifier (name ++ rest) := by
  rw [IsIdentifier] at h ⊢
  rw [String.toList_append]
  cases hname : name.toList with
  | nil => simp [hname, isIdentifier] at h
  | cons c cs =>
    rw [hname, isIdentifier] at h
    have hall : rest.toList.all Filter.isFieldChar = true := List.all_eq_true.2 hrest
    rw [List.cons_append, isIdentifier, List.all_append, hall, Bool.and_true, h]

/-- A number behind an identifier gives an identifier again. -/
theorem isIdentifier_sequential {stem : String} (h : IsIdentifier stem) (i : ℕ) :
    IsIdentifier ((NameSupply.sequential stem).name i) := by
  refine h.append fun c hc => ?_
  rw [Nat.toString_eq_repr, Nat.toList_repr] at hc
  have hdigit := Nat.isDigit_of_mem_toDigits (by decide) (by decide) hc
  rw [Filter.isFieldChar, Char.isAlphanum, hdigit, Bool.or_true, Bool.true_or]

theorem randomLetter_mem_letters (seed : UInt64) (place : ℕ) :
    NameSupply.randomLetter seed place ∈ NameSupply.letters := by
  have hmem : ∀ n, NameSupply.letters.getD (n % NameSupply.letters.length) 'a' ∈
      NameSupply.letters := by
    intro n
    have hlt : n % NameSupply.letters.length < NameSupply.letters.length :=
      Nat.mod_lt n (by decide)
    rw [List.getD_eq_getElem?_getD, List.getElem?_eq_getElem hlt, Option.getD_some]
    exact List.getElem_mem hlt
  exact hmem _

/-- A random name is made of letters. -/
theorem isIdentifier_random (seed : UInt64) (i : ℕ) :
    IsIdentifier ((NameSupply.random seed).name i) := by
  have hall : NameSupply.letters.all (fun c => !c.isDigit && Filter.isFieldChar c) = true := by
    decide
  have hletters : ∀ c ∈ NameSupply.letters, c.isDigit = false ∧ Filter.isFieldChar c = true := by
    simpa using hall
  have hname : ∀ cs : List Char, cs ≠ [] → (∀ c ∈ cs, c ∈ NameSupply.letters) →
      isIdentifier cs = true := by
    intro cs hne hcs
    obtain ⟨c, rest, rfl⟩ := List.exists_cons_of_ne_nil hne
    obtain ⟨hc, hrest⟩ := List.forall_mem_cons.1 hcs
    rw [isIdentifier, (hletters c hc).1, (hletters c hc).2,
      List.all_eq_true.2 fun d hd => (hletters d (hrest d hd)).2]
    rfl
  rw [IsIdentifier, NameSupply.random, String.toList_ofList]
  refine hname _ (by simp [NameSupply.randomLength]) fun c hc => ?_
  obtain ⟨place, -, rfl⟩ := List.mem_map.1 hc
  exact randomLetter_mem_letters seed _

/-- A character that does not separate belongs to one of the parts. -/
theorem exists_mem_splitOn {a c : Char} {cs : List Char} (hc : c ∈ cs) (hne : c ≠ a) :
    ∃ part ∈ cs.splitOn a, c ∈ part := by
  induction cs with
  | nil => cases hc
  | cons d cs ih =>
    obtain ⟨part, parts, hparts⟩ := List.exists_cons_of_ne_nil (List.splitOn_ne_nil a cs)
    rw [List.splitOn_cons_eq_if_modifyHead, hparts]
    rw [hparts] at ih
    rcases List.mem_cons.1 hc with rfl | hc
    · rw [if_neg (by simpa using hne)]
      exact ⟨c :: part, List.mem_cons_self, List.mem_cons_self⟩
    · obtain ⟨part', hpart', hcpart⟩ := ih hc
      split
      · exact ⟨part', List.mem_cons_of_mem _ hpart', hcpart⟩
      · rcases List.mem_cons.1 hpart' with rfl | hpart'
        · exact ⟨d :: part', List.mem_cons_self, List.mem_cons_of_mem d hcpart⟩
        · exact ⟨part', List.mem_cons_of_mem _ hpart', hcpart⟩

theorem IsDottedPath.isFieldChar {path : String} (h : IsDottedPath path) {c : Char}
    (hc : c ∈ path.toList) (hdot : c ≠ '.') : Filter.isFieldChar c = true := by
  obtain ⟨part, hpart, hcpart⟩ := exists_mem_splitOn hc hdot
  have hstep := h (String.ofList part) (List.mem_map_of_mem hpart)
  exact hstep.isFieldChar (by rwa [String.toList_ofList])

/-- A dotted path has characters of names and dots only. -/
theorem IsDottedPath.notMem {path : String} (h : IsDottedPath path) {c : Char}
    (hc : Filter.isFieldChar c = false) (hdot : c ≠ '.') : c ∉ path.toList := by
  intro hmem
  rw [h.isFieldChar hmem hdot] at hc
  exact Bool.noConfusion hc

/-! ## The root of a path -/

theorem FieldMap.mem_paths_of_get? {fields : FieldMap} {field mapped : String}
    (h : fields.get? field = some mapped) : mapped ∈ fields.paths := by
  rw [FieldMap.get?, List.lookup_eq_some_iff] at h
  obtain ⟨before, after, hentries, -⟩ := h
  rw [FieldMap.paths, hentries]
  simp

/-- Without a bracket in it, what stands before the first dot is the root. -/
theorem exists_splitOn_eq_cons {cs : List Char} (h : '[' ∉ cs) :
    ∃ parts, cs.splitOn '.' = cs.takeWhile isRootChar :: parts := by
  induction cs with
  | nil => exact ⟨[], List.splitOn_nil '.'⟩
  | cons c cs ih =>
    rw [List.mem_cons, not_or] at h
    obtain ⟨parts, hparts⟩ := ih h.2
    rw [List.splitOn_cons_eq_if_modifyHead, hparts]
    by_cases hc : c = '.'
    · exact ⟨cs.takeWhile isRootChar :: parts, by simp [hc, isRootChar]⟩
    · exact ⟨parts, by simp [hc, isRootChar, Ne.symm h.1]⟩

/-- A dotted path starts from its first step. -/
theorem steps_eq_cons {path : String} (h : IsDottedPath path) :
    ∃ attributes, steps path = pathRoot path :: attributes := by
  have hbracket : '[' ∉ path.toList := h.notMem rfl (by decide)
  obtain ⟨parts, hparts⟩ := exists_splitOn_eq_cons hbracket
  exact ⟨parts.map String.ofList, by rw [steps, hparts, List.map_cons, pathRoot]⟩

theorem isIdentifier_pathRoot {path : String} (h : IsDottedPath path) : IsIdentifier (pathRoot path) := by
  obtain ⟨attributes, hsteps⟩ := steps_eq_cons h
  exact h _ (hsteps ▸ List.mem_cons_self)

/-- A variable in front of a path is its first step. -/
theorem steps_attach {loopVar : String} (h : IsIdentifier loopVar) (path : String) :
    steps (loopVar ++ "." ++ path) = loopVar :: steps path := by
  have hdot : '.' ∉ loopVar.toList := h.notMem rfl
  have hchars : (loopVar ++ "." ++ path).toList = loopVar.toList ++ '.' :: path.toList := by simp
  rw [steps, hchars, List.splitOn_append_cons_self_of_not_mem hdot, List.map_cons,
    String.ofList_toList, steps]

/-- An attribute path is dotted if the mapped path and the variable in front of it are names. -/
theorem IsDottedPath.attach {anchor : Anchor} {mapped : String} (h : IsDottedPath mapped)
    (hanchor : ∀ loopVar, anchor = .relative loopVar → IsIdentifier loopVar) :
    IsDottedPath (anchor.attach mapped) := by
  cases anchor with
  | qualified => exact h
  | relative loopVar =>
    have hvar := hanchor loopVar rfl
    -- one more step in front of those that the mapped path has
    intro step hstep
    rw [Anchor.attach, steps_attach hvar] at hstep
    rcases List.mem_cons.1 hstep with rfl | hstep
    · exact hvar
    · exact h step hstep

/-- The root of an attribute path is one of the names that no binding may have. -/
theorem pathRoot_attach_mem_reserved {anchor : Anchor} {fields : FieldMap} {field mapped : String}
    (hmapped : fields.get? field = some mapped) (hpath : IsDottedPath mapped)
    (hanchor : ∀ loopVar, anchor = .relative loopVar → IsIdentifier loopVar) :
    pathRoot (anchor.attach mapped) ∈ anchor.reserved fields := by
  cases anchor with
  | qualified => exact List.mem_map_of_mem (FieldMap.mem_paths_of_get? hmapped)
  | relative loopVar =>
    obtain ⟨attributes, hsteps⟩ := steps_eq_cons (hpath.attach hanchor)
    rw [Anchor.attach, steps_attach (hanchor loopVar rfl), List.cons.injEq] at hsteps
    rw [Anchor.attach, ← hsteps.1]
    exact List.mem_singleton_self loopVar

end FilterClause
