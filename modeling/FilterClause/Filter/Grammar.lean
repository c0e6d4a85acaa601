import FilterClause.Combinator

/-!
# The grammar of filter strings

A filter string is searched for pieces `FIELD OPERATOR VALUE [COMBINATOR]`; what lies between them
is skipped. A field is a run of letters, digits and `_`. A value is a list of words of letters,
digits and `_`, `@`, `.`, `-`, with spaces or tabs between them. The operator is the run of the
characters `=!<>~$@` between the two, whether or not it is one of the known operators.

The classes overlap in `@` only. Where a run of operator characters is not directly followed by a
value, the operator is the longest part of the run after which a value can begin, which is then the
last `@` of the run that is not its first character (`splitRun?`).

`pieces` reads from left to right: it looks for the next field, reads the piece there
(`readPiece`), and goes on after it. A field that no operator and value follow is skipped.
-/

namespace FilterClause.Filter

/-! ## Classes of characters -/

/-- The characters of a field: ASCII letters, digits and `_`. -/
def isFieldChar (c : Char) : Bool :=
  c.isAlphanum || c = '_'

/-- The characters of an operator run. -/
def isOperatorChar (c : Char) : Bool :=
  c = '=' || c = '!' || c = '<' || c = '>' || c = '~' || c = '$' || c = '@'

/-- The characters of the words of a value. -/
def isValueChar (c : Char) : Bool :=
  c.isAlphanum || c = '_' || c = '@' || c = '.' || c = '-'

/-- The characters between the words of a value. -/
def isGap (c : Char) : Bool :=
  c = ' ' || c = '\t'

/-! ## Values -/

/-- The longest value at the head of the characters, and what follows it. A blank belongs to the
value when more of the value comes after it. -/
def takeValue : List Char → List Char × List Char
  | [] => ([], [])
  | c :: rest =>
    if isValueChar c then
      let (value, after) := takeValue rest
      (c :: value, after)
    else if isGap c then
      match takeValue rest with
      | ([], _) => ([], c :: rest)
      | (value, after) => (c :: value, after)
    else ([], c :: rest)

/-- Characters that begin with a word. -/
def startsValue : List Char → Bool
  | [] => false
  | c :: _ => isValueChar c

/-! ## Operator runs -/

/-- Divides a run before `rest` after its longest part, possibly empty, that a value can follow. -/
def divideRun? : List Char → List Char → Option (List Char × List Char)
  | [], rest => if startsValue rest then some ([], rest) else none
  | c :: run, rest =>
    match divideRun? run rest with
    | some (operator, after) => some (c :: operator, after)
    | none => if isValueChar c then some ([], c :: (run ++ rest)) else none

/-- The operator that a run before `rest` stands for, and the characters that begin with its value:
the longest nonempty part of the run that a value can follow. -/
def splitRun? : List Char → List Char → Option (List Char × List Char)
  | [], _ => none
  | c :: run, rest => (divideRun? run rest).map fun (operator, after) => (c :: operator, after)

/-! ## Pieces -/

/-- A part of a filter string that reads as a filter. -/
structure Piece where
  field : List Char
  operator : List Char
  value : List Char
  joiner : Option Combinator
  deriving DecidableEq, Repr

/-- The combinator at the head of the characters, if one stands there, and what follows it. -/
def takeJoiner : List Char → Option Combinator × List Char
  | [] => (none, [])
  | c :: rest =>
    match Combinator.ofMarker? c with
    | some joiner => (some joiner, rest)
    | none => (none, c :: rest)

theorem length_takeValue_le (cs : List Char) : (takeValue cs).2.length ≤ cs.length := by
  induction cs with
  | nil => simp [takeValue]
  | cons c rest ih =>
    unfold takeValue
    split
    · exact Nat.le_succ_of_le ih
    · split
      · split
        · simp
        · next h =>
          rw [h] at ih
          exact Nat.le_succ_of_le ih
      · simp

theorem length_takeJoiner_le (cs : List Char) : (takeJoiner cs).2.length ≤ cs.length := by
  unfold takeJoiner
  split
  · simp
  · split <;> simp

theorem length_divideRun?_le {run rest operator after : List Char}
    (h : divideRun? run rest = some (operator, after)) :
    after.length ≤ run.length + rest.length := by
  induction run generalizing operator after with
  | nil =>
    unfold divideRun? at h
    split at h <;> simp_all
  | cons c run ih =>
    unfold divideRun? at h
    split at h
    · next hd =>
      have := ih hd
      simp_all only [Option.some.injEq, Prod.mk.injEq, List.length_cons]
      omega
    · split at h
      · simp only [Option.some.injEq, Prod.mk.injEq] at h
        simp only [← h.2, List.length_cons, List.length_append]
        omega
      · cases h

theorem length_splitRun?_lt {run rest operator after : List Char}
    (h : splitRun? run rest = some (operator, after)) :
    after.length < run.length + rest.length := by
  match run with
  | [] => simp [splitRun?] at h
  | c :: run =>
    simp only [splitRun?, Option.map_eq_some_iff, Prod.mk.injEq, Prod.exists] at h
    obtain ⟨_, _, hd, _, rfl⟩ := h
    have := length_divideRun?_le hd
    simp only [List.length_cons]
    omega

/-- The piece whose field stands at the head of the characters, and what follows it. Without an
operator and a value there is no piece, and what follows is what comes after the field and the run
of operator characters. -/
def readPiece (cs : List Char) : Option Piece × List Char :=
  let afterField := cs.dropWhile isFieldChar
  let afterRun := afterField.dropWhile isOperatorChar
  match splitRun? (afterField.takeWhile isOperatorChar) afterRun with
  | none => (none, afterRun)
  | some (operator, fromValue) =>
    let (value, afterValue) := takeValue fromValue
    let (joiner, after) := takeJoiner afterValue
    (some ⟨cs.takeWhile isFieldChar, operator, value, joiner⟩, after)

theorem length_readPiece_le (cs : List Char) :
    (readPiece cs).2.length ≤ (cs.dropWhile isFieldChar).length := by
  generalize hf : cs.dropWhile isFieldChar = afterField
  -- what follows the field is the run and what follows the run
  have hlen : (afterField.takeWhile isOperatorChar).length +
      (afterField.dropWhile isOperatorChar).length = afterField.length := by
    rw [← List.length_append, List.takeWhile_append_dropWhile]
  simp only [readPiece, hf]
  split
  · simp only
    omega
  · next operator fromValue h =>
    have h₁ := length_splitRun?_lt h
    have h₂ := length_takeValue_le fromValue
    have h₃ := length_takeJoiner_le (takeValue fromValue).2
    simp only
    omega

/-- The pieces of a filter string, from left to right. -/
def pieces (cs : List Char) : List Piece :=
  match cs with
  | [] => []
  | c :: rest =>
    if isFieldChar c then (readPiece (c :: rest)).1.toList ++ pieces (readPiece (c :: rest)).2
    else pieces rest
termination_by cs.length
decreasing_by
  · next hc =>
    -- the field takes away at least its first character
    have h₁ := length_readPiece_le (c :: rest)
    have h₂ := (List.dropWhile_suffix isFieldChar (l := rest)).length_le
    rw [List.dropWhile_cons_of_pos hc] at h₁
    simp only [List.length_cons]
    omega
  · simp

end FilterClause.Filter
