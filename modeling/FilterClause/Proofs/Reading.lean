import FilterClause.Filter.Parse
import Mathlib.Data.List.TakeWhile

/-!
# What reading a filter string gives

What holds of every piece that is read: its field and its operator are runs of their characters, its
value is a whole value, and an `@` at the head of the value is a word of its own, because it was left
over from the operator run (`Piece.IsRead`, `isRead_of_mem_pieces`).

A piece of this form is read back from its spelling, whatever stands before and after it, if what
follows cannot be taken for more of its value (`readPiece_append`).
-/

namespace FilterClause.Filter

/-! ## Runs of characters -/

/-- A run ends where a character outside its class follows. -/
theorem span_append {p : Char → Bool} {run rest : List Char} (hrun : ∀ c ∈ run, p c = true)
    (hrest : ∀ c ∈ rest.head?, p c = false) :
    (run ++ rest).takeWhile p = run ∧ (run ++ rest).dropWhile p = rest := by
  rw [List.takeWhile_append_of_pos hrun, List.dropWhile_append_of_pos hrun]
  cases rest with
  | nil => exact ⟨List.append_nil run, rfl⟩
  | cons c rest =>
    have hc : p c = false := hrest c rfl
    simp [hc]

/-- The character after a run is outside its class. -/
theorem eq_false_of_mem_head?_dropWhile {p : Char → Bool} {cs : List Char} {c : Char}
    (h : c ∈ (cs.dropWhile p).head?) : p c = false := by
  have hstop := List.head?_dropWhile_not p cs
  rw [Option.mem_def] at h
  rwa [h] at hstop

/-! ## Values -/

/-- Fields are made of characters that words have, too. -/
theorem isValueChar_of_isFieldChar {c : Char} (h : isFieldChar c = true) : isValueChar c = true := by
  simp only [isFieldChar, Bool.or_eq_true] at h
  simp only [isValueChar, Bool.or_eq_true]
  exact .inl (.inl (.inl h))

theorem isValueChar_of_isGap {c : Char} (h : isGap c = true) : isValueChar c = false := by
  simp only [isGap, Bool.or_eq_true, decide_eq_true_eq] at h
  rcases h with rfl | rfl <;> decide

theorem takeValue_cons_of_value {c : Char} (h : isValueChar c = true) (cs : List Char) :
    takeValue (c :: cs) = (c :: (takeValue cs).1, (takeValue cs).2) := by
  rw [takeValue, if_pos h]

/-- A gap is taken along with the words that follow it. -/
theorem takeValue_cons_of_gap {c : Char} (h : isGap c = true) {cs : List Char}
    (hcs : (takeValue cs).1 ≠ []) :
    takeValue (c :: cs) = (c :: (takeValue cs).1, (takeValue cs).2) := by
  rw [takeValue, isValueChar_of_isGap h, if_neg Bool.false_ne_true, if_pos h]
  split
  · next heq =>
    rw [heq] at hcs
    exact absurd rfl hcs
  · next heq => rw [heq]

/-- What a value cannot begin with is left alone. -/
theorem takeValue_cons_of_not {c : Char} {cs : List Char} (h : isValueChar c = false)
    (hcs : isGap c = true → (takeValue cs).1 = []) : takeValue (c :: cs) = ([], c :: cs) := by
  rw [takeValue, h, if_neg Bool.false_ne_true]
  by_cases hc : isGap c = true
  · rw [if_pos hc]
    have hnil := hcs hc
    split
    · rfl
    · next hne heq =>
      rw [heq] at hnil
      exact (hne hnil).elim
  · rw [if_neg hc]

/-- Reading a value either takes the first character along or takes nothing. -/
theorem takeValue_cons (c : Char) (cs : List Char) :
    (takeValue (c :: cs) = (c :: (takeValue cs).1, (takeValue cs).2) ∧
        (isValueChar c = true ∨ isGap c = true ∧ (takeValue cs).1 ≠ [])) ∨
      takeValue (c :: cs) = ([], c :: cs) ∧ isValueChar c = false ∧
        (isGap c = true → (takeValue cs).1 = []) := by
  by_cases hvalue : isValueChar c = true
  · exact .inl ⟨takeValue_cons_of_value hvalue cs, .inl hvalue⟩
  · rw [Bool.not_eq_true] at hvalue
    by_cases hmore : isGap c = true ∧ (takeValue cs).1 ≠ []
    · exact .inl ⟨takeValue_cons_of_gap hmore.1 hmore.2, .inr hmore⟩
    · have hnone : isGap c = true → (takeValue cs).1 = [] := by
        intro hgap
        by_contra hne
        exact hmore ⟨hgap, hne⟩
      exact .inr ⟨takeValue_cons_of_not hvalue hnone, hvalue, hnone⟩

theorem takeValue_append_takeValue (cs : List Char) :
    (takeValue cs).1 ++ (takeValue cs).2 = cs := by
  induction cs with
  | nil => rfl
  | cons c cs ih =>
    rcases takeValue_cons c cs with ⟨h, -⟩ | ⟨h, -⟩
    · rw [h, List.cons_append, ih]
    · rw [h, List.nil_append]

/-- A value is read as a whole where no more of it follows. -/
theorem takeValue_append {v rest : List Char} (hv : takeValue v = (v, []))
    (hrest : (takeValue rest).1 = []) : takeValue (v ++ rest) = (v, rest) := by
  induction v with
  | nil =>
    have hsplit := takeValue_append_takeValue rest
    rw [hrest, List.nil_append] at hsplit
    rw [List.nil_append]
    exact Prod.ext hrest hsplit
  | cons c v ih =>
    rcases takeValue_cons c v with ⟨h, hc⟩ | ⟨h, -⟩
    · rw [h, Prod.mk.injEq, List.cons.injEq] at hv
      have hih := ih (Prod.ext hv.1.2 hv.2)
      rw [List.cons_append]
      -- a gap is taken for the words behind it, and those are still there
      rcases hc with hc | ⟨hc, hne⟩
      · rw [takeValue_cons_of_value hc, hih]
      · rw [hv.1.2] at hne
        rw [takeValue_cons_of_gap hc (by rwa [hih]), hih]
    · rw [h] at hv
      cases hv

/-- A value that was read is a whole value. -/
theorem takeValue_takeValue (cs : List Char) :
    takeValue (takeValue cs).1 = ((takeValue cs).1, []) := by
  induction cs with
  | nil => rfl
  | cons c cs ih =>
    rcases takeValue_cons c cs with ⟨h, hc | ⟨hc, hne⟩⟩ | ⟨h, -⟩
    · rw [h, takeValue_cons_of_value hc, ih]
    · rw [h, takeValue_cons_of_gap hc (by rwa [ih]), ih]
    · rw [h]
      rfl

/-- A value is made of words and gaps. -/
theorem of_mem_takeValue {cs : List Char} {c : Char} (h : c ∈ (takeValue cs).1) :
    isValueChar c = true ∨ isGap c = true := by
  induction cs with
  | nil => cases h
  | cons d cs ih =>
    rcases takeValue_cons d cs with ⟨heq, hd⟩ | ⟨heq, -⟩
    · rw [heq] at h
      rcases List.mem_cons.1 h with rfl | h
      · exact hd.imp_right And.left
      · exact ih h
    · rw [heq] at h
      cases h

/-- Nothing is taken where no value starts, unless a gap stands there. -/
theorem takeValue_of_head {rest : List Char}
    (h : ∀ c ∈ rest.head?, isValueChar c = false ∧ isGap c = false) : takeValue rest = ([], rest) := by
  cases rest with
  | nil => rfl
  | cons c rest =>
    obtain ⟨hvalue, hgap⟩ := h c rfl
    refine takeValue_cons_of_not hvalue fun htrue => ?_
    rw [hgap] at htrue
    cases htrue

/-- A value is taken from the characters that start with it. -/
theorem startsValue_takeValue {cs : List Char} (h : startsValue cs = true) :
    startsValue (takeValue cs).1 = true := by
  cases cs with
  | nil => exact h
  | cons c cs =>
    rw [takeValue_cons_of_value h]
    exact h

/-- Characters that no value starts with have no value that starts either. -/
theorem startsValue_takeValue_eq_false {cs : List Char} (h : startsValue cs = false) :
    startsValue (takeValue cs).1 = false := by
  cases cs with
  | nil => rfl
  | cons c cs =>
    rcases takeValue_cons c cs with ⟨hc, -⟩ | ⟨hc, -⟩
    · rw [hc]
      exact h
    · rw [hc]
      rfl

/-! ## Operator runs -/

/-- Before `rest` a value can begin with the end of a run, but with no shorter end of it. -/
structure BeginsLast (tail rest : List Char) : Prop where
  starts : startsValue (tail ++ rest) = true
  later : ∀ t, t <:+ tail → t ≠ tail → startsValue (t ++ rest) = false

theorem beginsLast_nil_iff {rest : List Char} : BeginsLast [] rest ↔ startsValue rest = true := by
  constructor
  · intro h
    exact h.starts
  · intro h
    exact ⟨h, fun t ht hne => absurd (List.suffix_nil.1 ht) hne⟩

theorem beginsLast_cons_iff {c : Char} {tail rest : List Char} :
    BeginsLast (c :: tail) rest ↔
      isValueChar c = true ∧ ∀ t, t <:+ tail → startsValue (t ++ rest) = false := by
  constructor
  · intro h
    refine ⟨h.starts, fun t ht => h.later t (ht.trans (List.suffix_cons c tail)) ?_⟩
    rintro rfl
    have hlength := ht.length_le
    rw [List.length_cons] at hlength
    omega
  · rintro ⟨hc, hlater⟩
    refine ⟨hc, fun t ht hne => ?_⟩
    rcases List.suffix_cons_iff.1 ht with rfl | ht
    · exact absurd rfl hne
    · exact hlater t ht

/-- No value can begin with an end of the run. -/
theorem divideRun?_eq_none_iff {run rest : List Char} :
    divideRun? run rest = none ↔ ∀ tail, tail <:+ run → startsValue (tail ++ rest) = false := by
  induction run with
  | nil => simp [divideRun?]
  | cons c run ih =>
    constructor
    · intro h tail htail
      rw [divideRun?] at h
      split at h
      · cases h
      · next hrun =>
        split at h
        · cases h
        · next hc =>
          rcases List.suffix_cons_iff.1 htail with rfl | htail
          · exact Bool.eq_false_iff.2 hc
          · exact ih.1 hrun tail htail
    · intro h
      have hrun := ih.2 fun tail htail => h tail (htail.trans (List.suffix_cons c run))
      have hc : isValueChar c = false := h (c :: run) (List.suffix_refl _)
      rw [divideRun?, hrun]
      exact if_neg (Bool.eq_false_iff.1 hc)

/-- A run is divided after its longest part that a value can follow. -/
theorem divideRun?_eq_some_iff {run rest operator after : List Char} :
    divideRun? run rest = some (operator, after) ↔
      ∃ tail, run = operator ++ tail ∧ after = tail ++ rest ∧ BeginsLast tail rest := by
  constructor
  · intro h
    induction run generalizing operator with
    | nil =>
      rw [divideRun?] at h
      split at h
      · next hrest =>
        rw [Option.some.injEq, Prod.mk.injEq] at h
        obtain ⟨rfl, rfl⟩ := h
        exact ⟨[], rfl, rfl, beginsLast_nil_iff.2 hrest⟩
      · cases h
    | cons c run ih =>
      rw [divideRun?] at h
      split at h
      · next op aft hrun =>
        -- a longer part was found in the rest of the run
        rw [Option.some.injEq, Prod.mk.injEq] at h
        obtain ⟨rfl, rfl⟩ := h
        obtain ⟨tail, hsplit, hrest⟩ := ih hrun
        exact ⟨tail, congrArg (c :: ·) hsplit, hrest⟩
      · next hrun =>
        split at h
        · next hc =>
          rw [Option.some.injEq, Prod.mk.injEq] at h
          obtain ⟨rfl, rfl⟩ := h
          exact ⟨c :: run, rfl, rfl, beginsLast_cons_iff.2 ⟨hc, divideRun?_eq_none_iff.1 hrun⟩⟩
        · cases h
  · rintro ⟨tail, rfl, rfl, hlast⟩
    induction operator with
    | nil =>
      cases tail with
      | nil => exact if_pos hlast.starts
      | cons c tail =>
        obtain ⟨hc, hlater⟩ := beginsLast_cons_iff.1 hlast
        rw [List.nil_append, divideRun?, divideRun?_eq_none_iff.2 hlater]
        exact if_pos hc
    | cons d operator ih => rw [List.cons_append, divideRun?, ih]

/-- An operator is the longest nonempty part of a run that a value can follow. -/
theorem splitRun?_eq_some_iff {run rest operator after : List Char} :
    splitRun? run rest = some (operator, after) ↔ operator ≠ [] ∧
      ∃ tail, run = operator ++ tail ∧ after = tail ++ rest ∧ BeginsLast tail rest := by
  cases run with
  | nil =>
    constructor
    · intro h
      cases h
    · rintro ⟨hne, tail, hsplit, -⟩
      exact absurd (List.append_eq_nil_iff.1 hsplit.symm).1 hne
  | cons c run =>
    simp only [splitRun?, Option.map_eq_some_iff, Prod.mk.injEq, Prod.exists]
    constructor
    · rintro ⟨operator, after, hdivide, rfl, rfl⟩
      obtain ⟨tail, rfl, hrest⟩ := divideRun?_eq_some_iff.1 hdivide
      exact ⟨List.cons_ne_nil c operator, tail, rfl, hrest⟩
    · rintro ⟨hne, tail, hsplit, hrest⟩
      obtain ⟨d, operator, rfl⟩ := List.exists_cons_of_ne_nil hne
      rw [List.cons_append, List.cons.injEq] at hsplit
      obtain ⟨rfl, rfl⟩ := hsplit
      exact ⟨operator, after, divideRun?_eq_some_iff.2 ⟨tail, rfl, hrest⟩, rfl, rfl⟩

/-! ## Pieces -/

theorem isFieldChar_of_isOperatorChar {c : Char} (h : isOperatorChar c = true) :
    isFieldChar c = false := by
  simp only [isOperatorChar, Bool.or_eq_true, decide_eq_true_eq] at h
  rcases h with (((((rfl | rfl) | rfl) | rfl) | rfl) | rfl) | rfl <;> decide

theorem isOperatorChar_of_isGap {c : Char} (h : isGap c = true) : isOperatorChar c = false := by
  simp only [isGap, Bool.or_eq_true, decide_eq_true_eq] at h
  rcases h with rfl | rfl <;> decide

/-- Values and operators have no character in common but `@`. -/
theorem eq_at_of_isOperatorChar {c : Char} (hvalue : isValueChar c = true)
    (h : isOperatorChar c = true) : c = '@' := by
  simp only [isOperatorChar, Bool.or_eq_true, decide_eq_true_eq] at h
  rcases h with (((((rfl | rfl) | rfl) | rfl) | rfl) | rfl) | rfl
  iterate 6 cases hvalue
  rfl

/-- What holds of every piece that is read from a filter string. -/
structure Piece.IsRead (p : Piece) : Prop where
  field_ne : p.field ≠ []
  field : ∀ c ∈ p.field, isFieldChar c = true
  operator_ne : p.operator ≠ []
  operator : ∀ c ∈ p.operator, isOperatorChar c = true
  value : takeValue p.value = (p.value, [])
  starts : startsValue p.value = true
  leftover : ∀ c word, p.value = c :: word → isOperatorChar c = true → startsValue word = false

/-- The value of a piece has no characters but those of words and gaps. -/
theorem Piece.IsRead.notMem_value {p : Piece} (hp : p.IsRead) {c : Char}
    (hvalue : isValueChar c = false) (hgap : isGap c = false) : c ∉ p.value := by
  intro hmem
  have htaken : c ∈ (takeValue p.value).1 := by rwa [hp.value]
  rcases of_mem_takeValue htaken with htrue | htrue
  · rw [hvalue] at htrue
    cases htrue
  · rw [hgap] at htrue
    cases htrue

/-- The parts of a piece that is read. -/
theorem readPiece_eq_some {cs after : List Char} {p : Piece} (h : readPiece cs = (some p, after)) :
    ∃ tail rest, cs = p.field ++ (p.operator ++ (tail ++ rest)) ∧
      p.field = cs.takeWhile isFieldChar ∧ p.operator ≠ [] ∧
      p.operator ++ tail = (p.operator ++ (tail ++ rest)).takeWhile isOperatorChar ∧
      rest = (p.operator ++ (tail ++ rest)).dropWhile isOperatorChar ∧ BeginsLast tail rest ∧
      p.value = (takeValue (tail ++ rest)).1 ∧
      takeJoiner (takeValue (tail ++ rest)).2 = (p.joiner, after) := by
  simp only [readPiece] at h
  split at h
  · cases h
  · next operator fromValue hsplit =>
    rw [Prod.mk.injEq, Option.some.injEq] at h
    obtain ⟨rfl, rfl⟩ := h
    obtain ⟨hne, tail, hrun, rfl, hlast⟩ := splitRun?_eq_some_iff.1 hsplit
    -- operator, leftover and rest are together what stands after the field
    have hspan : operator ++ (tail ++ (cs.dropWhile isFieldChar).dropWhile isOperatorChar) =
        cs.dropWhile isFieldChar := by
      rw [← List.append_assoc, ← hrun, List.takeWhile_append_dropWhile]
    refine ⟨tail, _, ?_, rfl, hne, ?_, ?_, hlast, rfl, rfl⟩
    · rw [hspan, List.takeWhile_append_dropWhile]
    · rw [hspan, hrun]
    · rw [hspan]

/-- A value that begins with what is left over from a run is an `@` before a gap, or nothing but
`@`. -/
theorem startsValue_of_beginsLast {tail rest word : List Char} {c : Char}
    (hrest : ∀ d ∈ rest.head?, isOperatorChar d = false) (hlast : BeginsLast tail rest)
    (hvalue : (takeValue (tail ++ rest)).1 = c :: word) (hc : isOperatorChar c = true) :
    startsValue word = false := by
  cases tail with
  | nil =>
    -- the run ended before the value, so no operator character starts it
    have hall := takeValue_append_takeValue ([] ++ rest)
    rw [hvalue, List.nil_append] at hall
    rw [hrest c (by rw [← hall]; rfl)] at hc
    cases hc
  | cons d tail =>
    -- the value starts inside the run, and none could start later in it
    obtain ⟨hd, hlater⟩ := beginsLast_cons_iff.1 hlast
    rw [List.cons_append, takeValue_cons_of_value hd, List.cons.injEq] at hvalue
    rw [← hvalue.2]
    exact startsValue_takeValue_eq_false (hlater tail (List.suffix_refl tail))

/-- A piece that starts with a field has the form of pieces that are read. -/
theorem isRead_of_readPiece {c : Char} {cs after : List Char} {p : Piece}
    (hc : isFieldChar c = true) (h : readPiece (c :: cs) = (some p, after)) : p.IsRead := by
  obtain ⟨tail, rest, -, hfield, hne, hrun, hrest, hlast, hvalue, -⟩ := readPiece_eq_some h
  refine ⟨?_, ?_, hne, ?_, ?_, ?_, ?_⟩
  · rw [hfield, List.takeWhile_cons_of_pos hc]
    exact List.cons_ne_nil _ _
  · intro d hd
    rw [hfield] at hd
    exact List.mem_takeWhile_imp hd
  · intro d hd
    exact List.mem_takeWhile_imp (hrun ▸ List.mem_append_left tail hd)
  · rw [hvalue, takeValue_takeValue]
  · rw [hvalue]
    exact startsValue_takeValue hlast.starts
  · intro d word hword hd
    refine startsValue_of_beginsLast (fun e he => ?_) hlast (hvalue.symm.trans hword) hd
    rw [hrest] at he
    exact eq_false_of_mem_head?_dropWhile he

/-- A piece ends where no word, no gap and no operator character follows. -/
def EndsPiece (rest : List Char) : Prop :=
  ∀ c ∈ rest.head?, isValueChar c = false ∧ isGap c = false ∧ isOperatorChar c = false

/-- Neither the value nor the operator run of a piece goes on where nothing can be taken for more of the
value and no operator character follows; gaps may stand there. -/
def EndsValue (rest : List Char) : Prop :=
  (takeValue rest).1 = [] ∧ ∀ c ∈ rest.head?, isOperatorChar c = false

theorem EndsPiece.endsValue {rest : List Char} (h : EndsPiece rest) : EndsValue rest :=
  ⟨by rw [takeValue_of_head fun c hc => ⟨(h c hc).1, (h c hc).2.1⟩], fun c hc => (h c hc).2.2⟩

theorem EndsValue.of_mem_head? {rest : List Char} (h : EndsValue rest) {c : Char}
    (hc : c ∈ rest.head?) : isValueChar c = false ∧ isOperatorChar c = false := by
  refine ⟨?_, h.2 c hc⟩
  obtain ⟨rest, rfl⟩ := List.head?_eq_some_iff.1 hc
  rw [← Bool.not_eq_true]
  intro htrue
  have hnil := h.1
  rw [takeValue_cons_of_value htrue] at hnil
  cases hnil

/-- After what is left over from a run neither a word nor the run goes on. -/
theorem Piece.IsRead.head?_leftover {p : Piece} (hp : p.IsRead) {rest word : List Char} {c : Char}
    (hrest : EndsValue rest) (hvalue : p.value = c :: word) (hc : isOperatorChar c = true) :
    ∀ d ∈ (word ++ rest).head?, isValueChar d = false ∧ isOperatorChar d = false := by
  intro d hd
  have hword := hp.leftover c word hvalue hc
  have hall := hp.value
  have hstarts := hp.starts
  rw [hvalue] at hall hstarts
  rw [takeValue_cons_of_value hstarts, Prod.mk.injEq, List.cons.injEq] at hall
  cases word with
  | nil => exact hrest.of_mem_head? hd
  | cons e word =>
    rw [List.cons_append, List.head?_cons, Option.mem_some_iff] at hd
    subst hd
    rcases takeValue_cons e word with ⟨-, htrue | ⟨hgap, -⟩⟩ | ⟨hnil, -⟩
    · exact absurd htrue (Bool.eq_false_iff.1 hword)
    · exact ⟨hword, isOperatorChar_of_isGap hgap⟩
    · rw [hnil] at hall
      cases hall.1.2

/-- After the field, the operator run is divided where the piece has it divided. -/
theorem Piece.IsRead.splitRun? {p : Piece} (hp : p.IsRead) {rest : List Char}
    (hrest : EndsValue rest) :
    Filter.splitRun? ((p.operator ++ (p.value ++ rest)).takeWhile isOperatorChar)
        ((p.operator ++ (p.value ++ rest)).dropWhile isOperatorChar) =
      some (p.operator, p.value ++ rest) := by
  obtain ⟨c, word, hvalue⟩ : ∃ c word, p.value = c :: word := by
    refine List.exists_cons_of_ne_nil fun hnil => ?_
    have hstarts := hp.starts
    rw [hnil] at hstarts
    cases hstarts
  have hstarts : isValueChar c = true := by
    have hstarts := hp.starts
    rwa [hvalue] at hstarts
  rw [hvalue]
  cases hc : isOperatorChar c with
  | false =>
    have hhead : ∀ d ∈ (c :: word ++ rest).head?, isOperatorChar d = false := by
      intro d hd
      rwa [← Option.mem_some_iff.1 hd]
    obtain ⟨htake, hdrop⟩ := span_append hp.operator hhead
    rw [htake, hdrop]
    exact splitRun?_eq_some_iff.2
      ⟨hp.operator_ne, [], (List.append_nil _).symm, rfl, beginsLast_nil_iff.2 hstarts⟩
  | true =>
    -- the run takes the first character of the value along, and gives it back
    have hhead := hp.head?_leftover hrest hvalue hc
    have hrun : ∀ d ∈ p.operator ++ [c], isOperatorChar d = true := by
      intro d hd
      rcases List.mem_append.1 hd with hd | hd
      · exact hp.operator d hd
      · rwa [List.mem_singleton.1 hd]
    obtain ⟨htake, hdrop⟩ := span_append hrun fun d hd => (hhead d hd).2
    rw [List.append_assoc, List.singleton_append, ← List.cons_append] at htake hdrop
    rw [htake, hdrop]
    refine splitRun?_eq_some_iff.2
      ⟨hp.operator_ne, [c], rfl, rfl, beginsLast_cons_iff.2 ⟨hstarts, fun t ht => ?_⟩⟩
    rw [List.suffix_nil.1 ht, List.nil_append]
    cases hwr : word ++ rest with
    | nil => rfl
    | cons d ds => exact (hhead d (by rw [hwr]; rfl)).1

/-- A piece is read back from its spelling. -/
theorem readPiece_append {p : Piece} (hp : p.IsRead) {rest : List Char} (hrest : EndsValue rest) :
    readPiece (p.field ++ (p.operator ++ (p.value ++ rest))) =
      (some { p with joiner := (takeJoiner rest).1 }, (takeJoiner rest).2) := by
  have hhead : ∀ c ∈ (p.operator ++ (p.value ++ rest)).head?, isFieldChar c = false := by
    intro c hc
    obtain ⟨d, operator, hoperator⟩ := List.exists_cons_of_ne_nil hp.operator_ne
    rw [hoperator, List.cons_append, List.head?_cons, Option.mem_some_iff] at hc
    have hd := hp.operator d (hoperator ▸ List.mem_cons_self)
    exact hc ▸ isFieldChar_of_isOperatorChar hd
  obtain ⟨htake, hdrop⟩ := span_append hp.field hhead
  simp only [readPiece, htake, hdrop, hp.splitRun? hrest, takeValue_append hp.value hrest.1]

/-! ## Whole filter strings -/

@[simp] theorem pieces_nil : pieces [] = [] := by
  rw [pieces]

/-- What stands before a field is skipped. -/
theorem pieces_append {skipped : List Char} (h : ∀ c ∈ skipped, isFieldChar c = false)
    (cs : List Char) : pieces (skipped ++ cs) = pieces cs := by
  induction skipped with
  | nil => rfl
  | cons c skipped ih =>
    have hc := h c List.mem_cons_self
    rw [List.cons_append, pieces, hc, if_neg Bool.false_ne_true]
    exact ih fun d hd => h d (List.mem_cons_of_mem c hd)

/-- A piece at the head of the characters is the first one. -/
theorem pieces_piece_append {p : Piece} (hp : p.IsRead) {rest : List Char} (hrest : EndsValue rest) :
    pieces (p.field ++ (p.operator ++ (p.value ++ rest))) =
      { p with joiner := (takeJoiner rest).1 } :: pieces (takeJoiner rest).2 := by
  have hread := readPiece_append hp hrest
  obtain ⟨c, field, hfield⟩ := List.exists_cons_of_ne_nil hp.field_ne
  have hc : isFieldChar c = true := hp.field c (hfield ▸ List.mem_cons_self)
  rw [hfield, List.cons_append] at hread ⊢
  rw [pieces, if_pos hc, hread]
  rfl

/-- Every piece of a filter string has the form of pieces that are read. -/
theorem isRead_of_mem_pieces {cs : List Char} {p : Piece} (h : p ∈ pieces cs) : p.IsRead := by
  fun_induction pieces cs with
  | case1 => cases h
  | case2 c rest hc ih =>
    rcases List.mem_append.1 h with hp | hp
    · rw [Option.mem_toList] at hp
      exact isRead_of_readPiece hc (Prod.ext hp rfl)
    · exact ih hp
  | case3 c rest hc ih => exact ih h

/-! ## Filters -/

/-- The parts of a filter string that spell a filter. -/
def toPiece (f : Filter) : Piece :=
  ⟨f.field.toList, f.operator.token.toList, f.value.toList, f.joiner⟩

theorem ofPiece?_eq_ok_iff {p : Piece} {f : Filter} : ofPiece? p = .ok f ↔ p = f.toPiece := by
  constructor
  · intro h
    rw [ofPiece?, make?] at h
    split at h
    · next operator hop =>
      rw [Except.ok.injEq] at h
      subst h
      rw [toPiece, Operator.ofToken?_eq_some_iff.1 hop]
      simp only [String.toList_ofList]
    · cases h
  · rintro rfl
    simp only [ofPiece?, make?, toPiece, String.ofList_toList, Operator.ofToken?_token]

theorem ofPieces?_map_toPiece (fs : List Filter) : ofPieces? (fs.map toPiece) = .ok fs := by
  induction fs with
  | nil => rfl
  | cons f fs ih =>
    rw [List.map_cons, ofPieces?, ofPiece?_eq_ok_iff.2 rfl, ih]
    rfl

/-- Pieces spell the filters that they are the parts of, and no others. -/
theorem ofPieces?_eq_ok_iff {ps : List Piece} {fs : List Filter} :
    ofPieces? ps = .ok fs ↔ ps = fs.map toPiece := by
  constructor
  · intro h
    induction ps generalizing fs with
    | nil =>
      rw [ofPieces?, Except.ok.injEq] at h
      rw [← h]
      rfl
    | cons p ps ih =>
      rw [ofPieces?] at h
      split at h
      · cases h
      · next f hf =>
        cases hrest : ofPieces? ps with
        | error e =>
          rw [hrest] at h
          cases h
        | ok gs =>
          rw [hrest, Except.map, Except.ok.injEq] at h
          rw [← h, List.map_cons, ← ih hrest, ofPiece?_eq_ok_iff.1 hf]
  · rintro rfl
    exact ofPieces?_map_toPiece fs

/-- Settling the joiners changes nothing but joiners. -/
theorem exists_mem_of_mem_settleJoiners {fs : List Filter} {f : Filter}
    (h : f ∈ settleJoiners fs) : ∃ g ∈ fs, f = { g with joiner := f.joiner } := by
  fun_induction settleJoiners fs with
  | case1 => cases h
  | case2 g =>
    rw [List.mem_singleton] at h
    exact ⟨g, List.mem_cons_self, by rw [h]⟩
  | case3 g g' rest ih =>
    rcases List.mem_cons.1 h with rfl | h
    · exact ⟨g, List.mem_cons_self, rfl⟩
    · obtain ⟨g'', hg'', hf⟩ := ih h
      exact ⟨g'', List.mem_cons_of_mem g hg'', hf⟩

theorem settleJoiners_cons {fs : List Filter} (h : fs ≠ []) (f : Filter) :
    settleJoiners (f :: fs) = { f with joiner := some (f.joiner.getD .and) } :: settleJoiners fs := by
  obtain ⟨g, rest, rfl⟩ := List.exists_cons_of_ne_nil h
  rfl

/-- Joiners that are settled stay as they are. -/
theorem settleJoiners_settleJoiners (fs : List Filter) :
    settleJoiners (settleJoiners fs) = settleJoiners fs := by
  fun_induction settleJoiners fs with
  | case1 => rfl
  | case2 f => rfl
  | case3 f g rest ih =>
    cases rest with
    | nil => rfl
    | cons g' rest =>
      rw [settleJoiners] at ih ⊢
      rw [settleJoiners, ih]
      rfl

/-- Of a list of joiners every one but the last is there. -/
def Settled : List (Option Combinator) → Prop
  | [] => True
  | [joiner] => joiner = none
  | joiner :: next :: rest => joiner.isSome ∧ Settled (next :: rest)

theorem settled_settleJoiners (fs : List Filter) : Settled ((settleJoiners fs).map joiner) := by
  fun_induction settleJoiners fs with
  | case1 => exact trivial
  | case2 f => rfl
  | case3 f g rest ih =>
    cases rest with
    | nil => exact ⟨rfl, ih⟩
    | cons g' rest => exact ⟨rfl, ih⟩

/-- What holds of the filters of a filter string: they have the form of pieces that are read, and
their joiners are settled. -/
theorem isRead_of_parse {s : String} {fs : List Filter} (h : parse s = .ok fs) :
    (∀ f ∈ fs, f.toPiece.IsRead) ∧ settleJoiners fs = fs := by
  rw [parse] at h
  cases hpieces : ofPieces? (pieces s.toList) with
  | error e =>
    rw [hpieces] at h
    cases h
  | ok gs =>
    rw [hpieces, Except.map, Except.ok.injEq] at h
    subst h
    refine ⟨fun f hf => ?_, settleJoiners_settleJoiners gs⟩
    obtain ⟨g, hg, hfg⟩ := exists_mem_of_mem_settleJoiners hf
    have hmem : g.toPiece ∈ pieces s.toList :=
      ofPieces?_eq_ok_iff.1 hpieces ▸ List.mem_map_of_mem hg
    have hread := isRead_of_mem_pieces hmem
    rw [hfg]
    exact ⟨hread.1, hread.2, hread.3, hread.4, hread.5, hread.6, hread.7⟩

end FilterClause.Filter
