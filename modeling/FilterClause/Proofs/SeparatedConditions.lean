import FilterClause.Proofs.Matches

/-!
# Conditions with text between them

Well-formed conditions are read back in order, each on its own, whatever separates them: any characters
that neither a value nor an operator has, if one of them is no gap (`parse_separated`). Only how such a
text begins matters for the joiner.

A condition is well formed when its parts are by the grammar, and an `@` at the head of its value is a
word of its own, for the operator would take along any other (`Entry.IsWellFormed`). A value ends where
a separator begins, even one that begins with gaps, since no word can follow these (`endsValue_append`).
-/

namespace FilterClause.Filter

/-! ## Conditions and separators -/

/-- A condition as it is written in a filter string, and the text between it and the next one. -/
structure Entry where
  field : String
  operator : Operator
  value : String
  separator : String
  deriving DecidableEq, Repr

/-- A text without characters of values and operators. -/
def IsFiller (s : String) : Prop :=
  ∀ c ∈ s.toList, isValueChar c = false ∧ isOperatorChar c = false

instance (s : String) : Decidable (IsFiller s) :=
  List.decidableBAll (fun c => isValueChar c = false ∧ isOperatorChar c = false) s.toList

/-- A text that can stand between two conditions. -/
structure IsSeparator (s : String) : Prop where
  filler : IsFiller s
  nonblank : ∃ c ∈ s.toList, isGap c = false

namespace Entry

/-- The parts of a condition are those of the grammar, and an `@` at the head of its value is the whole
first word. -/
structure IsWellFormed (e : Entry) : Prop where
  field : IsRunOf isFieldChar e.field.toList
  value : IsValue e.value.toList
  leading : e.value.toList.head? = some '@' → e.value.toList.takeWhile isValueChar = ['@']

/-- The spelling of a condition. -/
def text (e : Entry) : String :=
  e.field ++ e.operator.token ++ e.value

/-- The combinator that a separator stands for. -/
def combinator (e : Entry) : Combinator :=
  if e.separator.toList.head? = some ',' then .or else .and

/-- The filter that a condition spells. -/
def filter (e : Entry) (joiner : Option Combinator) : Filter :=
  ⟨e.field, e.operator, e.value, joiner⟩

end Entry

/-- The spellings of conditions with their separators between them. -/
def entriesText : List Entry → String
  | [] => ""
  | [e] => e.text
  | e :: next :: rest => e.text ++ e.separator ++ entriesText (next :: rest)

/-- The filters of conditions, each but the last joined as its separator says. -/
def entriesFilters : List Entry → List Filter
  | [] => []
  | [e] => [e.filter none]
  | e :: next :: rest => e.filter (some e.combinator) :: entriesFilters (next :: rest)

/-! ## Conditions are read -/

/-- The token of an operator is a run of operator characters. -/
theorem isRunOf_token (op : Operator) : IsRunOf isOperatorChar op.token.toList := by
  rcases op with c | c | t
  · cases c <;> decide
  · cases c <;> decide
  · cases t <;> decide

/-- A well-formed condition has the form of pieces that are read. -/
theorem Entry.IsWellFormed.isRead {e : Entry} (h : e.IsWellFormed) (joiner : Option Combinator) :
    (e.filter joiner).toPiece.IsRead := by
  obtain ⟨hstarts, htaken⟩ := isValue_iff.1 h.value
  have htoken := isRunOf_token e.operator
  refine ⟨h.field.ne_nil, h.field.all, htoken.ne_nil, htoken.all, htaken, hstarts,
    fun c word hvalue hc => ?_⟩
  change e.value.toList = c :: word at hvalue
  rw [hvalue] at hstarts
  obtain rfl := eq_at_of_isOperatorChar hstarts hc
  -- the first word is over after the `@`
  have hfirst := h.leading (by rw [hvalue, List.head?_cons])
  rw [hvalue, List.takeWhile_cons_of_pos (by decide), List.cons.injEq] at hfirst
  cases word with
  | nil => rfl
  | cons d word =>
    rw [← Bool.not_eq_true]
    intro hd
    have hmore : (d :: word).takeWhile isValueChar = d :: word.takeWhile isValueChar :=
      List.takeWhile_cons_of_pos hd
    rw [hmore] at hfirst
    cases hfirst.2

/-! ## What stands between conditions -/

theorem isFieldChar_of_filler {c : Char} (h : isValueChar c = false) : isFieldChar c = false := by
  rw [← Bool.not_eq_true] at h ⊢
  exact fun hfield => h (isValueChar_of_isFieldChar hfield)

/-- A value ends before filling characters, at the end of the text and where one of them is no gap. -/
theorem endsValue_append {filler rest : List Char}
    (hfiller : ∀ c ∈ filler, isValueChar c = false ∧ isOperatorChar c = false)
    (hrest : rest = [] ∨ ∃ c ∈ filler, isGap c = false) : EndsValue (filler ++ rest) := by
  induction filler with
  | nil =>
    rcases hrest with rfl | ⟨c, hc, -⟩
    · exact ⟨rfl, fun c hc => by cases hc⟩
    · cases hc
  | cons c filler ih =>
    obtain ⟨hvalue, hoperator⟩ := hfiller c List.mem_cons_self
    refine ⟨?_, fun d hd => ?_⟩
    · rw [List.cons_append, takeValue_cons_of_not hvalue fun hgap => ?_]
      -- behind a gap there is still no value to be taken
      refine (ih (fun d hd => hfiller d (List.mem_cons_of_mem c hd)) ?_).1
      refine hrest.imp_right fun ⟨d, hd, hnot⟩ => ⟨d, ?_, hnot⟩
      rcases List.mem_cons.1 hd with rfl | hd
      · rw [hgap] at hnot
        cases hnot
      · exact hd
    · rw [List.cons_append, List.head?_cons, Option.mem_some_iff] at hd
      exact hd ▸ hoperator

theorem pieces_filler_append {filler : List Char}
    (hfiller : ∀ c ∈ filler, isValueChar c = false ∧ isOperatorChar c = false) (rest : List Char) :
    pieces (filler ++ rest) = pieces rest :=
  pieces_append (fun c hc => isFieldChar_of_filler (hfiller c hc).1) rest

/-- Filling characters are skipped, also where a joiner is taken off their head. -/
theorem pieces_takeJoiner_append {filler rest : List Char}
    (hfiller : ∀ c ∈ filler, isValueChar c = false ∧ isOperatorChar c = false)
    (hrest : rest = [] ∨ filler ≠ []) : pieces (takeJoiner (filler ++ rest)).2 = pieces rest := by
  cases filler with
  | nil =>
    rcases hrest with rfl | hne
    · rfl
    · exact absurd rfl hne
  | cons c filler =>
    rw [List.cons_append, takeJoiner]
    split
    · exact pieces_filler_append (fun d hd => hfiller d (List.mem_cons_of_mem c hd)) rest
    · exact pieces_filler_append hfiller rest

/-- A separator that begins with `,` joins by `or`, and any other by `and`. -/
theorem Entry.getD_takeJoiner {e : Entry} (hne : e.separator.toList ≠ []) (rest : List Char) :
    (takeJoiner (e.separator.toList ++ rest)).1.getD .and = e.combinator := by
  have hhead : (e.separator.toList ++ rest)[0]? = e.separator.toList.head? := by
    obtain ⟨c, separator, hseparator⟩ := List.exists_cons_of_ne_nil hne
    rw [hseparator]
    rfl
  rw [takeJoiner_eq, getD_bind_ofMarker?, hhead, combinator]

/-! ## Whole filter strings -/

/-- A condition at the head of the characters is the first piece, if its value ends there. -/
theorem Entry.IsWellFormed.pieces_text_append {e : Entry} (h : e.IsWellFormed) {rest : List Char}
    (hrest : EndsValue rest) :
    pieces (e.text.toList ++ rest) =
      (e.filter (takeJoiner rest).1).toPiece :: pieces (takeJoiner rest).2 := by
  have hpieces := pieces_piece_append (h.isRead none) hrest
  simp only [Entry.text, String.toList_append, List.append_assoc]
  exact hpieces

theorem entriesFilters_cons_ne_nil (e : Entry) (rest : List Entry) :
    entriesFilters (e :: rest) ≠ [] := by
  cases rest <;> exact List.cons_ne_nil _ _

/-- The pieces of conditions, with filling characters after the last one, spell their filters once their
joiners are settled. -/
theorem exists_pieces_entriesText {entries : List Entry} {tail : String}
    (hentries : ∀ e ∈ entries, e.IsWellFormed)
    (hseparators : ∀ e ∈ entries.dropLast, IsSeparator e.separator) (htail : IsFiller tail) :
    ∃ fs, pieces ((entriesText entries).toList ++ tail.toList) = fs.map toPiece ∧
      settleJoiners fs = entriesFilters entries := by
  have hend : EndsValue (tail.toList ++ []) := endsValue_append htail (.inl rfl)
  have hnone : pieces (takeJoiner (tail.toList ++ [])).2 = pieces [] :=
    pieces_takeJoiner_append htail (.inl rfl)
  rw [List.append_nil] at hend hnone
  rw [pieces_nil] at hnone
  fun_induction entriesText entries with
  | case1 =>
    have hpieces := pieces_filler_append htail []
    rw [List.append_nil, pieces_nil] at hpieces
    exact ⟨[], hpieces, rfl⟩
  | case2 e =>
    have hpieces := (hentries e List.mem_cons_self).pieces_text_append hend
    rw [hnone] at hpieces
    exact ⟨[e.filter (takeJoiner tail.toList).1], hpieces, rfl⟩
  | case3 e next rest ih =>
    rw [List.dropLast_cons_cons, List.forall_mem_cons] at hseparators
    obtain ⟨hseparator, hlater⟩ := hseparators
    obtain ⟨fs, hfs, hsettled⟩ := ih (fun e' he' => hentries e' (List.mem_cons_of_mem e he')) hlater
    have hne : e.separator.toList ≠ [] := by
      obtain ⟨c, hc, -⟩ := hseparator.nonblank
      exact List.ne_nil_of_mem hc
    set more := (entriesText (next :: rest)).toList ++ tail.toList with hmore
    have hendsMore : EndsValue (e.separator.toList ++ more) :=
      endsValue_append hseparator.filler (.inr hseparator.nonblank)
    have hpieces := (hentries e List.mem_cons_self).pieces_text_append hendsMore
    rw [pieces_takeJoiner_append hseparator.filler (.inr hne), hfs] at hpieces
    refine ⟨e.filter (takeJoiner (e.separator.toList ++ more)).1 :: fs, ?_, ?_⟩
    · rw [String.toList_append, String.toList_append, List.append_assoc, List.append_assoc, ← hmore]
      exact hpieces
    · have hfsne : fs ≠ [] := by
        rintro rfl
        exact entriesFilters_cons_ne_nil next rest hsettled.symm
      rw [settleJoiners_cons hfsne, hsettled, entriesFilters, ← e.getD_takeJoiner hne more]
      rfl

/-- Well-formed conditions are read back from their spelling, in order and nothing else, whatever
separates them and whatever filling text stands before and after them. Each but the last is joined by
`or` if its separator begins with `,`, and by `and` otherwise. -/
theorem parse_separated {entries : List Entry} {head tail : String}
    (hentries : ∀ e ∈ entries, e.IsWellFormed)
    (hseparators : ∀ e ∈ entries.dropLast, IsSeparator e.separator) (hhead : IsFiller head)
    (htail : IsFiller tail) :
    parse (head ++ entriesText entries ++ tail) = .ok (entriesFilters entries) := by
  obtain ⟨fs, hpieces, hsettled⟩ := exists_pieces_entriesText hentries hseparators htail
  rw [parse, String.toList_append, String.toList_append, List.append_assoc,
    pieces_filler_append hhead, hpieces, ofPieces?_map_toPiece, Except.map, hsettled]

/-- A separator that begins with a blank, one that begins with a comma, values with a gap, with an `@`
as their first word and with nothing but `@`, and filling text on both sides. -/
theorem parse_separated_three :
    let entries : List Entry := [⟨"a", .array .has, "x y", " , é\n"⟩,
      ⟨"b_1", .date .ge, "@ z", ",;"⟩, ⟨"C", .generic .eq, "@", ""⟩]
    let fs : List Filter := [⟨"a", .array .has, "x y", some .and⟩,
      ⟨"b_1", .date .ge, "@ z", some .or⟩, ⟨"C", .generic .eq, "@", none⟩]
    (∀ e ∈ entries, e.IsWellFormed) ∧ (∀ e ∈ entries.dropLast, IsSeparator e.separator) ∧
      IsFiller "¿ " ∧ IsFiller ";\t" ∧ parse "¿ a@==x y , é\nb_1$>=@ z,;C==@;\t" = .ok fs := by
  intro entries fs
  have hentries : ∀ e ∈ entries, e.IsWellFormed := by
    simp only [entries, List.forall_mem_cons]
    exact ⟨⟨by decide, by decide, by decide⟩, ⟨by decide, by decide, by decide⟩,
      ⟨by decide, by decide, by decide⟩, by simp⟩
  have hseparators : ∀ e ∈ entries.dropLast, IsSeparator e.separator := by
    simp only [entries, List.dropLast, List.forall_mem_cons]
    exact ⟨⟨by decide, ',', by decide, rfl⟩, ⟨by decide, ',', by decide, rfl⟩, by simp⟩
  have hhead : IsFiller "¿ " := by decide
  have htail : IsFiller ";\t" := by decide
  have htext : "¿ " ++ entriesText entries ++ ";\t" = "¿ a@==x y , é\nb_1$>=@ z,;C==@;\t" := by
    decide +kernel
  have hfilters : entriesFilters entries = fs := by decide
  have hparse := parse_separated hentries hseparators hhead htail
  rw [htext, hfilters] at hparse
  exact ⟨hentries, hseparators, hhead, htail, hparse⟩

end FilterClause.Filter
