import FilterClause.Proofs.CommandOutput
import FilterClause.Proofs.Reading

/-!
# Filters are read back from their spelling

The filters of a filter string, spelled one after the other, are a filter string of the same filters
(`parse_join_render`). Characters that mean nothing in filter strings may stand after each of them, so
the plain output of `parse`, with a line for each filter, can be read again (`parse_plain_output`).
-/

namespace FilterClause

namespace Filter

/-- A character that no part of a filter string has. -/
def isForeign (c : Char) : Bool :=
  !isValueChar c && !isGap c && !isOperatorChar c && (Combinator.ofMarker? c).isNone

theorem isForeign_iff {c : Char} : isForeign c = true ↔ isValueChar c = false ∧
    isGap c = false ∧ isOperatorChar c = false ∧ Combinator.ofMarker? c = none := by
  simp [isForeign, and_assoc]

theorem endsPiece_of_foreign {cs : List Char} (h : ∀ c ∈ cs, isForeign c = true) : EndsPiece cs := by
  intro c hc
  obtain ⟨hvalue, hgap, hoperator, -⟩ := isForeign_iff.1 (h c (List.mem_of_mem_head? hc))
  exact ⟨hvalue, hgap, hoperator⟩

theorem takeJoiner_of_foreign {cs : List Char} (h : ∀ c ∈ cs, isForeign c = true) :
    takeJoiner cs = (none, cs) := by
  cases cs with
  | nil => rfl
  | cons c cs =>
    obtain ⟨-, -, -, hmarker⟩ := isForeign_iff.1 (h c List.mem_cons_self)
    rw [takeJoiner, hmarker]

theorem pieces_of_foreign {skipped : List Char} (h : ∀ c ∈ skipped, isForeign c = true)
    (cs : List Char) : pieces (skipped ++ cs) = pieces cs := by
  refine pieces_append (fun c hc => ?_) cs
  obtain ⟨hvalue, -⟩ := isForeign_iff.1 (h c hc)
  rw [Bool.eq_false_iff] at hvalue ⊢
  exact fun hfield => hvalue (isValueChar_of_isFieldChar hfield)

/-- A marker ends a piece and is read as the combinator that it stands for. -/
theorem endsPiece_marker (j : Combinator) (rest : List Char) : EndsPiece (j.marker :: rest) := by
  intro c hc
  rw [List.head?_cons, Option.mem_some_iff] at hc
  subst hc
  cases j <;> decide

theorem takeJoiner_marker (j : Combinator) (rest : List Char) :
    takeJoiner (j.marker :: rest) = (some j, rest) := by
  rw [takeJoiner, Combinator.ofMarker?_marker]

theorem toList_render (f : Filter) : f.render.toList =
    f.field.toList ++ (f.operator.token.toList ++ (f.value.toList ++
      (joinerText f.joiner).toList)) := by
  simp only [render, String.toList_append, List.append_assoc]

/-- A filter with a joiner is read from its spelling, whatever follows. -/
theorem pieces_render_of_joiner {f : Filter} {j : Combinator} (hf : f.toPiece.IsRead)
    (hjoiner : f.joiner = some j) (rest : List Char) :
    pieces (f.render.toList ++ rest) = f.toPiece :: pieces rest := by
  have hpieces := pieces_piece_append hf (endsPiece_marker j rest).endsValue
  rw [takeJoiner_marker] at hpieces
  have htext : (joinerText f.joiner).toList = [j.marker] := by
    rw [hjoiner]
    show (String.singleton j.marker).toList = [j.marker]
    exact String.toList_singleton j.marker
  rw [toList_render, htext]
  simp only [List.append_assoc, List.singleton_append]
  rw [← hjoiner] at hpieces
  exact hpieces

/-- A filter without a joiner is read from its spelling, if it is the last one. -/
theorem pieces_render_of_last {f : Filter} (hf : f.toPiece.IsRead) (hjoiner : f.joiner = none)
    {rest : List Char} (hrest : ∀ c ∈ rest, isForeign c = true) :
    pieces (f.render.toList ++ rest) = [f.toPiece] := by
  have hpieces := pieces_piece_append hf (endsPiece_of_foreign hrest).endsValue
  have hnone := pieces_of_foreign hrest []
  rw [List.append_nil] at hnone
  rw [takeJoiner_of_foreign hrest, hnone, ← hjoiner, pieces] at hpieces
  rw [toList_render, hjoiner]
  simp only [joinerText, String.toList_empty, List.append_nil, List.append_assoc]
  exact hpieces

/-- Filters with settled joiners are read from their spellings, with foreign characters after
each. -/
theorem pieces_renders {fs : List Filter} (hfs : ∀ f ∈ fs, f.toPiece.IsRead)
    (hsettled : settleJoiners fs = fs) {rest : List Char} (hrest : ∀ c ∈ rest, isForeign c = true) :
    pieces (fs.flatMap fun f => f.render.toList ++ rest) = fs.map toPiece := by
  -- every filter but the last ends at its marker, and the last one at the foreign characters
  induction fs with
  | nil => rw [List.flatMap_nil, pieces, List.map_nil]
  | cons f fs ih =>
    cases fs with
    | nil =>
      rw [settleJoiners, List.cons.injEq] at hsettled
      have hjoiner : f.joiner = none := (congrArg Filter.joiner hsettled.1).symm
      rw [List.flatMap_cons, List.flatMap_nil, List.append_nil]
      exact pieces_render_of_last (hfs f List.mem_cons_self) hjoiner hrest
    | cons g fs =>
      rw [settleJoiners, List.cons.injEq] at hsettled
      have hjoiner : f.joiner = some (f.joiner.getD .and) :=
        (congrArg Filter.joiner hsettled.1).symm
      rw [List.flatMap_cons, List.append_assoc,
        pieces_render_of_joiner (hfs f List.mem_cons_self) hjoiner, pieces_of_foreign hrest,
        ih (fun f' hf' => hfs f' (List.mem_cons_of_mem f hf')) hsettled.2]
      rfl

/-- The spellings of the filters of a filter string, with foreign characters after each, are a filter
string of the same filters. -/
theorem parse_join_render {s : String} {fs : List Filter} (h : parse s = .ok fs) {rest : String}
    (hrest : ∀ c ∈ rest.toList, isForeign c = true) :
    parse (String.join (fs.map fun f => f.render ++ rest)) = .ok fs := by
  obtain ⟨hread, hsettled⟩ := isRead_of_parse h
  have hchars : (String.join (fs.map fun f => f.render ++ rest)).toList =
      fs.flatMap fun f => f.render.toList ++ rest.toList := by
    rw [String.toList_join, List.flatMap_map]
    simp only [String.toList_append]
  rw [parse, hchars, pieces_renders hread hsettled hrest, ofPieces?_map_toPiece, Except.map,
    hsettled]

end Filter

/-! ## Plain output -/

/-- The filters of a filter string are the filters of their spellings, one after the other, and also of
the lines that `parse` prints for them in plain mode. -/
theorem parse_plain_output {s : String} {fs : List Filter} (h : Filter.parse s = .ok fs) :
    Filter.parse (String.join (fs.map Filter.render)) = .ok fs ∧
      ∀ random, ∃ text, (Command.parse s).run random .plain .unbounded = (.ok (), ⟨none, text⟩) ∧
        text = String.join (fs.map fun f => f.render ++ "\n") ∧ Filter.parse text = .ok fs := by
  constructor
  · have hparse : Filter.parse (String.join (fs.map fun f => f.render ++ "")) = .ok fs :=
      Filter.parse_join_render h (by simp)
    simpa only [String.append_empty] using hparse
  · intro random
    refine ⟨_, ?_, rfl, Filter.parse_join_render h (List.all_eq_true.1 (by decide))⟩
    have hevaluate : (Command.parse s).evaluate random = .ok (.filters fs) := by
      rw [Command.evaluate, h]
      rfl
    rw [Command.run, hevaluate]
    simp only [Result.lines, Sink.unbounded, Sink.writeLines_unbounded, List.map_map,
      String.empty_append]
    rfl

/-- The `@` that is left over from an operator run is left over again; a missing joiner and a trailing
one are settled already. -/
theorem parse_plain_output_leftover :
    let fs : List Filter := [⟨"a", .generic .eq, "@ b", some .and⟩, ⟨"c", .generic .gt, "1", none⟩]
    Filter.parse "(a==@ b) c>1," = .ok fs ∧ Filter.parse "a==@ b;c>1" = .ok fs ∧
      ∀ random, ∃ text, (Command.parse "(a==@ b) c>1,").run random .plain .unbounded =
        (.ok (), ⟨none, text⟩) ∧ text = "a==@ b;\nc>1\n" ∧ Filter.parse text = .ok fs := by
  intro fs
  have hparse : Filter.parse "(a==@ b) c>1," = .ok fs := by decide +kernel
  obtain ⟨hjoined, hprinted⟩ := parse_plain_output hparse
  exact ⟨hparse, hjoined, hprinted⟩

end FilterClause
