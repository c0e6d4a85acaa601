import FilterClause.Proofs.Grammar

/-!
# Filter strings are read by their grammar

The matches of a filter string are given by their places (`Matches`): the next one stands at the first
place from which a field, an operator and a value can be read, and each of its parts is the longest
that the grammar allows there (`Match.IsAt`).

A filter string has one list of matches (`exists_matches`, `Matches.unique`), and `parse` makes a
filter of each, or names the first operator that is not a known one (`parse_matches`).
-/

namespace FilterClause.Filter

/-! ## Matches -/

/-- A piece of a filter string with the place of its first character. -/
structure Match where
  start : ℕ
  piece : Piece
  deriving DecidableEq, Repr

namespace Match

/-- The place of the operator. -/
def operatorStart (m : Match) : ℕ :=
  m.start + m.piece.field.length

/-- The place of the value. -/
def valueStart (m : Match) : ℕ :=
  m.operatorStart + m.piece.operator.length

/-- The place after the value. -/
def valueStop (m : Match) : ℕ :=
  m.valueStart + m.piece.value.length

/-- The place after the match; a combinator belongs to it. -/
def stop (m : Match) : ℕ :=
  m.valueStop + if m.piece.joiner.isSome then 1 else 0

/-- The match stands at its place among the characters, and each of its parts is as long as the
grammar allows: the whole run of the field, the longest operator that a value directly follows, the
longest value, and a combinator if one directly follows. -/
structure IsAt (m : Match) (cs : List Char) : Prop where
  field : Longest (IsRunOf isFieldChar) (cs.drop m.start) m.piece.field
  operator : Longest (TakesValue (cs.drop m.operatorStart)) (cs.drop m.operatorStart) m.piece.operator
  value : Longest IsValue (cs.drop m.valueStart) m.piece.value
  joiner : m.piece.joiner = cs[m.valueStop]?.bind Combinator.ofMarker?

/-- The operator of the match is a known one. -/
def Registered (m : Match) : Prop :=
  ∃ op : Operator, op.token.toList = m.piece.operator

end Match

/-- The matches of the characters from a place on: each stands at the first place that is readable
after the one before it. -/
inductive Matches (cs : List Char) : ℕ → List Match → Prop
  | nil {i : ℕ} (hrest : ∀ j, i ≤ j → ¬ Readable (cs.drop j)) : Matches cs i []
  | cons {i : ℕ} {m : Match} {ms : List Match} (hle : i ≤ m.start)
      (hskip : ∀ j, i ≤ j → j < m.start → ¬ Readable (cs.drop j)) (hat : m.IsAt cs)
      (hrest : Matches cs m.stop ms) : Matches cs i (m :: ms)

/-! ## Finding the matches -/

theorem drop_of_eq_append {cs xs ys : List Char} {i : ℕ} (h : cs.drop i = xs ++ ys) :
    cs.drop (i + xs.length) = ys := by
  rw [← List.drop_drop, h, List.drop_left]

theorem takeJoiner_eq (cs : List Char) :
    takeJoiner cs = (cs[0]?.bind Combinator.ofMarker?,
      cs.drop (if (cs[0]?.bind Combinator.ofMarker?).isSome then 1 else 0)) := by
  cases cs with
  | nil => rfl
  | cons c cs =>
    rw [takeJoiner, List.getElem?_cons_zero, Option.bind_some]
    split
    · next j hj =>
      rw [hj]
      rfl
    · next hj =>
      rw [hj]
      rfl

/-- A piece that is read is a match, and reading goes on after it. -/
theorem isAt_of_readPiece {cs after : List Char} {i : ℕ} {p : Piece}
    (hfield : (cs.drop i).takeWhile isFieldChar ≠ []) (h : readPiece (cs.drop i) = (some p, after)) :
    Match.IsAt ⟨i, p⟩ cs ∧ after = cs.drop (Match.stop ⟨i, p⟩) := by
  simp only [readPiece] at h
  split at h
  · cases h
  · next operator fromValue hsplit =>
    rw [Prod.mk.injEq, Option.some.injEq] at h
    obtain ⟨rfl, rfl⟩ := h
    obtain ⟨hoperator, hafterField, hstarts⟩ := longest_of_splitRun? hsplit
    set m : Match := ⟨i, _⟩ with hm
    have hrun : cs.drop m.operatorStart = (cs.drop i).dropWhile isFieldChar :=
      drop_of_eq_append List.takeWhile_append_dropWhile.symm
    have hvalue : cs.drop m.valueStart = fromValue := drop_of_eq_append (hrun.trans hafterField)
    have hrest : cs.drop m.valueStop = (takeValue fromValue).2 :=
      drop_of_eq_append (hvalue.trans (takeValue_append_takeValue fromValue).symm)
    have hnext : cs[m.valueStop]? = (takeValue fromValue).2[0]? := by
      rw [← hrest, List.getElem?_drop, Nat.add_zero]
    refine ⟨⟨longest_takeWhile hfield, ?_, ?_, ?_⟩, ?_⟩
    · rw [hrun]
      exact hoperator
    · rw [hvalue]
      exact longest_takeValue hstarts
    · rw [hnext, hm, takeJoiner_eq]
    · rw [Match.stop, ← List.drop_drop, hrest, hm, takeJoiner_eq]

/-- Where no piece is read, no place of the field and of the run after it is readable, and reading
goes on after the two. -/
theorem not_readable_of_readPiece {cs after : List Char} {i : ℕ}
    (h : readPiece (cs.drop i) = (none, after)) :
    ∃ k, i ≤ k ∧ after = cs.drop k ∧ ∀ j, i ≤ j → j < k → ¬ Readable (cs.drop j) := by
  simp only [readPiece] at h
  split at h
  · next hsplit =>
    rw [Prod.mk.injEq] at h
    obtain ⟨-, rfl⟩ := h
    have hnone := not_takesValue_of_splitRun? hsplit
    set field := (cs.drop i).takeWhile isFieldChar with hfieldEq
    set afterField := (cs.drop i).dropWhile isFieldChar with hafterField
    set run := afterField.takeWhile isOperatorChar with hrun
    set rest := afterField.dropWhile isOperatorChar with hrest
    have hcs : cs.drop i = field ++ afterField := List.takeWhile_append_dropWhile.symm
    have hafter : afterField = run ++ rest := List.takeWhile_append_dropWhile.symm
    have hdrop : cs.drop (i + field.length) = afterField := drop_of_eq_append hcs
    refine ⟨i + field.length + run.length, by omega,
      (drop_of_eq_append (hdrop.trans hafter)).symm, fun j hij hjk => ?_⟩
    rcases Nat.lt_or_ge j (i + field.length) with hj | hj
    · -- the rest of the field is a field before the same run
      obtain ⟨k, rfl⟩ := Nat.exists_eq_add_of_le hij
      rw [← List.drop_drop, hcs, List.drop_append_of_le_length (by omega)]
      have htail : IsRunOf isFieldChar (field.drop k) := by
        refine ⟨fun hnil => ?_, fun c hc => List.mem_takeWhile_imp (List.mem_of_mem_drop hc)⟩
        rw [List.drop_eq_nil_iff] at hnil
        omega
      rw [readable_append_iff htail fun c hc => eq_false_of_mem_head?_dropWhile hc]
      rintro ⟨operator, htakes⟩
      exact hnone operator htakes
    · obtain ⟨k, rfl⟩ := Nat.exists_eq_add_of_le hj
      rw [← List.drop_drop, hdrop, hafter]
      refine not_readable_drop (fun c hc => ?_) (by omega)
      exact isFieldChar_of_isOperatorChar (List.mem_takeWhile_imp hc)
  · cases h

/-- Places that are not readable can be skipped. -/
theorem Matches.skip {cs : List Char} {i k : ℕ} {ms : List Match} (hik : i ≤ k)
    (hskip : ∀ j, i ≤ j → j < k → ¬ Readable (cs.drop j)) (h : Matches cs k ms) :
    Matches cs i ms := by
  cases h with
  | nil hrest =>
    refine .nil fun j hij => ?_
    rcases Nat.lt_or_ge j k with hj | hj
    · exact hskip j hij hj
    · exact hrest j hj
  | cons hle hbefore hat hrest =>
    refine .cons (hik.trans hle) (fun j hij hjm => ?_) hat hrest
    rcases Nat.lt_or_ge j k with hj | hj
    · exact hskip j hij hj
    · exact hbefore j hj hjm

/-- The pieces that are read are those of the matches. -/
theorem exists_matches (cs : List Char) (i : ℕ) :
    ∃ ms, Matches cs i ms ∧ pieces (cs.drop i) = ms.map Match.piece := by
  generalize hrest : cs.drop i = rest
  fun_induction pieces rest generalizing i with
  | case1 =>
    refine ⟨[], .nil fun j hij hreadable => ?_, rfl⟩
    obtain ⟨c, cs', hcons, -⟩ := hreadable.exists_cons
    rw [List.drop_eq_nil_iff] at hrest
    rw [List.drop_eq_nil_of_le (hrest.trans hij)] at hcons
    cases hcons
  | case2 c rest hc ih =>
    have hfield : (cs.drop i).takeWhile isFieldChar ≠ [] := by
      rw [hrest, List.takeWhile_cons_of_pos hc]
      exact List.cons_ne_nil c _
    cases hread : readPiece (c :: rest) with
    | mk piece after =>
      rw [hread] at ih
      have hread' := hrest ▸ hread
      cases piece with
      | none =>
        obtain ⟨k, hik, rfl, hskip⟩ := not_readable_of_readPiece hread'
        obtain ⟨ms, hms, hpieces⟩ := ih k rfl
        exact ⟨ms, hms.skip hik hskip, hpieces⟩
      | some p =>
        obtain ⟨hat, rfl⟩ := isAt_of_readPiece hfield hread'
        obtain ⟨ms, hms, hpieces⟩ := ih _ rfl
        refine ⟨⟨i, p⟩ :: ms, .cons le_rfl (fun j hij hji => absurd hji hij.not_gt) hat hms, ?_⟩
        rw [List.map_cons, ← hpieces]
        rfl
  | case3 c rest hc ih =>
    have hsplit : cs.drop i = [c] ++ rest := hrest
    have hnext : cs.drop (i + 1) = rest := drop_of_eq_append hsplit
    obtain ⟨ms, hms, hpieces⟩ := ih (i + 1) hnext
    refine ⟨ms, hms.skip (Nat.le_succ i) (fun j hij hji hreadable => ?_), hpieces⟩
    obtain ⟨d, rest', hcons, hd⟩ := hreadable.exists_cons
    rw [Nat.le_antisymm (Nat.le_of_lt_succ hji) hij, hrest, List.cons.injEq] at hcons
    exact hc (hcons.1 ▸ hd)

/-! ## There is one list of matches -/

theorem Match.IsAt.drop_start {m : Match} {cs : List Char} (h : m.IsAt cs) :
    cs.drop m.start = m.piece.field ++ cs.drop m.operatorStart := by
  obtain ⟨rest, hrest⟩ := h.field.isPrefix
  rw [Match.operatorStart, drop_of_eq_append hrest.symm, hrest]

theorem Match.IsAt.readable {m : Match} {cs : List Char} (h : m.IsAt cs) :
    Readable (cs.drop m.start) := by
  obtain ⟨hoperator, value, hvalue, hprefix⟩ := h.operator.holds
  refine ⟨m.piece.field, m.piece.operator, value, h.field.holds, hoperator, hvalue, ?_⟩
  rw [h.drop_start, List.prefix_append_right_inj]
  exact hprefix

theorem Match.IsAt.unique {m m' : Match} {cs : List Char} (h : m.IsAt cs) (h' : m'.IsAt cs)
    (hstart : m.start = m'.start) : m = m' := by
  have hfield : m.piece.field = m'.piece.field := (hstart ▸ h.field).unique h'.field
  have hoperatorStart : m.operatorStart = m'.operatorStart := by
    rw [operatorStart, operatorStart, hstart, hfield]
  have hoperator : m.piece.operator = m'.piece.operator :=
    (hoperatorStart ▸ h.operator).unique h'.operator
  have hvalueStart : m.valueStart = m'.valueStart := by
    rw [valueStart, valueStart, hoperatorStart, hoperator]
  have hvalue : m.piece.value = m'.piece.value := (hvalueStart ▸ h.value).unique h'.value
  have hjoiner : m.piece.joiner = m'.piece.joiner := by
    rw [h.joiner, h'.joiner, valueStop, valueStop, hvalueStart, hvalue]
  obtain ⟨i, field, operator, value, joiner⟩ := m
  obtain ⟨i', field', operator', value', joiner'⟩ := m'
  simp only at hstart hfield hoperator hvalue hjoiner
  rw [hstart, hfield, hoperator, hvalue, hjoiner]

theorem Matches.unique {cs : List Char} {i : ℕ} {ms ms' : List Match} (h : Matches cs i ms)
    (h' : Matches cs i ms') : ms = ms' := by
  induction h generalizing ms' with
  | nil hrest =>
    cases h' with
    | nil => rfl
    | cons hle _ hat _ => exact absurd hat.readable (hrest _ hle)
  | cons hle hskip hat _ ih =>
    cases h' with
    | nil hrest => exact absurd hat.readable (hrest _ hle)
    | cons hle' hskip' hat' hrest' =>
      -- neither match stands before the other, for there it would have been skipped
      have hstart := Nat.le_antisymm
        (Nat.le_of_not_lt fun hlt => hskip _ hle' hlt hat'.readable)
        (Nat.le_of_not_lt fun hlt => hskip' _ hle hlt hat.readable)
      obtain rfl := hat.unique hat' hstart
      rw [ih hrest']

/-- Reading finds the matches. -/
theorem Matches.pieces_eq {cs : List Char} {ms : List Match} (h : Matches cs 0 ms) :
    pieces cs = ms.map Match.piece := by
  obtain ⟨ms', hms', hpieces⟩ := exists_matches cs 0
  rw [h.unique hms', ← hpieces, List.drop_zero]

theorem Matches.isAt {cs : List Char} {i : ℕ} {ms : List Match} (h : Matches cs i ms) {m : Match}
    (hm : m ∈ ms) : m.IsAt cs := by
  induction h with
  | nil => cases hm
  | cons _ _ hat _ ih =>
    rcases List.mem_cons.1 hm with rfl | hm
    · exact hat
    · exact ih hm

/-- What stands outside the matches is not readable. -/
theorem Matches.not_readable {cs : List Char} {i j : ℕ} {ms : List Match} (h : Matches cs i ms)
    (hij : i ≤ j) (hout : ∀ m ∈ ms, ¬ (m.start ≤ j ∧ j < m.stop)) : ¬ Readable (cs.drop j) := by
  induction h with
  | nil hrest => exact hrest j hij
  | @cons i m ms hle hskip hat hrest ih =>
    have hm := hout m List.mem_cons_self
    rcases Nat.lt_or_ge j m.start with hj | hj
    · exact hskip j hij hj
    · exact ih (by omega) fun m' hm' => hout m' (List.mem_cons_of_mem m hm')

/-! ## The filters of the matches -/

/-- The filter has the parts of the match. -/
structure Match.Carried (m : Match) (f : Filter) : Prop where
  field : f.field.toList = m.piece.field
  operator : f.operator.token.toList = m.piece.operator
  value : f.value.toList = m.piece.value

theorem Match.registered_iff {m : Match} : m.Registered ↔ ∃ f, ofPiece? m.piece = .ok f := by
  constructor
  · rintro ⟨op, hop⟩
    refine ⟨⟨String.ofList m.piece.field, op, String.ofList m.piece.value, m.piece.joiner⟩, ?_⟩
    rw [ofPiece?_eq_ok_iff, toPiece, hop]
    simp only [String.toList_ofList]
  · rintro ⟨f, hf⟩
    exact ⟨f.operator, by rw [ofPiece?_eq_ok_iff.1 hf, toPiece]⟩

theorem Match.ofPiece?_of_not_registered {m : Match} (h : ¬ m.Registered) :
    ofPiece? m.piece = .error (.unknownOperator (String.ofList m.piece.operator)) := by
  rw [ofPiece?, make?]
  split
  · next op hop =>
    exact absurd ⟨op, by rw [Operator.ofToken?_eq_some_iff.1 hop, String.toList_ofList]⟩ h
  · rfl

/-- The first match whose operator is not a known one is the error. -/
theorem ofPieces?_eq_error {before after : List Match} {m : Match}
    (hbefore : ∀ m' ∈ before, m'.Registered) (hm : ¬ m.Registered) :
    ofPieces? ((before ++ m :: after).map Match.piece) =
      .error (.unknownOperator (String.ofList m.piece.operator)) := by
  induction before with
  | nil => rw [List.nil_append, List.map_cons, ofPieces?, Match.ofPiece?_of_not_registered hm]
  | cons m' before ih =>
    obtain ⟨f, hf⟩ := Match.registered_iff.1 (hbefore m' List.mem_cons_self)
    rw [List.cons_append, List.map_cons, ofPieces?, hf,
      ih fun m'' hm'' => hbefore m'' (List.mem_cons_of_mem m' hm'')]
    rfl

/-- Reading fails at the first match whose operator is not a known one. -/
theorem parse_eq_error {s : String} {before after : List Match} {m : Match}
    (hms : Matches s.toList 0 (before ++ m :: after)) (hbefore : ∀ m' ∈ before, m'.Registered)
    (hm : ¬ m.Registered) :
    parse s = .error (.unknownOperator (String.ofList m.piece.operator)) := by
  rw [parse, hms.pieces_eq, ofPieces?_eq_error hbefore hm]
  rfl

theorem exists_map_toPiece {ms : List Match} (h : ∀ m ∈ ms, m.Registered) :
    ∃ fs : List Filter, ms.map Match.piece = fs.map toPiece := by
  induction ms with
  | nil => exact ⟨[], rfl⟩
  | cons m ms ih =>
    obtain ⟨f, hf⟩ := Match.registered_iff.1 (h m List.mem_cons_self)
    obtain ⟨fs, hfs⟩ := ih fun m' hm' => h m' (List.mem_cons_of_mem m hm')
    exact ⟨f :: fs, by rw [List.map_cons, List.map_cons, ofPiece?_eq_ok_iff.1 hf, hfs]⟩

theorem exists_first_not_registered {ms : List Match} {m : Match} (hm : m ∈ ms)
    (hnot : ¬ m.Registered) : ∃ before m' after, ms = before ++ m' :: after ∧
      (∀ m'' ∈ before, m''.Registered) ∧ ¬ m'.Registered := by
  induction ms with
  | nil => cases hm
  | cons m' ms ih =>
    by_cases hm' : m'.Registered
    · rcases List.mem_cons.1 hm with rfl | hmem
      · exact absurd hm' hnot
      · obtain ⟨before, m'', after, rfl, hbefore, hm''⟩ := ih hmem
        exact ⟨m' :: before, m'', after, rfl, List.forall_mem_cons.2 ⟨hm', hbefore⟩, hm''⟩
    · exact ⟨[], m', ms, rfl, by simp, hm'⟩

/-- Reading succeeds when the matches spell filters, and settles the joiners of these. -/
theorem parse_eq_ok_iff {s : String} {ms : List Match} {fs : List Filter}
    (hms : Matches s.toList 0 ms) :
    parse s = .ok fs ↔ ∃ raw : List Filter, ms.map Match.piece = raw.map toPiece ∧
      fs = settleJoiners raw := by
  rw [parse, hms.pieces_eq]
  constructor
  · intro h
    cases hpieces : ofPieces? (ms.map Match.piece) with
    | error e =>
      rw [hpieces] at h
      cases h
    | ok raw =>
      rw [hpieces, Except.map, Except.ok.injEq] at h
      exact ⟨raw, ofPieces?_eq_ok_iff.1 hpieces, h.symm⟩
  · rintro ⟨raw, hraw, rfl⟩
    rw [ofPieces?_eq_ok_iff.2 hraw]
    rfl

/-- Reading fails at the first match whose operator is not a known one, and only there. -/
theorem parse_eq_error_iff {s : String} {ms : List Match} {e : Error}
    (hms : Matches s.toList 0 ms) :
    parse s = .error e ↔ ∃ before m after, ms = before ++ m :: after ∧
      (∀ m' ∈ before, m'.Registered) ∧ ¬ m.Registered ∧
      e = .unknownOperator (String.ofList m.piece.operator) := by
  constructor
  · intro h
    have hsome : ∃ m ∈ ms, ¬ m.Registered := by
      by_contra hall
      simp only [not_exists, not_and, not_not] at hall
      obtain ⟨raw, hraw⟩ := exists_map_toPiece hall
      rw [(parse_eq_ok_iff hms).2 ⟨raw, hraw, rfl⟩] at h
      cases h
    obtain ⟨m, hm, hnot⟩ := hsome
    obtain ⟨before, m', after, rfl, hbefore, hm'⟩ := exists_first_not_registered hm hnot
    rw [parse_eq_error hms hbefore hm', Except.error.injEq] at h
    exact ⟨before, m', after, rfl, hbefore, hm', h.symm⟩
  · rintro ⟨before, m, after, rfl, hbefore, hm, rfl⟩
    exact parse_eq_error hms hbefore hm

/-- The joiner of a filter is settled by whether another filter follows it. -/
theorem getElem?_settleJoiners (fs : List Filter) (k : ℕ) :
    (settleJoiners fs)[k]? = fs[k]?.map fun f =>
      { f with joiner := if k + 1 = fs.length then none else some (f.joiner.getD .and) } := by
  fun_induction settleJoiners fs generalizing k with
  | case1 => rfl
  | case2 f =>
    cases k with
    | zero => rfl
    | succ k => rfl
  | case3 f g rest ih =>
    cases k with
    | zero => simp
    | succ k =>
      rw [List.getElem?_cons_succ, List.getElem?_cons_succ, ih]
      simp only [List.length_cons, Nat.add_right_cancel_iff]

theorem length_settleJoiners (fs : List Filter) : (settleJoiners fs).length = fs.length := by
  fun_induction settleJoiners fs with
  | case1 => rfl
  | case2 f => rfl
  | case3 f g rest ih => simp only [List.length_cons, ih]

/-- A comma joins by `or`; a semicolon, and anything that is no combinator, by `and`. -/
theorem getD_bind_ofMarker? (next : Option Char) :
    (next.bind Combinator.ofMarker?).getD .and = if next = some ',' then .or else .and := by
  cases next with
  | none => rfl
  | some c =>
    simp only [Option.bind_some, Combinator.ofMarker?, Option.some.injEq]
    split
    · rfl
    · split
      · rfl
      · rfl

/-- The filters of a filter string have the parts of its matches, in order, and are joined as the
combinators say. -/
theorem getElem?_of_parse {s : String} {ms : List Match} {fs : List Filter}
    (hms : Matches s.toList 0 ms) (h : parse s = .ok fs) :
    fs.length = ms.length ∧ ∀ k m f, ms[k]? = some m → fs[k]? = some f → m.Carried f ∧
      f.joiner = if k + 1 = ms.length then none
        else some (if s.toList[m.valueStop]? = some ',' then .or else .and) := by
  rw [parse, hms.pieces_eq] at h
  cases hpieces : ofPieces? (ms.map Match.piece) with
  | error e =>
    rw [hpieces] at h
    cases h
  | ok gs =>
    rw [hpieces, Except.map, Except.ok.injEq] at h
    have hmap := ofPieces?_eq_ok_iff.1 hpieces
    have hlength : gs.length = ms.length := by
      rw [← List.length_map toPiece, ← hmap, List.length_map]
    refine ⟨?_, fun k m f hm hf => ?_⟩
    · rw [← h, length_settleJoiners, hlength]
    · rw [← h, getElem?_settleJoiners, hlength] at hf
      obtain ⟨g, hg, rfl⟩ := Option.map_eq_some_iff.1 hf
      have hpiece : m.piece = g.toPiece := by
        have hk := congrArg (·[k]?) hmap
        simp only [List.getElem?_map, hm, hg, Option.map_some, Option.some.injEq] at hk
        exact hk
      have hat := hms.isAt (List.mem_of_getElem? hm)
      have hjoiner : g.joiner = m.piece.joiner := (congrArg Piece.joiner hpiece).symm
      refine ⟨⟨?_, ?_, ?_⟩, ?_⟩
      · rw [hpiece, toPiece]
      · rw [hpiece, toPiece]
      · rw [hpiece, toPiece]
      · split
        · rfl
        · rw [hjoiner, hat.joiner, getD_bind_ofMarker?]

/-- A filter string is read by the grammar. It has one list of matches, and its pieces are read from
them in order; no other place of it is readable. If the operator of some match is not a known one, the
first such operator is the error. Otherwise there is a filter for each match, with its parts; all but
the last are joined, by `or` where a comma follows the value and by `and` elsewhere. -/
theorem parse_matches (s : String) :
    ∃ ms, (∀ ms', Matches s.toList 0 ms' ↔ ms' = ms) ∧ pieces s.toList = ms.map Match.piece ∧
      (∀ i, (∀ m ∈ ms, ¬ (m.start ≤ i ∧ i < m.stop)) → ¬ Readable (s.toList.drop i)) ∧
      (∀ before m after, ms = before ++ m :: after → (∀ m' ∈ before, m'.Registered) →
        ¬ m.Registered → parse s = .error (.unknownOperator (String.ofList m.piece.operator))) ∧
      ((∀ m ∈ ms, m.Registered) → ∃ fs, parse s = .ok fs ∧ fs.length = ms.length ∧
        ∀ k m f, ms[k]? = some m → fs[k]? = some f → m.Carried f ∧
          f.joiner = if k + 1 = ms.length then none
            else some (if s.toList[m.valueStop]? = some ',' then .or else .and)) := by
  obtain ⟨ms, hms, -⟩ := exists_matches s.toList 0
  refine ⟨ms, fun ms' => ⟨fun h => h.unique hms, fun h => h ▸ hms⟩, hms.pieces_eq, fun i hout => ?_,
    fun before m after hsplit hbefore hm => ?_, fun hall => ?_⟩
  · exact hms.not_readable (Nat.zero_le i) hout
  · exact parse_eq_error (hsplit ▸ hms) hbefore hm
  · obtain ⟨gs, hgs⟩ := exists_map_toPiece hall
    have hparse : parse s = .ok (settleJoiners gs) := by
      rw [parse, hms.pieces_eq, hgs, ofPieces?_map_toPiece]
      rfl
    exact ⟨settleJoiners gs, hparse, getElem?_of_parse hms hparse⟩

end FilterClause.Filter
