import FilterClause.Proofs.Reading

/-!
# The grammar of conditions

The grammar `FIELD OPERATOR VALUE` is written down by itself: fields and operators are runs of their
characters, values are words with gaps between them, and `Readable` says that the three can be read
from the head of some characters.

Reading takes the longest part that the grammar allows (`Longest`): the whole run of a field
(`longest_takeWhile`), the longest value (`longest_takeValue`), and the longest operator that a value
directly follows (`longest_of_splitRun?`). Where a run is not divided, nothing is readable
(`not_takesValue_of_splitRun?`, `readable_append_iff`).
-/

namespace FilterClause.Filter

/-! ## The grammar -/

/-- A nonempty run of characters of one class. -/
structure IsRunOf (p : Char → Bool) (cs : List Char) : Prop where
  ne_nil : cs ≠ []
  all : ∀ c ∈ cs, p c = true

/-- A value is a list of words, with a run of gaps between any two of them. -/
inductive IsValue : List Char → Prop
  | word {word : List Char} (hword : IsRunOf isValueChar word) : IsValue word
  | more {word gap value : List Char} (hword : IsRunOf isValueChar word) (hgap : IsRunOf isGap gap)
      (hvalue : IsValue value) : IsValue (word ++ (gap ++ value))

/-- An operator at the head of the characters that a value directly follows. -/
def TakesValue (cs operator : List Char) : Prop :=
  IsRunOf isOperatorChar operator ∧ ∃ value, IsValue value ∧ operator ++ value <+: cs

/-- A field, an operator and a value can be read from the head of the characters. -/
def Readable (cs : List Char) : Prop :=
  ∃ field operator value, IsRunOf isFieldChar field ∧ IsRunOf isOperatorChar operator ∧
    IsValue value ∧ field ++ (operator ++ value) <+: cs

/-- The longest beginning of the characters with a property. -/
structure Longest (P : List Char → Prop) (cs xs : List Char) : Prop where
  isPrefix : xs <+: cs
  holds : P xs
  length_le : ∀ ys, ys <+: cs → P ys → ys.length ≤ xs.length

theorem Longest.unique {P : List Char → Prop} {cs xs ys : List Char} (hx : Longest P cs xs)
    (hy : Longest P cs ys) : xs = ys := by
  have hxy := hy.length_le xs hx.isPrefix hx.holds
  have hyx := hx.length_le ys hy.isPrefix hy.holds
  exact (List.prefix_of_prefix_length_le hx.isPrefix hy.isPrefix hxy).eq_of_length
    (Nat.le_antisymm hxy hyx)

/-! ## Longest runs -/

instance (p : Char → Bool) (cs : List Char) : Decidable (IsRunOf p cs) :=
  decidable_of_iff (cs ≠ [] ∧ cs.all p = true)
    ⟨fun h => ⟨h.1, List.all_eq_true.1 h.2⟩, fun h => ⟨h.1, List.all_eq_true.2 h.2⟩⟩

theorem isRunOf_singleton {p : Char → Bool} {c : Char} (hc : p c = true) : IsRunOf p [c] :=
  ⟨List.cons_ne_nil c [], fun d hd => by rwa [List.mem_singleton.1 hd]⟩

theorem IsRunOf.exists_cons {p : Char → Bool} {cs : List Char} (h : IsRunOf p cs) :
    ∃ c rest, cs = c :: rest ∧ p c = true := by
  obtain ⟨c, rest, rfl⟩ := List.exists_cons_of_ne_nil h.ne_nil
  exact ⟨c, rest, rfl, h.all c List.mem_cons_self⟩

theorem prefix_takeWhile {p : Char → Bool} {cs xs : List Char} (hx : xs <+: cs)
    (hp : ∀ c ∈ xs, p c = true) : xs <+: cs.takeWhile p := by
  obtain ⟨ys, rfl⟩ := hx
  rw [List.takeWhile_append_of_pos hp]
  exact List.prefix_append xs _

theorem longest_takeWhile {p : Char → Bool} {cs : List Char} (hne : cs.takeWhile p ≠ []) :
    Longest (IsRunOf p) cs (cs.takeWhile p) where
  isPrefix := List.takeWhile_prefix p
  holds := ⟨hne, fun _ hc => List.mem_takeWhile_imp hc⟩
  length_le _ hys hp := (prefix_takeWhile hys hp.all).length_le

/-! ## Longest values -/

theorem takeValue_word_append {word : List Char} (hword : ∀ c ∈ word, isValueChar c = true)
    (cs : List Char) :
    takeValue (word ++ cs) = (word ++ (takeValue cs).1, (takeValue cs).2) := by
  induction word with
  | nil => rfl
  | cons c word ih =>
    rw [List.cons_append, takeValue_cons_of_value (hword c List.mem_cons_self),
      ih fun d hd => hword d (List.mem_cons_of_mem c hd), List.cons_append]

theorem takeValue_gap_append {gap cs : List Char} (hgap : ∀ c ∈ gap, isGap c = true)
    (hcs : (takeValue cs).1 ≠ []) :
    takeValue (gap ++ cs) = (gap ++ (takeValue cs).1, (takeValue cs).2) := by
  induction gap with
  | nil => rfl
  | cons c gap ih =>
    have hrest := ih fun d hd => hgap d (List.mem_cons_of_mem c hd)
    have hne : (takeValue (gap ++ cs)).1 ≠ [] := by
      rw [hrest]
      exact List.append_ne_nil_of_right_ne_nil gap hcs
    rw [List.cons_append, takeValue_cons_of_gap (hgap c List.mem_cons_self) hne, hrest,
      List.cons_append]

theorem IsRunOf.startsValue_append {word : List Char} (h : IsRunOf isValueChar word)
    (cs : List Char) : startsValue (word ++ cs) = true := by
  obtain ⟨c, word, rfl, hc⟩ := h.exists_cons
  exact hc

theorem IsValue.startsValue_append {value : List Char} (h : IsValue value) (cs : List Char) :
    startsValue (value ++ cs) = true := by
  cases h with
  | word hword => exact hword.startsValue_append cs
  | more hword hgap hvalue =>
    rw [List.append_assoc]
    exact hword.startsValue_append _

theorem IsValue.ne_nil {value : List Char} (h : IsValue value) : value ≠ [] := by
  rintro rfl
  have hstarts := h.startsValue_append []
  cases hstarts

/-- A value is read as a whole, and perhaps with more after it. -/
theorem IsValue.prefix_takeValue_append {value : List Char} (h : IsValue value) (cs : List Char) :
    value <+: (takeValue (value ++ cs)).1 := by
  induction h with
  | word hword =>
    rw [takeValue_word_append hword.all]
    exact List.prefix_append _ _
  | @more word gap value hword hgap hvalue ih =>
    have hne : (takeValue (value ++ cs)).1 ≠ [] := fun hnil => by
      rw [hnil, List.prefix_nil] at ih
      exact hvalue.ne_nil ih
    rw [List.append_assoc, List.append_assoc, takeValue_word_append hword.all,
      takeValue_gap_append hgap.all hne]
    exact (List.prefix_append_right_inj word).2 ((List.prefix_append_right_inj gap).2 ih)

theorem IsValue.cons {c : Char} (hc : isValueChar c = true) {value : List Char} (h : IsValue value) :
    IsValue (c :: value) := by
  have hcons : ∀ {word : List Char}, IsRunOf isValueChar word → IsRunOf isValueChar (c :: word) :=
    fun hword => ⟨List.cons_ne_nil c _, List.forall_mem_cons.2 ⟨hc, hword.all⟩⟩
  cases h with
  | word hword => exact .word (hcons hword)
  | more hword hgap hvalue => exact .more (hcons hword) hgap hvalue

/-- What is read as a whole is a value, apart from gaps that stand before it. -/
theorem exists_isValue_of_takeValue {cs : List Char} (h : takeValue cs = (cs, [])) (hne : cs ≠ []) :
    ∃ gap value, cs = gap ++ value ∧ (∀ c ∈ gap, isGap c = true) ∧ IsValue value := by
  induction cs with
  | nil => exact absurd rfl hne
  | cons c cs ih =>
    rcases takeValue_cons c cs with ⟨heq, hc⟩ | ⟨heq, -⟩
    · rw [heq, Prod.mk.injEq, List.cons.injEq] at h
      have hcs : takeValue cs = (cs, []) := Prod.ext h.1.2 h.2
      rcases hc with hc | ⟨hc, hmore⟩
      · by_cases hnil : cs = []
        · exact ⟨[], [c], by rw [hnil]; rfl, by simp, .word (isRunOf_singleton hc)⟩
        · obtain ⟨gap, value, rfl, hgap, hvalue⟩ := ih hcs hnil
          refine ⟨[], c :: (gap ++ value), rfl, by simp, ?_⟩
          -- the gaps found so far end the word of which `c` is the last character
          by_cases hgapne : gap = []
          · rw [hgapne, List.nil_append]
            exact hvalue.cons hc
          · exact .more (isRunOf_singleton hc) ⟨hgapne, hgap⟩ hvalue
      · rw [h.1.2] at hmore
        obtain ⟨gap, value, rfl, hgap, hvalue⟩ := ih hcs hmore
        exact ⟨c :: gap, value, rfl, List.forall_mem_cons.2 ⟨hc, hgap⟩, hvalue⟩
    · rw [heq] at h
      cases h

/-- What is read where a value starts is a value. -/
theorem isValue_takeValue {cs : List Char} (h : startsValue cs = true) :
    IsValue (takeValue cs).1 := by
  have hstarts := startsValue_takeValue h
  have hne : (takeValue cs).1 ≠ [] := fun hnil => by
    rw [hnil] at hstarts
    cases hstarts
  obtain ⟨gap, value, hsplit, hgap, hvalue⟩ :=
    exists_isValue_of_takeValue (takeValue_takeValue cs) hne
  cases gap with
  | nil =>
    rw [hsplit]
    exact hvalue
  | cons c gap =>
    -- no gap stands where a value starts
    have hc := isValueChar_of_isGap (hgap c List.mem_cons_self)
    rw [hsplit] at hstarts
    exact absurd hstarts (Bool.eq_false_iff.1 hc)

theorem longest_takeValue {cs : List Char} (h : startsValue cs = true) :
    Longest IsValue cs (takeValue cs).1 where
  isPrefix := ⟨(takeValue cs).2, takeValue_append_takeValue cs⟩
  holds := isValue_takeValue h
  length_le := by
    rintro value ⟨rest, rfl⟩ hvalue
    exact (hvalue.prefix_takeValue_append rest).length_le

/-- Values are what is read as a whole where a value starts. -/
theorem isValue_iff {cs : List Char} :
    IsValue cs ↔ startsValue cs = true ∧ takeValue cs = (cs, []) := by
  constructor
  · intro h
    have hstarts := h.startsValue_append []
    have hbegins := h.prefix_takeValue_append []
    rw [List.append_nil] at hstarts hbegins
    have hsplit := takeValue_append_takeValue cs
    have htaken : (takeValue cs).1 = cs :=
      (hbegins.eq_of_length_le (longest_takeValue hstarts).isPrefix.length_le).symm
    rw [htaken] at hsplit
    exact ⟨hstarts, Prod.ext htaken (List.append_cancel_left (hsplit.trans (List.append_nil cs).symm))⟩
  · rintro ⟨hstarts, htaken⟩
    have hvalue := isValue_takeValue hstarts
    rwa [htaken] at hvalue

instance : DecidablePred IsValue := fun _ => decidable_of_iff _ isValue_iff.symm

/-- A value stands at the head of the characters if they start with a word. -/
theorem exists_isValue_iff {cs : List Char} :
    (∃ value, IsValue value ∧ value <+: cs) ↔ startsValue cs = true := by
  constructor
  · rintro ⟨value, hvalue, rest, rfl⟩
    exact hvalue.startsValue_append rest
  · intro h
    exact ⟨_, isValue_takeValue h, (longest_takeValue h).isPrefix⟩

/-! ## Longest operators -/

theorem takesValue_append_iff {operator rest : List Char} (h : IsRunOf isOperatorChar operator) :
    TakesValue (operator ++ rest) operator ↔ startsValue rest = true := by
  rw [← exists_isValue_iff]
  simp only [TakesValue, h, true_and, List.prefix_append_right_inj]

/-- An operator that takes a value is a beginning of the operator run, and a value starts after it. -/
theorem TakesValue.exists_tail {cs operator : List Char} (h : TakesValue cs operator) :
    ∃ tail, cs.takeWhile isOperatorChar = operator ++ tail ∧
      startsValue (tail ++ cs.dropWhile isOperatorChar) = true := by
  obtain ⟨hoperator, value, hvalue, hprefix⟩ := h
  obtain ⟨tail, htail⟩ :=
    prefix_takeWhile ((List.prefix_append operator value).trans hprefix) hoperator.all
  refine ⟨tail, htail.symm, exists_isValue_iff.1 ⟨value, hvalue, ?_⟩⟩
  rwa [← List.prefix_append_right_inj operator, ← List.append_assoc, htail,
    List.takeWhile_append_dropWhile]

/-- The run after a field is divided after the longest operator that takes a value. -/
theorem longest_of_splitRun? {cs operator after : List Char}
    (h : splitRun? (cs.takeWhile isOperatorChar) (cs.dropWhile isOperatorChar) =
      some (operator, after)) :
    Longest (TakesValue cs) cs operator ∧ cs = operator ++ after ∧ startsValue after = true := by
  obtain ⟨hne, tail, hrun, rfl, hlast⟩ := splitRun?_eq_some_iff.1 h
  set rest := cs.dropWhile isOperatorChar with hrest
  have hcs : cs = operator ++ (tail ++ rest) := by
    rw [← List.append_assoc, ← hrun, hrest, List.takeWhile_append_dropWhile]
  have hoperator : IsRunOf isOperatorChar operator :=
    ⟨hne, fun c hc => List.mem_takeWhile_imp (hrun ▸ List.mem_append_left tail hc)⟩
  have htakes : TakesValue cs operator := by
    rw [hcs, takesValue_append_iff hoperator]
    exact hlast.starts
  refine ⟨⟨⟨tail ++ rest, hcs.symm⟩, htakes, fun longer _ hlonger => ?_⟩, hcs, hlast.starts⟩
  -- after a longer operator a shorter end of the run would be left over
  obtain ⟨shorter, hsplit, hstarts⟩ := hlonger.exists_tail
  by_contra hlt
  rw [hrun] at hsplit
  have hlength := congrArg List.length hsplit
  rw [List.length_append, List.length_append] at hlength
  have hsuffix : shorter <:+ tail :=
    List.suffix_of_suffix_length_le ⟨longer, hsplit.symm⟩ ⟨operator, rfl⟩ (by omega)
  have hfalse := hlast.later shorter hsuffix (by rintro rfl; omega)
  rw [hfalse] at hstarts
  cases hstarts

/-- A run is not divided only if it has no operator that takes a value. -/
theorem not_takesValue_of_splitRun? {cs : List Char}
    (h : splitRun? (cs.takeWhile isOperatorChar) (cs.dropWhile isOperatorChar) = none)
    (operator : List Char) : ¬ TakesValue cs operator := by
  intro htakes
  obtain ⟨tail, hrun, hstarts⟩ := htakes.exists_tail
  obtain ⟨c, operator, rfl, -⟩ := htakes.1.exists_cons
  rw [hrun, List.cons_append, splitRun?, Option.map_eq_none_iff, divideRun?_eq_none_iff] at h
  rw [h tail (List.suffix_append operator tail)] at hstarts
  cases hstarts

/-! ## Readable places -/

theorem isFieldChar_head?_of_isRunOf {operator : List Char} (h : IsRunOf isOperatorChar operator)
    (rest : List Char) : ∀ c ∈ (operator ++ rest).head?, isFieldChar c = false := by
  intro c hc
  obtain ⟨d, operator, rfl, hd⟩ := h.exists_cons
  rw [List.cons_append, List.head?_cons, Option.mem_some_iff] at hc
  exact isFieldChar_of_isOperatorChar (hc ▸ hd)

/-- A field can be read together with what follows its run if an operator there takes a value. -/
theorem readable_append_iff {field rest : List Char} (hfield : IsRunOf isFieldChar field)
    (hrest : ∀ c ∈ rest.head?, isFieldChar c = false) :
    Readable (field ++ rest) ↔ ∃ operator, TakesValue rest operator := by
  constructor
  · rintro ⟨shorter, operator, value, hshorter, hoperator, hvalue, after, hafter⟩
    rw [List.append_assoc] at hafter
    -- both are the run of field characters, so nothing of the run is left over
    have hspan := span_append hshorter.all
      (isFieldChar_head?_of_isRunOf hoperator (value ++ after))
    rw [← List.append_assoc operator, hafter] at hspan
    obtain ⟨htake, hdrop⟩ := span_append hfield.all hrest
    have hdropped := hdrop.symm.trans hspan.2
    exact ⟨operator, hoperator, value, hvalue, after, hdropped.symm⟩
  · rintro ⟨operator, hoperator, value, hvalue, hprefix⟩
    exact ⟨field, operator, value, hfield, hoperator, hvalue,
      (List.prefix_append_right_inj field).2 hprefix⟩

theorem Readable.exists_cons {cs : List Char} (h : Readable cs) :
    ∃ c rest, cs = c :: rest ∧ isFieldChar c = true := by
  obtain ⟨field, operator, value, hfield, -, -, after, rfl⟩ := h
  obtain ⟨c, field, rfl, hc⟩ := hfield.exists_cons
  exact ⟨c, _, rfl, hc⟩

/-- No place of a run of characters is readable if none of them is a character of a field. -/
theorem not_readable_drop {run rest : List Char} (hrun : ∀ c ∈ run, isFieldChar c = false) {k : ℕ}
    (hk : k < run.length) : ¬ Readable ((run ++ rest).drop k) := by
  intro hreadable
  obtain ⟨c, cs, hdrop, hc⟩ := hreadable.exists_cons
  rw [List.drop_append_of_le_length hk.le, List.drop_eq_getElem_cons hk, List.cons_append,
    List.cons.injEq] at hdrop
  rw [← hdrop.1, hrun _ (List.getElem_mem hk)] at hc
  cases hc

end FilterClause.Filter
