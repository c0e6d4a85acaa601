import FilterClause.Text.Basic
import Mathlib.Data.List.Basic

/-!
# Lines of texts

Two texts with a line feed between them have the lines of the one and then those of the other, if the
first does not end within a line ending (`linesOf_append`). So lines that are joined by line feeds are
the lines of what they make (`lines_intercalate`), and a text without carriage returns is made of its
lines (`intercalate_lines`).
-/

namespace FilterClause

/-- A text without line ends in it. -/
def IsLine (s : String) : Prop :=
  '\n' ∉ s.toList ∧ '\r' ∉ s.toList

instance (s : String) : Decidable (IsLine s) :=
  inferInstanceAs (Decidable (_ ∧ _))

@[simp] theorem isLine_append {s t : String} : IsLine (s ++ t) ↔ IsLine s ∧ IsLine t := by
  simp only [IsLine, String.toList_append, List.mem_append, not_or]
  exact and_and_and_comm

/-! ## One line -/

theorem linesOf_of_notMem {line : List Char} (hne : line ≠ []) (h : '\n' ∉ line) :
    Text.linesOf line = [line] := by
  fun_induction Text.linesOf line with
  | case1 => exact absurd rfl hne
  | case2 rest ih => simp at h
  | case3 rest ih => simp at h
  | case4 c rest hc hcr hnil ih =>
    by_cases hrest : rest = []
    · rw [hrest]
    · rw [ih hrest fun hmem => h (List.mem_cons_of_mem c hmem)] at hnil
      cases hnil
  | case5 c rest hc hcr first lines hlines ih =>
    have hrest : rest ≠ [] := by
      rintro rfl
      cases hlines
    rw [ih hrest fun hmem => h (List.mem_cons_of_mem c hmem), List.cons.injEq] at hlines
    rw [← hlines.1, ← hlines.2]

@[simp] theorem linesOf_eq_nil_iff {cs : List Char} : Text.linesOf cs = [] ↔ cs = [] := by
  fun_cases Text.linesOf cs with
  | case1 => simp
  | case2 rest => simp
  | case3 rest => simp
  | case4 c rest hc hcr hnil => simp
  | case5 c rest hc hcr first lines hlines => simp

/-- A character that does not begin a line ending belongs to the first line. -/
theorem linesOf_cons {c : Char} {cs : List Char} (hc : c ≠ '\n')
    (hcr : ∀ rest, c = '\r' → cs = '\n' :: rest → False) :
    Text.linesOf (c :: cs) = (c :: (Text.linesOf cs).headD []) :: (Text.linesOf cs).tail := by
  rw [Text.linesOf]
  · split
    · next hnil => rw [hnil, List.headD_nil, List.tail_nil]
    · next line lines hlines => rw [hlines, List.headD_cons, List.tail_cons]
  · exact hc
  · exact hcr

/-- A line is made of characters of the text, and no line feed is in it. -/
theorem of_mem_linesOf {cs line : List Char} (h : line ∈ Text.linesOf cs) :
    '\n' ∉ line ∧ ∀ c ∈ line, c ∈ cs := by
  fun_induction Text.linesOf cs generalizing line with
  | case1 => cases h
  | case2 rest ih =>
    rcases List.mem_cons.1 h with rfl | h
    · exact ⟨List.not_mem_nil, fun c hc => nomatch hc⟩
    · exact ⟨(ih h).1, fun c hc => List.mem_cons_of_mem _ ((ih h).2 c hc)⟩
  | case3 rest ih =>
    rcases List.mem_cons.1 h with rfl | h
    · exact ⟨List.not_mem_nil, fun c hc => nomatch hc⟩
    · exact ⟨(ih h).1, fun c hc =>
        List.mem_cons_of_mem _ (List.mem_cons_of_mem _ ((ih h).2 c hc))⟩
  | case4 c rest hc hcr hnil ih =>
    rw [List.mem_singleton] at h
    subst h
    exact ⟨by simpa using Ne.symm hc, fun d hd => by simp_all⟩
  | case5 c rest hc hcr first lines hlines ih =>
    rcases List.mem_cons.1 h with rfl | h
    · obtain ⟨hline, hmem⟩ := ih (hlines ▸ List.mem_cons_self)
      refine ⟨by simp [hline, Ne.symm hc], fun d hd => ?_⟩
      rcases List.mem_cons.1 hd with rfl | hd
      · exact List.mem_cons_self
      · exact List.mem_cons_of_mem c (hmem d hd)
    · obtain ⟨hline, hmem⟩ := ih (hlines ▸ List.mem_cons_of_mem first h)
      exact ⟨hline, fun d hd => List.mem_cons_of_mem c (hmem d hd)⟩

/-! ## Lines after lines -/

/-- A line after other lines is the last one. -/
theorem exists_linesOf_append (cs : List Char) {line : List Char} (hne : line ≠ [])
    (h : '\n' ∉ line) :
    ∃ first lines, Text.linesOf (cs ++ '\n' :: line) = first :: (lines ++ [line]) := by
  fun_induction Text.linesOf cs with
  | case1 =>
    exact ⟨[], [], congrArg ([] :: ·) (linesOf_of_notMem hne h)⟩
  | case2 rest ih =>
    obtain ⟨first, lines, hlines⟩ := ih
    exact ⟨[], first :: lines, congrArg ([] :: ·) hlines⟩
  | case3 rest ih =>
    obtain ⟨first, lines, hlines⟩ := ih
    exact ⟨[], first :: lines, congrArg ([] :: ·) hlines⟩
  | case4 c rest hc hcr hnil ih | case5 c rest hc hcr _ _ hlines' ih =>
    obtain ⟨first, lines, hlines⟩ := ih
    by_cases hreturn : c = '\r' ∧ rest = []
    · -- the carriage return belongs to the line ending
      obtain ⟨rfl, rfl⟩ := hreturn
      exact ⟨[], [], congrArg ([] :: ·) (linesOf_of_notMem hne h)⟩
    · refine ⟨c :: first, lines, ?_⟩
      rw [List.cons_append, Text.linesOf, hlines]
      · exact hc
      · intro rest' hc' hrest
        cases rest with
        | nil => exact hreturn ⟨hc', rfl⟩
        | cons d ds =>
          rw [List.cons_append, List.cons.injEq] at hrest
          exact hcr ds hc' (by rw [hrest.1])

/-- The last of several joined texts stands after a line feed. -/
theorem toList_intercalate_append {parts : List String} (hne : parts ≠ []) (line : String) :
    ("\n".intercalate (parts ++ [line])).toList =
      ("\n".intercalate parts).toList ++ '\n' :: line.toList := by
  rw [String.intercalate_append_of_ne_nil hne (List.cons_ne_nil line []),
    String.intercalate_singleton, String.toList_append, String.toList_append, List.append_assoc]
  rfl

/-- The text of a clause ends in the line of its filter expression. -/
theorem getLast?_lines_intercalate {bindings : List String} {line : String} (hne : line ≠ "")
    (h : '\n' ∉ line.toList) :
    (Text.lines ("\n".intercalate (bindings ++ [line]))).getLast? = some line := by
  have hchars : line.toList ≠ [] := fun hnil => hne (String.toList_eq_nil_iff.1 hnil)
  by_cases hnil : bindings = []
  · rw [hnil, List.nil_append, String.intercalate_singleton, Text.lines, linesOf_of_notMem hchars h]
    simp
  · obtain ⟨first, lines, hlines⟩ :=
      exists_linesOf_append ("\n".intercalate bindings).toList hchars h
    rw [Text.lines, toList_intercalate_append hnil, hlines, ← List.cons_append, List.map_append,
      List.getLast?_append]
    simp

/-- Text that does not end within a line ending is followed by new lines after a line feed. -/
theorem linesOf_append {xs : List Char} (hne : xs ≠ [])
    (hend : ∀ c ∈ xs.getLast?, c ≠ '\n' ∧ c ≠ '\r') (ys : List Char) :
    Text.linesOf (xs ++ '\n' :: ys) = Text.linesOf xs ++ Text.linesOf ys := by
  induction xs with
  | nil => exact absurd rfl hne
  | cons c cs ih =>
    cases cs with
    | nil =>
      obtain ⟨hc, hcr⟩ := hend c rfl
      rw [List.singleton_append, linesOf_cons hc fun _ h _ => hcr h,
        linesOf_of_notMem (List.cons_ne_nil c []) (by simpa using Ne.symm hc)]
      rfl
    | cons d ds =>
      have hrest := ih (List.cons_ne_nil d ds) (by rwa [List.getLast?_cons_cons] at hend)
      have hlines : Text.linesOf (d :: ds) ≠ [] := by simp
      obtain ⟨line, lines, hcons⟩ := List.exists_cons_of_ne_nil hlines
      -- a line ending is the same before both texts, another character joins the first line
      by_cases hc : c = '\n'
      · subst hc
        exact congrArg ([] :: ·) hrest
      · by_cases hcr : c = '\r' ∧ d = '\n'
        · obtain ⟨rfl, rfl⟩ := hcr
          exact hrest
        · have hnot : ∀ es rest, c = '\r' → d :: es = '\n' :: rest → False := by
            intro es rest hc' hd
            exact hcr ⟨hc', (List.cons.inj hd).1⟩
          rw [List.cons_append, List.cons_append, linesOf_cons hc (hnot _), linesOf_cons hc (hnot ds),
            ← List.cons_append, hrest, hcons]
          rfl

/-- Without carriage returns, a text that does not end in a line feed is made of its lines. -/
theorem intercalate_linesOf {cs : List Char} (hreturn : '\r' ∉ cs)
    (hend : cs.getLast? ≠ some '\n') : ['\n'].intercalate (Text.linesOf cs) = cs := by
  induction cs with
  | nil => rfl
  | cons c cs ih =>
    rw [List.mem_cons, not_or] at hreturn
    cases cs with
    | nil =>
      have hc : c ≠ '\n' := by simpa using hend
      rw [linesOf_of_notMem (List.cons_ne_nil c []) (by simpa using Ne.symm hc),
        List.intercalate_singleton]
    | cons d ds =>
      have hrest := ih hreturn.2 (by rwa [List.getLast?_cons_cons] at hend)
      have hlines : Text.linesOf (d :: ds) ≠ [] := by simp
      obtain ⟨line, lines, hcons⟩ := List.exists_cons_of_ne_nil hlines
      rw [hcons] at hrest
      by_cases hc : c = '\n'
      · subst hc
        rw [Text.linesOf, hcons, List.intercalate_cons_cons, hrest]
        rfl
      · rw [linesOf_cons hc fun _ h _ => hreturn.1 h.symm, hcons, List.headD_cons, List.tail_cons]
        cases lines with
        | nil =>
          rw [List.intercalate_singleton] at hrest ⊢
          rw [hrest]
        | cons next lines =>
          rw [List.intercalate_cons_cons] at hrest ⊢
          rw [List.cons_append, List.cons_append, hrest]

/-! ## Texts made of lines -/

theorem toList_intercalate_newline (ls : List String) :
    ("\n".intercalate ls).toList = ['\n'].intercalate (ls.map String.toList) :=
  String.toList_intercalate

/-- Without carriage returns, a text that does not end in a line feed is made of its lines. -/
theorem intercalate_lines {s : String} (hreturn : '\r' ∉ s.toList)
    (hend : s.toList.getLast? ≠ some '\n') : "\n".intercalate (Text.lines s) = s := by
  rw [← String.toList_inj, toList_intercalate_newline, Text.lines, List.map_map]
  have hid : String.toList ∘ String.ofList = id := funext fun cs => String.toList_ofList
  rw [hid, List.map_id, intercalate_linesOf hreturn hend]

/-- A line of a text without carriage returns has no line end in it. -/
theorem isLine_of_mem_lines {s line : String} (hreturn : '\r' ∉ s.toList)
    (h : line ∈ Text.lines s) : IsLine line := by
  obtain ⟨cs, hcs, rfl⟩ := List.mem_map.1 h
  obtain ⟨hline, hmem⟩ := of_mem_linesOf hcs
  rw [IsLine, String.toList_ofList]
  exact ⟨hline, fun h => hreturn (hmem _ h)⟩

/-- A text that is part of a line, with a line feed after it, comes first among the lines. -/
theorem lines_newline_append {line : String} (hne : line ≠ "") (h : IsLine line) (rest : String) :
    Text.lines (line ++ "\n" ++ rest) = line :: Text.lines rest := by
  have hchars : line.toList ≠ [] := fun hnil => hne (String.toList_eq_nil_iff.1 hnil)
  have hend : ∀ c ∈ line.toList.getLast?, c ≠ '\n' ∧ c ≠ '\r' := by
    intro c hc
    have hmem := List.mem_of_mem_getLast? hc
    exact ⟨fun hn => h.1 (hn ▸ hmem), fun hr => h.2 (hr ▸ hmem)⟩
  have htext : (line ++ "\n" ++ rest).toList = line.toList ++ '\n' :: rest.toList := by simp
  rw [Text.lines, htext, linesOf_append hchars hend, linesOf_of_notMem hchars h.1]
  simp [Text.lines]

/-- Texts that are joined by line feeds have their lines one after the other, and the last one is a line
of its own. -/
theorem lines_intercalate_append {parts : List String} {line : String}
    (hparts : ∀ part ∈ parts, ∃ c ∈ part.toList.getLast?, c ≠ '\n' ∧ c ≠ '\r') (hne : line ≠ "")
    (h : '\n' ∉ line.toList) : Text.lines ("\n".intercalate (parts ++ [line])) =
      parts.flatMap Text.lines ++ [line] := by
  have hchars : line.toList ≠ [] := fun hnil => hne (String.toList_eq_nil_iff.1 hnil)
  induction parts with
  | nil =>
    rw [List.nil_append, String.intercalate_singleton, Text.lines, linesOf_of_notMem hchars h]
    simp
  | cons part parts ih =>
    obtain ⟨c, hc, hend⟩ := hparts part List.mem_cons_self
    have hpart : part.toList ≠ [] := by
      intro hnil
      rw [hnil] at hc
      cases hc
    have hlast : ∀ d ∈ part.toList.getLast?, d ≠ '\n' ∧ d ≠ '\r' := by
      intro d hd
      rwa [Option.mem_unique hd hc]
    have hrest := ih fun p hp => hparts p (List.mem_cons_of_mem part hp)
    obtain ⟨next, others, hcons⟩ := List.exists_cons_of_ne_nil
      (List.append_ne_nil_of_right_ne_nil parts (List.cons_ne_nil line []))
    have htext : ("\n".intercalate (part :: (parts ++ [line]))).toList =
        part.toList ++ '\n' :: ("\n".intercalate (parts ++ [line])).toList := by
      rw [hcons, String.intercalate_cons_cons, String.toList_append, String.toList_append,
        List.append_assoc]
      rfl
    rw [List.cons_append, Text.lines, htext, linesOf_append hpart hlast, List.map_append,
      List.flatMap_cons, List.append_assoc, ← hrest]
    rfl

/-- Several texts of lines and a last line, with line feeds between them. -/
theorem intercalate_flatMap_append {α : Type} {xs : List α} {f : α → List String} (line : String)
    (h : ∀ x ∈ xs, f x ≠ []) : "\n".intercalate (xs.flatMap f ++ [line]) =
      String.join (xs.map fun x => "\n".intercalate (f x) ++ "\n") ++ line := by
  induction xs with
  | nil => simp
  | cons x xs ih =>
    have hrest := ih fun y hy => h y (List.mem_cons_of_mem x hy)
    rw [List.flatMap_cons, List.append_assoc, String.intercalate_append_of_ne_nil
      (h x List.mem_cons_self) (List.append_ne_nil_of_right_ne_nil _ (List.cons_ne_nil line [])),
      hrest, List.map_cons, String.join_cons, String.append_assoc, String.append_assoc,
      String.append_assoc]

/-- Joined texts are indented one after the other. -/
theorem indent_intercalate_append {parts : List String} {line : String}
    (hparts : ∀ part ∈ parts, ∃ c ∈ part.toList.getLast?, c ≠ '\n' ∧ c ≠ '\r') (hne : line ≠ "")
    (h : '\n' ∉ line.toList) : Text.indent ("\n".intercalate (parts ++ [line])) =
      String.join (parts.map fun part => Text.indent part ++ "\n") ++ ("    " ++ line) := by
  have hbodies : ∀ part ∈ parts, (Text.lines part).map ("    " ++ ·) ≠ [] := by
    intro part hpart hnil
    obtain ⟨c, hc, -⟩ := hparts part hpart
    rw [List.map_eq_nil_iff, Text.lines, List.map_eq_nil_iff, linesOf_eq_nil_iff] at hnil
    rw [hnil] at hc
    cases hc
  rw [Text.indent, lines_intercalate_append hparts hne h, List.map_append, List.map_flatMap,
    List.map_singleton, intercalate_flatMap_append _ hbodies]
  rfl

/-- Lines that are joined by line feeds are the lines of what they make. -/
theorem lines_intercalate {ls : List String} (hne : ls ≠ [])
    (h : ∀ line ∈ ls, line ≠ "" ∧ IsLine line) : Text.lines ("\n".intercalate ls ++ "\n") = ls := by
  induction ls with
  | nil => exact absurd rfl hne
  | cons line ls ih =>
    obtain ⟨hline, hisLine⟩ := h line List.mem_cons_self
    cases ls with
    | nil =>
      have hone := lines_newline_append hline hisLine ""
      rw [String.append_empty] at hone
      rw [String.intercalate_singleton]
      exact hone
    | cons next ls =>
      have hrest := ih (List.cons_ne_nil next ls) fun l hl => h l (List.mem_cons_of_mem line hl)
      rw [String.intercalate_cons_cons, String.append_assoc, lines_newline_append hline hisLine,
        hrest]

end FilterClause
