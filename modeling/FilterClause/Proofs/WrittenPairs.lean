import FilterClause.FieldMap.Pairs
import Mathlib.Data.List.DropRight
import Mathlib.Data.Set.List

/-!
# What written pairs map

A written pair stands for one field and one path (`IsPair`, `readPair?_eq_ok_iff`), whatever blanks are
around them, unless it is malformed (`IsMalformed`, `isMalformed_iff`). Pairs make a field map just when
each of them is well formed (`exists_ofPairs?_eq_ok_iff`), and each field then has the path of the last
pair for it (`get?_ofPairs?_eq_some_iff`).

Which member of a list is the first to give something is a notion of its own (`FirstGives`), for files
of settings are ranked by it, too; the last one is the first of the list reversed (`LastGives`).
-/

namespace FilterClause

/-! ## The first that gives -/

section FirstGives

variable {α β : Type} {gives : α → β → Prop}

/-- The first member of a list that gives anything gives `b`. -/
def FirstGives (gives : α → β → Prop) (xs : List α) (b : β) : Prop :=
  ∃ before x after, xs = before ++ x :: after ∧ gives x b ∧ ∀ y ∈ before, ∀ c, ¬ gives y c

/-- Where a function finds out what each member gives, looking for its first result finds out what the
first member gives. -/
theorem firstGives_iff_findSome? {f : α → Option β} (hf : ∀ x b, gives x b ↔ f x = some b)
    (xs : List α) (b : β) : FirstGives gives xs b ↔ xs.findSome? f = some b := by
  have hnone : ∀ y, (∀ c, ¬ gives y c) ↔ f y = none := fun y => by
    simp only [hf, Option.eq_none_iff_forall_ne_some, ne_eq]
  simp only [FirstGives, hnone]
  simp only [hf, List.findSome?_eq_some_iff]

theorem firstGives_congr {gives' : α → β → Prop} {xs : List α}
    (h : ∀ x ∈ xs, ∀ b, gives x b ↔ gives' x b) (b : β) :
    FirstGives gives xs b ↔ FirstGives gives' xs b := by
  refine exists_congr fun before => exists_congr fun x => exists_congr fun after =>
    and_congr_right fun hxs => ?_
  have hbefore : ∀ y ∈ before, y ∈ xs := fun y hy => hxs ▸ List.mem_append_left _ hy
  refine and_congr (h x (by simp [hxs]) b) (forall₂_congr fun y hy => ?_)
  exact forall_congr' fun c => not_congr (h y (hbefore y hy) c)

/-- The last member of a list that gives anything gives `b`. -/
def LastGives (gives : α → β → Prop) (xs : List α) (b : β) : Prop :=
  FirstGives gives xs.reverse b

end FirstGives

/-! ## Trimmed texts -/

namespace Text

/-- Characters are trimmed to what is left of them between blanks, neither of whose ends is blank. -/
def IsTrimmed (cs rest : List Char) : Prop :=
  (∃ before after, cs = before ++ (rest ++ after) ∧ (∀ c ∈ before, isBlank c) ∧
    ∀ c ∈ after, isBlank c) ∧
  (∀ c, rest.head? = some c → isBlank c = false) ∧ ∀ c, rest.getLast? = some c → isBlank c = false

theorem dropBlanksRight_concat (cs : List Char) (c : Char) :
    dropBlanksRight (cs ++ [c]) = if isBlank c then dropBlanksRight cs else cs ++ [c] := by
  by_cases hc : isBlank c
  · simp [dropBlanksRight, hc]
  · simp only [hc, if_false, Bool.false_eq_true]
    induction cs with
    | nil => simp [dropBlanksRight, hc]
    | cons d cs ih =>
      -- a character before a blank-free end is kept, whatever it is
      rw [List.cons_append, dropBlanksRight, List.foldr_cons, ← dropBlanksRight, ih]
      simp

theorem dropBlanksRight_eq_rdropWhile (cs : List Char) :
    dropBlanksRight cs = cs.rdropWhile isBlank := by
  induction cs using List.reverseRecOn with
  | nil => rfl
  | append_singleton cs c ih => rw [dropBlanksRight_concat, List.rdropWhile_concat, ih]

theorem rdropWhile_append_of_blank {cs after : List Char} (h : ∀ c ∈ after, isBlank c) :
    (cs ++ after).rdropWhile isBlank = cs.rdropWhile isBlank := by
  rw [List.rdropWhile, List.reverse_append,
    List.dropWhile_append_of_pos (fun c hc => h c (List.mem_reverse.1 hc)), List.rdropWhile]

theorem isTrimmed_iff {cs rest : List Char} :
    IsTrimmed cs rest ↔ dropBlanksRight (cs.dropWhile isBlank) = rest := by
  rw [dropBlanksRight_eq_rdropWhile]
  constructor
  · rintro ⟨⟨before, after, rfl, hbefore, hafter⟩, hhead, hlast⟩
    rw [List.dropWhile_append_of_pos hbefore]
    cases rest with
    | nil =>
      have hnil : after.dropWhile isBlank = [] := List.dropWhile_eq_nil_iff.2 hafter
      simp [hnil]
    | cons c rest =>
      have hc : isBlank c = false := hhead c rfl
      rw [List.cons_append, List.dropWhile_cons_of_neg (by simp [hc]), ← List.cons_append,
        rdropWhile_append_of_blank hafter, List.rdropWhile_eq_self_iff]
      intro hne
      simp [hlast _ (List.getLast?_eq_some_getLast hne)]
  · rintro rfl
    refine ⟨⟨cs.takeWhile isBlank, (cs.dropWhile isBlank).rtakeWhile isBlank, ?_, ?_, ?_⟩, ?_, ?_⟩
    · rw [List.rdropWhile_append_rtakeWhile, List.takeWhile_append_dropWhile]
    · exact fun c hc => List.mem_takeWhile_imp hc
    · exact fun c hc => List.mem_rtakeWhile_imp hc
    · -- what is left begins where the blanks at the head end
      intro c hc
      obtain ⟨after, hafter⟩ := List.rdropWhile_prefix isBlank (l := cs.dropWhile isBlank)
      have hfirst : (cs.dropWhile isBlank).head? = some c := by
        rw [← hafter, List.head?_append, hc, Option.some_or]
      simpa [hfirst] using List.head?_dropWhile_not isBlank cs
    · intro c hc
      have hne : (cs.dropWhile isBlank).rdropWhile isBlank ≠ [] := by
        rintro hnil
        simp [hnil] at hc
      have hlast := List.rdropWhile_last_not isBlank _ hne
      rw [List.getLast?_eq_some_getLast hne, Option.some.injEq] at hc
      simpa [hc] using hlast

theorem trim_eq_empty_iff {s : String} : trim s = "" ↔ ∀ c ∈ s.toList, isBlank c := by
  rw [← List.dropWhile_eq_nil_iff, ← String.toList_inj, trim, String.toList_ofList,
    String.toList_empty, dropBlanksRight_eq_rdropWhile]
  cases hrest : s.toList.dropWhile isBlank with
  | nil => simp
  | cons c rest =>
    -- what is left of the text begins with a character that is not blank
    have hc : isBlank c = false := by simpa [hrest] using List.head?_dropWhile_not isBlank s.toList
    simp only [List.rdropWhile_eq_nil_iff, List.cons_ne_nil, iff_false]
    exact fun hblank => Bool.eq_false_iff.1 hc (hblank c List.mem_cons_self)

end Text

/-! ## Pairs -/

namespace FieldMap

/-- A text spells a field and a path: these are what is left between blanks before and after the first
`=` of the text, and neither is empty. -/
def IsPair (text field path : String) : Prop :=
  ∃ left right, text.toList = left ++ '=' :: right ∧ '=' ∉ left ∧
    Text.IsTrimmed left field.toList ∧ Text.IsTrimmed right path.toList ∧ field ≠ "" ∧ path ≠ ""

theorem splitPair?_eq_some_iff {text left right : String} :
    splitPair? text = some (left, right) ↔
      text.toList = left.toList ++ '=' :: right.toList ∧ '=' ∉ left.toList := by
  constructor
  · intro h
    unfold splitPair? at h
    split at h
    · cases h
    · next c rest hdrop =>
      -- what is not dropped begins with an '='
      have hc := List.head?_dropWhile_not (· ≠ '=') text.toList
      rw [hdrop] at hc
      obtain rfl : c = '=' := by simpa using hc
      rw [Option.some.injEq, Prod.mk.injEq] at h
      obtain ⟨rfl, rfl⟩ := h
      rw [String.toList_ofList, String.toList_ofList, ← hdrop, List.takeWhile_append_dropWhile]
      exact ⟨rfl, fun hmem => by simpa using List.mem_takeWhile_imp hmem⟩
  · rintro ⟨htext, hleft⟩
    have hne : ∀ c ∈ left.toList, decide (c ≠ '=') = true := fun c hc =>
      decide_eq_true (ne_of_mem_of_not_mem hc hleft)
    rw [splitPair?, htext, List.dropWhile_append_of_pos hne, List.takeWhile_append_of_pos hne]
    simp

theorem readPair?_eq_ok_iff {text field path : String} :
    readPair? text = .ok (field, path) ↔ IsPair text field path := by
  have htrim : ∀ (side : List Char) (name : String),
      Text.IsTrimmed side name.toList ↔ Text.trim (String.ofList side) = name := fun side name => by
    rw [Text.isTrimmed_iff, Text.trim, String.toList_ofList]
    exact ⟨fun h => by rw [h, String.ofList_toList], fun h => by rw [← h, String.toList_ofList]⟩
  simp only [IsPair, htrim]
  constructor
  · intro h
    unfold readPair? at h
    split at h
    · cases h
    · next left right hsplit =>
      split at h
      · cases h
      · next hblank =>
        obtain ⟨htext, hleft⟩ := splitPair?_eq_some_iff.1 hsplit
        rw [Except.ok.injEq, Prod.mk.injEq] at h
        obtain ⟨rfl, rfl⟩ := h
        refine ⟨left.toList, right.toList, htext, hleft, ?_⟩
        simpa [not_or] using hblank
  · rintro ⟨left, right, htext, hleft, rfl, rfl, hfield, hpath⟩
    have hsplit : splitPair? text = some (String.ofList left, String.ofList right) :=
      splitPair?_eq_some_iff.2 (by simp [htext, hleft])
    simp [readPair?, hsplit, hfield, hpath]

/-- A text is no pair: it has no `=`, or one of the two sides of its first `=` is blank. -/
def IsMalformed (text : String) : Prop :=
  '=' ∉ text.toList ∨ ∃ left right, text.toList = left ++ '=' :: right ∧ '=' ∉ left ∧
    ((∀ c ∈ left, Text.isBlank c) ∨ ∀ c ∈ right, Text.isBlank c)

theorem splitPair?_of_eq {text : String} {left right : List Char}
    (htext : text.toList = left ++ '=' :: right) (hleft : '=' ∉ left) :
    splitPair? text = some (String.ofList left, String.ofList right) :=
  splitPair?_eq_some_iff.2 (by simp [htext, hleft])

/-- A text that is not malformed stands for a field and a path. -/
theorem isMalformed_iff {text : String} :
    IsMalformed text ↔ ∀ field path, ¬ IsPair text field path := by
  cases hsplit : splitPair? text with
  | none =>
    have hnot : '=' ∉ text.toList := by
      intro hmem
      obtain ⟨left, right, htext, hleft⟩ := List.eq_append_cons_of_mem hmem
      rw [splitPair?_of_eq htext hleft] at hsplit
      cases hsplit
    refine iff_of_true (.inl hnot) fun field path hpair => ?_
    obtain ⟨left, right, htext, -⟩ := hpair
    exact hnot (by simp [htext])
  | some sides =>
    obtain ⟨left, right⟩ := sides
    obtain ⟨htext, hleft⟩ := splitPair?_eq_some_iff.1 hsplit
    have hblank : IsMalformed text ↔ Text.trim left = "" ∨ Text.trim right = "" := by
      rw [Text.trim_eq_empty_iff, Text.trim_eq_empty_iff]
      constructor
      · rintro (hnot | ⟨left', right', htext', hleft', hblank⟩)
        · exact absurd (by simp [htext]) hnot
        · rw [splitPair?_of_eq htext' hleft', Option.some.injEq, Prod.mk.injEq] at hsplit
          obtain ⟨rfl, rfl⟩ := hsplit
          simpa using hblank
      · exact fun h => .inr ⟨left.toList, right.toList, htext, hleft, h⟩
    simp only [hblank, ← readPair?_eq_ok_iff, readPair?, hsplit]
    split
    · next h => simp [h]
    · next h => simp [h]

theorem readPairs?_eq_ok_iff {texts : List String} {pairs : List (String × String)} :
    readPairs? texts = .ok pairs ↔ pairs.map .ok = texts.map readPair? := by
  induction texts generalizing pairs with
  | nil => cases pairs <;> simp [readPairs?]
  | cons text texts ih =>
    rw [readPairs?]
    cases pairs with
    | nil => cases readPair? text <;> cases readPairs? texts <;> simp [Except.map]
    | cons pair pairs =>
      rw [List.map_cons, List.map_cons, List.cons.injEq, ← ih]
      cases readPair? text <;> cases readPairs? texts <;> simp [Except.map, eq_comm]

theorem exists_readPairs?_eq_ok_iff {texts : List String} :
    (∃ pairs, readPairs? texts = .ok pairs) ↔ ∀ text ∈ texts, ∃ field path, IsPair text field path := by
  calc (∃ pairs, readPairs? texts = .ok pairs)
      ↔ texts.map readPair? ∈ Set.range (List.map .ok) := by
        simp only [readPairs?_eq_ok_iff, Set.mem_range]
    _ ↔ ∀ result ∈ texts.map readPair?, result ∈ Set.range .ok := by
        rw [Set.range_list_map]
        rfl
    _ ↔ ∀ text ∈ texts, ∃ field path, IsPair text field path := by
        simp only [List.forall_mem_map, Set.mem_range, Prod.exists, ← readPair?_eq_ok_iff,
          @eq_comm _ (Except.ok _)]

/-! ## The map of written pairs -/

theorem get?_foldl_insert (pairs : List (String × String)) (m : FieldMap) (field : String) :
    (pairs.foldl (fun m pair => m.insert pair.1 pair.2) m).get? field =
      (pairs.reverse.lookup field).or (m.get? field) := by
  induction pairs generalizing m with
  | nil => rfl
  | cons pair pairs ih =>
    obtain ⟨key, path⟩ := pair
    rw [List.foldl_cons, ih, get?_insert, List.reverse_cons, List.lookup_append, Option.or_assoc]
    by_cases h : field = key
    · simp [h]
    · simp [h, List.lookup_cons, beq_false_of_ne h]

theorem get?_ofList (pairs : List (String × String)) (field : String) :
    (ofList pairs).get? field = pairs.reverse.lookup field := by
  rw [ofList, get?_foldl_insert, get?_empty, Option.or_none]

/-- The path of a field in a pair, if that is well formed and of the field. -/
def pathIn? (field : String) : Except Error (String × String) → Option String
  | .ok pair => if field == pair.1 then some pair.2 else none
  | .error _ => none

theorem isPair_iff_pathIn? (field text path : String) :
    IsPair text field path ↔ pathIn? field (readPair? text) = some path := by
  rw [← readPair?_eq_ok_iff]
  cases readPair? text with
  | error e => simp [pathIn?]
  | ok pair =>
    obtain ⟨key, value⟩ := pair
    by_cases h : field = key
    · simp [pathIn?, h]
    · simp [pathIn?, h, Ne.symm h]

/-- Written pairs make a map just when each of them is well formed. -/
theorem exists_ofPairs?_eq_ok_iff {texts : List String} :
    (∃ m, ofPairs? texts = .ok m) ↔ ∀ text ∈ texts, ∃ field path, IsPair text field path := by
  rw [← exists_readPairs?_eq_ok_iff, ofPairs?]
  cases readPairs? texts <;> simp [Except.map]

theorem get?_ofPairs? {texts : List String} {m : FieldMap} (hm : ofPairs? texts = .ok m)
    (field : String) :
    m.get? field = texts.reverse.findSome? fun text => pathIn? field (readPair? text) := by
  obtain ⟨pairs, hpairs, rfl⟩ : ∃ pairs, readPairs? texts = .ok pairs ∧ m = ofList pairs := by
    cases hpairs : readPairs? texts with
    | error e => simp [ofPairs?, hpairs, Except.map] at hm
    | ok pairs => exact ⟨pairs, rfl, by simpa [ofPairs?, hpairs, Except.map, eq_comm] using hm⟩
  calc (ofList pairs).get? field
      = pairs.reverse.lookup field := get?_ofList pairs field
    _ = (pairs.map .ok).reverse.findSome? (pathIn? field) := by
        rw [← List.map_reverse, List.findSome?_map, List.lookup_eq_findSome?]
        rfl
    _ = texts.reverse.findSome? fun text => pathIn? field (readPair? text) := by
        rw [readPairs?_eq_ok_iff.1 hpairs, ← List.map_reverse, List.findSome?_map,
          Function.comp_def]

/-- Each field has the path of the last pair for it. -/
theorem get?_ofPairs?_eq_some_iff {texts : List String} {m : FieldMap} (hm : ofPairs? texts = .ok m)
    (field path : String) :
    m.get? field = some path ↔ LastGives (fun text => IsPair text field) texts path := by
  rw [get?_ofPairs? hm]
  exact (firstGives_iff_findSome? (isPair_iff_pathIn? field) _ _).symm

theorem get?_ofPairs?_eq_none_iff {texts : List String} {m : FieldMap} (hm : ofPairs? texts = .ok m)
    (field : String) : m.get? field = none ↔ ∀ text ∈ texts, ∀ path, ¬ IsPair text field path := by
  rw [get?_ofPairs? hm, List.findSome?_eq_none_iff]
  simp only [List.mem_reverse, isPair_iff_pathIn?, Option.eq_none_iff_forall_ne_some, ne_eq]

end FieldMap

end FilterClause
