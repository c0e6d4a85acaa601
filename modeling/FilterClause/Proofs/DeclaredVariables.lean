import FilterClause.Proofs.BoundNames
import FilterClause.Proofs.Soundness

/-!
# The variables that a clause declares

A binding declares its name, and for a substring test also the variable that runs over the list, which
is the name with `_item` behind it (`Binding.mem_declares`). The names are drawn so that they avoid
the variables paths start from; the running variables are not looked at.

With numbered names all declared variables differ from each other, and only a running variable can
be one that paths start from (`declares_compile`): beside a loop variable `tmp0_item` the first
substring test does shadow it.
-/

namespace FilterClause

open Query

/-- The variables that a subquery declares. -/
def Query.Subquery.declares : Subquery → List String
  | .filter _ => []
  | .search name _ _ => [name]

/-- The variables that a `LET` declares, in it and by it. -/
def Query.Let.declares (l : Let) : List String :=
  l.name :: l.subquery.declares

/-- The variables that the bindings of a clause declare. -/
def Clause.declares (c : Clause) : List String :=
  c.bindings.flatMap fun b => b.toLet.declares

theorem Binding.declares_toLet (b : Binding) :
    b.toLet.declares = b.name :: if b.test = .contains then [b.itemName] else [] := by
  obtain ⟨name, test, path, value⟩ := b
  cases test with
  | has => rfl
  | lacks => rfl
  | contains => rfl

theorem Binding.mem_declares {b : Binding} {v : String} :
    v ∈ b.toLet.declares ↔ v = b.name ∨ b.test = .contains ∧ v = b.itemName := by
  rw [declares_toLet]
  split
  · next htest => simp [htest]
  · next htest => simp [htest]

theorem Clause.mem_declares {c : Clause} {v : String} : v ∈ c.declares ↔
    ∃ b ∈ c.bindings, v = b.name ∨ b.test = .contains ∧ v = b.itemName := by
  simp only [declares, List.mem_flatMap, Binding.mem_declares]

/-! ## Names and running variables -/

theorem Binding.name_ne_itemName (b : Binding) : b.name ≠ b.itemName := by
  intro h
  have hlength := congrArg String.length h
  rw [itemName, String.length_append] at hlength
  have hitem : "_item".length = 5 := by decide
  omega

/-- Bindings with different names have different running variables. -/
theorem Binding.name_eq_of_itemName_eq {a b : Binding} (h : a.itemName = b.itemName) :
    a.name = b.name := by
  have hchars := congrArg String.toList h
  rw [itemName, itemName, String.toList_append, String.toList_append] at hchars
  exact String.toList_inj.1 (List.append_cancel_right hchars)

/-- No numbered name is one with `_item` behind it, because it ends with its number. -/
theorem sequential_ne_item (stem : String) (i j : ℕ) :
    (NameSupply.sequential stem).name i ≠ (NameSupply.sequential stem).name j ++ "_item" := by
  intro h
  have hchars := congrArg String.toList h
  simp only [NameSupply.sequential, String.toList_append, List.append_assoc] at hchars
  have hdigits := List.append_cancel_left hchars
  have hmem : '_' ∈ (toString i).toList := by
    rw [hdigits]
    exact List.mem_append_right _ (by decide)
  rw [Nat.toString_eq_repr, Nat.toList_repr] at hmem
  exact absurd (Nat.isDigit_of_mem_toDigits (by decide) (by decide) hmem) (by decide)

/-- Bindings with distinct numbered names declare distinct variables. -/
theorem nodup_declares {stem : String} {bs : List Binding} (hnodup : (bs.map Binding.name).Nodup)
    (hnames : ∀ b ∈ bs, ∃ i, (NameSupply.sequential stem).name i = b.name) :
    (bs.flatMap fun b => b.toLet.declares).Nodup := by
  have hitem : ∀ a ∈ bs, ∀ b ∈ bs, a.name ≠ b.itemName := by
    intro a ha b hb
    obtain ⟨i, hi⟩ := hnames a ha
    obtain ⟨j, hj⟩ := hnames b hb
    rw [Binding.itemName, ← hi, ← hj]
    exact sequential_ne_item stem i j
  rw [List.nodup_flatMap]
  constructor
  · intro b _
    rw [Binding.declares_toLet]
    split
    · simpa using b.name_ne_itemName
    · exact List.nodup_singleton _
  · have hpairwise := List.pairwise_map.1 hnodup
    refine List.Pairwise.imp_of_mem (fun ha hb hab => ?_) hpairwise
    refine List.disjoint_left.2 fun v hva hvb => ?_
    rcases Binding.mem_declares.1 hva with rfl | ⟨-, rfl⟩
    · rcases Binding.mem_declares.1 hvb with heq | ⟨-, heq⟩
      · exact hab heq
      · exact hitem _ ha _ hb heq
    · rcases Binding.mem_declares.1 hvb with heq | ⟨-, heq⟩
      · exact hitem _ hb _ ha heq.symm
      · exact hab (Binding.name_eq_of_itemName_eq heq)

/-- With numbered names, the variables that a clause declares differ from each other. They avoid the
variables that paths start from if the running variables of its substring tests do, and so in any case
if none of those variables is a numbered name with `_item` behind it. -/
theorem declares_compile {fields : FieldMap} {anchor : Anchor} {stem : String}
    {filters : List Filter} {clause : Clause} {after : Compiler}
    (hcompile : (Compiler.new fields anchor (.sequential stem)).compile filters =
      (.ok clause, after)) :
    clause.declares.Nodup ∧
      ((∀ v ∈ clause.declares, anchor.Avoids fields v) ↔
        ∀ b ∈ clause.bindings, b.test = .contains → anchor.Avoids fields b.itemName) ∧
      ((∀ i, anchor.Avoids fields ((NameSupply.sequential stem).name i ++ "_item")) →
        ∀ v ∈ clause.declares, anchor.Avoids fields v) := by
  obtain ⟨hnodup, hfresh⟩ := Compiler.compile_bindings hcompile
  have havoids : ∀ b ∈ clause.bindings, anchor.Avoids fields b.name := fun b hb =>
    Anchor.avoids_iff.2 (hfresh b.name (List.mem_map_of_mem hb)).1
  obtain ⟨cs, -, hissues, rfl⟩ := Compiler.compile_ok hcompile
  have hnames : ∀ b ∈ (Clause.ofCompiled cs).bindings,
      ∃ i, (NameSupply.sequential stem).name i = b.name := by
    intro b hb
    have hname : b.name ∈ bindingNames cs := by
      rw [← List.mem_reverse, ← map_name_bindings_ofCompiled]
      exact List.mem_map_of_mem hb
    exact hissues.supplied b.name hname
  have hiff : (∀ v ∈ (Clause.ofCompiled cs).declares, anchor.Avoids fields v) ↔
      ∀ b ∈ (Clause.ofCompiled cs).bindings, b.test = .contains →
        anchor.Avoids fields b.itemName := by
    constructor
    · intro h b hb htest
      exact h _ (Clause.mem_declares.2 ⟨b, hb, .inr ⟨htest, rfl⟩⟩)
    · intro h v hv
      obtain ⟨b, hb, rfl | ⟨htest, rfl⟩⟩ := Clause.mem_declares.1 hv
      · exact havoids b hb
      · exact h b hb htest
  refine ⟨nodup_declares hnodup hnames, hiff, fun hitems => hiff.2 fun b hb _ => ?_⟩
  obtain ⟨i, hi⟩ := hnames b hb
  rw [Binding.itemName, ← hi]
  exact hitems i

/-- Two substring tests and a membership test declare five variables, all different. -/
theorem declares_compile_three :
    let fields := FieldMap.ofList [("tag", "tags"), ("mail", "emails")]
    let filters : List Filter := [⟨"tag", .array .contains, "red", some .or⟩,
      ⟨"mail", .array .has, "a@b.c", some .and⟩, ⟨"mail", .array .contains, "b", none⟩]
    let compiler := Compiler.new fields (.relative "tmp1") (.sequential "tmp")
    ∃ clause, (compiler.compile filters).1 = .ok clause ∧
      clause.declares = ["tmp3", "tmp3_item", "tmp2", "tmp0", "tmp0_item"] ∧
      clause.declares.Nodup ∧ ∀ v ∈ clause.declares, v ≠ "tmp1" := by
  intro fields filters compiler
  have hcompile : compiler.compile filters = (.ok ⟨[⟨"tmp3", .contains, "tmp1.emails", "b"⟩,
      ⟨"tmp2", .has, "tmp1.emails", "a@b.c"⟩, ⟨"tmp0", .contains, "tmp1.tags", "red"⟩],
      [⟨.nonempty "tmp0", some .or⟩, ⟨.nonempty "tmp2", some .and⟩, ⟨.nonempty "tmp3", none⟩]⟩,
      (compiler.compile filters).2) := Prod.ext (by decide +kernel) rfl
  obtain ⟨hnodup, hiff, -⟩ := declares_compile hcompile
  exact ⟨_, congrArg Prod.fst hcompile, by decide +kernel, hnodup,
    hiff.2 (by simp [Anchor.Avoids, Binding.itemName])⟩

/-- The variable that runs over a list can shadow the loop variable. -/
theorem declares_compile_shadowed :
    ¬ ∀ (fields : FieldMap) (anchor : Anchor) (stem : String) (filters : List Filter)
      (clause : Clause), (∀ path ∈ fields.paths, IsDottedPath path) →
      (∀ loopVar, anchor = .relative loopVar → IsIdentifier loopVar) → IsIdentifier stem →
      ((Compiler.new fields anchor (.sequential stem)).compile filters).1 = .ok clause →
      clause.declares.Nodup ∧ ∀ v ∈ clause.declares, anchor.Avoids fields v := by
  intro h
  have hone := (h (FieldMap.ofList [("a", "a")]) (.relative "tmp0_item") "tmp"
    [⟨"a", .array .contains, "x", none⟩]
    ⟨[⟨"tmp0", .contains, "tmp0_item.a", "x"⟩], [⟨.nonempty "tmp0", none⟩]⟩
    (by decide +kernel) (fun loopVar hloop => by cases hloop; decide) (by decide)
    (by decide +kernel)).2
  exact hone "tmp0_item" (by decide +kernel) rfl

end FilterClause
