import FilterClause.Text.Ordered
import Mathlib.Data.String.Basic

/-!
# Texts in the order of their bytes

Texts are compared character by character, and this is the order of their UTF-8 bytes
(`lt_iff_bytes_lt`). Characters of different lengths differ in their first byte already; those of one
length are compared from the first byte on, and each further byte holds the next six bits
(`GrowsBelow.further`). So texts that are listed in ascending order are in ascending order of bytes,
too (`pairwise_sortedDistinct`).
-/

namespace FilterClause.Text

/-- The UTF-8 bytes of a text. -/
def bytes (s : String) : List UInt8 :=
  s.toUTF8.data.toList

theorem bytes_eq_flatMap (s : String) : bytes s = s.toList.flatMap String.utf8EncodeChar := by
  rw [bytes, String.toUTF8, ← String.utf8Encode_toList, List.utf8Encode, List.data_toByteArray]

/-! ## The bytes of a character -/

/-- Of two numbers below a bound the smaller one has the smaller bytes, whatever stands behind them. -/
def GrowsBelow (bound : ℕ) (encode : ℕ → List UInt8) : Prop :=
  ∀ m n, m < n → n < bound → ∀ cs ds, encode m ++ cs < encode n ++ ds

/-- A smaller byte decides. -/
theorem cons_ofNat_lt {m n : ℕ} (hlt : m < n) (hn : n < 256) (cs ds : List UInt8) :
    UInt8.ofNat m :: cs < UInt8.ofNat n :: ds := by
  refine List.cons_lt_cons_iff.2 (.inl (UInt8.lt_iff_toNat_lt.2 ?_))
  rw [UInt8.toNat_ofNat', UInt8.toNat_ofNat']
  omega

/-- The first byte of a character has a mark of its length in front of the bits it holds. -/
theorem growsBelow_first (width mark : ℕ) (h : width + mark ≤ 256) :
    GrowsBelow width fun n => [UInt8.ofNat (n % width + mark)] := by
  intro m n hlt hn cs ds
  simp only [Nat.mod_eq_of_lt (Nat.lt_trans hlt hn), Nat.mod_eq_of_lt hn]
  exact cons_ofNat_lt (by omega) (by omega) cs ds

/-- A further byte holds six more bits. -/
theorem GrowsBelow.further {bound : ℕ} {encode : ℕ → List UInt8} (h : GrowsBelow bound encode) :
    GrowsBelow (64 * bound) fun n => encode (n / 64) ++ [UInt8.ofNat (n % 64 + 128)] := by
  intro m n hlt hn cs ds
  rw [List.append_assoc, List.append_assoc]
  rcases Nat.lt_or_eq_of_le (Nat.div_le_div_right (c := 64) (Nat.le_of_lt hlt)) with hdiv | hdiv
  · exact h _ _ hdiv (by omega) _ _
  · rw [hdiv]
    exact List.append_left_lt (cons_ofNat_lt (by omega) (by omega) cs ds)

/-- Of two characters the smaller one has the smaller bytes, whatever stands behind them. -/
theorem utf8EncodeChar_append_lt {c d : Char} (h : c < d) (cs ds : List UInt8) :
    String.utf8EncodeChar c ++ cs < String.utf8EncodeChar d ++ ds := by
  have hlt : c.val.toNat < d.val.toNat := h
  have hmax : d.val.toNat < 0x110000 := by
    have hvalid := d.valid
    simp only [UInt32.isValidChar, Nat.isValidChar] at hvalid
    omega
  have htwo := (growsBelow_first 32 192 (by decide)).further
  have hthree := (growsBelow_first 16 224 (by decide)).further.further
  have hfour := (growsBelow_first 8 240 (by decide)).further.further.further
  simp only [Nat.div_div_eq_div_mul, List.append_assoc] at hthree hfour
  unfold String.utf8EncodeChar
  generalize c.val.toNat = m at hlt ⊢
  generalize d.val.toNat = n at hlt hmax ⊢
  dsimp only
  -- by the lengths of both, of which the first is not greater
  split_ifs
  · exact cons_ofNat_lt hlt (by omega) cs ds
  · exact cons_ofNat_lt (by omega) (by omega) _ _
  · exact cons_ofNat_lt (by omega) (by omega) _ _
  · exact cons_ofNat_lt (by omega) (by omega) _ _
  · omega
  · exact htwo m n hlt (by omega) cs ds
  · exact cons_ofNat_lt (by omega) (by omega) _ _
  · exact cons_ofNat_lt (by omega) (by omega) _ _
  · omega
  · omega
  · exact hthree m n hlt (by omega) cs ds
  · exact cons_ofNat_lt (by omega) (by omega) _ _
  · omega
  · omega
  · omega
  · exact hfour m n hlt (by omega) cs ds

/-! ## The bytes of a text -/

theorem flatMap_utf8EncodeChar_lt {cs ds : List Char} (h : cs < ds) :
    cs.flatMap String.utf8EncodeChar < ds.flatMap String.utf8EncodeChar := by
  induction cs generalizing ds with
  | nil =>
    cases ds with
    | nil => exact absurd h (List.lt_irrefl [])
    | cons d ds =>
      obtain ⟨b, bs, hbytes⟩ := List.exists_cons_of_ne_nil (String.utf8EncodeChar_ne_nil (c := d))
      rw [List.flatMap_nil, List.flatMap_cons, hbytes]
      exact List.nil_lt_cons b _
  | cons c cs ih =>
    cases ds with
    | nil => exact absurd h (List.not_lt_nil _)
    | cons d ds =>
      rw [List.flatMap_cons, List.flatMap_cons]
      rcases List.cons_lt_cons_iff.1 h with hlt | ⟨rfl, hrest⟩
      · exact utf8EncodeChar_append_lt hlt _ _
      · exact List.append_left_lt (ih hrest)

/-- Texts are in the order of their bytes. -/
theorem lt_iff_bytes_lt {s t : String} : s < t ↔ bytes s < bytes t := by
  rw [bytes_eq_flatMap, bytes_eq_flatMap]
  constructor
  · exact fun h => flatMap_utf8EncodeChar_lt h
  · intro h
    -- a text with the smaller bytes is neither the same nor the greater one
    rcases lt_trichotomy s t with hlt | rfl | hgt
    · exact hlt
    · exact absurd h (List.lt_irrefl _)
    · exact absurd h (List.lt_asymm (flatMap_utf8EncodeChar_lt hgt))

/-! ## Sorted lists -/

theorem pairwise_insertDistinct {x : String} {ys : List String} (h : ys.Pairwise (· < ·)) :
    (insertDistinct x ys).Pairwise (· < ·) := by
  induction ys with
  | nil => exact List.pairwise_singleton _ x
  | cons y ys ih =>
    obtain ⟨hy, hys⟩ := List.pairwise_cons.1 h
    rw [insertDistinct]
    split
    · next hlt =>
      refine List.pairwise_cons.2 ⟨fun z hz => ?_, h⟩
      rcases List.mem_cons.1 hz with rfl | hz
      · exact hlt
      · exact String.lt_trans hlt (hy z hz)
    · next hnot =>
      split
      · exact h
      · next hne =>
        have hlt : y < x := lt_of_le_of_ne (String.not_lt.1 hnot) (Ne.symm hne)
        refine List.pairwise_cons.2 ⟨fun z hz => ?_, ih hys⟩
        rcases mem_insertDistinct.1 hz with rfl | hz
        · exact hlt
        · exact hy z hz

theorem pairwise_sortedDistinct (xs : List String) : (sortedDistinct xs).Pairwise (· < ·) := by
  induction xs with
  | nil => exact .nil
  | cons x xs ih => exact pairwise_insertDistinct ih

end FilterClause.Text
