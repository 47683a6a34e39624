import LiveTemplate.Style.ScopedName
import Mathlib.Tactic.Common

namespace LiveTemplate.Text

open Style (utf8)

theorem cons_ofNat_lt_iff {m n : Nat} (small : m < 256) (bounded : n < 256) {l more : List UInt8} :
    UInt8.ofNat m :: l < UInt8.ofNat n :: more ↔ m < n ∨ m = n ∧ l < more := by
  rw [List.cons_lt_cons_iff, UInt8.lt_iff_toNat_lt, ← UInt8.toNat_inj]
  simp only [UInt8.toNat_ofNat', Nat.mod_eq_of_lt small, Nat.mod_eq_of_lt bounded]

/-- The bytes of the smaller character come first, whatever follows. -/
theorem utf8EncodeChar_append_lt {a b : Char} (smaller : a.toNat < b.toNat) (s t : List UInt8) :
    String.utf8EncodeChar a ++ s < String.utf8EncodeChar b ++ t := by
  have last : b.toNat < 0x110000 := by
    rcases b.valid with low | high
    · exact Nat.lt_trans low (by decide)
    · exact high.2
  -- six bits more at each step, so that two numbers are compared by their digits
  have middle : ∀ n : Nat, n / 4096 = n / 64 / 64 := fun n => (Nat.div_div_eq_div_mul n 64 64).symm
  have high : ∀ n : Nat, n / 262144 = n / 64 / 64 / 64 := fun n => by
    rw [Nat.div_div_eq_div_mul, Nat.div_div_eq_div_mul]
  rw [Char.toNat, Char.toNat] at smaller
  rw [Char.toNat] at last
  simp only [String.utf8EncodeChar, middle, high]
  generalize a.val.toNat = m at smaller
  generalize b.val.toNat = n at smaller last
  split_ifs <;> simp (disch := omega) only [List.cons_append, cons_ofNat_lt_iff] <;> omega

theorem append_le_append_iff {l s t : List UInt8} : l ++ s ≤ l ++ t ↔ s ≤ t := by
  refine ⟨fun ordered => ?_, List.append_left_le⟩
  by_contra before
  exact List.not_le.mpr (List.append_left_lt (List.not_le.mp before)) ordered

theorem atMost_iff {s t : Text} : atMost s t ↔ utf8 s ≤ utf8 t := by
  induction s generalizing t with
  | nil => simp [atMost, utf8]
  | cons a s ih =>
      cases t with
      | nil => simp [atMost, utf8]
      | cons b t =>
          have encoded (c : Char) (r : Text) :
              utf8 (c :: r) = String.utf8EncodeChar c ++ utf8 r := List.flatMap_cons
          rw [encoded, encoded, atMost, Bool.or_eq_true, Bool.and_eq_true, decide_eq_true_iff,
            beq_iff_eq]
          rcases Nat.lt_trichotomy a.toNat b.toNat with smaller | same | larger
          · exact iff_of_true (.inl smaller) (List.le_of_lt (utf8EncodeChar_append_lt smaller _ _))
          · obtain rfl := Char.toNat_inj.mp same
            rw [append_le_append_iff, ← ih]
            simp
          · have other : a ≠ b := by
              rintro rfl
              exact Nat.lt_irrefl _ larger
            have after := List.not_le.mpr (utf8EncodeChar_append_lt larger (utf8 t) (utf8 s))
            exact iff_of_false (by simp [other, Nat.lt_asymm larger]) after

theorem utf8_injective : Function.Injective utf8 := by
  intro s t same
  have encoded : s.utf8Encode = t.utf8Encode := congrArg List.toByteArray same
  rw [← String.toByteArray_ofList, ← String.toByteArray_ofList, String.toByteArray_inj] at encoded
  exact String.ofList_injective encoded

theorem pairwise_mergeSort_atMost {texts : List Text} (distinct : texts.Nodup) :
    (texts.mergeSort atMost).Pairwise fun s t => utf8 s < utf8 t := by
  have sorted : (texts.mergeSort atMost).Pairwise fun s t => atMost s t :=
    List.pairwise_mergeSort
      (by simp only [atMost_iff]; exact fun _ _ _ => List.le_trans)
      (by simp only [Bool.or_eq_true, atMost_iff]; exact fun _ _ => List.le_total _ _) texts
  have apart : (texts.mergeSort atMost).Pairwise (· ≠ ·) :=
    (List.mergeSort_perm texts atMost).nodup_iff.mpr distinct
  exact (sorted.and apart).imp fun ⟨ordered, other⟩ =>
    (List.le_iff_lt_or_eq.mp (atMost_iff.mp ordered)).resolve_right (utf8_injective.ne other)

end LiveTemplate.Text
