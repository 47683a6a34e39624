import LiveTemplate.Text.Basic
import Mathlib.Data.List.Infix

namespace LiveTemplate.Text

variable {mark part t before after : Text}

theorem occurs_iff : occurs part t ↔ part <:+: t := by
  rw [occurs]
  induction t with
  | nil => cases part <;> simp [cut]
  | cons c r ih =>
      rw [cut, List.infix_cons_iff, ← List.isPrefixOf_iff_prefix, ← ih]
      by_cases here : part.isPrefixOf (c :: r) <;> simp [here]

theorem cut_eq_none_iff : cut mark t = none ↔ ¬ mark <:+: t := by
  rw [← occurs_iff, occurs, Bool.not_eq_true, Option.isSome_eq_false_iff, Option.isNone_iff_eq_none]

theorem cut_append (found : cut mark t = some (before, after)) (nonempty : mark ≠ [])
    (more : Text) : cut mark (t ++ more) = some (before, after ++ more) := by
  induction t generalizing before with
  | nil => simp [cut, nonempty] at found
  | cons c r ih =>
      rw [cut] at found
      rw [List.cons_append, cut]
      split at found
      · rename_i present
        obtain ⟨rfl, rfl⟩ := Prod.mk.inj (Option.some.inj found)
        rw [List.isPrefixOf_iff_prefix] at present
        have still : mark <+: c :: (r ++ more) := present.trans (List.prefix_append _ more)
        rw [if_pos (List.isPrefixOf_iff_prefix.mpr still), ← List.cons_append,
          List.drop_append_of_le_length present.length_le]
      · rename_i absent
        obtain ⟨⟨b, a⟩, later, same⟩ := Option.map_eq_some_iff.mp found
        obtain ⟨rfl, rfl⟩ := Prod.mk.inj same
        -- the mark fits into the rest of the text, so it is too short to reach past its end
        have room := cut_length later
        have still : ¬ mark.isPrefixOf (c :: (r ++ more)) := by
          rw [List.isPrefixOf_iff_prefix] at absent ⊢
          intro reaches
          refine absent (List.prefix_of_prefix_length_le reaches (List.prefix_append (c :: r) more) ?_)
          rw [List.length_cons]
          omega
        rw [if_neg still, ih later]
        rfl

/-- A mark does not lie across a place at which a character stands that it does not have. -/
theorem infix_append_cons {c : Char} (foreign : c ∉ mark) {r : Text}
    (inside : mark <:+: t ++ c :: r) : mark <:+: t ∨ mark <:+: c :: r := by
  induction t with
  | nil => exact .inr inside
  | cons x u ih =>
      rw [List.cons_append, List.infix_cons_iff] at inside
      rcases inside with here | later
      · refine .inl ?_
        rcases List.prefix_or_prefix_of_prefix here (List.prefix_append (x :: u) (c :: r)) with
          within | beyond
        · exact within.isInfix
        · rcases beyond with ⟨rest, rfl⟩
          have crossing := (List.prefix_append_right_inj (x :: u)).mp here
          cases rest with
          | nil => simp
          | cons y more =>
              obtain rfl : y = c := (List.cons_prefix_cons.mp crossing).1
              simp at foreign
      · exact (ih later).imp_left fun within => within.trans (List.suffix_cons x u).isInfix

end LiveTemplate.Text
