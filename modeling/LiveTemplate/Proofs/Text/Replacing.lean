import LiveTemplate.Text.Basic
import Mathlib.Data.List.Infix

/-! Replacing a word in a text of words with separators between them. Where the word has no character
of a separator and is part of no other word, exactly its own places are replaced. -/

namespace LiveTemplate.Text

variable {old new s t : Text}

/-- A stretch in which no occurrence starts is passed over. -/
theorem replace_append (passed : ∀ tail, tail ≠ [] → tail <:+ s → ¬ old <+: tail ++ t) :
    replace old new (s ++ t) = s ++ replace old new t := by
  induction s with
  | nil => rfl
  | cons c r ih =>
      have here : ¬ old.isPrefixOf (c :: (r ++ t)) := by
        rw [List.isPrefixOf_iff_prefix]
        exact passed (c :: r) (List.cons_ne_nil c r) List.suffix_rfl
      have rest := ih fun tail nonempty inside =>
        passed tail nonempty (inside.trans (List.suffix_cons c r))
      rw [List.cons_append, replace, if_neg here, rest, List.cons_append]

theorem replace_append_of_foreign (nonempty : old ≠ []) (foreign : ∀ c ∈ s, c ∉ old) :
    replace old new (s ++ t) = s ++ replace old new t := by
  apply replace_append
  intro tail start inside occurs
  obtain ⟨a, more, rfl⟩ := List.exists_cons_of_ne_nil nonempty
  obtain ⟨b, others, rfl⟩ := List.exists_cons_of_ne_nil start
  have first : a = b := (List.cons_prefix_cons.mp occurs).1
  exact foreign b (inside.subset List.mem_cons_self) (first ▸ List.mem_cons_self)

theorem replace_append_of_absent (absent : ¬ old <:+: s) (stops : ∀ c ∈ t.head?, c ∉ old) :
    replace old new (s ++ t) = s ++ replace old new t := by
  apply replace_append
  intro tail _ inside occurs
  rcases List.prefix_or_prefix_of_prefix occurs (List.prefix_append tail t) with within | beyond
  · exact absent (within.isInfix.trans inside.isInfix)
  · obtain ⟨more, rfl⟩ := beyond
    rw [List.prefix_append_right_inj] at occurs
    cases more with
    | nil => exact absent (by simpa using inside.isInfix)
    | cons c more =>
        obtain ⟨others, rfl⟩ := occurs
        exact stops c (by simp) (by simp)

theorem replace_append_self (nonempty : old ≠ []) :
    replace old new (old ++ t) = new ++ replace old new t := by
  obtain ⟨c, r, rfl⟩ := List.exists_cons_of_ne_nil nonempty
  have here : (c :: r).isPrefixOf (c :: (r ++ t)) :=
    List.isPrefixOf_iff_prefix.mpr (List.prefix_append (c :: r) t)
  rw [List.cons_append, replace, if_pos here]
  simp

def spaced (words : List (Text × Text)) : Text :=
  words.flatMap fun word => word.1 ++ word.2

theorem spaced_cons (word after : Text) (more : List (Text × Text)) :
    spaced ((word, after) :: more) = word ++ (after ++ spaced more) := by
  rw [spaced, List.flatMap_cons, List.append_assoc]
  rfl

theorem replace_spaced {words : List (Text × Text)} (nonempty : old ≠ [])
    (apart : ∀ word ∈ words.dropLast, word.2 ≠ [])
    (foreign : ∀ word ∈ words, ∀ c ∈ word.2, c ∉ old)
    (whole : ∀ word ∈ words, word.1 = old ∨ ¬ old <:+: word.1) :
    replace old new (spaced words) =
      spaced (words.map fun word => (if word.1 = old then new else word.1, word.2)) := by
  induction words with
  | nil => rw [List.map_nil, spaced, List.flatMap_nil, replace]
  | cons word more ih =>
      rcases word with ⟨word, after⟩
      have outside : ∀ c ∈ after, c ∉ old := foreign _ List.mem_cons_self
      have rest := ih
        (fun other member => apart other (by
          cases more with
          | nil => simp at member
          | cons next more => simpa using .inr member))
        (fun other member => foreign other (List.mem_cons_of_mem _ member))
        (fun other member => whole other (List.mem_cons_of_mem _ member))
      rw [List.map_cons, spaced_cons, spaced_cons, ← rest]
      by_cases same : word = old
      · subst same
        rw [if_pos rfl, replace_append_self nonempty, replace_append_of_foreign nonempty outside]
      · have absent : ¬ old <:+: word := (whole _ List.mem_cons_self).resolve_left same
        have stops : ∀ c ∈ (after ++ spaced more).head?, c ∉ old := by
          cases after with
          | cons c after =>
              intro first member
              obtain rfl : c = first := by simpa using member
              exact outside c List.mem_cons_self
          | nil =>
              -- only the last word has nothing after it
              cases more with
              | nil => simp [spaced]
              | cons next more => exact absurd rfl (apart _ List.mem_cons_self)
        rw [if_neg same, replace_append_of_absent absent stops,
          replace_append_of_foreign nonempty outside]

end LiveTemplate.Text
