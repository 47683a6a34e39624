import LiveTemplate.Text.Blank

namespace LiveTemplate.Text

structure IsWord (t : Text) : Prop where
  nonempty : t ≠ []
  unbroken : ∀ c ∈ t, isBlank c = false

instance (t : Text) : Decidable (IsWord t) :=
  decidable_of_iff (!t.isEmpty && t.all fun c => !isBlank c) <| by
    simp only [Bool.and_eq_true, Bool.not_eq_true', List.isEmpty_eq_false_iff, List.all_eq_true]
    exact ⟨fun ⟨nonempty, unbroken⟩ => ⟨nonempty, unbroken⟩, fun word => ⟨word.1, word.2⟩⟩

variable {t word : Text} {ws : List Text}

theorem not_blank_of_mem_splitOnP {part : Text} (member : part ∈ t.splitOnP isBlank) :
    ∀ c ∈ part, isBlank c = false := by
  induction t generalizing part with
  | nil => simp_all
  | cons x r ih =>
      rw [List.splitOnP_cons_eq_if_modifyHead] at member
      by_cases blank : isBlank x
      · rw [if_pos blank] at member
        rcases List.mem_cons.mp member with rfl | later
        · simp
        · exact ih later
      · rw [if_neg blank] at member
        obtain ⟨first, more, parts⟩ :=
          List.exists_cons_of_ne_nil (List.splitOnP_ne_nil isBlank r)
        rw [parts, List.modifyHead_cons, List.mem_cons] at member
        rcases member with rfl | later
        · intro c inside
          rcases List.mem_cons.mp inside with rfl | further
          · simpa using blank
          · exact ih (parts ▸ List.mem_cons_self) c further
        · exact ih (parts ▸ List.mem_cons_of_mem first later)

theorem isWord_of_mem_words (member : word ∈ words t) : IsWord word := by
  rcases List.mem_filter.mp member with ⟨part, nonempty⟩
  exact ⟨by simpa using nonempty, not_blank_of_mem_splitOnP part⟩

theorem words_of_isWord (whole : IsWord word) : words word = [word] := by
  rw [words, List.splitOnP_eq_singleton whole.unbroken]
  simp [whole.nonempty]

theorem words_cons (first : IsWord word) {c : Char} (blank : isBlank c) (r : Text) :
    words (word ++ c :: r) = word :: words r := by
  rw [words, List.splitOnP_append_cons word r blank, List.splitOnP_eq_singleton first.unbroken]
  simp [words, first.nonempty]

theorem words_intercalate (whole : ∀ word ∈ ws, IsWord word) :
    words (List.intercalate [' '] ws) = ws := by
  induction ws with
  | nil => rfl
  | cons first more ih =>
      have start : IsWord first := whole first List.mem_cons_self
      cases more with
      | nil => rw [List.intercalate_singleton, words_of_isWord start]
      | cons second rest =>
          rw [List.intercalate_cons_cons, List.append_assoc, List.singleton_append,
            words_cons start (by decide), ih fun word member => whole word (.tail first member)]

end LiveTemplate.Text
