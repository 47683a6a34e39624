import LiveTemplate.Markup.Escape
import LiveTemplate.Markup.Reference
import Mathlib.Data.List.Basic
import Mathlib.Tactic.Common

namespace LiveTemplate.Markup

@[simp] theorem decode_nil : decode [] = [] := by
  rw [decode]

theorem decode_cons {c : Char} (plain : c ≠ '&') (r : Text) : decode (c :: r) = c :: decode r := by
  rw [decode]
  exact plain

theorem decode_reference {r rest : Text} {c : Char} (read : readReference? r = some (c, rest)) :
    decode ('&' :: r) = c :: decode rest := by
  rw [decode]
  split
  · rename_i found
    rcases Prod.mk.inj (Option.some.inj (read.symm.trans found)) with ⟨rfl, rfl⟩
    rfl
  · rename_i failed
    simp [failed] at read

theorem decode_ne_nil {t : Text} (nonempty : t ≠ []) : decode t ≠ [] := by
  rcases List.exists_cons_of_ne_nil nonempty with ⟨c, r, rfl⟩
  by_cases ampersand : c = '&'
  · rw [ampersand, decode]
    split <;> simp
  · simp [decode_cons ampersand]

theorem decode_textForm (c : Char) (r : Text) : decode (textForm c ++ r) = c :: decode r := by
  rw [textForm]
  split_ifs with ampersand less greater blank
  · subst ampersand
    exact decode_reference rfl
  · subst less
    exact decode_reference rfl
  · subst greater
    exact decode_reference rfl
  · subst blank
    exact decode_reference rfl
  · exact decode_cons ampersand r

theorem decode_valueForm (c : Char) (r : Text) : decode (valueForm c ++ r) = c :: decode r := by
  rw [valueForm]
  split_ifs with ampersand quote blank
  · subst ampersand
    exact decode_reference rfl
  · subst quote
    exact decode_reference rfl
  · subst blank
    exact decode_reference rfl
  · exact decode_cons ampersand r

theorem decode_flatMap_append {form : Char → Text}
    (undone : ∀ c r, decode (form c ++ r) = c :: decode r) (t r : Text) :
    decode (t.flatMap form ++ r) = t ++ decode r := by
  induction t with
  | nil => rfl
  | cons c t ih =>
      calc
        decode ((c :: t).flatMap form ++ r) = decode (form c ++ (t.flatMap form ++ r)) := by
          rw [List.flatMap_cons, List.append_assoc]
        _ = c :: decode (t.flatMap form ++ r) := undone c _
        _ = c :: t ++ decode r := by rw [ih, List.cons_append]

theorem decode_escapedText_append (t r : Text) : decode (escapedText t ++ r) = t ++ decode r :=
  decode_flatMap_append decode_textForm t r

theorem decode_escapedValue_append (t r : Text) : decode (escapedValue t ++ r) = t ++ decode r :=
  decode_flatMap_append decode_valueForm t r

theorem decode_escapedText (t : Text) : decode (escapedText t) = t := by
  simpa using decode_escapedText_append t []

theorem decode_escapedValue (t : Text) : decode (escapedValue t) = t := by
  simpa using decode_escapedValue_append t []

theorem not_mem_textForm {x : Char} (mark : x = '<' ∨ x = '>') (c : Char) : x ∉ textForm c := by
  rw [textForm]
  split_ifs with ampersand less greater blank
  · rcases mark with rfl | rfl <;> decide
  · rcases mark with rfl | rfl <;> decide
  · rcases mark with rfl | rfl <;> decide
  · rcases mark with rfl | rfl <;> decide
  · rcases mark with rfl | rfl
    · simpa using Ne.symm less
    · simpa using Ne.symm greater

theorem not_mem_escapedText {x : Char} (mark : x = '<' ∨ x = '>') (t : Text) :
    x ∉ escapedText t := by
  simpa [escapedText] using fun c _ => not_mem_textForm mark c

theorem quote_not_mem_valueForm (c : Char) : '"' ∉ valueForm c := by
  rw [valueForm]
  split_ifs with ampersand quote blank
  · decide
  · decide
  · decide
  · simpa using Ne.symm quote

theorem quote_not_mem_escapedValue (t : Text) : '"' ∉ escapedValue t := by
  simpa [escapedValue] using fun c _ => quote_not_mem_valueForm c

theorem textForm_ne_nil (c : Char) : textForm c ≠ [] := by
  rw [textForm]
  split_ifs <;> simp

theorem escapedText_ne_nil {t : Text} (nonempty : t ≠ []) : escapedText t ≠ [] := by
  rcases List.exists_cons_of_ne_nil nonempty with ⟨c, r, rfl⟩
  simp [escapedText, textForm_ne_nil]

def textReferences : List Text :=
  ["&amp;", "&lt;", "&gt;", "&nbsp;"].map String.toList

def valueReferences : List Text :=
  ["&amp;", "&quot;", "&nbsp;"].map String.toList

theorem textForm_cases (c : Char) :
    textForm c ∈ textReferences ∨ textForm c = [c] ∧ c ≠ '&' := by
  rw [textForm]
  split_ifs with ampersand less greater blank
  · exact .inl (by decide)
  · exact .inl (by decide)
  · exact .inl (by decide)
  · exact .inl (by decide)
  · exact .inr ⟨rfl, ampersand⟩

theorem valueForm_cases (c : Char) :
    valueForm c ∈ valueReferences ∨ valueForm c = [c] ∧ c ≠ '&' := by
  rw [valueForm]
  split_ifs with ampersand quote blank
  · exact .inl (by decide)
  · exact .inl (by decide)
  · exact .inl (by decide)
  · exact .inr ⟨rfl, ampersand⟩

/-- An ampersand that is met in a form can only be its first character. -/
theorem eq_nil_of_form {references : List Text} (led : ∀ w ∈ references, '&' ∉ w.tail)
    {form before after : Text} {c : Char} (either : form ∈ references ∨ form = [c] ∧ c ≠ '&')
    (whole : form = before ++ '&' :: after) : before = [] ∧ form ∈ references := by
  rcases before with _ | ⟨d, before⟩
  · rcases either with reference | ⟨plain, other⟩
    · exact ⟨rfl, reference⟩
    · exact absurd (List.cons.inj (plain.symm.trans whole)).1 other
  · rcases either with reference | ⟨plain, _⟩
    · exact absurd (by simp [whole]) (led form reference)
    · simpa using plain.symm.trans whole

theorem reference_of_ampersand {form : Char → Text} {references : List Text}
    (led : ∀ w ∈ references, '&' ∉ w.tail)
    (forms : ∀ c, form c ∈ references ∨ form c = [c] ∧ c ≠ '&') {t before after : Text}
    (whole : t.flatMap form = before ++ '&' :: after) : ∃ earlier c later,
      t = earlier ++ c :: later ∧ before = earlier.flatMap form ∧ form c ∈ references ∧
        '&' :: after = form c ++ later.flatMap form := by
  induction t generalizing before with
  | nil => simp at whole
  | cons c t ih =>
      rw [List.flatMap_cons] at whole
      rcases List.append_eq_append_iff.mp whole with ⟨skipped, same, rest⟩ | ⟨within, same, rest⟩
      · -- the ampersand comes after the form of the first character
        rcases ih rest with ⟨earlier, d, later, rfl, rfl, reference, here⟩
        exact ⟨c :: earlier, d, later, rfl, by rw [same, List.flatMap_cons], reference, here⟩
      · rcases within with _ | ⟨d, within⟩
        · have next : t.flatMap form = [] ++ '&' :: after := by simpa using rest.symm
          rcases ih next with ⟨earlier, d, later, rfl, nothing, reference, here⟩
          refine ⟨c :: earlier, d, later, rfl, ?_, reference, here⟩
          rw [List.flatMap_cons, ← nothing, same, List.append_nil, List.append_nil]
        · rw [List.cons_append, List.cons.injEq] at rest
          obtain ⟨rfl, rest⟩ := rest
          rcases eq_nil_of_form led (forms c) same with ⟨rfl, reference⟩
          refine ⟨[], c, t, rfl, rfl, reference, ?_⟩
          rw [same, rest]
          rfl

/-- Escaping loses nothing and takes nothing for a reference that it did not write: in front of any
text the written forms are read as the characters they were made of. They are free of the characters
that would end them, and each ampersand in them starts the reference of a character. -/
theorem decode_escaped_in_context :
    (∀ t r, decode (escapedText t ++ r) = t ++ decode r) ∧
    (∀ t r, decode (escapedValue t ++ r) = t ++ decode r) ∧
    Function.Injective escapedText ∧ Function.Injective escapedValue ∧
    (∀ t, '<' ∉ escapedText t ∧ '>' ∉ escapedText t) ∧ (∀ t, '"' ∉ escapedValue t) ∧
    (∀ t before after, escapedText t = before ++ '&' :: after → ∃ earlier c later,
      t = earlier ++ c :: later ∧ before = escapedText earlier ∧
        textForm c ∈ textReferences ∧ '&' :: after = textForm c ++ escapedText later) ∧
    ∀ t before after, escapedValue t = before ++ '&' :: after → ∃ earlier c later,
      t = earlier ++ c :: later ∧ before = escapedValue earlier ∧
        valueForm c ∈ valueReferences ∧ '&' :: after = valueForm c ++ escapedValue later := by
  refine ⟨decode_escapedText_append, decode_escapedValue_append,
    Function.LeftInverse.injective decode_escapedText,
    Function.LeftInverse.injective decode_escapedValue, ?_, quote_not_mem_escapedValue, ?_, ?_⟩
  · exact fun t => ⟨not_mem_escapedText (.inl rfl) t, not_mem_escapedText (.inr rfl) t⟩
  · exact fun t before after whole => reference_of_ampersand (by decide) textForm_cases whole
  · exact fun t before after whole => reference_of_ampersand (by decide) valueForm_cases whole

/-- Written text that looks like the beginning of a reference is not read on into what follows it, and
the second of two written references stands for a character of its own. -/
theorem decode_escaped_in_context_nested :
    decode (escapedText "&lt&".toList ++ ";amp;".toList) = "&lt&;amp;".toList ∧
    escapedText "<&".toList = "&lt;".toList ++ '&' :: "amp;".toList ∧
    ∃ earlier c later, "<&".toList = earlier ++ c :: later ∧ textForm c ∈ textReferences ∧
      '&' :: "amp;".toList = textForm c ++ escapedText later := by
  rcases decode_escaped_in_context with ⟨undone, _, _, _, _, _, led, _⟩
  have whole : escapedText "<&".toList = "&lt;".toList ++ '&' :: "amp;".toList := by decide
  have plain : decode ";amp;".toList = ";amp;".toList := by
    simp [decode_cons]
  refine ⟨?_, whole, ?_⟩
  · rw [undone, plain]
    rfl
  · rcases led _ _ _ whole with ⟨earlier, c, later, same, _, reference, here⟩
    exact ⟨earlier, c, later, same, reference, here⟩

end LiveTemplate.Markup
