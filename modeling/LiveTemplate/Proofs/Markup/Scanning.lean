import LiveTemplate.Markup.Lexer
import LiveTemplate.Proofs.Markup.Escaping
import LiveTemplate.Proofs.Markup.Printer
import Mathlib

namespace LiveTemplate.Markup

theorem takeWhile_of_stop {p : Char → Bool} {t rest : Text} (all : ∀ c ∈ t, p c)
    (stops : rest.head?.all (!p ·)) : (t ++ rest).takeWhile p = t := by
  rw [List.takeWhile_append_of_pos all]
  cases rest with
  | nil => simp
  | cons c r => simp_all

theorem dropWhile_of_stop {p : Char → Bool} {t rest : Text} (all : ∀ c ∈ t, p c)
    (stops : rest.head?.all (!p ·)) : (t ++ rest).dropWhile p = rest := by
  rw [List.dropWhile_append_of_pos all]
  cases rest with
  | nil => simp
  | cons c r => simp_all

theorem splitBefore_of_stop {stop : Text → Bool} {t rest : Text}
    (goes : ∀ before c after, t = before ++ c :: after → stop (c :: (after ++ rest)) = false)
    (stops : rest = [] ∨ stop rest) : splitBefore stop (t ++ rest) = (t, rest) := by
  induction t with
  | nil =>
      cases rest with
      | nil => rfl
      | cons c r => simp_all [splitBefore]
  | cons c t ih =>
      have first := goes [] c t rfl
      have later := ih fun before x after same => goes (c :: before) x after (by simp [same])
      simp [splitBefore, first, later]

theorem cut_of_stop {mark t : Text} (rest : Text)
    (goes : ∀ before c after, t = before ++ c :: after →
      mark.isPrefixOf (c :: (after ++ mark ++ rest)) = false) :
    Text.cut mark (t ++ mark ++ rest) = some (t, rest) := by
  induction t with
  | nil =>
      cases mark with
      | nil => cases rest <;> simp [Text.cut]
      | cons m mark => simp [Text.cut]
  | cons c t ih =>
      have first := goes [] c t rfl
      have later := ih fun before x after same => goes (c :: before) x after (by simp [same])
      simp only [List.append_assoc] at first later ⊢
      simp [Text.cut, first, later]

theorem cut_char {mark : Char} {t : Text} (absent : mark ∉ t) (rest : Text) :
    Text.cut [mark] (t ++ mark :: rest) = some (t, rest) := by
  have found : Text.cut [mark] (t ++ [mark] ++ rest) = some (t, rest) := by
    apply cut_of_stop
    intro before c after same
    have other : mark ≠ c := fun equal => absent (by simp [same, equal])
    simp [List.isPrefixOf, other]
  simpa using found

theorem tokens?_nil : tokens? [] = some [] := by
  rw [tokens?]

theorem tokens?_of_token? {t rest : Text} {token : Token} (nonempty : t ≠ [])
    (read : token? t = some (token, rest)) : tokens? t = (tokens? rest).map (token :: ·) := by
  rcases List.exists_cons_of_ne_nil nonempty with ⟨c, r, rfl⟩
  rw [tokens?]
  split
  · rename_i found
    rcases Prod.mk.inj (Option.some.inj (read.symm.trans found)) with ⟨rfl, rfl⟩
    rfl
  · rename_i failed
    simp [failed] at read

theorem tokens?_eq_none {t : Text} (nonempty : t ≠ []) (failed : token? t = none) :
    tokens? t = none := by
  rcases List.exists_cons_of_ne_nil nonempty with ⟨c, r, rfl⟩
  rw [tokens?]
  split
  · simp_all
  · rfl

theorem skipSpaces_of_head {c : Char} (r : Text) (solid : isSpace c = false) :
    skipSpaces (c :: r) = c :: r := by
  simp [skipSpaces, solid]

def writtenPairs (attributes : Attributes) : WrittenAttributes :=
  attributes.entries.map fun (name, value) => (name, escapedValue value)

/-- A name that can be written for an attribute and is read back as it is. -/
structure IsAttributeName (name : Text) : Prop where
  nonempty : name ≠ []
  small : ∀ c ∈ name, ¬ c.isUpper
  plain : ∀ c ∈ name, c ∉ [' ', '\t', '\r', '\n', '/', '>', '=', '"', '\'', '<']

theorem isNameChar_iff {c : Char} :
    isNameChar c ↔ c ∉ [' ', '\t', '\r', '\n', '/', '>', '=', '"', '\'', '<'] := by
  simp [isNameChar, isSpace, and_assoc]

theorem attribute?_written {name : Text} (named : IsAttributeName name) (value rest : Text) :
    attribute? (skipSpaces (name ++ '=' :: '"' :: (escapedValue value ++ '"' :: rest))) =
      some ((name, escapedValue value), rest) := by
  have all : ∀ c ∈ name, isNameChar c := fun c member => isNameChar_iff.mpr (named.plain c member)
  have stops : ('=' :: '"' :: (escapedValue value ++ '"' :: rest)).head?.all (!isNameChar ·) := rfl
  have quoted := cut_char (quote_not_mem_escapedValue value) rest
  have assigned : assigned? ('=' :: '"' :: (escapedValue value ++ '"' :: rest)) =
      some (escapedValue value, rest) := by
    simp [assigned?, skipSpaces, isSpace, value?, quoted]
  rcases List.exists_cons_of_ne_nil named.nonempty with ⟨c, r, rfl⟩
  have solid : isSpace c = false := by
    have plain := named.plain c List.mem_cons_self
    simp_all [isSpace]
  rw [List.cons_append, skipSpaces_of_head _ solid, ← List.cons_append, attribute?,
    takeWhile_of_stop all stops, dropWhile_of_stop all stops, assigned]

theorem attributes_of_head {c : Char} {r : Text} (solid : isSpace c = false) :
    attributes (c :: r) = ([], c :: r) := by
  rw [attributes, solid]
  rfl

theorem attributes_of_attribute? {c : Char} {r rest : Text} {a : Text × Text} (space : isSpace c)
    (read : attribute? (skipSpaces r) = some (a, rest)) :
    attributes (c :: r) = (a :: (attributes rest).1, (attributes rest).2) := by
  rw [attributes, if_pos space]
  split
  · rename_i found
    rcases Prod.mk.inj (Option.some.inj (read.symm.trans found)) with ⟨rfl, rfl⟩
    rfl
  · rename_i failed
    simp [failed] at read

theorem attributes_written (entries : List (Text × Text))
    (named : ∀ entry ∈ entries, IsAttributeName entry.1) (rest : Text) :
    attributes (entries.flatMap (fun (name, value) => writtenAttribute name value) ++ '>' :: rest) =
      (entries.map fun (name, value) => (name, escapedValue value), '>' :: rest) := by
  induction entries with
  | nil => exact attributes_of_head rfl
  | cons entry more ih =>
      rcases entry with ⟨name, value⟩
      have read := attribute?_written (named (name, value) List.mem_cons_self) value
        (more.flatMap (fun (name, value) => writtenAttribute name value) ++ '>' :: rest)
      have others := ih fun entry member => named entry (List.mem_cons_of_mem _ member)
      have step := attributes_of_attribute? (c := ' ') rfl read
      simp only [others] at step
      simpa [writtenAttribute] using step

/-- A tag as trees of markup hold it: a small letter, then small letters, digits and `-_:.`. -/
def IsTagName : Text → Prop
  | [] => False
  | c :: r => c.isLower ∧ ∀ x ∈ r, x.isLower ∨ x.isDigit ∨ x ∈ ['-', '_', ':', '.']

theorem not_isUpper_of_isDigit {c : Char} (digit : c.isDigit) : ¬ c.isUpper := by
  simp only [Char.isDigit, Char.isUpper, Bool.and_eq_true, decide_eq_true_eq, ge_iff_le,
    UInt32.le_iff_toNat_le] at digit ⊢
  have last : '9'.val.toNat = 57 := rfl
  have first : 'A'.val.toNat = 65 := rfl
  omega

theorem lowerAscii_of_small {t : Text} (small : ∀ c ∈ t, ¬ c.isUpper) : t.lowerAscii = t := by
  rw [Text.lowerAscii]
  conv_rhs => rw [← List.map_id t]
  exact List.map_congr_left fun c member => Char.toLower_eq_of_not_isUpper (small c member)

theorem IsTagName.isTagChar {tag : Text} (named : IsTagName tag) : ∀ c ∈ tag, isTagChar c := by
  cases tag with
  | nil => exact named.elim
  | cons first r =>
      intro c member
      rcases List.mem_cons.mp member with rfl | later
      · simp [Markup.isTagChar, Char.isAlphanum, Char.isAlpha, named.1]
      · rcases named.2 c later with lower | digit | mark
        · simp [Markup.isTagChar, Char.isAlphanum, Char.isAlpha, lower]
        · simp [Markup.isTagChar, Char.isAlphanum, digit]
        · simp only [List.mem_cons, List.not_mem_nil, or_false] at mark
          rcases mark with rfl | rfl | rfl | rfl <;> rfl

theorem IsTagName.small {tag : Text} (named : IsTagName tag) : ∀ c ∈ tag, ¬ c.isUpper := by
  cases tag with
  | nil => exact named.elim
  | cons first r =>
      intro c member
      rcases List.mem_cons.mp member with rfl | later
      · exact Char.not_isUpper_of_isLower named.1
      · rcases named.2 c later with lower | digit | mark
        · exact Char.not_isUpper_of_isLower lower
        · exact not_isUpper_of_isDigit digit
        · simp only [List.mem_cons, List.not_mem_nil, or_false] at mark
          rcases mark with rfl | rfl | rfl | rfl <;> decide

theorem IsTagName.lowerAscii {tag : Text} (named : IsTagName tag) : tag.lowerAscii = tag :=
  lowerAscii_of_small named.small

theorem IsTagName.startsWithLetter {tag : Text} (named : IsTagName tag) (rest : Text) :
    startsWithLetter (tag ++ rest) := by
  cases tag with
  | nil => exact named.elim
  | cons c r => simp [Markup.startsWithLetter, Char.isAlpha, named.1]

theorem head_attributes_written (attributes : Attributes) (rest : Text) :
    (attributes.entries.flatMap (fun (name, value) => writtenAttribute name value) ++
      '>' :: rest).head?.all (!isTagChar ·) := by
  cases attributes.entries with
  | nil => rfl
  | cons entry more => rfl

theorem startTag?_written {tag : Text} {attributes : Attributes} (named : IsTagName tag)
    (names : ∀ name ∈ attributes.keys, IsAttributeName name) (rest : Text) :
    startTag? (tag ++ (attributes.entries.flatMap (fun (name, value) =>
        writtenAttribute name value) ++ '>' :: rest)) =
      some (if isRaw tag then rawElement tag (writtenPairs attributes) rest
        else (.startTag tag (writtenPairs attributes) false, rest)) := by
  have entries : ∀ entry ∈ attributes.entries, IsAttributeName entry.1 :=
    fun entry member => names entry.1 (List.mem_map_of_mem member)
  have stops := head_attributes_written attributes rest
  rw [startTag?, takeWhile_of_stop named.isTagChar stops, dropWhile_of_stop named.isTagChar stops,
    attributes_written _ entries]
  rfl

theorem writtenEndTag_append (tag rest : Text) :
    writtenEndTag tag ++ rest = '<' :: '/' :: (tag ++ '>' :: rest) := by
  simp [writtenEndTag]

theorem endTag?_written {tag : Text} (named : IsTagName tag) (rest : Text) :
    endTag? (tag ++ '>' :: rest) = some (.endTag tag, rest) := by
  have stops : ('>' :: rest).head?.all (!isTagChar ·) := rfl
  rw [endTag?, takeWhile_of_stop named.isTagChar stops, dropWhile_of_stop named.isTagChar stops]
  rfl

/-- The end of a comment cannot begin in its content, as two hyphens follow the content. -/
theorem comment?_written {content : Text} (closed : ¬ "-->".toList <:+: content) (rest : Text) :
    comment? ('-' :: '-' :: (content ++ "-->".toList ++ rest)) = some (content, rest) := by
  apply cut_of_stop
  intro before c after same
  match after with
  | [] => simp [List.isPrefixOf]
  | [x] => simp [List.isPrefixOf]
  | x :: y :: more =>
      have differs : '-' = c → '-' = x → ¬ '>' = y := by
        rintro rfl rfl rfl
        exact closed ⟨before, more, by simp [same]⟩
      simpa [List.isPrefixOf] using differs

/-- A text in which the name of an element of raw text never follows `</` as a whole. -/
def HoldsNoRawEnd (content : Text) : Prop :=
  ∀ before name after, content = before ++ "</".toList ++ name ++ after → isRaw name →
    ∃ c more, after = c :: more ∧ isTagChar c

theorem endsRaw_eq_true_iff {t : Text} :
    endsRaw t ↔ ∃ r, t = '<' :: '/' :: r ∧ isRaw (r.takeWhile isTagChar) := by
  unfold endsRaw
  split
  · simp
  · rename_i other
    simp only [Bool.false_eq_true, false_iff, not_exists, not_and]
    intro r same
    exact absurd same (other r)

theorem takeWhile_append_of_head {p : Char → Bool} {c : Char} (stops : p c = false)
    (t r : Text) : (t ++ c :: r).takeWhile p = t.takeWhile p := by
  rw [List.takeWhile_append]
  split
  · rename_i whole
    rw [(List.takeWhile_prefix p).eq_of_length whole]
    simp [stops]
  · rfl

theorem endsRaw_of_holdsNoRawEnd {content : Text} (free : HoldsNoRawEnd content) {before : Text}
    {c : Char} {after : Text} (same : content = before ++ c :: after) (r : Text) :
    endsRaw (c :: (after ++ '<' :: r)) = false := by
  by_contra ends
  rw [Bool.not_eq_false] at ends
  rcases endsRaw_eq_true_iff.mp ends with ⟨inner, split, raw⟩
  cases after with
  | nil => simp at split
  | cons x more =>
      obtain ⟨rfl, rfl, rfl⟩ : c = '<' ∧ x = '/' ∧ more ++ '<' :: r = inner := by simpa using split
      rw [takeWhile_append_of_head rfl] at raw
      obtain ⟨y, rest, stop, goes⟩ := free before (more.takeWhile isTagChar)
        (more.dropWhile isTagChar) (by simp [same]) raw
      have first := List.head?_dropWhile_not isTagChar more
      rw [stop] at first
      simp [goes] at first

theorem endsRaw_of_not_mem {t : Text} (free : '<' ∉ t) {before : Text} {c : Char} {after : Text}
    (same : t = before ++ c :: after) (r : Text) : endsRaw (c :: (after ++ r)) = false := by
  by_contra ends
  rw [Bool.not_eq_false] at ends
  rcases endsRaw_eq_true_iff.mp ends with ⟨inner, split, _⟩
  have first : c = '<' := (List.cons.inj split).1
  exact free (by simp [same, first])

theorem rawElement_written {tag : Text} (named : IsTagName tag) (raw : isRaw tag)
    (written : WrittenAttributes) {content : Text} (rest : Text)
    (free : ∀ before c after, content = before ++ c :: after →
      endsRaw (c :: (after ++ (writtenEndTag tag ++ rest))) = false) :
    rawElement tag written (content ++ (writtenEndTag tag ++ rest)) =
      (.raw tag written content true, rest) := by
  have stops : ('>' :: rest).head?.all (!isTagChar ·) := rfl
  have ends : endsRaw (writtenEndTag tag ++ rest) := by
    rw [writtenEndTag_append, endsRaw_eq_true_iff]
    exact ⟨_, rfl, by rwa [takeWhile_of_stop named.isTagChar stops]⟩
  have after : afterRawEnd? (writtenEndTag tag ++ rest) = some rest := by
    rw [writtenEndTag_append, afterRawEnd?, dropWhile_of_stop named.isTagChar stops]
    rfl
  rw [rawElement, splitBefore_of_stop free (Or.inr ends)]
  simp only [after]

end LiveTemplate.Markup
