import LiveTemplate.Proofs.Markup.WellFormed

namespace LiveTemplate.Markup

mutual

def Node.tokens : Node → List Token
  | .text content => [.text (escapedText content)]
  | .comment content => [.comment content]
  | .element tag attributes children =>
    if isRaw tag then
      [.raw tag (writtenPairs attributes) (writtenAll (isVerbatim tag) children) true]
    else if isVoid tag then [.startTag tag (writtenPairs attributes) false]
    else .startTag tag (writtenPairs attributes) false :: tokensAll children ++ [.endTag tag]

def tokensAll : List Node → List Token
  | [] => []
  | node :: more => node.tokens ++ tokensAll more

end

theorem ne_cons_of_startsWithLetter {t : Text} {c : Char} (letter : startsWithLetter t)
    (mark : c.isAlpha = false) (r : Text) : t ≠ c :: r := by
  rintro rfl
  simp [startsWithLetter, mark] at letter

theorem opensTag_of_letter {t : Text} (letter : startsWithLetter t) : opensTag ('<' :: t) := by
  rw [opensTag]
  · exact letter
  · exact ne_cons_of_startsWithLetter letter rfl
  · exact ne_cons_of_startsWithLetter letter rfl

theorem tag?_of_letter {t : Text} (letter : startsWithLetter t) : tag? ('<' :: t) = startTag? t := by
  rw [tag?]
  · exact ne_cons_of_startsWithLetter letter rfl
  · exact ne_cons_of_startsWithLetter letter rfl

theorem opensTag_of_ne {c : Char} (other : c ≠ '<') (r : Text) : opensTag (c :: r) = false := by
  unfold opensTag
  split <;> simp_all

theorem token?_of_opensTag {t : Text} (opens : opensTag t) : token? t = tag? t := by
  rw [token?, if_pos opens]

theorem writtenStartTag_append (tag : Text) (attributes : Attributes) (rest : Text) :
    writtenStartTag tag attributes ++ rest = '<' :: (tag ++ (attributes.entries.flatMap
      (fun (name, value) => writtenAttribute name value) ++ '>' :: rest)) := by
  simp [writtenStartTag]

theorem token?_writtenStartTag {tag : Text} {attributes : Attributes} (named : IsTagName tag)
    (names : ∀ name ∈ attributes.keys, IsAttributeName name) (rest : Text) :
    token? (writtenStartTag tag attributes ++ rest) =
      some (if isRaw tag then rawElement tag (writtenPairs attributes) rest
        else (.startTag tag (writtenPairs attributes) false, rest)) := by
  have letter := named.startsWithLetter (attributes.entries.flatMap
    (fun (name, value) => writtenAttribute name value) ++ '>' :: rest)
  rw [writtenStartTag_append, token?_of_opensTag (opensTag_of_letter letter), tag?_of_letter letter]
  exact startTag?_written named names rest

theorem opensTag_writtenEndTag {tag : Text} (named : IsTagName tag) (rest : Text) :
    opensTag (writtenEndTag tag ++ rest) := by
  rw [writtenEndTag_append]
  exact named.startsWithLetter _

theorem token?_writtenEndTag {tag : Text} (named : IsTagName tag) (rest : Text) :
    token? (writtenEndTag tag ++ rest) = some (.endTag tag, rest) := by
  rw [token?_of_opensTag (opensTag_writtenEndTag named rest), writtenEndTag_append]
  exact endTag?_written named rest

theorem token?_writtenComment {content : Text} (closed : ¬ "-->".toList <:+: content)
    (rest : Text) : token? (writtenComment content ++ rest) = some (.comment content, rest) := by
  have shape : writtenComment content ++ rest =
      '<' :: '!' :: '-' :: '-' :: (content ++ "-->".toList ++ rest) := by
    simp [writtenComment]
  rw [token?, shape]
  have read : declaration? ('-' :: '-' :: (content ++ "-->".toList ++ rest)) =
      some (.comment content, rest) := by
    rw [declaration?, comment?_written closed rest]
  exact read

theorem token?_text {t rest : Text} (nonempty : t ≠ []) (free : '<' ∉ t)
    (stops : rest = [] ∨ opensTag rest) : token? (t ++ rest) = some (.text t, rest) := by
  have goes : ∀ before c after, t = before ++ c :: after →
      opensTag (c :: (after ++ rest)) = false := by
    intro before c after same
    apply opensTag_of_ne
    rintro rfl
    exact free (by simp [same])
  have start : opensTag (t ++ rest) = false := by
    rcases List.exists_cons_of_ne_nil nonempty with ⟨c, r, same⟩
    rw [same]
    exact goes [] c r same
  rw [token?, start, splitBefore_of_stop goes stops]
  rfl

theorem token?_escapedText {content : Text} (nonempty : content ≠ []) {rest : Text}
    (stops : rest = [] ∨ opensTag rest) :
    token? (escapedText content ++ rest) = some (.text (escapedText content), rest) :=
  token?_text (escapedText_ne_nil nonempty) (not_mem_escapedText (.inl rfl) content) stops

theorem startsWithLetter_of_isRaw {t : Text} (raw : isRaw (t.takeWhile isTagChar)) :
    startsWithLetter t := by
  have letters : rawTags.all startsWithLetter := by decide
  rw [isRaw, List.contains_iff_mem] at raw
  have first := List.all_eq_true.mp letters _ raw
  cases t with
  | nil => simp [Text.lowerAscii, startsWithLetter] at first
  | cons c r =>
      by_cases goes : isTagChar c
      · simpa [goes, Text.lowerAscii, startsWithLetter] using first
      · simp [goes, Text.lowerAscii, startsWithLetter] at first

theorem opensTag_of_endsRaw {t : Text} (ends : endsRaw t) : opensTag t := by
  rcases endsRaw_eq_true_iff.mp ends with ⟨r, rfl, raw⟩
  exact startsWithLetter_of_isRaw raw

/-- Where raw text ends, an end tag is read if it is finished, and nothing if it is not. -/
theorem token?_of_endsRaw {t : Text} (ends : endsRaw t) :
    ∃ other, token? t = (afterRawEnd? t).map fun after => (.endTag other, after) := by
  rw [token?_of_opensTag (opensTag_of_endsRaw ends)]
  rcases endsRaw_eq_true_iff.mp ends with ⟨r, rfl, raw⟩
  refine ⟨r.takeWhile isTagChar, ?_⟩
  rw [tag?, endTag?, afterRawEnd?]
  split
  · rfl
  · rfl

end LiveTemplate.Markup
