import LiveTemplate.Proofs.Markup.Continuing
import LiveTemplate.Proofs.Markup.Spelling
import LiveTemplate.Proofs.Text.Cutting

/-! Sources that cannot be read: a tag or a doctype without its end, and an attribute value without
its second quote, leave nothing of a source to read. A comment without its end is read as a doctype
and so needs only a `>`. -/

namespace LiveTemplate.Markup

theorem cut_char_eq_none {mark : Char} {t : Text} (absent : mark ∉ t) :
    Text.cut [mark] t = none := by
  rw [Text.cut_eq_none_iff]
  rintro ⟨before, after, rfl⟩
  simp at absent

theorem ne_nil_of_opensTag {t : Text} (opens : opensTag t) : t ≠ [] := by
  rintro rfl
  simp [opensTag] at opens

/-- A tag that cannot be read makes the whole source unreadable, whatever text is in front of it. -/
theorem parse?_append_eq_none {a t : Text} (free : '<' ∉ a) (opens : opensTag t)
    (failed : tag? t = none) : parse? (a ++ t) = none := by
  have unread : tokens? t = none :=
    tokens?_eq_none (ne_nil_of_opensTag opens) ((token?_of_opensTag opens).trans failed)
  rw [parse?_text_append free opens, parse?, unread]
  rfl

theorem tag?_eq_none_of_not_mem {t : Text} (opens : opensTag t) (endless : '>' ∉ t) :
    tag? t = none := by
  by_contra found
  obtain ⟨⟨token, rest⟩, found⟩ := Option.ne_none_iff_exists'.mp found
  have read : token? t = some (token, rest) := (token?_of_opensTag opens).trans found
  exact endless ((spells_of_token? (ne_nil_of_opensTag opens) read).end_mem opens)

theorem comment?_eq_none {b : Text} (unterminated : ¬ "-->".toList <:+: b) :
    comment? ('-' :: '-' :: b) = none :=
  Text.cut_eq_none_iff.mpr unterminated

theorem token?_unterminated_comment {skipped rest : Text}
    (unterminated : ¬ "-->".toList <:+: skipped ++ '>' :: rest) (first : '>' ∉ skipped) :
    token? ("<!--".toList ++ (skipped ++ '>' :: rest)) = some (.doctype, rest) := by
  have dashed : '>' ∉ '-' :: '-' :: skipped := by simpa using first
  have found : Text.cut ['>'] ('-' :: '-' :: (skipped ++ '>' :: rest)) =
      some ('-' :: '-' :: skipped, rest) := cut_char dashed rest
  have read : declaration? ('-' :: '-' :: (skipped ++ '>' :: rest)) = some (.doctype, rest) := by
    rw [declaration?, comment?_eq_none unterminated, found]
    rfl
  exact read

/-- A comment without its end makes a source unreadable only if there is no `>` behind it. Otherwise
all up to that `>` is dropped, and what follows it is read. -/
theorem parse?_unterminated_comment {a b : Text} (free : '<' ∉ a)
    (unterminated : ¬ "-->".toList <:+: b) :
    ('>' ∉ b → parse? (a ++ ("<!--".toList ++ b)) = none) ∧
      ∀ skipped rest, b = skipped ++ '>' :: rest → '>' ∉ skipped →
        parse? (a ++ ("<!--".toList ++ b)) = (parse? rest).map (textNodes a ++ ·) := by
  have opens : opensTag ("<!--".toList ++ b) := rfl
  refine ⟨fun endless => ?_, fun skipped rest same first => ?_⟩
  · refine parse?_append_eq_none free opens (tag?_eq_none_of_not_mem opens ?_)
    simpa using endless
  · subst same
    rw [parse?_text_append free opens,
      parse?_of_doctype (ne_nil_of_opensTag opens) (token?_unterminated_comment unterminated first)]

theorem parse?_unterminated_comment_behind_text :
    ('<' ∉ "x".toList ∧ ¬ "-->".toList <:+: " a > b".toList ∧ ¬ "-->".toList <:+: " a".toList) ∧
    parse? ("x".toList ++ ("<!--".toList ++ " a".toList)) = none ∧
    parse? ("x".toList ++ ("<!--".toList ++ " a > b".toList)) =
      (parse? " b".toList).map (textNodes "x".toList ++ ·) := by
  refine ⟨by decide, ?_, ?_⟩
  · exact (parse?_unterminated_comment (by decide) (by decide)).1 (by decide)
  · exact (parse?_unterminated_comment (by decide) (by decide)).2 " a ".toList " b".toList rfl
      (by decide)

/-- The end of the comment is missing, and the first `>` is one that stands in it. -/
theorem parse?_comparison : ¬ "-->".toList <:+: " a > b".toList ∧
    (parse? "<!-- a > b".toList).map (outlineAll 0) = some [⟨0, .text " b".toList⟩] := by
  decide +kernel

theorem value?_eq_none {q : Char} (quote : q ∈ ['"', '\'']) {b : Text} (endless : q ∉ b) :
    value? (q :: b) = none := by
  have missing := cut_char_eq_none endless
  simp only [List.mem_cons, List.not_mem_nil, or_false] at quote
  rcases quote with rfl | rfl
  · exact missing
  · exact missing

theorem attribute?_unterminated {q : Char} (quote : q ∈ ['"', '\'']) {key b : Text}
    (nonempty : key ≠ []) (plain : ∀ c ∈ key, isNameChar c) (endless : q ∉ b) :
    attribute? (key ++ '=' :: q :: b) = some ((key, []), '=' :: q :: b) := by
  have stops : ('=' :: q :: b).head?.all (!isNameChar ·) := rfl
  have solid : isSpace q = false := by
    simp only [List.mem_cons, List.not_mem_nil, or_false] at quote
    rcases quote with rfl | rfl
    · rfl
    · rfl
  have unassigned : assigned? ('=' :: q :: b) = none := by
    have missing := value?_eq_none quote endless
    rw [← skipSpaces_of_head b solid] at missing
    rw [assigned?, skipSpaces_of_head _ rfl]
    exact missing
  rw [attribute?, takeWhile_of_stop plain stops, dropWhile_of_stop plain stops, unassigned]
  split
  · contradiction
  · rfl

theorem startTag?_unterminated {name : Text} (named : ∀ c ∈ name, isTagChar c) {q : Char}
    (quote : q ∈ ['"', '\'']) {key b : Text} (nonempty : key ≠ [])
    (plain : ∀ c ∈ key, isNameChar c) (endless : q ∉ b) :
    startTag? (name ++ ' ' :: (key ++ '=' :: q :: b)) = none := by
  have stops : (' ' :: (key ++ '=' :: q :: b)).head?.all (!isTagChar ·) := rfl
  have solid : skipSpaces (key ++ '=' :: q :: b) = key ++ '=' :: q :: b := by
    rcases List.exists_cons_of_ne_nil nonempty with ⟨c, r, rfl⟩
    have first := isNameChar_iff.mp (plain c List.mem_cons_self)
    exact skipSpaces_of_head _ (by simp_all [isSpace])
  have read := attribute?_unterminated quote nonempty plain endless
  rw [← solid] at read
  -- the attributes end in front of the equals sign, which no tag can end with
  have attributes : (attributes (' ' :: (key ++ '=' :: q :: b))).2 = '=' :: q :: b := by
    rw [attributes_of_attribute? rfl read, attributes_of_head rfl]
  have ended : tagEnd? ('=' :: q :: b) = none := by
    rw [tagEnd?, skipSpaces_of_head _ rfl]
    rfl
  simp only [startTag?, dropWhile_of_stop named stops, attributes, ended, Option.map_none]

theorem IsWrittenName.startsWithLetter {name : Text} (named : IsWrittenName name) (rest : Text) :
    startsWithLetter (name ++ rest) := by
  rcases named with ⟨letter, _⟩
  cases name with
  | nil => simp [Markup.startsWithLetter] at letter
  | cons c r => exact letter

theorem IsWrittenName.not_mem_end {name : Text} (named : IsWrittenName name) : '>' ∉ name := by
  intro member
  have goes := named.2 '>' member
  contradiction

/-- A tag or a doctype without its `>`, and an attribute value without its second quote, make a
source unreadable, whatever follows. -/
theorem parse?_broken_tag {a name : Text} (b : Text) (free : '<' ∉ a) (named : IsWrittenName name) :
    ('>' ∉ b → parse? (a ++ '<' :: (name ++ b)) = none ∧
      parse? (a ++ '<' :: '/' :: (name ++ b)) = none ∧ parse? (a ++ '<' :: '!' :: b) = none) ∧
    ∀ q ∈ ['"', '\''], ∀ key, key ≠ [] →
      (∀ c ∈ key, c ∉ [' ', '\t', '\r', '\n', '/', '>', '=', '"', '\'', '<']) → q ∉ b →
      parse? (a ++ '<' :: (name ++ ' ' :: (key ++ '=' :: q :: b))) = none := by
  refine ⟨fun endless => ⟨?_, ?_, ?_⟩, fun q quote key nonempty plain unquoted => ?_⟩
  · have opens := opensTag_of_letter (named.startsWithLetter b)
    refine parse?_append_eq_none free opens (tag?_eq_none_of_not_mem opens ?_)
    simp [named.not_mem_end, endless]
  · have opens : opensTag ('<' :: '/' :: (name ++ b)) := named.startsWithLetter b
    refine parse?_append_eq_none free opens (tag?_eq_none_of_not_mem opens ?_)
    simp [named.not_mem_end, endless]
  · have opens : opensTag ('<' :: '!' :: b) := rfl
    refine parse?_append_eq_none free opens (tag?_eq_none_of_not_mem opens ?_)
    simpa using endless
  · have letter := named.startsWithLetter (' ' :: (key ++ '=' :: q :: b))
    refine parse?_append_eq_none free (opensTag_of_letter letter) ?_
    rw [tag?_of_letter letter]
    exact startTag?_unterminated named.2 quote nonempty
      (fun c member => isNameChar_iff.mpr (plain c member)) unquoted

theorem parse?_broken_tag_link :
    ('<' ∉ "t".toList ∧ IsWrittenName "a".toList ∧ '>' ∉ " x=1 <b".toList ∧
      '"' ∉ "x>y</a>'".toList) ∧
    parse? ("t".toList ++ '<' :: ("a".toList ++ " x=1 <b".toList)) = none ∧
    parse? ("t".toList ++ '<' :: '/' :: ("a".toList ++ " x=1 <b".toList)) = none ∧
    parse? ("t".toList ++ '<' :: '!' :: " x=1 <b".toList) = none ∧
    parse? ("t".toList ++ '<' ::
      ("a".toList ++ ' ' :: ("href".toList ++ '=' :: '"' :: "x>y</a>'".toList))) = none := by
  have free : '<' ∉ "t".toList := by decide
  have named : IsWrittenName "a".toList := ⟨rfl, List.all_eq_true.mp (by decide)⟩
  obtain ⟨first, second, third⟩ := (parse?_broken_tag " x=1 <b".toList free named).1 (by decide)
  refine ⟨⟨free, named, by decide, by decide⟩, first, second, third, ?_⟩
  refine (parse?_broken_tag "x>y</a>'".toList free named).2 '"' (by simp) "href".toList (by decide)
    ?_ (by decide)
  simp

end LiveTemplate.Markup
