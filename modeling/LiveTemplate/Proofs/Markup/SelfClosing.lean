import LiveTemplate.Proofs.Markup.Refusals

/-! A tag that closes itself at the head of a source gives an element without children in front of
the nodes of the rest. The slash counts for nothing in the tag of an element of raw text: its content
runs on to where raw text ends, and only what follows is read for itself. -/

namespace LiveTemplate.Markup

variable {name : Text}

theorem nodesOfTokens_closed (name : Text) (more : List Token) :
    nodesOfTokens (.startTag name [] true :: more) =
      .element name.lowerAscii {} [] :: nodesOfTokens more := by
  have shielded : ∀ rule ∈ impliedEnds name.lowerAscii, Shielded rule (Nesting.tags {}) := by
    intro rule _ inner target outer above
    simp [Nesting.tags] at above
  have read : Nesting.read {} (.startTag name [] true) =
      ⟨[.element name.lowerAscii {} []], []⟩ :=
    Nesting.startTag_of_shielded shielded _ true
  have closed : ([Token.startTag name [] true].foldl Nesting.read {}).opened = [] := by
    rw [List.foldl_cons, read]
    rfl
  have alone : nodesOfTokens [.startTag name [] true] = [.element name.lowerAscii {} []] := by
    rw [nodesOfTokens, List.foldl_cons, read]
    rfl
  rw [← List.singleton_append, nodesOfTokens_append closed, alone]
  rfl

theorem nodesOfTokens_raw (name content : Text) (ended : Bool) (more : List Token) :
    nodesOfTokens (.raw name [] content ended :: more) =
      .element name.lowerAscii {} (rawChildren name content) :: nodesOfTokens more := by
  have closed : ([Token.raw name [] content ended].foldl Nesting.read {}).opened = [] := rfl
  rw [← List.singleton_append, nodesOfTokens_append closed]
  rfl

theorem nodesOfTokens_endTag (name : Text) (more : List Token) :
    nodesOfTokens (.endTag name :: more) = nodesOfTokens more := rfl

theorem token?_selfClosed (named : IsWrittenName name) (rest : Text) :
    token? ('<' :: (name ++ '/' :: '>' :: rest)) =
      some (if isRaw name then rawElement name [] rest else (.startTag name [] true, rest)) := by
  have letter := named.startsWithLetter ('/' :: '>' :: rest)
  have stops : ('/' :: '>' :: rest).head?.all (!isTagChar ·) := rfl
  rw [token?_of_opensTag (opensTag_of_letter letter), tag?_of_letter letter, startTag?,
    takeWhile_of_stop named.2 stops, dropWhile_of_stop named.2 stops, attributes_of_head rfl]
  rfl

theorem parse?_selfClosed_of_not_raw (named : IsWrittenName name) (cooked : ¬ isRaw name)
    (rest : Text) : parse? ('<' :: (name ++ '/' :: '>' :: rest)) =
      (parse? rest).map (.element name.lowerAscii {} [] :: ·) := by
  have read := token?_selfClosed named rest
  rw [if_neg cooked] at read
  rw [parse?, tokens?_of_token? (List.cons_ne_nil _ _) read, Option.map_map, parse?, Option.map_map]
  exact Option.map_congr fun tokens _ => nodesOfTokens_closed name tokens

theorem parse?_of_afterRawEnd? {t after : Text} (stops : t = [] ∨ endsRaw t)
    (finished : afterRawEnd? t = some after) : parse? t = parse? after := by
  rcases stops with rfl | ends
  · simp [afterRawEnd?] at finished
  · rcases token?_of_endsRaw ends with ⟨other, read⟩
    rw [finished, Option.map_some] at read
    rw [parse?, tokens?_of_token? (ne_nil_of_opensTag (opensTag_of_endsRaw ends)) read,
      Option.map_map, parse?]
    exact Option.map_congr fun tokens _ => nodesOfTokens_endTag other tokens

/-- The content goes on to where raw text ends, and the rest is read as if it stood alone. -/
theorem parse?_selfClosed_of_raw (named : IsWrittenName name) (raw : isRaw name) (rest : Text) :
    parse? ('<' :: (name ++ '/' :: '>' :: rest)) =
      (parse? (splitBefore endsRaw rest).2).map
        (.element name.lowerAscii {} (rawChildren name (splitBefore endsRaw rest).1) :: ·) := by
  have stops := splitBefore_stops endsRaw rest
  have read := token?_selfClosed named rest
  rw [if_pos raw, rawElement] at read
  cases finished : afterRawEnd? (splitBefore endsRaw rest).2 with
  | some after =>
      simp only [finished] at read
      rw [parse?_of_afterRawEnd? stops finished, parse?,
        tokens?_of_token? (List.cons_ne_nil _ _) read, Option.map_map, parse?, Option.map_map]
      exact Option.map_congr fun tokens _ => nodesOfTokens_raw name _ true tokens
  | none =>
      simp only [finished] at read
      rw [parse?, tokens?_of_token? (List.cons_ne_nil _ _) read, Option.map_map, parse?,
        Option.map_map]
      exact Option.map_congr fun tokens _ => nodesOfTokens_raw name _ false tokens

/-- A tag that closes itself, read in front of any source. Its element has no children and the
source is read as it is alone, but for raw text: if the element is one of raw text, all of the
source up to where raw text ends is its content. -/
theorem parse?_selfClosed (named : IsWrittenName name) (rest : Text) :
    ((isRaw name → rest = [] ∨ endsRaw rest) →
      parse? ('<' :: (name ++ '/' :: '>' :: rest)) =
        (parse? rest).map (.element name.lowerAscii {} [] :: ·)) ∧
    (isRaw name → ∃ content later, rest = content ++ later ∧ HoldsNoRawEnd content ∧
      (later = [] ∨ endsRaw later) ∧
      parse? ('<' :: (name ++ '/' :: '>' :: rest)) =
        (parse? later).map (.element name.lowerAscii {} (rawChildren name content) :: ·)) := by
  refine ⟨fun ends => ?_, fun raw => ?_⟩
  · by_cases raw : isRaw name
    · have nothing : splitBefore endsRaw rest = ([], rest) :=
        splitBefore_of_stop (t := []) (by simp) (ends raw)
      rw [parse?_selfClosed_of_raw named raw, nothing]
      rfl
    · exact parse?_selfClosed_of_not_raw named raw rest
  · exact ⟨(splitBefore endsRaw rest).1, (splitBefore endsRaw rest).2,
      (splitBefore_append endsRaw rest).symm, holdsNoRawEnd_splitBefore rest,
      splitBefore_stops endsRaw rest, parse?_selfClosed_of_raw named raw rest⟩

theorem parse?_selfClosed_icon :
    (IsWrittenName "My-Icon".toList ∧ ¬ isRaw "My-Icon".toList ∧ IsWrittenName "Title".toList ∧
      isRaw "Title".toList) ∧
    parse? ('<' :: ("My-Icon".toList ++ '/' :: '>' :: "a<b>".toList)) =
      (parse? "a<b>".toList).map (.element "my-icon".toList {} [] :: ·) ∧
    ∃ content later, "<i></style >b".toList = content ++ later ∧ HoldsNoRawEnd content ∧
      (later = [] ∨ endsRaw later) ∧
      parse? ('<' :: ("Title".toList ++ '/' :: '>' :: "<i></style >b".toList)) =
        (parse? later).map
          (.element "title".toList {} (rawChildren "Title".toList content) :: ·) := by
  have icon : IsWrittenName "My-Icon".toList := by decide
  have title : IsWrittenName "Title".toList := by decide
  have cooked : ¬ isRaw "My-Icon".toList := by decide
  have raw : isRaw "Title".toList := by decide
  have smallIcon : Text.lowerAscii "My-Icon".toList = "my-icon".toList := by decide
  have smallTitle : Text.lowerAscii "Title".toList = "title".toList := by decide
  rw [← smallIcon, ← smallTitle]
  exact ⟨⟨icon, cooked, title, raw⟩, (parse?_selfClosed icon _).1 fun raw => absurd raw cooked,
    (parse?_selfClosed title _).2 raw⟩

/-- The tag of a script does not close itself: the paragraph behind it becomes its text. -/
theorem parse?_selfClosed_script : IsWrittenName "script".toList ∧
    (parse? "<p>a</p>".toList).map (outlineAll 0) =
      some [⟨0, .element "p".toList {}⟩, ⟨1, .text "a".toList⟩] ∧
    (parse? ('<' :: ("script".toList ++ '/' :: '>' :: "<p>a</p>".toList))).map (outlineAll 0) =
      some [⟨0, .element "script".toList {}⟩, ⟨1, .text "<p>a</p>".toList⟩] := by
  refine ⟨by decide, ?_, ?_⟩
  · decide +kernel
  · decide +kernel

end LiveTemplate.Markup
