import LiveTemplate.Proofs.Markup.WellFormed

namespace LiveTemplate.Markup

def IsWrittenName (name : Text) : Prop :=
  startsWithLetter name ∧ ∀ c ∈ name, isTagChar c

instance (name : Text) : Decidable (IsWrittenName name) :=
  decidable_of_iff (startsWithLetter name ∧ name.all isTagChar)
    (by simp only [IsWrittenName, List.all_eq_true])

def AreWritten (written : WrittenAttributes) : Prop :=
  ∀ entry ∈ written, entry.1 ≠ [] ∧ ∀ c ∈ entry.1, isNameChar c

def Token.Formed : Token → Prop
  | .text content => content ≠ []
  | .comment content => ¬ "-->".toList <:+: content
  | .doctype => True
  | .startTag name written _ => IsWrittenName name ∧ AreWritten written ∧ ¬ isRaw name
  | .endTag name => IsWrittenName name
  | .raw name written content _ =>
    IsWrittenName name ∧ AreWritten written ∧ isRaw name ∧ HoldsNoRawEnd content

/-- What stands before the first occurrence of a mark does not hold the mark. -/
theorem not_infix_of_cut {mark t before after : Text} (nonempty : mark ≠ [])
    (found : Text.cut mark t = some (before, after)) : ¬ mark <:+: before := by
  induction t generalizing before with
  | nil => simp [Text.cut, nonempty] at found
  | cons c r ih =>
      have whole := Text.eq_of_cut found
      rw [Text.cut] at found
      split at found
      · obtain ⟨rfl, _⟩ := Prod.mk.inj (Option.some.inj found)
        simpa using nonempty
      · rename_i absent
        obtain ⟨⟨b, a⟩, later, same⟩ := Option.map_eq_some_iff.mp found
        obtain ⟨rfl, rfl⟩ := Prod.mk.inj same
        intro inside
        rcases List.infix_cons_iff.mp inside with first | further
        · apply absent
          rw [List.isPrefixOf_iff_prefix, whole, List.append_assoc]
          exact first.trans (List.prefix_append _ _)
        · exact ih later further

theorem splitBefore_goes (stop : Text → Bool) (t : Text) : ∀ before c after,
    (splitBefore stop t).1 = before ++ c :: after →
    stop (c :: (after ++ (splitBefore stop t).2)) = false := by
  induction t with
  | nil => simp [splitBefore]
  | cons x r ih =>
      intro before c after same
      have whole := splitBefore_append stop r
      rw [splitBefore] at same ⊢
      split at same
      · simp at same
      · rename_i goes
        rw [if_neg goes]
        cases before with
        | nil =>
            obtain ⟨rfl, rest⟩ := List.cons.inj same
            rw [← rest]
            simpa [whole] using goes
        | cons first before =>
            obtain ⟨_, rest⟩ := List.cons.inj same
            exact ih before c after rest

theorem splitBefore_stops (stop : Text → Bool) (t : Text) :
    (splitBefore stop t).2 = [] ∨ stop (splitBefore stop t).2 := by
  induction t with
  | nil => exact .inl rfl
  | cons x r ih =>
      rw [splitBefore]
      split
      · rename_i stops
        exact .inr stops
      · exact ih

theorem holdsNoRawEnd_splitBefore (t : Text) : HoldsNoRawEnd (splitBefore endsRaw t).1 := by
  intro before name after same raw
  by_contra stops
  have goes := splitBefore_goes endsRaw t before '<' ('/' :: (name ++ after)) (by simp [same])
  -- what follows the name, in the content or behind it, does not go on with the name
  have head : (after ++ (splitBefore endsRaw t).2).head?.all (!isTagChar ·) := by
    cases after with
    | cons c more => simpa using fun tagChar => stops ⟨c, more, rfl, tagChar⟩
    | nil =>
        rcases splitBefore_stops endsRaw t with nothing | ends
        · simp [nothing]
        · rcases endsRaw_eq_true_iff.mp ends with ⟨r, rest, _⟩
          simp [rest, isTagChar, Char.isAlphanum, Char.isAlpha, Char.isUpper, Char.isLower,
            Char.isDigit]
  have ends : endsRaw ('<' :: '/' :: (name ++ (after ++ (splitBefore endsRaw t).2))) :=
    endsRaw_eq_true_iff.mpr ⟨_, rfl, by rwa [takeWhile_of_stop (isTagChar_of_isRaw raw) head]⟩
  simp [ends] at goes

theorem all_takeWhile {p : Char → Bool} (t : Text) : ∀ c ∈ t.takeWhile p, p c := by
  intro c member
  exact List.all_eq_true.mp List.all_takeWhile c member

theorem isWrittenName_takeWhile {t : Text} (letter : startsWithLetter t) :
    IsWrittenName (t.takeWhile isTagChar) := by
  refine ⟨?_, all_takeWhile t⟩
  cases t with
  | nil => simp [startsWithLetter] at letter
  | cons c r =>
      have alpha : c.isAlpha := by simpa [startsWithLetter] using letter
      have goes : isTagChar c := by simp [isTagChar, Char.isAlphanum, alpha]
      simpa [goes, startsWithLetter] using alpha

theorem attribute?_formed {t rest : Text} {entry : Text × Text}
    (read : attribute? t = some (entry, rest)) :
    entry.1 ≠ [] ∧ ∀ c ∈ entry.1, isNameChar c := by
  have all := all_takeWhile (p := isNameChar) t
  unfold attribute? at read
  split at read
  · simp at read
  · rename_i name nonempty
    split at read
    · obtain ⟨rfl, _⟩ := Prod.mk.inj (Option.some.inj read)
      exact ⟨nonempty, all⟩
    · obtain ⟨rfl, _⟩ := Prod.mk.inj (Option.some.inj read)
      exact ⟨nonempty, all⟩

theorem areWritten_attributes (t : Text) : AreWritten (attributes t).1 := by
  fun_induction attributes t with
  | case1 => simp [AreWritten]
  | case2 c r _ entry rest read more after same ih =>
      rw [same] at ih
      intro other member
      rcases List.mem_cons.mp member with rfl | later
      · exact attribute?_formed read
      · exact ih other later
  | case3 => simp [AreWritten]
  | case4 => simp [AreWritten]

theorem rawElement_formed {name : Text} {written : WrittenAttributes} (named : IsWrittenName name)
    (pairs : AreWritten written) (raw : isRaw name) (t : Text) :
    (rawElement name written t).1.Formed := by
  have free := holdsNoRawEnd_splitBefore t
  unfold rawElement
  simp only
  split
  · exact ⟨named, pairs, raw, free⟩
  · exact ⟨named, pairs, raw, free⟩

theorem startTag?_formed {t rest : Text} {token : Token} (letter : startsWithLetter t)
    (read : startTag? t = some (token, rest)) : token.Formed := by
  have named := isWrittenName_takeWhile letter
  have pairs := areWritten_attributes (t.dropWhile isTagChar)
  obtain ⟨⟨closed, after⟩, _, same⟩ := Option.map_eq_some_iff.mp read
  simp only at same
  split at same
  · rename_i raw
    have formed := rawElement_formed named pairs raw after
    rwa [same] at formed
  · rename_i cooked
    obtain ⟨rfl, _⟩ := Prod.mk.inj same
    exact ⟨named, pairs, cooked⟩

theorem endTag?_formed {t rest : Text} {token : Token} (letter : startsWithLetter t)
    (read : endTag? t = some (token, rest)) : token.Formed := by
  unfold endTag? at read
  split at read
  · obtain ⟨rfl, _⟩ := Prod.mk.inj (Option.some.inj read)
    exact isWrittenName_takeWhile letter
  · simp at read

theorem declaration?_formed {t rest : Text} {token : Token}
    (read : declaration? t = some (token, rest)) : token.Formed := by
  unfold declaration? at read
  split at read
  · rename_i content after found
    obtain ⟨rfl, _⟩ := Prod.mk.inj (Option.some.inj read)
    unfold comment? at found
    split at found
    · exact not_infix_of_cut (by simp) found
    · simp at found
  · obtain ⟨_, _, same⟩ := Option.map_eq_some_iff.mp read
    obtain ⟨rfl, _⟩ := Prod.mk.inj same
    trivial

theorem token?_formed {t rest : Text} {token : Token} (nonempty : t ≠ [])
    (read : token? t = some (token, rest)) : token.Formed := by
  unfold token? at read
  split at read
  · rename_i opens
    unfold tag? at read
    split at read
    · exact declaration?_formed read
    · exact endTag?_formed opens read
    · rename_i r notDeclaration notEnd
      refine startTag?_formed ?_ read
      rwa [opensTag] at opens
      · exact notDeclaration
      · exact notEnd
    · simp at read
  · rename_i goes
    obtain ⟨rfl, _⟩ := Prod.mk.inj (Option.some.inj read)
    cases t with
    | nil => exact absurd rfl nonempty
    | cons c r => simp [Token.Formed, splitBefore, goes]

theorem tokens?_formed {t : Text} {tokens : List Token} (read : tokens? t = some tokens) :
    ∀ token ∈ tokens, token.Formed := by
  induction t using tokens?.induct generalizing tokens with
  | case1 =>
      rw [tokens?_nil] at read
      obtain rfl := Option.some.inj read
      simp
  | case2 c r token rest found ih =>
      rw [tokens?_of_token? (by simp) found] at read
      obtain ⟨others, later, rfl⟩ := Option.map_eq_some_iff.mp read
      intro other member
      rcases List.mem_cons.mp member with rfl | further
      · exact token?_formed (by simp) found
      · exact ih later other further
  | case3 c r failed =>
      simp [tokens?_eq_none (List.cons_ne_nil c r) failed] at read

theorem toLower_of_not_isAlpha {c : Char} (other : ¬ c.isAlpha) : c.toLower = c := by
  apply Char.toLower_eq_of_not_isUpper
  intro upper
  simp [Char.isAlpha, upper] at other

theorem toLower_of_isTagChar {c : Char} (goes : isTagChar c) :
    c.toLower.isLower ∨ c.toLower.isDigit ∨ c.toLower ∈ ['-', '_', ':', '.'] := by
  by_cases letter : c.isAlpha
  · left
    rwa [Char.isLower_toLower_eq_isAlpha]
  · right
    rw [toLower_of_not_isAlpha letter]
    simpa [isTagChar, Char.isAlphanum, letter, or_assoc] using goes

theorem IsWrittenName.isTagName {name : Text} (written : IsWrittenName name) :
    IsTagName name.lowerAscii := by
  rcases written with ⟨letter, goes⟩
  cases name with
  | nil => simp [startsWithLetter] at letter
  | cons c r =>
      refine ⟨?_, ?_⟩
      · simpa [startsWithLetter, Char.isLower_toLower_eq_isAlpha] using letter
      · intro x member
        obtain ⟨y, later, rfl⟩ := List.mem_map.mp member
        exact toLower_of_isTagChar (goes y (List.mem_cons_of_mem c later))

theorem isAttributeName_lowerAscii {name : Text} (nonempty : name ≠ [])
    (goes : ∀ c ∈ name, isNameChar c) : IsAttributeName name.lowerAscii where
  nonempty := by simpa [Text.lowerAscii] using nonempty
  small := by
    intro c member
    obtain ⟨x, _, rfl⟩ := List.mem_map.mp member
    simp [Char.isUpper_toLower_eq_false]
  plain := by
    intro c member mark
    obtain ⟨x, inside, rfl⟩ := List.mem_map.mp member
    have unlettered : ∀ c ∈ [' ', '\t', '\r', '\n', '/', '>', '=', '"', '\'', '<'],
        c.isLower = false := by
      simp [Char.isLower]
    have kept : x.toLower = x := by
      apply toLower_of_not_isAlpha
      rw [← Char.isLower_toLower_eq_isAlpha, unlettered _ mark]
      simp
    exact isNameChar_iff.mp (goes x inside) (kept ▸ mark)

theorem get?_ofWritten (written : WrittenAttributes) (name : Text) :
    (Attributes.ofWritten written).get? name =
      (written.find? (·.1.lowerAscii = name)).map fun entry => decode entry.2 := by
  have found := Table.get?_foldl_insertNew
    (written.map fun entry => (entry.1.lowerAscii, decode entry.2)) {} name
  rw [List.foldl_map, List.find?_map, Option.map_map] at found
  exact found

theorem names_ofWritten {written : WrittenAttributes} (pairs : AreWritten written) :
    (∀ name ∈ (Attributes.ofWritten written).keys, IsAttributeName name) ∧
      (Attributes.ofWritten written).keys.Nodup := by
  have distinct : (Attributes.ofWritten written).keys.Nodup := by
    have kept := Table.nodup_keys_foldl_insertNew
      (written.map fun entry => (entry.1.lowerAscii, decode entry.2)) (t := {}) .nil
    rw [List.foldl_map] at kept
    exact kept
  refine ⟨fun name member => ?_, distinct⟩
  rw [Table.mem_keys_iff, get?_ofWritten] at member
  rcases Option.isSome_iff_exists.mp member with ⟨value, found⟩
  obtain ⟨⟨known, _⟩, first, rfl⟩ := Option.map_eq_some_iff.mp found
  obtain rfl : known.lowerAscii = name := by simpa using List.find?_some first
  rcases pairs _ (List.mem_of_find?_eq_some first) with ⟨nonempty, goes⟩
  exact isAttributeName_lowerAscii nonempty goes

end LiveTemplate.Markup
