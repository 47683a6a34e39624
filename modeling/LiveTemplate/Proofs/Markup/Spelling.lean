import LiveTemplate.Proofs.Markup.ReadTokens

namespace LiveTemplate.Markup

def IsBlank (spaces : Text) : Prop :=
  ∀ c ∈ spaces, isSpace c

instance (spaces : Text) : Decidable (IsBlank spaces) :=
  decidable_of_iff (spaces.all isSpace) (by simp only [IsBlank, List.all_eq_true])

/-- `SpellsValue t value rest`: the text `t` begins with a value, between two quotes of one kind or
as a run of bare characters that goes as far as it can, and goes on with `rest`. -/
inductive SpellsValue : Text → Text → Text → Prop
  | quoted {q : Char} {value rest : Text} (quote : q ∈ ['"', '\'']) (free : q ∉ value) :
    SpellsValue (q :: (value ++ q :: rest)) value rest
  | bare {value rest : Text} (nonempty : value ≠ []) (goes : ∀ c ∈ value, isBareChar c)
    (stops : rest.head?.all (!isBareChar ·)) : SpellsValue (value ++ rest) value rest

inductive SpellsAttribute : Text → Text × Text → Text → Prop
  | alone {name rest : Text} (nonempty : name ≠ []) (goes : ∀ c ∈ name, isNameChar c)
    (stops : rest.head?.all (!isNameChar ·)) : SpellsAttribute (name ++ rest) (name, []) rest
  | valued {name before after t value rest : Text} (nonempty : name ≠ [])
    (goes : ∀ c ∈ name, isNameChar c) (left : IsBlank before) (right : IsBlank after)
    (spelled : SpellsValue t value rest) :
    SpellsAttribute (name ++ (before ++ '=' :: (after ++ t))) (name, value) rest

inductive SpellsAttributes : Text → WrittenAttributes → Text → Prop
  | done (t : Text) : SpellsAttributes t [] t
  | next {spaces t middle rest : Text} {entry : Text × Text} {more : WrittenAttributes}
    (apart : spaces ≠ []) (blank : IsBlank spaces) (first : SpellsAttribute t entry middle)
    (others : SpellsAttributes middle more rest) :
    SpellsAttributes (spaces ++ t) (entry :: more) rest

/-- `Spells t token rest`: the text `t` begins with the token and goes on with `rest`. -/
inductive Spells : Text → Token → Text → Prop
  | text {content rest : Text} (nonempty : content ≠ [])
    (goes : ∀ before c after, content = before ++ c :: after →
      opensTag (c :: (after ++ rest)) = false)
    (stops : rest = [] ∨ opensTag rest) : Spells (content ++ rest) (.text content) rest
  | comment {content rest : Text} (free : ¬ "-->".toList <:+: content) :
    Spells ("<!--".toList ++ content ++ "-->".toList ++ rest) (.comment content) rest
  | doctype {content rest : Text} (free : '>' ∉ content) :
    Spells ("<!".toList ++ content ++ '>' :: rest) .doctype rest
  | startTag {name t spaces slash rest : Text} {written : WrittenAttributes} (closed : Bool)
    (named : IsWrittenName name) (cooked : ¬ isRaw name) (blank : IsBlank spaces)
    (pairs : SpellsAttributes t written (spaces ++ slash ++ '>' :: rest))
    (slashed : slash = if closed then ['/'] else []) :
    Spells ('<' :: (name ++ t)) (.startTag name written closed) rest
  | endTag {name spaces rest : Text} (named : IsWrittenName name) (blank : IsBlank spaces) :
    Spells ("</".toList ++ name ++ spaces ++ '>' :: rest) (.endTag name) rest
  | raw {name t spaces slash content after rest : Text} {written : WrittenAttributes} {ended : Bool}
    (named : IsWrittenName name) (raw : isRaw name) (blank : IsBlank spaces)
    (pairs : SpellsAttributes t written (spaces ++ slash ++ '>' :: (content ++ after)))
    (slashed : slash = [] ∨ slash = ['/']) (free : HoldsNoRawEnd content)
    (stops : after = [] ∨ endsRaw after)
    (finished : if ended then ∃ other spaces, isRaw other ∧ IsBlank spaces ∧
      after = "</".toList ++ other ++ spaces ++ '>' :: rest else rest = after) :
    Spells ('<' :: (name ++ t)) (.raw name written content ended) rest

inductive SpellsAll : Text → List Token → Prop
  | nil : SpellsAll [] []
  | cons {t rest : Text} {token : Token} {more : List Token} (first : Spells t token rest)
    (others : SpellsAll rest more) : SpellsAll t (token :: more)

theorem isBlank_takeWhile (t : Text) : IsBlank (t.takeWhile isSpace) :=
  all_takeWhile t

theorem head_dropWhile (p : Char → Bool) (t : Text) : (t.dropWhile p).head?.all (!p ·) := by
  have first := List.head?_dropWhile_not p t
  cases found : (t.dropWhile p).head? with
  | none => rfl
  | some c => simpa [found] using first

theorem takeWhile_skipSpaces (t : Text) : t.takeWhile isSpace ++ skipSpaces t = t :=
  List.takeWhile_append_dropWhile

theorem not_mem_of_cut {mark : Char} {t before after : Text}
    (found : Text.cut [mark] t = some (before, after)) : mark ∉ before := by
  intro member
  rcases List.append_of_mem member with ⟨earlier, later, same⟩
  exact not_infix_of_cut (by simp) found ⟨earlier, later, by simp [same]⟩

theorem spellsValue_of_value? {t value rest : Text} (read : value? t = some (value, rest)) :
    SpellsValue t value rest := by
  unfold value? at read
  split at read
  · rw [Text.eq_of_cut read]
    simpa using SpellsValue.quoted (q := '"') (by simp) (not_mem_of_cut read)
  · rw [Text.eq_of_cut read]
    simpa using SpellsValue.quoted (q := '\'') (by simp) (not_mem_of_cut read)
  · split at read
    · simp at read
    · rename_i nonempty
      obtain ⟨rfl, rfl⟩ := Prod.mk.inj (Option.some.inj read)
      have spelled := SpellsValue.bare nonempty (all_takeWhile t) (head_dropWhile isBareChar t)
      rwa [List.takeWhile_append_dropWhile] at spelled

theorem exists_of_assigned? {t value rest : Text} (read : assigned? t = some (value, rest)) :
    ∃ before after u, t = before ++ '=' :: (after ++ u) ∧ IsBlank before ∧ IsBlank after ∧
      SpellsValue u value rest := by
  have blank := takeWhile_skipSpaces t
  unfold assigned? at read
  split at read
  · rename_i r sign
    refine ⟨t.takeWhile isSpace, r.takeWhile isSpace, skipSpaces r, ?_, isBlank_takeWhile t,
      isBlank_takeWhile r, spellsValue_of_value? read⟩
    rw [takeWhile_skipSpaces, ← sign, blank]
  · simp at read

theorem spellsAttribute_of_attribute? {t rest : Text} {entry : Text × Text}
    (read : attribute? t = some (entry, rest)) : SpellsAttribute t entry rest := by
  have whole := List.takeWhile_append_dropWhile (p := isNameChar) (l := t)
  have goes := all_takeWhile (p := isNameChar) t
  unfold attribute? at read
  split at read
  · simp at read
  · rename_i nonempty
    split at read
    · rename_i value after found
      obtain ⟨rfl, rfl⟩ := Prod.mk.inj (Option.some.inj read)
      rcases exists_of_assigned? found with ⟨before, after, u, same, left, right, spelled⟩
      have valued := SpellsAttribute.valued nonempty goes left right spelled
      rwa [← same, whole] at valued
    · obtain ⟨rfl, rfl⟩ := Prod.mk.inj (Option.some.inj read)
      have spelled := SpellsAttribute.alone nonempty goes (head_dropWhile isNameChar t)
      rwa [whole] at spelled

theorem spellsAttributes_attributes (t : Text) :
    SpellsAttributes t (attributes t).1 (attributes t).2 := by
  fun_induction attributes t with
  | case1 => exact .done []
  | case2 c r space entry rest read more after same ih =>
      rw [same] at ih
      have spaces : c :: r = (c :: r.takeWhile isSpace) ++ skipSpaces r := by
        rw [List.cons_append, takeWhile_skipSpaces]
      rw [spaces]
      refine .next (by simp) ?_ (spellsAttribute_of_attribute? read) ih
      intro x member
      rcases List.mem_cons.mp member with rfl | later
      · exact space
      · exact isBlank_takeWhile r x later
  | case3 => exact .done _
  | case4 => exact .done _

theorem exists_of_tagEnd? {t rest : Text} {closed : Bool} (read : tagEnd? t = some (closed, rest)) :
    ∃ spaces, IsBlank spaces ∧ t = spaces ++ (if closed then ['/'] else []) ++ '>' :: rest := by
  have blank := takeWhile_skipSpaces t
  refine ⟨t.takeWhile isSpace, isBlank_takeWhile t, ?_⟩
  unfold tagEnd? at read
  split at read
  · rename_i r solid
    obtain ⟨rfl, rfl⟩ := Prod.mk.inj (Option.some.inj read)
    simp [← solid, blank]
  · rename_i r solid
    obtain ⟨rfl, rfl⟩ := Prod.mk.inj (Option.some.inj read)
    simp [← solid, blank]
  · simp at read

theorem exists_of_afterRawEnd? {t rest : Text} (ends : endsRaw t)
    (read : afterRawEnd? t = some rest) : ∃ name spaces, isRaw name ∧ IsBlank spaces ∧
      t = "</".toList ++ name ++ spaces ++ '>' :: rest := by
  rcases endsRaw_eq_true_iff.mp ends with ⟨r, rfl, raw⟩
  have whole := List.takeWhile_append_dropWhile (p := isTagChar) (l := r)
  have blank := takeWhile_skipSpaces (r.dropWhile isTagChar)
  rw [afterRawEnd?] at read
  split at read
  · rename_i after sign
    obtain rfl := Option.some.inj read
    refine ⟨_, (r.dropWhile isTagChar).takeWhile isSpace, raw, isBlank_takeWhile _, ?_⟩
    simp [← sign, blank, whole]
  · simp at read

theorem spells_of_rawElement {name t u spaces slash rest : Text} {written : WrittenAttributes}
    {token : Token} (named : IsWrittenName name) (raw : isRaw name) (blank : IsBlank spaces)
    (slashed : slash = [] ∨ slash = ['/'])
    (pairs : SpellsAttributes t written (spaces ++ slash ++ '>' :: u))
    (read : rawElement name written u = (token, rest)) :
    Spells ('<' :: (name ++ t)) token rest := by
  have whole := splitBefore_append endsRaw u
  have free := holdsNoRawEnd_splitBefore u
  have stops := splitBefore_stops endsRaw u
  rw [← whole] at pairs
  unfold rawElement at read
  simp only at read
  split at read
  · rename_i after found
    obtain ⟨rfl, rfl⟩ := Prod.mk.inj read
    have ends : endsRaw (splitBefore endsRaw u).2 := by
      rcases stops with nothing | ends
      · simp [nothing, afterRawEnd?] at found
      · exact ends
    exact .raw named raw blank pairs slashed free stops (exists_of_afterRawEnd? ends found)
  · obtain ⟨rfl, rfl⟩ := Prod.mk.inj read
    exact .raw named raw blank pairs slashed free stops rfl

theorem spells_of_startTag? {t rest : Text} {token : Token} (letter : startsWithLetter t)
    (read : startTag? t = some (token, rest)) : Spells ('<' :: t) token rest := by
  have whole := List.takeWhile_append_dropWhile (p := isTagChar) (l := t)
  have named := isWrittenName_takeWhile letter
  have pairs := spellsAttributes_attributes (t.dropWhile isTagChar)
  obtain ⟨⟨closed, after⟩, found, same⟩ := Option.map_eq_some_iff.mp read
  rcases exists_of_tagEnd? found with ⟨spaces, blank, ended⟩
  rw [ended] at pairs
  rw [← whole]
  simp only at same
  split at same
  · rename_i raw
    refine spells_of_rawElement named raw blank ?_ pairs same
    cases closed with
    | true => exact .inr rfl
    | false => exact .inl rfl
  · rename_i cooked
    obtain ⟨rfl, rfl⟩ := Prod.mk.inj same
    exact .startTag closed named cooked blank pairs rfl

theorem spells_of_endTag? {t rest : Text} {token : Token} (letter : startsWithLetter t)
    (read : endTag? t = some (token, rest)) : Spells ('<' :: '/' :: t) token rest := by
  have whole := List.takeWhile_append_dropWhile (p := isTagChar) (l := t)
  have blank := takeWhile_skipSpaces (t.dropWhile isTagChar)
  unfold endTag? at read
  split at read
  · rename_i after sign
    obtain ⟨rfl, rfl⟩ := Prod.mk.inj (Option.some.inj read)
    have spelled := @Spells.endTag _ _ after (isWrittenName_takeWhile letter)
      (isBlank_takeWhile (t.dropWhile isTagChar))
    rw [List.append_assoc, ← sign, blank, List.append_assoc, whole] at spelled
    exact spelled
  · simp at read

theorem spells_of_declaration? {t rest : Text} {token : Token}
    (read : declaration? t = some (token, rest)) : Spells ('<' :: '!' :: t) token rest := by
  unfold declaration? at read
  split at read
  · rename_i content after found
    obtain ⟨rfl, rfl⟩ := Prod.mk.inj (Option.some.inj read)
    unfold comment? at found
    split at found
    · have spelled := @Spells.comment _ after (not_infix_of_cut (by simp) found)
      rw [List.append_assoc, List.append_assoc, ← List.append_assoc content, ← Text.eq_of_cut found]
        at spelled
      exact spelled
    · simp at found
  · obtain ⟨⟨skipped, after⟩, found, same⟩ := Option.map_eq_some_iff.mp read
    obtain ⟨rfl, rfl⟩ := Prod.mk.inj same
    have spelled := @Spells.doctype _ after (not_mem_of_cut found)
    rw [Text.eq_of_cut found]
    simpa using spelled

theorem spells_of_token? {t rest : Text} {token : Token} (nonempty : t ≠ [])
    (read : token? t = some (token, rest)) : Spells t token rest := by
  have formed := token?_formed nonempty read
  unfold token? at read
  split at read
  · rename_i opens
    unfold tag? at read
    split at read
    · exact spells_of_declaration? read
    · exact spells_of_endTag? opens read
    · rename_i r notDeclaration notEnd
      refine spells_of_startTag? ?_ read
      rwa [opensTag] at opens
      · exact notDeclaration
      · exact notEnd
    · simp at read
  · rename_i closed
    obtain ⟨rfl, rfl⟩ := Prod.mk.inj (Option.some.inj read)
    have spelled := Spells.text formed (splitBefore_goes opensTag t) (splitBefore_stops opensTag t)
    rwa [splitBefore_append] at spelled

/-- What is read of a source stands in it, token after token, and nothing else does. -/
theorem spellsAll_of_tokens? {t : Text} {tokens : List Token} (read : tokens? t = some tokens) :
    SpellsAll t tokens := by
  induction t using tokens?.induct generalizing tokens with
  | case1 =>
      rw [tokens?_nil] at read
      obtain rfl := Option.some.inj read
      exact .nil
  | case2 c r token rest found ih =>
      rw [tokens?_of_token? (by simp) found] at read
      obtain ⟨others, later, rfl⟩ := Option.map_eq_some_iff.mp read
      exact .cons (spells_of_token? (by simp) found) (ih later)
  | case3 c r failed =>
      simp [tokens?_eq_none (List.cons_ne_nil c r) failed] at read

theorem SpellsValue.suffix {t value rest : Text} (spelled : SpellsValue t value rest) :
    rest <:+ t := by
  cases spelled with
  | @quoted q value _ quote free => exact ⟨q :: (value ++ [q]), by simp⟩
  | bare nonempty goes stops => exact List.suffix_append _ _

theorem SpellsAttribute.suffix {t rest : Text} {entry : Text × Text}
    (spelled : SpellsAttribute t entry rest) : rest <:+ t := by
  cases spelled with
  | alone nonempty goes stops => exact List.suffix_append _ _
  | @valued name before after _ _ _ nonempty goes left right spelled =>
      exact spelled.suffix.trans ⟨name ++ before ++ '=' :: after, by simp⟩

theorem SpellsAttributes.suffix {t rest : Text} {written : WrittenAttributes}
    (pairs : SpellsAttributes t written rest) : rest <:+ t := by
  induction pairs with
  | done t => exact List.suffix_rfl
  | next apart blank first others ih =>
      exact (ih.trans first.suffix).trans (List.suffix_append _ _)

theorem Spells.suffix {t rest : Text} {token : Token} (spelled : Spells t token rest) :
    rest <:+ t := by
  cases spelled with
  | text nonempty goes stops => exact List.suffix_append _ _
  | comment free => exact List.suffix_append _ _
  | @doctype content _ free => exact ⟨"<!".toList ++ content ++ ['>'], by simp⟩
  | @startTag name _ spaces slash _ _ closed named cooked blank pairs slashed =>
      have inner : rest <:+ spaces ++ slash ++ '>' :: rest := ⟨spaces ++ slash ++ ['>'], by simp⟩
      exact (inner.trans pairs.suffix).trans ⟨'<' :: name, by simp⟩
  | @endTag name spaces _ named blank => exact ⟨"</".toList ++ name ++ spaces ++ ['>'], by simp⟩
  | @raw name _ spaces slash content after _ _ ended named raw blank pairs slashed free stops
      finished =>
      have inner : after <:+ spaces ++ slash ++ '>' :: (content ++ after) :=
        ⟨spaces ++ slash ++ '>' :: content, by simp⟩
      have behind : rest <:+ after := by
        cases ended with
        | false =>
            obtain rfl : rest = after := finished
            exact List.suffix_rfl
        | true =>
            rcases finished with ⟨other, blanks, _, _, rfl⟩
            exact ⟨"</".toList ++ other ++ blanks ++ ['>'], by simp⟩
      exact ((behind.trans inner).trans pairs.suffix).trans ⟨'<' :: name, by simp⟩

theorem Spells.end_mem {t rest : Text} {token : Token} (spelled : Spells t token rest)
    (opens : opensTag t) : '>' ∈ t := by
  cases spelled with
  | text nonempty goes stops =>
      rename_i content
      rcases List.exists_cons_of_ne_nil nonempty with ⟨c, more, rfl⟩
      exact absurd opens (by simp [goes [] c more rfl])
  | comment free => simp
  | doctype free => simp
  | startTag closed named cooked blank pairs slashed =>
      refine List.mem_cons_of_mem _ (List.mem_append_right _ ?_)
      exact pairs.suffix.subset (by simp)
  | endTag named blank => simp
  | raw named raw blank pairs slashed free stops finished =>
      refine List.mem_cons_of_mem _ (List.mem_append_right _ ?_)
      exact pairs.suffix.subset (by simp)

end LiveTemplate.Markup
