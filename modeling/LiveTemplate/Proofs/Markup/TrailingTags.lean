import LiveTemplate.Proofs.Markup.LongerSources
import LiveTemplate.Proofs.Markup.NameStack
import LiveTemplate.Proofs.Markup.Refusals

/-! End tags behind a source. They are read as end tags, and closing elements where the source ends or
a little earlier gives the same tree. The one exception is a source that leaves a comment open, which
is then skipped as a doctype: an end tag that holds `-->` ends the comment after all. -/

namespace LiveTemplate.Markup

def endTags (tags : List (Text × Text)) : Text :=
  tags.flatMap fun (name, spaces) => "</".toList ++ name ++ spaces ++ ['>']

def EndsInRaw (t : Text) : Prop :=
  ∃ tokens, tokens? t = some tokens ∧ ∃ last ∈ tokens.getLast?, last.isUnended

instance (t : Text) : Decidable (EndsInRaw t) :=
  decidable_of_iff ((tokens? t).any fun tokens => tokens.getLast?.any Token.isUnended)
    (by simp [EndsInRaw, Option.any_eq_true])

variable {t : Text} {tags : List (Text × Text)}

theorem endTags_cons (name spaces : Text) (more : List (Text × Text)) :
    endTags ((name, spaces) :: more) = '<' :: '/' :: (name ++ (spaces ++ '>' :: endTags more)) := by
  simp [endTags]

theorem endTag?_spaced {name spaces : Text} (named : IsWrittenName name) (blank : IsBlank spaces)
    (rest : Text) : endTag? (name ++ (spaces ++ '>' :: rest)) = some (.endTag name, rest) := by
  have stops : (spaces ++ '>' :: rest).head?.all (!isTagChar ·) := by
    cases spaces with
    | nil => rfl
    | cons c more =>
        have space := blank c List.mem_cons_self
        simp only [isSpace, Bool.or_eq_true, beq_iff_eq] at space
        rcases space with ((rfl | rfl) | rfl) | rfl <;> rfl
  have solid : skipSpaces (spaces ++ '>' :: rest) = '>' :: rest :=
    dropWhile_of_stop blank rfl
  rw [endTag?, takeWhile_of_stop named.2 stops, dropWhile_of_stop named.2 stops, solid]
  rfl

theorem tokens?_endTags (formed : ∀ tag ∈ tags, IsWrittenName tag.1 ∧ IsBlank tag.2) :
    tokens? (endTags tags) = some (tags.map fun tag => .endTag tag.1) := by
  induction tags with
  | nil => exact tokens?_nil
  | cons tag more ih =>
      rcases tag with ⟨name, spaces⟩
      obtain ⟨named, blank⟩ := formed (name, spaces) List.mem_cons_self
      have opens : opensTag (endTags ((name, spaces) :: more)) := by
        rw [endTags_cons]
        exact named.startsWithLetter _
      have read : token? (endTags ((name, spaces) :: more)) = some (.endTag name, endTags more) := by
        rw [token?_of_opensTag opens, endTags_cons]
        exact endTag?_spaced named blank _
      rw [tokens?_of_token? (ne_nil_of_opensTag opens) read,
        ih fun tag member => formed tag (List.mem_cons_of_mem _ member)]
      rfl

namespace Nesting

variable {n : Nesting}

/-- Closing an element before the end of the source or there is the same. -/
theorem finish_closeInnermost : n.closeInnermost.finish = n.finish := by
  rcases n with ⟨top, opened⟩
  cases opened with
  | nil => rfl
  | cons e outer =>
      have height : (closeInnermost ⟨top, e :: outer⟩).opened.length = outer.length := by
        have names := tags_closeInnermost (n := ⟨top, e :: outer⟩)
        simpa [tags] using congrArg List.length names
      rw [finish, height, finish, List.length_cons, close]

theorem finish_close (count : Nat) : (n.close count).finish = n.finish := by
  induction count generalizing n with
  | zero => rfl
  | succ count ih => rw [close, ih, finish_closeInnermost]

end Nesting

theorem nodesOfTokens_append_endTags (tokens : List Token) (names : List Text) :
    nodesOfTokens (tokens ++ names.map .endTag) = nodesOfTokens tokens := by
  rw [nodesOfTokens, List.foldl_append, nodesOfTokens]
  generalize tokens.foldl Nesting.read {} = n
  induction names generalizing n with
  | nil => rfl
  | cons name more ih =>
      rw [List.map_cons, List.foldl_cons, ih]
      exact Nesting.finish_close _

theorem parse?_append_endTags_of_free {nodes : List Node} (read : parse? t = some nodes)
    (ended : ¬ EndsInRaw t) (formed : ∀ tag ∈ tags, IsWrittenName tag.1 ∧ IsBlank tag.2)
    (free : ¬ SkipsComment t ∨ ¬ "-->".toList <:+: endTags tags) :
    parse? (t ++ endTags tags) = some nodes := by
  obtain ⟨tokens, spelled, rfl⟩ := Option.map_eq_some_iff.mp read
  have finished : ∀ token ∈ tokens.getLast?, ¬ token.isUnended :=
    fun token last unended => ended ⟨tokens, spelled, token, last, unended⟩
  have behind : tokens? (t ++ endTags tags) =
      some (tokens ++ (tags.map (·.1)).map .endTag) := by
    have tail := tokens?_endTags formed
    cases tags with
    | nil => simpa [endTags] using spelled
    | cons tag more =>
        rcases tag with ⟨name, spaces⟩
        rw [endTags_cons] at tail free ⊢
        have opens : opensTag ('<' :: '/' :: (name ++ (spaces ++ '>' :: endTags more))) :=
          (formed (name, spaces) List.mem_cons_self).1.startsWithLetter _
        rw [tokens?_append spelled finished opens free, tail, Option.map_some, List.map_map]
        rfl
  rw [parse?, behind, Option.map_some, nodesOfTokens_append_endTags]

def Token.isComment : Token → Bool
  | .comment _ => true
  | _ => false

def Content.isComment : Content → Bool
  | .comment _ => true
  | _ => false

theorem countP_isComment (tokens : List Token) :
    ((locatedAll [] (nodesOfTokens tokens)).map (·.content)).countP Content.isComment =
      tokens.countP Token.isComment := by
  rw [locatedAll_nodesOfTokens, NameStack.map_content_emitAll]
  induction tokens with
  | nil => rfl
  | cons token more ih =>
      rw [List.flatMap_cons, List.countP_append, ih, List.countP_cons, Nat.add_comm]
      congr 1
      cases token with
      | raw name written content ended =>
          by_cases empty : content = [] <;>
            simp [NameStack.emit, Content.isComment, Token.isComment, empty]
      | _ => rfl

theorem countP_isComment_of_free {tokens : List Token} (spelled : SpellsAll t tokens)
    (free : ¬ "-->".toList <:+: t) : tokens.countP Token.isComment = 0 := by
  induction spelled with
  | nil => rfl
  | @cons t rest token more first others ih =>
      have outside : ¬ "-->".toList <:+: rest := fun inside =>
        free (inside.trans first.suffix.isInfix)
      rw [List.countP_cons, ih outside]
      cases first with
      | comment closed => exact absurd ⟨_, _, rfl⟩ free
      | _ => rfl

/-- A comment that is left open gives no comment, unless what is added ends it. -/
theorem countP_isComment_of_skipped {b more : Text} {tokens longer : List Token}
    (unended : ¬ "-->".toList <:+: b) (read : tokens? ("<!--".toList ++ b) = some tokens)
    (behind : tokens? ("<!--".toList ++ b ++ more) = some longer) (ends : "-->".toList <:+: more) :
    tokens.countP Token.isComment < longer.countP Token.isComment := by
  have uncommented : tokens.countP Token.isComment = 0 := by
    have opens : opensTag ("<!--".toList ++ b) := rfl
    have marked : '>' ∈ b := by
      by_contra endless
      have unread : token? ("<!--".toList ++ b) = none :=
        (token?_of_opensTag opens).trans (tag?_eq_none_of_not_mem opens (by simpa using endless))
      rw [tokens?_eq_none (ne_nil_of_opensTag opens) unread] at read
      contradiction
    rcases List.eq_append_cons_of_mem marked with ⟨skipped, rest, rfl, first⟩
    rw [tokens?_of_token? (ne_nil_of_opensTag opens) (token?_unterminated_comment unended first)]
      at read
    obtain ⟨others, later, rfl⟩ := Option.map_eq_some_iff.mp read
    have inside : rest <:+ skipped ++ '>' :: rest := ⟨skipped ++ ['>'], by simp⟩
    rw [List.countP_cons, countP_isComment_of_free (spellsAll_of_tokens? later)
      fun found => unended (found.trans inside.isInfix)]
    rfl
  have starts : ∃ content others, longer = .comment content :: others := by
    have opens : opensTag ("<!--".toList ++ b ++ more) := rfl
    have within : "-->".toList <:+: b ++ more := ends.trans (List.suffix_append b more).isInfix
    rcases Option.isSome_iff_exists.mp (Text.occurs_iff.mpr within) with ⟨⟨content, rest⟩, found⟩
    have first : token? ("<!--".toList ++ b ++ more) = some (.comment content, rest) := by
      rw [token?_of_opensTag opens]
      show declaration? ('-' :: '-' :: (b ++ more)) = _
      rw [declaration?, comment?, found]
    rw [tokens?_of_token? (ne_nil_of_opensTag opens) first] at behind
    obtain ⟨others, _, rfl⟩ := Option.map_eq_some_iff.mp behind
    exact ⟨content, others, rfl⟩
  rcases starts with ⟨content, others, rfl⟩
  rw [uncommented, List.countP_cons]
  exact Nat.succ_pos _

theorem SkipsComment.ne_nil (skips : SkipsComment t) : t ≠ [] := by
  cases skips with
  | here unended => simp
  | later nonempty read skips => exact nonempty

theorem countP_isComment_of_skipsComment {more : Text} {tokens longer : List Token}
    (skips : SkipsComment t) (read : tokens? t = some tokens)
    (behind : tokens? (t ++ '<' :: more) = some longer) (opens : opensTag ('<' :: more))
    (ends : "-->".toList <:+: '<' :: more) :
    tokens.countP Token.isComment < longer.countP Token.isComment := by
  induction skips generalizing tokens longer with
  | here unended => exact countP_isComment_of_skipped unended read behind ends
  | @later t rest token nonempty found skips ih =>
      by_cases left : ∃ b, t = "<!--".toList ++ b ∧ ¬ "-->".toList <:+: b
      · rcases left with ⟨b, rfl, unended⟩
        exact countP_isComment_of_skipped unended read behind ends
      · have closed : ∀ b, t = "<!--".toList ++ b → "-->".toList <:+: b := by
          intro b same
          by_contra unended
          exact left ⟨b, same, unended⟩
        rw [tokens?_of_token? nonempty found] at read
        obtain ⟨others, later, rfl⟩ := Option.map_eq_some_iff.mp read
        have finished : ¬ token.isUnended := by
          intro unended
          rcases rest_of_isUnended found unended with nothing | unread
          · exact skips.ne_nil nothing
          · simp [tokens?_eq_none skips.ne_nil unread] at later
        have step := token?_append nonempty found finished opens fun b same => .inl (closed b same)
        rw [tokens?_of_token? (by simp) step] at behind
        obtain ⟨further, beyond, rfl⟩ := Option.map_eq_some_iff.mp behind
        rw [List.countP_cons, List.countP_cons]
        exact Nat.add_lt_add_right (ih later beyond) _

/-- End tags behind a source change nothing, whatever their names and however many they are, unless
the source leaves a comment open and they hold the end of one. Then they always change something. -/
theorem parse?_append_endTags {nodes : List Node} (read : parse? t = some nodes)
    (ended : ¬ EndsInRaw t) (formed : ∀ tag ∈ tags, IsWrittenName tag.1 ∧ IsBlank tag.2) :
    parse? (t ++ endTags tags) = some nodes ↔
      ¬ (SkipsComment t ∧ "-->".toList <:+: endTags tags) := by
  constructor
  · rintro same ⟨skips, ends⟩
    obtain ⟨tokens, spelled, rfl⟩ := Option.map_eq_some_iff.mp read
    obtain ⟨longer, behind, nodes⟩ := Option.map_eq_some_iff.mp same
    have more : tokens.countP Token.isComment < longer.countP Token.isComment := by
      cases tags with
      | nil => simp [endTags] at ends
      | cons tag others =>
          rcases tag with ⟨name, spaces⟩
          rw [endTags_cons] at behind ends
          exact countP_isComment_of_skipsComment skips spelled behind
            ((formed (name, spaces) List.mem_cons_self).1.startsWithLetter _) ends
    rw [← countP_isComment, ← countP_isComment, nodes] at more
    exact Nat.lt_irrefl _ more
  · intro free
    exact parse?_append_endTags_of_free read ended formed (not_and_or.mp free)

theorem parse?_append_endTags_list :
    let tags := ["LI", "x--", "p"].map fun name => (name.toList, [' '])
    ∃ nodes, parse? "<ul><li>a<".toList = some nodes ∧ ¬ EndsInRaw "<ul><li>a<".toList ∧
      (∀ tag ∈ tags, IsWrittenName tag.1 ∧ IsBlank tag.2) ∧
      ¬ (SkipsComment "<ul><li>a<".toList ∧ "-->".toList <:+: endTags tags) ∧
      parse? ("<ul><li>a<".toList ++ endTags tags) = some nodes := by
  intro tags
  have readable : (parse? "<ul><li>a<".toList).isSome := by decide +kernel
  rcases Option.isSome_iff_exists.mp readable with ⟨nodes, read⟩
  have ended : ¬ EndsInRaw "<ul><li>a<".toList := by decide +kernel
  have formed : ∀ tag ∈ tags, IsWrittenName tag.1 ∧ IsBlank tag.2 := by decide
  have free : ¬ (SkipsComment "<ul><li>a<".toList ∧ "-->".toList <:+: endTags tags) :=
    fun both => absurd both.2 (by decide)
  exact ⟨nodes, read, ended, formed, free, (parse?_append_endTags read ended formed).mpr free⟩

/-- The end tag ends a comment that was skipped without it. -/
theorem parse?_comment_ended_late : IsWrittenName "x--".toList ∧ ¬ EndsInRaw "<!-- a > b".toList ∧
    (parse? "<!-- a > b".toList).map (outlineAll 0) = some [⟨0, .text " b".toList⟩] ∧
    (parse? ("<!-- a > b".toList ++ endTags [("x--".toList, [])])).map (outlineAll 0) =
      some [⟨0, .comment " a > b</x".toList⟩] := by
  decide +kernel

end LiveTemplate.Markup
