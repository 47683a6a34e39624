import LiveTemplate.Proofs.Markup.Spelling
import LiveTemplate.Proofs.Markup.Tokens
import LiveTemplate.Proofs.Text.Cutting

/-! What is read of a source is read of the longer one in which a tag follows it: no reader goes on
past the `<`, and none that has failed before it succeeds with it, as long as the tag it belongs to is
read to its end. -/

namespace LiveTemplate.Markup

variable {t rest r : Text} {token : Token}

theorem dropWhile_append_of_head {p : Char → Bool} {c : Char} (stops : p c = false) (t r : Text) :
    (t ++ c :: r).dropWhile p = t.dropWhile p ++ c :: r := by
  rw [List.dropWhile_append]
  split
  · rename_i empty
    simp [List.isEmpty_iff.mp empty, stops]
  · rfl

theorem skipSpaces_append (t r : Text) : skipSpaces (t ++ '<' :: r) = skipSpaces t ++ '<' :: r :=
  dropWhile_append_of_head rfl t r

/-- A split is the same if what decides on it is, and if it does not go on past the text. -/
theorem splitBefore_append_of {stop : Text → Bool} {more : Text}
    (same : ∀ u, u ≠ [] → stop (u ++ more) = stop u)
    (stops : (splitBefore stop t).2 ≠ [] ∨ more = [] ∨ stop more) :
    splitBefore stop (t ++ more) = ((splitBefore stop t).1, (splitBefore stop t).2 ++ more) := by
  induction t with
  | nil =>
      rcases stops with inside | stops
      · exact absurd rfl inside
      · exact splitBefore_of_stop (t := []) (by simp) stops
  | cons c u ih =>
      have first := same (c :: u) (by simp)
      rw [List.cons_append] at first
      rw [splitBefore] at stops ⊢
      rw [List.cons_append, splitBefore, first]
      split
      · rfl
      · rename_i goes
        rw [if_neg goes] at stops
        rw [ih stops]

theorem value?_of_unquoted {c : Char} (double : c ≠ '"') (single : c ≠ '\'') (u : Text) :
    value? (c :: u) = match (c :: u).takeWhile isBareChar with
      | [] => none
      | value => some (value, (c :: u).dropWhile isBareChar) := by
  rw [value?.eq_def]
  split
  · rename_i same
    exact absurd (List.cons.inj same).1 double
  · rename_i same
    exact absurd (List.cons.inj same).1 single
  · rfl

theorem value?_append {value : Text} (read : value? t = some (value, rest)) (r : Text) :
    value? (t ++ '<' :: r) = some (value, rest ++ '<' :: r) := by
  cases t with
  | nil => simp [value?] at read
  | cons c u =>
      rw [List.cons_append]
      by_cases double : c = '"'
      · subst double
        exact Text.cut_append read (by simp) _
      · by_cases single : c = '\''
        · subst single
          exact Text.cut_append read (by simp) _
        · rw [value?_of_unquoted double single] at read ⊢
          rw [← List.cons_append, takeWhile_append_of_head rfl, dropWhile_append_of_head rfl]
          split at read
          · simp at read
          · obtain ⟨rfl, rfl⟩ := Prod.mk.inj (Option.some.inj read)
            rfl

theorem assigned?_append {value : Text} (read : assigned? t = some (value, rest)) (r : Text) :
    assigned? (t ++ '<' :: r) = some (value, rest ++ '<' :: r) := by
  rw [assigned?] at read ⊢
  rw [skipSpaces_append]
  split at read
  · rename_i u sign
    rw [sign]
    show value? (skipSpaces (u ++ '<' :: r)) = _
    rw [skipSpaces_append, value?_append read]
  · simp at read

theorem assigned?_append_eq_none (unassigned : (skipSpaces t).head? ≠ some '=') (r : Text) :
    assigned? (t ++ '<' :: r) = none := by
  rw [assigned?, skipSpaces_append]
  cases spaces : skipSpaces t with
  | nil => rfl
  | cons c u =>
      rw [spaces] at unassigned
      split
      · rename_i sign
        obtain ⟨rfl, _⟩ := List.cons.inj sign
        simp at unassigned
      · rfl

theorem attribute?_append {a : Text × Text} (read : attribute? t = some (a, rest))
    (unassigned : (skipSpaces rest).head? ≠ some '=') (r : Text) :
    attribute? (t ++ '<' :: r) = some (a, rest ++ '<' :: r) := by
  rw [attribute?] at read ⊢
  rw [takeWhile_append_of_head rfl, dropWhile_append_of_head rfl]
  split at read
  · simp at read
  · split at read
    · rename_i found
      obtain ⟨rfl, rfl⟩ := Prod.mk.inj (Option.some.inj read)
      rw [assigned?_append found]
    · obtain ⟨rfl, rfl⟩ := Prod.mk.inj (Option.some.inj read)
      rw [assigned?_append_eq_none unassigned]

theorem attribute?_eq_none_iff : attribute? t = none ↔ t.takeWhile isNameChar = [] := by
  rw [attribute?]
  split
  · simp_all
  · split <;> simp_all

theorem unassigned_of_tagEnd? (ended : (tagEnd? (attributes t).2).isSome) :
    (skipSpaces t).head? ≠ some '=' := by
  intro sign
  rcases List.head?_eq_some_iff.mp sign with ⟨u, same⟩
  have unread : (attributes t).2 = t := by
    cases t with
    | nil => rw [attributes]
    | cons c v =>
        by_cases space : isSpace c
        · have skipped : skipSpaces v = '=' :: u := by
            rw [← same, skipSpaces, skipSpaces, List.dropWhile_cons_of_pos space]
          rw [attributes, if_pos space, skipped]
          rfl
        · rw [attributes_of_head (by simpa using space)]
  rw [unread, tagEnd?, same] at ended
  simp at ended

theorem attributes_append (ended : (tagEnd? (attributes t).2).isSome) (r : Text) :
    attributes (t ++ '<' :: r) = ((attributes t).1, (attributes t).2 ++ '<' :: r) := by
  fun_induction attributes t with
  | case1 => simp [tagEnd?, skipSpaces] at ended
  | case2 c u space a rest read more after same ih =>
      rw [same] at ih
      have unassigned : (skipSpaces rest).head? ≠ some '=' :=
        unassigned_of_tagEnd? (by rw [same]; exact ended)
      have longer := attribute?_append read unassigned r
      rw [← skipSpaces_append] at longer
      rw [List.cons_append, attributes_of_attribute? space longer, ih ended]
  | case3 c u space failed =>
      rw [attribute?_eq_none_iff] at failed
      have still : attribute? (skipSpaces (u ++ '<' :: r)) = none := by
        rw [attribute?_eq_none_iff, skipSpaces_append, takeWhile_append_of_head rfl, failed]
      rw [List.cons_append, attributes, if_pos space]
      split
      · simp_all
      · rfl
  | case4 c u solid =>
      exact attributes_of_head (by simpa using solid)

theorem tagEnd?_append {closed : Bool} (read : tagEnd? t = some (closed, rest)) (r : Text) :
    tagEnd? (t ++ '<' :: r) = some (closed, rest ++ '<' :: r) := by
  rw [tagEnd?] at read ⊢
  rw [skipSpaces_append]
  split at read
  · rename_i solid
    obtain ⟨rfl, rfl⟩ := Prod.mk.inj (Option.some.inj read)
    rw [solid]
    rfl
  · rename_i solid
    obtain ⟨rfl, rfl⟩ := Prod.mk.inj (Option.some.inj read)
    rw [solid]
    rfl
  · simp at read

theorem endsRaw_append (nonempty : t ≠ []) (r : Text) : endsRaw (t ++ '<' :: r) = endsRaw t := by
  match t, nonempty with
  | [c], _ => simp [endsRaw]
  | c :: d :: u, _ =>
      by_cases marked : c = '<' ∧ d = '/'
      · obtain ⟨rfl, rfl⟩ := marked
        show isRaw ((u ++ '<' :: r).takeWhile isTagChar) = isRaw (u.takeWhile isTagChar)
        rw [takeWhile_append_of_head rfl]
      · have other : ∀ v : Text, endsRaw (c :: d :: v) = false := by
          intro v
          by_contra ends
          rcases endsRaw_eq_true_iff.mp (by simpa using ends) with ⟨w, same, _⟩
          simp_all
        exact (other _).trans (other u).symm

theorem afterRawEnd?_append (read : afterRawEnd? t = some rest) (r : Text) :
    afterRawEnd? (t ++ '<' :: r) = some (rest ++ '<' :: r) := by
  unfold afterRawEnd? at read
  split at read
  · rename_i u
    rw [List.cons_append, List.cons_append, afterRawEnd?, dropWhile_append_of_head rfl,
      skipSpaces_append]
    split at read
    · rename_i sign
      obtain rfl := Option.some.inj read
      rw [sign]
      rfl
    · simp at read
  · simp at read

/-- An element of raw text that goes on to the end of its source, as it has no end tag. -/
def Token.isUnended : Token → Bool
  | .raw _ _ _ ended => !ended
  | _ => false

theorem rawElement_append {name : Text} {written : WrittenAttributes}
    (read : rawElement name written t = (token, rest)) (ended : ¬ token.isUnended) (r : Text) :
    rawElement name written (t ++ '<' :: r) = (token, rest ++ '<' :: r) := by
  unfold rawElement at read
  simp only at read
  split at read
  · rename_i after found
    obtain ⟨rfl, rfl⟩ := Prod.mk.inj read
    have inside : (splitBefore endsRaw t).2 ≠ [] := by
      intro nothing
      simp [nothing, afterRawEnd?] at found
    have split := splitBefore_append_of (fun u nonempty => endsRaw_append nonempty r) (.inl inside)
    rw [rawElement, split]
    simp only [afterRawEnd?_append found]
  · obtain ⟨rfl, rfl⟩ := Prod.mk.inj read
    simp [Token.isUnended] at ended

/-- Nothing but the end of the source follows an element of raw text without its end tag, or an end
tag that cannot be read. -/
theorem rest_of_rawElement {name : Text} {written : WrittenAttributes}
    (read : rawElement name written t = (token, rest)) (unended : token.isUnended) :
    rest = [] ∨ token? rest = none := by
  have stops := splitBefore_stops endsRaw t
  unfold rawElement at read
  simp only at read
  split at read
  · obtain ⟨rfl, _⟩ := Prod.mk.inj read
    simp [Token.isUnended] at unended
  · rename_i unfinished
    obtain ⟨_, rfl⟩ := Prod.mk.inj read
    refine stops.imp_right fun ends => ?_
    rcases token?_of_endsRaw ends with ⟨other, tag⟩
    rw [tag, unfinished, Option.map_none]

theorem startTag?_append (read : startTag? t = some (token, rest)) (ended : ¬ token.isUnended)
    (r : Text) : startTag? (t ++ '<' :: r) = some (token, rest ++ '<' :: r) := by
  obtain ⟨⟨closed, after⟩, found, same⟩ := Option.map_eq_some_iff.mp read
  have pairs := attributes_append (t := t.dropWhile isTagChar) (by rw [found]; rfl) r
  have finished := tagEnd?_append found r
  simp only at same
  simp only [startTag?, takeWhile_append_of_head (p := isTagChar) (c := '<') rfl,
    dropWhile_append_of_head (p := isTagChar) (c := '<') rfl, pairs, finished, Option.map_some]
  split at same
  · rename_i raw
    rw [if_pos raw, rawElement_append same ended]
  · rename_i cooked
    obtain ⟨rfl, rfl⟩ := Prod.mk.inj same
    rw [if_neg cooked]

theorem endTag?_append (read : endTag? t = some (token, rest)) (r : Text) :
    endTag? (t ++ '<' :: r) = some (token, rest ++ '<' :: r) := by
  rw [endTag?] at read ⊢
  rw [takeWhile_append_of_head rfl, dropWhile_append_of_head rfl, skipSpaces_append]
  split at read
  · rename_i solid
    obtain ⟨rfl, rfl⟩ := Prod.mk.inj (Option.some.inj read)
    rw [solid]
    rfl
  · simp at read

theorem comment?_append {content : Text} (read : comment? t = some (content, rest)) (r : Text) :
    comment? (t ++ '<' :: r) = some (content, rest ++ '<' :: r) := by
  unfold comment? at read
  split at read
  · exact Text.cut_append read (by simp) _
  · simp at read

theorem comment?_append_eq_none (read : comment? t = none) (marked : '>' ∈ t)
    (ends : ∀ b, t = '-' :: '-' :: b → "-->".toList <:+: b ∨ ¬ "-->".toList <:+: '<' :: r) :
    comment? (t ++ '<' :: r) = none := by
  match t with
  | [] => rfl
  | [c] =>
      obtain rfl : '>' = c := by simpa using marked
      rfl
  | c :: d :: u =>
      by_cases dashes : c = '-' ∧ d = '-'
      · obtain ⟨rfl, rfl⟩ := dashes
        have missing : ¬ "-->".toList <:+: u := Text.cut_eq_none_iff.mp read
        have free := (ends u rfl).resolve_left missing
        exact Text.cut_eq_none_iff.mpr fun inside =>
          (Text.infix_append_cons (by decide) inside).elim missing free
      · rw [List.cons_append, List.cons_append, comment?]
        rintro v same
        simp_all

theorem declaration?_append (read : declaration? t = some (token, rest))
    (ends : ∀ b, t = '-' :: '-' :: b → "-->".toList <:+: b ∨ ¬ "-->".toList <:+: '<' :: r) :
    declaration? (t ++ '<' :: r) = some (token, rest ++ '<' :: r) := by
  rw [declaration?] at read ⊢
  split at read
  · rename_i found
    obtain ⟨rfl, rfl⟩ := Prod.mk.inj (Option.some.inj read)
    rw [comment?_append found]
  · rename_i unended
    obtain ⟨⟨skipped, after⟩, found, same⟩ := Option.map_eq_some_iff.mp read
    obtain ⟨rfl, rfl⟩ := Prod.mk.inj same
    have marked : '>' ∈ t := by
      rw [Text.eq_of_cut found]
      simp
    have still := comment?_append_eq_none unended marked ends
    rw [still, Text.cut_append found (by simp)]
    rfl

theorem opensTag_append (nonempty : t ≠ []) (r : Text) :
    opensTag (t ++ '<' :: r) = opensTag t := by
  match t, nonempty with
  | [c], _ =>
      by_cases angle : c = '<'
      · subst angle
        rfl
      · exact (opensTag_of_ne angle _).trans (opensTag_of_ne angle _).symm
  | c :: d :: u, _ =>
      by_cases angle : c = '<'
      · subst angle
        by_cases declares : d = '!'
        · subst declares
          rfl
        · by_cases slash : d = '/'
          · subst slash
            show startsWithLetter (u ++ '<' :: r) = startsWithLetter u
            cases u with
            | nil => rfl
            | cons x v => rfl
          · have letter : ∀ v : Text, opensTag ('<' :: d :: v) = startsWithLetter (d :: v) := by
              intro v
              rw [opensTag]
              · simpa using declares
              · simpa using slash
            exact (letter _).trans (letter u).symm
      · exact (opensTag_of_ne angle _).trans (opensTag_of_ne angle _).symm

theorem token?_append (nonempty : t ≠ []) (read : token? t = some (token, rest))
    (ended : ¬ token.isUnended) (opens : opensTag ('<' :: r))
    (ends : ∀ b, t = "<!--".toList ++ b → "-->".toList <:+: b ∨ ¬ "-->".toList <:+: '<' :: r) :
    token? (t ++ '<' :: r) = some (token, rest ++ '<' :: r) := by
  rw [token?] at read ⊢
  rw [opensTag_append nonempty]
  split at read
  · rename_i first
    rw [if_pos first]
    unfold tag? at read
    split at read
    · rename_i u
      exact declaration?_append read fun b same => ends b (by simp [same])
    · exact endTag?_append read r
    · rename_i u notDeclaration notEnd
      have letter : startsWithLetter u := by
        rwa [opensTag] at first
        · exact notDeclaration
        · exact notEnd
      have longer : startsWithLetter (u ++ '<' :: r) := by
        cases u with
        | nil => simp [startsWithLetter] at letter
        | cons c v => exact letter
      rw [List.cons_append, tag?_of_letter longer]
      exact startTag?_append read ended r
    · simp at read
  · rename_i first
    rw [if_neg first]
    obtain ⟨rfl, rfl⟩ := Prod.mk.inj (Option.some.inj read)
    rw [splitBefore_append_of (fun u nonempty => opensTag_append nonempty r) (.inr (.inr opens))]

theorem rest_of_isUnended (read : token? t = some (token, rest)) (unended : token.isUnended) :
    rest = [] ∨ token? rest = none := by
  unfold token? at read
  split at read
  · unfold tag? at read
    split at read
    · unfold declaration? at read
      split at read
      · obtain ⟨rfl, _⟩ := Prod.mk.inj (Option.some.inj read)
        simp [Token.isUnended] at unended
      · obtain ⟨_, _, same⟩ := Option.map_eq_some_iff.mp read
        obtain ⟨rfl, _⟩ := Prod.mk.inj same
        simp [Token.isUnended] at unended
    · unfold endTag? at read
      split at read
      · obtain ⟨rfl, _⟩ := Prod.mk.inj (Option.some.inj read)
        simp [Token.isUnended] at unended
      · simp at read
    · obtain ⟨⟨closed, after⟩, _, same⟩ := Option.map_eq_some_iff.mp read
      simp only at same
      split at same
      · exact rest_of_rawElement same unended
      · obtain ⟨rfl, _⟩ := Prod.mk.inj same
        simp [Token.isUnended] at unended
    · simp at read
  · obtain ⟨rfl, _⟩ := Prod.mk.inj (Option.some.inj read)
    simp [Token.isUnended] at unended

theorem eq_nil_of_isUnended {more : List Token} (read : token? t = some (token, rest))
    (unended : token.isUnended) (later : tokens? rest = some more) : more = [] := by
  rcases rest_of_isUnended read unended with rfl | unread
  · rw [tokens?_nil] at later
    exact (Option.some.inj later).symm
  · have nonempty : rest ≠ [] := by
      rintro rfl
      simp [token?, opensTag] at unread
    simp [tokens?_eq_none nonempty unread] at later

/-- Reading the source skips a comment that does not end, as a doctype. -/
inductive SkipsComment : Text → Prop
  | here {b : Text} (unended : ¬ "-->".toList <:+: b) : SkipsComment ("<!--".toList ++ b)
  | later {t rest : Text} {token : Token} (nonempty : t ≠ [])
    (read : token? t = some (token, rest)) (skips : SkipsComment rest) : SkipsComment t

/-- Reading a source in front of a tag gives its tokens in front of those of the rest, if the source
does not end in raw text and leaves open no comment that the rest ends. -/
theorem tokens?_append {tokens : List Token} (read : tokens? t = some tokens)
    (ended : ∀ token ∈ tokens.getLast?, ¬ token.isUnended) (opens : opensTag ('<' :: r))
    (ends : ¬ SkipsComment t ∨ ¬ "-->".toList <:+: '<' :: r) :
    tokens? (t ++ '<' :: r) = (tokens? ('<' :: r)).map (tokens ++ ·) := by
  induction t using tokens?.induct generalizing tokens with
  | case1 =>
      rw [tokens?_nil] at read
      obtain rfl := Option.some.inj read
      simp
  | case2 c u token rest found ih =>
      rw [tokens?_of_token? (by simp) found] at read
      obtain ⟨others, later, rfl⟩ := Option.map_eq_some_iff.mp read
      have finished : ¬ token.isUnended := by
        intro unended
        obtain rfl := eq_nil_of_isUnended found unended later
        exact ended token rfl unended
      have step := token?_append (List.cons_ne_nil c u) found finished opens fun b same => by
        by_contra both
        rw [not_or, not_not] at both
        rw [same] at ends
        exact ends.elim (fun unskipped => unskipped (.here both.1)) (fun free => free both.2)
      rw [tokens?_of_token? (by simp) step, ih later _ _, Option.map_map]
      · rfl
      · intro last member
        refine ended last ?_
        rw [List.getLast?_cons, Option.mem_def.mp member]
        rfl
      · exact ends.imp_left fun unskipped skips => unskipped (.later (by simp) found skips)
  | case3 c u failed => simp [tokens?_eq_none (List.cons_ne_nil c u) failed] at read

end LiveTemplate.Markup
