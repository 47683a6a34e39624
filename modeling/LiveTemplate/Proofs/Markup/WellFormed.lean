import LiveTemplate.Proofs.Markup.Scanning
import LiveTemplate.Markup.Fragment

namespace LiveTemplate.Markup

def Node.isText : Node → Bool
  | .text _ => true
  | _ => false

/-- Walking outwards, no target is met before a shield. -/
def Shielded (rule : ImpliedEnd) (above : List Text) : Prop :=
  ∀ inner target outer, above = inner ++ target :: outer → target ∈ rule.targets →
    ∃ tag ∈ inner, tag ∈ rule.shields

/-- What holds of an element by itself, in elements with the tags `above`, the innermost first. -/
structure ElementForm (above : List Text) (tag : Text) (attributes : Attributes)
    (children : List Node) : Prop where
  named : IsTagName tag
  names : ∀ name ∈ attributes.keys, IsAttributeName name
  distinct : attributes.keys.Nodup
  void : isVoid tag → children = []
  raw : isRaw tag → children = [] ∨ ∃ content, children = [.text content]
  verbatim : isVerbatim tag → ∀ content, .text content ∈ children → HoldsNoRawEnd content
  shielded : ∀ rule ∈ impliedEnds tag, Shielded rule above
  apart : children.IsChain fun first second => ¬ (first.isText ∧ second.isText)

abbrev TextsApart (nodes : List Node) : Prop :=
  nodes.IsChain fun first second => ¬ (first.isText ∧ second.isText)

mutual

/-- A tree that can stand in elements with the tags `above`, the innermost first. -/
def Node.WellFormed (above : List Text) : Node → Prop
  | .text content => content ≠ []
  | .comment content => ¬ "-->".toList <:+: content
  | .element tag attributes children =>
    ElementForm above tag attributes children ∧ AllWellFormed (tag :: above) children

def AllWellFormed (above : List Text) : List Node → Prop
  | [] => True
  | node :: more => node.WellFormed above ∧ AllWellFormed above more

end

theorem shielded_cons {rule : ImpliedEnd} {tag : Text} {outer : List Text} :
    Shielded rule (tag :: outer) ↔
      tag ∉ rule.targets ∧ (tag ∈ rule.shields ∨ Shielded rule outer) := by
  constructor
  · intro shielded
    have free : tag ∉ rule.targets := fun target => by
      rcases shielded [] tag outer rfl target with ⟨_, inside, _⟩
      simp at inside
    refine ⟨free, ?_⟩
    by_cases shield : tag ∈ rule.shields
    · exact .inl shield
    · refine .inr fun inner target rest same member => ?_
      obtain ⟨found, inside, shields⟩ := shielded (tag :: inner) target rest (by simp [same]) member
      rcases List.mem_cons.mp inside with rfl | later
      · exact absurd shields shield
      · exact ⟨found, later, shields⟩
  · rintro ⟨free, others⟩ inner target rest same member
    cases inner with
    | nil =>
        obtain ⟨rfl, _⟩ : tag = target ∧ outer = rest := by simpa using same
        exact absurd member free
    | cons first inner =>
        obtain ⟨rfl, rfl⟩ : tag = first ∧ outer = inner ++ target :: rest := by simpa using same
        rcases others with shield | shielded
        · exact ⟨tag, List.mem_cons_self, shield⟩
        · rcases shielded inner target rest rfl member with ⟨found, inside, shields⟩
          exact ⟨found, List.mem_cons_of_mem _ inside, shields⟩

/-- An implied end finds nothing to end exactly if every target is shielded. -/
theorem reach?_eq_none_iff {rule : ImpliedEnd} {above : List Text} :
    Nesting.reach? rule.targets rule.shields above = none ↔ Shielded rule above := by
  induction above with
  | nil => simp [Nesting.reach?, Shielded]
  | cons tag outer ih =>
      rw [shielded_cons, ← ih, Nesting.reach?]
      by_cases target : tag ∈ rule.targets
      · simp [target]
      · by_cases shield : tag ∈ rule.shields
        · simp [target, shield]
        · simp [target, shield]

instance (rule : ImpliedEnd) (above : List Text) : Decidable (Shielded rule above) :=
  decidable_of_iff _ reach?_eq_none_iff

theorem isTagChar_of_isRaw {name : Text} (raw : isRaw name) : ∀ c ∈ name, isTagChar c := by
  intro c member
  have small : rawTags.all (·.all Char.isLower) := by decide
  simp only [List.all_eq_true] at small
  rw [isRaw, List.contains_iff_mem] at raw
  have lower : c.toLower.isLower := small _ raw _ (List.mem_map_of_mem member)
  rw [Char.isLower_toLower_eq_isAlpha] at lower
  simp [isTagChar, Char.isAlphanum, lower]

theorem holdsNoRawEnd_iff {content : Text} :
    HoldsNoRawEnd content ↔ ∀ t ∈ content.tails, endsRaw t = false := by
  constructor
  · intro free t member
    by_contra ends
    rw [Bool.not_eq_false] at ends
    rcases endsRaw_eq_true_iff.mp ends with ⟨r, rfl, raw⟩
    rcases (List.mem_tails _ _).mp member with ⟨before, same⟩
    obtain ⟨c, rest, stop, goes⟩ := free before (r.takeWhile isTagChar) (r.dropWhile isTagChar)
      (by simp [← same]) raw
    have first := List.head?_dropWhile_not isTagChar r
    rw [stop] at first
    simp [goes] at first
  · intro never before name after same raw
    have ends := never ('<' :: '/' :: (name ++ after))
      ((List.mem_tails _ _).mpr ⟨before, by simp [same]⟩)
    by_contra stops
    have head : after.head?.all (!isTagChar ·) := by
      cases after with
      | nil => rfl
      | cons c more => simpa using fun goes => stops ⟨c, more, rfl, goes⟩
    have found : endsRaw ('<' :: '/' :: (name ++ after)) :=
      endsRaw_eq_true_iff.mpr ⟨_, rfl, by rwa [takeWhile_of_stop (isTagChar_of_isRaw raw) head]⟩
    simp [found] at ends

instance (content : Text) : Decidable (HoldsNoRawEnd content) :=
  decidable_of_iff _ holdsNoRawEnd_iff.symm

instance : ∀ tag, Decidable (IsTagName tag)
  | [] => isFalse id
  | c :: r => decidable_of_iff (c.isLower ∧
      r.all fun x => x.isLower || (x.isDigit || ['-', '_', ':', '.'].contains x))
    (by simp only [IsTagName, List.all_eq_true, Bool.or_eq_true, List.contains_iff_mem])

instance (name : Text) : Decidable (IsAttributeName name) :=
  decidable_of_iff (name ≠ [] ∧ name.all (fun c => !c.isUpper) ∧ name.all isNameChar) <| by
    simp only [List.all_eq_true, Bool.not_eq_true', isNameChar_iff]
    constructor
    · rintro ⟨nonempty, small, plain⟩
      exact ⟨nonempty, by simpa using small, plain⟩
    · intro named
      exact ⟨named.nonempty, by simpa using named.small, named.plain⟩

def Node.text? : Node → Option Text
  | .text content => some content
  | _ => none

theorem Node.text?_eq_some_iff {node : Node} {content : Text} :
    node.text? = some content ↔ node = .text content := by
  cases node <;> simp [Node.text?]

instance (children : List Node) : Decidable (∃ content, children = [.text content]) :=
  match children with
  | [.text content] => isTrue ⟨content, rfl⟩
  | [] | [.comment _] | [.element _ _ _] | _ :: _ :: _ => isFalse (by simp)

instance (p : Text → Prop) [DecidablePred p] (children : List Node) :
    Decidable (∀ content, .text content ∈ children → p content) :=
  decidable_of_iff (∀ node ∈ children, ∀ content ∈ node.text?, p content) <| by
    constructor
    · intro all content member
      exact all _ member content rfl
    · intro all node member content same
      exact all content (Node.text?_eq_some_iff.mp same ▸ member)

instance (above : List Text) (tag : Text) (attributes : Attributes) (children : List Node) :
    Decidable (ElementForm above tag attributes children) :=
  decidable_of_iff (IsTagName tag ∧ (∀ name ∈ attributes.keys, IsAttributeName name) ∧
      attributes.keys.Nodup ∧ (isVoid tag → children = []) ∧
      (isRaw tag → children = [] ∨ ∃ content, children = [.text content]) ∧
      (isVerbatim tag → ∀ content, .text content ∈ children → HoldsNoRawEnd content) ∧
      (∀ rule ∈ impliedEnds tag, Shielded rule above) ∧
      children.IsChain fun first second => ¬ (first.isText ∧ second.isText))
    ⟨fun ⟨named, names, distinct, void, raw, verbatim, shielded, apart⟩ =>
        ⟨named, names, distinct, void, raw, verbatim, shielded, apart⟩,
      fun ⟨named, names, distinct, void, raw, verbatim, shielded, apart⟩ =>
        ⟨named, names, distinct, void, raw, verbatim, shielded, apart⟩⟩

mutual

def Node.decideWellFormed (above : List Text) : ∀ node : Node, Decidable (node.WellFormed above)
  | .text content => inferInstanceAs (Decidable (content ≠ []))
  | .comment content => inferInstanceAs (Decidable (¬ "-->".toList <:+: content))
  | .element tag attributes children =>
    have := decideAllWellFormed (tag :: above) children
    inferInstanceAs (Decidable (ElementForm above tag attributes children ∧
      AllWellFormed (tag :: above) children))

def decideAllWellFormed (above : List Text) : ∀ nodes, Decidable (AllWellFormed above nodes)
  | [] => isTrue trivial
  | node :: more =>
    have := node.decideWellFormed above
    have := decideAllWellFormed above more
    inferInstanceAs (Decidable (node.WellFormed above ∧ AllWellFormed above more))

end

instance (above : List Text) (node : Node) : Decidable (node.WellFormed above) :=
  node.decideWellFormed above

end LiveTemplate.Markup
