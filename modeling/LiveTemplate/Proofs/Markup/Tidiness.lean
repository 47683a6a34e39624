import LiveTemplate.Proofs.Markup.Rereading
import LiveTemplate.Proofs.Markup.Spelling

namespace LiveTemplate.Markup

structure ElementTidy (tag : Text) (attributes : Attributes) (children : List Node) : Prop where
  named : IsTagName tag
  names : ∀ name ∈ attributes.keys, IsAttributeName name
  distinct : attributes.keys.Nodup
  void : isVoid tag → children = []
  raw : isRaw tag → children = [] ∨ ∃ content, children = [.text content]
  verbatim : isVerbatim tag → ∀ content, .text content ∈ children → HoldsNoRawEnd content

mutual

def Node.Tidy : Node → Prop
  | .text content => content ≠ []
  | .comment content => ¬ "-->".toList <:+: content
  | .element tag attributes children => ElementTidy tag attributes children ∧ AllTidy children

def AllTidy : List Node → Prop
  | [] => True
  | node :: more => node.Tidy ∧ AllTidy more

end

theorem allTidy_iff {nodes : List Node} : AllTidy nodes ↔ ∀ node ∈ nodes, node.Tidy := by
  induction nodes with
  | nil => simp [AllTidy]
  | cons node more ih => rw [AllTidy, ih, List.forall_mem_cons]

mutual

/-- A well-formed tree is tidy; that it stands where it may is what it is more than that. -/
theorem tidy_of_wellFormed {above : List Text} : ∀ {node : Node}, node.WellFormed above → node.Tidy
  | .text _, formed => formed
  | .comment _, formed => formed
  | .element _ _ _, ⟨form, formed⟩ =>
    ⟨{ named := form.named
       names := form.names
       distinct := form.distinct
       void := form.void
       raw := form.raw
       verbatim := form.verbatim }, allTidy_of_allWellFormed formed⟩

theorem allTidy_of_allWellFormed {above : List Text} : ∀ {nodes : List Node},
    AllWellFormed above nodes → AllTidy nodes
  | [], _ => trivial
  | _ :: _, ⟨formed, others⟩ => ⟨tidy_of_wellFormed formed, allTidy_of_allWellFormed others⟩

end

structure OpenElement.Tidy (e : OpenElement) : Prop where
  named : IsTagName e.tag
  names : ∀ name ∈ e.attributes.keys, IsAttributeName name
  distinct : e.attributes.keys.Nodup
  full : ¬ isVoid e.tag
  cooked : ¬ isRaw e.tag
  inner : ∀ node ∈ e.inner, node.Tidy

theorem OpenElement.Tidy.close {e : OpenElement} (tidy : e.Tidy) : e.close.Tidy :=
  ⟨{ named := tidy.named
     names := tidy.names
     distinct := tidy.distinct
     void := fun void => absurd void tidy.full
     raw := fun raw => absurd raw tidy.cooked
     verbatim := fun verbatim => absurd (isRaw_of_isVerbatim verbatim) tidy.cooked },
    allTidy_iff.mpr fun node member => tidy.inner node (List.mem_reverse.mp member)⟩

section Elements

variable {name : Text} {written : WrittenAttributes}

theorem tidy_opened (named : IsWrittenName name) (pairs : AreWritten written)
    (cooked : ¬ isRaw name) (full : ¬ isVoid name.lowerAscii) :
    OpenElement.Tidy ⟨name.lowerAscii, Attributes.ofWritten written, []⟩ where
  named := named.isTagName
  names := (names_ofWritten pairs).1
  distinct := (names_ofWritten pairs).2
  full := full
  cooked := by rwa [isRaw, named.isTagName.lowerAscii, ← isRaw]
  inner := by simp

theorem tidy_childless (named : IsWrittenName name) (pairs : AreWritten written) :
    (Node.element name.lowerAscii (Attributes.ofWritten written) []).Tidy := by
  have alone : (Node.element name.lowerAscii (Attributes.ofWritten written) []).WellFormed [] :=
    wellFormed_childless named pairs fun rule _ => by simp [Shielded]
  exact tidy_of_wellFormed alone

theorem tidy_raw {content : Text} (named : IsWrittenName name) (pairs : AreWritten written)
    (raw : isRaw name) (free : HoldsNoRawEnd content) :
    (Node.element name.lowerAscii (Attributes.ofWritten written)
      (rawChildren name content)).Tidy := by
  have alone : (Node.element name.lowerAscii (Attributes.ofWritten written)
      (rawChildren name content)).merged.WellFormed [] := wellFormed_raw named pairs raw free
  rcases rawChildren_cases name content with childless | ⟨text, one, _⟩
  · rw [childless] at alone ⊢
    exact tidy_of_wellFormed alone
  · rw [one] at alone ⊢
    exact tidy_of_wellFormed alone

end Elements

structure Nesting.Tidy (n : Nesting) : Prop where
  top : ∀ node ∈ n.top, node.Tidy
  opened : ∀ e ∈ n.opened, e.Tidy

namespace Nesting.Tidy

variable {n : Nesting}

theorem add (tidy : n.Tidy) {node : Node} (fits : node.Tidy) : (n.add node).Tidy := by
  rcases n with ⟨top, opened⟩
  cases opened with
  | nil => exact ⟨List.forall_mem_cons.mpr ⟨fits, tidy.top⟩, by simp [Nesting.add]⟩
  | cons e outer =>
      rcases List.forall_mem_cons.mp tidy.opened with ⟨innermost, others⟩
      have inner := List.forall_mem_cons.mpr ⟨fits, innermost.inner⟩
      exact ⟨tidy.top, List.forall_mem_cons.mpr ⟨{ innermost with inner := inner }, others⟩⟩

theorem closeInnermost (tidy : n.Tidy) : n.closeInnermost.Tidy := by
  rcases n with ⟨top, opened⟩
  cases opened with
  | nil => exact tidy
  | cons e outer =>
      rcases List.forall_mem_cons.mp tidy.opened with ⟨innermost, others⟩
      have left : Nesting.Tidy ⟨top, outer⟩ := ⟨tidy.top, others⟩
      exact left.add innermost.close

theorem close (tidy : n.Tidy) (count : Nat) : (n.close count).Tidy := by
  induction count generalizing n with
  | zero => exact tidy
  | succ count ih => exact ih tidy.closeInnermost

theorem foldl_endNearest (tidy : n.Tidy) (rules : List ImpliedEnd) :
    (rules.foldl (fun n rule => n.endNearest rule.targets rule.shields) n).Tidy := by
  induction rules generalizing n with
  | nil => exact tidy
  | cons rule more ih => exact ih (tidy.close _)

theorem startTag (tidy : n.Tidy) {name : Text} {written : WrittenAttributes}
    (named : IsWrittenName name) (pairs : AreWritten written) (cooked : ¬ isRaw name)
    (closed : Bool) :
    (n.startTag name.lowerAscii (Attributes.ofWritten written) closed).Tidy := by
  have ended := tidy.foldl_endNearest (impliedEnds name.lowerAscii)
  rw [Nesting.startTag]
  split
  · exact ended.add (tidy_childless named pairs)
  · rename_i opens
    have full : ¬ isVoid name.lowerAscii := fun void => opens (by simp [void])
    have fresh := tidy_opened named pairs cooked full
    exact ⟨ended.top, List.forall_mem_cons.mpr ⟨fresh, ended.opened⟩⟩

theorem read (tidy : n.Tidy) {token : Token} (source : token.Formed) : (n.read token).Tidy := by
  cases token with
  | text content => exact tidy.add (decode_ne_nil source)
  | comment content => exact tidy.add source
  | doctype => exact tidy
  | startTag name written closed => exact tidy.startTag source.1 source.2.1 source.2.2 closed
  | endTag name => exact tidy.close _
  | raw name written content ended =>
      exact tidy.add (tidy_raw source.1 source.2.1 source.2.2.1 source.2.2.2)

theorem foldl_read (tidy : n.Tidy) {tokens : List Token} (source : ∀ token ∈ tokens, token.Formed) :
    (tokens.foldl Nesting.read n).Tidy := by
  induction tokens generalizing n with
  | nil => exact tidy
  | cons token more ih =>
      exact ih (tidy.read (source token List.mem_cons_self)) fun other later =>
        source other (List.mem_cons_of_mem token later)

end Nesting.Tidy

theorem allTidy_nodesOfTokens {tokens : List Token} (source : ∀ token ∈ tokens, token.Formed) :
    AllTidy (nodesOfTokens tokens) := by
  have start : Nesting.Tidy {} := ⟨by simp, by simp⟩
  refine allTidy_iff.mpr fun node member => ?_
  exact ((start.foldl_read source).close _).top node (List.mem_reverse.mp member)

def Content.element? : Content → Option (Text × Attributes)
  | .element tag attributes => some (tag, attributes)
  | _ => none

def Token.beginning? : Token → Option (Text × WrittenAttributes)
  | .startTag name written _ => some (name, written)
  | .raw name written _ _ => some (name, written)
  | _ => none

def elementsAll (nodes : List Node) : List (Text × Attributes) :=
  (outlineAll 0 nodes).filterMap (·.content.element?)

/-- An attribute has the value of the first one of its name in a tag, and none is there without one
in the tag. -/
def Attributes.AreFirsts (attributes : Attributes) (written : WrittenAttributes) : Prop :=
  ∀ name, attributes.get? name =
    (written.find? (·.1.lowerAscii = name)).map fun entry => decode entry.2

theorem filterMap_element?_emit (names : NameStack) (token : Token) :
    ((NameStack.emit names token).map (·.content)).filterMap Content.element? =
      (token.beginning?.map fun (name, written) =>
        (name.lowerAscii, ⟨NameStack.firstWritten written⟩)).toList := by
  cases token with
  | raw name written content ended =>
      rw [NameStack.emit]
      split <;> rfl
  | _ => rfl

theorem elementsAll_nodesOfTokens (tokens : List Token) : elementsAll (nodesOfTokens tokens) =
    (tokens.filterMap Token.beginning?).map fun (name, written) =>
      (name.lowerAscii, ⟨NameStack.firstWritten written⟩) := by
  have outline : elementsAll (nodesOfTokens tokens) =
      ((NameStack.emitAll [] tokens).map (·.content)).filterMap Content.element? := by
    have lines := map_line_locatedAll [] (nodesOfTokens tokens)
    rw [locatedAll_nodesOfTokens] at lines
    rw [elementsAll, ← List.length_nil (α := Text), ← lines, List.filterMap_map,
      List.filterMap_map]
    rfl
  rw [outline, NameStack.map_content_emitAll, List.filterMap_flatMap]
  simp only [filterMap_element?_emit, ← List.filterMap_eq_flatMap_toList, List.map_filterMap]

/-- All that is read from a source is tidy, and its elements are those that the tags in the source
begin, each with the lower-case name of its tag and with the first attribute of every name. -/
theorem tidy_of_parse? {source : Text} {nodes : List Node} (read : parse? source = some nodes) :
    AllTidy nodes ∧ ∃ tokens, SpellsAll source tokens ∧
      List.Forall₂ (fun (tag, attributes) (name, written) =>
          tag = Text.lowerAscii name ∧ Attributes.AreFirsts attributes written)
        (elementsAll nodes) (tokens.filterMap Token.beginning?) := by
  obtain ⟨tokens, found, rfl⟩ := Option.map_eq_some_iff.mp read
  refine ⟨allTidy_nodesOfTokens (tokens?_formed found), tokens, spellsAll_of_tokens? found, ?_⟩
  rw [elementsAll_nodesOfTokens, List.forall₂_map_left_iff]
  refine List.forall₂_same.mpr fun entry _ => ⟨rfl, ?_⟩
  rw [← NameStack.ofWritten_eq]
  exact get?_ofWritten entry.2

/-- An attribute given twice and one without a value, a void element, and a script. -/
def untidyMarkup : Text :=
  "<P ID=1 #x id='2'>a&amp;<BR/><!-- - --><li>b<Script A=\"&lt;\">1</p</script >".toList

theorem tidy_of_parse?_untidy : ∃ nodes, parse? untidyMarkup = some nodes ∧
    elementsAll nodes = [("p".toList, ⟨[("id".toList, "1".toList), ("#x".toList, [])]⟩),
      ("br".toList, {}), ("li".toList, {}), ("script".toList, ⟨[("a".toList, "<".toList)]⟩)] ∧
    AllTidy nodes ∧ ∃ tokens, SpellsAll untidyMarkup tokens ∧
      List.Forall₂ (fun (tag, attributes) (name, written) =>
          tag = Text.lowerAscii name ∧ Attributes.AreFirsts attributes written)
        (elementsAll nodes) (tokens.filterMap Token.beginning?) := by
  have elements : (parse? untidyMarkup).map elementsAll =
      some [("p".toList, ⟨[("id".toList, "1".toList), ("#x".toList, [])]⟩),
        ("br".toList, {}), ("li".toList, {}), ("script".toList, ⟨[("a".toList, "<".toList)]⟩)] := by
    decide +kernel
  rcases Option.map_eq_some_iff.mp elements with ⟨nodes, read, same⟩
  exact ⟨nodes, read, same, tidy_of_parse? read⟩

end LiveTemplate.Markup
