import LiveTemplate.Proofs.Markup.Merging
import LiveTemplate.Proofs.Markup.RoundTrip
import LiveTemplate.Proofs.Markup.Shielding

namespace LiveTemplate.Markup

open NameStack

/-- A place that takes an element whatever its children are, so long as no two texts are adjacent
among them. -/
def Fits (above : List Text) (tag : Text) (attributes : Attributes) : Prop :=
  ∀ children : List Node, TextsApart children → ElementForm above tag attributes children

structure OpenElement.Formed (above : List Text) (e : OpenElement) : Prop where
  fits : Fits above e.tag e.attributes
  inner : ∀ node ∈ e.inner, node.merged.WellFormed (e.tag :: above)

def AllOpenFormed : List OpenElement → Prop
  | [] => True
  | e :: outer => e.Formed (outer.map (·.tag)) ∧ AllOpenFormed outer

structure Nesting.Formed (n : Nesting) : Prop where
  top : ∀ node ∈ n.top, node.merged.WellFormed []
  opened : AllOpenFormed n.opened

theorem OpenElement.Formed.close {above : List Text} {e : OpenElement} (formed : e.Formed above) :
    e.close.merged.WellFormed above := by
  refine ⟨formed.fits _ (textsApart_mergedAll _), allWellFormed_mergedAll fun node member => ?_⟩
  exact formed.inner node (List.mem_reverse.mp member)

section Elements

variable {above : List Text} {name : Text} {written : WrittenAttributes}

theorem fits_of_written (named : IsWrittenName name) (pairs : AreWritten written)
    (cooked : ¬ isRaw name) (full : ¬ isVoid name.lowerAscii)
    (shielded : ∀ rule ∈ impliedEnds name.lowerAscii, Shielded rule above) :
    Fits above name.lowerAscii (Attributes.ofWritten written) := by
  have lower := named.isTagName.lowerAscii
  have still : ¬ isRaw name.lowerAscii := by rwa [isRaw, lower, ← isRaw]
  intro children apart
  exact {
    named := named.isTagName
    names := (names_ofWritten pairs).1
    distinct := (names_ofWritten pairs).2
    void := fun void => absurd void full
    raw := fun raw => absurd raw still
    verbatim := fun verbatim => absurd (isRaw_of_isVerbatim verbatim) still
    shielded := shielded
    apart := apart }

theorem wellFormed_childless (named : IsWrittenName name) (pairs : AreWritten written)
    (shielded : ∀ rule ∈ impliedEnds name.lowerAscii, Shielded rule above) :
    (Node.element name.lowerAscii (Attributes.ofWritten written) []).merged.WellFormed above :=
  ⟨{ named := named.isTagName
     names := (names_ofWritten pairs).1
     distinct := (names_ofWritten pairs).2
     void := fun _ => rfl
     raw := fun _ => .inl rfl
     verbatim := by simp [mergedAll]
     shielded := shielded
     apart := .nil }, trivial⟩

theorem rawChildren_cases (tag content : Text) : rawChildren tag content = [] ∨
    ∃ text, rawChildren tag content = [.text text] ∧ text ≠ [] ∧
      (isVerbatim tag → text = content) := by
  rw [rawChildren]
  split_ifs with empty verbatim
  · exact .inl rfl
  · exact .inr ⟨content, rfl, by simpa using empty, fun _ => rfl⟩
  · exact .inr ⟨decode content, rfl, decode_ne_nil (by simpa using empty),
      fun also => absurd also verbatim⟩

theorem wellFormed_raw {content : Text} (named : IsWrittenName name) (pairs : AreWritten written)
    (raw : isRaw name) (free : HoldsNoRawEnd content) :
    (Node.element name.lowerAscii (Attributes.ofWritten written)
      (rawChildren name content)).merged.WellFormed above := by
  have lower := named.isTagName.lowerAscii
  have full : ¬ isVoid name.lowerAscii := fun void =>
    not_isRaw_of_isVoid void (by rwa [isRaw, lower, ← isRaw])
  have unruled := (unruled_of_isRaw raw).1
  rcases rawChildren_cases name content with childless | ⟨text, one, nonempty, same⟩
  · rw [childless]
    exact wellFormed_childless named pairs (by simp [unruled])
  · rw [one]
    refine ⟨?_, nonempty, trivial⟩
    exact {
      named := named.isTagName
      names := (names_ofWritten pairs).1
      distinct := (names_ofWritten pairs).2
      void := fun void => absurd void full
      raw := fun _ => .inr ⟨text, rfl⟩
      verbatim := by
        intro verbatim other member
        rw [isVerbatim, lower, ← isVerbatim] at verbatim
        obtain rfl : other = text := Node.text.inj (List.mem_singleton.mp member)
        exact same verbatim ▸ free
      shielded := by simp [unruled]
      apart := .singleton _ }

end Elements

namespace Nesting.Formed

variable {n : Nesting}

theorem add (formed : n.Formed) {node : Node} (fits : node.merged.WellFormed n.tags) :
    (n.add node).Formed := by
  rcases n with ⟨top, opened⟩
  cases opened with
  | nil => exact ⟨List.forall_mem_cons.mpr ⟨fits, formed.top⟩, trivial⟩
  | cons e outer =>
      rcases formed.opened with ⟨innermost, others⟩
      exact ⟨formed.top, ⟨innermost.fits, List.forall_mem_cons.mpr ⟨fits, innermost.inner⟩⟩, others⟩

theorem closeInnermost (formed : n.Formed) : n.closeInnermost.Formed := by
  rcases n with ⟨top, opened⟩
  cases opened with
  | nil => exact formed
  | cons e outer =>
      have left : Nesting.Formed ⟨top, outer⟩ := ⟨formed.top, formed.opened.2⟩
      exact left.add formed.opened.1.close

theorem close (formed : n.Formed) (count : Nat) : (n.close count).Formed := by
  induction count generalizing n with
  | zero => exact formed
  | succ count ih => exact ih formed.closeInnermost

theorem foldl_endNearest (formed : n.Formed) (rules : List ImpliedEnd) :
    (rules.foldl (fun n rule => n.endNearest rule.targets rule.shields) n).Formed := by
  induction rules generalizing n with
  | nil => exact formed
  | cons rule more ih => exact ih (formed.close _)

theorem startTag (formed : n.Formed) (guarded : Guarded n.tags) {name : Text}
    {written : WrittenAttributes} (named : IsWrittenName name) (pairs : AreWritten written)
    (cooked : ¬ isRaw name) (ungrouped : name.lowerAscii ≠ "optgroup".toList) (closed : Bool) :
    (n.startTag name.lowerAscii (Attributes.ofWritten written) closed).Formed := by
  have ended := formed.foldl_endNearest (impliedEnds name.lowerAscii)
  have tags := (Nesting.foldl_endNearest (n := n) (impliedEnds name.lowerAscii)).2
  rw [← implied_eq_foldl] at tags
  have shielded := guarded.shielded_implied name.lowerAscii
  rw [keptRules, if_neg ungrouped, ← tags] at shielded
  rw [Nesting.startTag]
  split
  · exact ended.add (wellFormed_childless named pairs shielded)
  · rename_i opens
    have full : ¬ isVoid name.lowerAscii := fun void => opens (by simp [void])
    have fits := fits_of_written named pairs cooked full shielded
    exact ⟨ended.top, ⟨fits, by simp⟩, ended.opened⟩

theorem read (formed : n.Formed) (guarded : Guarded n.tags) {token : Token}
    (source : token.Formed) (ungrouped : ∀ l ∈ emit n.tags token, ∀ attributes,
      l.content ≠ .element "optgroup".toList attributes) : (n.read token).Formed := by
  cases token with
  | text content => exact formed.add (decode_ne_nil source)
  | comment content => exact formed.add source
  | doctype => exact formed
  | startTag name written closed =>
      refine formed.startTag guarded source.1 source.2.1 source.2.2 (fun group => ?_) closed
      exact ungrouped _ (List.mem_singleton_self _) ⟨firstWritten written⟩ (by simp [group])
  | endTag name => exact formed.close _
  | raw name written content ended =>
      exact formed.add (wellFormed_raw source.1 source.2.1 source.2.2.1 source.2.2.2)

theorem foldl_read {tokens : List Token} (formed : n.Formed) (guarded : Guarded n.tags)
    (source : ∀ token ∈ tokens, token.Formed) (ungrouped : ∀ l ∈ emitAll n.tags tokens,
      ∀ attributes, l.content ≠ .element "optgroup".toList attributes) :
    (tokens.foldl Nesting.read n).Formed := by
  induction tokens generalizing n with
  | nil => exact formed
  | cons token more ih =>
      have first := formed.read guarded (source token List.mem_cons_self) fun l member =>
        ungrouped l (List.mem_append_left _ member)
      have names := (Nesting.read_located (n := n) token).2
      rw [List.foldl_cons]
      refine ih first (names ▸ guarded.after token) ?_ ?_
      · exact fun other later => source other (List.mem_cons_of_mem token later)
      · intro l member
        rw [names] at member
        exact ungrouped l (List.mem_append_right _ member)

end Nesting.Formed

/-- Trees without groups of options are well-formed once their texts are merged, whatever markup they
were read from. -/
theorem allWellFormed_of_parse? {source : Text} {nodes : List Node}
    (read : parse? source = some nodes) (ungrouped : ∀ line ∈ outlineAll 0 nodes, ∀ attributes,
      line.content ≠ .element "optgroup".toList attributes) :
    AllWellFormed [] (mergedAll nodes) := by
  obtain ⟨tokens, found, rfl⟩ := Option.map_eq_some_iff.mp read
  have start : Nesting.Formed {} := ⟨by simp, trivial⟩
  have ungrouped : ∀ l ∈ emitAll [] tokens, ∀ attributes,
      l.content ≠ .element "optgroup".toList attributes := by
    intro l member
    rw [← locatedAll_nodesOfTokens] at member
    refine ungrouped l.line ?_
    have lines := map_line_locatedAll [] (nodesOfTokens tokens)
    exact lines ▸ List.mem_map_of_mem member
  have built : (tokens.foldl Nesting.read {}).Formed :=
    start.foldl_read trivial (tokens?_formed found) ungrouped
  refine allWellFormed_mergedAll fun node member => ?_
  exact (built.close _).top node (List.mem_reverse.mp member)

/-- Trees without groups of options, planted one after another in a document and written, are read
again as they were, but with every run of adjacent texts one text; written and read once more they
stay the same. -/
theorem parse?_plantedMarkup_of_parse? {source : Text} {nodes : List Node}
    (read : parse? source = some nodes) (ungrouped : ∀ line ∈ outlineAll 0 nodes, ∀ attributes,
      line.content ≠ .element "optgroup".toList attributes) (d : Document) :
    parse? (d.plantedMarkup nodes) = some (mergedAll nodes) ∧
      parse? (d.plantedMarkup (mergedAll nodes)) = some (mergedAll nodes) := by
  have again : parse? (writtenAll false (mergedAll nodes)) = some (mergedAll nodes) :=
    parse?_writtenAll (allWellFormed_of_parse? read ungrouped) (textsApart_mergedAll nodes)
  rw [Document.plantedMarkup_eq, Document.plantedMarkup_eq]
  exact ⟨writtenAll_mergedAll false nodes ▸ again, again⟩

/-- Texts around a doctype and a stray end tag, an attribute given twice, a paragraph that a list item
ends, and a script without an end. -/
def looseMarkup : Text :=
  "a<!doctype>b<P ID=1 id=2>c</x>d<li>e&lt<br/><script>1<2</".toList

def looseOutline : List OutlineLine :=
  [⟨0, .text "a".toList⟩, ⟨0, .text "b".toList⟩,
    ⟨0, .element "p".toList ⟨[("id".toList, "1".toList)]⟩⟩, ⟨1, .text "c".toList⟩,
    ⟨1, .text "d".toList⟩, ⟨0, .element "li".toList {}⟩, ⟨1, .text "e&lt".toList⟩,
    ⟨1, .element "br".toList {}⟩, ⟨1, .element "script".toList {}⟩, ⟨2, .text "1<2</".toList⟩]

def looseMergedOutline : List OutlineLine :=
  [⟨0, .text "ab".toList⟩, ⟨0, .element "p".toList ⟨[("id".toList, "1".toList)]⟩⟩,
    ⟨1, .text "cd".toList⟩, ⟨0, .element "li".toList {}⟩, ⟨1, .text "e&lt".toList⟩,
    ⟨1, .element "br".toList {}⟩, ⟨1, .element "script".toList {}⟩, ⟨2, .text "1<2</".toList⟩]

theorem parse?_plantedMarkup_of_parse?_loose : ∃ nodes, parse? looseMarkup = some nodes ∧
    outlineAll 0 nodes = looseOutline ∧ outlineAll 0 (mergedAll nodes) = looseMergedOutline ∧
    parse? (Document.plantedMarkup {} nodes) = some (mergedAll nodes) ∧
    parse? (Document.plantedMarkup {} (mergedAll nodes)) = some (mergedAll nodes) := by
  have outlines : (parse? looseMarkup).map
      (fun nodes => (outlineAll 0 nodes, outlineAll 0 (mergedAll nodes))) =
      some (looseOutline, looseMergedOutline) := by decide +kernel
  rcases Option.map_eq_some_iff.mp outlines with ⟨nodes, read, same⟩
  rcases Prod.mk.inj same with ⟨outline, merged⟩
  have ungrouped : ∀ line ∈ outlineAll 0 nodes, ∀ attributes,
      line.content ≠ .element "optgroup".toList attributes := by simp [outline, looseOutline]
  exact ⟨nodes, read, outline, merged, parse?_plantedMarkup_of_parse? read ungrouped {}⟩

end LiveTemplate.Markup
