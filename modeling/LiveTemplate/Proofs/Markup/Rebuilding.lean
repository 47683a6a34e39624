import LiveTemplate.Proofs.Markup.Tokens

namespace LiveTemplate.Markup

namespace Nesting

theorem tags_add (n : Nesting) (node : Node) : (n.add node).tags = n.tags := by
  rw [add]
  split <;> simp_all [tags]

theorem startTag_of_shielded {n : Nesting} {tag : Text}
    (shielded : ∀ rule ∈ impliedEnds tag, Shielded rule n.tags) (attributes : Attributes)
    (closed : Bool) : n.startTag tag attributes closed =
      if closed || isVoid tag then n.add (.element tag attributes [])
      else { n with opened := ⟨tag, attributes, []⟩ :: n.opened } := by
  have kept : (impliedEnds tag).foldl (fun n rule => n.endNearest rule.targets rule.shields) n =
      n := by
    revert shielded
    generalize impliedEnds tag = rules
    intro shielded
    induction rules with
    | nil => rfl
    | cons rule more ih =>
        have unmoved : n.endNearest rule.targets rule.shields = n := by
          rw [endNearest, reach?_eq_none_iff.mpr (shielded rule List.mem_cons_self)]
          rfl
        rw [List.foldl_cons, unmoved]
        exact ih fun rule member => shielded rule (List.mem_cons_of_mem _ member)
  rw [startTag, kept]

theorem endTag_innermost (top : List Node) (e : OpenElement) (outer : List OpenElement) :
    endTag ⟨top, e :: outer⟩ e.tag = add ⟨top, outer⟩ e.close := by
  have innermost : reach? [e.tag] [] (e.tag :: outer.map (·.tag)) = some 1 := by simp [reach?]
  rw [endTag, endNearest, tags, List.map_cons, innermost]
  rfl

theorem foldl_add_top (top nodes : List Node) :
    nodes.foldl add ⟨top, []⟩ = ⟨nodes.reverse ++ top, []⟩ := by
  induction nodes generalizing top with
  | nil => rfl
  | cons node more ih =>
      rw [List.foldl_cons, add, ih]
      simp

theorem foldl_add_opened (top : List Node) (e : OpenElement) (outer : List OpenElement)
    (nodes : List Node) : nodes.foldl add ⟨top, e :: outer⟩ =
      ⟨top, { e with inner := nodes.reverse ++ e.inner } :: outer⟩ := by
  induction nodes generalizing e with
  | nil => rfl
  | cons node more ih =>
      rw [List.foldl_cons, add, ih]
      simp

end Nesting

theorem foldl_insertNew (l : List (Text × Text)) : ∀ known : Attributes,
    (known.keys ++ l.map (·.1)).Nodup →
    l.foldl (fun known (name, value) => known.insertNew name value) known =
      ⟨known.entries ++ l⟩ := by
  induction l with
  | nil => simp
  | cons entry more ih =>
      rcases entry with ⟨name, value⟩
      intro known distinct
      have fresh : name ∉ known.keys := fun member =>
        (List.nodup_append.mp distinct).2.2 name member name (by simp) rfl
      rw [List.foldl_cons]
      dsimp only
      rw [known.insertNew_of_not_mem fresh, ih]
      · simp
      · simpa [Table.keys] using distinct

theorem foldl_written (l : List (Text × Text)) (named : ∀ entry ∈ l, IsAttributeName entry.1) :
    ∀ known : Attributes, (l.map fun (name, value) => (name, escapedValue value)).foldl
      (fun known (name, value) => known.insertNew name.lowerAscii (decode value)) known =
    l.foldl (fun known (name, value) => known.insertNew name value) known := by
  induction l with
  | nil => intro known; rfl
  | cons entry more ih =>
      rcases entry with ⟨name, value⟩
      intro known
      have lower := lowerAscii_of_small (named (name, value) List.mem_cons_self).small
      have others := ih fun other member => named other (List.mem_cons_of_mem _ member)
      rw [List.map_cons, List.foldl_cons, List.foldl_cons]
      dsimp only
      rw [lower, decode_escapedValue]
      exact others _

theorem ofWritten_writtenPairs {attributes : Attributes}
    (names : ∀ name ∈ attributes.keys, IsAttributeName name) (distinct : attributes.keys.Nodup) :
    Attributes.ofWritten (writtenPairs attributes) = attributes := by
  have named : ∀ entry ∈ attributes.entries, IsAttributeName entry.1 :=
    fun entry member => names entry.1 (List.mem_map_of_mem member)
  calc
    Attributes.ofWritten (writtenPairs attributes) =
        attributes.entries.foldl (fun known (name, value) => known.insertNew name value) {} :=
      foldl_written attributes.entries named {}
    _ = attributes := foldl_insertNew attributes.entries {} distinct

theorem rawChildren_writtenAll {above : List Text} {tag : Text} {attributes : Attributes}
    {children : List Node} (form : ElementForm above tag attributes children) (raw : isRaw tag)
    (formed : AllWellFormed (tag :: above) children) :
    rawChildren tag (writtenAll (isVerbatim tag) children) = children := by
  rcases form.raw raw with rfl | ⟨content, rfl⟩
  · rfl
  · have nonempty : content ≠ [] := formed.1
    rw [rawChildren, writtenAll, writtenAll, List.append_nil, Node.written, writtenText]
    by_cases verbatim : isVerbatim tag
    · simp [verbatim, nonempty]
    · simp [verbatim, escapedText_ne_nil nonempty, decode_escapedText]

mutual

/-- Reading the tokens of a well-formed tree puts the tree into the innermost open element. -/
theorem foldl_read_tokens : ∀ {node : Node} {n : Nesting}, node.WellFormed n.tags →
    node.tokens.foldl Nesting.read n = n.add node
  | .text content, n, _ => by
      simp [Node.tokens, Nesting.read, decode_escapedText]
  | .comment content, n, _ => rfl
  | .element tag attributes children, n, ⟨form, formed⟩ => by
      have lower := form.named.lowerAscii
      have pairs := ofWritten_writtenPairs form.names form.distinct
      have start := Nesting.startTag_of_shielded form.shielded attributes false
      rw [Node.tokens]
      split_ifs with raw void
      · simp [Nesting.read, lower, pairs, rawChildren_writtenAll form raw formed]
      · simp [Nesting.read, lower, pairs, start, void, form.void void]
      · -- the children are read while their element is open, and its end tag then closes it
        have opening : n.read (.startTag tag (writtenPairs attributes) false) =
            ⟨n.top, ⟨tag, attributes, []⟩ :: n.opened⟩ := by
          simp [Nesting.read, lower, pairs, start, void]
        have inner : (tokensAll children).foldl Nesting.read ⟨n.top, ⟨tag, attributes, []⟩ ::
            n.opened⟩ = ⟨n.top, ⟨tag, attributes, children.reverse ++ []⟩ :: n.opened⟩ := by
          rw [foldl_read_tokensAll, Nesting.foldl_add_opened]
          exact formed
        have closed : OpenElement.close ⟨tag, attributes, children.reverse ++ []⟩ =
            .element tag attributes children := by simp [OpenElement.close]
        calc
          (Token.startTag tag (writtenPairs attributes) false :: tokensAll children ++
              [Token.endTag tag]).foldl Nesting.read n =
              ((tokensAll children).foldl Nesting.read
                ⟨n.top, ⟨tag, attributes, []⟩ :: n.opened⟩).read (.endTag tag) := by
            rw [List.cons_append, List.foldl_cons, opening, List.foldl_append]
            rfl
          _ = Nesting.endTag ⟨n.top, ⟨tag, attributes, children.reverse ++ []⟩ :: n.opened⟩ tag := by
            rw [inner, Nesting.read, lower]
          _ = n.add (.element tag attributes children) := by
            rw [← closed]
            exact Nesting.endTag_innermost n.top ⟨tag, attributes, children.reverse ++ []⟩ n.opened

theorem foldl_read_tokensAll : ∀ {nodes : List Node} {n : Nesting}, AllWellFormed n.tags nodes →
    (tokensAll nodes).foldl Nesting.read n = nodes.foldl Nesting.add n
  | [], _, _ => rfl
  | node :: more, n, ⟨first, others⟩ => by
      rw [tokensAll, List.foldl_append, foldl_read_tokens first, List.foldl_cons]
      apply foldl_read_tokensAll
      rw [Nesting.tags_add]
      exact others

end

theorem nodesOfTokens_tokensAll {nodes : List Node} (formed : AllWellFormed [] nodes) :
    nodesOfTokens (tokensAll nodes) = nodes := by
  have read : (tokensAll nodes).foldl Nesting.read {} = nodes.foldl Nesting.add {} :=
    foldl_read_tokensAll formed
  rw [nodesOfTokens, read, Nesting.foldl_add_top]
  simp [Nesting.finish, Nesting.close]

end LiveTemplate.Markup
