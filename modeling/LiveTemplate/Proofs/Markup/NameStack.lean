import LiveTemplate.Proofs.Markup.Rebuilding

/-! Trees are built as a plain stack of tag names says: every token gives its nodes in order, as deep
as the stack is high then, and closing elements late or early loses, doubles and moves nothing. -/

namespace LiveTemplate.Markup

structure Located where
  above : List Text
  content : Content
  deriving DecidableEq, Repr

def Located.line (l : Located) : OutlineLine :=
  ⟨l.above.length, l.content⟩

mutual

def Node.located (above : List Text) : Node → List Located
  | .text content => [⟨above, .text content⟩]
  | .comment content => [⟨above, .comment content⟩]
  | .element tag attributes children =>
    ⟨above, .element tag attributes⟩ :: locatedAll (tag :: above) children

def locatedAll (above : List Text) : List Node → List Located
  | [] => []
  | node :: more => node.located above ++ locatedAll above more

end

mutual

theorem map_line_located (above : List Text) : ∀ node : Node,
    (node.located above).map Located.line = node.outline above.length
  | .text _ => rfl
  | .comment _ => rfl
  | .element tag attributes children => by
      rw [Node.located, Node.outline, List.map_cons, map_line_locatedAll (tag :: above) children]
      rfl

theorem map_line_locatedAll (above : List Text) : ∀ nodes : List Node,
    (locatedAll above nodes).map Located.line = outlineAll above.length nodes
  | [] => rfl
  | node :: more => by
      rw [locatedAll, outlineAll, List.map_append, map_line_located above node,
        map_line_locatedAll above more]

end

theorem locatedAll_append (above : List Text) (nodes more : List Node) :
    locatedAll above (nodes ++ more) = locatedAll above nodes ++ locatedAll above more := by
  induction nodes with
  | nil => rfl
  | cons node nodes ih => rw [List.cons_append, locatedAll, locatedAll, ih, List.append_assoc]

abbrev NameStack := List Text

namespace NameStack

def outside? (targets shields : List Text) (names : NameStack) : Option NameStack :=
  match names.dropWhile fun name => name ∉ targets ∧ name ∉ shields with
  | [] => none
  | name :: outer => if name ∈ targets then some outer else none

def cut (targets shields : List Text) (names : NameStack) : NameStack :=
  (outside? targets shields names).getD names

theorem outside?_cons (targets shields : List Text) (name : Text) (outer : NameStack) :
    outside? targets shields (name :: outer) =
      if name ∈ targets then some outer
      else if name ∈ shields then none
      else outside? targets shields outer := by
  by_cases target : name ∈ targets
  · simp [outside?, target]
  · by_cases shield : name ∈ shields
    · simp [outside?, target, shield]
    · simp [outside?, target, shield]

/-- What a start tag leaves of the stack: first it ends a paragraph, if it is one of those that do,
and then what the rule for its own tag names. -/
def implied (tag : Text) (names : NameStack) : NameStack :=
  let left := if tag ∈ paragraphClosers then cut ["p".toList] paragraphShields names else names
  match impliedEndRules.find? (·.1.contains tag) with
  | some (_, rule) => cut rule.targets rule.shields left
  | none => left

def after (names : NameStack) : Token → NameStack
  | .startTag name _ closed =>
    let left := implied name.lowerAscii names
    if closed || isVoid name.lowerAscii then left else name.lowerAscii :: left
  | .endTag name => cut [name.lowerAscii] [] names
  | _ => names

/-- The attributes of a tag, each in the place where its name first stands, with the value that is
written there. -/
def firstWritten : WrittenAttributes → List (Text × Text)
  | [] => []
  | (name, value) :: more =>
    (name.lowerAscii, decode value) :: (firstWritten more).filter (·.1 ≠ name.lowerAscii)

def emit (names : NameStack) : Token → List Located
  | .text content => [⟨names, .text (decode content)⟩]
  | .comment content => [⟨names, .comment content⟩]
  | .doctype => []
  | .startTag name written _ =>
    [⟨implied name.lowerAscii names, .element name.lowerAscii ⟨firstWritten written⟩⟩]
  | .endTag _ => []
  | .raw name written content _ =>
    ⟨names, .element name.lowerAscii ⟨firstWritten written⟩⟩ ::
      if content = [] then []
      else
        [⟨name.lowerAscii :: names,
          .text (if name.lowerAscii ∈ verbatimTags then content else decode content)⟩]

def emitAll (names : NameStack) : List Token → List Located
  | [] => []
  | token :: more => emit names token ++ emitAll (after names token) more

theorem entries_foldl_insertNew (written : WrittenAttributes) (t : Attributes) :
    (written.foldl (fun known (name, value) => known.insertNew name.lowerAscii (decode value))
      t).entries = t.entries ++ (firstWritten written).filter (·.1 ∉ t.keys) := by
  induction written generalizing t with
  | nil => simp [firstWritten]
  | cons first more ih =>
      rcases first with ⟨name, value⟩
      rw [List.foldl_cons, firstWritten]
      change (more.foldl _ (t.insertNew name.lowerAscii (decode value))).entries = _
      by_cases known : name.lowerAscii ∈ t.keys
      · have later : ∀ entry : Text × Text,
            entry.1 ∉ t.keys ∧ entry.1 ≠ name.lowerAscii ↔ entry.1 ∉ t.keys :=
          fun entry => and_iff_left_of_imp fun fresh same => fresh (same ▸ known)
        have same : t.insertNew name.lowerAscii (decode value) = t :=
          if_pos ((t.contains_eq_true_iff _).mpr known)
        rw [same, ih, List.filter_cons_of_neg (by simpa using known), List.filter_filter]
        simp only [← Bool.decide_and, later]
      · rw [t.insertNew_of_not_mem known, ih, List.filter_cons_of_pos (by simpa using known),
          List.filter_filter, List.append_assoc]
        refine congrArg (fun others => t.entries ++ (name.lowerAscii, decode value) :: others) ?_
        apply List.filter_congr
        intro entry _
        rw [Bool.eq_iff_iff, Bool.and_eq_true, decide_eq_true_iff, decide_eq_true_iff,
          decide_eq_true_iff, Table.keys, List.map_append, List.mem_append, not_or]
        simp [Table.keys]

theorem ofWritten_eq (written : WrittenAttributes) :
    Attributes.ofWritten written = ⟨firstWritten written⟩ := by
  have entries := entries_foldl_insertNew written {}
  simp only [Table.keys, List.map_nil, List.not_mem_nil, not_false_eq_true, decide_true,
    List.filter_true, List.nil_append] at entries
  exact congrArg Table.mk entries

theorem map_content_emit (names other : NameStack) (token : Token) :
    (emit names token).map (·.content) = (emit other token).map (·.content) := by
  cases token with
  | raw name written content ended =>
      rw [emit, emit, List.map_cons, List.map_cons]
      split <;> rfl
  | _ => rfl

theorem map_content_emitAll (names : NameStack) (tokens : List Token) :
    (emitAll names tokens).map (·.content) =
      tokens.flatMap fun token => (emit [] token).map (·.content) := by
  induction tokens generalizing names with
  | nil => rfl
  | cons token more ih =>
      rw [emitAll, List.map_append, ih, List.flatMap_cons, map_content_emit names []]

theorem implied_eq_foldl (tag : Text) (names : NameStack) : implied tag names =
    (impliedEnds tag).foldl (fun names rule => cut rule.targets rule.shields names) names := by
  rw [implied, impliedEnds, List.foldl_append]
  by_cases closes : tag ∈ paragraphClosers
  · cases impliedEndRules.find? (·.1.contains tag) <;> simp [closes]
  · cases impliedEndRules.find? (·.1.contains tag) <;> simp [closes]

end NameStack

open NameStack

def locatedOpen : List OpenElement → List Located
  | [] => []
  | e :: outer =>
    locatedOpen outer ++ ⟨outer.map (·.tag), .element e.tag e.attributes⟩ ::
      locatedAll (e.tag :: outer.map (·.tag)) e.inner.reverse

namespace Nesting

variable {n : Nesting}

def located (n : Nesting) : List Located :=
  locatedAll [] n.top.reverse ++ locatedOpen n.opened

theorem located_add (node : Node) : (n.add node).located = n.located ++ node.located n.tags := by
  rcases n with ⟨top, opened⟩
  cases opened with
  | nil => simp [add, located, locatedOpen, locatedAll_append, locatedAll, tags]
  | cons e outer => simp [add, located, locatedOpen, locatedAll_append, locatedAll, tags]

theorem tags_closeInnermost : n.closeInnermost.tags = n.tags.tail := by
  rcases n with ⟨top, opened⟩
  cases opened with
  | nil => rfl
  | cons e outer => exact tags_add _ _

/-- Closing an element moves its nodes together to where they stood. -/
theorem located_closeInnermost : n.closeInnermost.located = n.located := by
  rcases n with ⟨top, opened⟩
  cases opened with
  | nil => rfl
  | cons e outer =>
      rw [closeInnermost, located_add]
      simp [located, locatedOpen, OpenElement.close, Node.located, tags]

theorem tags_close (count : Nat) : (n.close count).tags = n.tags.drop count := by
  induction count generalizing n with
  | zero => rfl
  | succ count ih => rw [close, ih, tags_closeInnermost, List.drop_tail]

theorem located_close (count : Nat) : (n.close count).located = n.located := by
  induction count generalizing n with
  | zero => rfl
  | succ count ih => rw [close, ih, located_closeInnermost]

theorem map_drop_reach? (targets shields : List Text) (names : NameStack) :
    (reach? targets shields names).map names.drop = outside? targets shields names := by
  induction names with
  | nil => rfl
  | cons name outer ih =>
      rw [reach?, outside?_cons, ← ih]
      by_cases target : name ∈ targets
      · simp [target]
      · by_cases shield : name ∈ shields
        · simp [target, shield]
        · simp [target, shield, Function.comp_def]

theorem tags_endNearest (targets shields : List Text) :
    (n.endNearest targets shields).tags = cut targets shields n.tags := by
  rw [endNearest, tags_close, cut, ← map_drop_reach?]
  cases reach? targets shields n.tags <;> rfl

theorem located_endNearest (targets shields : List Text) :
    (n.endNearest targets shields).located = n.located :=
  located_close _

theorem foldl_endNearest (rules : List ImpliedEnd) :
    let ended := rules.foldl (fun n rule => n.endNearest rule.targets rule.shields) n
    ended.located = n.located ∧
      ended.tags = rules.foldl (fun names rule => cut rule.targets rule.shields names) n.tags := by
  induction rules generalizing n with
  | nil => exact ⟨rfl, rfl⟩
  | cons rule more ih =>
      rcases ih (n := n.endNearest rule.targets rule.shields) with ⟨nodes, names⟩
      rw [located_endNearest] at nodes
      rw [tags_endNearest] at names
      exact ⟨nodes, names⟩

theorem startTag_located (tag : Text) (attributes : Attributes) (closed : Bool) :
    (n.startTag tag attributes closed).located =
        n.located ++ [⟨implied tag n.tags, .element tag attributes⟩] ∧
      (n.startTag tag attributes closed).tags =
        if closed || isVoid tag then implied tag n.tags else tag :: implied tag n.tags := by
  rcases foldl_endNearest (n := n) (impliedEnds tag) with ⟨nodes, names⟩
  rw [← implied_eq_foldl] at names
  rw [startTag, ← nodes, ← names]
  split
  · rw [located_add, tags_add]
    exact ⟨rfl, rfl⟩
  · exact ⟨by simp [located, locatedOpen, locatedAll, tags], rfl⟩

/-- A token adds the nodes that it gives under the names of the open elements. -/
theorem read_located (token : Token) : (n.read token).located = n.located ++ emit n.tags token ∧
    (n.read token).tags = after n.tags token := by
  cases token with
  | text content => exact ⟨located_add _, tags_add _ _⟩
  | comment content => exact ⟨located_add _, tags_add _ _⟩
  | doctype => exact ⟨(List.append_nil _).symm, rfl⟩
  | startTag name written closed =>
      rw [emit, ← ofWritten_eq]
      exact startTag_located _ _ closed
  | endTag name =>
      exact ⟨(located_endNearest _ _).trans (List.append_nil _).symm, tags_endNearest _ _⟩
  | raw name written content ended =>
      refine ⟨?_, tags_add _ _⟩
      rw [read, located_add, emit, Node.located, rawChildren, ofWritten_eq]
      by_cases empty : content = []
      · simp [empty, locatedAll]
      · by_cases verbatim : name.lowerAscii ∈ verbatimTags
        · simp [empty, isVerbatim, verbatim, locatedAll, Node.located]
        · simp [empty, isVerbatim, verbatim, locatedAll, Node.located]

theorem foldl_read_located (tokens : List Token) :
    (tokens.foldl read n).located = n.located ++ emitAll n.tags tokens := by
  induction tokens generalizing n with
  | nil => exact (List.append_nil _).symm
  | cons token more ih =>
      rcases read_located (n := n) token with ⟨nodes, names⟩
      rw [List.foldl_cons, ih, nodes, names, emitAll, List.append_assoc]

theorem locatedAll_finish : locatedAll [] n.finish = n.located := by
  have closed : (n.close n.opened.length).opened = [] := by
    have names := tags_close (n := n) n.opened.length
    rw [tags, tags, ← List.map_drop, List.drop_length, List.map_nil] at names
    exact List.map_eq_nil_iff.mp names
  rw [← located_close (n := n) n.opened.length, located, closed, finish]
  exact (List.append_nil _).symm

end Nesting

theorem locatedAll_nodesOfTokens (tokens : List Token) :
    locatedAll [] (nodesOfTokens tokens) = emitAll [] tokens := by
  rw [nodesOfTokens, Nesting.locatedAll_finish, Nesting.foldl_read_located]
  rfl

/-- The outline of a source holds the nodes that its tokens give, in the order of the tokens, each as
deep as the stack of names is high; so they are the nodes that the tokens give by themselves. -/
theorem outline_parse? (source : Text) :
    (parse? source).map (outlineAll 0) =
        (tokens? source).map (fun tokens => (emitAll [] tokens).map Located.line) ∧
      (parse? source).map (fun nodes => (outlineAll 0 nodes).map (·.content)) =
        (tokens? source).map
          (·.flatMap fun token => (emit [] token).map (·.content)) := by
  have lines : ∀ tokens, outlineAll 0 (nodesOfTokens tokens) =
      (emitAll [] tokens).map Located.line := by
    intro tokens
    rw [← locatedAll_nodesOfTokens]
    exact (map_line_locatedAll [] _).symm
  refine ⟨?_, ?_⟩
  · rw [parse?, Option.map_map]
    exact Option.map_congr fun tokens _ => lines tokens
  · rw [parse?, Option.map_map]
    refine Option.map_congr fun tokens _ => ?_
    calc
      (outlineAll 0 (nodesOfTokens tokens)).map (·.content) =
          (emitAll [] tokens).map (·.content) := by
        rw [lines, List.map_map]
        rfl
      _ = tokens.flatMap fun token => (emit [] token).map (·.content) :=
        map_content_emitAll [] tokens

end LiveTemplate.Markup
