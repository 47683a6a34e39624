import LiveTemplate.Proofs.Document.PlantedWalks
import LiveTemplate.Proofs.Markup.Rebuilding

namespace LiveTemplate.Markup

def Resumes (rest : Text) : Prop :=
  rest = [] ∨ opensTag rest

theorem resumes_written {node : Node} {above : List Text} (formed : node.WellFormed above)
    (other : ¬ node.isText) (rest : Text) : Resumes (node.written false ++ rest) := by
  refine .inr ?_
  cases node with
  | text content => exact absurd rfl other
  | comment content => simp [Node.written, writtenComment, opensTag]
  | element tag attributes children =>
      rw [Node.written, writtenElement, List.append_assoc, writtenStartTag_append]
      exact opensTag_of_letter (formed.1.named.startsWithLetter _)

/-- The content of an element of raw text is written so that only its own end tag ends it. -/
theorem endsRaw_writtenAll {above : List Text} {tag : Text} {attributes : Attributes}
    {children : List Node} (form : ElementForm above tag attributes children) (raw : isRaw tag)
    (r : Text) : ∀ before c after, writtenAll (isVerbatim tag) children = before ++ c :: after →
      endsRaw (c :: (after ++ '<' :: r)) = false := by
  intro before c after same
  rcases form.raw raw with childless | ⟨content, only⟩
  · simp [childless, writtenAll] at same
  · rw [only, writtenAll, writtenAll, List.append_nil, Node.written, writtenText] at same
    cases verbatim : isVerbatim tag with
    | true =>
        rw [verbatim, if_pos rfl] at same
        exact endsRaw_of_holdsNoRawEnd (form.verbatim verbatim content (by simp [only])) same r
    | false =>
        rw [verbatim, if_neg (by simp)] at same
        exact endsRaw_of_not_mem (not_mem_escapedText (.inl rfl) content) same _

theorem not_isRaw_of_isVoid {tag : Text} (void : isVoid tag) : ¬ isRaw tag := by
  have apart : ∀ name ∈ voidTags, name ∉ rawTags := by decide
  rw [isVoid, List.contains_iff_mem] at void
  rw [isRaw, List.contains_iff_mem]
  exact apart _ void

theorem isRaw_of_isVerbatim {tag : Text} (verbatim : isVerbatim tag) : isRaw tag := by
  rw [isVerbatim, List.contains_iff_mem] at verbatim
  rw [isRaw, List.contains_iff_mem]
  exact List.mem_append_left _ verbatim

theorem tokens?_writtenStartTag {tag : Text} {attributes : Attributes} (named : IsTagName tag)
    (names : ∀ name ∈ attributes.keys, IsAttributeName name) (cooked : ¬ isRaw tag) (inner : Text) :
    tokens? (writtenStartTag tag attributes ++ inner) =
      (tokens? inner).map (.startTag tag (writtenPairs attributes) false :: ·) := by
  apply tokens?_of_token?
  · simp [writtenStartTag]
  · rw [token?_writtenStartTag named names, if_neg cooked]

theorem tokens?_writtenEndTag {tag : Text} (named : IsTagName tag) (rest : Text) :
    tokens? (writtenEndTag tag ++ rest) = (tokens? rest).map (.endTag tag :: ·) := by
  apply tokens?_of_token?
  · simp [writtenEndTag]
  · exact token?_writtenEndTag named rest

theorem tokens?_writtenRaw {above : List Text} {tag : Text} {attributes : Attributes}
    {children : List Node} (form : ElementForm above tag attributes children) (raw : isRaw tag)
    (rest : Text) : tokens? (writtenStartTag tag attributes ++
        (writtenAll (isVerbatim tag) children ++ (writtenEndTag tag ++ rest))) =
      (tokens? rest).map (.raw tag (writtenPairs attributes)
        (writtenAll (isVerbatim tag) children) true :: ·) := by
  have free := endsRaw_writtenAll form raw ('/' :: (tag ++ '>' :: rest))
  rw [← writtenEndTag_append] at free
  apply tokens?_of_token?
  · simp [writtenStartTag]
  · rw [token?_writtenStartTag form.named form.names, if_pos raw,
      rawElement_written form.named raw _ rest free]

mutual

theorem tokens?_written {above : List Text} : ∀ {node : Node} {rest : Text},
    node.WellFormed above → (node.isText → Resumes rest) →
    tokens? (node.written false ++ rest) = (tokens? rest).map (node.tokens ++ ·)
  | .text content, rest, formed, resumes => by
      have nonempty : escapedText content ++ rest ≠ [] := by
        simp [escapedText_ne_nil formed]
      exact tokens?_of_token? nonempty (token?_escapedText formed (resumes rfl))
  | .comment content, rest, formed, _ => by
      have nonempty : writtenComment content ++ rest ≠ [] := by simp [writtenComment]
      exact tokens?_of_token? nonempty (token?_writtenComment formed rest)
  | .element tag attributes children, rest, ⟨form, formed⟩, _ => by
      rw [Node.written, writtenElement, List.append_assoc, Node.tokens]
      by_cases raw : isRaw tag
      · have full : ¬ isVoid tag := fun void => not_isRaw_of_isVoid void raw
        rw [if_neg full, if_pos raw, List.append_assoc]
        exact tokens?_writtenRaw form raw rest
      · have start := tokens?_writtenStartTag form.named form.names raw
        rw [if_neg raw]
        by_cases void : isVoid tag
        · rw [if_pos void, if_pos void]
          exact start rest
        · -- texts directly inside are escaped, as all elements of verbatim text are raw
          have escaped : isVerbatim tag = false := by
            by_contra verbatim
            exact raw (isRaw_of_isVerbatim (by simpa using verbatim))
          have inner := tokens?_writtenAll formed form.apart
            (.inr (opensTag_writtenEndTag form.named rest))
          rw [if_neg void, if_neg void, escaped, List.append_assoc]
          calc
            tokens? (writtenStartTag tag attributes ++
                (writtenAll false children ++ (writtenEndTag tag ++ rest))) =
                (tokens? (writtenAll false children ++ (writtenEndTag tag ++ rest))).map
                  (.startTag tag (writtenPairs attributes) false :: ·) := start _
            _ = (((tokens? rest).map (.endTag tag :: ·)).map (tokensAll children ++ ·)).map
                  (.startTag tag (writtenPairs attributes) false :: ·) := by
              rw [inner, tokens?_writtenEndTag form.named rest]
            _ = (tokens? rest).map (.startTag tag (writtenPairs attributes) false ::
                  tokensAll children ++ [.endTag tag] ++ ·) := by
              simp [Function.comp_def]

theorem tokens?_writtenAll {above : List Text} : ∀ {nodes : List Node} {rest : Text},
    AllWellFormed above nodes → TextsApart nodes → Resumes rest →
    tokens? (writtenAll false nodes ++ rest) = (tokens? rest).map (tokensAll nodes ++ ·)
  | [], rest, _, _, _ => by simp [writtenAll, tokensAll]
  | [node], rest, formed, _, resumes => by
      have read := tokens?_written formed.1 fun _ => resumes
      simpa [writtenAll, tokensAll] using read
  | node :: next :: more, rest, formed, apart, resumes => by
      have follows : node.isText → Resumes (writtenAll false (next :: more) ++ rest) := by
        intro text
        rw [writtenAll, List.append_assoc]
        refine resumes_written formed.2.1 (fun also => ?_) _
        exact (List.isChain_cons_cons.mp apart).1 ⟨text, also⟩
      have others := tokens?_writtenAll formed.2 (List.isChain_cons_cons.mp apart).2 resumes
      have joined : tokensAll (node :: next :: more) = node.tokens ++ tokensAll (next :: more) := rfl
      rw [writtenAll, List.append_assoc, tokens?_written formed.1 follows, others, joined]
      simp [Function.comp_def]

end

/-- Well-formed trees, no two texts adjacent, are what is read from their written form, and all that
is read. -/
theorem parse?_writtenAll {nodes : List Node} (formed : AllWellFormed [] nodes)
    (apart : TextsApart nodes) :
    parse? (writtenAll false nodes) = some nodes := by
  have read : tokens? (writtenAll false nodes ++ []) = (tokens? []).map (tokensAll nodes ++ ·) :=
    tokens?_writtenAll formed apart (.inl rfl)
  rw [List.append_nil, tokens?_nil, Option.map_some, List.append_nil] at read
  calc
    parse? (writtenAll false nodes) = some (nodesOfTokens (tokensAll nodes)) := by
      rw [parse?, read, Option.map_some]
    _ = some nodes := by rw [nodesOfTokens_tokensAll formed]

theorem parse?_written {node : Node} (formed : node.WellFormed []) :
    parse? (node.written false) = some [node] := by
  have alone : AllWellFormed [] [node] := ⟨formed, trivial⟩
  have read := parse?_writtenAll alone (.singleton node)
  rwa [writtenAll, writtenAll, List.append_nil] at read

/-- A well-formed tree that is planted in a document, written and read again comes back alone and
as it was. -/
theorem parse?_markup_of_wellFormed (d : Document) {node : Node} (formed : node.WellFormed []) :
    parse? ((d.plant node).1.markup (d.plant node).2) = some [node] := by
  rw [Document.markup_plant]
  exact parse?_written formed

/-- A tree with a paragraph inside the button of a paragraph, with text that looks like markup, and
with a script. -/
def noticeTree : Node :=
  .element "div".toList ⟨[("title".toList, "a \"b\" & <c>".toList), ("x&y".toList, "&amp;".toList)]⟩
    [.text "1 < 2 &lt; 3".toList,
      .element "p".toList {} [.element "button".toList {} [.element "p".toList {} []]],
      .comment "-- >".toList,
      .element "br".toList {} [],
      .element "script".toList {} [.text "a < b && \"</div></scripts>\"".toList],
      .text " ".toList]

theorem parse?_markup_of_wellFormed_notice : noticeTree.WellFormed [] ∧
    parse? ((Document.plant {} noticeTree).1.markup (Document.plant {} noticeTree).2) =
      some [noticeTree] := by
  have formed : noticeTree.WellFormed [] := by decide +kernel
  exact ⟨formed, parse?_markup_of_wellFormed {} formed⟩

end LiveTemplate.Markup
