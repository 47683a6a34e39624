import LiveTemplate.Proofs.Document.PlantedWalks
import LiveTemplate.Proofs.Markup.Escaping
import LiveTemplate.Proofs.Template.Tracking
import LiveTemplate.Template.Component

namespace LiveTemplate

def Markup.Content.mapText (f : Text → Text) : Markup.Content → Markup.Content
  | .text content => .text (f content)
  | other => other

def Record.mapText (f : Text → Text) (r : Record) : Record :=
  { r with content := r.content.mapText f }

namespace Markup

mutual

def Node.mapTexts (f : Text → Text) : Node → Node
  | .text content => .text (f content)
  | .comment content => .comment content
  | .element tag attributes children => .element tag attributes (mapAllTexts f children)

def mapAllTexts (f : Text → Text) : List Node → List Node
  | [] => []
  | node :: more => node.mapTexts f :: mapAllTexts f more

end

mutual

@[simp] theorem count_mapTexts (f : Text → Text) : ∀ node : Node, (node.mapTexts f).count = node.count
  | .text _ => rfl
  | .comment _ => rfl
  | .element _ _ children => by
      simp [Node.mapTexts, Node.count, countAll_mapAllTexts f children]

@[simp] theorem countAll_mapAllTexts (f : Text → Text) :
    ∀ nodes : List Node, countAll (mapAllTexts f nodes) = countAll nodes
  | [] => rfl
  | node :: more => by
      simp [mapAllTexts, countAll, count_mapTexts f node, countAll_mapAllTexts f more]

end

theorem roots_mapAllTexts (f : Text → Text) (nodes : List Node) :
    ∀ base, roots base (mapAllTexts f nodes) = roots base nodes := by
  induction nodes with
  | nil => intro base; rfl
  | cons node more ih =>
      intro base
      rw [mapAllTexts, roots, roots, count_mapTexts, ih]

mutual

theorem records_mapTexts (f : Text → Text) : ∀ (node : Node) (base : NodeId)
    (parent : Option NodeId), (node.mapTexts f).records base parent =
      (node.records base parent).map (Record.mapText f)
  | .text _, _, _ => rfl
  | .comment _, _, _ => rfl
  | .element tag attributes children, base, parent => by
      rw [Node.mapTexts, Node.records, Node.records, List.map_cons, roots_mapAllTexts,
        recordsAll_mapAllTexts f children]
      rfl

theorem recordsAll_mapAllTexts (f : Text → Text) : ∀ (nodes : List Node) (base : NodeId)
    (parent : Option NodeId), recordsAll base parent (mapAllTexts f nodes) =
      (recordsAll base parent nodes).map (Record.mapText f)
  | [], _, _ => rfl
  | node :: more, base, parent => by
      rw [mapAllTexts, recordsAll, recordsAll, List.map_append, count_mapTexts,
        records_mapTexts f node, recordsAll_mapAllTexts f more]

end

end Markup

namespace Template

open Markup

inductive Chunk where
  | fixed (content : Text)
  /-- `verbatim` tells whether the value stands in an element of verbatim text. -/
  | hole (name : Text) (verbatim : Bool)
  deriving DecidableEq, Repr

def Chunk.filled (value : Text → Text) : Chunk → Text
  | .fixed content => content
  | .hole name verbatim => writtenText verbatim (value name)

def Chunk.fixedText : Chunk → Text
  | .fixed content => content
  | .hole _ _ => []

def Part.chunk (nameCase : NameCase) (verbatim : Bool) : Part → Chunk
  | .literal content => .fixed (writtenText verbatim content)
  | .placeholder name => .hole (nameCase.normalize name) verbatim

mutual

def chunks (nameCase : NameCase) (verbatim : Bool) : Node → List Chunk
  | .text content => (parts content).map (Part.chunk nameCase verbatim)
  | .comment content => [.fixed (writtenComment content)]
  | .element tag attributes children =>
    .fixed (writtenStartTag tag attributes) :: if isVoid tag then [] else
      chunksAll nameCase (isVerbatim tag) children ++ [.fixed (writtenEndTag tag)]

def chunksAll (nameCase : NameCase) (verbatim : Bool) : List Node → List Chunk
  | [] => []
  | node :: more => chunks nameCase verbatim node ++ chunksAll nameCase verbatim more

end

def skeleton (template : Text) (o : Options) : Except BuildError (List Chunk) :=
  (rootOf (o.renamed template)).map (chunks o.nameCase false)

theorem writtenText_flatMap {α : Type} (verbatim : Bool) (f : α → Text) (l : List α) :
    writtenText verbatim (l.flatMap f) = l.flatMap fun a => writtenText verbatim (f a) := by
  cases verbatim with
  | true => rfl
  | false => exact List.flatMap_assoc

variable {nameCase : NameCase} {value : Text → Text}

mutual

/-- Filling the holes of a tree and writing it is writing the tree with its texts filled. -/
theorem flatMap_chunks : ∀ (node : Node) (verbatim : Bool),
    (chunks nameCase verbatim node).flatMap (Chunk.filled value) =
      (node.mapTexts (filled fun name => value (nameCase.normalize name))).written verbatim
  | .text content, verbatim => by
      have each : ∀ part ∈ parts content,
          (part.chunk nameCase verbatim).filled value = writtenText verbatim
            (part.filled fun name => value (nameCase.normalize name)) := by
        intro part _
        cases part with
        | literal content => rfl
        | placeholder name => rfl
      calc
        ((parts content).map (Part.chunk nameCase verbatim)).flatMap (Chunk.filled value) =
            (parts content).flatMap fun part => (part.chunk nameCase verbatim).filled value := by
          rw [List.flatMap_map]
        _ = (parts content).flatMap fun part => writtenText verbatim
              (part.filled fun name => value (nameCase.normalize name)) :=
          List.flatMap_congr each
        _ = writtenText verbatim
              (filled (fun name => value (nameCase.normalize name)) content) := by
          rw [filled, writtenText_flatMap]
  | .comment content, _ => List.append_nil _
  | .element tag attributes children, verbatim => by
      have inner := flatMap_chunksAll children (isVerbatim tag)
      rw [chunks, Node.mapTexts, Node.written, writtenElement, List.flatMap_cons, ← inner]
      by_cases void : isVoid tag
      · simp [void, Chunk.filled]
      · simp [void, Chunk.filled]

theorem flatMap_chunksAll : ∀ (nodes : List Node) (verbatim : Bool),
    (chunksAll nameCase verbatim nodes).flatMap (Chunk.filled value) = writtenAll verbatim
      (mapAllTexts (filled fun name => value (nameCase.normalize name)) nodes)
  | [], _ => rfl
  | node :: more, verbatim => by
      rw [chunksAll, List.flatMap_append, flatMap_chunks node, flatMap_chunksAll more,
        mapAllTexts, writtenAll]

end

mutual

theorem exists_text_of_hole {name : Text} {kind : Bool} : ∀ {node : Node} {verbatim : Bool},
    .hole name kind ∈ chunks nameCase verbatim node →
    ∀ base parent, ∃ r ∈ node.records base parent, ∃ content, r.content = .text content ∧
      ∃ source, .placeholder source ∈ parts content ∧ nameCase.normalize source = name
  | .text content, _, member, _, _ => by
      rcases List.mem_map.mp member with ⟨part, inside, same⟩
      cases part with
      | literal content => simp [Part.chunk] at same
      | placeholder source =>
          exact ⟨_, List.mem_singleton_self _, content, rfl, source, inside, (Chunk.hole.inj same).1⟩
  | .comment content, _, member, _, _ => by simp [chunks] at member
  | .element tag attributes children, _, member, base, parent => by
      have inner : .hole name kind ∈ chunksAll nameCase (isVerbatim tag) children := by
        rw [chunks] at member
        split at member
        · simp at member
        · simpa using member
      rcases exists_text_of_holeAll inner (base + 1) (some base) with ⟨r, present, found⟩
      exact ⟨r, List.mem_cons_of_mem _ present, found⟩

theorem exists_text_of_holeAll {name : Text} {kind : Bool} : ∀ {nodes : List Node}
    {verbatim : Bool}, .hole name kind ∈ chunksAll nameCase verbatim nodes →
    ∀ base parent, ∃ r ∈ recordsAll base parent nodes, ∃ content, r.content = .text content ∧
      ∃ source, .placeholder source ∈ parts content ∧ nameCase.normalize source = name
  | [], _, member, _, _ => by simp [chunksAll] at member
  | node :: more, _, member, base, parent => by
      rcases List.mem_append.mp member with first | later
      · rcases exists_text_of_hole first base parent with ⟨r, present, found⟩
        exact ⟨r, List.mem_append_left _ present, found⟩
      · rcases exists_text_of_holeAll later (base + node.count) parent with ⟨r, present, found⟩
        exact ⟨r, List.mem_append_right _ present, found⟩

end

/-- Values that are escaped add none of the characters that open and close tags. -/
theorem filter_flatMap_filled {l : List Chunk} (escaped : ∀ name, .hole name true ∉ l)
    (value : Text → Text) :
    (l.flatMap (Chunk.filled value)).filter (fun c => c = '<' ∨ c = '>') =
      (l.flatMap Chunk.fixedText).filter fun c => c = '<' ∨ c = '>' := by
  induction l with
  | nil => rfl
  | cons chunk more ih =>
      have others := ih fun name member => escaped name (List.mem_cons_of_mem _ member)
      rw [List.flatMap_cons, List.flatMap_cons, List.filter_append, List.filter_append, others]
      congr 1
      cases chunk with
      | fixed content => rfl
      | hole name verbatim =>
          cases verbatim with
          | true => exact absurd List.mem_cons_self (escaped name)
          | false =>
              apply List.filter_eq_nil_iff.mpr
              intro c member mark
              exact not_mem_escapedText (by simpa using mark) (value name) member

end Template

end LiveTemplate
