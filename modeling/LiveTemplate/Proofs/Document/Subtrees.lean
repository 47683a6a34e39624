import LiveTemplate.Proofs.Document.DescendingWalks
import LiveTemplate.Proofs.Markup.Printer
import Mathlib.Data.List.Nodup

/-! The tree at a node: it depends on the content and the children of the nodes in it alone, and what
the document says of the node depends on nothing but the tree. -/

namespace LiveTemplate

def Markup.Node.content : Markup.Node → Markup.Content
  | .text content => .text content
  | .comment content => .comment content
  | .element tag attributes _ => .element tag attributes

namespace Document

open Markup

variable {d changed : Document} {id other parent child upper lower : NodeId}

theorem tree?_isSome_iff : (d.tree? id).isSome ↔ id < d.size := by
  rw [tree?]
  cases size : d.size with
  | zero => simp [treeWithin]
  | succ n => rw [treeWithin, Option.isSome_map, record?_isSome_iff, size]

theorem content?_eq (d : Document) (id : NodeId) : d.content? id = (d.tree? id).map Node.content := by
  by_cases known : id < d.size
  · rcases Nat.exists_eq_succ_of_ne_zero (Nat.ne_zero_of_lt known) with ⟨n, size⟩
    rcases Option.isSome_iff_exists.mp (record?_isSome_iff.mpr known) with ⟨r, found⟩
    rw [content?, tree?, size, treeWithin, found, Option.map_some, Option.map_some, Option.map_some]
    cases r.content <;> rfl
  · have absent : d.tree? id = none := by
      rw [← Option.not_isSome_iff_eq_none, tree?_isSome_iff]
      exact known
    rw [absent, content?, record?_of_size_le (Nat.le_of_not_lt known)]
    rfl

theorem isText_of_content? (same : changed.content? other = d.content? id) :
    changed.isText other = d.isText id := by
  rw [Bool.eq_iff_iff, isText_iff, isText_iff, same]

/-- Documents that agree on a part that is closed under children have the same trees there. -/
theorem Sound.tree?_congr (sound : d.Sound) (size : d.size ≤ changed.size) (part : NodeId → Prop)
    (closed : ∀ id, part id → ∀ child ∈ d.children id, part child)
    (content : ∀ id, part id → changed.content? id = d.content? id)
    (children : ∀ id, part id → changed.children id = d.children id) (inside : part id) :
    changed.tree? id = d.tree? id := by
  have within : ∀ n id, part id → changed.treeWithin n id = d.treeWithin n id := by
    intro n
    induction n with
    | zero => exact fun _ _ => rfl
    | succ n ih =>
        intro id inside
        have below : ∀ child ∈ d.children id, changed.treeWithin n child = d.treeWithin n child :=
          fun child member => ih child (closed id inside child member)
        have same := content id inside
        have links := children id inside
        rw [content?, content?] at same
        rw [treeWithin, treeWithin]
        cases found : d.record? id with
        | none =>
            rw [found, Option.map_none, Option.map_eq_none_iff] at same
            rw [same, Option.map_none, Option.map_none]
        | some r =>
            rw [found, Option.map_some, Option.map_eq_some_iff] at same
            rcases same with ⟨now, there, kind⟩
            rw [children_of_record? there, children_of_record? found] at links
            rw [children_of_record? found] at below
            rw [there, Option.map_some, Option.map_some, kind, links, List.filterMap_congr below]
  calc
    changed.tree? id = d.treeWithin changed.size id := within changed.size id inside
    _ = d.tree? id := sound.walksEnd.tree id changed.size size

theorem writtenAll_eq_flatMap (verbatim : Bool) (nodes : List Node) :
    writtenAll verbatim nodes = nodes.flatMap (Node.written verbatim) := by
  induction nodes with
  | nil => rfl
  | cons node more ih => rw [writtenAll, ih, List.flatMap_cons]

theorem flatten_textsAll (nodes : List Node) :
    (textsAll nodes).flatten = nodes.flatMap fun node => node.texts.flatten := by
  induction nodes with
  | nil => rfl
  | cons node more ih => rw [textsAll, List.flatten_append, ih, List.flatMap_cons]

theorem flatMap_filterMap {α β γ : Type} (f : α → Option β) (g : β → List γ) (l : List α) :
    (l.filterMap f).flatMap g = l.flatMap fun a => ((f a).map g).getD [] := by
  induction l with
  | nil => rfl
  | cons a l ih =>
      rw [List.flatMap_cons, ← ih]
      cases found : f a with
      | none => rw [List.filterMap_cons_none found]; rfl
      | some b => rw [List.filterMap_cons_some found]; rfl

theorem textWithin_eq (d : Document) : ∀ (n : Nat) (id : NodeId),
    d.textWithin n id = ((d.treeWithin n id).map fun node => node.texts.flatten).getD []
  | 0, _ => rfl
  | n + 1, id => by
      rw [textWithin, treeWithin]
      cases d.record? id with
      | none => rfl
      | some r =>
          have below := List.flatMap_congr fun child (_ : child ∈ r.children) =>
            textWithin_eq d n child
          rcases r with ⟨content, parent, children⟩
          cases content with
          | text content => simp [Node.texts]
          | comment content => simp [Node.texts]
          | element tag attributes =>
              simp [Node.texts, flatten_textsAll, flatMap_filterMap, below]

theorem plainText_eq (d : Document) (id : NodeId) :
    d.plainText id = ((d.tree? id).map Node.plainText).getD [] := by
  have within := textWithin_eq d d.size id
  rw [plainText, tree?]
  cases size : d.size with
  | zero =>
      have outside : d.record? id = none := record?_of_size_le (by omega)
      simp [outside, textWithin, treeWithin]
  | succ n =>
      rw [size] at within
      rw [treeWithin] at within ⊢
      cases found : d.record? id with
      | none => simpa [found] using within
      | some r =>
          rcases r with ⟨content, parent, children⟩
          cases content with
          | text content => simpa [found, Node.plainText] using within
          | comment content => simp [Node.plainText]
          | element tag attributes => simpa [found, Node.plainText] using within

/-- Where a text stands decides how it is written; nothing else depends on it. -/
theorem Sound.markupWithin_eq (sound : d.Sound) : ∀ (n : Nat) (id : NodeId),
    d.markupWithin n id = ((d.treeWithin n id).map (Node.written (d.isInVerbatim id))).getD []
  | 0, _ => rfl
  | n + 1, id => by
      rw [markupWithin, treeWithin]
      cases found : d.record? id with
      | none => rfl
      | some r =>
          rcases r with ⟨content, parent, children⟩
          cases content with
          | text content => simp [Node.written]
          | comment content => simp [Node.written]
          | element tag attributes =>
              have tagged : d.tag? id = some tag := by simp [tag?, found, Record.tag?]
              have below : children.flatMap (d.markupWithin n) = children.flatMap fun child =>
                  ((d.treeWithin n child).map (Node.written (isVerbatim tag))).getD [] := by
                apply List.flatMap_congr
                intro child member
                have linked : d.parent? child = some id :=
                  (sound.linked id child).mp (by rwa [children_of_record? found])
                have place : d.isInVerbatim child = isVerbatim tag := by
                  simp [isInVerbatim, linked, tagged]
                rw [sound.markupWithin_eq n child, place]
              simp [Node.written, writtenAll_eq_flatMap, flatMap_filterMap, below]

theorem Sound.markup_eq (sound : d.Sound) (other : d.isText id = false) :
    d.markup id = ((d.tree? id).map (Node.written false)).getD [] := by
  have within := sound.markupWithin_eq d.size id
  rw [markup, within, tree?]
  cases d.size with
  | zero => rfl
  | succ n =>
      rw [treeWithin]
      cases found : d.record? id with
      | none => rfl
      | some r =>
          rcases r with ⟨content, parent, children⟩
          cases content with
          | text content => simp [isText, found, Record.isText] at other
          | comment content => rfl
          | element tag attributes => rfl

theorem Sound.preorder_eq (sound : d.Sound) (id : NodeId) :
    d.preorder id = id :: (d.children id).flatMap d.preorder := by
  have same : d.inOrder = d.preorder := funext inOrder_eq_preorder
  rw [← same]
  exact sound.inOrder_eq id

theorem Sound.mem_preorder_iff (sound : d.Sound) (id : NodeId) :
    other ∈ d.preorder id ↔ other = id ∨ d.Above id other := by
  induction id using sound.wellFounded_children.induction with
  | _ id ih =>
      rw [sound.preorder_eq, List.mem_cons, List.mem_flatMap]
      refine or_congr_right ⟨?_, ?_⟩
      · rintro ⟨child, member, inside⟩
        have linked := (sound.linked id child).mp member
        rcases (ih child member).mp inside with rfl | below
        · exact .single linked
        · exact .head linked below
      · intro above
        rcases Relation.TransGen.head'_iff.mp above with ⟨child, linked, reached⟩
        have member := (sound.linked id child).mpr linked
        refine ⟨child, member, (ih child member).mpr ?_⟩
        exact Relation.reflTransGen_iff_eq_or_transGen.mp reached

theorem Sound.mem_preorder_self (sound : d.Sound) (id : NodeId) : id ∈ d.preorder id :=
  (sound.mem_preorder_iff id).mpr (.inl rfl)

theorem Sound.mem_preorder_of_child (sound : d.Sound) {root : NodeId} (inside : id ∈ d.preorder root)
    (member : child ∈ d.children id) : child ∈ d.preorder root := by
  have linked := (sound.linked id child).mp member
  rw [sound.mem_preorder_iff] at inside ⊢
  rcases inside with rfl | below
  · exact .inr (.single linked)
  · exact .inr (.tail below linked)

theorem Sound.suffix_ancestors (sound : d.Sound) (inside : lower = upper ∨ d.Above upper lower) :
    upper :: d.ancestors upper <:+ lower :: d.ancestors lower := by
  rcases inside with rfl | above
  · exact List.suffix_rfl
  · induction above with
    | single linked =>
        rw [sound.ancestors_of_child linked]
        exact List.suffix_cons _ _
    | tail _ linked ih =>
        rw [sound.ancestors_of_child linked]
        exact ih.trans (List.suffix_cons _ _)

theorem Sound.disjoint_preorder (sound : d.Sound) {first second : NodeId}
    (linked : d.parent? first = some parent) (next : d.parent? second = some parent)
    (apart : first ≠ second) : List.Disjoint (d.preorder first) (d.preorder second) := by
  intro lower member again
  have fromFirst := sound.suffix_ancestors ((sound.mem_preorder_iff first).mp member)
  have fromSecond := sound.suffix_ancestors ((sound.mem_preorder_iff second).mp again)
  rw [sound.ancestors_of_child linked] at fromFirst
  rw [sound.ancestors_of_child next] at fromSecond
  have same := List.suffix_of_suffix_length_le fromFirst fromSecond (Nat.le_refl _)
  exact apart (List.cons.inj (same.eq_of_length rfl)).1

theorem Sound.nodup_preorder (sound : d.Sound) (id : NodeId) : (d.preorder id).Nodup := by
  induction id using sound.wellFounded_children.induction with
  | _ id ih =>
      rw [sound.preorder_eq, List.nodup_cons, List.nodup_flatMap]
      refine ⟨fun again => ?_, ih, ?_⟩
      · rcases List.mem_flatMap.mp again with ⟨child, member, inside⟩
        have linked := (sound.linked id child).mp member
        rcases (sound.mem_preorder_iff child).mp inside with rfl | below
        · exact sound.acyclic _ (.single linked)
        · exact sound.acyclic id (.head linked below)
      · refine (sound.distinct id).imp_of_mem fun {first second} member again apart => ?_
        exact sound.disjoint_preorder ((sound.linked id first).mp member)
          ((sound.linked id second).mp again) apart

end Document

end LiveTemplate
