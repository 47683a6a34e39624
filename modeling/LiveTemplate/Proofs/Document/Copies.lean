import LiveTemplate.Proofs.Document.PlantedWalks
import LiveTemplate.Proofs.Document.Untouched

/-! Trees that are planted and copied. A planted tree is read back as it was, its nodes stand under
consecutive numbers in document order, and nothing that was there before changes. A copy is a tree of
its own: whatever becomes of the nodes it was taken from, it stays what it is. -/

namespace LiveTemplate

namespace Markup

mutual

theorem map_content_records : ∀ (node : Node) (base : NodeId) (parent : Option NodeId) (depth : Nat),
    (node.records base parent).map (·.content) = (node.outline depth).map (·.content)
  | .text _, _, _, _ => rfl
  | .comment _, _, _, _ => rfl
  | .element tag attributes children, base, parent, depth => by
      rw [Node.records, Node.outline, List.map_cons, List.map_cons, map_content_recordsAll children]

theorem map_content_recordsAll : ∀ (nodes : List Node) (base : NodeId) (parent : Option NodeId)
    (depth : Nat), (recordsAll base parent nodes).map (·.content) =
      (outlineAll depth nodes).map (·.content)
  | [], _, _, _ => rfl
  | node :: more, base, parent, depth => by
      rw [recordsAll, outlineAll, List.map_append, List.map_append, map_content_records node,
        map_content_recordsAll more]

end

theorem length_outline (node : Node) (depth : Nat) : (node.outline depth).length = node.count := by
  have same := congrArg List.length (map_content_records node 0 none depth)
  rw [List.length_map, List.length_map, length_records] at same
  exact same.symm

end Markup

namespace Document

open Markup

variable {d changed source : Document} {node : Node} {root id : NodeId} {actions : List Action}

theorem map_record?_of_holds {base : NodeId} {l : List Record} (held : d.Holds base l) :
    (List.range' base l.length).map d.record? = l.map some := by
  induction l generalizing base with
  | nil => rfl
  | cons r l ih =>
      rw [List.length_cons, List.range'_succ, List.map_cons, List.map_cons, held.1, ih held.2]

/-- What `changed` is to `d` once `node` has been planted in it with its root at `root`. -/
structure Planted (d : Document) (node : Node) (changed : Document) (root : NodeId) : Prop where
  first : root = d.size
  /-- One new node for each node of the tree. -/
  size : changed.size = d.size + (node.outline 0).length
  order : changed.preorder root = List.range' d.size (node.outline 0).length
  contents : (changed.preorder root).map changed.content? =
    (node.outline 0).map fun line => some line.content
  earlier : ∀ id < d.size, changed.record? id = d.record? id
  textWrites : changed.textWrites = d.textWrites
  detached : changed.parent? root = none ∧ ∀ parent, root ∉ changed.children parent
  tree : changed.tree? root = some node

theorem Sound.planted (sound : d.Sound) (node : Node) :
    d.Planted node (d.plant node).1 (d.plant node).2 := by
  have order := preorder_plant d node
  have held := holds_plant d node
  have free : (d.plant node).1.parent? d.size = none := parent?_of_holds held
  rw [plant_snd]
  refine ⟨rfl, ?_, ?_, ?_, fun id => record?_plant_of_lt node, textWrites_plant d node, ⟨free, ?_⟩, ?_⟩
  · rw [length_outline, size_plant]
  · rw [length_outline, order]
  · have records := congrArg (List.map (Option.map Record.content)) (map_record?_of_holds held)
    rw [length_records, List.map_map, List.map_map] at records
    have contents := congrArg (List.map some) (map_content_records node d.size none 0)
    rw [List.map_map, List.map_map] at contents
    rw [order]
    exact records.trans contents
  · intro parent member
    rw [((sound.plant node).linked parent d.size).mp member] at free
    exact absurd free (by simp)
  · exact tree?_of_holds held (size_plant d node ▸ Nat.le_add_left _ _)

theorem Planted.closed (planted : d.Planted node changed root) (sound : changed.Sound) :
    changed.Closed root (changed.preorder root) := by
  intro id inside child member
  refine ⟨sound.mem_preorder_of_child inside member, ?_⟩
  rintro rfl
  exact planted.detached.2 id member

theorem edit_copyFrom (standing : source.tree? id = some node) :
    d.edit (.copyFrom source id) = (d.plant node).1 := by
  rw [edit, copyFrom_of_tree? standing]

theorem Sound.lt_size_of_mem_preorder (sound : d.Sound) (known : root < d.size)
    (inside : id ∈ d.preorder root) : id < d.size := by
  rcases (sound.mem_preorder_iff root).mp inside with rfl | below
  · exact known
  · rcases Relation.TransGen.tail'_iff.mp below with ⟨parent, _, linked⟩
    exact lt_size_of_parent? linked

/-- A copy has the text and, unless it is a text, the markup of what it was taken from. -/
theorem Planted.plainText_eq (planted : d.Planted node changed root)
    (standing : source.tree? id = some node) : changed.plainText root = source.plainText id := by
  rw [Document.plainText_eq, Document.plainText_eq, planted.tree, standing]

theorem Planted.markup_eq (planted : d.Planted node changed root) (grown : changed.Sound)
    (origin : source.Sound) (standing : source.tree? id = some node)
    (other : source.isText id = false) : changed.markup root = source.markup id := by
  have kind : changed.content? root = source.content? id := by
    rw [content?_eq, content?_eq, planted.tree, standing]
  have still : changed.isText root = false := (isText_of_content? kind).trans other
  rw [grown.markup_eq still, origin.markup_eq other, planted.tree, standing]

theorem Planted.tree?_run {family : List Document} {target : Nat} {later : List Action}
    (planted : d.Planted node changed root) (sounds : ∀ other ∈ family, other.Sound)
    (found : family[target]? = some changed)
    (spares : ∀ a ∈ later, a.Spares target root (changed.preorder root)) :
    ∃ now, (later.foldl act family)[target]? = some now ∧ now.tree? root = some node := by
  have grown := sounds changed (List.mem_of_getElem? found)
  have closed := planted.closed grown
  have inside : root < changed.size := tree?_isSome_iff.mp (Option.isSome_of_eq_some planted.tree)
  rcases keeps_run sounds found closed (fun id => grown.lt_size_of_mem_preorder inside) spares with
    ⟨now, last, keeps⟩
  refine ⟨now, last, ?_⟩
  rw [keeps.tree? grown closed (grown.mem_preorder_self root), planted.tree]

/-- Trees are planted as they are. A node of any reachable document, the target itself included, is
copied with its tree, and the copy stays what it is while no edit names one of its nodes, whatever
happens to the source. The text of a node, and unless it is a text its markup, follow from its tree. -/
theorem planted_and_copied {target : Nat} (there : (familyOf actions)[target]? = some d) :
    (∀ node : Node, d.Planted node (d.plant node).1 (d.plant node).2) ∧
    (∀ (others : List Action) (source : Document) (id : NodeId), source ∈ familyOf others →
      id < source.size → ∃ node copied,
        source.tree? id = some node ∧
        d.copyFrom source id = (copied, .ok d.size) ∧ d.Planted node copied d.size ∧
        copied.plainText d.size = source.plainText id ∧
        (source.isText id = false → copied.markup d.size = source.markup id) ∧
        ∀ later : List Action, (∀ a ∈ later, a.Spares target d.size (copied.preorder d.size)) →
          ∃ now, (familyOf (actions ++ .edit target (.copyFrom source id) :: later))[target]? =
            some now ∧ now.tree? d.size = some node) ∧
    ∀ id, d.plainText id = ((d.tree? id).map Node.plainText).getD [] ∧
      (d.isText id = false → d.markup id = ((d.tree? id).map (Node.written false)).getD []) := by
  have sounds := sound_familyOf actions
  have sound := sounds d (List.mem_of_getElem? there)
  refine ⟨sound.planted, ?_, fun id => ⟨plainText_eq d id, sound.markup_eq⟩⟩
  intro others source id reached known
  have origin := sound_familyOf others source reached
  rcases Option.isSome_iff_exists.mp (tree?_isSome_iff.mpr known) with ⟨node, standing⟩
  have copied := sound.planted node
  have grown := sound.plant node
  rw [plant_snd] at copied
  refine ⟨node, (d.plant node).1, standing, copyFrom_of_tree? standing, copied,
    copied.plainText_eq standing, copied.markup_eq grown origin standing, ?_⟩
  · intro later spares
    have made : d.edit (.copyFrom source id) = (d.plant node).1 := edit_copyFrom standing
    have found : (act (familyOf actions) (.edit target (.copyFrom source id)))[target]? =
        some (d.plant node).1 := by
      rw [act, List.getElem?_modify_eq, there, ← made]
      rfl
    rw [familyOf, List.foldl_append, List.foldl_cons]
    exact copied.tree?_run (sound_act sounds _) found spares

/-- A paragraph is copied within its document and its text changed afterwards: the copy, which is moved
into the paragraph, keeps the text that the paragraph had. -/
theorem planted_and_copied_paragraph : ∃ d node copied now,
    (familyOf [.new, .edit 0 (.plant
      (.element "div".toList {} [.element "p".toList {} [.text "x".toList]]))])[0]? = some d ∧
    d.tree? 1 = some node ∧ d.copyFrom d 1 = (copied, .ok 3) ∧ copied.tree? 3 = some node ∧
    (familyOf [.new, .edit 0 (.plant
        (.element "div".toList {} [.element "p".toList {} [.text "x".toList]])),
      .edit 0 (.copyFrom d 1), .edit 0 (.setText 2 "y".toList), .edit 0 (.append 1 3)])[0]? =
        some now ∧
    now.tree? 3 = some node ∧ node.written false = "<p>x</p>".toList := by
  let actions : List Action := [.new, .edit 0 (.plant
    (.element "div".toList {} [.element "p".toList {} [.text "x".toList]]))]
  have facts : ((familyOf actions)[0]?).map (fun d => (d.size,
      (d.tree? 1).map fun node => (node.written false, (node.outline 0).length))) =
        some (3, some ("<p>x</p>".toList, 2)) := by decide +kernel
  rcases Option.map_eq_some_iff.mp facts with ⟨d, there, same⟩
  rcases Prod.mk.inj same with ⟨size, shape⟩
  have reached := List.mem_of_getElem? there
  rcases (planted_and_copied there).2.1 actions d 1 reached (by rw [size]; decide) with
    ⟨node, copied, standing, made, planted, _, _, stays⟩
  rw [standing, Option.map_some, Option.some.injEq, Prod.mk.injEq] at shape
  have part : copied.preorder d.size = [3, 4] := by
    rw [planted.order, shape.2, size]
    rfl
  have spares : ∀ a ∈ [Action.edit 0 (.setText 2 "y".toList), .edit 0 (.append 1 3)],
      a.Spares 0 d.size (copied.preorder d.size) := by
    rw [part, size]
    simp [Action.Spares, Edit.Spares]
  rcases stays _ spares with ⟨now, last, kept⟩
  rw [size] at made kept
  have whole := planted.tree
  rw [size] at whole
  exact ⟨d, node, copied, now, there, standing, made, whole, last, kept, shape.1⟩

end Document

end LiveTemplate
