import LiveTemplate.Proofs.Document.Copies
import LiveTemplate.Proofs.Template.Mounting

/-! Copies of components that are refused. The copy is made before the node that is to take it is
looked at, so a number that the document had not given away yet may be a node of the copy itself. -/

namespace LiveTemplate

open Markup

namespace Document

variable {d : Document} {id parent : NodeId} {node : Node}

theorem Sound.root_or_below (sound : d.Sound) (new : d.size ≤ id)
    (copied : id < (d.plant node).1.size) :
    d.size = id ∨ d.size ∈ (d.plant node).1.ancestors id := by
  have after := sound.plant node
  have inside : id ∈ (d.plant node).1.preorder d.size := by
    rw [preorder_plant, List.mem_range'_1]
    exact ⟨new, size_plant d node ▸ copied⟩
  rcases (after.mem_preorder_iff d.size).mp inside with same | below
  · exact .inl same.symm
  · exact .inr (after.mem_ancestors_iff.mpr below)

theorem Sound.append_own_root (sound : d.Sound) (new : d.size ≤ parent)
    (element : (d.plant node).1.isElement parent) :
    (d.plant node).1.append parent d.size = ((d.plant node).1, .error (.cycle parent d.size)) :=
  append_cycle element (size_lt_size_plant d node)
    (sound.root_or_below new (lt_size_of_isElement element))

/-- Why a planted tree is refused a node that is no element of the document, by the number of that
node: it was there before, it is one of the tree's own, or there is none. -/
theorem Sound.append_plant_refused (sound : d.Sound) (other : d.isElement parent = false)
    (node : Node) : ∃ cause,
      (d.plant node).1.append parent d.size = ((d.plant node).1, .error cause) ∧
      (parent < d.size → cause = .notAnElement parent) ∧
      ((d.plant node).1.size ≤ parent → cause = .unknownNode parent) ∧
      (d.size ≤ parent → parent < (d.plant node).1.size → cause =
        if (d.plant node).1.isElement parent then .cycle parent d.size
        else .notAnElement parent) := by
  have grown := size_lt_size_plant d node
  rcases Nat.lt_or_ge parent (d.plant node).1.size with known | unknown
  · cases element : (d.plant node).1.isElement parent with
    | true =>
        have new : d.size ≤ parent := by
          by_contra old
          rw [isElement_of_content? (content?_plant_of_lt node (Nat.lt_of_not_le old)), other] at element
          exact Bool.false_ne_true element
        exact ⟨_, sound.append_own_root new element, fun old => absurd new (Nat.not_le_of_lt old),
          fun unknown => absurd known (Nat.not_lt_of_le unknown), fun _ _ => rfl⟩
    | false =>
        exact ⟨_, append_not_element d.size known element, fun _ => rfl,
          fun unknown => absurd known (Nat.not_lt_of_le unknown), fun _ _ => rfl⟩
  · exact ⟨_, append_unknown_parent d.size unknown,
      fun old => absurd (Nat.lt_trans old grown) (Nat.not_lt_of_le unknown), fun _ => rfl,
      fun _ known => absurd known (Nat.not_lt_of_le unknown)⟩

end Document

namespace Template

open Document

namespace Component

variable {template : Text} {o : Options} {c source : Component} {d : Document} {node : Node}
  {parent : NodeId} {actions : List Action}

theorem mount_of_refused {cause : DocumentError}
    (standing : source.document.tree? source.root = some node)
    (refused : (d.plant node).1.append parent d.size = ((d.plant node).1, .error cause)) :
    source.mount d parent = ((d.plant node).1, .error (.document cause)) := by
  rw [mount_of_tree? d parent standing, refused]

/-- A component is refused exactly the nodes that are no elements of the document, whatever their
numbers. Nodes that were there are named as no elements and numbers beyond the copy as unknown; a
number that the copy itself has taken is answered as if the node had been there. Whatever the
answer, the nodes that were there before stay as they were. -/
theorem mount_refused_or_copied (built : build template o = .ok c) (steps : List Step)
    (reached : d ∈ familyOf actions) (parent : NodeId) :
    ∃ node after result, (c.run steps).document.tree? (c.run steps).root = some node ∧
      (c.run steps).mount d parent = (after, result) ∧ after.size = d.size + node.count ∧
      ((∃ cause, result = .error cause) ↔ d.isElement parent = false) ∧
      ∀ cause, result = .error cause →
        (parent < d.size → cause = .document (.notAnElement parent)) ∧
        (after.size ≤ parent → cause = .document (.unknownNode parent)) ∧
        (d.size ≤ parent → parent < after.size → cause = .document
          (if after.isElement parent then .cycle parent d.size else .notAnElement parent)) ∧
        after.tree? d.size = some node ∧
        (∀ id < d.size, after.record? id = d.record? id) ∧
        after.textWrites = d.textWrites := by
  have sound := sound_familyOf actions d reached
  obtain ⟨node, standing⟩ := exists_tree?_run built steps
  cases element : d.isElement parent with
  | true =>
      refine ⟨node, _, _, standing, mount_eq standing sound element, size_graft, ?_, ?_⟩ <;> simp
  | false =>
      obtain ⟨cause, refused, old, beyond, own⟩ := sound.append_plant_refused element node
      refine ⟨node, _, _, standing, mount_of_refused standing refused, size_plant d node,
        by simp, ?_⟩
      rintro _ same
      obtain rfl := Except.error.inj same
      have planted := sound.planted node
      rw [plant_snd] at planted
      exact ⟨fun known => congrArg _ (old known), fun unknown => congrArg _ (beyond unknown),
        fun new copied => congrArg _ (own new copied), planted.tree, planted.earlier,
        planted.textWrites⟩

theorem mount_refused_or_copied_text : ∃ item list after,
    build "<li>x</li>".toList {} = .ok item ∧ build "<ul>a</ul>".toList {} = .ok list ∧
    list.document.isText 1 ∧
    (item.run []).mount list.document 1 = (after, .error (.document (.notAnElement 1))) ∧
    (∀ id < list.document.size, after.record? id = list.document.record? id) ∧
    after.textWrites = list.document.textWrites := by
  have facts : ((build "<li>x</li>".toList {}).toOption.bind fun _ =>
      (build "<ul>a</ul>".toList {}).toOption.map fun list =>
        (list.document.isText 1, list.document.isElement 1)) = some (true, false) := by
    decide +kernel
  rcases Option.bind_eq_some_iff.mp facts with ⟨item, itemBuilt, facts⟩
  rcases Option.map_eq_some_iff.mp facts with ⟨list, listBuilt, facts⟩
  rcases Prod.mk.inj facts with ⟨text, other⟩
  have itemBuilt := eq_ok_of_toOption itemBuilt
  have listBuilt := eq_ok_of_toOption listBuilt
  rcases exists_familyOf_run listBuilt [] with ⟨actions, reached⟩
  rw [run_nil] at reached
  obtain ⟨_, after, result, _, mounted, _, refused, why⟩ :=
    mount_refused_or_copied itemBuilt [] reached 1
  obtain ⟨cause, rfl⟩ := refused.mpr other
  obtain ⟨old, _, _, _, same, writes⟩ := why cause rfl
  rw [old (lt_size_of_isText text)] at mounted
  exact ⟨item, list, after, itemBuilt, listBuilt, text, mounted, same, writes⟩

/-- The number after the last one of a list names no node. It is the number that the copy of the item
takes, so the item is not put under itself and the answer speaks of a cycle. -/
theorem mount_under_next_number : ∃ item list,
    build "<li>x</li>".toList {} = .ok item ∧ build "<ul></ul>".toList {} = .ok list ∧
    list.document.record? 1 = none ∧
    (item.mount list.document 1).2 = .error (.document (.cycle 1 1)) := by
  have facts : ((build "<li>x</li>".toList {}).toOption.bind fun item =>
      (build "<ul></ul>".toList {}).toOption.map fun list =>
        (list.document.record? 1, (item.mount list.document 1).2)) =
      some (none, .error (.document (.cycle 1 1))) := by decide +kernel
  rcases Option.bind_eq_some_iff.mp facts with ⟨item, itemBuilt, facts⟩
  rcases Option.map_eq_some_iff.mp facts with ⟨list, listBuilt, facts⟩
  rcases Prod.mk.inj facts with ⟨unknown, cycle⟩
  exact ⟨item, list, eq_ok_of_toOption itemBuilt, eq_ok_of_toOption listBuilt, unknown, cycle⟩

end Component

end Template

end LiveTemplate
