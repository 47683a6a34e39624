import LiveTemplate.Proofs.Markup.Tidiness
import LiveTemplate.Proofs.Template.Handles

namespace LiveTemplate

open Markup
open Template

namespace Markup

def Content.handle? : Content → Option (Text × Text)
  | .element tag attributes =>
    ((attributes.get? handleAttribute).filter (!·.isEmpty)).map fun handle => (handle, tag)
  | _ => none

theorem Content.handle?_eq_some_iff {tag other handle : Text} {attributes : Attributes} :
    (Content.element tag attributes).handle? = some (handle, other) ↔
      handle ≠ [] ∧ attributes.get? handleAttribute = some handle ∧ tag = other := by
  simp [Content.handle?, Option.filter_eq_some_iff, and_left_comm, and_assoc]

mutual

/-- The handles that a tree declares, in document order and with the tags of their elements. An
element without a child declares nothing. -/
def Node.declarations : Node → List (Text × Text)
  | .text _ => []
  | .comment _ => []
  | .element _ _ [] => []
  | .element tag attributes (child :: more) =>
    (Content.element tag attributes).handle?.toList ++ declarationsAll (child :: more)

def declarationsAll : List Node → List (Text × Text)
  | [] => []
  | node :: more => node.declarations ++ declarationsAll more

end

mutual

theorem isTagName_of_mem_declarations {entry : Text × Text} : ∀ {node : Node}, node.Tidy →
    entry ∈ node.declarations → IsTagName entry.2
  | .element tag attributes (child :: more), ⟨tidy, inner⟩, member => by
      rcases List.mem_append.mp member with own | below
      · obtain ⟨_, _, rfl⟩ := Option.map_eq_some_iff.mp (Option.mem_toList.mp own)
        exact tidy.named
      · exact isTagName_of_mem_declarationsAll inner below
  | .element _ _ [], _, member => by simp [Node.declarations] at member
  | .text _, _, member => by simp [Node.declarations] at member
  | .comment _, _, member => by simp [Node.declarations] at member

theorem isTagName_of_mem_declarationsAll {entry : Text × Text} : ∀ {nodes : List Node},
    AllTidy nodes → entry ∈ declarationsAll nodes → IsTagName entry.2
  | node :: more, ⟨tidy, others⟩, member => by
      rcases List.mem_append.mp member with first | later
      · exact isTagName_of_mem_declarations tidy first
      · exact isTagName_of_mem_declarationsAll others later
  | [], _, member => by simp [declarationsAll] at member

end

end Markup

def Record.declaration? (r : Record) : Option (Text × Text) :=
  if r.children.isEmpty then none else r.content.handle?

namespace Document

def declaration? (d : Document) (id : NodeId) : Option (Text × Text) :=
  (d.record? id).bind Record.declaration?

variable {d changed : Document} {handle tag : Text} {id : NodeId}

theorem declaration?_eq_some_iff :
    d.declaration? id = some (handle, tag) ↔ d.Declares handle id ∧ d.tag? id = some tag := by
  rw [declaration?, Declares, Carries, attribute?, children, tag?]
  cases found : d.record? id with
  | none => simp
  | some r =>
      cases kind : r.content with
      | text content => simp [Record.declaration?, kind, Content.handle?, Record.tag?]
      | comment content => simp [Record.declaration?, kind, Content.handle?, Record.tag?]
      | element tag attributes =>
          simp only [Option.bind_some, Option.map_some, Option.getD_some, Option.some.injEq, kind,
            Record.declaration?, Record.tag?, Record.attributes?, List.isEmpty_iff,
            Option.ite_none_left_eq_some, Content.handle?_eq_some_iff]
          tauto

theorem Declares.declaration? (declares : d.Declares handle id) :
    ∃ tag, d.declaration? id = some (handle, tag) := by
  rcases attribute?_eq_some_iff.mp declares.1.2 with ⟨tag, attributes, found, _⟩
  exact ⟨tag, declaration?_eq_some_iff.mpr ⟨declares, tag?_eq_some_iff.mpr ⟨attributes, found⟩⟩⟩

theorem SameTree.declaration? (same : d.SameTree changed) :
    changed.declaration? = d.declaration? := by
  funext id
  apply Option.ext
  rintro ⟨handle, tag⟩
  rw [declaration?_eq_some_iff, declaration?_eq_some_iff, same.declares, same.tag?]

/-- The first declaration of a handle is that of the first element that declares it. -/
theorem find?_filterMap_declaration? (d : Document) (handle : Text) (ids : List NodeId) :
    (ids.filterMap d.declaration?).find? (·.1 = handle) =
      (ids.find? (d.Declares handle ·)).bind d.declaration? := by
  have declared : ∀ id, (d.declaration? id).any (·.1 = handle) = decide (d.Declares handle id) := by
    intro id
    rw [Bool.eq_iff_iff, Option.any_eq_true, decide_eq_true_iff]
    constructor
    · rintro ⟨⟨_, tag⟩, declared, same⟩
      obtain rfl := of_decide_eq_true same
      exact (declaration?_eq_some_iff.mp declared).1
    · intro declares
      rcases declares.declaration? with ⟨tag, declared⟩
      exact ⟨(handle, tag), declared, by simp⟩
  simp only [List.find?_filterMap, declared]

mutual

theorem filterMap_declaration?_records : ∀ (node : Node) (base : NodeId) (parent : Option NodeId),
    (node.records base parent).filterMap Record.declaration? = node.declarations
  | .text _, _, _ => rfl
  | .comment _, _, _ => rfl
  | .element _ _ [], _, _ => rfl
  | .element tag attributes (child :: more), base, parent => by
      have below := filterMap_declaration?_recordsAll (child :: more) (base + 1) (some base)
      rw [Node.records, Node.declarations, ← below]
      cases own : (Content.element tag attributes).handle? with
      | none => exact List.filterMap_cons_none own
      | some entry => exact List.filterMap_cons_some own

theorem filterMap_declaration?_recordsAll : ∀ (nodes : List Node) (base : NodeId)
    (parent : Option NodeId),
    (recordsAll base parent nodes).filterMap Record.declaration? = declarationsAll nodes
  | [], _, _ => rfl
  | node :: more, base, parent => by
      rw [recordsAll, declarationsAll, List.filterMap_append, filterMap_declaration?_records node,
        filterMap_declaration?_recordsAll more]

end

end Document

namespace Template

open Document

namespace Component

variable {template : Text} {o : Options} {c : Component} {node : Node}

theorem nodup_keys_handles (built : build template o = .ok c) : c.handles.keys.Nodup := by
  rcases tracks_build built with ⟨d, root, planted, _⟩
  rw [handles_build built planted]
  exact Table.nodup_keys_foldl_insertNew _ .nil

theorem declarations_build (built : build template o = .ok c)
    (found : rootOf (o.renamed template) = .ok node) :
    (c.document.preorder c.root).filterMap c.document.declaration? = node.declarations := by
  rcases tracks_build built with ⟨d, root, planted, _, _, _, tree, rfl⟩
  rcases plantRoot_eq_ok planted with ⟨same, again, rfl, rooted⟩
  obtain rfl : same = node := Except.ok.inj (again.symm.trans found)
  have order : (Document.plant {} same).1.preorder 0 =
      List.range (Document.plant {} same).1.size :=
    (preorder_plant {} same).trans (range_size_plant same).symm
  rw [rooted, tree.preorder, order, tree.declaration?]
  refine (filterMap_range _ Record.declaration?).trans ?_
  rw [plant_records]
  exact filterMap_declaration?_records same 0 none

/-- A handle of a component leads to the element that declares it first in the tree of its
template. -/
theorem element_of_declarations (built : build template o = .ok c)
    (found : rootOf (o.renamed template) = .ok node) (handle : Text) :
    (∃ id tag, handle ∈ c.handles.keys ∧ c.element handle = .ok id ∧ c.document.tag? id = some tag ∧
      node.declarations.find? (·.1 = handle) = some (handle, tag)) ∨
    (handle ∉ c.handles.keys ∧ node.declarations.find? (·.1 = handle) = none) := by
  rw [← declarations_build built found, find?_filterMap_declaration?, Table.mem_keys_iff]
  rcases handle_build built handle with ⟨id, child, registered, linked, _, first⟩ | ⟨unknown, missing⟩
  · have declares : c.document.Declares handle id := by simpa using List.find?_some first
    rcases declares.declaration? with ⟨tag, declared⟩
    refine .inl ⟨id, tag, by simp [registered], element_of_handle registered linked,
      (declaration?_eq_some_iff.mp declared).2, ?_⟩
    rw [first, Option.bind_some, declared]
  · exact .inr ⟨by simp [unknown], by rw [missing, Option.bind_none]⟩

end Component

end Template

end LiveTemplate
