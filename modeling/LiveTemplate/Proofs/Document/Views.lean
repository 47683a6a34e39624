import LiveTemplate.Document.Copy
import Mathlib.Tactic.Common

namespace LiveTemplate.Document

open Markup

def content? (d : Document) (id : NodeId) : Option Content :=
  (d.record? id).map (·.content)

variable {d changed : Document} {id other parent child : NodeId}

theorem record?_of_views {f : Content → Content} (content : changed.content? id = (d.content? id).map f)
    (parent : changed.parent? id = d.parent? id) (children : changed.children id = d.children id) :
    changed.record? id = (d.record? id).map fun r => { r with content := f r.content } := by
  simp only [content?, parent?, Document.children] at content parent children
  cases before : d.record? id with
  | none =>
      rw [before] at content
      simpa using content
  | some r =>
      rw [before] at content parent children
      rcases Option.map_eq_some_iff.mp content with ⟨now, found, same⟩
      rw [found] at parent children
      cases now
      simp_all

theorem record?_eq_of_views (content : changed.content? id = d.content? id)
    (parent : changed.parent? id = d.parent? id) (children : changed.children id = d.children id) :
    changed.record? id = d.record? id := by
  have same : changed.content? id = (d.content? id).map fun kind => kind := by simp [content]
  exact (record?_of_views same parent children).trans Option.map_id'

theorem eq_of_views (content : ∀ id, changed.content? id = d.content? id)
    (parent : ∀ id, changed.parent? id = d.parent? id)
    (children : ∀ id, changed.children id = d.children id)
    (writes : changed.textWrites = d.textWrites) : changed = d := by
  have records : changed.records = d.records := by
    apply Array.ext_getElem?
    exact fun id => record?_eq_of_views (content id) (parent id) (children id)
  cases d
  cases changed
  simp_all

theorem record?_isSome_iff : (d.record? id).isSome ↔ id < d.size := by
  simp [record?, size]

theorem isNone_record?_of_lt (known : id < d.size) : (d.record? id).isNone = false := by
  simpa [record?, size] using known

theorem record?_of_size_le (outside : d.size ≤ id) : d.record? id = none := by
  simpa [record?, size] using outside

theorem content?_isSome_iff : (d.content? id).isSome ↔ id < d.size := by
  rw [content?, Option.isSome_map, record?_isSome_iff]

theorem lt_size_of_parent? (linked : d.parent? child = some parent) : child < d.size := by
  rcases Option.bind_eq_some_iff.mp linked with ⟨r, found, _⟩
  exact record?_isSome_iff.mp (by simp [found])

theorem lt_size_of_mem_children (member : child ∈ d.children parent) : parent < d.size := by
  by_contra outside
  simp [children, record?_of_size_le (Nat.le_of_not_lt outside)] at member

theorem isElement_iff : d.isElement id ↔ ∃ tag attributes,
    d.content? id = some (.element tag attributes) := by
  rw [isElement, content?]
  cases found : d.record? id with
  | none => simp
  | some r => cases kind : r.content <;> simp [Record.isElement, kind]

theorem isText_iff : d.isText id ↔ ∃ content, d.content? id = some (.text content) := by
  rw [isText, content?]
  cases found : d.record? id with
  | none => simp
  | some r => cases kind : r.content <;> simp [Record.isText, kind]

theorem text?_eq_some_iff {content : Text} :
    d.text? id = some content ↔ d.content? id = some (.text content) := by
  rw [text?, content?]
  cases found : d.record? id with
  | none => simp
  | some r => cases kind : r.content <;> simp [Record.text?, kind]

theorem isText_iff_text?_isSome : d.isText id ↔ (d.text? id).isSome := by
  rw [isText_iff, Option.isSome_iff_exists]
  simp only [text?_eq_some_iff]

theorem text?_of_content? (same : changed.content? id = d.content? id) :
    changed.text? id = d.text? id := by
  apply Option.ext
  intro content
  rw [text?_eq_some_iff, text?_eq_some_iff, same]

theorem attribute?_eq_some_iff {name value : Text} : d.attribute? id name = some value ↔
    ∃ tag attributes, d.content? id = some (.element tag attributes) ∧
      attributes.get? name = some value := by
  rw [attribute?, content?]
  cases found : d.record? id with
  | none => simp
  | some r => cases kind : r.content <;> simp [Record.attributes?, kind]

theorem tag?_eq_some_iff {tag : Text} : d.tag? id = some tag ↔
    ∃ attributes, d.content? id = some (.element tag attributes) := by
  rw [tag?, content?]
  cases found : d.record? id with
  | none => simp
  | some r => cases kind : r.content <;> simp [Record.tag?, kind]

theorem isElement_of_attribute? {name value : Text} (given : d.attribute? id name = some value) :
    d.isElement id := by
  rcases attribute?_eq_some_iff.mp given with ⟨tag, attributes, found, _⟩
  exact isElement_iff.mpr ⟨tag, attributes, found⟩

theorem lt_size_of_isElement (element : d.isElement id) : id < d.size := by
  rcases isElement_iff.mp element with ⟨tag, attributes, found⟩
  exact content?_isSome_iff.mp (by simp [found])

theorem lt_size_of_isText (text : d.isText id) : id < d.size := by
  rcases isText_iff.mp text with ⟨content, found⟩
  exact content?_isSome_iff.mp (by simp [found])

theorem parentElement?_eq_some_iff : d.parentElement? id = some parent ↔
    d.parent? id = some parent ∧ d.isElement parent :=
  Option.filter_eq_some_iff

@[simp] theorem size_modify (f : Record → Record) : (d.modify id f).size = d.size := by
  simp [modify, size]

theorem record?_modify (f : Record → Record) :
    (d.modify id f).record? other =
      if id = other then (d.record? other).map f else d.record? other := by
  simp only [modify, record?, Array.getElem?_modify]

theorem content?_modify (f : Record → Record) :
    (d.modify id f).content? other = if id = other then
      (d.record? other).map (fun r => (f r).content) else d.content? other := by
  rw [content?, record?_modify]
  split <;> simp [content?, Function.comp_def]

theorem content?_modify_of_content (f : Record → Record) (keeps : ∀ r, (f r).content = r.content) :
    (d.modify id f).content? other = d.content? other := by
  rw [content?_modify, content?]
  simp [keeps]

theorem parent?_modify (f : Record → Record) (keeps : ∀ r, (f r).parent = r.parent) :
    (d.modify id f).parent? other = d.parent? other := by
  rw [parent?, parent?, record?_modify]
  split <;> cases d.record? other <;> simp [keeps]

theorem children_modify (f : Record → Record) (keeps : ∀ r, (f r).children = r.children) :
    (d.modify id f).children other = d.children other := by
  rw [children, children, record?_modify]
  split <;> cases d.record? other <;> simp [keeps]

@[simp] theorem create_snd (content : Content) : (d.create content).2 = d.size := rfl

@[simp] theorem size_create (content : Content) : (d.create content).1.size = d.size + 1 := by
  simp [create, size]

theorem record?_create (content : Content) : (d.create content).1.record? id =
    if id = d.size then some { content } else d.record? id := by
  exact Array.getElem?_push

theorem content?_create (content : Content) : (d.create content).1.content? id =
    if id = d.size then some content else d.content? id := by
  rw [content?, record?_create]
  split <;> rfl

theorem parent?_create (content : Content) :
    (d.create content).1.parent? id = d.parent? id := by
  rw [parent?, parent?, record?_create]
  split
  · rename_i fresh
    simp [record?_of_size_le (Nat.le_of_eq fresh.symm)]
  · rfl

theorem children_create (content : Content) :
    (d.create content).1.children id = d.children id := by
  rw [children, children, record?_create]
  split
  · rename_i fresh
    simp [record?_of_size_le (Nat.le_of_eq fresh.symm)]
  · rfl

@[simp] theorem size_attach : (d.attach parent child).size = d.size := by
  simp [attach]

theorem content?_attach : (d.attach parent child).content? id = d.content? id := by
  simp [attach, content?_modify_of_content]

theorem parent?_attach (present : child < d.size) : (d.attach parent child).parent? id =
    if id = child then some parent else d.parent? id := by
  rw [attach, parent?_modify]
  · rcases Option.isSome_iff_exists.mp (record?_isSome_iff.mpr present) with ⟨r, found⟩
    rw [parent?, record?_modify]
    by_cases same : id = child
    · subst same
      simp [found]
    · simp [parent?, same, Ne.symm same]
  · intro r
    rfl

theorem children_attach (present : parent < d.size) : (d.attach parent child).children id =
    if id = parent then d.children parent ++ [child] else d.children id := by
  have kept : (d.modify child fun r => { r with parent := some parent }).children id =
      d.children id := children_modify _ fun _ => rfl
  rw [attach, children, record?_modify]
  by_cases same : id = parent
  · subst same
    have known : ((d.modify child fun r => { r with parent := some id }).record? id).isSome := by
      rw [record?_isSome_iff, size_modify]
      exact present
    rcases Option.isSome_iff_exists.mp known with ⟨r, found⟩
    have before : r.children = d.children id := by
      rw [← kept, children, found]
      rfl
    simp [found, before]
  · rw [if_neg same, if_neg (Ne.symm same), ← kept, children]

@[simp] theorem size_detach : (d.detach child).size = d.size := by
  rw [detach]
  split <;> simp

theorem content?_detach : (d.detach child).content? id = d.content? id := by
  rw [detach]
  split
  · rfl
  · simp [content?_modify_of_content]

theorem parent?_detach : (d.detach child).parent? id =
    if id = child then none else d.parent? id := by
  rw [detach]
  split
  · rename_i free
    split
    · rename_i same
      rw [same, free]
    · rfl
  · rename_i old linked
    rw [parent?_modify]
    · rw [parent?, record?_modify]
      by_cases same : id = child
      · subst same
        cases d.record? id <;> simp
      · simp [parent?, same, Ne.symm same]
    · intro r
      rfl

/-- Only the list of the former parent changes. -/
theorem children_detach : (d.detach child).children id =
    if d.parent? child = some id then (d.children id).filter (· ≠ child) else d.children id := by
  rw [detach]
  split
  · rename_i free
    simp [free]
  · rename_i old linked
    have kept : ∀ x, (d.modify child fun r => { r with parent := none }).children x =
        d.children x := fun x => children_modify _ fun _ => rfl
    rw [linked, ← kept id, children, record?_modify]
    by_cases same : old = id
    · subst same
      simp only [if_true, children]
      cases (d.modify child fun r => { r with parent := none }).record? old <;> simp
    · simp [children, same]

/-- The documents differ in the contents of text nodes only. -/
structure SameTree (d changed : Document) : Prop where
  text : ∀ id, d.isText id → changed.isText id
  content : ∀ id, d.isText id = false → changed.content? id = d.content? id
  parent : ∀ id, changed.parent? id = d.parent? id
  children : ∀ id, changed.children id = d.children id
  size : changed.size = d.size

theorem SameTree.refl (d : Document) : d.SameTree d := by
  constructor <;> simp

theorem SameTree.trans {middle : Document} (first : d.SameTree middle)
    (second : middle.SameTree changed) : d.SameTree changed where
  text := fun id text => second.text id (first.text id text)
  content := by
    intro id other
    have still : middle.isText id = false := by
      by_contra text
      rcases isText_iff.mp (by simpa using text) with ⟨content, found⟩
      rw [first.content id other] at found
      simp [isText_iff.mpr ⟨content, found⟩] at other
    rw [second.content id still, first.content id other]
  parent := fun id => (second.parent id).trans (first.parent id)
  children := fun id => (second.children id).trans (first.children id)
  size := second.size.trans first.size

theorem SameTree.element_iff (same : d.SameTree changed) {tag : Text} {attributes : Attributes} :
    changed.content? id = some (.element tag attributes) ↔
      d.content? id = some (.element tag attributes) := by
  by_cases text : d.isText id
  · rcases isText_iff.mp text with ⟨content, found⟩
    rcases isText_iff.mp (same.text id text) with ⟨now, read⟩
    simp [found, read]
  · rw [same.content id (by simpa using text)]

theorem SameTree.isElement (same : d.SameTree changed) :
    changed.isElement id = d.isElement id := by
  rw [Bool.eq_iff_iff, isElement_iff, isElement_iff]
  simp only [same.element_iff]

theorem SameTree.isText (same : d.SameTree changed) : changed.isText id = d.isText id := by
  by_cases text : d.isText id
  · rw [text, same.text id text]
  · rw [Bool.eq_iff_iff, isText_iff, isText_iff, same.content id (by simpa using text)]

theorem SameTree.attribute? (same : d.SameTree changed) (name : Text) :
    changed.attribute? id name = d.attribute? id name := by
  apply Option.ext
  intro value
  rw [attribute?_eq_some_iff, attribute?_eq_some_iff]
  simp only [same.element_iff]

theorem SameTree.tag? (same : d.SameTree changed) : changed.tag? id = d.tag? id := by
  apply Option.ext
  intro tag
  rw [tag?_eq_some_iff, tag?_eq_some_iff]
  simp only [same.element_iff]

theorem SameTree.record?_eq (same : d.SameTree changed) (text : changed.text? id = d.text? id) :
    changed.record? id = d.record? id := by
  refine record?_eq_of_views ?_ (same.parent id) (same.children id)
  by_cases kind : d.isText id
  · rcases isText_iff.mp kind with ⟨content, found⟩
    rw [found, ← text?_eq_some_iff, text, text?_eq_some_iff, found]
  · exact same.content id (by simpa using kind)

theorem SameTree.parentElement? (same : d.SameTree changed) :
    changed.parentElement? id = d.parentElement? id := by
  rw [Document.parentElement?, Document.parentElement?, same.parent]
  exact congrArg (Option.filter · _) (funext fun _ => same.isElement)

end LiveTemplate.Document
