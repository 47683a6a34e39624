import LiveTemplate.Document.Classes
import LiveTemplate.Proofs.Document.Planted

namespace LiveTemplate

open Markup

inductive Edit where
  | create (content : Content)
  | plant (node : Node)
  | copyFrom (source : Document) (id : NodeId)
  | append (parent child : NodeId)
  | setText (id : NodeId) (content : Text)
  | setAttribute (id : NodeId) (name value : Text)
  | removeAttribute (id : NodeId) (name : Text)
  | toggleClass (id : NodeId) (className : Text)

namespace Document

def edit (d : Document) : Edit → Document
  | .create content => (d.create content).1
  | .plant node => (d.plant node).1
  | .copyFrom source id => (d.copyFrom source id).1
  | .append parent child => (d.append parent child).1
  | .setText id content => (d.setText? id content).getD d
  | .setAttribute id name value => (d.setAttribute? id name value).getD d
  | .removeAttribute id name => (d.removeAttribute id name).1
  | .toggleClass id className => (d.toggleClass? id className).elim d Prod.fst

variable {d changed : Document} {id other parent child : NodeId} {content : Text}

theorem setText?_isSome_iff : (d.setText? id content).isSome ↔ d.isText id := by
  rw [setText?]
  split <;> simp_all

theorem eq_of_setText? (written : d.setText? id content = some changed) :
    d.isText id ∧ changed = { d.modify id fun r => { r with content := .text content } with
      textWrites := d.textWrites + 1 } := by
  rw [setText?] at written
  split at written
  · rename_i text
    exact ⟨text, (Option.some.inj written).symm⟩
  · simp at written

theorem content?_setText (written : d.setText? id content = some changed) :
    changed.content? other = if other = id then some (.text content) else d.content? other := by
  rcases eq_of_setText? written with ⟨text, rfl⟩
  obtain ⟨r, found⟩ := Option.isSome_iff_exists.mp (record?_isSome_iff.mpr (lt_size_of_isText text))
  refine (content?_modify (d := d) _).trans ?_
  by_cases same : other = id
  · subst same
    simp [found]
  · simp [same, Ne.symm same]

theorem parent?_setText (written : d.setText? id content = some changed) :
    changed.parent? other = d.parent? other := by
  rcases eq_of_setText? written with ⟨_, rfl⟩
  exact parent?_modify (d := d) _ fun _ => rfl

theorem children_setText (written : d.setText? id content = some changed) :
    changed.children other = d.children other := by
  rcases eq_of_setText? written with ⟨_, rfl⟩
  exact children_modify (d := d) _ fun _ => rfl

theorem size_setText (written : d.setText? id content = some changed) : changed.size = d.size := by
  rcases eq_of_setText? written with ⟨_, rfl⟩
  exact size_modify (d := d) _

theorem textWrites_setText (written : d.setText? id content = some changed) :
    changed.textWrites = d.textWrites + 1 := by
  rcases eq_of_setText? written with ⟨_, rfl⟩
  rfl

def withAttributes (f : Attributes → Attributes) : Content → Content
  | .element tag attributes => .element tag (f attributes)
  | content => content

theorem content?_modifyAttributes (f : Attributes → Attributes) :
    (d.modifyAttributes id f).content? other =
      if other = id then (d.content? other).map (withAttributes f) else d.content? other := by
  rw [modifyAttributes, content?_modify, content?]
  by_cases same : id = other
  · subst same
    cases d.record? id with
    | none => simp
    | some r => cases kind : r.content <;> simp [kind, withAttributes]
  · simp [same, Ne.symm same]

theorem parent?_modifyAttributes (f : Attributes → Attributes) :
    (d.modifyAttributes id f).parent? other = d.parent? other := by
  rw [modifyAttributes, parent?_modify]
  intro r
  cases kind : r.content <;> simp

theorem children_modifyAttributes (f : Attributes → Attributes) :
    (d.modifyAttributes id f).children other = d.children other := by
  rw [modifyAttributes, children_modify]
  intro r
  cases kind : r.content <;> simp

theorem text?_modifyAttributes (f : Attributes → Attributes) :
    (d.modifyAttributes id f).text? other = d.text? other := by
  apply Option.ext
  intro content
  rw [text?_eq_some_iff, text?_eq_some_iff, content?_modifyAttributes]
  split
  · cases d.content? other with
    | none => rfl
    | some kind => cases kind <;> simp [withAttributes]
  · rfl

theorem eq_of_setAttribute? {name value : Text}
    (given : d.setAttribute? id name value = some changed) :
    changed = d.modifyAttributes id (·.insert name value) := by
  rw [setAttribute?] at given
  split at given
  · exact (Option.some.inj given).symm
  · simp at given

theorem removeAttribute_cases (d : Document) (id : NodeId) (name : Text) :
    (d.removeAttribute id name).1 = d ∨
      ∃ others, (d.removeAttribute id name).1 = d.modifyAttributes id fun _ => others := by
  rw [removeAttribute]
  cases (d.record? id).bind Record.attributes? with
  | none => exact .inl rfl
  | some attributes => exact .inr ⟨_, rfl⟩

theorem eq_of_toggleClass? {className : Text} {present : Bool}
    (toggled : d.toggleClass? id className = some (changed, present)) :
    ∃ value, changed = d.modifyAttributes id (·.insert classAttribute value) := by
  rcases Option.map_eq_some_iff.mp toggled with ⟨result, given, same⟩
  rcases Prod.mk.inj same with ⟨rfl, _⟩
  exact ⟨_, eq_of_setAttribute? given⟩

theorem copyFrom_of_tree? {source : Document} {node : Node} (standing : source.tree? id = some node) :
    d.copyFrom source id = ((d.plant node).1, .ok d.size) := by
  rw [copyFrom, standing, ← plant_snd d node]

theorem copyFrom_of_unknown {source : Document} (unknown : source.tree? id = none) :
    d.copyFrom source id = (d, .error (.unknownNode id)) := by
  rw [copyFrom, unknown]

theorem parent?_plant_of_lt (node : Node) (known : id < d.size) :
    (d.plant node).1.parent? id = d.parent? id := by
  rw [parent?, record?_plant_of_lt node known, parent?]

theorem content?_plant_of_lt (node : Node) (known : id < d.size) :
    (d.plant node).1.content? id = d.content? id := by
  rw [content?, record?_plant_of_lt node known, content?]

theorem children_plant_of_lt (node : Node) (known : id < d.size) :
    (d.plant node).1.children id = d.children id := by
  rw [children, record?_plant_of_lt node known, children]

theorem append_eq_ok_iff : d.append parent child = (changed, .ok ()) ↔
    (d.isElement parent ∧ child < d.size ∧ child ≠ parent ∧ child ∉ d.ancestors parent) ∧
      changed = (d.detach child).attach parent child := by
  rw [append]
  by_cases element : d.isElement parent
  · rw [isNone_record?_of_lt (lt_size_of_isElement element)]
    by_cases present : child < d.size
    · rw [isNone_record?_of_lt present]
      by_cases cycle : child = parent ∨ child ∈ d.ancestors parent
      · simp only [element, cycle, if_true, Bool.not_true, Bool.false_eq_true, if_false]
        simp only [Prod.mk.injEq, reduceCtorEq, and_false, false_iff]
        tauto
      · simp only [element, cycle, present, if_false, Bool.not_true, Bool.false_eq_true]
        rw [not_or] at cycle
        simp [cycle, eq_comm]
    · simp [element, present, record?_of_size_le (Nat.le_of_not_lt present)]
  · by_cases there : (d.record? parent).isNone <;> simp [element, there]

theorem append_cases (d : Document) (parent child : NodeId) :
    (∃ cause, d.append parent child = (d, .error cause)) ∨
      d.append parent child = ((d.append parent child).1, .ok ()) := by
  rw [append]
  repeat' split
  · exact .inl ⟨_, rfl⟩
  · exact .inl ⟨_, rfl⟩
  · exact .inl ⟨_, rfl⟩
  · exact .inl ⟨_, rfl⟩
  · exact .inr rfl

theorem content?_append (moved : d.append parent child = (changed, .ok ())) :
    changed.content? id = d.content? id := by
  rcases append_eq_ok_iff.mp moved with ⟨_, rfl⟩
  rw [content?_attach, content?_detach]

theorem parent?_append (moved : d.append parent child = (changed, .ok ())) :
    changed.parent? id = if id = child then some parent else d.parent? id := by
  rcases append_eq_ok_iff.mp moved with ⟨⟨_, present, _, _⟩, rfl⟩
  rw [parent?_attach (by rwa [size_detach]), parent?_detach]
  split <;> rfl

inductive Changed (d : Document) : Document → Prop where
  | refused : Changed d d
  | created (content : Content) : Changed d (d.create content).1
  | planted (node : Node) : Changed d (d.plant node).1
  | moved {parent child : NodeId} {next : Document}
      (done : d.append parent child = (next, .ok ())) : Changed d next
  | written {id : NodeId} {content : Text} {next : Document}
      (done : d.setText? id content = some next) : Changed d next
  | marked (id : NodeId) (f : Attributes → Attributes) : Changed d (d.modifyAttributes id f)

/-- An edit is refused, or it does one of these things. -/
theorem edit_cases (d : Document) (e : Edit) : d.edit e = d ∨
    (∃ content, d.edit e = (d.create content).1) ∨ (∃ node, d.edit e = (d.plant node).1) ∨
    (∃ parent child, e = .append parent child ∧ d.append parent child = (d.edit e, .ok ())) ∨
    (∃ id content, e = .setText id content ∧ d.setText? id content = some (d.edit e)) ∨
    ∃ id f, d.edit e = d.modifyAttributes id f := by
  cases e with
  | create content => exact .inr (.inl ⟨content, rfl⟩)
  | plant node => exact .inr (.inr (.inl ⟨node, rfl⟩))
  | copyFrom source id =>
      cases standing : source.tree? id with
      | none => exact .inl (congrArg Prod.fst (copyFrom_of_unknown standing))
      | some node =>
          exact .inr (.inr (.inl ⟨node, congrArg Prod.fst (copyFrom_of_tree? standing)⟩))
  | append parent child =>
      rcases append_cases d parent child with ⟨cause, refused⟩ | done
      · exact .inl (congrArg Prod.fst refused)
      · exact .inr (.inr (.inr (.inl ⟨parent, child, rfl, done⟩)))
  | setText id content =>
      rw [edit]
      cases made : d.setText? id content with
      | none => exact .inl rfl
      | some next => exact .inr (.inr (.inr (.inr (.inl ⟨id, content, rfl, made⟩))))
  | setAttribute id name value =>
      rw [edit]
      cases made : d.setAttribute? id name value with
      | none => exact .inl rfl
      | some next => exact .inr (.inr (.inr (.inr (.inr ⟨id, _, eq_of_setAttribute? made⟩))))
  | removeAttribute id name =>
      rcases removeAttribute_cases d id name with same | ⟨others, same⟩
      · exact .inl same
      · exact .inr (.inr (.inr (.inr (.inr ⟨id, _, same⟩))))
  | toggleClass id className =>
      rw [edit]
      cases made : d.toggleClass? id className with
      | none => exact .inl rfl
      | some toggled =>
          rcases eq_of_toggleClass? made with ⟨value, same⟩
          exact .inr (.inr (.inr (.inr (.inr ⟨id, _, same⟩))))

theorem changed_edit (d : Document) (e : Edit) : d.Changed (d.edit e) := by
  rcases edit_cases d e with same | ⟨content, same⟩ | ⟨node, same⟩ | ⟨parent, child, _, done⟩ |
    ⟨id, content, _, done⟩ | ⟨id, f, same⟩
  · rw [same]
    exact .refused
  · rw [same]
    exact .created content
  · rw [same]
    exact .planted node
  · exact .moved done
  · exact .written done
  · rw [same]
    exact .marked id f

def Becomes : Content → Content → Prop
  | .text _, now => ∃ content, now = .text content
  | .comment content, now => now = .comment content
  | .element tag _, now => ∃ attributes, now = .element tag attributes

theorem becomes_self : ∀ content : Content, Becomes content content
  | .text content => ⟨content, rfl⟩
  | .comment _ => rfl
  | .element _ attributes => ⟨attributes, rfl⟩

theorem becomes_withAttributes (f : Attributes → Attributes) : ∀ content : Content,
    Becomes content (withAttributes f content)
  | .text content => ⟨content, rfl⟩
  | .comment _ => rfl
  | .element _ attributes => ⟨f attributes, rfl⟩

/-- No edit makes a node anything else than it was. -/
theorem becomes_of_changed {kind : Content} (change : d.Changed changed)
    (found : d.content? id = some kind) :
    ∃ now, changed.content? id = some now ∧ Becomes kind now := by
  have known : id < d.size := content?_isSome_iff.mp (by simp [found])
  cases change with
  | refused => exact ⟨kind, found, becomes_self kind⟩
  | created fresh =>
      rw [content?_create, if_neg (Nat.ne_of_lt known)]
      exact ⟨kind, found, becomes_self kind⟩
  | planted node => exact ⟨kind, (content?_plant_of_lt node known).trans found, becomes_self kind⟩
  | moved done => exact ⟨kind, (content?_append done).trans found, becomes_self kind⟩
  | @written target fresh _ done =>
      rw [content?_setText done]
      split
      · rename_i same
        rcases isText_iff.mp (eq_of_setText? done).1 with ⟨content, text⟩
        obtain rfl := Option.some.inj (found.symm.trans (same ▸ text))
        exact ⟨.text fresh, rfl, fresh, rfl⟩
      · exact ⟨kind, found, becomes_self kind⟩
  | marked target f =>
      rw [content?_modifyAttributes, found]
      split
      · exact ⟨_, rfl, becomes_withAttributes f kind⟩
      · exact ⟨kind, rfl, becomes_self kind⟩

theorem lt_size_of_changed (change : d.Changed changed) (known : id < d.size) :
    id < changed.size := by
  rcases Option.isSome_iff_exists.mp (content?_isSome_iff.mpr known) with ⟨kind, found⟩
  rcases becomes_of_changed change found with ⟨now, still, _⟩
  exact content?_isSome_iff.mp (by simp [still])

theorem lt_size_of_edits {edits : List Edit} (known : id < d.size) :
    id < (edits.foldl edit d).size := by
  induction edits generalizing d with
  | nil => exact known
  | cons e more ih => exact ih (lt_size_of_changed (changed_edit d e) known)

theorem isText_of_changed (change : d.Changed changed) (text : d.isText id) :
    changed.isText id := by
  rcases isText_iff.mp text with ⟨content, found⟩
  rcases becomes_of_changed change found with ⟨_, now, other, rfl⟩
  exact isText_iff.mpr ⟨other, now⟩

theorem isElement_of_changed (change : d.Changed changed) (element : d.isElement id) :
    changed.isElement id := by
  rcases isElement_iff.mp element with ⟨tag, attributes, found⟩
  rcases becomes_of_changed change found with ⟨_, now, others, rfl⟩
  exact isElement_iff.mpr ⟨tag, others, now⟩

theorem parent?_edit (e : Edit) (known : id < d.size)
    (unmoved : ∀ parent next, e = .append parent id → d.append parent id ≠ (next, .ok ())) :
    (d.edit e).parent? id = d.parent? id := by
  rcases edit_cases d e with same | ⟨content, same⟩ | ⟨node, same⟩ | ⟨parent, child, made, done⟩ |
    ⟨target, content, _, done⟩ | ⟨target, f, same⟩
  · rw [same]
  · rw [same, parent?_create]
  · rw [same, parent?_plant_of_lt node known]
  · have apart : id ≠ child := by
      rintro rfl
      exact unmoved parent _ made done
    rw [parent?_append done, if_neg apart]
  · exact parent?_setText done
  · rw [same, parent?_modifyAttributes]

theorem text?_edit (e : Edit) (known : id < d.size)
    (unwritten : ∀ content, e ≠ .setText id content) : (d.edit e).text? id = d.text? id := by
  rcases edit_cases d e with same | ⟨content, same⟩ | ⟨node, same⟩ | ⟨parent, child, _, done⟩ |
    ⟨target, content, made, done⟩ | ⟨target, f, same⟩
  · rw [same]
  · rw [same]
    exact text?_of_content? ((content?_create content).trans (if_neg (Nat.ne_of_lt known)))
  · rw [same]
    exact text?_of_content? (content?_plant_of_lt node known)
  · exact text?_of_content? (content?_append done)
  · have apart : id ≠ target := by
      rintro rfl
      exact unwritten content made
    exact text?_of_content? ((content?_setText done).trans (if_neg apart))
  · rw [same, text?_modifyAttributes]

theorem parentElement?_edit {e : Edit} (found : d.parentElement? id = some parent)
    (unmoved : ∀ target next, e = .append target id → d.append target id ≠ (next, .ok ())) :
    (d.edit e).parentElement? id = some parent := by
  rcases parentElement?_eq_some_iff.mp found with ⟨linked, element⟩
  have kept := parent?_edit e (lt_size_of_parent? linked) unmoved
  exact parentElement?_eq_some_iff.mpr
    ⟨kept.trans linked, isElement_of_changed (changed_edit d e) element⟩

theorem parentElement?_edits {edits : List Edit} (found : d.parentElement? id = some parent)
    (unmoved : ∀ target, .append target id ∉ edits) :
    (edits.foldl edit d).parentElement? id = some parent := by
  induction edits generalizing d with
  | nil => exact found
  | cons e more ih =>
      apply ih
      · apply parentElement?_edit found
        rintro target _ rfl
        exact absurd List.mem_cons_self (unmoved target)
      · exact fun target member => unmoved target (List.mem_cons_of_mem e member)

end Document

end LiveTemplate
