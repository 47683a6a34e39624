import LiveTemplate.Proofs.Document.Moves

/-! Parts of a document that no edit touches. A part that holds the children of its nodes keeps its
trees through whatever happens to the rest of the document and to the other documents of a family. -/

namespace LiveTemplate

open Markup

/-- The edit changes no node of a part of a document; it may move the root of the part as a whole. -/
def Edit.Spares (root : NodeId) (part : List NodeId) : Edit → Prop
  | .create _ | .plant _ | .copyFrom _ _ => True
  | .append parent child => parent ∉ part ∧ (child ∈ part → child = root)
  | .setText id _ | .setAttribute id _ _ | .removeAttribute id _ | .toggleClass id _ => id ∉ part

namespace Document

/-- The action changes no node of a part of the document at `target`. Whatever is done to the other
documents is allowed. -/
def Action.Spares (target : Nat) (root : NodeId) (part : List NodeId) : Action → Prop
  | .new | .clone _ | .copy _ _ _ => True
  | .edit place e => place = target → e.Spares root part

variable {d now next changed : Document} {root id : NodeId} {part : List NodeId} {e : Edit}

def Closed (d : Document) (root : NodeId) (part : List NodeId) : Prop :=
  ∀ id ∈ part, ∀ child ∈ d.children id, child ∈ part ∧ child ≠ root

/-- The nodes of the part are what they were, except that the root may have another parent. -/
structure Keeps (d now : Document) (part : List NodeId) : Prop where
  content : ∀ id ∈ part, now.content? id = d.content? id
  children : ∀ id ∈ part, now.children id = d.children id
  size : d.size ≤ now.size

theorem Keeps.refl (d : Document) (part : List NodeId) : d.Keeps d part :=
  ⟨fun _ _ => rfl, fun _ _ => rfl, Nat.le_refl _⟩

theorem Keeps.trans (first : d.Keeps now part) (second : now.Keeps next part) :
    d.Keeps next part where
  content := fun id inside => (second.content id inside).trans (first.content id inside)
  children := fun id inside => (second.children id inside).trans (first.children id inside)
  size := Nat.le_trans first.size second.size

theorem Keeps.closed (keeps : d.Keeps now part) (closed : d.Closed root part) :
    now.Closed root part := by
  intro id inside
  rw [keeps.children id inside]
  exact closed id inside

theorem Keeps.tree? (keeps : d.Keeps now part) (sound : d.Sound) (closed : d.Closed root part)
    (inside : id ∈ part) : now.tree? id = d.tree? id :=
  sound.tree?_congr keeps.size _ (fun id inside child member => (closed id inside child member).1)
    keeps.content keeps.children inside

theorem size_le_of_changed (change : d.Changed changed) : d.size ≤ changed.size :=
  Nat.le_of_not_lt fun less => Nat.lt_irrefl _ (lt_size_of_changed change less)

theorem keeps_modifyAttributes (f : Attributes → Attributes) (outside : id ∉ part) :
    d.Keeps (d.modifyAttributes id f) part where
  content := by
    intro other inside
    have apart : other ≠ id := fun same => outside (same ▸ inside)
    rw [content?_modifyAttributes, if_neg apart]
  children := fun _ _ => children_modifyAttributes f
  size := size_le_of_changed (.marked id f)

theorem keeps_plant (node : Node) (known : ∀ id ∈ part, id < d.size) :
    d.Keeps (d.plant node).1 part where
  content := fun _ inside => content?_plant_of_lt node (known _ inside)
  children := fun _ inside => children_plant_of_lt node (known _ inside)
  size := size_le_of_changed (.planted node)

/-- The node that is moved leaves no list of the part, as the part holds all children of its nodes. -/
theorem keeps_append {parent child : NodeId} (sound : d.Sound) (closed : d.Closed root part)
    (spares : Edit.Spares root part (.append parent child))
    (moved : d.append parent child = (changed, .ok ())) : d.Keeps changed part where
  content := fun _ _ => content?_append moved
  children := by
    intro id inside
    have other : id ≠ parent := fun same => spares.1 (same ▸ inside)
    have elsewhere : d.parent? child ≠ some id := by
      intro linked
      rcases closed id inside child ((sound.linked id child).mpr linked) with ⟨within, inner⟩
      exact inner (spares.2 within)
    exact children_append_of_apart sound moved other elsewhere
  size := Nat.le_of_eq (size_append moved).symm

theorem keeps_edit (sound : d.Sound) (closed : d.Closed root part) (known : ∀ id ∈ part, id < d.size)
    (spares : e.Spares root part) : d.Keeps (d.edit e) part := by
  cases e with
  | create content =>
      refine ⟨fun id inside => ?_, fun _ _ => children_create content, ?_⟩
      · exact (content?_create content).trans (if_neg (Nat.ne_of_lt (known id inside)))
      · exact size_le_of_changed (.created content)
  | plant node => exact keeps_plant node known
  | copyFrom source id =>
      rw [edit]
      cases standing : source.tree? id with
      | none =>
          rw [copyFrom_of_unknown standing]
          exact .refl d part
      | some node =>
          rw [copyFrom_of_tree? standing]
          exact keeps_plant node known
  | append parent child =>
      rw [edit]
      rcases append_cases d parent child with ⟨cause, refused⟩ | done
      · rw [refused]
        exact .refl d part
      · exact keeps_append sound closed spares done
  | setText id content =>
      rw [edit]
      cases made : d.setText? id content with
      | none => exact .refl d part
      | some next =>
          refine ⟨fun other inside => ?_, fun _ _ => children_setText made, ?_⟩
          · have apart : other ≠ id := by
              rintro rfl
              exact spares inside
            exact (content?_setText made).trans (if_neg apart)
          · exact Nat.le_of_eq (size_setText made).symm
  | setAttribute id name value =>
      rw [edit]
      cases made : d.setAttribute? id name value with
      | none => exact .refl d part
      | some next =>
          rw [Option.getD_some, eq_of_setAttribute? made]
          exact keeps_modifyAttributes _ spares
  | removeAttribute id name =>
      rw [edit]
      rcases removeAttribute_cases d id name with same | ⟨others, same⟩
      · rw [same]
        exact .refl d part
      · rw [same]
        exact keeps_modifyAttributes _ spares
  | toggleClass id className =>
      rw [edit]
      cases made : d.toggleClass? id className with
      | none => exact .refl d part
      | some toggled =>
          rcases toggled with ⟨next, present⟩
          rcases eq_of_toggleClass? made with ⟨value, rfl⟩
          exact keeps_modifyAttributes _ spares

theorem keeps_act {family : List Document} {target : Nat} {a : Action}
    (there : family[target]? = some d) (sound : d.Sound) (closed : d.Closed root part)
    (known : ∀ id ∈ part, id < d.size) (spares : a.Spares target root part) :
    ∃ next, (act family a)[target]? = some next ∧ d.Keeps next part := by
  have inside : target < family.length := (List.getElem?_eq_some_iff.mp there).1
  have edited : ∀ place e, (place = target → e.Spares root part) →
      ∃ next, (family.modify place (·.edit e))[target]? = some next ∧ d.Keeps next part := by
    intro place e spares
    by_cases same : place = target
    · subst same
      refine ⟨d.edit e, ?_, keeps_edit sound closed known (spares rfl)⟩
      rw [List.getElem?_modify_eq, there]
      rfl
    · exact ⟨d, (List.getElem?_modify_ne _ _ same).trans there, .refl d part⟩
  cases a with
  | new => exact ⟨d, (List.getElem?_append_left inside).trans there, .refl d part⟩
  | clone source => exact ⟨d, (List.getElem?_append_left inside).trans there, .refl d part⟩
  | copy place source id =>
      rw [act]
      cases family[source]? with
      | none => exact ⟨d, there, .refl d part⟩
      | some original => exact edited place _ fun _ => trivial
  | edit place e => exact edited place e spares

/-- A part of a document stays what it is through every run that spares it. -/
theorem keeps_run {target : Nat} {later : List Action} : ∀ {family : List Document} {d : Document},
    (∀ other ∈ family, other.Sound) → family[target]? = some d → d.Closed root part →
    (∀ id ∈ part, id < d.size) → (∀ a ∈ later, a.Spares target root part) →
    ∃ now, (later.foldl act family)[target]? = some now ∧ d.Keeps now part := by
  induction later with
  | nil => exact fun _ there _ _ _ => ⟨_, there, .refl _ part⟩
  | cons a more ih =>
      intro family d sound there closed known spares
      have here := sound d (List.mem_of_getElem? there)
      rcases keeps_act there here closed known (spares a List.mem_cons_self) with
        ⟨next, found, first⟩
      have inside : ∀ id ∈ part, id < next.size := fun id member =>
        Nat.lt_of_lt_of_le (known id member) first.size
      rcases ih (sound_act sound a) found (first.closed closed) inside
          (fun b member => spares b (List.mem_cons_of_mem a member)) with ⟨now, last, others⟩
      exact ⟨now, last, first.trans others⟩

end Document

end LiveTemplate
