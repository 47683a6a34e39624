import LiveTemplate.Proofs.Document.Edits
import Mathlib.Data.List.Nodup
import Mathlib.Logic.Relation

/-! The links of a sound document: parents and children agree, and no node is above itself. Every
operation keeps a document sound. -/

namespace LiveTemplate.Document

open Markup

def Above (d : Document) (upper lower : NodeId) : Prop :=
  Relation.TransGen (fun parent child => d.parent? child = some parent) upper lower

structure Sound (d : Document) : Prop where
  parent_known : ∀ {id parent}, d.parent? id = some parent → parent < d.size
  child_known : ∀ {id child}, child ∈ d.children id → child < d.size
  linked : ∀ parent child, child ∈ d.children parent ↔ d.parent? child = some parent
  distinct : ∀ id, (d.children id).Nodup
  elements : ∀ {id child}, child ∈ d.children id → d.isElement id
  acyclic : ∀ id, ¬ d.Above id id

variable {d changed : Document} {id other parent child upper lower : NodeId}

theorem sound_empty : Sound {} where
  parent_known := fun linked => absurd (lt_size_of_parent? linked) (Nat.not_lt_zero _)
  child_known := fun member => absurd (lt_size_of_mem_children member) (Nat.not_lt_zero _)
  linked := by simp [parent?, children, record?]
  distinct := by simp [children, record?]
  elements := fun member => absurd (lt_size_of_mem_children member) (Nat.not_lt_zero _)
  acyclic := by
    intro id above
    rcases Relation.TransGen.tail'_iff.mp above with ⟨parent, _, linked⟩
    exact absurd (lt_size_of_parent? linked) (Nat.not_lt_zero _)

theorem lt_size_of_above (sound : d.Sound) (above : d.Above upper lower) : upper < d.size := by
  rcases Relation.TransGen.head'_iff.mp above with ⟨child, linked, _⟩
  exact sound.parent_known linked

theorem above_iff_of_parent? (linked : d.parent? child = some parent) :
    d.Above upper child ↔ upper = parent ∨ d.Above upper parent := by
  constructor
  · intro above
    rcases Relation.TransGen.tail'_iff.mp above with ⟨nearest, reached, last⟩
    obtain rfl : nearest = parent := Option.some.inj (last.symm.trans linked)
    rcases Relation.reflTransGen_iff_eq_or_transGen.mp reached with same | further
    · exact .inl same.symm
    · exact .inr further
  · rintro (rfl | above)
    · exact .single linked
    · exact .tail above linked

theorem above_of_links (kept : ∀ {id parent}, changed.parent? id = some parent →
    d.parent? id = some parent) (above : changed.Above upper lower) : d.Above upper lower :=
  Relation.TransGen.mono (fun _ _ linked => kept linked) upper lower above

theorem Sound.of_links (sound : d.Sound) (size : d.size ≤ changed.size)
    (parents : ∀ id, changed.parent? id = d.parent? id)
    (below : ∀ id, changed.children id = d.children id)
    (elements : ∀ id, d.isElement id → changed.isElement id) : changed.Sound where
  parent_known := fun linked => Nat.lt_of_lt_of_le (sound.parent_known (parents _ ▸ linked)) size
  child_known := fun member => Nat.lt_of_lt_of_le (sound.child_known (below _ ▸ member)) size
  linked := by
    intro parent child
    rw [below, parents]
    exact sound.linked parent child
  distinct := by
    intro id
    rw [below]
    exact sound.distinct id
  elements := fun member => elements _ (sound.elements (below _ ▸ member))
  acyclic := fun id above =>
    sound.acyclic id (above_of_links (fun linked => parents _ ▸ linked) above)

theorem isElement_of_content? (same : changed.content? id = d.content? id) :
    changed.isElement id = d.isElement id := by
  rw [Bool.eq_iff_iff, isElement_iff, isElement_iff, same]

theorem Sound.create (sound : d.Sound) (content : Content) : (d.create content).1.Sound := by
  apply sound.of_links
  · rw [size_create]
    exact Nat.le_succ _
  · exact fun id => parent?_create content
  · exact fun id => children_create content
  · exact fun id element => isElement_of_changed (.created content) element

theorem Sound.modifyAttributes (sound : d.Sound) (id : NodeId) (f : Attributes → Attributes) :
    (d.modifyAttributes id f).Sound := by
  apply sound.of_links
  · exact Nat.le_of_eq (size_modify _).symm
  · exact fun other => parent?_modifyAttributes f
  · exact fun other => children_modifyAttributes f
  · exact fun other element => isElement_of_changed (.marked id f) element

theorem Sound.setText {content : Text} (sound : d.Sound)
    (written : d.setText? id content = some changed) : changed.Sound := by
  apply sound.of_links
  · exact Nat.le_of_eq (size_setText written).symm
  · exact fun other => parent?_setText written
  · exact fun other => children_setText written
  · exact fun other element => isElement_of_changed (.written written) element

theorem Sound.detach (sound : d.Sound) (child : NodeId) : (d.detach child).Sound where
  parent_known := by
    intro id parent linked
    rw [parent?_detach] at linked
    split at linked
    · simp at linked
    · rw [size_detach]
      exact sound.parent_known linked
  child_known := by
    intro id inner member
    rw [children_detach] at member
    rw [size_detach]
    split at member
    · exact sound.child_known (List.mem_filter.mp member).1
    · exact sound.child_known member
  linked := by
    intro parent inner
    rw [children_detach, parent?_detach]
    by_cases same : inner = child
    · subst same
      rw [if_pos rfl]
      split
      · simp
      · rename_i apart
        simpa [sound.linked] using apart
    · rw [if_neg same]
      split
      · simp [sound.linked, same]
      · exact sound.linked parent inner
  distinct := by
    intro id
    rw [children_detach]
    split
    · exact (sound.distinct id).filter _
    · exact sound.distinct id
  elements := by
    intro id inner member
    rw [isElement_of_content? content?_detach]
    rw [children_detach] at member
    split at member
    · exact sound.elements (List.mem_filter.mp member).1
    · exact sound.elements member
  acyclic := by
    intro id above
    refine sound.acyclic id (above_of_links (fun linked => ?_) above)
    rw [parent?_detach] at linked
    split at linked
    · simp at linked
    · exact linked

/-- A path that uses a new link leads from the new parent or above to the new child or below. -/
theorem above_of_attach (present : child < d.size)
    (above : (d.attach parent child).Above upper lower) : d.Above upper lower ∨
      (upper = parent ∨ d.Above upper parent) ∧ (lower = child ∨ d.Above child lower) := by
  induction above with
  | single linked =>
      rw [parent?_attach present] at linked
      split at linked
      · rename_i same
        exact .inr ⟨.inl (Option.some.inj linked).symm, .inl same⟩
      · exact .inl (.single linked)
  | tail _ linked ih =>
      rw [parent?_attach present] at linked
      split at linked
      · rename_i same
        obtain rfl := Option.some.inj linked
        rcases ih with old | ⟨start, _⟩
        · exact .inr ⟨.inr old, .inl same⟩
        · exact .inr ⟨start, .inl same⟩
      · rcases ih with old | ⟨start, rfl | below⟩
        · exact .inl (.tail old linked)
        · exact .inr ⟨start, .inr (.single linked)⟩
        · exact .inr ⟨start, .inr (.tail below linked)⟩

theorem Sound.attach (sound : d.Sound) (element : d.isElement parent) (present : child < d.size)
    (free : d.parent? child = none) (apart : child ≠ parent) (guard : ¬ d.Above child parent) :
    (d.attach parent child).Sound := by
  have known := lt_size_of_isElement element
  have unlinked : ∀ p, child ∉ d.children p := by
    intro p member
    simp [(sound.linked p child).mp member] at free
  constructor
  · intro id p linked
    rw [parent?_attach present] at linked
    rw [size_attach]
    split at linked
    · rwa [← Option.some.inj linked]
    · exact sound.parent_known linked
  · intro id inner member
    rw [children_attach known] at member
    rw [size_attach]
    split at member
    · rcases List.mem_append.mp member with old | new
      · exact sound.child_known old
      · rwa [List.mem_singleton.mp new]
    · exact sound.child_known member
  · intro p inner
    rw [children_attach known, parent?_attach present]
    by_cases new : inner = child
    · subst new
      by_cases same : p = parent
      · simp [same]
      · simp [same, Ne.symm same, unlinked]
    · by_cases same : p = parent
      · subst same
        simp [new, sound.linked]
      · simp [same, new, sound.linked]
  · intro id
    rw [children_attach known]
    split
    · refine List.nodup_append.mpr ⟨sound.distinct parent, List.nodup_singleton child, ?_⟩
      intro inner old last new
      rw [List.mem_singleton.mp new]
      rintro rfl
      exact unlinked parent old
    · exact sound.distinct id
  · intro id inner member
    rw [isElement_of_content? content?_attach]
    rw [children_attach known] at member
    split at member
    · rename_i same
      rwa [same]
    · exact sound.elements member
  · intro id above
    -- a cycle through the new link would have led from the child to the parent before
    rcases above_of_attach present above with old | ⟨start, target⟩
    · exact sound.acyclic id old
    · rcases target with rfl | below
      · rcases start with same | further
        · exact apart same
        · exact guard further
      · rcases start with rfl | further
        · exact guard below
        · exact guard (below.trans further)

end LiveTemplate.Document
