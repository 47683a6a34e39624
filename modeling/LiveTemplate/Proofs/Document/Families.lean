import LiveTemplate.Proofs.Document.DescendingWalks

namespace LiveTemplate.Document

open Markup

variable {d changed : Document} {id parent child upper lower : NodeId}

theorem Sound.append (sound : d.Sound) (moved : d.append parent child = (changed, .ok ())) :
    changed.Sound := by
  rcases append_eq_ok_iff.mp moved with ⟨⟨element, present, apart, outside⟩, rfl⟩
  apply (sound.detach child).attach
  · rw [isElement_of_content? content?_detach]
    exact element
  · rwa [size_detach]
  · rw [parent?_detach, if_pos rfl]
  · exact apart
  · intro above
    refine outside (sound.mem_ancestors_iff.mpr (above_of_links (fun linked => ?_) above))
    rw [parent?_detach] at linked
    split at linked
    · simp at linked
    · exact linked

/-- Nothing that is planted gets above the nodes that were there before. -/
theorem above_of_plant (sound : d.Sound) (node : Node) (above : (d.plant node).1.Above upper lower)
    (known : lower < d.size) : d.Above upper lower := by
  have old : ∀ {id p}, id < d.size → (d.plant node).1.parent? id = some p →
      d.parent? id = some p := by
    intro id p inside linked
    rwa [parent?_plant_of_lt node inside] at linked
  induction above with
  | single linked => exact .single (old known linked)
  | tail _ linked ih =>
      have last := old known linked
      exact .tail (ih (sound.parent_known last)) last

mutual

theorem Sound.plant : ∀ {d : Document}, d.Sound → ∀ node : Node, (d.plant node).1.Sound
  | _, sound, .text content => sound.create (.text content)
  | _, sound, .comment content => sound.create (.comment content)
  | d, sound, .element tag attributes children => by
      have element : (d.create (.element tag attributes)).1.isElement d.size :=
        isElement_iff.mpr ⟨tag, attributes, by rw [content?_create, if_pos rfl]⟩
      exact (sound.create (.element tag attributes)).plantUnder element children

theorem Sound.plantUnder : ∀ {d : Document} {parent : NodeId}, d.Sound → d.isElement parent →
    ∀ nodes : List Node, (d.plantUnder parent nodes).Sound
  | _, _, sound, _, [] => sound
  | d, parent, sound, element, node :: more => by
      have known := lt_size_of_isElement element
      have present := size_lt_size_plant d node
      have still := isElement_of_changed (.planted node) element
      have grown : ((d.plant node).1.attach parent d.size).Sound := by
        apply (sound.plant node).attach still present
        · exact parent?_of_holds (holds_plant d node)
        · exact Nat.ne_of_gt known
        · -- the parent was there before, the root of the planted tree was not
          intro above
          exact Nat.lt_irrefl _ (lt_size_of_above sound (above_of_plant sound node above known))
      rw [Document.plantUnder]
      simp only [plant_snd]
      apply grown.plantUnder
      rwa [isElement_of_content? content?_attach]

end

/-- Whatever is done to a sound document, and whether or not it is refused, leaves it sound. -/
theorem Sound.of_changed (sound : d.Sound) (change : d.Changed changed) : changed.Sound := by
  cases change with
  | refused => exact sound
  | created content => exact sound.create content
  | planted node => exact sound.plant node
  | moved done => exact sound.append done
  | written done => exact sound.setText done
  | marked id f => exact sound.modifyAttributes id f

inductive Action where
  | new
  | clone (source : Nat)
  /-- Copies a tree of one document into another one or into the same. -/
  | copy (target source : Nat) (id : NodeId)
  | edit (target : Nat) (e : Edit)

/-- The family after an action, which changes nothing if it names a document that is not there. -/
def act (family : List Document) : Action → List Document
  | .new => family ++ [{}]
  | .clone source => family ++ family[source]?.toList
  | .copy target source id => family[source]?.elim family fun d =>
      family.modify target (·.edit (.copyFrom d id))
  | .edit target e => family.modify target (·.edit e)

def familyOf (actions : List Action) : List Document :=
  actions.foldl act []

theorem edits_mem_familyOf (edits : List Edit) :
    edits.foldl edit {} ∈ familyOf (.new :: edits.map (.edit 0)) := by
  suffices ∀ d : Document, (edits.map (.edit 0)).foldl act [d] = [edits.foldl edit d] by
    rw [familyOf, List.foldl_cons, act, List.nil_append, this]
    exact List.mem_singleton_self _
  induction edits with
  | nil => exact fun d => rfl
  | cons e more ih => exact fun d => ih (d.edit e)

theorem mem_modify {family : List Document} {f : Document → Document} {target : Nat}
    (member : d ∈ family.modify target f) : d ∈ family ∨ ∃ before ∈ family, d = f before := by
  rcases List.getElem?_of_mem member with ⟨place, found⟩
  rw [List.getElem?_modify] at found
  rcases Option.map_eq_some_iff.mp found with ⟨before, there, same⟩
  have old := List.mem_of_getElem? there
  split at same
  · exact .inr ⟨before, old, same.symm⟩
  · exact .inl (same ▸ old)

theorem sound_act {family : List Document} (sound : ∀ d ∈ family, d.Sound) (a : Action) :
    ∀ d ∈ act family a, d.Sound := by
  have edited : ∀ target e, ∀ d ∈ family.modify target (·.edit e), d.Sound := by
    intro target e d member
    rcases mem_modify member with old | ⟨before, old, rfl⟩
    · exact sound d old
    · exact (sound before old).of_changed (changed_edit before e)
  intro d member
  cases a with
  | new =>
      rcases List.mem_append.mp member with old | fresh
      · exact sound d old
      · rw [List.mem_singleton.mp fresh]
        exact sound_empty
  | clone source =>
      rcases List.mem_append.mp member with old | copied
      · exact sound d old
      · exact sound d (List.mem_of_getElem? (Option.mem_toList.mp copied))
  | copy target source id =>
      rw [act] at member
      cases found : family[source]? with
      | none => exact sound d (by simpa [found] using member)
      | some original => exact edited target _ d (by simpa [found] using member)
  | edit target e => exact edited target e d member

theorem sound_familyOf (actions : List Action) : ∀ d ∈ familyOf actions, d.Sound := by
  suffices ∀ family : List Document, (∀ d ∈ family, d.Sound) →
      ∀ d ∈ actions.foldl act family, d.Sound from this [] (by simp)
  induction actions with
  | nil => exact fun family sound => sound
  | cons a more ih => exact fun family sound => ih (act family a) (sound_act sound a)

/-- In every document of every family the links agree with each other and form no cycle, so the
ancestors of a node are the nodes above it, each once, and all walks end by themselves. -/
theorem familyOf_sound_and_walksEnd (actions : List Action) (member : d ∈ familyOf actions) :
    d.Sound ∧
      (∀ id, (id :: d.ancestors id).Nodup ∧ ∀ upper, upper ∈ d.ancestors id ↔ d.Above upper id) ∧
      d.WalksEnd := by
  have sound := sound_familyOf actions d member
  refine ⟨sound, ?_, sound.walksEnd⟩
  intro id
  exact ⟨sound.nodup_ancestors id, fun upper => sound.mem_ancestors_iff⟩

/-- A tree is planted, a subtree is refused a place in itself and then moved, and a clone of the
document takes a copy of its own root. -/
theorem familyOf_sound_and_walksEnd_moves : ∃ d,
    d ∈ familyOf [.new,
      .edit 0 (.plant (.element "a".toList {} [.element "b".toList {} [.text "t".toList], .comment []])),
      .edit 0 (.append 1 1), .edit 0 (.append 1 0), .edit 0 (.append 1 3), .clone 0,
      .copy 1 1 0, .edit 1 (.append 5 0)] ∧
    d.parent? 0 = some 5 ∧ d.ancestors 3 = [1, 0, 5, 4] ∧ d.Sound := by
  let family := familyOf [.new,
    .edit 0 (.plant (.element "a".toList {} [.element "b".toList {} [.text "t".toList], .comment []])),
    .edit 0 (.append 1 1), .edit 0 (.append 1 0), .edit 0 (.append 1 3), .clone 0,
    .copy 1 1 0, .edit 1 (.append 5 0)]
  have facts : family[1]?.map (fun d => (d.parent? 0, d.ancestors 3)) =
      some (some 5, [1, 0, 5, 4]) := by decide +kernel
  rcases Option.map_eq_some_iff.mp facts with ⟨d, found, same⟩
  rcases Prod.mk.inj same with ⟨parent, ancestors⟩
  have member := List.mem_of_getElem? found
  exact ⟨d, member, parent, ancestors, (familyOf_sound_and_walksEnd _ member).1⟩

end LiveTemplate.Document
