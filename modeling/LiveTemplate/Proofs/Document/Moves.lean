import LiveTemplate.Proofs.Document.Families
import LiveTemplate.Proofs.Document.Subtrees

/-! Appending a node: the reasons for which it is refused, and what a move changes. A move takes the
node out of one list of children and puts it at the end of another; every tree that holds neither of
the two parents stays what it was, that of the moved node among them. -/

namespace LiveTemplate.Document

variable {d changed : Document} {id other parent child former : NodeId} {actions : List Action}

/-- What `changed` is to `d` once `child` has become the last child of `parent`. -/
structure Moved (d changed : Document) (parent child : NodeId) : Prop where
  /-- The other children of the new parent keep their order. -/
  arrived : changed.children parent = (d.children parent).filter (· ≠ child) ++ [child]
  /-- Another parent loses the node and nothing else. -/
  left : ∀ former, d.parent? child = some former → former ≠ parent → ∃ before after,
    d.children former = before ++ child :: after ∧ changed.children former = before ++ after
  untouched : ∀ other, other ≠ parent → d.parent? child ≠ some other →
    changed.children other = d.children other
  linked : changed.parent? child = some parent
  parents : ∀ other, other ≠ child → changed.parent? other = d.parent? other
  contents : ∀ other, changed.content? other = d.content? other
  size : changed.size = d.size
  textWrites : changed.textWrites = d.textWrites
  /-- Trees that hold neither the new parent nor the former one. -/
  apart : ∀ root, parent ∉ d.preorder root → (∀ former ∈ d.parent? child, former ∉ d.preorder root) →
    changed.tree? root = d.tree? root
  tree : changed.tree? child = d.tree? child

theorem append_unknown_parent (child : NodeId) (unknown : d.size ≤ parent) :
    d.append parent child = (d, .error (.unknownNode parent)) := by
  rw [append, record?_of_size_le unknown]
  rfl

theorem append_not_element (child : NodeId) (known : parent < d.size)
    (other : d.isElement parent = false) :
    d.append parent child = (d, .error (.notAnElement parent)) := by
  rw [append, isNone_record?_of_lt known, other]
  rfl

theorem append_unknown_child (element : d.isElement parent) (unknown : d.size ≤ child) :
    d.append parent child = (d, .error (.unknownNode child)) := by
  rw [append, isNone_record?_of_lt (lt_size_of_isElement element), element,
    record?_of_size_le unknown]
  rfl

theorem append_cycle (element : d.isElement parent) (known : child < d.size)
    (cycle : child = parent ∨ child ∈ d.ancestors parent) :
    d.append parent child = (d, .error (.cycle parent child)) := by
  rw [append, isNone_record?_of_lt (lt_size_of_isElement element), element,
    isNone_record?_of_lt known, if_pos cycle]
  rfl

theorem Sound.filter_children (sound : d.Sound) (elsewhere : d.parent? child ≠ some id) :
    (d.children id).filter (· ≠ child) = d.children id := by
  rw [List.filter_eq_self]
  intro inner member
  rw [decide_eq_true_iff]
  rintro rfl
  exact elsewhere ((sound.linked id inner).mp member)

theorem children_append (sound : d.Sound) (moved : d.append parent child = (changed, .ok ())) :
    changed.children id =
      (d.children id).filter (· ≠ child) ++ if id = parent then [child] else [] := by
  rcases append_eq_ok_iff.mp moved with ⟨⟨element, _, _, _⟩, rfl⟩
  have known : parent < (d.detach child).size := by
    rw [size_detach]
    exact lt_size_of_isElement element
  have detached : ∀ other, (d.detach child).children other = (d.children other).filter (· ≠ child) := by
    intro other
    rw [children_detach]
    split
    · rfl
    · rename_i elsewhere
      exact (sound.filter_children elsewhere).symm
  rw [children_attach known, detached, detached]
  split
  · rename_i same
    rw [same]
  · exact (List.append_nil _).symm

theorem children_append_of_apart (sound : d.Sound) (moved : d.append parent child = (changed, .ok ()))
    (other : id ≠ parent) (elsewhere : d.parent? child ≠ some id) :
    changed.children id = d.children id := by
  rw [children_append sound moved, if_neg other, List.append_nil, sound.filter_children elsewhere]

theorem size_append (moved : d.append parent child = (changed, .ok ())) : changed.size = d.size := by
  rcases append_eq_ok_iff.mp moved with ⟨_, rfl⟩
  rw [size_attach, size_detach]

theorem textWrites_append (moved : d.append parent child = (changed, .ok ())) :
    changed.textWrites = d.textWrites := by
  rcases append_eq_ok_iff.mp moved with ⟨_, rfl⟩
  rw [detach]
  split <;> rfl

theorem filter_ne_of_nodup {l : List NodeId} (distinct : l.Nodup) (member : child ∈ l) :
    ∃ before after, l = before ++ child :: after ∧ l.filter (· ≠ child) = before ++ after := by
  rcases List.append_of_mem member with ⟨before, after, rfl⟩
  have without := List.nodup_middle.mp distinct
  refine ⟨before, after, rfl, ?_⟩
  have kept : (before ++ after).filter (· ≠ child) = before ++ after := by
    rw [List.filter_eq_self]
    intro inner inside
    rw [decide_eq_true_iff]
    rintro rfl
    exact (List.nodup_cons.mp without).1 inside
  rw [← kept]
  simp

theorem tree?_append (sound : d.Sound) (moved : d.append parent child = (changed, .ok ())) {root : NodeId}
    (outside : parent ∉ d.preorder root)
    (apart : ∀ former ∈ d.parent? child, former ∉ d.preorder root) :
    changed.tree? root = d.tree? root := by
  apply sound.tree?_congr (Nat.le_of_eq (size_append moved).symm) (· ∈ d.preorder root)
  · exact fun id inside inner => sound.mem_preorder_of_child inside
  · exact fun id _ => content?_append moved
  · intro id inside
    have elsewhere : d.parent? child ≠ some id := fun linked => apart id linked inside
    have other : id ≠ parent := by
      rintro rfl
      exact outside inside
    exact children_append_of_apart sound moved other elsewhere
  · exact sound.mem_preorder_self root

theorem Sound.moved (sound : d.Sound) (done : d.append parent child = (changed, .ok ())) :
    d.Moved changed parent child := by
  rcases (append_eq_ok_iff.mp done).1 with ⟨element, known, apart, outside⟩
  constructor
  · rw [children_append sound done, if_pos rfl]
  · intro former linked other
    rw [children_append sound done, if_neg other, List.append_nil]
    exact filter_ne_of_nodup (sound.distinct former) ((sound.linked former child).mpr linked)
  · exact fun other => children_append_of_apart sound done
  · rw [parent?_append done, if_pos rfl]
  · intro other away
    rw [parent?_append done, if_neg away]
  · exact fun other => content?_append done
  · exact size_append done
  · exact textWrites_append done
  · exact fun root => tree?_append sound done
  · -- neither parent is in the tree of the node, as the node is not above them
    apply tree?_append sound done
    · rw [sound.mem_preorder_iff, not_or]
      exact ⟨fun same => apart same.symm, fun above => outside (sound.mem_ancestors_iff.mpr above)⟩
    · intro former linked inside
      rcases (sound.mem_preorder_iff child).mp inside with same | below
      · exact sound.acyclic child (.single (same ▸ linked))
      · exact sound.acyclic child (below.tail linked)

/-- A node is appended unless one of four things stands in the way, which are looked for in this order;
if it is refused the document stays as it is, and otherwise the node moves with its tree. -/
theorem append_refused_or_moved (reached : d ∈ familyOf actions) (parent child : NodeId) :
    (d.size ≤ parent ∧ d.append parent child = (d, .error (.unknownNode parent))) ∨
    (parent < d.size ∧ d.isElement parent = false ∧
      d.append parent child = (d, .error (.notAnElement parent))) ∨
    (d.isElement parent ∧ d.size ≤ child ∧
      d.append parent child = (d, .error (.unknownNode child))) ∨
    (d.isElement parent ∧ child < d.size ∧ (child = parent ∨ d.Above child parent) ∧
      d.append parent child = (d, .error (.cycle parent child))) ∨
    (d.isElement parent ∧ child < d.size ∧ child ≠ parent ∧ ¬ d.Above child parent ∧
      ∃ changed, d.append parent child = (changed, .ok ()) ∧ d.Moved changed parent child) := by
  have sound := sound_familyOf actions d reached
  rcases Nat.lt_or_ge parent d.size with known | unknown
  · cases element : d.isElement parent with
    | false => exact .inr (.inl ⟨known, rfl, append_not_element child known element⟩)
    | true =>
        rcases Nat.lt_or_ge child d.size with present | absent
        · by_cases cycle : child = parent ∨ child ∈ d.ancestors parent
          · have refused := append_cycle element present cycle
            rw [sound.mem_ancestors_iff] at cycle
            exact .inr (.inr (.inr (.inl ⟨rfl, present, cycle, refused⟩)))
          · rw [not_or] at cycle
            have done := append_eq_ok_iff.mpr ⟨⟨element, present, cycle⟩, rfl⟩
            rw [sound.mem_ancestors_iff] at cycle
            exact .inr (.inr (.inr (.inr
              ⟨rfl, present, cycle.1, cycle.2, _, done, sound.moved done⟩)))
        · exact .inr (.inr (.inl ⟨rfl, absent, append_unknown_child element absent⟩))
  · exact .inl ⟨unknown, append_unknown_parent child unknown⟩

theorem append_refused_or_moved_text : ∃ d changed,
    d ∈ familyOf [.new, .edit 0 (.plant (.element "p".toList {}
      [.element "b".toList {} [.text "x".toList, .comment []],
        .element "i".toList {} [.comment []]]))] ∧
    d.children 1 = [2, 3] ∧ d.children 4 = [5] ∧
    d.append 4 2 = (changed, .ok ()) ∧ d.Moved changed 4 2 ∧ changed.children 4 = [5, 2] := by
  let family := familyOf [.new, .edit 0 (.plant (.element "p".toList {}
    [.element "b".toList {} [.text "x".toList, .comment []],
      .element "i".toList {} [.comment []]]))]
  have facts : family[0]?.map (fun d => (d.children 1, d.children 4,
      (d.append 4 2).2.toOption.isSome)) = some ([2, 3], [5], true) := by decide +kernel
  rcases Option.map_eq_some_iff.mp facts with ⟨d, found, same⟩
  simp only [Prod.mk.injEq] at same
  rcases same with ⟨bold, italic, made⟩
  have member := List.mem_of_getElem? found
  rcases append_refused_or_moved member 4 2 with ⟨_, refused⟩ | ⟨_, _, refused⟩ |
    ⟨_, _, refused⟩ | ⟨_, _, _, refused⟩ | ⟨_, _, _, _, changed, done, moved⟩
  · simp [refused, Except.toOption] at made
  · simp [refused, Except.toOption] at made
  · simp [refused, Except.toOption] at made
  · simp [refused, Except.toOption] at made
  · refine ⟨d, changed, member, bold, italic, done, moved, ?_⟩
    rw [moved.arrived, italic]
    rfl

end LiveTemplate.Document
