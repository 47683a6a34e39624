import LiveTemplate.Proofs.Document.Edits
import LiveTemplate.Proofs.Text.Words

/-! Toggling a class: what it does to the classes of an element, and that it does nothing else.

The list of classes may mention a class several times. A toggle takes away one mention only, so that
a class is still there after a toggle that says it has gone if it was mentioned more than once. -/

namespace LiveTemplate.Document

open Markup

variable {d changed : Document} {id : NodeId} {className other : Text} {classes : List Text}

theorem count_toggled (className : Text) (classes : List Text) :
    (toggled className classes).count className =
      if classes.count className = 0 then 1 else classes.count className - 1 := by
  rw [toggled]
  by_cases mentioned : className ∈ classes
  · have some : classes.count className ≠ 0 := by simpa [List.count_eq_zero] using mentioned
    simp [mentioned, some]
  · simp [mentioned, List.count_eq_zero_of_not_mem mentioned]

/-- A toggle takes a class away if it is mentioned just once, and leaves it there if it is mentioned
more often. -/
theorem mem_toggled_self :
    className ∈ toggled className classes ↔ classes.count className ≠ 1 := by
  rw [← List.count_pos_iff, count_toggled]
  split <;> omega

theorem mem_toggled_of_ne (apart : other ≠ className) :
    other ∈ toggled className classes ↔ other ∈ classes := by
  rw [toggled]
  split
  · exact List.mem_erase_of_ne apart
  · simp [apart]

/-- Toggling twice leads back to the same classes, except where the two toggles take away the two
mentions of a class. -/
theorem mem_toggled_toggled :
    (∀ other, other ∈ toggled className (toggled className classes) ↔ other ∈ classes) ↔
      classes.count className ≠ 2 := by
  have back : (className ∈ toggled className (toggled className classes) ↔ className ∈ classes) ↔
      classes.count className ≠ 2 := by
    rw [mem_toggled_self, count_toggled, ← List.count_pos_iff]
    split <;> omega
  rw [← back]
  refine ⟨fun same => same className, fun same other => ?_⟩
  by_cases apart : other = className
  · rw [apart, same]
  · rw [mem_toggled_of_ne apart, mem_toggled_of_ne apart]

theorem isWord_of_mem_toggled (word : Text.IsWord className)
    (whole : ∀ known ∈ classes, Text.IsWord known) (member : other ∈ toggled className classes) :
    Text.IsWord other := by
  by_cases apart : other = className
  · rwa [apart]
  · exact whole other ((mem_toggled_of_ne apart).mp member)

theorem hasClass_iff : d.hasClass id className ↔ className ∈ d.classes id := by
  rw [hasClass, List.contains_iff_mem]

theorem isWord_of_mem_classes (member : className ∈ d.classes id) : Text.IsWord className :=
  Text.isWord_of_mem_words member

theorem record?_modifyAttributes {r : Record} {tag : Text} {attributes : Attributes}
    (found : d.record? id = some r) (kind : r.content = .element tag attributes)
    (f : Attributes → Attributes) : (d.modifyAttributes id f).record? id =
      some { r with content := .element tag (f attributes) } := by
  rw [modifyAttributes, record?_modify, if_pos rfl, found, Option.map_some, kind]

theorem attribute?_insert (element : d.isElement id) (name value : Text) :
    (d.modifyAttributes id (·.insert name value)).attribute? id name = some value := by
  rcases isElement_iff.mp element with ⟨tag, attributes, found⟩
  refine attribute?_eq_some_iff.mpr ⟨tag, attributes.insert name value, ?_, ?_⟩
  · rw [content?_modifyAttributes, if_pos rfl, found]
    rfl
  · rw [Table.get?_insert, if_pos rfl]

def otherAttributes (d : Document) (id : NodeId) : List (Text × Text) :=
  (((d.record? id).bind Record.attributes?).map fun attributes =>
    attributes.entries.filter (·.1 ≠ classAttribute)).getD []

/-- The documents differ at most in the attribute that names the classes of one node. -/
structure OnlyClassesDiffer (d changed : Document) (id : NodeId) : Prop where
  elsewhere : ∀ other ≠ id, changed.record? other = d.record? other
  tag : changed.tag? id = d.tag? id
  attributes : changed.otherAttributes id = d.otherAttributes id
  parent : changed.parent? id = d.parent? id
  children : changed.children id = d.children id
  size : changed.size = d.size
  textWrites : changed.textWrites = d.textWrites

theorem onlyClassesDiffer_insert (element : d.isElement id) (value : Text) :
    d.OnlyClassesDiffer (d.modifyAttributes id (·.insert classAttribute value)) id := by
  rcases isElement_iff.mp element with ⟨tag, attributes, content⟩
  rcases Option.map_eq_some_iff.mp content with ⟨r, found, kind⟩
  have now := record?_modifyAttributes found kind (·.insert classAttribute value)
  refine ⟨fun other apart => ?_, ?_, ?_, parent?_modifyAttributes _, children_modifyAttributes _,
    size_modify _, rfl⟩
  · rw [modifyAttributes, record?_modify, if_neg (Ne.symm apart)]
  · simp [tag?, now, found, Record.tag?, kind]
  · simpa [otherAttributes, now, found, Record.attributes?, kind] using
      attributes.filter_insert classAttribute value

theorem exists_toggleClass? (element : d.isElement id) (word : Text.IsWord className) :
    ∃ changed, d.toggleClass? id className = some (changed, !d.hasClass id className) ∧
      changed.classes id = toggled className (d.classes id) ∧ changed.isElement id ∧
      d.OnlyClassesDiffer changed id := by
  let value := List.intercalate [' '] (toggled className (d.classes id))
  refine ⟨d.modifyAttributes id (·.insert classAttribute value), ?_, ?_,
    isElement_of_changed (.marked id _) element, onlyClassesDiffer_insert element value⟩
  · rw [toggleClass?, setAttribute?, if_pos element, Option.map_some]
  · rw [classes, attribute?_insert element, Option.getD_some, Text.words_intercalate]
    exact fun _ => isWord_of_mem_toggled word fun _ => isWord_of_mem_classes

/-- Toggling a class, whatever the class attribute was: the answer is the opposite of what held
before, the other classes stay, and nothing but the class attribute changes. The answer is what
holds afterwards exactly if the class was mentioned at most once, and a second toggle restores the
classes exactly if it was not mentioned twice. -/
theorem toggleClass?_toggles (d : Document) (id : NodeId) (className : Text)
    (element : d.isElement id) (word : Text.IsWord className) :
    ∃ changed present, d.toggleClass? id className = some (changed, present) ∧
      present = (!d.hasClass id className) ∧
      (present = changed.hasClass id className ↔ (d.classes id).count className ≤ 1) ∧
      (∀ other, other ≠ className → changed.hasClass id other = d.hasClass id other) ∧
      d.OnlyClassesDiffer changed id ∧
      ∃ back again, changed.toggleClass? id className = some (back, again) ∧
        again = (!changed.hasClass id className) ∧
        ((∀ other, back.hasClass id other = d.hasClass id other) ↔
          (d.classes id).count className ≠ 2) := by
  obtain ⟨changed, first, now, still, frame⟩ := exists_toggleClass? element word
  obtain ⟨back, second, restored, -, -⟩ := exists_toggleClass? still word
  refine ⟨changed, _, first, rfl, ?_, fun other apart => ?_, frame, back, _, second, rfl, ?_⟩
  · rw [Bool.eq_iff_iff, Bool.not_eq_true', ← Bool.not_eq_true, hasClass_iff, hasClass_iff, now,
      mem_toggled_self, ← List.count_pos_iff]
    omega
  · rw [Bool.eq_iff_iff, hasClass_iff, hasClass_iff, now, mem_toggled_of_ne apart]
  · rw [← mem_toggled_toggled, ← now, ← restored]
    exact forall_congr' fun other => by rw [Bool.eq_iff_iff, hasClass_iff, hasClass_iff]

theorem toggleClass?_toggles_span :
    ∃ d changed back : Document,
      d = [Edit.create (.element "span".toList ⟨[(classAttribute, "item".toList)]⟩)].foldl edit {} ∧
        d.isElement 0 ∧ Text.IsWord "clicked".toList ∧
        d.toggleClass? 0 "clicked".toList = some (changed, true) ∧
        changed.hasClass 0 "clicked".toList ∧ changed.hasClass 0 "item".toList ∧
        changed.toggleClass? 0 "clicked".toList = some (back, false) ∧
        ∀ className, back.hasClass 0 className = d.hasClass 0 className := by
  let d := [Edit.create (.element "span".toList ⟨[(classAttribute, "item".toList)]⟩)].foldl edit {}
  have element : d.isElement 0 := by decide
  have word : Text.IsWord "clicked".toList := by decide
  have unmentioned : (d.classes 0).count "clicked".toList = 0 := by decide +kernel
  obtain ⟨changed, present, first, answer, agrees, others, -, back, again, second, reply, restored⟩ :=
    toggleClass?_toggles d 0 "clicked".toList element word
  obtain rfl : present = true := answer.trans (by decide +kernel)
  have clicked := agrees.mpr (by rw [unmentioned]; decide)
  have still : changed.hasClass 0 "item".toList := (others _ (by decide)).trans (by decide +kernel)
  obtain rfl : again = false := by rw [reply, ← clicked, Bool.not_true]
  exact ⟨d, changed, back, rfl, element, word, first, clicked.symm, still, second,
    restored.mpr (by rw [unmentioned]; decide)⟩

/-- A class that is mentioned twice is still there after a toggle that says it has gone, and a second
toggle takes it away for good. -/
theorem toggleClass?_mentioned_twice :
    ∃ d changed back : Document,
      d = [Edit.create (.element "b".toList ⟨[(classAttribute, "a a".toList)]⟩)].foldl edit {} ∧
      d.toggleClass? 0 "a".toList = some (changed, false) ∧
      changed.hasClass 0 "a".toList = true ∧
      changed.toggleClass? 0 "a".toList = some (back, false) ∧
      d.hasClass 0 "a".toList = true ∧ back.hasClass 0 "a".toList = false := by
  refine ⟨_, _, _, rfl, rfl, ?_, rfl, ?_, ?_⟩ <;> decide +kernel

end LiveTemplate.Document
