import LiveTemplate.Proofs.Document.Views

namespace LiveTemplate

namespace Markup

mutual

def Node.count : Node → Nat
  | .text _ => 1
  | .comment _ => 1
  | .element _ _ children => countAll children + 1

def countAll : List Node → Nat
  | [] => 0
  | node :: more => node.count + countAll more

end

def roots (base : NodeId) : List Node → List NodeId
  | [] => []
  | node :: more => base :: roots (base + node.count) more

mutual

def Node.records (base : NodeId) (parent : Option NodeId) : Node → List Record
  | .text content => [⟨.text content, parent, []⟩]
  | .comment content => [⟨.comment content, parent, []⟩]
  | .element tag attributes children =>
    ⟨.element tag attributes, parent, roots (base + 1) children⟩ ::
      recordsAll (base + 1) (some base) children

def recordsAll (base : NodeId) (parent : Option NodeId) : List Node → List Record
  | [] => []
  | node :: more => node.records base parent ++ recordsAll (base + node.count) parent more

end

theorem count_pos (node : Node) : 0 < node.count := by
  cases node <;> simp [Node.count]

mutual

@[simp] theorem length_records (base : NodeId) (parent : Option NodeId) :
    ∀ node : Node, (node.records base parent).length = node.count
  | .text _ => rfl
  | .comment _ => rfl
  | .element _ _ children => by
      simp [Node.records, Node.count, length_recordsAll _ _ children]

@[simp] theorem length_recordsAll (base : NodeId) (parent : Option NodeId) :
    ∀ nodes : List Node, (recordsAll base parent nodes).length = countAll nodes
  | [] => rfl
  | node :: more => by
      simp [recordsAll, countAll, length_records _ _ node, length_recordsAll _ _ more]

end

theorem modify_records (base parent : NodeId) (node : Node) :
    (node.records base none).modify 0 (fun r => { r with parent := some parent }) =
      node.records base (some parent) := by
  cases node <;> rfl

end Markup

namespace Document

open Markup

theorem modify_append_of_lt {α : Type} {f : α → α} {i : Nat} {l : List α} (inside : i < l.length)
    (more : List α) : (l ++ more).modify i f = l.modify i f ++ more := by
  apply List.ext_getElem?
  intro j
  simp only [List.getElem?_modify, List.getElem?_append, List.length_modify]
  grind

theorem modify_append_length {α : Type} (f : α → α) (l more : List α) :
    (l ++ more).modify l.length f = l ++ more.modify 0 f := by
  apply List.ext_getElem?
  intro j
  simp only [List.getElem?_modify, List.getElem?_append]
  grind

theorem toList_records_length (d : Document) : d.records.toList.length = d.size := by
  simp [size]

@[simp] theorem plant_snd (d : Document) (node : Node) : (d.plant node).2 = d.size := by
  cases node <;> rfl

/-- Attaching the tree planted last completes the records of its root and of its parent. -/
theorem attach_records {d : Document} {before : List Record} {node : Node} {parent : NodeId}
    (planted : d.records.toList = before ++ node.records before.length none)
    (present : parent < before.length) :
    (d.attach parent before.length).records.toList =
      before.modify parent (fun r => { r with children := r.children ++ [before.length] }) ++
        node.records before.length (some parent) := by
  simp only [attach, modify, Array.toList_modify, planted]
  rw [modify_append_length, modify_records, modify_append_of_lt present]

mutual

theorem plant_records (d : Document) : ∀ node : Node,
    (d.plant node).1.records.toList = d.records.toList ++ node.records d.size none
  | .text content => by simp [plant, create, Node.records]
  | .comment content => by simp [plant, create, Node.records]
  | .element tag attributes children => by
      have present : d.size < (d.create (.element tag attributes)).1.size := by simp
      have created : (d.create (.element tag attributes)).1.records.toList =
          d.records.toList ++ [{ content := .element tag attributes }] := by simp [create]
      rw [plant]
      simp only [create_snd]
      rw [plantUnder_records _ _ present children, created, size_create,
        ← toList_records_length d, modify_append_length]
      simp [Node.records]

theorem plantUnder_records (d : Document) (parent : NodeId) (present : parent < d.size) :
    ∀ nodes : List Node, (d.plantUnder parent nodes).records.toList =
      d.records.toList.modify parent (fun r => { r with
        children := r.children ++ roots d.size nodes }) ++ recordsAll d.size (some parent) nodes
  | [] => by
      have same : (fun r : Record => { r with children := r.children ++ [] }) = id := by
        funext r
        simp
      rw [plantUnder, roots, recordsAll, List.append_nil, same, List.modify_id]
  | node :: more => by
      have planted := plant_records d node
      rw [← toList_records_length d] at planted present
      have attached := attach_records planted present
      rw [toList_records_length] at attached present
      have grown : ((d.plant node).1.attach parent d.size).size = d.size + node.count := by
        rw [size_attach, ← toList_records_length, planted, List.length_append, length_records,
          toList_records_length]
      have still : parent < ((d.plant node).1.attach parent d.size).size :=
        grown ▸ Nat.lt_add_right _ present
      rw [plantUnder]
      simp only [plant_snd]
      rw [plantUnder_records _ parent still more, attached, grown,
        modify_append_of_lt (by simpa [size] using present), List.modify_modify_eq]
      simp [recordsAll, roots, Function.comp_def]

end

theorem size_plant (d : Document) (node : Node) : (d.plant node).1.size = d.size + node.count := by
  calc
    (d.plant node).1.size = (d.records.toList ++ node.records d.size none).length := by
      rw [← plant_records, toList_records_length]
    _ = d.size + node.count := by
      rw [List.length_append, length_records, toList_records_length]

theorem size_lt_size_plant (d : Document) (node : Node) : d.size < (d.plant node).1.size :=
  size_plant d node ▸ Nat.lt_add_of_pos_right (count_pos node)

mutual

theorem textWrites_plant (d : Document) : ∀ node : Node, (d.plant node).1.textWrites = d.textWrites
  | .text _ => rfl
  | .comment _ => rfl
  | .element tag attributes children => by
      have created : (d.create (.element tag attributes)).1.textWrites = d.textWrites := rfl
      rw [plant]
      simp only [textWrites_plantUnder _ _ children, created]

theorem textWrites_plantUnder (d : Document) (parent : NodeId) :
    ∀ nodes : List Node, (d.plantUnder parent nodes).textWrites = d.textWrites
  | [] => rfl
  | node :: more => by
      have attached : ((d.plant node).1.attach parent (d.plant node).2).textWrites =
          (d.plant node).1.textWrites := rfl
      rw [plantUnder]
      simp only [textWrites_plantUnder _ _ more, attached, textWrites_plant d node]

end

def plantAll (d : Document) : List Node → Document × List NodeId
  | [] => (d, [])
  | node :: more =>
    let (d, id) := d.plant node
    let (d, ids) := d.plantAll more
    (d, id :: ids)

theorem plantAll_records (d : Document) (nodes : List Node) :
    (d.plantAll nodes).1.records.toList = d.records.toList ++ recordsAll d.size none nodes ∧
      (d.plantAll nodes).2 = roots d.size nodes := by
  induction nodes generalizing d with
  | nil => exact ⟨(List.append_nil _).symm, rfl⟩
  | cons node more ih =>
      rcases ih (d.plant node).1 with ⟨records, ids⟩
      rw [size_plant] at records ids
      rw [plant_records, List.append_assoc] at records
      exact ⟨records, by simp only [plantAll, ids, plant_snd, roots]⟩

theorem record?_plant_of_lt {d : Document} {id : NodeId} (node : Node) (known : id < d.size) :
    (d.plant node).1.record? id = d.record? id := by
  have inside : id < d.records.toList.length := by rwa [toList_records_length]
  rw [record?, ← Array.getElem?_toList, plant_records, List.getElem?_append_left inside,
    Array.getElem?_toList, record?]

/-- The records stand in the document one after another, the first under the number `base`. -/
def Holds (d : Document) : NodeId → List Record → Prop
  | _, [] => True
  | base, r :: more => d.record? base = some r ∧ d.Holds (base + 1) more

theorem holds_append {d : Document} {base : NodeId} {l more : List Record} :
    d.Holds base (l ++ more) ↔ d.Holds base l ∧ d.Holds (base + l.length) more := by
  induction l generalizing base with
  | nil => simp [Holds]
  | cons r l ih => simp [Holds, ih, and_assoc, Nat.add_assoc, Nat.add_comm 1]

theorem holds_of_toList {d : Document} {before l : List Record}
    (same : d.records.toList = before ++ l) : d.Holds before.length l := by
  induction l generalizing before with
  | nil => trivial
  | cons r l ih =>
      have found : d.record? before.length = some r := by
        rw [record?, ← Array.getElem?_toList, same]
        simp
      have rest : d.Holds (before ++ [r]).length l := ih (by simp [same])
      exact ⟨found, by simpa using rest⟩

/-- A planted tree takes the records that its shape prescribes. -/
theorem holds_plant (d : Document) (node : Node) :
    (d.plant node).1.Holds d.size (node.records d.size none) := by
  have planted := holds_of_toList (plant_records d node)
  rwa [toList_records_length] at planted

theorem record?_of_holds {d : Document} {base : NodeId} {parent : Option NodeId} :
    ∀ {node : Node}, d.Holds base (node.records base parent) →
      ∃ r, d.record? base = some r ∧ r.parent = parent
  | .text _, held => ⟨_, held.1, rfl⟩
  | .comment _, held => ⟨_, held.1, rfl⟩
  | .element _ _ _, held => ⟨_, held.1, rfl⟩

theorem parent?_of_holds {d : Document} {base : NodeId} {parent : Option NodeId} {node : Node}
    (held : d.Holds base (node.records base parent)) : d.parent? base = parent := by
  rcases record?_of_holds held with ⟨r, found, same⟩
  simp [parent?, found, same]

theorem holds_map {d changed : Document} {f : Record → Record}
    (same : ∀ id, changed.record? id = (d.record? id).map f) {base : NodeId} {l : List Record}
    (held : d.Holds base l) : changed.Holds base (l.map f) := by
  induction l generalizing base with
  | nil => trivial
  | cons r l ih =>
      refine ⟨?_, ih held.2⟩
      rw [same, held.1]
      rfl

theorem holds_congr {d changed : Document} {base : NodeId} {l : List Record}
    (same : ∀ id, base ≤ id → changed.record? id = d.record? id) (held : d.Holds base l) :
    changed.Holds base l := by
  induction l generalizing base with
  | nil => trivial
  | cons r l ih =>
      refine ⟨(same base (Nat.le_refl base)).trans held.1, ih (fun id later => ?_) held.2⟩
      exact same id (Nat.le_of_succ_le later)

theorem exists_of_holds {d : Document} {base : NodeId} {l : List Record} (held : d.Holds base l) :
    ∀ r ∈ l, ∃ id, d.record? id = some r := by
  induction l generalizing base with
  | nil => simp
  | cons first l ih =>
      intro r member
      rcases List.mem_cons.mp member with rfl | later
      · exact ⟨base, held.1⟩
      · exact ih held.2 r later

end Document

end LiveTemplate
