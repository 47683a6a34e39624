import LiveTemplate.Proofs.Document.Subtrees

namespace LiveTemplate.Document

open Markup
open Template

def holdsVerbatim (d : Document) (parent : Option NodeId) : Bool :=
  ((parent.bind d.tag?).map isVerbatim).getD false

mutual

theorem markupWithin_of_holds {d : Document} {base : NodeId} {parent : Option NodeId} :
    ∀ {node : Node} {n : Nat}, d.Holds base (node.records base parent) → node.count ≤ n →
      d.markupWithin n base = node.written (d.holdsVerbatim parent)
  | .text content, n + 1, held, _ => by
      have place : d.isInVerbatim base = d.holdsVerbatim parent := by
        rw [isInVerbatim, parent?_of_holds held, holdsVerbatim]
      simp [markupWithin, held.1, Node.written, place]
  | .comment content, n + 1, held, _ => by
      simp [markupWithin, held.1, Node.written]
  | .element tag attributes children, n + 1, held, enough => by
      have tagged : d.tag? base = some tag := by
        simp [tag?, held.1, Record.tag?]
      have below := markupWithin_roots (n := n) held.2 (Nat.le_of_succ_le_succ enough)
      simp [markupWithin, held.1, Node.written, below, holdsVerbatim, tagged]
  | .text _, 0, _, enough => absurd enough (by simp [Node.count])
  | .comment _, 0, _, enough => absurd enough (by simp [Node.count])
  | .element _ _ _, 0, _, enough => absurd enough (by simp [Node.count])

theorem markupWithin_roots {d : Document} {base : NodeId} {parent : Option NodeId} :
    ∀ {nodes : List Node} {n : Nat}, d.Holds base (recordsAll base parent nodes) →
      countAll nodes ≤ n → (roots base nodes).flatMap (d.markupWithin n) =
        writtenAll (d.holdsVerbatim parent) nodes
  | [], _, _, _ => rfl
  | node :: more, n, held, enough => by
      rcases holds_append.mp held with ⟨first, others⟩
      rw [length_records] at others
      simp only [countAll] at enough
      rw [roots, List.flatMap_cons, markupWithin_of_holds first (by omega),
        markupWithin_roots others (by omega), writtenAll]

end

mutual

/-- A tree is read back from its records. -/
theorem treeWithin_of_holds {d : Document} {base : NodeId} {parent : Option NodeId} :
    ∀ {node : Node} {n : Nat}, d.Holds base (node.records base parent) → node.count ≤ n →
      d.treeWithin n base = some node
  | .text content, n + 1, held, _ => by simp [treeWithin, held.1]
  | .comment content, n + 1, held, _ => by simp [treeWithin, held.1]
  | .element tag attributes children, n + 1, held, enough => by
      have below := treeWithin_roots (n := n) held.2 (Nat.le_of_succ_le_succ enough)
      simp [treeWithin, held.1, below]
  | .text _, 0, _, enough => absurd enough (by simp [Node.count])
  | .comment _, 0, _, enough => absurd enough (by simp [Node.count])
  | .element _ _ _, 0, _, enough => absurd enough (by simp [Node.count])

theorem treeWithin_roots {d : Document} {base : NodeId} {parent : Option NodeId} :
    ∀ {nodes : List Node} {n : Nat}, d.Holds base (recordsAll base parent nodes) →
      countAll nodes ≤ n → (roots base nodes).filterMap (d.treeWithin n) = nodes
  | [], _, _, _ => rfl
  | node :: more, n, held, enough => by
      rcases holds_append.mp held with ⟨first, others⟩
      rw [length_records] at others
      simp only [countAll] at enough
      rw [roots, List.filterMap_cons_some (treeWithin_of_holds first (by omega)),
        treeWithin_roots others (by omega)]

end

theorem tree?_of_holds {d : Document} {base : NodeId} {parent : Option NodeId} {node : Node}
    (held : d.Holds base (node.records base parent)) (enough : node.count ≤ d.size) :
    d.tree? base = some node :=
  treeWithin_of_holds held enough

theorem plainText_of_holds {d : Document} {base : NodeId} {parent : Option NodeId} {node : Node}
    (held : d.Holds base (node.records base parent)) (enough : node.count ≤ d.size) :
    d.plainText base = node.plainText := by
  rw [plainText_eq, tree?_of_holds held enough]
  rfl

mutual

theorem filterMap_text?_records : ∀ (node : Node) (base : NodeId) (parent : Option NodeId),
    (node.records base parent).filterMap Record.text? = node.texts
  | .text _, _, _ => rfl
  | .comment _, _, _ => rfl
  | .element _ _ children, base, parent => by
      rw [Node.records, Node.texts, List.filterMap_cons_none rfl,
        filterMap_text?_recordsAll children]

theorem filterMap_text?_recordsAll : ∀ (nodes : List Node) (base : NodeId)
    (parent : Option NodeId), (recordsAll base parent nodes).filterMap Record.text? = textsAll nodes
  | [], _, _ => rfl
  | node :: more, base, parent => by
      rw [recordsAll, textsAll, List.filterMap_append, filterMap_text?_records node,
        filterMap_text?_recordsAll more]

end

theorem filterMap_range {β : Type} (d : Document) (f : Record → Option β) :
    (List.range d.size).filterMap (fun id => (d.record? id).bind f) =
      d.records.toList.filterMap f := by
  have places : (List.range d.size).map d.record? = d.records.toList.map some := by
    apply List.ext_getElem
    · simp [size]
    · intro id _ inside
      simp only [List.length_map, Array.length_toList] at inside
      simp [record?, inside]
  calc
    (List.range d.size).filterMap (fun id => (d.record? id).bind f) =
        ((List.range d.size).map d.record?).filterMap (·.bind f) := by
      rw [List.filterMap_map]
      rfl
    _ = d.records.toList.filterMap f := by
      rw [places, List.filterMap_map]
      rfl

theorem texts_plant (node : Node) : (List.range (Document.plant {} node).1.size).filterMap
    (Document.plant {} node).1.text? = node.texts := by
  refine (filterMap_range _ Record.text?).trans ?_
  rw [plant_records]
  exact filterMap_text?_records node 0 none

theorem markup_plant (d : Document) (node : Node) :
    (d.plant node).1.markup (d.plant node).2 = node.written false := by
  rw [plant_snd, markup, size_plant]
  exact markupWithin_of_holds (holds_plant d node) (Nat.le_add_left _ _)

def plantedMarkup (d : Document) (nodes : List Node) : Text :=
  (d.plantAll nodes).2.flatMap (d.plantAll nodes).1.markup

theorem plantedMarkup_eq (d : Document) (nodes : List Node) :
    d.plantedMarkup nodes = writtenAll false nodes := by
  rcases d.plantAll_records nodes with ⟨records, ids⟩
  have held := holds_of_toList records
  have enough : countAll nodes ≤ (d.plantAll nodes).1.size := by
    rw [← toList_records_length, records, List.length_append, length_recordsAll]
    exact Nat.le_add_left _ _
  rw [toList_records_length] at held
  rw [plantedMarkup, ids]
  exact markupWithin_roots held enough

def shadowNode (d : Document) (id : NodeId) : ShadowNode :=
  ⟨id, d.parent? id, d.children id⟩

theorem children_of_holds {d : Document} {base : NodeId} {r : Record} {more : List Record}
    (held : d.Holds base (r :: more)) : d.children base = r.children := by
  rw [children, held.1]
  rfl

mutual

/-- A walk that counts on from the number of its first node meets the nodes in the order of their
numbers, each at the place of its number. -/
theorem walk_of_holds {d : Document} {base : NodeId} {parent : Option NodeId} :
    ∀ {node : Node} {n : Nat}, d.Holds base (node.records base parent) → node.count ≤ n →
      Shadow.walk d n base parent base = (List.range' base node.count).map d.shadowNode
  | .text content, n + 1, held, _ => by
      have linked := parent?_of_holds held
      simp [Shadow.walk, children_of_holds held, Shadow.walkAll, Node.count, shadowNode, linked]
  | .comment content, n + 1, held, _ => by
      have linked := parent?_of_holds held
      simp [Shadow.walk, children_of_holds held, Shadow.walkAll, Node.count, shadowNode, linked]
  | .element tag attributes nodes, n + 1, held, enough => by
      have linked := parent?_of_holds held
      have below : Shadow.walkAll (fun next => Shadow.walk d n next (some base)) (base + 1)
          (roots (base + 1) nodes) =
            ((List.range' (base + 1) (countAll nodes)).map d.shadowNode, roots (base + 1) nodes) :=
        walkAll_of_holds held.2 (Nat.le_of_succ_le_succ enough)
      simp [Shadow.walk, children_of_holds held, below, Node.count, shadowNode, linked,
        List.range'_succ]
  | .text _, 0, _, enough => absurd enough (by simp [Node.count])
  | .comment _, 0, _, enough => absurd enough (by simp [Node.count])
  | .element _ _ _, 0, _, enough => absurd enough (by simp [Node.count])

theorem walkAll_of_holds {d : Document} {base : NodeId} {parent : Option NodeId} :
    ∀ {nodes : List Node} {n : Nat}, d.Holds base (recordsAll base parent nodes) →
      countAll nodes ≤ n → Shadow.walkAll (fun next => Shadow.walk d n next parent) base
        (roots base nodes) = ((List.range' base (countAll nodes)).map d.shadowNode, roots base nodes)
  | [], _, _, _ => rfl
  | node :: more, n, held, enough => by
      rcases holds_append.mp held with ⟨first, others⟩
      rw [length_records] at others
      simp only [countAll] at enough
      have met := walk_of_holds first (show node.count ≤ n by omega)
      have rest := walkAll_of_holds others (show countAll more ≤ n by omega)
      rw [roots, Shadow.walkAll]
      simp only [met, List.length_map, List.length_range', rest, ← List.map_append, countAll,
        List.range'_append_1]

end

theorem preorder_plant (d : Document) (node : Node) :
    (d.plant node).1.preorder d.size = List.range' d.size node.count := by
  have enough : node.count ≤ (d.plant node).1.size := size_plant d node ▸ Nat.le_add_left _ _
  have met := congrArg (List.map (·.node)) (walk_of_holds (holds_plant d node) enough)
  rw [map_walk, List.map_map] at met
  exact met.trans (List.map_id _)

theorem range_size_plant (node : Node) :
    List.range (Document.plant {} node).1.size = List.range' 0 node.count := by
  rw [List.range_eq_range', size_plant]
  exact congrArg (List.range' 0) (Nat.zero_add _)

theorem nodes_of_plant (node : Node) :
    (Shadow.of (Document.plant {} node).1 0).nodes =
      (List.range (Document.plant {} node).1.size).map (Document.plant {} node).1.shadowNode := by
  have enough : node.count ≤ (Document.plant {} node).1.size :=
    size_plant {} node ▸ Nat.le_add_left _ _
  rw [range_size_plant]
  exact walk_of_holds (holds_plant {} node) enough

/-- A document in which the nodes are numbered in document order: a node comes after its parent, and
directly after it if it is the first child. -/
structure Numbered (d : Document) : Prop where
  after : ∀ {id parent}, d.parent? id = some parent → parent < id
  next : ∀ {id child}, d.firstChild? id = some child → child = id + 1

theorem eq_of_head?_roots {base child : NodeId} {nodes : List Node}
    (first : (roots base nodes).head? = some child) : child = base := by
  cases nodes with
  | nil => simp [roots] at first
  | cons node more => exact (Option.some.inj first).symm

mutual

theorem numbered_of_holds {d : Document} {base : Nat} {above : Option NodeId}
    (before : ∀ parent ∈ above, parent < base) : ∀ {node : Node},
    d.Holds base (node.records base above) → ∀ id : Nat, base ≤ id → id < base + node.count →
      (∀ parent ∈ d.parent? id, parent < id) ∧ ∀ child ∈ d.firstChild? id, child = id + 1
  | .text content, held, id, low, high => by
      obtain rfl : id = base := by simp only [Node.count] at high; omega
      rw [parent?_of_holds held, firstChild?, children_of_holds held]
      exact ⟨before, by simp⟩
  | .comment content, held, id, low, high => by
      obtain rfl : id = base := by simp only [Node.count] at high; omega
      rw [parent?_of_holds held, firstChild?, children_of_holds held]
      exact ⟨before, by simp⟩
  | .element tag attributes nodes, held, id, low, high => by
      rcases Nat.eq_or_lt_of_le low with rfl | below
      · rw [parent?_of_holds held, firstChild?, children_of_holds held]
        exact ⟨before, fun child first => eq_of_head?_roots first⟩
      · have inside : ∀ parent ∈ some base, parent < base + 1 := by simp
        simp only [Node.count] at high
        exact numberedAll_of_holds inside held.2 id below (by omega)

theorem numberedAll_of_holds {d : Document} {base : Nat} {above : Option NodeId}
    (before : ∀ parent ∈ above, parent < base) : ∀ {nodes : List Node},
    d.Holds base (recordsAll base above nodes) → ∀ id : Nat, base ≤ id → id < base + countAll nodes →
      (∀ parent ∈ d.parent? id, parent < id) ∧ ∀ child ∈ d.firstChild? id, child = id + 1
  | [], _, id, low, high => by
      simp only [countAll] at high
      omega
  | node :: more, held, id, low, high => by
      rcases holds_append.mp held with ⟨first, others⟩
      rw [length_records] at others
      simp only [countAll] at high
      by_cases inside : id < base + node.count
      · exact numbered_of_holds before first id low inside
      · have still : ∀ parent ∈ above, parent < base + node.count :=
          fun parent member => Nat.lt_add_right _ (before parent member)
        exact numberedAll_of_holds still others id (by omega) (by omega)

end

theorem numbered_plant (node : Node) : Numbered (Document.plant {} node).1 := by
  have held := holds_plant {} node
  have inside : ∀ id, id < (Document.plant {} node).1.size → id < 0 + node.count := by
    intro id known
    rwa [size_plant] at known
  constructor
  · intro id parent linked
    have known := inside id (lt_size_of_parent? linked)
    exact (numbered_of_holds (by simp) held id (Nat.zero_le id) known).1 parent linked
  · intro id child first
    have known := inside id (lt_size_of_mem_children (List.mem_of_head? first))
    exact (numbered_of_holds (by simp) held id (Nat.zero_le id) known).2 child first

end LiveTemplate.Document
