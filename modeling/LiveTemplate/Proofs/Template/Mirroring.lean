import LiveTemplate.Proofs.Document.Families
import LiveTemplate.Proofs.Template.StackWalk

/-! A shadow mirrors the tree it was made of: it has the nodes of the tree in document order, each once,
and the links between its places are the links between the nodes. Every round of the loop that fills
it keeps the children noted so far and those still on the stack together. -/

namespace LiveTemplate.Template.Shadow

open Document

variable {d : Document} {s last : Shadow} {node id root : NodeId} {parent : Option Nat}
  {place child : Nat} {nodes : List ShadowNode} {stack rest : List (NodeId × Option Nat)}
  {actions : List Action}

def nodeAt? (nodes : List ShadowNode) (place : Nat) : Option NodeId :=
  (nodes[place]?).map (·.node)

def pending (place : Nat) (stack : List (NodeId × Option Nat)) : List NodeId :=
  (stack.filter (·.2 = some place)).map (·.1)

structure Linked (d : Document) (nodes : List ShadowNode) (stack : List (NodeId × Option Nat)) :
    Prop where
  children : ∀ (place : Nat) (n : ShadowNode), nodes[place]? = some n →
    n.children.map (nodeAt? nodes) ++ (pending place stack).map some = (d.children n.node).map some
  increasing : ∀ (place : Nat) (n : ShadowNode), nodes[place]? = some n →
    (place :: n.children).Pairwise (· < ·)
  parents : ∀ (place : Nat) (n : ShadowNode), nodes[place]? = some n → ∀ child ∈ n.children,
    ∃ m : ShadowNode, nodes[child]? = some m ∧ m.parent = some place
  known : ∀ entry ∈ stack, ∀ place ∈ entry.2, place < nodes.length

theorem linked_nil (d : Document) (root : NodeId) : Linked d [] [(root, none)] := by
  constructor <;> simp

theorem pending_append (place : Nat) (first second : List (NodeId × Option Nat)) :
    pending place (first ++ second) = pending place first ++ pending place second := by
  rw [pending, List.filter_append, List.map_append, pending, pending]

theorem pending_cons (place : Nat) :
    pending place ((node, parent) :: rest) =
      if parent = some place then node :: pending place rest else pending place rest := by
  by_cases same : parent = some place <;> simp [pending, same]

theorem pending_self (place : Nat) (ids : List NodeId) :
    pending place (ids.map (·, some place)) = ids := by
  rw [pending, List.filter_eq_self.mpr (by simp), List.map_map]
  exact List.map_id ids

theorem pending_other {other : Nat} (apart : other ≠ place) (ids : List NodeId) :
    pending place (ids.map (·, some other)) = [] := by
  simp [pending, apart]

theorem pending_fresh (known : ∀ entry ∈ rest, ∀ place ∈ entry.2, place < nodes.length) :
    pending nodes.length rest = [] := by
  simp only [pending, List.map_eq_nil_iff, List.filter_eq_nil_iff, decide_eq_true_iff]
  intro entry member same
  exact Nat.lt_irrefl _ (known entry member _ same)

theorem getElem?_visit_old (known : ∀ place ∈ parent, place < s.nodes.length)
    (old : place < s.nodes.length) :
    (s.visit d node parent).nodes[place]? = (s.nodes[place]?).map fun n =>
      if parent = some place then { n with children := n.children ++ [s.nodes.length] } else n := by
  rw [nodes_visit d node known, List.getElem?_append_left (by rwa [length_adopt])]
  cases parent with
  | none => simp [adopt]
  | some upper =>
      rw [adopt, Option.elim_some, List.getElem?_modify]
      by_cases same : upper = place <;> simp [same]

theorem getElem?_visit_new (known : ∀ place ∈ parent, place < s.nodes.length) :
    (s.visit d node parent).nodes[s.nodes.length]? = some ⟨node, parent, []⟩ := by
  rw [nodes_visit d node known, List.getElem?_append_right (Nat.le_of_eq (length_adopt _ _ _)),
    length_adopt, Nat.sub_self]
  rfl

/-- A round either left a place alone, or noted one more child there, or took the place first. -/
theorem getElem?_visit_cases (known : ∀ place ∈ parent, place < s.nodes.length) {n : ShadowNode}
    (found : (s.visit d node parent).nodes[place]? = some n) :
    (parent ≠ some place ∧ s.nodes[place]? = some n) ∨
    (parent = some place ∧ ∃ m, s.nodes[place]? = some m ∧
      n = { m with children := m.children ++ [s.nodes.length] }) ∨
    (place = s.nodes.length ∧ n = ⟨node, parent, []⟩) := by
  have inside := (List.getElem?_eq_some_iff.mp found).1
  rw [length_visit d node known] at inside
  rcases Nat.lt_succ_iff_lt_or_eq.mp inside with old | rfl
  · rw [getElem?_visit_old known old] at found
    rcases Option.map_eq_some_iff.mp found with ⟨m, there, same⟩
    by_cases here : parent = some place
    · exact .inr (.inl ⟨here, m, there, by rw [← same, if_pos here]⟩)
    · exact .inl ⟨here, by rw [there, ← same, if_neg here]⟩
  · rw [getElem?_visit_new known] at found
    exact .inr (.inr ⟨rfl, (Option.some.inj found).symm⟩)

theorem nodeAt?_visit_old (known : ∀ place ∈ parent, place < s.nodes.length)
    (old : place < s.nodes.length) :
    nodeAt? (s.visit d node parent).nodes place = nodeAt? s.nodes place := by
  rw [nodeAt?, getElem?_visit_old known old, Option.map_map, nodeAt?]
  cases s.nodes[place]? with
  | none => rfl
  | some n => by_cases same : parent = some place <;> simp [same]

theorem exists_visit_old (d : Document) (node : NodeId)
    (known : ∀ place ∈ parent, place < s.nodes.length) {m : ShadowNode}
    (there : s.nodes[place]? = some m) :
    ∃ n, (s.visit d node parent).nodes[place]? = some n ∧ n.parent = m.parent := by
  have old := (List.getElem?_eq_some_iff.mp there).1
  rw [getElem?_visit_old known old, there]
  by_cases same : parent = some place
  · exact ⟨_, rfl, by simp [same]⟩
  · exact ⟨_, rfl, by simp [same]⟩

theorem Linked.known_top (linked : Linked d nodes ((node, parent) :: rest)) :
    ∀ place ∈ parent, place < nodes.length :=
  linked.known _ List.mem_cons_self

theorem Linked.lt_length (linked : Linked d nodes stack) {n : ShadowNode}
    (there : nodes[place]? = some n) (member : child ∈ n.children) : child < nodes.length := by
  rcases linked.parents place n there child member with ⟨m, found, _⟩
  exact (List.getElem?_eq_some_iff.mp found).1

theorem Linked.map_nodeAt?_visit (linked : Linked d s.nodes ((node, parent) :: rest)) {n : ShadowNode}
    (there : s.nodes[place]? = some n) :
    n.children.map (nodeAt? (s.visit d node parent).nodes) = n.children.map (nodeAt? s.nodes) :=
  List.map_congr_left fun _ member =>
    nodeAt?_visit_old linked.known_top (linked.lt_length there member)

/-- What was on top of the stack has moved to the end of the noted children, and a place that is new
has all its children on the stack. -/
theorem Linked.children_visit (linked : Linked d s.nodes ((node, parent) :: rest)) {n : ShadowNode}
    (found : (s.visit d node parent).nodes[place]? = some n) :
    n.children.map (nodeAt? (s.visit d node parent).nodes) ++
      (pending place ((d.children node).map (·, some s.nodes.length) ++ rest)).map some =
        (d.children n.node).map some := by
  have known := linked.known_top
  rcases getElem?_visit_cases known found with ⟨apart, there⟩ | ⟨here, m, there, rfl⟩ | ⟨rfl, rfl⟩
  · have old := (List.getElem?_eq_some_iff.mp there).1
    have before := linked.children place n there
    rw [pending_cons, if_neg apart] at before
    rw [linked.map_nodeAt?_visit there, pending_append, pending_other (Nat.ne_of_gt old),
      List.nil_append, before]
  · have old := (List.getElem?_eq_some_iff.mp there).1
    have before := linked.children place m there
    rw [pending_cons, if_pos here] at before
    have fresh : nodeAt? (s.visit d node parent).nodes s.nodes.length = some node := by
      rw [nodeAt?, getElem?_visit_new known]
      rfl
    rw [List.map_append, linked.map_nodeAt?_visit there, pending_append,
      pending_other (Nat.ne_of_gt old), List.nil_append, List.map_singleton, fresh, ← before,
      List.map_cons, List.append_assoc, List.singleton_append]
  · have later := fun entry member => linked.known entry (List.mem_cons_of_mem _ member)
    rw [pending_append, pending_self, pending_fresh later, List.append_nil]
    rfl

theorem Linked.increasing_visit (linked : Linked d s.nodes ((node, parent) :: rest)) {n : ShadowNode}
    (found : (s.visit d node parent).nodes[place]? = some n) :
    (place :: n.children).Pairwise (· < ·) := by
  rcases getElem?_visit_cases linked.known_top found with ⟨_, there⟩ | ⟨_, m, there, rfl⟩ |
    ⟨rfl, rfl⟩
  · exact linked.increasing place n there
  · -- the new place is behind all those that are taken
    have behind : ∀ earlier ∈ place :: m.children, earlier < s.nodes.length :=
      List.forall_mem_cons.mpr ⟨(List.getElem?_eq_some_iff.mp there).1,
        fun _ member => linked.lt_length there member⟩
    rw [← List.cons_append]
    refine List.pairwise_append.mpr
      ⟨linked.increasing place m there, List.pairwise_singleton _ _, ?_⟩
    intro earlier member last new
    rw [List.mem_singleton.mp new]
    exact behind earlier member
  · exact List.pairwise_singleton _ _

theorem Linked.parents_visit (linked : Linked d s.nodes ((node, parent) :: rest)) {n : ShadowNode}
    (found : (s.visit d node parent).nodes[place]? = some n) (member : child ∈ n.children) :
    ∃ m : ShadowNode, (s.visit d node parent).nodes[child]? = some m ∧ m.parent = some place := by
  have known := linked.known_top
  have before : ∀ {m : ShadowNode}, s.nodes[place]? = some m → child ∈ m.children →
      ∃ m : ShadowNode, (s.visit d node parent).nodes[child]? = some m ∧ m.parent = some place := by
    intro m there old
    rcases linked.parents place m there child old with ⟨lower, below, upper⟩
    rcases exists_visit_old d node known below with ⟨now, still, same⟩
    exact ⟨now, still, same.trans upper⟩
  rcases getElem?_visit_cases known found with ⟨_, there⟩ | ⟨here, m, there, rfl⟩ | ⟨rfl, rfl⟩
  · exact before there member
  · rcases List.mem_append.mp member with old | new
    · exact before there old
    · rw [List.mem_singleton.mp new]
      exact ⟨_, getElem?_visit_new known, here⟩
  · exact absurd member (by simp)

theorem Linked.visit (linked : Linked d s.nodes ((node, parent) :: rest)) :
    Linked d (s.visit d node parent).nodes
      ((d.children node).map (·, some s.nodes.length) ++ rest) where
  children _ _ := linked.children_visit
  increasing _ _ := linked.increasing_visit
  parents _ _ found _ := linked.parents_visit found
  known := by
    intro entry member place upper
    rw [length_visit d node linked.known_top]
    rcases List.mem_append.mp member with fresh | old
    · rcases List.mem_map.mp fresh with ⟨_, _, rfl⟩
      rw [← Option.some.inj upper]
      exact Nat.lt_succ_self _
    · exact Nat.lt_succ_of_lt (linked.known entry (List.mem_cons_of_mem _ old) place upper)

theorem noted_linked_visitAll : ∀ {rounds : Nat} {s : Shadow} {stack : List (NodeId × Option Nat)},
    Noted d s → Linked d s.nodes stack → visitAll d rounds s stack = some last →
    Noted d last ∧ Linked d last.nodes []
  | rounds, s, [], noted, linked, ended => by
      rw [visitAll] at ended
      obtain rfl := Option.some.inj ended
      exact ⟨noted, linked⟩
  -- out of rounds, the loop does not end
  | 0, s, _ :: _, _, _, ended => by simp [visitAll] at ended
  | rounds + 1, s, (node, parent) :: rest, noted, linked, ended => by
      rw [visitAll] at ended
      exact noted_linked_visitAll (noted.visit linked.known_top) linked.visit ended

theorem noted_nil (d : Document) : Noted d ⟨[], {}, []⟩ := by
  constructor <;> simp [handlesOf]

theorem visitAll_eq_of (sound : d.Sound) (root : NodeId) :
    visitAll d (d.preorder root).length ⟨[], {}, []⟩ [(root, none)] = some (of d root) ∧
      Linked d (of d root).nodes [] := by
  rcases adds_walk sound root none 0 [] ⟨[], {}, []⟩ (by simp) with ⟨last, nodes, ended⟩
  rw [List.append_nil, Nat.add_zero, visitAll] at ended
  rcases noted_linked_visitAll (noted_nil d) (linked_nil d root) ended with ⟨noted, linked⟩
  have walked : last.nodes = (of d root).nodes := nodes
  have same : last = of d root := by
    rcases last with ⟨visited, handles, texts⟩
    obtain rfl : visited = (of d root).nodes := walked
    obtain rfl : handles = handlesOf d (of d root).nodes := noted.handles
    obtain rfl : texts = ((of d root).nodes.map (·.node)).filter d.isText := noted.texts
    rfl
  exact ⟨same ▸ ended, walked ▸ linked⟩

/-- What the shadow of the tree at `root` is. -/
structure Mirrors (d : Document) (root : NodeId) (s : Shadow) : Prop where
  /-- The nodes stand in document order. -/
  order : s.nodes.map (·.node) = d.preorder root
  once : (s.nodes.map (·.node)).Nodup
  whole : ∀ id, id ∈ s.nodes.map (·.node) ↔ id = root ∨ d.Above root id
  first : ∃ n, s.nodes[0]? = some n ∧ n.node = root ∧ n.parent = none
  children : ∀ (place : Nat) (n : ShadowNode), s.nodes[place]? = some n →
    n.children.map (nodeAt? s.nodes) = (d.children n.node).map some
  /-- Children stand behind their parent, and behind each other. -/
  increasing : ∀ (place : Nat) (n : ShadowNode), s.nodes[place]? = some n →
    (place :: n.children).Pairwise (· < ·)
  parents : ∀ (place : Nat) (n : ShadowNode), s.nodes[place]? = some n → ∀ child ∈ n.children,
    ∃ m : ShadowNode, s.nodes[child]? = some m ∧ m.parent = some place
  texts : s.texts = (d.preorder root).filter d.isText
  texts_once : s.texts.Nodup

theorem mirrors_of (sound : d.Sound) (linked : Linked d (of d root).nodes []) :
    Mirrors d root (of d root) := by
  have order : (of d root).nodes.map (·.node) = d.preorder root := inOrder_eq_preorder root
  have texts : (of d root).texts = (d.preorder root).filter d.isText :=
    congrArg (List.filter d.isText) order
  have once := sound.nodup_preorder root
  constructor
  · exact order
  · rw [order]
    exact once
  · intro id
    rw [order]
    exact sound.mem_preorder_iff root
  · rw [of, walk_eq sound]
    exact ⟨_, rfl, rfl, rfl⟩
  · intro place n found
    have all := linked.children place n found
    rwa [pending, List.filter_nil, List.map_nil, List.map_nil, List.append_nil] at all
  · exact linked.increasing
  · exact linked.parents
  · exact texts
  · rw [texts]
    exact once.filter _

/-- In every reachable document the loop that fills a shadow comes to its end, after one round for each
node of the tree, and the shadow mirrors the tree, whose document order is that of a recursive walk. -/
theorem filled_and_mirrors (reached : d ∈ familyOf actions) (root : NodeId) :
    visitAll d (d.preorder root).length ⟨[], {}, []⟩ [(root, none)] = some (of d root) ∧
    Mirrors d root (of d root) ∧
    ∀ id, d.preorder id = id :: (d.children id).flatMap d.preorder := by
  have sound := sound_familyOf actions d reached
  rcases visitAll_eq_of sound root with ⟨ended, linked⟩
  exact ⟨ended, mirrors_of sound linked, sound.preorder_eq⟩

/-- Once the paragraph before a text is moved behind it, places and numbers are no longer the same. -/
theorem filled_and_mirrors_moved : ∃ d,
    d ∈ familyOf [.new, .edit 0 (.plant (.element "div".toList {}
      [.element "p".toList {} [.text "a".toList], .text "c".toList])), .edit 0 (.append 0 1)] ∧
    visitAll d 4 ⟨[], {}, []⟩ [(0, none)] = some (of d 0) ∧ Mirrors d 0 (of d 0) ∧
    (of d 0).nodes = [⟨0, none, [1, 2]⟩, ⟨3, some 0, []⟩, ⟨1, some 0, [3]⟩, ⟨2, some 2, []⟩] ∧
    (of d 0).texts = [3, 2] := by
  let actions : List Action := [.new, .edit 0 (.plant (.element "div".toList {}
    [.element "p".toList {} [.text "a".toList], .text "c".toList])), .edit 0 (.append 0 1)]
  have facts : (familyOf actions)[0]?.map (fun d => (d.preorder 0, (of d 0).nodes, (of d 0).texts)) =
      some ([0, 3, 1, 2], [⟨0, none, [1, 2]⟩, ⟨3, some 0, []⟩, ⟨1, some 0, [3]⟩, ⟨2, some 2, []⟩],
        [3, 2]) := by decide +kernel
  rcases Option.map_eq_some_iff.mp facts with ⟨d, found, same⟩
  rcases Prod.mk.inj same with ⟨order, shape⟩
  rcases Prod.mk.inj shape with ⟨nodes, texts⟩
  have member := List.mem_of_getElem? found
  rcases filled_and_mirrors member 0 with ⟨ended, mirrors, _⟩
  rw [order] at ended
  exact ⟨d, member, ended, mirrors, nodes, texts⟩

end LiveTemplate.Template.Shadow
