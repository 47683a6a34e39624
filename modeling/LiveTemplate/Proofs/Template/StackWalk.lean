import LiveTemplate.Proofs.Document.Planted
import LiveTemplate.Proofs.Document.Subtrees

/-! The shadow of a tree, filled by a loop that keeps the nodes still to be visited on a stack: each
round gives one node the next place, notes it as a child of its parent, and puts its own children on
top of the stack. The loop comes to its end, and what it leaves is the shadow. -/

namespace LiveTemplate.Template.Shadow

open Document

def adopt (parent : Option Nat) (more : List Nat) (nodes : List ShadowNode) : List ShadowNode :=
  parent.elim nodes fun place =>
    nodes.modify place fun n => { n with children := n.children ++ more }

def visit (d : Document) (s : Shadow) (node : NodeId) (parent : Option Nat) : Shadow :=
  let fresh : ShadowNode := ⟨node, parent, []⟩
  let nodes := adopt parent [s.nodes.length] (s.nodes ++ [fresh])
  { nodes
    handles := (declaration? d nodes fresh).elim s.handles fun (handle, child) =>
      s.handles.insertNew handle child
    texts := if d.isText node then s.texts ++ [node] else s.texts }

/-- The loop over a stack of nodes and the places of their parents; nothing if it does not end within
the rounds it is given. -/
def visitAll (d : Document) : (rounds : Nat) → Shadow → (stack : List (NodeId × Option Nat)) →
    Option Shadow
  | _, s, [] => some s
  | 0, _, _ :: _ => none
  | rounds + 1, s, (node, parent) :: rest =>
    visitAll d rounds (s.visit d node parent)
      ((d.children node).map (·, some s.nodes.length) ++ rest)

theorem adopt_nil (parent : Option Nat) (nodes : List ShadowNode) : adopt parent [] nodes = nodes := by
  cases parent with
  | none => rfl
  | some place =>
      have same : (fun n : ShadowNode => { n with children := n.children ++ [] }) = id := by
        funext n
        simp
      rw [adopt, Option.elim_some, same, List.modify_id]

variable {d : Document} {s last : Shadow} {node id root : NodeId} {parent : Option Nat}
  {place : Nat} {nodes more : List ShadowNode} {stack rest : List (NodeId × Option Nat)}

@[simp] theorem length_adopt (parent : Option Nat) (children : List Nat) (nodes : List ShadowNode) :
    (adopt parent children nodes).length = nodes.length := by
  cases parent <;> simp [adopt]

theorem adopt_adopt (parent : Option Nat) (first second : List Nat) (nodes : List ShadowNode) :
    adopt parent second (adopt parent first nodes) = adopt parent (first ++ second) nodes := by
  cases parent with
  | none => rfl
  | some place => simp [adopt, List.modify_modify_eq, Function.comp_def]

theorem adopt_append (known : ∀ place ∈ parent, place < nodes.length) (children : List Nat) :
    adopt parent children (nodes ++ more) = adopt parent children nodes ++ more := by
  cases parent with
  | none => rfl
  | some place => exact modify_append_of_lt (known place rfl) more

theorem adopt_length_append (nodes more : List ShadowNode) (n : ShadowNode) (children : List Nat) :
    adopt (some nodes.length) children (nodes ++ n :: more) =
      nodes ++ { n with children := n.children ++ children } :: more :=
  modify_append_length _ nodes (n :: more)

theorem nodes_visit (d : Document) (node : NodeId) (known : ∀ place ∈ parent, place < s.nodes.length) :
    (s.visit d node parent).nodes =
      adopt parent [s.nodes.length] s.nodes ++ [⟨node, parent, []⟩] :=
  adopt_append known _

theorem length_visit (d : Document) (node : NodeId)
    (known : ∀ place ∈ parent, place < s.nodes.length) :
    (s.visit d node parent).nodes.length = s.nodes.length + 1 := by
  simp [nodes_visit d node known]

/-- A walk gives its first node the places of the children below it. -/
theorem walk_eq (sound : d.Sound) (place : Nat) (parent : Option Nat) (id : NodeId) :
    walk d d.size place parent id =
      let (below, places) := walkAll (fun next => walk d d.size next (some place)) (place + 1)
        (d.children id)
      ⟨id, parent, places⟩ :: below := by
  have same := (descends_shadow d).eq_of_size_le sound (Nat.le_succ d.size) id
  exact (congrFun (congrFun same place) parent).symm

def Adds (d : Document) (rounds : Nat) (entries : List (NodeId × Option Nat)) (parent : Option Nat)
    (walked : Nat → List ShadowNode × List Nat) : Prop :=
  ∀ (more : Nat) (rest : List (NodeId × Option Nat)) (s : Shadow),
    (∀ place ∈ parent, place < s.nodes.length) → ∃ next : Shadow,
      next.nodes = adopt parent (walked s.nodes.length).2 s.nodes ++ (walked s.nodes.length).1 ∧
      visitAll d (rounds + more) s (entries ++ rest) = visitAll d more next rest

theorem adds_walkAll (place : Nat) {ids : List NodeId} {walk : Nat → NodeId → List ShadowNode}
    (each : ∀ id ∈ ids, Adds d (d.preorder id).length [(id, some place)] (some place)
      fun next => (walk next id, [next])) :
    Adds d (ids.flatMap d.preorder).length (ids.map (·, some place)) (some place)
      fun next => walkAll walk next ids := by
  induction ids with
  | nil =>
      intro more rest s known
      exact ⟨s, by simp [walkAll, adopt_nil], by simp⟩
  | cons child others ih =>
      intro more rest s known
      have later := ih fun id member => each id (List.mem_cons_of_mem child member)
      rcases each child List.mem_cons_self ((others.flatMap d.preorder).length + more)
        (others.map (·, some place) ++ rest) s known with ⟨middle, first, reached⟩
      have size : middle.nodes.length = s.nodes.length + (walk s.nodes.length child).length := by
        simp [first]
      have still : ∀ p ∈ some place, p < middle.nodes.length := fun p member =>
        Nat.lt_of_lt_of_le (known p member) (size ▸ Nat.le_add_right _ _)
      rcases later more rest middle still with ⟨next, second, ended⟩
      refine ⟨next, ?_, ?_⟩
      · have inside : ∀ p ∈ some place,
            p < (adopt (some place) [s.nodes.length] s.nodes).length := by simpa using known
        rw [second, size, first, adopt_append inside, adopt_adopt]
        simp [walkAll]
      · rw [List.flatMap_cons, List.length_append, Nat.add_assoc]
        exact reached.trans ended

/-- With a node on top of its stack the loop adds the walk at the node. -/
theorem adds_walk (sound : d.Sound) (id : NodeId) : ∀ parent : Option Nat,
    Adds d (d.preorder id).length [(id, parent)] parent
      fun next => (walk d d.size next parent id, [next]) := by
  induction id using sound.wellFounded_children.induction with
  | _ id ih =>
      intro parent more rest s known
      have nodes := nodes_visit d id known
      have below := adds_walkAll s.nodes.length
        fun child member => ih child member (some s.nodes.length)
      have inside : ∀ place ∈ some s.nodes.length,
          place < (s.visit d id parent).nodes.length := by simp [nodes]
      rcases below more rest (s.visit d id parent) inside with ⟨next, added, ended⟩
      refine ⟨next, ?_, ?_⟩
      · -- the node itself stands at the first free place, where its children are noted
        have own : ∀ places, adopt (some s.nodes.length) places
            (adopt parent [s.nodes.length] s.nodes ++ [⟨id, parent, []⟩]) =
              adopt parent [s.nodes.length] s.nodes ++ [⟨id, parent, places⟩] := by
          intro places
          have here := adopt_length_append (adopt parent [s.nodes.length] s.nodes) []
            ⟨id, parent, []⟩ places
          rwa [length_adopt] at here
        simp only [nodes, List.length_append, length_adopt, List.length_singleton, own] at added
        simp only [added, walk_eq sound s.nodes.length parent id, List.append_assoc,
          List.singleton_append]
      · rw [sound.preorder_eq, List.length_cons, Nat.add_right_comm]
        exact ended

def declared (d : Document) (ids : List NodeId) (link : NodeId × Option Nat) : Option (Text × NodeId) :=
  (link.2.bind fun place => ids[place]?).bind fun upper =>
    ((d.attribute? upper handleAttribute).filter (!·.isEmpty)).map fun handle => (handle, link.1)

def link (n : ShadowNode) : NodeId × Option Nat :=
  (n.node, n.parent)

theorem declaration?_eq (d : Document) (nodes : List ShadowNode) (n : ShadowNode) :
    declaration? d nodes n = declared d (nodes.map (·.node)) (link n) := by
  rw [declaration?, declared, link]
  cases n.parent with
  | none => rfl
  | some place =>
      rw [Option.bind_some, Option.bind_some, List.getElem?_map]
      cases nodes[place]? <;> rfl

theorem map_link_adopt (parent : Option Nat) (children : List Nat) (nodes : List ShadowNode) :
    (adopt parent children nodes).map link = nodes.map link := by
  cases parent with
  | none => rfl
  | some place =>
      apply List.ext_getElem?
      intro i
      rw [adopt, Option.elim_some, List.getElem?_map, List.getElem?_map, List.getElem?_modify]
      cases nodes[i]? with
      | none => rfl
      | some n =>
          by_cases same : place = i <;> simp [same, link]

theorem map_node_eq (nodes : List ShadowNode) :
    nodes.map (·.node) = (nodes.map link).map (·.1) := by
  rw [List.map_map]
  rfl

theorem handlesOf_eq (d : Document) (nodes : List ShadowNode) : handlesOf d nodes =
    ((nodes.map link).filterMap (declared d (nodes.map (·.node)))).foldl
      (fun handles (handle, node) => handles.insertNew handle node) {} := by
  rw [handlesOf, List.filterMap_map]
  exact congrArg (List.foldl _ _) (List.filterMap_congr fun n _ => declaration?_eq d nodes n)

theorem map_link_visit (d : Document) (node : NodeId)
    (known : ∀ place ∈ parent, place < s.nodes.length) :
    (s.visit d node parent).nodes.map link = s.nodes.map link ++ [(node, parent)] := by
  rw [nodes_visit d node known, List.map_append, map_link_adopt]
  rfl

theorem map_node_visit (d : Document) (node : NodeId)
    (known : ∀ place ∈ parent, place < s.nodes.length) :
    (s.visit d node parent).nodes.map (·.node) = s.nodes.map (·.node) ++ [node] := by
  rw [map_node_eq, map_link_visit d node known, List.map_append, ← map_node_eq]
  rfl

theorem filterMap_declared_append (d : Document) {ids : List NodeId}
    {links : List (NodeId × Option Nat)} (known : ∀ l ∈ links, ∀ place ∈ l.2, place < ids.length)
    (more : List NodeId) :
    links.filterMap (declared d (ids ++ more)) = links.filterMap (declared d ids) := by
  apply List.filterMap_congr
  intro l member
  rw [declared, declared]
  cases upper : l.2 with
  | none => rfl
  | some place =>
      rw [Option.bind_some, Option.bind_some, List.getElem?_append_left (known l member place upper)]

structure Noted (d : Document) (s : Shadow) : Prop where
  handles : s.handles = handlesOf d s.nodes
  texts : s.texts = (s.nodes.map (·.node)).filter d.isText
  parents : ∀ l ∈ s.nodes.map link, ∀ place ∈ l.2, place < s.nodes.length

theorem Noted.handles_visit (noted : Noted d s) (known : ∀ place ∈ parent, place < s.nodes.length) :
    (s.visit d node parent).handles = handlesOf d (s.visit d node parent).nodes := by
  have ids := map_node_visit d node known
  have places : ∀ l ∈ s.nodes.map link, ∀ place ∈ l.2, place < (s.nodes.map (·.node)).length := by
    rw [List.length_map]
    exact noted.parents
  have before := filterMap_declared_append d places [node]
  have fresh : declaration? d (s.visit d node parent).nodes ⟨node, parent, []⟩ =
      declared d (s.nodes.map (·.node) ++ [node]) (node, parent) := by
    rw [declaration?_eq, ids]
    rfl
  rw [handlesOf_eq, map_link_visit d node known, ids, List.filterMap_append, before,
    List.foldl_append, ← handlesOf_eq, ← noted.handles]
  change (declaration? d (s.visit d node parent).nodes ⟨node, parent, []⟩).elim _ _ = _
  rw [fresh]
  cases found : declared d (s.nodes.map (·.node) ++ [node]) (node, parent) with
  | none =>
      rw [List.filterMap_cons_none found]
      rfl
  | some declaration =>
      rw [List.filterMap_cons_some found]
      rfl

theorem Noted.visit (noted : Noted d s) (known : ∀ place ∈ parent, place < s.nodes.length) :
    Noted d (s.visit d node parent) where
  handles := noted.handles_visit known
  texts := by
    rw [map_node_visit d node known, List.filter_append, ← noted.texts]
    by_cases text : d.isText node <;> simp [Shadow.visit, text]
  parents := by
    intro l member place upper
    rw [map_link_visit d node known] at member
    rw [length_visit d node known]
    rcases List.mem_append.mp member with old | new
    · exact Nat.lt_succ_of_lt (noted.parents l old place upper)
    · rw [List.mem_singleton.mp new] at upper
      exact Nat.lt_succ_of_lt (known place upper)

end LiveTemplate.Template.Shadow
