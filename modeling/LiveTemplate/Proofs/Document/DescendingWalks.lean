import LiveTemplate.Document.Printer
import LiveTemplate.Proofs.Document.Ancestors
import LiveTemplate.Template.Shadow

/-! Walks from a node down to its descendants come to an end in a sound document: the bound on their
depth is never what stops them. -/

namespace LiveTemplate.Document

open Markup
open Template

/-- A walk, bounded in depth, that at a node depends on what it gives at the children only. -/
structure Descends {α : Type} (d : Document) (walk : Nat → NodeId → α) : Prop where
  unknown : ∀ n id, d.size ≤ id → walk (n + 1) id = walk 0 id
  inner : ∀ m n id, (∀ child ∈ d.children id, walk m child = walk n child) →
    walk (m + 1) id = walk (n + 1) id

variable {α : Type} {d : Document} {walk : Nat → NodeId → α} {id : NodeId} {m n : Nat}

theorem children_of_record? {r : Record} (found : d.record? id = some r) :
    d.children id = r.children := by
  rw [children, found]
  rfl

/-- The deeper a node lies, the smaller a bound is enough. -/
theorem Descends.eq_succ (walks : d.Descends walk) (sound : d.Sound) : ∀ (n : Nat) (id : NodeId),
    d.size ≤ n + (d.ancestors id).length → walk (n + 1) id = walk n id
  | 0, id, enough => by
      -- no known node has so many ancestors
      apply walks.unknown
      by_contra known
      have short := sound.length_ancestors_lt (Nat.lt_of_not_le known)
      omega
  | n + 1, id, enough => by
      -- a child is given one level less, and has one ancestor more
      apply walks.inner
      intro child member
      apply walks.eq_succ sound
      rw [sound.ancestors_of_child ((sound.linked id child).mp member), List.length_cons]
      omega

theorem Descends.eq_of_size_le (walks : d.Descends walk) (sound : d.Sound) (enough : d.size ≤ n)
    (id : NodeId) : walk n id = walk d.size id := by
  induction n, enough using Nat.le_induction with
  | base => rfl
  | succ n enough ih =>
      calc
        walk (n + 1) id = walk n id := walks.eq_succ sound n id (Nat.le_add_right_of_le enough)
        _ = walk d.size id := ih

theorem Sound.wellFounded_children (sound : d.Sound) :
    WellFounded fun child parent => child ∈ d.children parent := by
  refine Subrelation.wf ?_ (measure fun id => d.size - (d.ancestors id).length).wf
  intro child parent member
  have linked := (sound.linked parent child).mp member
  have deeper := congrArg List.length (sound.ancestors_of_child linked)
  have short := sound.length_ancestors_lt (sound.child_known member)
  rw [List.length_cons] at deeper
  change d.size - (d.ancestors child).length < d.size - (d.ancestors parent).length
  omega

theorem descends_treeWithin (d : Document) : d.Descends d.treeWithin where
  unknown := by
    intro n id outside
    rw [treeWithin, treeWithin, record?_of_size_le outside]
    rfl
  inner := by
    intro m n id same
    rw [treeWithin, treeWithin]
    cases found : d.record? id with
    | none => rfl
    | some r =>
        rw [children_of_record? found] at same
        rw [Option.map_some, Option.map_some, List.filterMap_congr same]

theorem descends_textWithin (d : Document) : d.Descends d.textWithin where
  unknown := by
    intro n id outside
    rw [textWithin, textWithin, record?_of_size_le outside]
  inner := by
    intro m n id same
    rw [textWithin, textWithin]
    cases found : d.record? id with
    | none => rfl
    | some r =>
        rw [children_of_record? found] at same
        simp only [List.flatMap_congr same]

theorem descends_markupWithin (d : Document) : d.Descends d.markupWithin where
  unknown := by
    intro n id outside
    rw [markupWithin, markupWithin, record?_of_size_le outside]
  inner := by
    intro m n id same
    rw [markupWithin, markupWithin]
    cases found : d.record? id with
    | none => rfl
    | some r =>
        rw [children_of_record? found] at same
        simp only [List.flatMap_congr same]

theorem walkAll_congr {first second : Nat → NodeId → List ShadowNode} : ∀ {ids : List NodeId},
    (∀ id ∈ ids, ∀ next, first next id = second next id) →
    ∀ next, Shadow.walkAll first next ids = Shadow.walkAll second next ids
  | [], _, _ => rfl
  | id :: more, same, next => by
      have others := walkAll_congr fun other member => same other (List.mem_cons_of_mem id member)
      rw [Shadow.walkAll, Shadow.walkAll, same id List.mem_cons_self, others]

theorem descends_shadow (d : Document) :
    d.Descends fun n id place parent => Shadow.walk d n place parent id where
  unknown := by
    intro n id outside
    funext place parent
    have childless : d.children id = [] := by rw [children, record?_of_size_le outside]; rfl
    rw [Shadow.walk, Shadow.walk, childless]
    rfl
  inner := by
    intro m n id same
    funext place parent
    have below := walkAll_congr (fun child member next =>
      congrFun (congrFun (same child member) next) (some place)) (place + 1)
    rw [Shadow.walk, below, Shadow.walk]

/-- The nodes met by a loop that keeps the nodes still to be visited on a stack and puts the children
of each node it visits on top; nothing if the loop does not end within the rounds it is given. -/
def visits (d : Document) : (rounds : Nat) → (stack : List NodeId) → Option (List NodeId)
  | _, [] => some []
  | 0, _ :: _ => none
  | rounds + 1, id :: rest => (d.visits rounds (d.children id ++ rest)).map (id :: ·)

def inOrder (d : Document) (id : NodeId) : List NodeId :=
  (Shadow.walk d d.size 0 none id).map (·.node)

theorem map_walkAll {walk : Nat → NodeId → List ShadowNode} {nodes : NodeId → List NodeId} :
    ∀ {ids : List NodeId}, (∀ id ∈ ids, ∀ next, (walk next id).map (·.node) = nodes id) →
    ∀ next, (Shadow.walkAll walk next ids).1.map (·.node) = ids.flatMap nodes
  | [], _, _ => rfl
  | id :: more, same, next => by
      have others := map_walkAll fun other member => same other (List.mem_cons_of_mem id member)
      rw [Shadow.walkAll]
      simp only [List.map_append]
      rw [same id List.mem_cons_self, others, List.flatMap_cons]

def preorderWithin (d : Document) : Nat → NodeId → List NodeId
  | 0, id => [id]
  | n + 1, id => id :: (d.children id).flatMap (d.preorderWithin n)

def preorder (d : Document) (id : NodeId) : List NodeId :=
  d.preorderWithin d.size id

theorem map_walk : ∀ (n place : Nat) (parent : Option Nat) (id : NodeId),
    (Shadow.walk d n place parent id).map (·.node) = d.preorderWithin n id
  | 0, _, _, _ => rfl
  | n + 1, place, parent, id => by
      have below : (Shadow.walkAll (fun next => Shadow.walk d n next (some place)) (place + 1)
          (d.children id)).1.map (·.node) = (d.children id).flatMap (d.preorderWithin n) :=
        map_walkAll (fun child _ next => map_walk n next (some place) child) (place + 1)
      rw [Shadow.walk, List.map_cons, below, preorderWithin]

theorem inOrder_eq_preorder (id : NodeId) : d.inOrder id = d.preorder id :=
  map_walk d.size 0 none id

theorem descends_preorderWithin (d : Document) : d.Descends d.preorderWithin where
  unknown := by
    intro n id outside
    have childless : d.children id = [] := by rw [children, record?_of_size_le outside]; rfl
    rw [preorderWithin, preorderWithin, childless, List.flatMap_nil]
  inner := by
    intro m n id same
    rw [preorderWithin, preorderWithin, List.flatMap_congr same]

theorem Sound.inOrder_eq (sound : d.Sound) (id : NodeId) :
    d.inOrder id = id :: (d.children id).flatMap d.inOrder := by
  have deeper := (descends_preorderWithin d).eq_of_size_le sound (Nat.le_succ d.size) id
  have below : d.inOrder = d.preorderWithin d.size := funext inOrder_eq_preorder
  rw [below, ← deeper, preorderWithin]

theorem SameTree.preorder {changed : Document} (same : d.SameTree changed) : changed.preorder id = d.preorder id := by
  have within : ∀ n id, changed.preorderWithin n id = d.preorderWithin n id := by
    intro n
    induction n with
    | zero => exact fun id => rfl
    | succ n ih =>
        intro id
        rw [preorderWithin, preorderWithin, same.children, List.flatMap_congr fun child _ => ih child]
  rw [Document.preorder, Document.preorder, same.size, within]

/-- A loop that has a tree on top of its stack visits the tree first. -/
theorem Sound.visits_inOrder (sound : d.Sound) (id : NodeId) : ∀ (rounds : Nat) (rest : List NodeId),
    d.visits ((d.inOrder id).length + rounds) (id :: rest) =
      (d.visits rounds rest).map (d.inOrder id ++ ·) := by
  induction id using sound.wellFounded_children.induction with
  | _ id ih =>
      have all : ∀ ids ⊆ d.children id, ∀ rounds rest,
          d.visits ((ids.flatMap d.inOrder).length + rounds) (ids ++ rest) =
            (d.visits rounds rest).map (ids.flatMap d.inOrder ++ ·) := by
        intro ids
        induction ids with
        | nil => intro _ rounds rest; simp
        | cons child more others =>
            intro inside rounds rest
            have first := ih child (inside List.mem_cons_self)
            rw [List.flatMap_cons, List.length_append, Nat.add_assoc, List.cons_append, first,
              others (List.subset_of_cons_subset inside), Option.map_map]
            simp [Function.comp_def]
      intro rounds rest
      rw [sound.inOrder_eq id, List.length_cons, Nat.add_right_comm, visits,
        all _ (List.Subset.refl _), Option.map_map]
      rfl

theorem Sound.visits_eq (sound : d.Sound) (id : NodeId) :
    d.visits (d.inOrder id).length [id] = some (d.inOrder id) := by
  have visited := sound.visits_inOrder id 0 []
  rw [Nat.add_zero, visits, Option.map_some, List.append_nil] at visited
  exact visited

/-- Every walk through a document comes to its own end. -/
structure WalksEnd (d : Document) : Prop where
  descents : WellFounded fun child parent => child ∈ d.children parent
  ascents : ∀ id n, d.size ≤ n → d.ancestorsWithin n (d.parent? id) = d.ancestors id
  tree : ∀ id n, d.size ≤ n → d.treeWithin n id = d.tree? id
  text : ∀ id n, d.size ≤ n → d.textWithin n id = d.textWithin d.size id
  markup : ∀ id n, d.size ≤ n → d.markupWithin n id = d.markup id
  shadow : ∀ id n, d.size ≤ n → ∀ place parent,
    Shadow.walk d n place parent id = Shadow.walk d d.size place parent id
  stack : ∀ id, d.visits (d.inOrder id).length [id] = some (d.inOrder id)

theorem Sound.walksEnd (sound : d.Sound) : d.WalksEnd where
  descents := sound.wellFounded_children
  ascents := fun id _ enough => sound.ancestorsWithin_eq id enough
  tree := fun id _ enough => (descends_treeWithin d).eq_of_size_le sound enough id
  text := fun id _ enough => (descends_textWithin d).eq_of_size_le sound enough id
  markup := fun id _ enough => (descends_markupWithin d).eq_of_size_le sound enough id
  shadow := by
    intro id n enough place parent
    have same := (descends_shadow d).eq_of_size_le sound enough id
    exact congrFun (congrFun same place) parent
  stack := sound.visits_eq

end LiveTemplate.Document
