import LiveTemplate.Document.Basic

namespace LiveTemplate.Template

def handleAttribute : Text := "#handle".toList

structure ShadowNode where
  node : NodeId
  parent : Option Nat
  children : List Nat
  deriving DecidableEq, Repr

structure Shadow where
  nodes : List ShadowNode
  /-- For each handle the first child of the element that declares it. -/
  handles : Table NodeId
  texts : List NodeId
  deriving DecidableEq, Repr

namespace Shadow

def walkAll (walk : Nat → NodeId → List ShadowNode) (next : Nat) :
    List NodeId → List ShadowNode × List Nat
  | [] => ([], [])
  | id :: more =>
    let first := walk next id
    let (others, places) := walkAll walk (next + first.length) more
    (first ++ others, next :: places)

def walk (d : Document) : (depth : Nat) → (place : Nat) → (parent : Option Nat) → NodeId →
    List ShadowNode
  | 0, _, parent, id => [⟨id, parent, []⟩]
  | depth + 1, place, parent, id =>
    let (below, places) := walkAll (fun next => walk d depth next (some place)) (place + 1)
      (d.children id)
    ⟨id, parent, places⟩ :: below

/-- The handle declared by the parent of a node, with the node. -/
def declaration? (d : Document) (nodes : List ShadowNode) (n : ShadowNode) :
    Option (Text × NodeId) :=
  (n.parent.bind fun place => nodes[place]?).bind fun parent =>
    ((d.attribute? parent.node handleAttribute).filter (!·.isEmpty)).map fun handle =>
      (handle, n.node)

/-- The first declaration of a handle counts. -/
def handlesOf (d : Document) (nodes : List ShadowNode) : Table NodeId :=
  (nodes.filterMap (declaration? d nodes)).foldl
    (fun handles (handle, node) => handles.insertNew handle node) {}

def of (d : Document) (root : NodeId) : Shadow :=
  let nodes := walk d d.size 0 none root
  { nodes
    handles := handlesOf d nodes
    texts := (nodes.map (·.node)).filter d.isText }

end Shadow

end LiveTemplate.Template
