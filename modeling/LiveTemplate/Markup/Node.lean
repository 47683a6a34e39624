import LiveTemplate.Table

namespace LiveTemplate.Markup

abbrev Attributes := Table Text

inductive Node where
  | text (content : Text)
  | comment (content : Text)
  | element (tag : Text) (attributes : Attributes) (children : List Node)
  deriving Repr

inductive Content where
  | text (content : Text)
  | comment (content : Text)
  | element (tag : Text) (attributes : Attributes)
  deriving DecidableEq, Repr

structure OutlineLine where
  depth : Nat
  content : Content
  deriving DecidableEq, Repr

mutual

def Node.outline (depth : Nat) : Node → List OutlineLine
  | .text t => [⟨depth, .text t⟩]
  | .comment t => [⟨depth, .comment t⟩]
  | .element tag attributes children =>
      ⟨depth, .element tag attributes⟩ :: outlineAll (depth + 1) children

def outlineAll (depth : Nat) : List Node → List OutlineLine
  | [] => []
  | node :: more => node.outline depth ++ outlineAll depth more

end

end LiveTemplate.Markup
