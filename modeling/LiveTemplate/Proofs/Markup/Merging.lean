import LiveTemplate.Proofs.Markup.WellFormed

namespace LiveTemplate.Markup

def joined : Node → List Node → List Node
  | .text first, .text second :: more => .text (first ++ second) :: more
  | node, more => node :: more

mutual

/-- The tree in which every run of adjacent texts is one text. -/
def Node.merged : Node → Node
  | .text content => .text content
  | .comment content => .comment content
  | .element tag attributes children => .element tag attributes (mergedAll children)

def mergedAll : List Node → List Node
  | [] => []
  | node :: more => joined node.merged (mergedAll more)

end

theorem joined_of_apart {node : Node} {more : List Node}
    (apart : node.isText → ∀ next ∈ more.head?, ¬ next.isText) : joined node more = node :: more := by
  cases more with
  | nil => cases node <;> rfl
  | cons next more => cases node <;> cases next <;> simp_all [joined, Node.isText]

/-- What joining does: it makes two texts one, or it leaves the nodes as they are. -/
theorem joined_cases (node : Node) (more : List Node) :
    (∃ first second rest, node = .text first ∧ more = .text second :: rest ∧
      joined node more = .text (first ++ second) :: rest) ∨
    ((node.isText → ∀ next ∈ more.head?, ¬ next.isText) ∧ joined node more = node :: more) := by
  by_cases apart : node.isText → ∀ next ∈ more.head?, ¬ next.isText
  · exact .inr ⟨apart, joined_of_apart apart⟩
  · left
    cases more with
    | nil => simp at apart
    | cons next rest =>
        cases node with
        | text first =>
            cases next with
            | text second => exact ⟨first, second, rest, rfl, rfl, rfl⟩
            | _ => simp [Node.isText] at apart
        | _ => simp [Node.isText] at apart

theorem textsApart_joined {node : Node} {more : List Node} (chain : TextsApart more) :
    TextsApart (joined node more) := by
  rcases joined_cases node more with ⟨first, second, rest, rfl, rfl, same⟩ | ⟨apart, same⟩
  · rw [same]
    exact List.isChain_cons.mpr (List.isChain_cons.mp chain)
  · rw [same]
    refine List.isChain_cons.mpr ⟨fun next member texts => ?_, chain⟩
    exact apart texts.1 next member texts.2

theorem textsApart_mergedAll (nodes : List Node) : TextsApart (mergedAll nodes) := by
  induction nodes with
  | nil => exact .nil
  | cons node more ih => exact textsApart_joined ih

theorem writtenText_append (verbatim : Bool) (first second : Text) :
    writtenText verbatim (first ++ second) =
      writtenText verbatim first ++ writtenText verbatim second := by
  cases verbatim with
  | true => rfl
  | false => exact List.flatMap_append

theorem writtenAll_joined (verbatim : Bool) (node : Node) (more : List Node) :
    writtenAll verbatim (joined node more) = node.written verbatim ++ writtenAll verbatim more := by
  rcases joined_cases node more with ⟨first, second, rest, rfl, rfl, same⟩ | ⟨_, same⟩
  · rw [same]
    simp only [writtenAll, Node.written, writtenText_append, List.append_assoc]
  · rw [same, writtenAll]

mutual

/-- Merging does not show in the markup. -/
theorem written_merged (verbatim : Bool) : ∀ node : Node,
    node.merged.written verbatim = node.written verbatim
  | .text _ => rfl
  | .comment _ => rfl
  | .element tag attributes children => by
      rw [Node.merged, Node.written, Node.written, writtenAll_mergedAll]

theorem writtenAll_mergedAll (verbatim : Bool) : ∀ nodes : List Node,
    writtenAll verbatim (mergedAll nodes) = writtenAll verbatim nodes
  | [] => rfl
  | node :: more => by
      rw [mergedAll, writtenAll_joined, writtenAll, written_merged verbatim node,
        writtenAll_mergedAll verbatim more]

end

theorem allWellFormed_joined {above : List Text} {node : Node} {more : List Node}
    (formed : node.WellFormed above) (others : AllWellFormed above more) :
    AllWellFormed above (joined node more) := by
  rcases joined_cases node more with ⟨first, second, rest, rfl, rfl, same⟩ | ⟨_, same⟩
  · have nonempty : first ≠ [] := formed
    rw [same]
    exact ⟨by simp [Node.WellFormed, nonempty], others.2⟩
  · rw [same]
    exact ⟨formed, others⟩

theorem allWellFormed_mergedAll {above : List Text} {nodes : List Node}
    (formed : ∀ node ∈ nodes, node.merged.WellFormed above) :
    AllWellFormed above (mergedAll nodes) := by
  induction nodes with
  | nil => trivial
  | cons node more ih =>
      have others : AllWellFormed above (mergedAll more) :=
        ih fun other later => formed other (List.mem_cons_of_mem node later)
      exact allWellFormed_joined (formed node List.mem_cons_self) others

end LiveTemplate.Markup
