import LiveTemplate.Style.Lexer

/-! The blocks of a stylesheet. A block ends at its own closing bracket or with the text; inside it
every other closing bracket is a token like any other. -/

namespace LiveTemplate.Style

inductive Item where
  | token (token : Token)
  | block (opener : Token) (inner : List Item) (closer : Option Token)
  deriving Repr

structure Items (bound : Nat) where
  items : List Item
  closer : Option Token
  rest : List Token
  rest_le : rest.length ≤ bound

/-- Reads the items of a block that `bracket` closes; the outermost items have no bracket. -/
def readItems (bracket : Option Bracket) (tokens : List Token) : Items tokens.length :=
  match tokens with
  | [] => ⟨[], none, [], Nat.le_refl _⟩
  | t :: r =>
    if t.closes?.isSome ∧ t.closes? = bracket then ⟨[], some t, r, Nat.le_succ _⟩
    else if t.opens?.isSome then
      match readItems t.opens? r with
      | ⟨inner, closer, rest, rest_le⟩ =>
        match readItems bracket rest with
        | ⟨items, last, after, after_le⟩ =>
          ⟨.block t inner closer :: items, last, after,
            Nat.le_succ_of_le (Nat.le_trans after_le rest_le)⟩
    else
      match readItems bracket r with
      | ⟨items, last, after, after_le⟩ =>
        ⟨.token t :: items, last, after, Nat.le_succ_of_le after_le⟩
termination_by tokens.length
decreasing_by all_goals simp only [List.length_cons]; omega

def itemsOf (css : Text) : List Item :=
  (readItems none (tokens css)).items

end LiveTemplate.Style
