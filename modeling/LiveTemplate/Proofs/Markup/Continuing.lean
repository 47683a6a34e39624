import LiveTemplate.Proofs.Markup.Rebuilding
import LiveTemplate.Markup.Fragment

namespace LiveTemplate.Markup

namespace Nesting

def onto (n : Nesting) (earlier : List Node) : Nesting :=
  { n with top := n.top ++ earlier }

variable {n : Nesting} {earlier : List Node}

theorem add_onto (node : Node) : (n.onto earlier).add node = (n.add node).onto earlier := by
  rcases n with ⟨top, opened⟩
  cases opened <;> rfl

theorem closeInnermost_onto :
    (n.onto earlier).closeInnermost = n.closeInnermost.onto earlier := by
  rcases n with ⟨top, opened⟩
  cases opened with
  | nil => rfl
  | cons e outer => exact add_onto (n := ⟨top, outer⟩) e.close

theorem close_onto (count : Nat) : (n.onto earlier).close count = (n.close count).onto earlier := by
  induction count generalizing n with
  | zero => rfl
  | succ count ih => rw [close, closeInnermost_onto, ih, close]

theorem endNearest_onto (targets shields : List Text) :
    (n.onto earlier).endNearest targets shields = (n.endNearest targets shields).onto earlier :=
  close_onto _

theorem foldl_endNearest_onto (rules : List ImpliedEnd) :
    rules.foldl (fun n rule => n.endNearest rule.targets rule.shields) (n.onto earlier) =
      (rules.foldl (fun n rule => n.endNearest rule.targets rule.shields) n).onto earlier := by
  induction rules generalizing n with
  | nil => rfl
  | cons rule more ih => rw [List.foldl_cons, endNearest_onto, ih, List.foldl_cons]

theorem startTag_onto (tag : Text) (attributes : Attributes) (closed : Bool) :
    (n.onto earlier).startTag tag attributes closed =
      (n.startTag tag attributes closed).onto earlier := by
  rw [startTag, foldl_endNearest_onto, startTag]
  split
  · exact add_onto _
  · rfl

theorem read_onto (token : Token) : (n.onto earlier).read token = (n.read token).onto earlier := by
  cases token with
  | text content => exact add_onto _
  | comment content => exact add_onto _
  | doctype => rfl
  | startTag name written closed => exact startTag_onto _ _ closed
  | endTag name => exact endNearest_onto _ _
  | raw name written content ended => exact add_onto _

theorem foldl_read_onto (tokens : List Token) :
    tokens.foldl read (n.onto earlier) = (tokens.foldl read n).onto earlier := by
  induction tokens generalizing n with
  | nil => rfl
  | cons token more ih => rw [List.foldl_cons, read_onto, ih, List.foldl_cons]

theorem finish_onto : (n.onto earlier).finish = earlier.reverse ++ n.finish := by
  have closed : (n.onto earlier).close n.opened.length = (n.close n.opened.length).onto earlier :=
    close_onto _
  calc
    (n.onto earlier).finish = ((n.onto earlier).close n.opened.length).top.reverse := rfl
    _ = ((n.close n.opened.length).top ++ earlier).reverse := by rw [closed, onto]
    _ = earlier.reverse ++ n.finish := by rw [List.reverse_append, finish]

end Nesting

/-- Tokens that leave no element open give their nodes in front of those of the later tokens. -/
theorem nodesOfTokens_append {first : List Token}
    (closed : (first.foldl Nesting.read {}).opened = []) (more : List Token) :
    nodesOfTokens (first ++ more) = nodesOfTokens first ++ nodesOfTokens more := by
  rcases done : first.foldl Nesting.read {} with ⟨top, opened⟩
  obtain rfl : opened = [] := by simpa [done] using closed
  have start : first.foldl Nesting.read {} = Nesting.onto {} top := done
  have alone : nodesOfTokens first = top.reverse := by
    rw [nodesOfTokens, done]
    rfl
  rw [alone, nodesOfTokens, List.foldl_append, start, Nesting.foldl_read_onto, Nesting.finish_onto,
    nodesOfTokens]

def textTokens (t : Text) : List Token :=
  if t = [] then [] else [.text t]

def textNodes (t : Text) : List Node :=
  if t = [] then [] else [.text (decode t)]

variable {t rest : Text}

theorem tokens?_text_append (free : '<' ∉ t) (opens : opensTag rest) :
    tokens? (t ++ rest) = (tokens? rest).map (textTokens t ++ ·) := by
  rw [textTokens]
  split
  · rename_i empty
    simp [empty]
  · rename_i nonempty
    exact tokens?_of_token? (by simp [nonempty]) (token?_text nonempty free (.inr opens))

theorem nodesOfTokens_textTokens_append (t : Text) (more : List Token) :
    nodesOfTokens (textTokens t ++ more) = textNodes t ++ nodesOfTokens more := by
  have closed : ((textTokens t).foldl Nesting.read {}).opened = [] := by
    rw [textTokens]
    split
    · rfl
    · rfl
  have nodes : nodesOfTokens (textTokens t) = textNodes t := by
    rw [textTokens, textNodes]
    split
    · rfl
    · rfl
  rw [nodesOfTokens_append closed, nodes]

/-- Text in front of a tag is a node in front of what is read from there on. -/
theorem parse?_text_append (free : '<' ∉ t) (opens : opensTag rest) :
    parse? (t ++ rest) = (parse? rest).map (textNodes t ++ ·) := by
  rw [parse?, parse?, tokens?_text_append free opens, Option.map_map, Option.map_map]
  exact Option.map_congr fun tokens _ => nodesOfTokens_textTokens_append t tokens

theorem parse?_of_doctype (nonempty : t ≠ []) (read : token? t = some (.doctype, rest)) :
    parse? t = parse? rest := by
  rw [parse?, tokens?_of_token? nonempty read, Option.map_map, parse?]
  exact Option.map_congr fun tokens _ => rfl

end LiveTemplate.Markup
