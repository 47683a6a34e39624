import LiveTemplate.Style.Block

namespace LiveTemplate.Style

mutual

/-- The names right after a point, block by block; a block ends what came before it. -/
def classesIn (afterPoint : Bool) : List Item → List Text
  | [] => []
  | .token t :: more =>
      (match t with
        | .ident name => if afterPoint then [name] else []
        | _ => []) ++ classesIn (t == .delim '.') more
  | item :: more => item.classes ++ classesIn false more

def Item.classes : Item → List Text
  | .token _ => []
  | .block _ inner _ => classesIn false inner

end

def classesOf (css : Text) : List Text :=
  (classesIn false (itemsOf css)).eraseDups

end LiveTemplate.Style
