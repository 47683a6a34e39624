import LiveTemplate.Table

namespace LiveTemplate.Style

/-- The name that stands in for each class, in the order in which classes are replaced. -/
abbrev Renaming := Table Text

/-- Replaces every occurrence of each class, whatever it is part of; a replacement is open to the
classes that come later. -/
def Renaming.apply (map : Renaming) (template : Text) : Text :=
  map.entries.foldl (fun t (className, name) =>
    if className.isEmpty then t else Text.replace className name t) template

end LiveTemplate.Style
