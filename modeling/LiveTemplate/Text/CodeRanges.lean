namespace LiveTemplate.Text

abbrev CodeRanges := List (Nat × Nat)

def CodeRanges.holds : CodeRanges → Nat → Bool
  | [], _ => false
  | (first, last) :: more, n =>
    if n < first then false else n ≤ last || CodeRanges.holds more n

end LiveTemplate.Text
