import LiveTemplate.Style.Name

namespace LiveTemplate.Style

def startsNumber : Text → Bool
  | '.' :: r => startsWith Char.isDigit r
  | t => startsWith Char.isDigit t

/-- Passes over a point that digits follow, and these digits. -/
def skipFraction : Text → Text
  | '.' :: r => if startsWith Char.isDigit r then r.dropWhile Char.isDigit else '.' :: r
  | t => t

def skipSignedDigits? : Text → Option Text
  | '+' :: r => if startsWith Char.isDigit r then some (r.dropWhile Char.isDigit) else none
  | '-' :: r => if startsWith Char.isDigit r then some (r.dropWhile Char.isDigit) else none
  | t => if startsWith Char.isDigit t then some (t.dropWhile Char.isDigit) else none

def skipExponent : Text → Text
  | [] => []
  | c :: r => if c = 'e' ∨ c = 'E' then (skipSignedDigits? r).getD (c :: r) else c :: r

def numberEnd (t : Text) : Text :=
  skipExponent (skipFraction (t.dropWhile Char.isDigit))

def numeric (t : Text) : Token × Text :=
  match numberEnd t with
  | '%' :: r => (.percentage, r)
  | rest =>
    if startsIdent rest then
      let (unit, after) := name rest
      (.dimension unit, after)
    else (.number, rest)

theorem skipFraction_length (t : Text) : (skipFraction t).length ≤ t.length := by
  unfold skipFraction
  split
  · rename_i r
    have := dropWhile_length Char.isDigit r
    split <;> simp only [List.length_cons] <;> omega
  · exact Nat.le_refl _

theorem skipSignedDigits?_length {t rest : Text} (h : skipSignedDigits? t = some rest) :
    rest.length ≤ t.length := by
  unfold skipSignedDigits? at h
  split at h
  all_goals
    obtain ⟨_, same⟩ := Option.ite_none_right_eq_some.mp h
    obtain rfl := Option.some.inj same
    refine Nat.le_trans (dropWhile_length _ _) ?_
    simp

theorem skipExponent_length (t : Text) : (skipExponent t).length ≤ t.length := by
  unfold skipExponent
  split
  · simp
  · rename_i c r
    split
    · cases h : skipSignedDigits? r with
      | none => simp
      | some rest =>
          have := skipSignedDigits?_length h
          simp only [Option.getD_some, List.length_cons]
          omega
    · simp

theorem numberEnd_length (t : Text) :
    (numberEnd t).length ≤ (t.dropWhile Char.isDigit).length :=
  Nat.le_trans (skipExponent_length _) (skipFraction_length _)

theorem numeric_length (t : Text) : (numeric t).2.length ≤ (numberEnd t).length := by
  unfold numeric
  split
  · rename_i r same
    rw [same]
    simp
  · split
    · exact name_length _
    · exact Nat.le_refl _

theorem numeric_length_of_digit {c : Char} {r : Text} (start : c.isDigit) :
    (numeric (c :: r)).2.length ≤ r.length := by
  refine Nat.le_trans (numeric_length _) (Nat.le_trans (numberEnd_length _) ?_)
  rw [List.dropWhile_cons_of_pos start]
  exact dropWhile_length _ _

theorem numeric_length_of_point {c : Char} {r : Text} (start : c.isDigit) :
    (numeric ('.' :: c :: r)).2.length ≤ r.length := by
  refine Nat.le_trans (numeric_length _) (Nat.le_trans (skipExponent_length _) ?_)
  rw [List.dropWhile_cons_of_neg (by decide), skipFraction]
  simp only [startsWith, List.head?_cons, Option.map_some, Option.getD_some, start, if_true]
  rw [List.dropWhile_cons_of_pos start]
  exact dropWhile_length _ _

theorem numeric_length_le (t : Text) : (numeric t).2.length ≤ t.length :=
  Nat.le_trans (numeric_length t) (Nat.le_trans (numberEnd_length t) (dropWhile_length _ _))

end LiveTemplate.Style
