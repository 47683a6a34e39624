import LiveTemplate.Text.Basic

namespace LiveTemplate.Markup

def namedReferences : List (Text × Char) :=
  [("amp", '&'), ("lt", '<'), ("gt", '>'), ("quot", '"'), ("apos", '\''), ("nbsp", '\u00a0'),
    ("iexcl", '\u00a1'), ("cent", '\u00a2'), ("pound", '\u00a3'), ("yen", '\u00a5'),
    ("sect", '\u00a7'), ("copy", '\u00a9'), ("laquo", '\u00ab'), ("shy", '\u00ad'),
    ("reg", '\u00ae'), ("deg", '\u00b0'), ("plusmn", '\u00b1'), ("sup2", '\u00b2'),
    ("sup3", '\u00b3'), ("micro", '\u00b5'), ("para", '\u00b6'), ("middot", '\u00b7'),
    ("raquo", '\u00bb'), ("frac14", '\u00bc'), ("frac12", '\u00bd'), ("frac34", '\u00be'),
    ("iquest", '\u00bf'), ("times", '\u00d7'), ("divide", '\u00f7'), ("ndash", '\u2013'),
    ("mdash", '\u2014'), ("lsquo", '\u2018'), ("rsquo", '\u2019'), ("ldquo", '\u201c'),
    ("rdquo", '\u201d'), ("bull", '\u2022'), ("hellip", '\u2026'), ("euro", '\u20ac'),
    ("trade", '\u2122'), ("larr", '\u2190'), ("uarr", '\u2191'), ("rarr", '\u2192'),
    ("darr", '\u2193'), ("harr", '\u2194')].map fun (name, c) => (name.toList, c)

def digitValue? (c : Char) : Option Nat :=
  if c.isDigit then some (c.toNat - 48)
  else if 'a' ≤ c ∧ c ≤ 'f' then some (c.toNat - 87)
  else if 'A' ≤ c ∧ c ≤ 'F' then some (c.toNat - 55)
  else none

def digits? (base : Nat) (t : Text) : Option Nat :=
  if t.isEmpty then none
  else t.foldlM (fun n c => (digitValue? c).bind fun d =>
    if d < base then some (n * base + d) else none) 0

/-- A number may carry a plus sign. -/
def number? (base : Nat) : Text → Option Nat
  | '+' :: t => digits? base t
  | t => digits? base t

/-- The character with a code; zero, surrogates and codes past the last one give U+FFFD. -/
def charOfCode (n : Nat) : Char :=
  if n ≠ 0 ∧ n.isValidChar then Char.ofNat n else '\ufffd'

def reference? : Text → Option Char
  | '#' :: 'x' :: t => (number? 16 t).map charOfCode
  | '#' :: 'X' :: t => (number? 16 t).map charOfCode
  | '#' :: t => (number? 10 t).map charOfCode
  | name => namedReferences.lookup name

def referenceSpan : Nat := 10

def upToSemicolon? (room : Nat) : Text → Option (Text × Text)
  | [] => none
  | c :: r =>
    if c = ';' then some ([], r)
    else if c.utf8Size ≤ room then
      (upToSemicolon? (room - c.utf8Size) r).map fun (name, rest) => (c :: name, rest)
    else none

def readReference? (r : Text) : Option (Char × Text) :=
  (upToSemicolon? referenceSpan r).bind fun (name, rest) =>
    (reference? name).map fun c => (c, rest)

theorem upToSemicolon?_length {room : Nat} {t name rest : Text}
    (h : upToSemicolon? room t = some (name, rest)) : rest.length < t.length := by
  induction t generalizing room name with
  | nil => simp [upToSemicolon?] at h
  | cons c r ih =>
      rw [upToSemicolon?] at h
      split at h
      · obtain ⟨rfl, rfl⟩ := Prod.mk.inj (Option.some.inj h)
        simp
      · split at h
        · obtain ⟨⟨n, s⟩, found, same⟩ := Option.map_eq_some_iff.mp h
          obtain ⟨rfl, rfl⟩ := Prod.mk.inj same
          exact Nat.lt_succ_of_lt (ih found)
        · exact absurd h (by simp)

theorem readReference?_length {r rest : Text} {c : Char}
    (h : readReference? r = some (c, rest)) : rest.length < r.length := by
  obtain ⟨⟨name, s⟩, found, same⟩ := Option.bind_eq_some_iff.mp h
  obtain ⟨d, _, same⟩ := Option.map_eq_some_iff.mp same
  obtain ⟨rfl, rfl⟩ := Prod.mk.inj same
  exact upToSemicolon?_length found

/-- Reads references from left to right; an `&` that starts none stands for itself, and a character
that was read is not read again. -/
def decode (t : Text) : Text :=
  match t with
  | [] => []
  | '&' :: r =>
    match _read : readReference? r with
    | some (c, rest) => c :: decode rest
    | none => '&' :: decode r
  | c :: r => c :: decode r
termination_by t.length
decreasing_by
  · have := readReference?_length _read
    simp only [List.length_cons]
    omega
  all_goals simp

end LiveTemplate.Markup
