import LiveTemplate.Style.Token

namespace LiveTemplate.Style

def isNewline (c : Char) : Bool :=
  c == '\n' || c == '\r' || c == '\x0c'

def isSpace (c : Char) : Bool :=
  c == ' ' || c == '\t' || isNewline c

def isHexDigit (c : Char) : Bool :=
  c.isDigit || ('a' ≤ c && c ≤ 'f') || ('A' ≤ c && c ≤ 'F')

/-- Characters that start a name without an escape: letters, the underscore, the null character and
all beyond ASCII. -/
def isNameStart (c : Char) : Bool :=
  c.isAlpha || c == '_' || c == '\x00' || 0x80 ≤ c.toNat

def isNameChar (c : Char) : Bool :=
  isNameStart c || c.isDigit || c == '-'

def startsWith (p : Char → Bool) (t : Text) : Bool :=
  (t.head?.map p).getD false

/-- Whether a name starts here. After a hyphen every backslash counts; elsewhere it must not stand
before a newline. -/
def startsIdent : Text → Bool
  | '-' :: r => startsWith (fun c => isNameStart c || c == '-' || c == '\\') r
  | '\\' :: r => !startsWith isNewline r
  | t => startsWith isNameStart t

def hexValue (t : Text) : Nat :=
  t.foldl (fun n c =>
    n * 16 + (if c.isDigit then c.toNat - 48 else if c.toNat < 97 then c.toNat - 55
      else c.toNat - 87)) 0

/-- The character with a code; zero and codes of no character give U+FFFD. -/
def charOfCode (n : Nat) : Char :=
  if n ≠ 0 ∧ n.isValidChar then Char.ofNat n else '\ufffd'

/-- One space after an escape by number belongs to it; a return and a line feed count as one. -/
def skipOneSpace : Text → Text
  | '\r' :: '\n' :: r => r
  | c :: r => if isSpace c then r else c :: r
  | [] => []

/-- What a backslash in front of this text stands for: up to six hexadecimal digits give a code, and
any other character stands for itself. -/
def escape (t : Text) : Char × Text :=
  match t with
  | [] => ('\ufffd', [])
  | c :: r =>
    if isHexDigit c then
      let digits := (t.take 6).takeWhile isHexDigit
      (charOfCode (hexValue digits), skipOneSpace (t.drop digits.length))
    else if c = '\x00' then ('\ufffd', r)
    else (c, r)

theorem skipOneSpace_length (t : Text) : (skipOneSpace t).length ≤ t.length := by
  unfold skipOneSpace
  split
  · simp only [List.length_cons]
    omega
  · split <;> simp
  · simp

theorem escape_length (t : Text) : (escape t).2.length ≤ t.length := by
  unfold escape
  split
  · simp
  · split
    · refine Nat.le_trans (skipOneSpace_length _) ?_
      simp only [List.length_drop]
      omega
    · split <;> simp

def name (t : Text) : Text × Text :=
  match t with
  | [] => ([], [])
  | c :: r =>
    if c = '\\' then
      if startsWith isNewline r then ([], c :: r)
      else
        let (more, rest) := name (escape r).2
        ((escape r).1 :: more, rest)
    else if isNameChar c then
      let (more, rest) := name r
      ((if c = '\x00' then '\ufffd' else c) :: more, rest)
    else ([], c :: r)
termination_by t.length
decreasing_by
  · have := escape_length r
    simp only [List.length_cons]
    omega
  · simp

theorem name_length (t : Text) : (name t).2.length ≤ t.length := by
  fun_induction name t with
  | case1 => simp
  | case2 => simp
  | case3 r _ more rest same ih =>
      have := escape_length r
      simp_all only [List.length_cons]
      omega
  | case4 c r _ _ more rest same ih =>
      simp_all only [List.length_cons]
      omega
  | case5 => simp

theorem dropWhile_length (p : Char → Bool) (t : Text) : (t.dropWhile p).length ≤ t.length :=
  (List.dropWhile_suffix p).length_le

theorem name_length_lt {c : Char} {r : Text}
    (start : isNameChar c ∨ (c = '\\' ∧ startsWith isNewline r = false)) :
    (name (c :: r)).2.length ≤ r.length := by
  have escaped := Nat.le_trans (name_length (escape r).2) (escape_length r)
  have plain := name_length r
  rw [name]
  split
  · rename_i backslash
    split
    · rcases start with start | start
      · subst backslash
        exact absurd start (by decide)
      · simp_all
    · exact escaped
  · split
    · exact plain
    · simp_all

end LiveTemplate.Style
