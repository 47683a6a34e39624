import LiveTemplate.Style.Number
import LiveTemplate.Style.Url

/-! Reading a stylesheet into tokens. Every text has tokens, and what ends too early ends with the
text. Each reader gives the rest of the text it was given. -/

namespace LiveTemplate.Style

def skipEscaped (t : Text) : Text :=
  if startsWith isNewline t then skipOneSpace t else (escape t).2

theorem skipEscaped_length (t : Text) : (skipEscaped t).length ≤ t.length := by
  unfold skipEscaped
  split
  · exact skipOneSpace_length t
  · exact escape_length t

/-- What follows the quote that opens a string: a newline without a backslash makes it a bad one and
is left unread. -/
def string (quote : Char) (t : Text) : Token × Text :=
  match t with
  | [] => (.string, [])
  | c :: r =>
    if c = quote then (.string, r)
    else if c = '\\' then string quote (skipEscaped r)
    else if isNewline c then (.badString, c :: r)
    else string quote r
termination_by t.length
decreasing_by
  · have := skipEscaped_length r
    simp only [List.length_cons]
    omega
  · simp

theorem string_length (quote : Char) (t : Text) : (string quote t).2.length ≤ t.length := by
  fun_induction string quote t with
  | case1 => simp
  | case2 => simp
  | case3 r _ ih =>
      have := skipEscaped_length r
      simp only [List.length_cons]
      omega
  | case4 => simp
  | case5 c r _ _ _ ih =>
      simp only [List.length_cons]
      omega

def comment : Text → Text
  | [] => []
  | '*' :: '/' :: r => r
  | _ :: r => comment r

def identLike (t : Text) : Token × Text :=
  match name t with
  | (word, '(' :: r) =>
    if word.lowerAscii = "url".toList then url word r else (.function word, r)
  | (word, rest) => (.ident word, rest)

def signed (sign : Char) (t : Text) : Token × Text :=
  if startsNumber t then numeric t else (.delim sign, t)

def hash (t : Text) : Token × Text :=
  if startsIdent t || startsWith (fun c => c.isDigit || c == '-') t then
    let (word, rest) := name t
    (.hash word, rest)
  else (.delim '#', t)

def atKeyword (t : Text) : Token × Text :=
  if startsIdent t then
    let (word, rest) := name t
    (.atKeyword word, rest)
  else (.delim '@', t)

def hyphen (t : Text) : Token × Text :=
  if startsNumber t then numeric t
  else
    match t with
    | '-' :: '>' :: r => (.cdc, r)
    | _ => if startsIdent ('-' :: t) then identLike ('-' :: t) else (.delim '-', t)

def isMatcher (c : Char) : Bool :=
  c == '$' || c == '*' || c == '^' || c == '|' || c == '~'

def bracket? (c : Char) : Option Token :=
  if c = '(' then some (.opener .round)
  else if c = ')' then some (.closer .round)
  else if c = '[' then some (.opener .square)
  else if c = ']' then some (.closer .square)
  else if c = '{' then some (.opener .curly)
  else if c = '}' then some (.closer .curly)
  else none

def point (r : Text) : Token × Text :=
  if startsWith Char.isDigit r then numeric ('.' :: r) else (.delim '.', r)

def backslash (r : Text) : Token × Text :=
  if startsWith isNewline r then (.delim '\\', r) else identLike ('\\' :: r)

/-- The tokens of several characters that no name, number or string starts, and all others of one. -/
def symbol (c : Char) (r : Text) : Token × Text :=
  match c, r with
  | '/', '*' :: s => (.comment, comment s)
  | '<', '!' :: '-' :: '-' :: s => (.cdo, s)
  | _, '=' :: s => if isMatcher c then (.matcher c, s) else (.delim c, r)
  | _, _ => (.delim c, r)

/-- The tokens that start with a character of their own; `r` follows it. -/
def marked (c : Char) (r : Text) : Token × Text :=
  if c = '#' then hash r
  else if c = '+' then signed '+' r
  else if c = '-' then hyphen r
  else if c = '.' then point r
  else if c = '@' then atKeyword r
  else if c = '\\' then backslash r
  else symbol c r

def tokenFrom (c : Char) (r : Text) : Token × Text :=
  if isSpace c then (.space, r.dropWhile isSpace)
  else if c = '"' ∨ c = '\'' then string c r
  else if c.isDigit then numeric (c :: r)
  else if isNameStart c then identLike (c :: r)
  else
    match bracket? c with
    | some token => (token, r)
    | none => marked c r

theorem comment_length (t : Text) : (comment t).length ≤ t.length := by
  fun_induction comment t with
  | case1 => simp
  | case2 r => simp only [List.length_cons]; omega
  | case3 _ _ _ ih => simp only [List.length_cons]; omega

theorem identLike_length (t : Text) : (identLike t).2.length ≤ (name t).2.length := by
  unfold identLike
  split
  · rename_i word r same
    rw [same]
    split
    · have := url_length word r
      simp only [List.length_cons]
      omega
    · simp
  · rename_i word rest _ same
    exact Nat.le_of_eq (by rw [same])

theorem signed_length (sign : Char) (t : Text) : (signed sign t).2.length ≤ t.length := by
  unfold signed
  split
  · exact numeric_length_le t
  · exact Nat.le_refl _

theorem hash_length (t : Text) : (hash t).2.length ≤ t.length := by
  unfold hash
  split
  · exact name_length t
  · exact Nat.le_refl _

theorem atKeyword_length (t : Text) : (atKeyword t).2.length ≤ t.length := by
  unfold atKeyword
  split
  · exact name_length t
  · exact Nat.le_refl _

theorem hyphen_length (t : Text) : (hyphen t).2.length ≤ t.length := by
  unfold hyphen
  split
  · exact numeric_length_le t
  · split
    · simp only [List.length_cons]
      omega
    · split
      · exact Nat.le_trans (identLike_length _) (name_length_lt (.inl (by decide)))
      · exact Nat.le_refl _

theorem point_length (r : Text) : (point r).2.length ≤ r.length := by
  unfold point
  split
  · rename_i digit
    cases r with
    | nil => exact absurd digit (by decide)
    | cons d s => exact Nat.le_succ_of_le (numeric_length_of_point digit)
  · exact Nat.le_refl _

theorem backslash_length (r : Text) : (backslash r).2.length ≤ r.length := by
  unfold backslash
  split
  · exact Nat.le_refl _
  · rename_i newline
    exact Nat.le_trans (identLike_length _) (name_length_lt (.inr ⟨rfl, by simpa using newline⟩))

theorem symbol_length (c : Char) (r : Text) : (symbol c r).2.length ≤ r.length := by
  unfold symbol
  split
  · rename_i s
    have := comment_length s
    simp only [List.length_cons]
    omega
  · simp only [List.length_cons]
    omega
  · split <;> simp
  · exact Nat.le_refl _

/-- What holds of each reader that `marked` chooses from holds of what it reads. -/
theorem marked_cases {P : Token × Text → Prop} {c : Char} {r : Text} (ofHash : P (hash r))
    (ofPlus : P (signed '+' r)) (ofHyphen : P (hyphen r)) (ofPoint : P (point r))
    (ofAt : P (atKeyword r)) (ofBackslash : P (backslash r)) (ofSymbol : P (symbol c r)) :
    P (marked c r) := by
  unfold marked
  by_cases h : c = '#'
  · rwa [if_pos h]
  rw [if_neg h]
  by_cases h : c = '+'
  · rwa [if_pos h]
  rw [if_neg h]
  by_cases h : c = '-'
  · rwa [if_pos h]
  rw [if_neg h]
  by_cases h : c = '.'
  · rwa [if_pos h]
  rw [if_neg h]
  by_cases h : c = '@'
  · rwa [if_pos h]
  rw [if_neg h]
  by_cases h : c = '\\'
  · rwa [if_pos h]
  rwa [if_neg h]

theorem tokenFrom_cases {P : Token × Text → Prop} {c : Char} {r : Text}
    (ofSpace : P (.space, r.dropWhile isSpace)) (ofQuote : P (string c r))
    (ofDigit : c.isDigit → P (numeric (c :: r)))
    (ofNameStart : isNameStart c → P (identLike (c :: r)))
    (ofBracket : ∀ token, bracket? c = some token → P (token, r)) (ofMarked : P (marked c r)) :
    P (tokenFrom c r) := by
  unfold tokenFrom
  by_cases space : isSpace c
  · rwa [if_pos space]
  rw [if_neg space]
  by_cases quote : c = '"' ∨ c = '\''
  · rwa [if_pos quote]
  rw [if_neg quote]
  by_cases digit : c.isDigit
  · rw [if_pos digit]; exact ofDigit digit
  rw [if_neg digit]
  by_cases start : isNameStart c
  · rw [if_pos start]; exact ofNameStart start
  rw [if_neg start]
  split
  · rename_i token found
    exact ofBracket token found
  · exact ofMarked

theorem marked_length (c : Char) (r : Text) : (marked c r).2.length ≤ r.length :=
  marked_cases (P := fun read => read.2.length ≤ r.length) (hash_length r) (signed_length '+' r)
    (hyphen_length r) (point_length r) (atKeyword_length r) (backslash_length r) (symbol_length c r)

theorem tokenFrom_length (c : Char) (r : Text) : (tokenFrom c r).2.length ≤ r.length := by
  apply tokenFrom_cases (P := fun read => read.2.length ≤ r.length)
  · exact dropWhile_length _ _
  · exact string_length c r
  · exact numeric_length_of_digit
  · intro start
    exact Nat.le_trans (identLike_length _) (name_length_lt (.inl (by simp [isNameChar, start])))
  · exact fun _ _ => Nat.le_refl _
  · exact marked_length c r

def tokens (t : Text) : List Token :=
  match t with
  | [] => []
  | c :: r =>
    match _read : tokenFrom c r with
    | (token, rest) => token :: tokens rest
termination_by t.length
decreasing_by
  have shorter := tokenFrom_length c r
  simp only [_read] at shorter
  simp only [List.length_cons]
  omega

end LiveTemplate.Style
