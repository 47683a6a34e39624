import LiveTemplate.Markup.Element
import LiveTemplate.Markup.Token

/-! Reading markup into tokens. Every reader takes the text from its own place on and gives the rest;
a tag that is not of its exact shape makes the whole source unreadable. -/

namespace LiveTemplate.Markup

def isSpace (c : Char) : Bool :=
  c == ' ' || c == '\t' || c == '\r' || c == '\n'

def isTagChar (c : Char) : Bool :=
  c.isAlphanum || c == '-' || c == '_' || c == ':' || c == '.'

def isNameChar (c : Char) : Bool :=
  !(isSpace c || c == '/' || c == '>' || c == '=' || c == '"' || c == '\'' || c == '<')

def isBareChar (c : Char) : Bool :=
  !(isSpace c || c == '>' || c == '"' || c == '\'' || c == '=' || c == '<' || c == '\x60')

def skipSpaces (t : Text) : Text :=
  t.dropWhile isSpace

def startsWithLetter (t : Text) : Bool :=
  (t.head?.map Char.isAlpha).getD false

def splitBefore (stop : Text → Bool) : Text → Text × Text
  | [] => ([], [])
  | c :: r =>
    if stop (c :: r) then ([], c :: r)
    else
      let (before, rest) := splitBefore stop r
      (c :: before, rest)

def opensTag : Text → Bool
  | '<' :: '!' :: _ => true
  | '<' :: '/' :: r => startsWithLetter r
  | '<' :: r => startsWithLetter r
  | _ => false

/-- Whether an end tag of any raw-text element starts here, its last character left open. -/
def endsRaw : Text → Bool
  | '<' :: '/' :: r => isRaw (r.takeWhile isTagChar)
  | _ => false

def value? : Text → Option (Text × Text)
  | '"' :: r => Text.cut ['"'] r
  | '\'' :: r => Text.cut ['\''] r
  | t =>
    match t.takeWhile isBareChar with
    | [] => none
    | value => some (value, t.dropWhile isBareChar)

def assigned? (t : Text) : Option (Text × Text) :=
  match skipSpaces t with
  | '=' :: r => value? (skipSpaces r)
  | _ => none

/-- A name with its value; a name after which no value can be read stands alone. -/
def attribute? (t : Text) : Option ((Text × Text) × Text) :=
  match t.takeWhile isNameChar with
  | [] => none
  | name =>
    match assigned? (t.dropWhile isNameChar) with
    | some (value, rest) => some ((name, value), rest)
    | none => some ((name, []), t.dropWhile isNameChar)

theorem value?_length {t value rest : Text} (h : value? t = some (value, rest)) :
    rest.length ≤ t.length := by
  unfold value? at h
  split at h
  · have := Text.cut_length h
    simp only [List.length_cons]
    omega
  · have := Text.cut_length h
    simp only [List.length_cons]
    omega
  · split at h
    · exact absurd h (by simp)
    · obtain ⟨_, rfl⟩ := Prod.mk.inj (Option.some.inj h)
      exact (List.dropWhile_suffix _).length_le

theorem skipSpaces_length (t : Text) : (skipSpaces t).length ≤ t.length :=
  (List.dropWhile_suffix _).length_le

theorem assigned?_length {t value rest : Text} (h : assigned? t = some (value, rest)) :
    rest.length ≤ t.length := by
  unfold assigned? at h
  split at h
  · rename_i r spaces
    have skipped := skipSpaces_length t
    rw [spaces, List.length_cons] at skipped
    have read := value?_length h
    have inner := skipSpaces_length r
    omega
  · exact absurd h (by simp)

theorem attribute?_length {t rest : Text} {a : Text × Text}
    (h : attribute? t = some (a, rest)) : rest.length ≤ t.length := by
  have dropped : (t.dropWhile isNameChar).length ≤ t.length :=
    (List.dropWhile_suffix _).length_le
  unfold attribute? at h
  split at h
  · exact absurd h (by simp)
  · split at h
    · rename_i found
      obtain ⟨_, rfl⟩ := Prod.mk.inj (Option.some.inj h)
      exact Nat.le_trans (assigned?_length found) dropped
    · obtain ⟨_, rfl⟩ := Prod.mk.inj (Option.some.inj h)
      exact dropped

def attributes (t : Text) : WrittenAttributes × Text :=
  match t with
  | [] => ([], [])
  | c :: r =>
    if isSpace c then
      match _read : attribute? (skipSpaces r) with
      | some (a, rest) =>
        let (more, after) := attributes rest
        (a :: more, after)
      | none => ([], c :: r)
    else ([], c :: r)
termination_by t.length
decreasing_by
  have shorter := attribute?_length _read
  have skipped := skipSpaces_length r
  simp only [List.length_cons]
  omega

def tagEnd? (t : Text) : Option (Bool × Text) :=
  match skipSpaces t with
  | '/' :: '>' :: r => some (true, r)
  | '>' :: r => some (false, r)
  | _ => none

def afterRawEnd? : Text → Option Text
  | '<' :: '/' :: r =>
    match skipSpaces (r.dropWhile isTagChar) with
    | '>' :: rest => some rest
    | _ => none
  | _ => none

/-- The content of a raw-text element and its end tag, which stays unread if it is not finished. -/
def rawElement (name : Text) (written : WrittenAttributes) (t : Text) : Token × Text :=
  let (content, rest) := splitBefore endsRaw t
  match afterRawEnd? rest with
  | some after => (.raw name written content true, after)
  | none => (.raw name written content false, rest)

def startTag? (t : Text) : Option (Token × Text) :=
  let name := t.takeWhile isTagChar
  let (written, afterAttributes) := attributes (t.dropWhile isTagChar)
  (tagEnd? afterAttributes).map fun (closed, rest) =>
    if isRaw name then rawElement name written rest else (.startTag name written closed, rest)

def endTag? (t : Text) : Option (Token × Text) :=
  match skipSpaces (t.dropWhile isTagChar) with
  | '>' :: rest => some (.endTag (t.takeWhile isTagChar), rest)
  | _ => none

def comment? : Text → Option (Text × Text)
  | '-' :: '-' :: r => Text.cut "-->".toList r
  | _ => none

/-- What follows `<!`: a comment if one can be read, else anything up to the next `>`. -/
def declaration? (t : Text) : Option (Token × Text) :=
  match comment? t with
  | some (content, rest) => some (.comment content, rest)
  | none => (Text.cut ['>'] t).map fun (_, rest) => (.doctype, rest)

def tag? : Text → Option (Token × Text)
  | '<' :: '!' :: r => declaration? r
  | '<' :: '/' :: r => endTag? r
  | '<' :: r => startTag? r
  | _ => none

def token? (t : Text) : Option (Token × Text) :=
  if opensTag t then tag? t
  else
    let (content, rest) := splitBefore opensTag t
    some (.text content, rest)

theorem attributes_length (t : Text) : (attributes t).2.length ≤ t.length := by
  fun_induction attributes t with
  | case1 => simp
  | case2 c r _ a rest read more after _ ih =>
      have shorter := attribute?_length read
      have skipped := skipSpaces_length r
      simp_all only [List.length_cons]
      omega
  | case3 => simp
  | case4 => simp

theorem splitBefore_append (stop : Text → Bool) (t : Text) :
    (splitBefore stop t).1 ++ (splitBefore stop t).2 = t := by
  induction t with
  | nil => rfl
  | cons c r ih =>
      rw [splitBefore]
      split
      · rfl
      · simp [ih]

theorem splitBefore_length (stop : Text → Bool) (t : Text) :
    (splitBefore stop t).2.length ≤ t.length := by
  rw [← congrArg List.length (splitBefore_append stop t)]
  simp

theorem splitBefore_length_lt {stop : Text → Bool} {t : Text} (nonempty : t ≠ [])
    (start : stop t = false) : (splitBefore stop t).2.length < t.length := by
  cases t with
  | nil => exact absurd rfl nonempty
  | cons c r =>
      have := splitBefore_length stop r
      simp only [splitBefore, start, Bool.false_eq_true, if_false, List.length_cons]
      omega

theorem tagEnd?_length {t rest : Text} {closed : Bool} (h : tagEnd? t = some (closed, rest)) :
    rest.length < t.length := by
  have skipped := skipSpaces_length t
  unfold tagEnd? at h
  split at h <;> simp_all only [List.length_cons, Option.some.injEq, Prod.mk.injEq, reduceCtorEq]
  all_goals omega

theorem afterRawEnd?_length {t rest : Text} (h : afterRawEnd? t = some rest) :
    rest.length ≤ t.length := by
  unfold afterRawEnd? at h
  split at h
  · rename_i r
    have dropped : (r.dropWhile isTagChar).length ≤ r.length :=
      (List.dropWhile_suffix _).length_le
    have skipped := skipSpaces_length (r.dropWhile isTagChar)
    split at h
    · obtain rfl := Option.some.inj h
      simp_all only [List.length_cons]
      omega
    · exact absurd h (by simp)
  · exact absurd h (by simp)

theorem rawElement_length (name : Text) (written : WrittenAttributes) (t : Text) :
    (rawElement name written t).2.length ≤ t.length := by
  have content := splitBefore_length endsRaw t
  unfold rawElement
  simp only
  split
  · rename_i found
    exact Nat.le_trans (afterRawEnd?_length found) content
  · exact content

theorem startTag?_length {t rest : Text} {token : Token} (h : startTag? t = some (token, rest)) :
    rest.length ≤ t.length := by
  have dropped : (t.dropWhile isTagChar).length ≤ t.length :=
    (List.dropWhile_suffix _).length_le
  have written := attributes_length (t.dropWhile isTagChar)
  obtain ⟨⟨closed, after⟩, found, same⟩ := Option.map_eq_some_iff.mp h
  have ended := tagEnd?_length found
  simp only at same
  split at same
  · have read := rawElement_length (t.takeWhile isTagChar)
      (attributes (t.dropWhile isTagChar)).1 after
    simp only [same] at read
    omega
  · obtain ⟨_, rfl⟩ := Prod.mk.inj same
    omega

theorem endTag?_length {t rest : Text} {token : Token} (h : endTag? t = some (token, rest)) :
    rest.length ≤ t.length := by
  have dropped : (t.dropWhile isTagChar).length ≤ t.length :=
    (List.dropWhile_suffix _).length_le
  have skipped := skipSpaces_length (t.dropWhile isTagChar)
  unfold endTag? at h
  split at h
  · obtain ⟨_, rfl⟩ := Prod.mk.inj (Option.some.inj h)
    simp_all only [List.length_cons]
    omega
  · exact absurd h (by simp)

theorem comment?_length {t content rest : Text} (h : comment? t = some (content, rest)) :
    rest.length ≤ t.length := by
  unfold comment? at h
  split at h
  · have := Text.cut_length h
    simp only [List.length_cons]
    omega
  · exact absurd h (by simp)

theorem declaration?_length {t rest : Text} {token : Token}
    (h : declaration? t = some (token, rest)) : rest.length ≤ t.length := by
  unfold declaration? at h
  split at h
  · rename_i found
    obtain ⟨_, rfl⟩ := Prod.mk.inj (Option.some.inj h)
    exact comment?_length found
  · obtain ⟨⟨skipped, after⟩, found, same⟩ := Option.map_eq_some_iff.mp h
    obtain ⟨_, rfl⟩ := Prod.mk.inj same
    have := Text.cut_length found
    omega

theorem tag?_length {t rest : Text} {token : Token} (h : tag? t = some (token, rest)) :
    rest.length < t.length := by
  unfold tag? at h
  split at h
  · have := declaration?_length h
    simp only [List.length_cons]
    omega
  · have := endTag?_length h
    simp only [List.length_cons]
    omega
  · have := startTag?_length h
    simp only [List.length_cons]
    omega
  · exact absurd h (by simp)

theorem token?_length {t rest : Text} {token : Token} (nonempty : t ≠ [])
    (h : token? t = some (token, rest)) : rest.length < t.length := by
  unfold token? at h
  split at h
  · exact tag?_length h
  · rename_i start
    obtain ⟨_, rfl⟩ := Prod.mk.inj (Option.some.inj h)
    exact splitBefore_length_lt nonempty (by simpa using start)

def tokens? (t : Text) : Option (List Token) :=
  match t with
  | [] => some []
  | c :: r =>
    match _read : token? (c :: r) with
    | some (token, rest) => (tokens? rest).map (token :: ·)
    | none => none
termination_by t.length
decreasing_by exact token?_length (by simp) _read

end LiveTemplate.Markup
