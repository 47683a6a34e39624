import LiveTemplate.Style.Name

namespace LiveTemplate.Style

/-- The rest of a bad address: it runs to a closing parenthesis that has no backslash before it. -/
def badUrlEnd : Text → Text
  | [] => []
  | ')' :: r => r
  | '\\' :: ')' :: r => badUrlEnd r
  | '\\' :: '\\' :: r => badUrlEnd r
  | _ :: r => badUrlEnd r

def urlEnd : Text → Token × Text
  | [] => (.url, [])
  | ')' :: r => (.url, r)
  | c :: r => if isSpace c then urlEnd r else (.badUrl, badUrlEnd r)

def spoilsUrl (c : Char) : Bool :=
  let n := c.toNat
  (0x1 ≤ n && n ≤ 0x8) || n == 0xB || (0xE ≤ n && n ≤ 0x1F) || n == 0x7F || c == '"' || c == '\'' ||
    c == '('

def urlBody (t : Text) : Token × Text :=
  match t with
  | [] => (.url, [])
  | c :: r =>
    if c = ')' then (.url, r)
    else if isSpace c then urlEnd r
    else if spoilsUrl c then (.badUrl, badUrlEnd r)
    else if c = '\\' then
      if startsWith isNewline r then (.badUrl, badUrlEnd r) else urlBody (escape r).2
    else urlBody r
termination_by t.length
decreasing_by
  · have := escape_length r
    simp only [List.length_cons]
    omega
  · simp

/-- What follows `url(`: with a quoted argument it is a function like any other. -/
def url (word t : Text) : Token × Text :=
  match t.dropWhile isSpace with
  | '"' :: _ => (.function word, t)
  | '\'' :: _ => (.function word, t)
  | rest => urlBody rest

theorem badUrlEnd_length (t : Text) : (badUrlEnd t).length ≤ t.length := by
  fun_induction badUrlEnd t <;> simp only [List.length_cons, List.length_nil] <;> omega

theorem urlEnd_length (t : Text) : (urlEnd t).2.length ≤ t.length := by
  fun_induction urlEnd t with
  | case1 => simp
  | case2 => simp
  | case3 c r _ _ ih => simp only [List.length_cons]; omega
  | case4 c r _ _ =>
      have := badUrlEnd_length r
      simp only [List.length_cons]
      omega

theorem urlBody_length (t : Text) : (urlBody t).2.length ≤ t.length := by
  fun_induction urlBody t with
  | case1 => simp
  | case2 => simp
  | case3 c r _ _ =>
      have := urlEnd_length r
      simp only [List.length_cons]
      omega
  | case4 c r _ _ _ =>
      have := badUrlEnd_length r
      simp only [List.length_cons]
      omega
  | case5 r _ _ _ _ =>
      have := badUrlEnd_length r
      simp only [List.length_cons]
      omega
  | case6 r _ _ _ _ ih =>
      have := escape_length r
      simp only [List.length_cons]
      omega
  | case7 c r _ _ _ _ ih =>
      simp only [List.length_cons]
      omega

theorem url_length (word t : Text) : (url word t).2.length ≤ t.length := by
  unfold url
  split
  · exact Nat.le_refl _
  · exact Nat.le_refl _
  · exact Nat.le_trans (urlBody_length _) (dropWhile_length _ _)

end LiveTemplate.Style
