import LiveTemplate.Style.ClassNames
import Mathlib.Tactic.Common

namespace LiveTemplate.Style

def Token.pointedName (afterPoint : Bool) : Token → List Text
  | .ident name => if afterPoint then [name] else []
  | _ => []

def pointed (afterPoint : Bool) : List Token → List Text
  | [] => []
  | t :: more => t.pointedName afterPoint ++ pointed (t == .delim '.') more

theorem classesIn_token (afterPoint : Bool) (t : Token) (more : List Item) :
    classesIn afterPoint (.token t :: more) =
      t.pointedName afterPoint ++ classesIn (t == .delim '.') more := by
  rw [classesIn.eq_def]
  cases t <;> rfl

theorem classesIn_block (afterPoint : Bool) (t : Token) (inner more : List Item)
    (closer : Option Token) : classesIn afterPoint (.block t inner closer :: more) =
      classesIn false inner ++ classesIn false more := by
  rw [classesIn.eq_def]
  simp only [Item.classes.eq_def]

theorem pointed_cons_of_bracket {t : Token} (bracket : t.opens?.isSome ∨ t.closes?.isSome)
    (afterPoint : Bool) (more : List Token) :
    pointed afterPoint (t :: more) = pointed false more := by
  cases t <;> simp [Token.opens?, Token.closes?] at bracket <;> rfl

/-- The names after points are those that reading a block finds, and those that follow the block: no
name is right after a point that stands outside of its own block. -/
theorem pointed_eq_classesIn (bracket : Option Bracket) (tokens : List Token) :
    ∀ afterPoint : Bool, pointed afterPoint tokens =
      classesIn afterPoint (readItems bracket tokens).items ++
        pointed false (readItems bracket tokens).rest := by
  induction bracket, tokens using readItems.induct with
  | case1 bracket => intro afterPoint; rw [readItems, classesIn]; rfl
  | case2 bracket t r closes =>
      intro afterPoint
      rw [readItems, if_pos closes, pointed_cons_of_bracket (.inr closes.1), classesIn,
        List.nil_append]
  | case3 bracket t r stays opens inner closer rest inner_le readInner items last after after_le
      readOuter ihInner ihOuter =>
      intro afterPoint
      obtain rfl : (readItems t.opens? r).rest = rest := by rw [readInner]
      rw [readItems, if_neg stays, if_pos opens, pointed_cons_of_bracket (.inl opens), ihInner,
        ihOuter, classesIn_block, List.append_assoc]
  | case4 bracket t r stays plain items last after after_le readOuter ih =>
      intro afterPoint
      simp only [readOuter] at ih
      rw [readItems, if_neg stays, if_neg plain, pointed, ih]
      simp only [readOuter]
      rw [classesIn_token, List.append_assoc]

theorem rest_readItems (tokens : List Token) : (readItems none tokens).rest = [] := by
  suffices ∀ bracket, bracket = none → (readItems bracket tokens).rest = [] from this none rfl
  intro bracket
  induction bracket, tokens using readItems.induct with
  | case1 bracket => intro _; rw [readItems]
  | case2 bracket t r closes =>
      rintro rfl
      exact absurd closes.1 (by rw [closes.2]; exact Bool.false_ne_true)
  | case3 bracket t r stays opens inner closer rest inner_le readInner items last after after_le
      readOuter _ ihOuter =>
      intro outside
      obtain rfl : (readItems t.opens? r).rest = rest := by rw [readInner]
      rw [readItems, if_neg stays, if_pos opens]
      exact ihOuter outside
  | case4 bracket t r stays plain items last after after_le readOuter ih =>
      intro outside
      rw [readItems, if_neg stays, if_neg plain]
      simp only [readOuter] at ih ⊢
      exact ih outside

theorem classesIn_itemsOf (css : Text) :
    classesIn false (itemsOf css) = pointed false (tokens css) := by
  rw [itemsOf, pointed_eq_classesIn none, rest_readItems, pointed, List.append_nil]

theorem ident_of_mem_pointed {name : Text} : ∀ {l : List Token} {afterPoint : Bool},
    name ∈ pointed afterPoint l → .ident name ∈ l
  | t :: more, afterPoint, member => by
      rcases List.mem_append.mp member with here | later
      · cases t <;> simp_all [Token.pointedName]
      · exact List.mem_cons_of_mem t (ident_of_mem_pointed later)

theorem name_ne_nil {c : Char} {r : Text}
    (start : isNameChar c ∨ (c = '\\' ∧ startsWith isNewline r = false)) :
    (name (c :: r)).1 ≠ [] := by
  rw [name]
  split
  · rename_i backslash
    split
    · rcases start with start | start
      · subst backslash
        exact absurd start (by decide)
      · simp_all
    · exact List.cons_ne_nil _ _
  · split
    · exact List.cons_ne_nil _ _
    · simp_all

theorem charOfCode_ne_null (n : Nat) : charOfCode n ≠ '\x00' := by
  unfold charOfCode
  split
  · rename_i code
    intro null
    have value : (Char.ofNat n).toNat = n := by
      rw [Char.ofNat, dif_pos code.2]
      rfl
    exact code.1 (value.symm.trans (congrArg Char.toNat null))
  · decide

theorem escape_ne_null (t : Text) : (escape t).1 ≠ '\x00' := by
  have replacement : '\ufffd' ≠ '\x00' := by decide
  unfold escape
  split
  · exact replacement
  · split
    · exact charOfCode_ne_null _
    · split
      · exact replacement
      · assumption

/-- A null character is read as another one, whether it is escaped or not. -/
theorem null_not_mem_name (t : Text) : '\x00' ∉ (name t).1 := by
  fun_induction name t with
  | case1 => exact List.not_mem_nil
  | case2 => exact List.not_mem_nil
  | case3 r _ more rest same ih =>
      rw [same] at ih
      rw [List.mem_cons, not_or]
      exact ⟨(escape_ne_null r).symm, ih⟩
  | case4 c r _ _ more rest same ih =>
      rw [same] at ih
      rw [List.mem_cons, not_or]
      refine ⟨?_, ih⟩
      split
      · decide
      · exact Ne.symm ‹_›
  | case5 => exact List.not_mem_nil

def Token.Named (t : Token) : Prop :=
  ∀ word, t = .ident word → word ≠ [] ∧ '\x00' ∉ word

theorem named_string (quote : Char) (t : Text) : (string quote t).1.Named := by
  fun_induction string quote t with
  | case1 => simp [Token.Named]
  | case2 => simp [Token.Named]
  | case3 _ _ ih => exact ih
  | case4 => simp [Token.Named]
  | case5 _ _ _ _ _ ih => exact ih

theorem named_numeric (t : Text) : (numeric t).1.Named := by
  unfold numeric
  split
  · exact nofun
  · split <;> exact nofun

theorem named_urlEnd (t : Text) : (urlEnd t).1.Named := by
  fun_induction urlEnd t with
  | case1 => simp [Token.Named]
  | case2 => simp [Token.Named]
  | case3 _ _ _ _ ih => exact ih
  | case4 => simp [Token.Named]

theorem named_urlBody (t : Text) : (urlBody t).1.Named := by
  fun_induction urlBody t with
  | case1 => simp [Token.Named]
  | case2 => simp [Token.Named]
  | case3 c r _ _ => exact named_urlEnd r
  | case4 => simp [Token.Named]
  | case5 => simp [Token.Named]
  | case6 _ _ _ _ _ ih => exact ih
  | case7 _ _ _ _ _ _ ih => exact ih

theorem named_url (word t : Text) : (url word t).1.Named := by
  unfold url
  split
  · exact nofun
  · exact nofun
  · exact named_urlBody _

theorem named_identLike {t : Text} (nonempty : (name t).1 ≠ []) : (identLike t).1.Named := by
  unfold identLike
  split
  · split
    · exact named_url _ _
    · exact nofun
  · rename_i word rest _ same
    have noNull := null_not_mem_name t
    rw [same] at nonempty noNull
    rintro _ ⟨⟩
    exact ⟨nonempty, noNull⟩

theorem named_hyphen (t : Text) : (hyphen t).1.Named := by
  unfold hyphen
  split
  · exact named_numeric t
  · split
    · exact nofun
    · split
      · exact named_identLike (name_ne_nil (.inl (by decide)))
      · exact nofun

theorem named_backslash (r : Text) : (backslash r).1.Named := by
  unfold backslash
  split
  · exact nofun
  · rename_i newline
    exact named_identLike (name_ne_nil (.inr ⟨rfl, by simpa using newline⟩))

theorem named_symbol (c : Char) (r : Text) : (symbol c r).1.Named := by
  unfold symbol
  split
  · exact nofun
  · exact nofun
  · split <;> exact nofun
  · exact nofun

theorem named_hash (t : Text) : (hash t).1.Named := by
  unfold hash
  split <;> exact nofun

theorem named_signed (sign : Char) (t : Text) : (signed sign t).1.Named := by
  unfold signed
  split
  · exact named_numeric t
  · exact nofun

theorem named_atKeyword (t : Text) : (atKeyword t).1.Named := by
  unfold atKeyword
  split <;> exact nofun

theorem named_point (r : Text) : (point r).1.Named := by
  unfold point
  split
  · exact named_numeric _
  · exact nofun

theorem named_marked (c : Char) (r : Text) : (marked c r).1.Named :=
  marked_cases (P := fun read => read.1.Named) (named_hash r) (named_signed '+' r) (named_hyphen r)
    (named_point r) (named_atKeyword r) (named_backslash r) (named_symbol c r)

theorem named_bracket? {c : Char} {token : Token} (found : bracket? c = some token) :
    token.Named := by
  rintro word rfl
  simp [bracket?, ite_eq_iff] at found

theorem named_tokenFrom (c : Char) (r : Text) : (tokenFrom c r).1.Named := by
  apply tokenFrom_cases (P := fun read => read.1.Named)
  · exact nofun
  · exact named_string c r
  · exact fun _ => named_numeric _
  · intro start
    exact named_identLike (name_ne_nil (.inl (by simp [isNameChar, start])))
  · exact fun _ found => named_bracket? found
  · exact named_marked c r

theorem named_of_mem_tokens {t : Text} {token : Token} (member : token ∈ tokens t) :
    token.Named := by
  fun_induction tokens t with
  | case1 => simp at member
  | case2 c r first rest read ih =>
      rcases List.mem_cons.mp member with rfl | later
      · have named := named_tokenFrom c r
        rwa [read] at named
      · exact ih later

theorem named_of_mem_classesOf {css className : Text} (member : className ∈ classesOf css) :
    className ≠ [] ∧ '\x00' ∉ className := by
  rw [classesOf, List.mem_eraseDups, classesIn_itemsOf] at member
  exact named_of_mem_tokens (ident_of_mem_pointed member) className rfl

theorem ne_nil_of_mem_classesOf {css className : Text} (member : className ∈ classesOf css) :
    className ≠ [] :=
  (named_of_mem_classesOf member).1

theorem null_not_mem_of_mem_classesOf {css className : Text} (member : className ∈ classesOf css) :
    '\x00' ∉ className :=
  (named_of_mem_classesOf member).2

end LiveTemplate.Style
