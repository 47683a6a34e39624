import LiveTemplate.Proofs.Style.ClassNames
import LiveTemplate.Proofs.Text.Distinct

/-! Collecting classes block by block, by a reader that goes into a block at its opening bracket,
stops in front of its closing bracket and must have read all of the block before it goes on behind
it. It never fails, and finds what one scan of all tokens finds. -/

namespace LiveTemplate.Style

inductive CollectError where
  | unexpected (token : Token)
  deriving DecidableEq, Repr

/-- What follows the blocks that are open, the innermost first; each ends at its own bracket. -/
def skipBlocks : List Bracket → List Token → List Token
  | [], tokens => tokens
  | _ :: _, [] => []
  | bracket :: outer, t :: r =>
    if t.closes? = some bracket then skipBlocks outer r
    else
      match t.opens? with
      | some inner => skipBlocks (inner :: bracket :: outer) r
      | none => skipBlocks (bracket :: outer) r

def leftover? (bracket : Bracket) (tokens : List Token) : Option Token :=
  (tokens.dropWhile fun t => t = .space ∨ t = .comment).head?.filter (·.closes? ≠ some bracket)

def addClass (found : List Text) (className : Text) : List Text :=
  if found.contains className then found else found ++ [className]

structure Collected (bound : Nat) where
  found : List Text
  rest : List Token
  rest_le : rest.length ≤ bound

theorem skipBlocks_length : ∀ (brackets : List Bracket) (tokens : List Token),
    (skipBlocks brackets tokens).length ≤ tokens.length
  | [], tokens => by simp [skipBlocks]
  | _ :: _, [] => by simp [skipBlocks]
  | bracket :: outer, t :: r => by
      rw [skipBlocks, List.length_cons]
      split
      · exact Nat.le_succ_of_le (skipBlocks_length outer r)
      · split
        · exact Nat.le_succ_of_le (skipBlocks_length _ r)
        · exact Nat.le_succ_of_le (skipBlocks_length _ r)

/-- Collects the classes of a block from where the reader stands up to the end of the block. -/
def collect (bracket : Option Bracket) (afterPoint : Bool) (found : List Text)
    (tokens : List Token) : Except CollectError (Collected tokens.length) :=
  match tokens with
  | [] => .ok ⟨found, [], Nat.le_refl _⟩
  | t :: r =>
    if t.closes?.isSome ∧ t.closes? = bracket then .ok ⟨found, t :: r, Nat.le_refl _⟩
    else
      match t.opens? with
      | some inner =>
        match collect (some inner) false found r with
        | .error cause => .error cause
        | .ok ⟨inside, left, left_le⟩ =>
          match leftover? inner left with
          | some token => .error (.unexpected token)
          | none =>
            have shorter := Nat.le_trans (skipBlocks_length [inner] left) left_le
            match collect bracket false inside (skipBlocks [inner] left) with
            | .error cause => .error cause
            | .ok ⟨all, rest, rest_le⟩ =>
              .ok ⟨all, rest, Nat.le_succ_of_le (Nat.le_trans rest_le shorter)⟩
      | none =>
        let now := (t.pointedName afterPoint).foldl addClass found
        match collect bracket (t == .delim '.') now r with
        | .error cause => .error cause
        | .ok ⟨all, rest, rest_le⟩ => .ok ⟨all, rest, Nat.le_succ_of_le rest_le⟩
termination_by tokens.length
decreasing_by all_goals simp only [List.length_cons]; omega

variable {bracket : Option Bracket} {l : List Token}

def AtEnd (bracket : Option Bracket) (rest : List Token) : Prop :=
  ∀ t ∈ rest.head?, t.closes?.isSome ∧ t.closes? = bracket

theorem leftover?_of_atEnd {bracket : Bracket} (atEnd : AtEnd (some bracket) l) :
    leftover? bracket l = none := by
  cases l with
  | nil => rfl
  | cons t r =>
      have closes := (atEnd t rfl).2
      have kept : ¬ (t = .space ∨ t = .comment) := by
        rintro (rfl | rfl) <;> simp [Token.closes?] at closes
      rw [leftover?, List.dropWhile_cons_of_neg (by simpa using kept), List.head?_cons]
      simp [closes]

theorem pointed_skipBlocks {bracket : Bracket} (atEnd : AtEnd (some bracket) l) :
    pointed false (skipBlocks [bracket] l) = pointed false l := by
  cases l with
  | nil => rfl
  | cons t r =>
      rcases atEnd t rfl with ⟨closer, closes⟩
      rw [skipBlocks, if_pos closes, skipBlocks, pointed_cons_of_bracket (.inr closer)]

/-- What a reader has found at the end of its block, with what a scan finds from there on, is what
it had found before, with what a scan finds from where it stood. -/
theorem exists_collect (bracket : Option Bracket) (afterPoint : Bool) (found : List Text)
    (l : List Token) : ∃ c, collect bracket afterPoint found l = .ok c ∧
      AtEnd bracket c.rest ∧ (pointed false c.rest).foldl addClass c.found =
        (pointed afterPoint l).foldl addClass found := by
  match l with
  | [] =>
      rw [collect]
      exact ⟨_, rfl, nofun, rfl⟩
  | t :: r =>
      rw [collect]
      by_cases closes : t.closes?.isSome ∧ t.closes? = bracket
      · rw [if_pos closes]
        refine ⟨_, rfl, ?_, ?_⟩
        · rintro u ⟨rfl⟩
          exact closes
        · rw [pointed_cons_of_bracket (.inr closes.1), pointed_cons_of_bracket (.inr closes.1)]
      · rw [if_neg closes]
        cases opens : t.opens? with
        | none =>
            rcases exists_collect bracket (t == .delim '.')
              ((t.pointedName afterPoint).foldl addClass found) r with ⟨c, done, atEnd, same⟩
            simp only [done]
            refine ⟨_, rfl, atEnd, ?_⟩
            rw [same, pointed, List.foldl_append]
        | some inner =>
            -- the block to its end, and then what follows behind its bracket
            rcases exists_collect (some inner) false found r with ⟨c, done, atEnd, same⟩
            have shorter := Nat.le_trans (skipBlocks_length [inner] c.rest) c.rest_le
            rcases exists_collect bracket false c.found (skipBlocks [inner] c.rest) with
              ⟨last, through, finished, others⟩
            simp only [done, leftover?_of_atEnd atEnd, through]
            refine ⟨_, rfl, finished, ?_⟩
            rw [others, pointed_skipBlocks atEnd, same,
              pointed_cons_of_bracket (.inl (Option.isSome_of_eq_some opens))]
termination_by l.length
decreasing_by all_goals simp only [List.length_cons]; omega

def namesAfterPoints (l : List Token) : List Text :=
  (l.zip l.tail).filterMap fun
    | (.delim '.', .ident name) => some name
    | _ => none

theorem namesAfterPoints_cons_cons (t u : Token) (more : List Token) :
    namesAfterPoints (t :: u :: more) =
      u.pointedName (t == .delim '.') ++ namesAfterPoints (u :: more) := by
  by_cases point : t = .delim '.'
  · subst point
    cases u <;> simp [namesAfterPoints, Token.pointedName]
  · have other : (t == .delim '.') = false := by simpa using point
    rw [other]
    cases u <;> simp [namesAfterPoints, Token.pointedName, point]

theorem pointed_eq_namesAfterPoints (l : List Token) : pointed false l = namesAfterPoints l := by
  have behind : ∀ (more : List Token) (t : Token),
      namesAfterPoints (t :: more) = pointed (t == .delim '.') more := by
    intro more
    induction more with
    | nil => exact fun t => rfl
    | cons u more ih =>
        intro t
        rw [namesAfterPoints_cons_cons, ih, pointed]
  cases l with
  | nil => rfl
  | cons t more =>
      rw [behind, pointed]
      cases t <;> rfl

theorem mem_namesAfterPoints_iff {name : Text} : ∀ {l : List Token},
    name ∈ namesAfterPoints l ↔ [.delim '.', .ident name] <:+: l
  | [] => by simp [namesAfterPoints]
  | [t] => by simp [namesAfterPoints, List.infix_cons_iff]
  | t :: u :: more => by
      rw [namesAfterPoints_cons_cons, List.mem_append, mem_namesAfterPoints_iff]
      refine Iff.trans (or_congr_left ?_) List.infix_cons_iff.symm
      by_cases point : t = .delim '.'
      · cases u <;> simp [Token.pointedName, point]
      · cases u <;> simp [Token.pointedName, point, Ne.symm point]

theorem collect_eq_namesAfterPoints (l : List Token) : ∃ c, collect none false [] l = .ok c ∧
    c.rest = [] ∧ c.found = (namesAfterPoints l).eraseDups := by
  rcases exists_collect none false [] l with ⟨c, done, atEnd, same⟩
  have nothing : c.rest = [] := by
    cases left : c.rest with
    | nil => rfl
    | cons t r =>
        rcases atEnd t (by rw [left]; rfl) with ⟨closer, closes⟩
        simp [closes] at closer
  refine ⟨c, done, nothing, ?_⟩
  rw [nothing] at same
  rw [← pointed_eq_namesAfterPoints, ← foldl_eq_eraseDups]
  exact same

theorem classesOf_eq_namesAfterPoints (css : Text) :
    classesOf css = (namesAfterPoints (tokens css)).eraseDups := by
  rw [classesOf, classesIn_itemsOf, pointed_eq_namesAfterPoints]

/-- Collecting classes block by block comes to the end of any list of tokens, whatever the brackets in
it are, and has then found the identifiers that come directly after a point, each once, in the order
in which they first come. Among the tokens of a stylesheet these are its classes. -/
theorem collect_eq_classesOf :
    (∀ l : List Token, ∃ c, collect none false [] l = .ok c ∧ c.rest = [] ∧
      c.found = (namesAfterPoints l).eraseDups ∧ c.found.Nodup ∧
      ∀ className, className ∈ c.found ↔ [.delim '.', .ident className] <:+: l) ∧
    ∀ css : Text, ∃ c, collect none false [] (tokens css) = .ok c ∧ c.rest = [] ∧
      c.found = classesOf css ∧ classesOf css = (namesAfterPoints (tokens css)).eraseDups := by
  refine ⟨fun l => ?_, fun css => ?_⟩
  · rcases collect_eq_namesAfterPoints l with ⟨c, done, ended, found⟩
    refine ⟨c, done, ended, found, found ▸ nodup_eraseDups _, fun className => ?_⟩
    rw [found, List.mem_eraseDups, mem_namesAfterPoints_iff]
  · have flat := classesOf_eq_namesAfterPoints css
    rcases collect_eq_namesAfterPoints (tokens css) with ⟨c, done, ended, found⟩
    exact ⟨c, done, ended, found.trans flat.symm, flat⟩

/-- Brackets that close none of the open blocks, and a block that does not end. -/
example : classesOf ".a{(.b].c}.d".toList = ["a", "b", "c", "d"].map String.toList := by
  decide +kernel

end LiveTemplate.Style
