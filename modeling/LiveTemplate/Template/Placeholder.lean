import LiveTemplate.Text.Basic
import LiveTemplate.Text.Letter
import LiveTemplate.Text.Number
import LiveTemplate.Text.Slice

namespace LiveTemplate.Template

inductive Part where
  | literal (content : Text)
  | placeholder (name : Text)
  deriving DecidableEq, Repr

def startsName (c : Char) : Bool :=
  Text.isLetter c || c == '_'

def continuesName (c : Char) : Bool :=
  Text.isLetter c || Text.isNumber c || c == '_'

/-- The name of a placeholder that starts here, and what follows the placeholder. -/
def placeholder? : Text → Option (Text × Text)
  | '{' :: '{' :: c :: r =>
    if startsName c then
      match r.dropWhile continuesName with
      | '}' :: '}' :: rest => some (c :: r.takeWhile continuesName, rest)
      | _ => none
    else none
  | _ => none

def Part.source : Part → Text
  | .literal content => content
  | .placeholder name => '{' :: '{' :: (name ++ ['}', '}'])

def Part.byteLength (s : Part) : Nat :=
  s.source.byteLength

def Part.name? : Part → Option Text
  | .literal _ => none
  | .placeholder name => some name

/-- Where a text that starts with no placeholder has the first one, or where it ends. Pairs of braces
are looked for from byte `start` on, and again one byte further where they open no placeholder. -/
def literalEnd? (t : Text) (start : Nat) : Option Nat :=
  match _ahead : t.fromByte? start with
  | none => none
  | some ahead =>
    match ahead.placeOf? ['{', '{'] with
    | none => some t.byteLength
    | some offset =>
      match t.fromByte? (start + offset) with
      | none => none
      | some braces =>
        if 0 < start + offset && (placeholder? braces).isSome then some (start + offset)
        else literalEnd? t (start + offset + 1)
termination_by t.byteLength + 1 - start
decreasing_by
  have := Text.byteLength_of_fromByte? _ahead
  omega

theorem literalEnd?_pos {t : Text} {start stop : Nat} (nonempty : t ≠ [])
    (found : literalEnd? t start = some stop) : 0 < stop := by
  fun_induction literalEnd? t start with
  | case1 => exact absurd found (by simp)
  | case2 =>
      obtain rfl := Option.some.inj found
      rcases List.exists_cons_of_ne_nil nonempty with ⟨c, r, rfl⟩
      exact Text.byteLength_cons_pos c r
  | case3 => exact absurd found (by simp)
  | case4 start ahead inside offset first braces there opens =>
      obtain rfl := Option.some.inj found
      exact of_decide_eq_true (Bool.and_eq_true_iff.mp opens).1
  | case5 start ahead inside offset first braces there closed ih => exact ih found

/-- The segment that starts at byte `pos` and the byte behind it; none at the end of the text. The
outer option is for a byte inside a character. -/
def segmentAt? (t : Text) (pos : Nat) : Option (Option (Part × Nat)) := do
  let rest ← t.fromByte? pos
  if rest.isEmpty then return none
  match placeholder? rest with
  | some (name, _) => return some (.placeholder name, pos + (name.byteLength + 4))
  | none =>
    let stop ← literalEnd? rest 0
    let content ← rest.toByte? stop
    return some (.literal content, pos + stop)

theorem segmentAt?_lt {t : Text} {pos next : Nat} {segment : Part}
    (found : segmentAt? t pos = some (some (segment, next))) : pos < next ∧ pos ≤ t.byteLength := by
  rcases Option.bind_eq_some_iff.mp found with ⟨rest, inside, found⟩
  have bounded := Text.byteLength_of_fromByte? inside
  refine ⟨?_, by omega⟩
  cases rest with
  | nil => simp at found
  | cons c r =>
      cases opened : placeholder? (c :: r) with
      | some placed =>
          simp only [List.isEmpty_cons, opened] at found
          have next := (Prod.mk.inj (Option.some.inj (Option.some.inj found))).2
          omega
      | none =>
          simp only [List.isEmpty_cons, opened] at found
          rcases Option.bind_eq_some_iff.mp found with ⟨stop, ended, found⟩
          rcases Option.bind_eq_some_iff.mp found with ⟨content, _, found⟩
          have positive := literalEnd?_pos (List.cons_ne_nil c r) ended
          have next := (Prod.mk.inj (Option.some.inj (Option.some.inj found))).2
          omega

def segmentsFrom? (t : Text) (pos : Nat) : Option (List Part) :=
  match _found : segmentAt? t pos with
  | none => none
  | some none => some []
  | some (some (segment, next)) => (segmentsFrom? t next).map (segment :: ·)
termination_by t.byteLength + 1 - pos
decreasing_by
  have := segmentAt?_lt _found
  omega

def segments? (t : Text) : Option (List Part) :=
  segmentsFrom? t 0

/-- The segments of a text, which are never cut inside a character. -/
def segments (t : Text) : List Part :=
  (segments? t).getD []

def placeholderNames (t : Text) : List Text :=
  (segments t).filterMap Part.name?

end LiveTemplate.Template
