namespace LiveTemplate

abbrev Text := List Char

namespace Text

def byteLength (t : Text) : Nat :=
  t.foldr (fun c n => c.utf8Size + n) 0

def lowerAscii (t : Text) : Text :=
  t.map Char.toLower

/-- The parts before and after the first occurrence of `mark`. -/
def cut (mark : Text) : Text → Option (Text × Text)
  | [] => if mark.isEmpty then some ([], []) else none
  | c :: r =>
    if mark.isPrefixOf (c :: r) then some ([], (c :: r).drop mark.length)
    else (cut mark r).map fun (before, after) => (c :: before, after)

def occurs (part t : Text) : Bool :=
  (cut part t).isSome

/-- Replaces the occurrences of a non-empty `old` that a left-to-right reading meets, each reading
resuming after the replaced characters. -/
def replace (old new : Text) : Text → Text
  | [] => []
  | c :: r =>
    if old.isPrefixOf (c :: r) then new ++ replace old new (r.drop (old.length - 1))
    else c :: replace old new r
termination_by t => t.length
decreasing_by all_goals simp only [List.length_cons, List.length_drop]; omega

/-- Order by code points, which is also the order of the UTF-8 bytes. -/
def atMost : Text → Text → Bool
  | [], _ => true
  | _ :: _, [] => false
  | a :: s, b :: t => a.toNat < b.toNat || (a == b && atMost s t)

@[simp] theorem byteLength_nil : byteLength [] = 0 := rfl

@[simp] theorem byteLength_cons (c : Char) (t : Text) :
    byteLength (c :: t) = c.utf8Size + byteLength t := rfl

theorem byteLength_append (s t : Text) : byteLength (s ++ t) = byteLength s + byteLength t := by
  induction s with
  | nil => simp
  | cons c s ih => simp [ih, Nat.add_assoc]

theorem eq_of_cut {mark t before after : Text} (h : cut mark t = some (before, after)) :
    t = before ++ mark ++ after := by
  induction t generalizing before with
  | nil =>
      simp only [cut, Option.ite_none_right_eq_some, List.isEmpty_iff, Option.some.injEq,
        Prod.mk.injEq] at h
      obtain ⟨rfl, rfl, rfl⟩ := h
      rfl
  | cons c r ih =>
      rw [cut] at h
      split at h
      · rename_i present
        obtain ⟨rfl, rfl⟩ := Prod.mk.inj (Option.some.inj h)
        simpa using (List.prefix_iff_eq_append.mp (List.isPrefixOf_iff_prefix.mp present)).symm
      · obtain ⟨⟨b, a⟩, found, same⟩ := Option.map_eq_some_iff.mp h
        obtain ⟨rfl, rfl⟩ := Prod.mk.inj same
        simp [ih found]

theorem cut_length {mark t before after : Text} (h : cut mark t = some (before, after)) :
    before.length + mark.length + after.length = t.length := by
  rw [eq_of_cut h]
  simp [Nat.add_assoc]

end Text

end LiveTemplate
