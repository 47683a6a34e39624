import LiveTemplate.Text.Basic

/-! Texts addressed by bytes of their UTF-8 form. A byte inside a character is no place to cut. -/

namespace LiveTemplate.Text

/-- The characters before and after the first `n` bytes, if a character ends there. -/
def splitAtByte? : Text → Nat → Option (Text × Text)
  | t, 0 => some ([], t)
  | [], _ + 1 => none
  | c :: r, n + 1 =>
    if n + 1 < c.utf8Size then none
    else (splitAtByte? r (n + 1 - c.utf8Size)).map fun (before, after) => (c :: before, after)

def fromByte? (t : Text) (n : Nat) : Option Text :=
  (t.splitAtByte? n).map (·.2)

def toByte? (t : Text) (n : Nat) : Option Text :=
  (t.splitAtByte? n).map (·.1)

def slice? (t : Text) (start stop : Nat) : Option Text := do
  (← t.toByte? stop).fromByte? start

def placeOf? (t mark : Text) : Option Nat :=
  (cut mark t).map (·.1.byteLength)

theorem byteLength_cons_pos (c : Char) (t : Text) : 0 < byteLength (c :: t) := by
  rw [byteLength_cons]
  exact Nat.add_pos_left c.utf8Size_pos _

theorem byteLength_eq_zero_iff {t : Text} : t.byteLength = 0 ↔ t = [] := by
  cases t with
  | nil => simp
  | cons c r => simp [Nat.ne_of_gt (byteLength_cons_pos c r), -byteLength_cons]

theorem splitAtByte?_eq_some_iff {t before after : Text} {n : Nat} :
    t.splitAtByte? n = some (before, after) ↔ t = before ++ after ∧ before.byteLength = n := by
  induction t, n using splitAtByte?.induct generalizing before with
  | case1 t =>
      cases before with
      | nil => simp [splitAtByte?, eq_comm]
      | cons c r => simp [splitAtByte?, Nat.ne_of_gt (byteLength_cons_pos c r), -byteLength_cons]
  | case2 n =>
      simp only [splitAtByte?, reduceCtorEq, List.nil_eq, List.append_eq_nil_iff, false_iff, not_and]
      rintro ⟨rfl, -⟩
      simp
  | case3 c r n short =>
      simp only [splitAtByte?, if_pos short, reduceCtorEq, false_iff, not_and]
      intro same
      cases before with
      | nil => simp
      | cons d more =>
          rw [List.cons_append, List.cons.injEq] at same
          rw [byteLength_cons, ← same.1]
          omega
  | case4 c r n long ih =>
      rw [splitAtByte?, if_neg long, Option.map_eq_some_iff]
      constructor
      · rintro ⟨⟨more, rest⟩, found, same⟩
        obtain ⟨rfl, rfl⟩ := Prod.mk.inj same
        rcases ih.mp found with ⟨rfl, length⟩
        refine ⟨rfl, ?_⟩
        rw [byteLength_cons, length]
        omega
      · rintro ⟨same, length⟩
        cases before with
        | nil => simp at length
        | cons d more =>
            rw [List.cons_append, List.cons.injEq] at same
            obtain ⟨rfl, rfl⟩ := same
            rw [byteLength_cons] at length
            exact ⟨(more, after), ih.mpr ⟨rfl, by omega⟩, rfl⟩

theorem fromByte?_eq_some_iff {t after : Text} {n : Nat} :
    t.fromByte? n = some after ↔ ∃ before, t = before ++ after ∧ byteLength before = n := by
  simp [fromByte?, splitAtByte?_eq_some_iff]

theorem fromByte?_append (before after : Text) :
    fromByte? (before ++ after) before.byteLength = some after :=
  fromByte?_eq_some_iff.mpr ⟨before, rfl, rfl⟩

theorem toByte?_eq_some_iff {t before : Text} {n : Nat} :
    t.toByte? n = some before ↔ ∃ after, t = before ++ after ∧ byteLength before = n := by
  simp [toByte?, splitAtByte?_eq_some_iff]

theorem slice?_append (before inside after : Text) :
    slice? (before ++ inside ++ after) before.byteLength (byteLength (before ++ inside)) =
      some inside := by
  rw [slice?, toByte?_eq_some_iff.mpr ⟨after, rfl, rfl⟩]
  exact fromByte?_append before inside

theorem byteLength_of_fromByte? {t after : Text} {n : Nat} (found : t.fromByte? n = some after) :
    n + after.byteLength = t.byteLength := by
  rcases fromByte?_eq_some_iff.mp found with ⟨before, rfl, rfl⟩
  rw [byteLength_append]

end LiveTemplate.Text
