import LiveTemplate.Template.Placeholder
import Mathlib.Algebra.GroupWithZero.Nat
import Mathlib.Data.List.Chain
import Mathlib.Data.List.TakeWhile
import Mathlib.Tactic.Common

/-! Where a text has placeholders. Two of them never overlap, so reading from the left finds all of
them, whatever braces stand before them. -/

namespace LiveTemplate.Template

def IsVariableName (name : Text) : Prop :=
  ∃ c r, name = c :: r ∧ (Text.isLetter c ∨ c = '_') ∧
    ∀ x ∈ r, Text.isLetter x ∨ Text.isNumber x ∨ x = '_'

/-- A placeholder of this name stands in the text, `place` bytes after its start. -/
def OccursAt (t : Text) (place : Nat) (name : Text) : Prop :=
  IsVariableName name ∧ ∃ before after,
    t = before ++ (Part.placeholder name).source ++ after ∧ before.byteLength = place

/-- The bytes at which the placeholders among some parts start, with the names of these, where the
first part starts at `next`. -/
def placesFrom (next : Nat) : List Part → List (Nat × Text)
  | [] => []
  | part :: more =>
    (part.name?.map fun name => (next, name)).toList ++ placesFrom (next + part.byteLength) more

def LiteralsApart (l : List Part) : Prop :=
  l.IsChain fun first second => first.name?.isSome ∨ second.name?.isSome

def consLiteral (c : Char) : List Part → List Part
  | .literal content :: more => .literal (c :: content) :: more
  | more => .literal [c] :: more

theorem placeholder?_length {t name rest : Text} (h : placeholder? t = some (name, rest)) :
    rest.length < t.length := by
  unfold placeholder? at h
  split at h
  · rename_i c r
    have dropped : (r.dropWhile continuesName).length ≤ r.length :=
      (List.dropWhile_suffix _).length_le
    split at h
    · split at h
      · simp_all only [List.length_cons, Option.some.injEq, Prod.mk.injEq]
        omega
      · exact absurd h (by simp)
    · exact absurd h (by simp)
  · exact absurd h (by simp)

/-- The placeholders of a text and the longest literals between them. -/
def parts (t : Text) : List Part :=
  match _found : placeholder? t with
  | some (name, rest) => .placeholder name :: parts rest
  | none =>
    match t with
    | [] => []
    | c :: r => consLiteral c (parts r)
termination_by t.length
decreasing_by
  · exact placeholder?_length _found
  · simp

variable {t r rest before after name other : Text} {c : Char} {place next : Nat} {l : List Part}

theorem startsName_iff : startsName c ↔ Text.isLetter c ∨ c = '_' := by
  simp [startsName]

theorem continuesName_iff : continuesName c ↔ Text.isLetter c ∨ Text.isNumber c ∨ c = '_' := by
  simp [continuesName, or_assoc]

theorem brace_not_mem (named : IsVariableName name) : '{' ∉ name := by
  rcases named with ⟨c, r, rfl, first, others⟩
  have letter : Text.isLetter '{' = false := by decide
  have number : Text.isNumber '{' = false := by decide
  intro member
  rcases List.mem_cons.mp member with rfl | later
  · simp [letter] at first
  · simpa [letter, number] using others _ later

theorem source_placeholder_append (name rest : Text) :
    (Part.placeholder name).source ++ rest = '{' :: '{' :: (name ++ '}' :: '}' :: rest) := by
  simp [Part.source]

theorem byteLength_placeholder (name : Text) :
    (Part.placeholder name).byteLength = name.byteLength + 4 := by
  have brace : '{'.utf8Size = 1 ∧ '}'.utf8Size = 1 := by decide
  simp only [Part.byteLength, Part.source, Text.byteLength_cons, Text.byteLength_append, brace,
    Text.byteLength_nil]
  omega

/-- Reading finds the placeholder with which a text starts, and no other. -/
theorem placeholder?_eq_some_iff : placeholder? t = some (name, rest) ↔
    IsVariableName name ∧ t = (Part.placeholder name).source ++ rest := by
  constructor
  · intro found
    unfold placeholder? at found
    split at found
    · rename_i c r
      split at found
      · rename_i starts
        split at found
        · rename_i dropped
          obtain ⟨rfl, rfl⟩ := Prod.mk.inj (Option.some.inj found)
          refine ⟨⟨c, _, rfl, startsName_iff.mp starts, fun x member => ?_⟩, ?_⟩
          · exact continuesName_iff.mp (List.mem_takeWhile_imp member)
          · rw [source_placeholder_append, List.cons_append, ← dropped,
              List.takeWhile_append_dropWhile]
        · exact absurd found (by simp)
      · exact absurd found (by simp)
    · exact absurd found (by simp)
  · rintro ⟨⟨c, r, rfl, first, others⟩, rfl⟩
    have starts : startsName c := startsName_iff.mpr first
    have continues : ∀ x ∈ r, continuesName x := fun x member => continuesName_iff.mpr (others x member)
    have stops : continuesName '}' = false := by decide
    rw [source_placeholder_append, List.cons_append, placeholder?, if_pos starts,
      List.dropWhile_append_of_pos continues, List.takeWhile_append_of_pos continues]
    simp [stops]

theorem eq_of_source_placeholder (named : IsVariableName name)
    (inside : (Part.placeholder name).source = before ++ '{' :: after) (later : before ≠ []) :
    after = name ++ ['}', '}'] := by
  rcases List.exists_cons_of_ne_nil later with ⟨b, tail, rfl⟩
  rw [Part.source, List.cons_append, List.cons.injEq] at inside
  cases tail with
  | nil => exact ((List.cons.inj inside.2).2).symm
  | cons x middle =>
      have closed : '{' ∈ name ++ ['}', '}'] := by
        rw [(List.cons.inj inside.2).2]
        simp
      simp [brace_not_mem named] at closed

/-- A placeholder that starts after the start of another one starts after its end. -/
theorem exists_between (named : IsVariableName name) (later : before ≠ [])
    (same : (Part.placeholder name).source ++ rest =
      before ++ (Part.placeholder other).source ++ after) :
    ∃ between, before = (Part.placeholder name).source ++ between ∧
      rest = between ++ (Part.placeholder other).source ++ after := by
  rw [List.append_assoc] at same
  rcases List.append_eq_append_iff.mp same with ⟨between, start, others⟩ | ⟨tail, inside, overlap⟩
  · exact ⟨between, start, by rw [others, List.append_assoc]⟩
  · rw [source_placeholder_append] at overlap
    cases tail with
    | nil =>
        refine ⟨[], by simp [inside], ?_⟩
        rw [List.nil_append, source_placeholder_append]
        exact overlap.symm
    | cons d tail =>
        -- the second brace of the later placeholder would be the first character of the name
        rw [List.cons_append, List.cons.injEq] at overlap
        obtain ⟨rfl, second⟩ := overlap
        rw [eq_of_source_placeholder named inside later, List.append_assoc] at second
        have opens : '{' ∈ name := by
          rcases named with ⟨c, r, rfl, _⟩
          exact List.mem_cons.mpr (.inl (List.cons.inj second).1)
        exact absurd opens (brace_not_mem named)

theorem parts_of_placeholder? (found : placeholder? t = some (name, rest)) :
    parts t = .placeholder name :: parts rest := by
  rw [parts]
  split
  · rename_i again
    obtain ⟨rfl, rfl⟩ := Prod.mk.inj (Option.some.inj (found.symm.trans again))
    rfl
  · rename_i closed
    simp [found] at closed

theorem parts_cons (closed : placeholder? (c :: r) = none) :
    parts (c :: r) = consLiteral c (parts r) := by
  rw [parts]
  split
  · rename_i found
    simp [closed] at found
  · rfl

theorem parts_nil : parts [] = [] := by
  rw [parts]
  rfl

theorem not_occursAt_nil : ¬ OccursAt [] place name := by
  rintro ⟨_, before, after, same, _⟩
  simp [Part.source] at same

theorem occursAt_of_placeholder? (found : placeholder? t = some (other, rest)) :
    OccursAt t place name ↔ (place = 0 ∧ name = other) ∨
      ∃ further, OccursAt rest further name ∧ place = (Part.placeholder other).byteLength + further := by
  rcases placeholder?_eq_some_iff.mp found with ⟨named, rfl⟩
  constructor
  · rintro ⟨valid, before, after, same, rfl⟩
    cases before with
    | nil =>
        have again := placeholder?_eq_some_iff.mpr ⟨valid, same⟩
        exact .inl ⟨rfl, (Prod.mk.inj (Option.some.inj (again.symm.trans found))).1⟩
    | cons b tail =>
        rcases exists_between named (List.cons_ne_nil b tail) same with ⟨between, start, rfl⟩
        refine .inr ⟨between.byteLength, ⟨valid, between, after, rfl, rfl⟩, ?_⟩
        rw [start, Text.byteLength_append, Part.byteLength]
  · rintro (⟨rfl, rfl⟩ | ⟨_, ⟨valid, before, after, rfl, rfl⟩, rfl⟩)
    · exact ⟨named, [], rest, by simp, rfl⟩
    · refine ⟨valid, (Part.placeholder other).source ++ before, after, by simp, ?_⟩
      rw [Text.byteLength_append, Part.byteLength]

theorem occursAt_cons (closed : placeholder? (c :: r) = none) : OccursAt (c :: r) place name ↔
    ∃ further, OccursAt r further name ∧ place = c.utf8Size + further := by
  constructor
  · rintro ⟨valid, before, after, same, rfl⟩
    cases before with
    | nil =>
        have found := placeholder?_eq_some_iff.mpr ⟨valid, same⟩
        simp [closed] at found
    | cons b tail =>
        rw [List.cons_append, List.cons_append, List.cons.injEq] at same
        obtain ⟨rfl, same⟩ := same
        exact ⟨Text.byteLength tail, ⟨valid, tail, after, same, rfl⟩, Text.byteLength_cons c tail⟩
  · rintro ⟨_, ⟨valid, before, after, rfl, rfl⟩, rfl⟩
    exact ⟨valid, c :: before, after, rfl, Text.byteLength_cons c before⟩

theorem source_consLiteral (c : Char) (l : List Part) :
    (consLiteral c l).flatMap Part.source = c :: l.flatMap Part.source := by
  cases l with
  | nil => rfl
  | cons part more => cases part <;> rfl

theorem sum_byteLength (l : List Part) :
    (l.map Part.byteLength).sum = Text.byteLength (l.flatMap Part.source) := by
  induction l with
  | nil => rfl
  | cons part more ih =>
      rw [List.map_cons, List.sum_cons, ih, List.flatMap_cons, Text.byteLength_append, Part.byteLength]

theorem literal_nil_not_mem_consLiteral (full : .literal [] ∉ l) : .literal [] ∉ consLiteral c l := by
  cases l with
  | nil => simp [consLiteral]
  | cons part more => cases part <;> simp_all [consLiteral]

theorem literalsApart_consLiteral (apart : LiteralsApart l) : LiteralsApart (consLiteral c l) := by
  cases l with
  | nil => exact .singleton _
  | cons part more =>
      cases part with
      | literal content => simpa [LiteralsApart, consLiteral, List.isChain_cons, Part.name?] using apart
      | placeholder name => exact .cons_cons (.inr rfl) apart

theorem mem_consLiteral (member : .placeholder name ∈ consLiteral c l) : .placeholder name ∈ l := by
  cases l with
  | nil => simp [consLiteral] at member
  | cons part more => cases part <;> simpa [consLiteral] using member

theorem placesFrom_consLiteral (next : Nat) (c : Char) (l : List Part) :
    placesFrom next (consLiteral c l) = placesFrom (next + c.utf8Size) l := by
  cases l with
  | nil => rfl
  | cons part more =>
      cases part with
      | literal content =>
          simp [consLiteral, placesFrom, Part.name?, Part.byteLength, Part.source, Nat.add_assoc]
      | placeholder name =>
          simp [consLiteral, placesFrom, Part.name?, Part.byteLength, Part.source]

theorem flatMap_source_parts (t : Text) : (parts t).flatMap Part.source = t := by
  induction t using parts.induct with
  | case1 t name rest found ih =>
      rw [parts_of_placeholder? found, List.flatMap_cons, ih]
      exact (placeholder?_eq_some_iff.mp found).2.symm
  | case2 closed => rw [parts_nil, List.flatMap_nil]
  | case3 c r closed ih => rw [parts_cons closed, source_consLiteral, ih]

theorem literal_nil_not_mem_parts (t : Text) : .literal [] ∉ parts t := by
  induction t using parts.induct with
  | case1 t name rest found ih => simpa [parts_of_placeholder? found] using ih
  | case2 closed => simp [parts_nil]
  | case3 c r closed ih =>
      rw [parts_cons closed]
      exact literal_nil_not_mem_consLiteral ih

theorem literalsApart_parts (t : Text) : LiteralsApart (parts t) := by
  induction t using parts.induct with
  | case1 t name rest found ih =>
      rw [parts_of_placeholder? found]
      exact List.isChain_cons.mpr ⟨fun part _ => .inl rfl, ih⟩
  | case2 closed =>
      rw [parts_nil]
      exact .nil
  | case3 c r closed ih =>
      rw [parts_cons closed]
      exact literalsApart_consLiteral ih

theorem isVariableName_of_mem_parts (member : .placeholder name ∈ parts t) : IsVariableName name := by
  induction t using parts.induct with
  | case1 t first rest found ih =>
      rw [parts_of_placeholder? found] at member
      rcases List.mem_cons.mp member with same | later
      · cases same
        exact (placeholder?_eq_some_iff.mp found).1
      · exact ih later
  | case2 closed => simp [parts_nil] at member
  | case3 c r closed ih =>
      rw [parts_cons closed] at member
      exact ih (mem_consLiteral member)

/-- The places of the placeholders among the parts are all places at which one stands. -/
theorem mem_placesFrom_iff : (place, name) ∈ placesFrom next (parts t) ↔
    ∃ further, OccursAt t further name ∧ place = next + further := by
  induction t using parts.induct generalizing next with
  | case1 t first rest found ih =>
      rw [parts_of_placeholder? found, placesFrom]
      simp only [Part.name?, Option.map_some, Option.toList_some, List.singleton_append,
        List.mem_cons, Prod.mk.injEq, ih, occursAt_of_placeholder? found]
      constructor
      · rintro (⟨rfl, rfl⟩ | ⟨further, occurs, rfl⟩)
        · exact ⟨0, .inl ⟨rfl, rfl⟩, rfl⟩
        · exact ⟨_, .inr ⟨further, occurs, rfl⟩, Nat.add_assoc _ _ _⟩
      · rintro ⟨_, ⟨rfl, rfl⟩ | ⟨further, occurs, rfl⟩, rfl⟩
        · exact .inl ⟨rfl, rfl⟩
        · exact .inr ⟨further, occurs, (Nat.add_assoc _ _ _).symm⟩
  | case2 closed => simp [parts_nil, placesFrom, not_occursAt_nil]
  | case3 c r closed ih =>
      rw [parts_cons closed, placesFrom_consLiteral, ih]
      simp only [occursAt_cons closed]
      constructor
      · rintro ⟨further, occurs, rfl⟩
        exact ⟨_, ⟨further, occurs, rfl⟩, Nat.add_assoc _ _ _⟩
      · rintro ⟨_, ⟨further, occurs, rfl⟩, rfl⟩
        exact ⟨further, occurs, (Nat.add_assoc _ _ _).symm⟩

/-- Placeholders in a text do not overlap. -/
theorem OccursAt.disjoint {second : Nat} (first : OccursAt t place name)
    (after : OccursAt t second other) (later : place < second) :
    place + (Part.placeholder name).byteLength ≤ second := by
  rcases first with ⟨named, before, tail, rfl, rfl⟩
  rcases after with ⟨valid, start, rest, same, rfl⟩
  simp only [List.append_assoc] at same
  rcases List.append_eq_append_iff.mp same with ⟨between, rfl, there⟩ | ⟨between, rfl, _⟩
  · rw [Text.byteLength_append] at later ⊢
    have nonempty : between ≠ [] := by
      rintro rfl
      simp at later
    rw [← List.append_assoc] at there
    rcases exists_between named nonempty there with ⟨gap, rfl, _⟩
    rw [Text.byteLength_append, Part.byteLength]
    omega
  · rw [Text.byteLength_append] at later
    omega

end LiveTemplate.Template
