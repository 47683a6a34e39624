import LiveTemplate.Proofs.Template.Placeholders
import LiveTemplate.Proofs.Text.Cutting

/-! The scanner goes from byte to byte. It never cuts a text inside a character, and what it finds are
the parts of the text. -/

namespace LiveTemplate.Template

def untilPlaceholder : Text → Text × Text
  | [] => ([], [])
  | c :: r =>
    if (placeholder? (c :: r)).isSome then ([], c :: r)
    else (c :: (untilPlaceholder r).1, (untilPlaceholder r).2)

variable {t r rest before ahead after name : Text} {c : Char} {start : Nat}

theorem untilPlaceholder_of_isSome (opened : (placeholder? t).isSome) :
    untilPlaceholder t = ([], t) := by
  cases t with
  | nil => rfl
  | cons c r => rw [untilPlaceholder, if_pos opened]

theorem untilPlaceholder_cons (closed : placeholder? (c :: r) = none) :
    untilPlaceholder (c :: r) = (c :: (untilPlaceholder r).1, (untilPlaceholder r).2) := by
  rw [untilPlaceholder, closed]
  rfl

theorem untilPlaceholder_append (t : Text) :
    (untilPlaceholder t).1 ++ (untilPlaceholder t).2 = t := by
  induction t with
  | nil => rfl
  | cons c r ih =>
      rw [untilPlaceholder]
      split
      · rfl
      · rw [List.cons_append, ih]

theorem parts_of_closed (closed : placeholder? (c :: r) = none) :
    parts (c :: r) =
      .literal (untilPlaceholder (c :: r)).1 :: parts (untilPlaceholder (c :: r)).2 := by
  rw [parts_cons closed, untilPlaceholder_cons closed]
  induction r generalizing c with
  | nil => simp [parts_nil, consLiteral, untilPlaceholder]
  | cons d r ih =>
      cases opened : placeholder? (d :: r) with
      | some placed =>
          rw [untilPlaceholder_of_isSome (by rw [opened]; rfl), parts_of_placeholder? opened]
          rfl
      | none =>
          rw [parts_cons opened, untilPlaceholder_cons opened, ih opened]
          rfl

theorem placeholder?_eq_none (apart : ¬ ['{', '{'] <+: t) : placeholder? t = none := by
  cases found : placeholder? t with
  | none => rfl
  | some placed =>
      rw [(placeholder?_eq_some_iff.mp found).2, source_placeholder_append] at apart
      exact absurd (List.prefix_append ['{', '{'] _) apart

/-- No placeholder starts before the first two braces. -/
theorem untilPlaceholder_of_cut (found : Text.cut ['{', '{'] t = some (before, after)) :
    (untilPlaceholder t).1 = before ++ (untilPlaceholder ('{' :: '{' :: after)).1 := by
  induction t generalizing before with
  | nil => simp [Text.cut] at found
  | cons c r ih =>
      simp only [Text.cut, List.isPrefixOf_iff_prefix] at found
      split at found
      · rename_i braces
        obtain ⟨rfl, rfl⟩ := Prod.mk.inj (Option.some.inj found)
        have whole : '{' :: '{' :: (c :: r).drop 2 = c :: r := List.prefix_iff_eq_append.mp braces
        rw [List.nil_append, List.length_cons, List.length_singleton, whole]
      · rename_i apart
        obtain ⟨⟨passed, rest⟩, later, same⟩ := Option.map_eq_some_iff.mp found
        obtain ⟨rfl, rfl⟩ := Prod.mk.inj same
        rw [untilPlaceholder_cons (placeholder?_eq_none apart), ih later, List.cons_append]

theorem untilPlaceholder_of_cut_eq_none (apart : Text.cut ['{', '{'] t = none) :
    (untilPlaceholder t).1 = t := by
  induction t with
  | nil => rfl
  | cons c r ih =>
      rw [Text.cut_eq_none_iff, List.infix_cons_iff, not_or, ← Text.cut_eq_none_iff] at apart
      rw [untilPlaceholder_cons (placeholder?_eq_none apart.1), ih apart.2]

theorem braces_of_placeOf? {offset : Nat} (found : ahead.placeOf? ['{', '{'] = some offset)
    (before : Text) : ∃ gap after, ahead = gap ++ '{' :: '{' :: after ∧ gap.byteLength = offset ∧
      Text.fromByte? (before ++ ahead) (before.byteLength + offset) = some ('{' :: '{' :: after) ∧
      (untilPlaceholder ahead).1 = gap ++ (untilPlaceholder ('{' :: '{' :: after)).1 := by
  obtain ⟨⟨gap, after⟩, first, rfl⟩ := Option.map_eq_some_iff.mp found
  have whole : ahead = gap ++ '{' :: '{' :: after := by simpa using Text.eq_of_cut first
  refine ⟨gap, after, whole, rfl, ?_, untilPlaceholder_of_cut first⟩
  rw [whole, ← List.append_assoc, ← Text.byteLength_append, Text.fromByte?_append]

/-- Pairs of braces that are passed over open no placeholder: at byte zero they start the whole text. -/
theorem placeholder?_eq_none_of_passed (closed : placeholder? (before ++ ahead) = none)
    (passed : ¬ (0 < before.byteLength && (placeholder? ahead).isSome)) :
    placeholder? ahead = none := by
  by_contra opens
  have start : before.byteLength = 0 := by
    by_contra later
    exact passed (by simp [Nat.pos_of_ne_zero later, Option.isSome_iff_ne_none.mpr opens])
  obtain rfl := Text.byteLength_eq_zero_iff.mp start
  exact opens closed

/-- As long as no placeholder starts in what has been passed, the search ends at the first one. -/
theorem literalEnd?_eq (closed : placeholder? t = none) (same : before ++ ahead = t)
    (passed : (untilPlaceholder t).1 = before ++ (untilPlaceholder ahead).1) :
    literalEnd? t before.byteLength = some (Text.byteLength (untilPlaceholder t).1) := by
  generalize reached : before.byteLength = start
  have here : t.fromByte? start = some ahead := by
    rw [← same, ← reached, Text.fromByte?_append]
  fun_induction literalEnd? t start generalizing before ahead with
  | case1 start outside => simp [outside] at here
  | case2 start next inside apart =>
      obtain rfl : next = ahead := Option.some.inj (inside.symm.trans here)
      rw [passed, untilPlaceholder_of_cut_eq_none (Option.map_eq_none_iff.mp apart), same]
  | case3 start next inside offset first outside =>
      obtain rfl : next = ahead := Option.some.inj (inside.symm.trans here)
      rcases braces_of_placeOf? first before with ⟨_, _, _, _, found, _⟩
      rw [same, reached, outside] at found
      exact absurd found (by simp)
  | case4 start next inside offset first braces there opens =>
      obtain rfl : next = ahead := Option.some.inj (inside.symm.trans here)
      rcases braces_of_placeOf? first before with ⟨gap, after, _, length, found, beyond⟩
      rw [same, reached, there] at found
      obtain rfl := Option.some.inj found
      rw [passed, beyond, untilPlaceholder_of_isSome (Bool.and_eq_true_iff.mp opens).2,
        List.append_nil, Text.byteLength_append, reached, length]
  | case5 start next inside offset first braces there shut ih =>
      obtain rfl : next = ahead := Option.some.inj (inside.symm.trans here)
      rcases braces_of_placeOf? first before with ⟨gap, after, rfl, length, found, beyond⟩
      rw [same, reached, there] at found
      obtain rfl := Option.some.inj found
      have behind : before ++ gap ++ '{' :: '{' :: after = t := by rw [List.append_assoc, same]
      have literal : placeholder? ('{' :: '{' :: after) = none := by
        rw [← behind] at closed
        refine placeholder?_eq_none_of_passed closed ?_
        rwa [Text.byteLength_append, reached, length]
      have further : before ++ gap ++ ['{'] ++ '{' :: after = t := by simpa using behind
      have place : Text.byteLength (before ++ gap ++ ['{']) = start + offset + 1 := by
        rw [Text.byteLength_append, Text.byteLength_append, reached, length]
        rfl
      refine ih further ?_ place ?_
      · rw [passed, beyond, untilPlaceholder_cons literal]
        simp
      · rw [← further, ← place, Text.fromByte?_append]

theorem segmentAt?_end (t : Text) : segmentAt? t t.byteLength = some none := by
  have here : t.fromByte? t.byteLength = some [] :=
    Text.fromByte?_eq_some_iff.mpr ⟨t, (List.append_nil t).symm, rfl⟩
  rw [segmentAt?, here]
  rfl

theorem segmentAt?_placeholder (opened : placeholder? rest = some (name, after)) (before : Text) :
    segmentAt? (before ++ rest) before.byteLength = some (some (.placeholder name,
      Text.byteLength (before ++ (Part.placeholder name).source))) := by
  have nonempty : rest ≠ [] := by
    rintro rfl
    simp [placeholder?] at opened
  rw [segmentAt?, Text.fromByte?_append, Text.byteLength_append, ← Part.byteLength,
    byteLength_placeholder]
  simp [nonempty, opened]

theorem segmentAt?_literal (closed : placeholder? rest = none) (nonempty : rest ≠ [])
    (before : Text) : segmentAt? (before ++ rest) before.byteLength =
      some (some (.literal (untilPlaceholder rest).1,
        Text.byteLength (before ++ (untilPlaceholder rest).1))) := by
  have ended : literalEnd? rest 0 = some (Text.byteLength (untilPlaceholder rest).1) :=
    literalEnd?_eq closed (List.nil_append rest) rfl
  have content : rest.toByte? (Text.byteLength (untilPlaceholder rest).1) =
      some (untilPlaceholder rest).1 :=
    Text.toByte?_eq_some_iff.mpr ⟨_, (untilPlaceholder_append rest).symm, rfl⟩
  rw [segmentAt?, Text.fromByte?_append, Text.byteLength_append]
  simp [nonempty, closed, ended, content]

theorem segmentsFrom?_of_segmentAt? {pos next : Nat} {segment : Part}
    (found : segmentAt? t pos = some (some (segment, next))) :
    segmentsFrom? t pos = (segmentsFrom? t next).map (segment :: ·) := by
  rw [segmentsFrom?]
  split
  · simp_all
  · simp_all
  · rename_i again
    obtain ⟨rfl, rfl⟩ := Prod.mk.inj (Option.some.inj (Option.some.inj (found.symm.trans again)))
    rfl

theorem segmentsFrom?_end (t : Text) : segmentsFrom? t t.byteLength = some [] := by
  rw [segmentsFrom?]
  split <;> simp_all [segmentAt?_end]

/-- From a byte at which a part starts on, the scanner finds the parts that follow. -/
theorem segmentsFrom?_append (before rest : Text) :
    segmentsFrom? (before ++ rest) before.byteLength = some (parts rest) := by
  -- over the size of what is left, as one literal takes many characters
  induction size : rest.length using Nat.strongRecOn generalizing before rest with
  | ind n ih =>
      cases opened : placeholder? rest with
      | some placed =>
          rcases placed with ⟨name, after⟩
          have shorter := placeholder?_length opened
          rw [segmentsFrom?_of_segmentAt? (segmentAt?_placeholder opened before),
            parts_of_placeholder? opened]
          rw [(placeholder?_eq_some_iff.mp opened).2, ← List.append_assoc,
            ih after.length (size ▸ shorter) _ after rfl]
          rfl
      | none =>
          cases rest with
          | nil => rw [List.append_nil, segmentsFrom?_end, parts_nil]
          | cons c r =>
              have whole := untilPlaceholder_append (c :: r)
              have shorter : (untilPlaceholder (c :: r)).2.length < n := by
                have sizes := congrArg List.length whole
                rw [untilPlaceholder_cons opened, List.length_append, List.length_cons] at sizes
                rw [untilPlaceholder_cons opened]
                omega
              rw [segmentsFrom?_of_segmentAt? (segmentAt?_literal opened (List.cons_ne_nil c r) before),
                parts_of_closed opened]
              have later := ih _ shorter (before ++ (untilPlaceholder (c :: r)).1) _ rfl
              rw [List.append_assoc, whole] at later
              rw [later]
              rfl

theorem segments?_eq_parts (t : Text) : segments? t = some (parts t) :=
  segmentsFrom?_append [] t

theorem segments_eq_parts (t : Text) : segments t = parts t := by
  rw [segments, segments?_eq_parts]
  rfl

theorem mem_placeholderNames_iff :
    name ∈ placeholderNames t ↔ .placeholder name ∈ parts t := by
  rw [placeholderNames, segments_eq_parts, List.mem_filterMap]
  constructor
  · rintro ⟨part, member, named⟩
    cases part with
    | literal content => simp [Part.name?] at named
    | placeholder source => rwa [← Option.some.inj named]
  · exact fun member => ⟨_, member, rfl⟩

/-- The scanner ends with the parts of a text. These are the text, cut into non-empty literals that are
as long as they can be and into placeholders with proper names. The placeholders among them start at
the bytes at which any placeholder starts in the text, and no two of these overlap. -/
theorem parts_exact (t : Text) :
    segments? t = some (parts t) ∧
    (parts t).flatMap Part.source = t ∧
    ((parts t).map Part.byteLength).sum = t.byteLength ∧
    (∀ name, (Part.placeholder name).byteLength = name.byteLength + 4) ∧
    .literal [] ∉ parts t ∧ LiteralsApart (parts t) ∧
    (∀ name ∈ placeholderNames t, IsVariableName name) ∧
    (∀ place name, (place, name) ∈ placesFrom 0 (parts t) ↔ OccursAt t place name) ∧
    ∀ place name second other, OccursAt t place name → OccursAt t second other →
      place < second → place + (name.byteLength + 4) ≤ second := by
  refine ⟨segments?_eq_parts t, flatMap_source_parts t, ?_, byteLength_placeholder,
    literal_nil_not_mem_parts t, literalsApart_parts t, ?_, ?_, ?_⟩
  · rw [sum_byteLength, flatMap_source_parts]
  · intro name member
    exact isVariableName_of_mem_parts (mem_placeholderNames_iff.mp member)
  · intro place name
    simp [mem_placesFrom_iff]
  · intro place name second other first after later
    rw [← byteLength_placeholder]
    exact first.disjoint after later

/-- The first of three braces is a literal, and so is a name with a blank between braces. -/
example : segments "{{{a}}}{{ b }}".toList =
    [.literal ['{'], .placeholder ['a'], .literal ('}' :: "{{ b }}".toList)] := by
  decide +kernel

end LiveTemplate.Template
