import LiveTemplate.Proofs.Markup.Escaping
import Mathlib

/-! What decoding takes for a reference, said as a grammar: a name of the table, or a code in
decimal or hexadecimal digits. Decoding follows this grammar but for one thing, it also reads a code
that carries a plus sign. -/

namespace LiveTemplate.Markup

def digitTexts : Text :=
  "0123456789abcdef".toList

def IsDigit (base : Nat) (c : Char) (value : Nat) : Prop :=
  digitTexts.idxOf? c.toLower = some value ∧ value < base

/-- A text of nothing but digits, and the number that it writes. -/
inductive Numeral (base : Nat) : Text → Nat → Prop
  | nil : Numeral base [] 0
  | digit {t : Text} {n value : Nat} {c : Char} (before : Numeral base t n)
    (last : IsDigit base c value) : Numeral base (t ++ [c]) (n * base + value)

/-- What a code stands for: its character or, for zero, surrogates and codes past the last one, the
replacement character. -/
inductive HasCode (n : Nat) (c : Char) : Prop
  | scalar (named : n ≠ 0) (same : c.toNat = n)
  | replaced (unnamed : n = 0 ∨ (0xD800 ≤ n ∧ n ≤ 0xDFFF) ∨ 0x10FFFF < n) (same : c = '\ufffd')

def WritesCode (signs : List Text) (base : Nat) (t : Text) (c : Char) : Prop :=
  ∃ sign ∈ signs, ∃ digits n, t = sign ++ digits ∧ digits ≠ [] ∧ Numeral base digits n ∧ HasCode n c

/-- The text between `&` and `;` of a reference and the character that it stands for: a known name,
or a code in decimal digits, or in hexadecimal ones behind an `x`. -/
inductive Reference (signs : List Text) : Text → Char → Prop
  | named {name : Text} {c : Char} (known : (name, c) ∈ namedReferences) : Reference signs name c
  | decimal {t : Text} {c : Char} (code : WritesCode signs 10 t c) : Reference signs ('#' :: t) c
  | hexadecimal {mark : Char} {t : Text} {c : Char} (marked : mark ∈ ['x', 'X'])
    (code : WritesCode signs 16 t c) : Reference signs ('#' :: mark :: t) c

/-- What follows an `&` is a reference up to the next `;`, less than twelve bytes after the `&`, and
goes on with `rest`. -/
def Refers (signs : List Text) (r : Text) (c : Char) (rest : Text) : Prop :=
  ∃ name, r = name ++ ';' :: rest ∧ ';' ∉ name ∧ Text.byteLength ('&' :: name) < 12 ∧
    Reference signs name c

/-- One pass from left to right in which each reference gives its character, and every other
character itself. -/
inductive Decodes (signs : List Text) : Text → Text → Prop
  | nil : Decodes signs [] []
  | plain {c : Char} {r u : Text} (other : c ≠ '&') (more : Decodes signs r u) :
    Decodes signs (c :: r) (c :: u)
  | reference {r rest u : Text} {c : Char} (refers : Refers signs r c rest)
    (more : Decodes signs rest u) : Decodes signs ('&' :: r) (c :: u)
  | ampersand {r u : Text} (alone : ∀ c rest, ¬ Refers signs r c rest) (more : Decodes signs r u) :
    Decodes signs ('&' :: r) ('&' :: u)

def noSign : List Text := [[]]

def plusSign : List Text := [[], ['+']]

theorem digitValue?_eq (c : Char) : digitValue? c = digitTexts.idxOf? c.toLower := by
  by_cases ascii : c.toNat < 128
  · have table : ∀ n < 128, digitValue? (Char.ofNat n) =
        digitTexts.idxOf? (Char.ofNat n).toLower := by decide +kernel
    have read := table c.toNat ascii
    rwa [Char.ofNat_toNat] at read
  · have listed : digitTexts.all (·.toNat < 128) := by decide
    have absent : c ∉ digitTexts := fun member =>
      ascii (by simpa using List.all_eq_true.mp listed c member)
    have size : ¬ c.val.toNat < 128 := ascii
    have small : c.toLower = c := by
      apply Char.toLower_eq_of_not_isUpper
      simp only [Char.isUpper, decide_eq_true_eq, ge_iff_le, UInt32.le_iff_toNat_le]
      have last : 'Z'.val.toNat = 90 := rfl
      omega
    rw [small, List.idxOf?_eq_none_iff.mpr absent, digitValue?]
    simp only [Char.isDigit, Char.le_def, Bool.and_eq_true, decide_eq_true_eq, ge_iff_le,
      UInt32.le_iff_toNat_le]
    have nine : '9'.val.toNat = 57 := rfl
    have small : 'f'.val.toNat = 102 := rfl
    have capital : 'F'.val.toNat = 70 := rfl
    rw [if_neg (by omega), if_neg (by omega), if_neg (by omega)]

variable {base n : Nat} {t digits : Text} {c : Char}

theorem Numeral.isDigit (number : Numeral base t n) : ∀ c ∈ t, ∃ value, IsDigit base c value := by
  induction number with
  | nil => simp
  | digit before last ih =>
      intro c member
      rcases List.mem_append.mp member with earlier | final
      · exact ih c earlier
      · rw [List.mem_singleton.mp final]
        exact ⟨_, last⟩

theorem not_numeral_cons (other : digitTexts.idxOf? c.toLower = none) :
    ¬ Numeral base (c :: t) n := by
  intro number
  rcases number.isDigit c List.mem_cons_self with ⟨value, read, _⟩
  exact absurd (other.symm.trans read) (by simp)

theorem numeral_concat_iff : Numeral base (t ++ [c]) n ↔
    ∃ m value, Numeral base t m ∧ IsDigit base c value ∧ n = m * base + value := by
  constructor
  · intro number
    generalize whole : t ++ [c] = s at number
    cases number with
    | nil => simp at whole
    | digit before last =>
        obtain ⟨rfl, same⟩ := List.append_inj' whole rfl
        obtain rfl := List.singleton_injective same
        exact ⟨_, _, before, last, rfl⟩
  · rintro ⟨m, value, before, last, rfl⟩
    exact .digit before last

theorem digits?_eq_some_iff : digits? base t = some n ↔ t ≠ [] ∧ Numeral base t n := by
  have read : ∀ t n, t.foldlM (fun n c => (digitValue? c).bind fun d =>
      if d < base then some (n * base + d) else none) 0 = some n ↔ Numeral base t n := by
    intro t
    induction t using List.reverseRecOn with
    | nil =>
        intro n
        constructor
        · intro zero
          obtain rfl := Option.some.inj zero
          exact .nil
        · intro number
          generalize empty : ([] : Text) = s at number
          cases number with
          | nil => rfl
          | digit before last => simp at empty
    | append_singleton t c ih =>
        intro n
        rw [List.foldlM_append, numeral_concat_iff]
        simp only [List.foldlM_cons, List.foldlM_nil, bind_pure, Option.bind_eq_bind,
          Option.bind_eq_some_iff, ih]
        simp only [digitValue?_eq, IsDigit, Option.ite_none_right_eq_some, Option.some.injEq,
          exists_and_left, and_assoc, eq_comm (b := n)]
  rw [digits?]
  by_cases empty : t = []
  · simp [empty]
  · rw [if_neg (by simpa using empty), read]
    simp [empty]

theorem number?_eq_some_iff : number? base t = some n ↔
    ∃ sign ∈ plusSign, ∃ digits, t = sign ++ digits ∧ digits ≠ [] ∧ Numeral base digits n := by
  unfold number?
  split
  · rename_i digits
    rw [digits?_eq_some_iff]
    constructor
    · rintro ⟨nonempty, number⟩
      exact ⟨['+'], by simp [plusSign], digits, rfl, nonempty, number⟩
    · rintro ⟨sign, signed, others, same, nonempty, number⟩
      simp only [plusSign, List.mem_cons, List.not_mem_nil, or_false] at signed
      rcases signed with rfl | rfl
      · rw [List.nil_append] at same
        exact absurd (same ▸ number) (not_numeral_cons (by decide))
      · obtain ⟨_, rfl⟩ := List.cons.inj same
        exact ⟨nonempty, number⟩
  · rename_i plain
    rw [digits?_eq_some_iff]
    constructor
    · rintro ⟨nonempty, number⟩
      exact ⟨[], by simp [plusSign], t, rfl, nonempty, number⟩
    · rintro ⟨sign, signed, others, same, nonempty, number⟩
      simp only [plusSign, List.mem_cons, List.not_mem_nil, or_false] at signed
      rcases signed with rfl | rfl
      · rw [List.nil_append] at same
        exact same ▸ ⟨nonempty, number⟩
      · exact absurd same (plain others)

theorem charOfCode_eq_iff : charOfCode n = c ↔ HasCode n c := by
  have valid : n.isValidChar ↔ ¬ ((0xD800 ≤ n ∧ n ≤ 0xDFFF) ∨ 0x10FFFF < n) := by
    rw [Nat.isValidChar]
    omega
  constructor
  · rintro rfl
    rw [charOfCode]
    split
    · rename_i scalar
      exact .scalar scalar.1 (by rw [Char.toNat_ofNat, if_pos scalar.2])
    · rename_i unnamed
      exact .replaced (by omega) rfl
  · intro code
    cases code with
    | scalar named same =>
        have valid : n.isValidChar := same ▸ c.valid
        rw [charOfCode, if_pos ⟨named, valid⟩, ← same, Char.ofNat_toNat]
    | replaced unnamed same =>
        rw [charOfCode, if_neg (by omega), same]

variable {name r rest u : Text}

theorem hash_not_named : ∀ entry ∈ namedReferences, entry.1.head? ≠ some '#' := by
  decide +kernel

theorem nodup_namedReferences : (namedReferences.map (·.1)).Nodup := by
  decide +kernel

theorem lookup_eq_some_iff {entries : List (Text × Char)} (distinct : (entries.map (·.1)).Nodup) :
    entries.lookup name = some c ↔ (name, c) ∈ entries := by
  induction entries with
  | nil => simp
  | cons entry more ih =>
      rcases entry with ⟨known, d⟩
      rw [List.map_cons, List.nodup_cons] at distinct
      by_cases same : name = known
      · subst same
        have other : (name, c) ∉ more := fun member =>
          distinct.1 (List.mem_map_of_mem (f := (·.1)) member)
        simp [other, eq_comm]
      · have differs : (name == known) = false := by simpa using same
        rw [List.lookup_cons, differs, ih distinct.2]
        simp [same]

theorem number?_map_eq_some_iff :
    (number? base t).map charOfCode = some c ↔ WritesCode plusSign base t c := by
  rw [Option.map_eq_some_iff, WritesCode]
  constructor
  · rintro ⟨n, read, code⟩
    rcases number?_eq_some_iff.mp read with ⟨sign, signed, digits, same, nonempty, number⟩
    exact ⟨sign, signed, digits, n, same, nonempty, number, charOfCode_eq_iff.mp code⟩
  · rintro ⟨sign, signed, digits, n, same, nonempty, number, code⟩
    have read := number?_eq_some_iff.mpr ⟨sign, signed, digits, same, nonempty, number⟩
    exact ⟨n, read, charOfCode_eq_iff.mpr code⟩

/-- The mark of hexadecimal digits is no decimal digit, so that the kinds of code are kept apart. -/
theorem reference_marked_iff {mark : Char} (marked : mark ∈ ['x', 'X']) :
    Reference plusSign ('#' :: mark :: t) c ↔ WritesCode plusSign 16 t c := by
  constructor
  · intro reference
    cases reference with
    | named known => exact absurd rfl (hash_not_named _ known)
    | decimal code =>
        rcases code with ⟨sign, signed, digits, n, same, _, number, _⟩
        have signs : mark ≠ '+' ∧ digitTexts.idxOf? mark.toLower = none := by
          simp only [List.mem_cons, List.not_mem_nil, or_false] at marked
          rcases marked with rfl | rfl <;> decide
        simp only [plusSign, List.mem_cons, List.not_mem_nil, or_false] at signed
        rcases signed with rfl | rfl
        · rw [List.nil_append] at same
          exact absurd (same ▸ number) (not_numeral_cons signs.2)
        · exact absurd (List.cons.inj same).1 signs.1
    | hexadecimal _ code => exact code
  · exact .hexadecimal marked

theorem reference?_eq_some_iff : reference? name = some c ↔ Reference plusSign name c := by
  unfold reference?
  split
  · rw [number?_map_eq_some_iff, reference_marked_iff (by simp)]
  · rw [number?_map_eq_some_iff, reference_marked_iff (by simp)]
  · rename_i t small capital
    rw [number?_map_eq_some_iff]
    constructor
    · exact .decimal
    · intro reference
      cases reference with
      | named known => exact absurd rfl (hash_not_named _ known)
      | decimal code => exact code
      | hexadecimal marked code =>
          simp only [List.mem_cons, List.not_mem_nil, or_false] at marked
          rcases marked with rfl | rfl
          · exact absurd rfl (small _)
          · exact absurd rfl (capital _)
  · rename_i plain
    rw [lookup_eq_some_iff nodup_namedReferences]
    constructor
    · exact .named
    · intro reference
      cases reference with
      | named known => exact known
      | decimal code => exact absurd rfl (plain _)
      | hexadecimal marked code => exact absurd rfl (plain _)

theorem upToSemicolon?_eq_some_iff {room : Nat} : upToSemicolon? room t = some (name, rest) ↔
    t = name ++ ';' :: rest ∧ ';' ∉ name ∧ Text.byteLength name ≤ room := by
  induction t generalizing room name with
  | nil => simp [upToSemicolon?]
  | cons x t ih =>
      rw [upToSemicolon?]
      by_cases mark : x = ';'
      · subst mark
        rw [if_pos rfl]
        cases name with
        | nil => simp [eq_comm]
        | cons first name => simp +contextual [eq_comm]
      · rw [if_neg mark, Option.ite_none_right_eq_some, Option.map_eq_some_iff]
        constructor
        · rintro ⟨fits, ⟨found, left⟩, read, same⟩
          obtain ⟨rfl, rfl⟩ := Prod.mk.inj same
          obtain ⟨rfl, free, enough⟩ := ih.mp read
          refine ⟨rfl, by simp [Ne.symm mark, free], ?_⟩
          rw [Text.byteLength_cons]
          omega
        · rintro ⟨same, free, fits⟩
          cases name with
          | nil => exact absurd (List.cons.inj same).1 mark
          | cons first name =>
              obtain ⟨rfl, rfl⟩ := List.cons.inj same
              rw [Text.byteLength_cons] at fits
              rw [List.mem_cons, not_or] at free
              exact ⟨by omega, (name, rest), ih.mpr ⟨rfl, free.2, by omega⟩, rfl⟩

theorem readReference?_eq_some_iff :
    readReference? r = some (c, rest) ↔ Refers plusSign r c rest := by
  have room : ∀ name, Text.byteLength name ≤ referenceSpan ↔
      Text.byteLength ('&' :: name) < 12 := by
    intro name
    have one : '&'.utf8Size = 1 := rfl
    rw [Text.byteLength_cons, referenceSpan]
    omega
  rw [readReference?, Option.bind_eq_some_iff]
  constructor
  · rintro ⟨⟨name, after⟩, found, read⟩
    obtain ⟨d, known, same⟩ := Option.map_eq_some_iff.mp read
    obtain ⟨rfl, rfl⟩ := Prod.mk.inj same
    rcases upToSemicolon?_eq_some_iff.mp found with ⟨spelled, free, fits⟩
    exact ⟨name, spelled, free, (room name).mp fits, reference?_eq_some_iff.mp known⟩
  · rintro ⟨name, spelled, free, fits, known⟩
    refine ⟨(name, rest), upToSemicolon?_eq_some_iff.mpr ⟨spelled, free, (room name).mpr fits⟩, ?_⟩
    exact Option.map_eq_some_iff.mpr ⟨c, reference?_eq_some_iff.mpr known, rfl⟩

theorem decode_ampersand (unread : readReference? r = none) :
    decode ('&' :: r) = '&' :: decode r := by
  rw [decode]
  split
  · rename_i found
    simp [unread] at found
  · rfl

theorem refers_iff_of_none : readReference? r = none ↔ ∀ c rest, ¬ Refers plusSign r c rest := by
  simp only [← readReference?_eq_some_iff, Option.eq_none_iff_forall_ne_some, Prod.forall, ne_eq]

theorem decodes_decode (t : Text) : Decodes plusSign t (decode t) := by
  fun_induction decode t with
  | case1 => exact .nil
  | case2 r c rest read ih => exact .reference (readReference?_eq_some_iff.mp read) ih
  | case3 r read ih => exact .ampersand (refers_iff_of_none.mp read) ih
  | case4 c r other ih => exact .plain other ih

theorem Decodes.eq_decode (decodes : Decodes plusSign t u) : decode t = u := by
  induction decodes with
  | nil => exact decode_nil
  | plain other more ih => rw [decode_cons other, ih]
  | reference refers more ih => rw [decode_reference (readReference?_eq_some_iff.mpr refers), ih]
  | ampersand alone more ih => rw [decode_ampersand (refers_iff_of_none.mpr alone), ih]

theorem decodes_self {signs : List Text} (free : '&' ∉ t) : Decodes signs t t := by
  induction t with
  | nil => exact .nil
  | cons c t ih =>
      rw [List.mem_cons, not_or] at free
      exact .plain (Ne.symm free.1) (ih free.2)

theorem Decodes.of_refers_iff {signs others : List Text} (decodes : Decodes signs t u)
    (same : ∀ r, '&' :: r <:+ t → ∀ c rest, Refers signs r c rest ↔ Refers others r c rest) :
    Decodes others t u := by
  induction decodes with
  | nil => exact .nil
  | plain other more ih =>
      exact .plain other (ih fun r inside => same r (inside.trans (List.suffix_cons _ _)))
  | @reference r rest u c refers more ih =>
      have later : rest <:+ '&' :: r := by
        rcases refers with ⟨name, rfl, _⟩
        exact ⟨'&' :: name ++ [';'], by simp⟩
      exact .reference ((same r List.suffix_rfl c rest).mp refers)
        (ih fun s inside => same s (inside.trans later))
  | @ampersand r u alone more ih =>
      refine .ampersand (fun c rest refers => ?_)
        (ih fun s inside => same s (inside.trans (List.suffix_cons _ _)))
      exact alone c rest ((same r List.suffix_rfl c rest).mpr refers)

def signedMarks : List Text :=
  ["&#+", "&#x+", "&#X+"].map String.toList

theorem WritesCode.of_plusSign (code : WritesCode plusSign base t c) :
    WritesCode noSign base t c ∨ ∃ digits, t = '+' :: digits := by
  rcases code with ⟨sign, signed, digits, n, same, rest⟩
  simp only [plusSign, List.mem_cons, List.not_mem_nil, or_false] at signed
  rcases signed with rfl | rfl
  · exact .inl ⟨[], by simp [noSign], digits, n, same, rest⟩
  · exact .inr ⟨digits, same⟩

theorem WritesCode.plusSign_of_noSign (code : WritesCode noSign base t c) :
    WritesCode plusSign base t c := by
  rcases code with ⟨sign, signed, number⟩
  obtain rfl : sign = [] := by simpa [noSign] using signed
  exact ⟨[], by simp [plusSign], number⟩

theorem refers_plusSign_iff (unsigned : ∀ mark ∈ signedMarks, ¬ mark <+: '&' :: r) :
    Refers plusSign r c rest ↔ Refers noSign r c rest := by
  constructor
  · rintro ⟨name, rfl, free, fits, reference⟩
    refine ⟨name, rfl, free, fits, ?_⟩
    cases reference with
    | named known => exact .named known
    | @decimal t _ code =>
        rcases code.of_plusSign with plain | ⟨digits, rfl⟩
        · exact .decimal plain
        · exact absurd ⟨digits ++ ';' :: rest, rfl⟩ (unsigned "&#+".toList (by simp [signedMarks]))
    | @hexadecimal mark t _ marked code =>
        rcases code.of_plusSign with plain | ⟨digits, rfl⟩
        · exact .hexadecimal marked plain
        · simp only [List.mem_cons, List.not_mem_nil, or_false] at marked
          rcases marked with rfl | rfl
          · exact absurd ⟨digits ++ ';' :: rest, rfl⟩
              (unsigned "&#x+".toList (by simp [signedMarks]))
          · exact absurd ⟨digits ++ ';' :: rest, rfl⟩
              (unsigned "&#X+".toList (by simp [signedMarks]))
  · rintro ⟨name, rfl, free, fits, reference⟩
    refine ⟨name, rfl, free, fits, ?_⟩
    cases reference with
    | named known => exact .named known
    | decimal code => exact .decimal code.plusSign_of_noSign
    | hexadecimal marked code => exact .hexadecimal marked code.plusSign_of_noSign

/-- A text is decoded in one pass in which exactly the references are replaced, where a code may
carry a plus sign. On a text without such codes the references are those that carry none. -/
theorem decode_eq_iff_decodes (t u : Text) :
    (decode t = u ↔ Decodes plusSign t u) ∧
      ((∀ mark ∈ signedMarks, ¬ mark <:+: t) → (decode t = u ↔ Decodes noSign t u)) := by
  have signed : decode t = u ↔ Decodes plusSign t u :=
    ⟨fun same => same ▸ decodes_decode t, Decodes.eq_decode⟩
  refine ⟨signed, fun unsigned => signed.trans ?_⟩
  have same : ∀ r, '&' :: r <:+ t →
      ∀ c rest, Refers plusSign r c rest ↔ Refers noSign r c rest := by
    intro r inside c rest
    refine refers_plusSign_iff fun mark member front => unsigned mark member ?_
    exact front.isInfix.trans inside.isInfix
  constructor
  · exact fun decodes => decodes.of_refers_iff same
  · exact fun decodes => decodes.of_refers_iff fun r inside c rest => (same r inside c rest).symm

/-- References in both bases and by name beside text that only looks like one: a decoded character
does not begin a reference, and neither does an ampersand whose semicolon is too far away. -/
theorem decode_eq_iff_decodes_mixed :
    (∀ mark ∈ signedMarks, ¬ mark <:+: "&#38;lt;&amp;#65; &#x0000000041; &#xD800;&;&#x;".toList) ∧
    Decodes noSign "&#38;lt;&amp;#65; &#x0000000041; &#xD800;&;&#x;".toList
      "&lt;&#65; &#x0000000041; \ufffd&;&#x;".toList := by
  have unsigned : ∀ mark ∈ signedMarks,
      ¬ mark <:+: "&#38;lt;&amp;#65; &#x0000000041; &#xD800;&;&#x;".toList := by decide +kernel
  refine ⟨unsigned, ((decode_eq_iff_decodes _ _).2 unsigned).mp ?_⟩
  decide +kernel

theorem not_refers_plus (c : Char) (rest : Text) :
    ¬ Refers noSign ['#', '+', '6', '5', ';'] c rest := by
  rintro ⟨name, spelled, free, fits, reference⟩
  have read : upToSemicolon? 12 ['#', '+', '6', '5', ';'] = some (['#', '+', '6', '5'], []) := rfl
  have found : upToSemicolon? 12 ['#', '+', '6', '5', ';'] = some (name, rest) :=
    upToSemicolon?_eq_some_iff.mpr ⟨spelled, free, by rw [Text.byteLength_cons] at fits; omega⟩
  obtain ⟨rfl, rfl⟩ := Prod.mk.inj (Option.some.inj (read.symm.trans found))
  cases reference with
  | named known => exact absurd rfl (hash_not_named _ known)
  | decimal code =>
      rcases code with ⟨sign, signed, digits, n, same, _, number, _⟩
      obtain rfl : sign = [] := by simpa [noSign] using signed
      rw [List.nil_append] at same
      exact not_numeral_cons (by decide) (same ▸ number)
  | hexadecimal marked code => simp at marked

/-- A code with a plus sign is read, though the text is not a reference and would have to stay. -/
theorem decode_plus : decode "&#+65;".toList = "A".toList ∧
    ¬ Decodes noSign "&#+65;".toList "A".toList ∧
    Decodes noSign "&#+65;".toList "&#+65;".toList := by
  have shape : "&#+65;".toList = '&' :: ['#', '+', '6', '5', ';'] := rfl
  rw [shape]
  refine ⟨by decide +kernel, fun decodes => ?_, ?_⟩
  · cases decodes with
    | reference refers more => exact not_refers_plus _ _ refers
  · have plain : '&' ∉ ['#', '+', '6', '5', ';'] := by decide
    exact .ampersand not_refers_plus (decodes_self plain)

end LiveTemplate.Markup
