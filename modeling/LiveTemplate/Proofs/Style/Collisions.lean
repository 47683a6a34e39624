import LiveTemplate.Proofs.Style.Renaming
import LiveTemplate.Proofs.Text.ByteOrder

/-! When two classes of a stylesheet share a name. A name shows the first bytes of the digest of a
class with its scope and its salt, so that two classes share one if those bytes are the same for
both, which can happen. It is the only way: no two classes of a stylesheet hand the same bytes to
the digest, whatever their salts are, and rewriting keeps apart what the names keep apart. -/

namespace LiveTemplate

namespace Text

theorem zero_eq_ofNat_iff {n : Nat} (small : n < 256) : (0 : UInt8) = UInt8.ofNat n ↔ n = 0 := by
  rw [← UInt8.toNat_inj, UInt8.toNat_ofNat', Nat.mod_eq_of_lt small]
  exact eq_comm

/-- Only the null character has a zero among its bytes. -/
theorem null_mem_of_zero_mem {t : Text} (member : 0 ∈ Style.utf8 t) : '\x00' ∈ t := by
  rcases List.mem_flatMap.mp member with ⟨c, inside, zero⟩
  suffices c = '\x00' from this ▸ inside
  rw [← Char.toNat_inj, Char.toNat]
  simp only [String.utf8EncodeChar] at zero
  generalize c.val.toNat = n at zero
  split_ifs at zero <;> simp (disch := omega) only [List.mem_cons, List.not_mem_nil, or_false,
    zero_eq_ofNat_iff] at zero
  · exact zero
  -- every other byte has its high bit set
  all_goals omega

end Text

namespace Style

variable {digest : Digest} {scope css className other : Text} {salt otherSalt : Nat}

theorem digitChar_inj : ∀ m < 16, ∀ n < 16, Nat.digitChar m = Nat.digitChar n → m = n := by decide

theorem hexDigits_cons (b : UInt8) (l : List UInt8) : hexDigits (b :: l) =
    Nat.digitChar (b.toNat / 16) :: Nat.digitChar (b.toNat % 16) :: hexDigits l := rfl

theorem hexDigits_injective : Function.Injective hexDigits := by
  intro l
  induction l with
  | nil =>
      rintro (_ | ⟨c, more⟩) same
      · rfl
      · cases same
  | cons b l ih =>
      rintro (_ | ⟨c, more⟩) same
      · cases same
      · rw [hexDigits_cons, hexDigits_cons, List.cons.injEq, List.cons.injEq] at same
        have bSmall := b.toNat_lt
        have cSmall := c.toNat_lt
        have high := digitChar_inj _ (by omega) _ (by omega) same.1
        have low := digitChar_inj _ (by omega) _ (by omega) same.2.1
        rw [ih same.2.2, UInt8.toNat_inj.mp (show b.toNat = c.toNat by omega)]

theorem length_hexDigits (l : List UInt8) : (hexDigits l).length = 2 * l.length := by
  induction l with
  | nil => rfl
  | cons b l ih =>
      rw [hexDigits_cons, List.length_cons, List.length_cons, ih, List.length_cons]
      omega

theorem take_hexDigits (n : Nat) (l : List UInt8) :
    (hexDigits l).take (2 * n) = hexDigits (l.take n) := by
  induction n generalizing l with
  | zero => rfl
  | succ n ih =>
      cases l with
      | nil => rfl
      | cons b l =>
          rw [hexDigits_cons, Nat.mul_succ, List.take_succ_cons, List.take_succ_cons, ih,
            List.take_succ_cons, hexDigits_cons]

def shownBytes : Nat := 4

theorem length_saltedName
    (long : shownBytes ≤ (digest (digestInput scope className salt)).length) :
    (saltedName digest scope className salt).length = digitCount + 1 := by
  rw [saltedName, List.length_cons, List.length_take, length_hexDigits]
  simp only [shownBytes, digitCount] at long ⊢
  omega

theorem saltedName_eq_iff :
    saltedName digest scope className salt = saltedName digest scope other otherSalt ↔
      (digest (digestInput scope className salt)).take shownBytes =
        (digest (digestInput scope other otherSalt)).take shownBytes := by
  rw [saltedName, saltedName, List.cons_inj_right, show digitCount = 2 * shownBytes from rfl,
    take_hexDigits, take_hexDigits, hexDigits_injective.eq_iff]

theorem digestInput_zero (scope className : Text) :
    digestInput scope className 0 = utf8 (scope ++ ':' :: className) :=
  List.append_nil _

theorem digestInput_of_ne_zero (salted : salt ≠ 0) (scope className : Text) :
    digestInput scope className salt =
      utf8 (scope ++ ':' :: className) ++ (utf8 [':'] ++ saltBytes salt) := by
  rw [digestInput, if_neg salted]

/-- The salts that are tried fit into two bytes, so that the last of the four is zero. -/
theorem getLast?_saltBytes (small : salt ≤ lastSalt) : (saltBytes salt).getLast? = some 0 := by
  rw [lastSalt] at small
  have high : (salt.toUInt32 >>> 24).toUInt8 = 0 := by
    rw [← UInt8.toNat_inj]
    simp only [Nat.toUInt32_eq, UInt32.toNat_toUInt8, UInt32.toNat_shiftRight, UInt32.toNat_ofNat',
      Nat.reducePow, UInt32.reduceToNat, Nat.reduceMod, UInt8.toNat_zero]
    omega
  rw [saltBytes, Blake3.bytesOfWord, high]
  rfl

theorem getLast?_digestInput (salted : salt ≠ 0) (small : salt ≤ lastSalt)
    (scope className : Text) : (digestInput scope className salt).getLast? = some 0 := by
  rw [digestInput_of_ne_zero salted, List.getLast?_append, List.getLast?_append,
    getLast?_saltBytes small]
  rfl

theorem digestInput_salted_ne (salted : salt ≠ 0) (small : salt ≤ lastSalt)
    (plain : '\x00' ∉ other) : digestInput scope className salt ≠ digestInput scope other 0 := by
  intro same
  have ends := getLast?_digestInput salted small scope className
  have apart : utf8 (scope ++ ':' :: other) = utf8 scope ++ ([58] ++ utf8 other) :=
    List.flatMap_append
  rw [same, digestInput_zero, apart, List.getLast?_append, List.getLast?_append] at ends
  cases final : (utf8 other).getLast? with
  | none => simp [final] at ends
  | some b =>
      obtain rfl : b = 0 := by simpa [final] using ends
      exact plain (Text.null_mem_of_zero_mem (List.mem_of_getLast? final))

/-- Classes without a null character hand different bytes to the digest, whatever their salts. -/
theorem eq_of_digestInput_eq (plain : '\x00' ∉ className) (otherPlain : '\x00' ∉ other)
    (small : salt ≤ lastSalt) (otherSmall : otherSalt ≤ lastSalt)
    (same : digestInput scope className salt = digestInput scope other otherSalt) :
    className = other := by
  have of_utf8 (encoded : utf8 (scope ++ ':' :: className) = utf8 (scope ++ ':' :: other)) :
      className = other :=
    (List.cons.inj (List.append_cancel_left (Text.utf8_injective encoded))).2
  by_cases unsalted : salt = 0 <;> by_cases otherUnsalted : otherSalt = 0
  · subst unsalted otherUnsalted
    exact of_utf8 (by rwa [digestInput_zero, digestInput_zero] at same)
  · subst unsalted
    exact absurd same.symm (digestInput_salted_ne otherUnsalted otherSmall plain)
  · subst otherUnsalted
    exact absurd same (digestInput_salted_ne unsalted small otherPlain)
  · rw [digestInput_of_ne_zero unsalted, digestInput_of_ne_zero otherUnsalted] at same
    exact of_utf8 (List.append_inj_left' same rfl)

def saltOf (digest : Digest) (scope className : Text) (classes : List Text) : Nat :=
  ((List.range (lastSalt + 1)).find? fun salt =>
    isClear className classes (saltedName digest scope className salt)).getD 0

theorem saltOf_le (digest : Digest) (scope className : Text) (classes : List Text) :
    saltOf digest scope className classes ≤ lastSalt := by
  rw [saltOf]
  generalize found : (List.range (lastSalt + 1)).find? _ = result
  cases result with
  | none => exact Nat.zero_le _
  | some salt => exact Nat.le_of_lt_succ (List.mem_range.mp (List.mem_of_find?_eq_some found))

theorem clearName_eq (digest : Digest) (scope className : Text) (classes : List Text) :
    clearName digest scope className classes =
      saltedName digest scope className (saltOf digest scope className classes) := by
  rw [clearName, saltOf]
  generalize List.range (lastSalt + 1) = salts
  induction salts with
  | nil => rfl
  | cons salt more ih =>
      by_cases clear : isClear className classes (saltedName digest scope className salt)
      · simp [clear]
      · simpa [clear] using ih

def namedBytes (digest : Digest) (scope css className : Text) : List UInt8 :=
  digestInput scope className (saltOf digest scope className (classesByLength css))

/-- The digests of two classes begin alike although they are digests of different bytes. -/
def Collide (digest : Digest) (scope css className other : Text) : Prop :=
  namedBytes digest scope css className ≠ namedBytes digest scope css other ∧
    (digest (namedBytes digest scope css className)).take shownBytes =
      (digest (namedBytes digest scope css other)).take shownBytes

theorem nameOf_eq (digest : Digest) (scope css className : Text) :
    nameOf digest scope css className = saltedName digest scope className
      (saltOf digest scope className (classesByLength css)) :=
  clearName_eq digest scope className _

theorem nameOf_eq_iff (known : className ∈ classesOf css) (otherKnown : other ∈ classesOf css) :
    nameOf digest scope css className = nameOf digest scope css other ↔
      className = other ∨ Collide digest scope css className other := by
  have apart (same : namedBytes digest scope css className = namedBytes digest scope css other) :
      className = other :=
    eq_of_digestInput_eq (null_not_mem_of_mem_classesOf known)
      (null_not_mem_of_mem_classesOf otherKnown) (saltOf_le ..) (saltOf_le ..) same
  rw [nameOf_eq, nameOf_eq, saltedName_eq_iff]
  constructor
  · intro alike
    by_cases same : className = other
    · exact .inl same
    · exact .inr ⟨mt apart same, alike⟩
  · rintro (rfl | collide)
    · rfl
    · exact collide.2

def SameLayout (words others : List (Text × Text)) : Prop :=
  List.Forall₂ (fun word other => word.2 = other.2) words others

/-- Renaming the words of two texts of one layout makes them equal if the words have the same names
in their places, all names being of one length. -/
theorem spaced_map_eq_iff (alike : Text → Text → Prop) {name : Text → Text} {length : Nat}
    {words others : List (Text × Text)} (layout : SameLayout words others)
    (sized : ∀ t, (name t).length = length)
    (named : ∀ word ∈ words, ∀ other ∈ others, name word.1 = name other.1 ↔ alike word.1 other.1) :
    Text.spaced (words.map fun word => (name word.1, word.2)) =
        Text.spaced (others.map fun word => (name word.1, word.2)) ↔
      List.Forall₂ (fun word other => alike word.1 other.1) words others := by
  induction layout with
  | nil => simp
  | @cons word other more rest after _ ih =>
      have later := ih fun word member other inside =>
        named word (List.mem_cons_of_mem _ member) other (List.mem_cons_of_mem _ inside)
      rw [List.map_cons, List.map_cons, Text.spaced_cons, Text.spaced_cons, after,
        List.forall₂_cons, ← later, ← named word List.mem_cons_self other List.mem_cons_self]
      constructor
      · intro same
        rcases List.append_inj same ((sized _).trans (sized _).symm) with ⟨first, tail⟩
        exact ⟨first, List.append_cancel_left tail⟩
      · rintro ⟨first, tail⟩
        rw [first, tail]

theorem keys_renamingBy (digest : Digest) (scope css : Text) :
    (renamingBy digest scope css).keys = classesByLength css := by
  rw [Table.keys, entries_renamingBy, List.map_map]
  exact List.map_id _

namespace Renaming

def Clear (map : Renaming) : Prop :=
  ∀ entry ∈ map.entries, ∀ other ∈ map.keys, other ≠ entry.1 → ¬ other <:+: entry.2

theorem Clear.replaceable (clear : (renamingBy digest scope css).Clear) :
    Replaceable (renamingBy digest scope css).keys (nameOf digest scope css) := by
  rw [Clear, keys_renamingBy, entries_renamingBy, List.forall_mem_map] at clear
  -- the pairs are taken apart before the types are compared, which would compute the names
  dsimp only at clear
  rw [keys_renamingBy]
  exact {
    nonempty := fun className member => ne_nil_of_mem_classesOf (mem_classesByLength.mp member)
    distinct := nodup_classesByLength css
    longestFirst := pairwise_classesByLength css
    clear := clear }

theorem Clear.apply_eq (clear : (renamingBy digest scope css).Clear) {start : Text}
    {words : List (Text × Text)}
    (separated : Separated (renamingBy digest scope css).keys start words) :
    (renamingBy digest scope css).apply (start ++ Text.spaced words) =
      start ++ Text.spaced (words.map fun word => (nameOf digest scope css word.1, word.2)) := by
  have replaced := clear.replaceable.foldl_replace separated
  rw [keys_renamingBy] at replaced
  rw [apply, entries_renamingBy]
  exact replaced

theorem Clear.apply_eq_iff (clear : (renamingBy digest scope css).Clear)
    (long : ∀ bytes, shownBytes ≤ (digest bytes).length) {start : Text}
    {words others : List (Text × Text)}
    (separated : Separated (renamingBy digest scope css).keys start words)
    (otherSeparated : Separated (renamingBy digest scope css).keys start others)
    (layout : SameLayout words others) :
    (renamingBy digest scope css).apply (start ++ Text.spaced words) =
        (renamingBy digest scope css).apply (start ++ Text.spaced others) ↔
      List.Forall₂ (fun word other =>
        word.1 = other.1 ∨ Collide digest scope css word.1 other.1) words others := by
  have sized (className : Text) :
      (nameOf digest scope css className).length = digitCount + 1 := by
    rw [nameOf_eq]
    exact length_saltedName (long _)
  have listed {className : Text} (member : className ∈ (renamingBy digest scope css).keys) :
      className ∈ classesOf css := by
    rwa [keys_renamingBy, mem_classesByLength] at member
  rw [clear.apply_eq separated, clear.apply_eq otherSeparated, List.append_cancel_left_eq]
  exact spaced_map_eq_iff (fun className other =>
    className = other ∨ Collide digest scope css className other) layout sized
    fun word member other inside => nameOf_eq_iff (listed (separated.known word member))
      (listed (otherSeparated.known other inside))

end Renaming

/-- The classes of a stylesheet are what is renamed. Two of them are given one name if they collide
under the digest, and for no other reason; and where no name holds a class other than its own,
rewriting makes one text out of two that differ in their classes only if these collide in their
places. -/
theorem renamingBy_merges_iff_collide (digest : Digest) (scope css : Text) :
    (renamingBy digest scope css).keys.Perm (classesOf css) ∧
      (∀ className ∈ classesOf css, ∀ other ∈ classesOf css,
        (renamingBy digest scope css).get? className = (renamingBy digest scope css).get? other ↔
          className = other ∨ Collide digest scope css className other) ∧
      ((∀ bytes, shownBytes ≤ (digest bytes).length) → (renamingBy digest scope css).Clear →
        ∀ (start : Text) (words others : List (Text × Text)),
          Separated (renamingBy digest scope css).keys start words →
          Separated (renamingBy digest scope css).keys start others → SameLayout words others →
          ((renamingBy digest scope css).apply (start ++ Text.spaced words) =
              (renamingBy digest scope css).apply (start ++ Text.spaced others) ↔
            List.Forall₂ (fun word other =>
              word.1 = other.1 ∨ Collide digest scope css word.1 other.1) words others)) := by
  refine ⟨?_, fun className known other otherKnown => ?_,
    fun long clear start words others separated otherSeparated layout =>
      clear.apply_eq_iff long separated otherSeparated layout⟩
  · rw [keys_renamingBy]
    exact List.mergeSort_perm _ _
  · rw [get?_renamingBy _ _ known, get?_renamingBy _ _ otherKnown, Option.some_inj,
      nameOf_eq_iff known otherKnown]

/-- Two classes that collide in the scope of one stylesheet, and one that collides with neither. -/
def filterSheet : Text :=
  ".closed-fade {} .week-filter {} .btn {}".toList

def filterRenaming : Renaming :=
  scopedRenaming "item.css".toList filterSheet

def filterClasses : List Text :=
  ["closed-fade".toList, "week-filter".toList, "btn".toList]

theorem classesOf_filterSheet : classesOf filterSheet = filterClasses := by decide +kernel

theorem classesByLength_filterSheet : classesByLength filterSheet = filterClasses := by
  rw [classesByLength, classesOf_filterSheet]
  simp [filterClasses, List.mergeSort, List.MergeSort.Internal.splitInTwo, Text.byteLength,
    Char.utf8Size]

theorem entries_filterRenaming : filterRenaming.entries =
    filterClasses.zip ["_b289a5c5".toList, "_b289a5c5".toList, "_2bfdb316".toList] := by
  rw [filterRenaming, scopedRenaming, entries_renamingBy]
  simp only [nameOf, classesByLength_filterSheet]
  decide +kernel

theorem keys_filterRenaming : filterRenaming.keys = filterClasses := by
  rw [Table.keys, entries_filterRenaming]
  rfl

theorem get?_filterRenaming (className : Text) : filterRenaming.get? className =
    Table.findIn className (filterClasses.zip
      ["_b289a5c5".toList, "_b289a5c5".toList, "_2bfdb316".toList]) :=
  congrArg (Table.findIn className) entries_filterRenaming

theorem renamingBy_merges_iff_collide_filterSheet :
    filterRenaming.apply "btn closed-fade".toList = filterRenaming.apply "btn week-filter".toList ∧
      filterRenaming.apply "btn closed-fade".toList ≠ filterRenaming.apply "btn btn".toList := by
  have clear : filterRenaming.Clear := by
    rw [Renaming.Clear, keys_filterRenaming, entries_filterRenaming]
    decide
  have separated (className : Text) (known : className ∈ filterClasses) :
      Separated filterRenaming.keys [] [("btn".toList, " ".toList), (className, [])] := by
    have btn : "btn".toList ∈ filterClasses := by decide
    have blank : ∀ className ∈ filterClasses, ' ' ∉ className := by decide
    rw [keys_filterRenaming]
    exact {
      known := by simpa using ⟨btn, known⟩
      apart := by simp
      foreignStart := by simp
      foreign := by simpa using blank }
  have layout (className other : Text) :
      SameLayout [("btn".toList, " ".toList), (className, [])]
        [("btn".toList, " ".toList), (other, [])] := by
    simp [SameLayout]
  have same : filterRenaming.get? "closed-fade".toList =
      filterRenaming.get? "week-filter".toList := by
    rw [get?_filterRenaming, get?_filterRenaming]
    decide
  have different : filterRenaming.get? "closed-fade".toList ≠
      filterRenaming.get? "btn".toList := by
    rw [get?_filterRenaming, get?_filterRenaming]
    decide
  have long (bytes : List UInt8) : shownBytes ≤ (Blake3.digest bytes).length := by
    rw [Blake3.length_digest]
    decide
  obtain ⟨-, shares, merges⟩ :=
    renamingBy_merges_iff_collide Blake3.digest "item.css".toList filterSheet
  rw [classesOf_filterSheet] at shares
  have collide := (shares "closed-fade".toList (by decide) "week-filter".toList (by decide)).mp same
  have apart := mt (shares "closed-fade".toList (by decide) "btn".toList (by decide)).mpr different
  have merged := merges long clear [] _ _ (separated _ (by decide)) (separated _ (by decide))
    (layout "closed-fade".toList "week-filter".toList)
  have kept := merges long clear [] _ _ (separated _ (by decide)) (separated _ (by decide))
    (layout "closed-fade".toList "btn".toList)
  refine ⟨merged.mpr (.cons (.inl rfl) (.cons collide .nil)), fun equal => ?_⟩
  rcases kept.mp equal with _ | ⟨-, _ | ⟨alike, -⟩⟩
  exact apart alike

/-- Two classes of one stylesheet are given the same name, and a text with the one becomes the same
as a text with the other. -/
theorem scopedRenaming_shares_name :
    "closed-fade".toList ∈ classesOf filterSheet ∧ "week-filter".toList ∈ classesOf filterSheet ∧
      "closed-fade".toList ≠ "week-filter".toList ∧
      filterRenaming.get? "closed-fade".toList = some "_b289a5c5".toList ∧
      filterRenaming.get? "week-filter".toList = some "_b289a5c5".toList ∧
      filterRenaming.apply "<p class='closed-fade'>".toList =
        filterRenaming.apply "<p class='week-filter'>".toList := by
  rw [classesOf_filterSheet, get?_filterRenaming, get?_filterRenaming]
  refine ⟨by decide, by decide, by decide, by decide, by decide, ?_⟩
  simp only [Renaming.apply, entries_filterRenaming]
  decide +kernel

end Style

end LiveTemplate
