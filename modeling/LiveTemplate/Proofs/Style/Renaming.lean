import LiveTemplate.Style.ScopedName
import LiveTemplate.Proofs.Style.ClassNames
import LiveTemplate.Proofs.Text.Cutting
import LiveTemplate.Proofs.Text.Distinct
import LiveTemplate.Proofs.Text.Replacing
import Mathlib.Data.List.Perm.Basic

/-! Renaming the classes of a stylesheet in a text that holds classes with separators between them.
The longest first, each class is replaced where it stands as a word of its own and nowhere else: no
class that is left is long enough to hold it, and no name that another class has been given holds it. -/

namespace LiveTemplate

theorem Text.byteLength_pos {t : Text} (nonempty : t ≠ []) : 0 < t.byteLength := by
  obtain ⟨c, r, rfl⟩ := List.exists_cons_of_ne_nil nonempty
  rw [Text.byteLength_cons]
  exact Nat.add_pos_left c.utf8Size_pos _

theorem Text.eq_of_infix {s t : Text} (inside : s <:+: t) (short : t.byteLength ≤ s.byteLength) :
    s = t := by
  obtain ⟨before, after, rfl⟩ := inside
  rw [byteLength_append, byteLength_append] at short
  have nothingBefore : before = [] := by
    by_contra nonempty
    have := byteLength_pos nonempty
    omega
  have nothingAfter : after = [] := by
    by_contra nonempty
    have := byteLength_pos nonempty
    omega
  rw [nothingBefore, nothingAfter, List.nil_append, List.append_nil]

namespace Style

variable {digest : Digest} {scope css className : Text}

theorem mem_classesByLength :
    className ∈ classesByLength css ↔ className ∈ classesOf css :=
  (List.mergeSort_perm _ _).mem_iff

theorem nodup_classesByLength (css : Text) : (classesByLength css).Nodup :=
  (List.mergeSort_perm _ _).nodup_iff.mpr (nodup_eraseDups _)

theorem atLeastAsLong_trans (a b c : Text) (first : decide (b.byteLength ≤ a.byteLength) = true)
    (second : decide (c.byteLength ≤ b.byteLength) = true) :
    decide (c.byteLength ≤ a.byteLength) = true := by
  simp only [decide_eq_true_eq] at first second ⊢
  exact Nat.le_trans second first

theorem atLeastAsLong_total (a b : Text) :
    (decide (b.byteLength ≤ a.byteLength) || decide (a.byteLength ≤ b.byteLength)) = true := by
  simp only [Bool.or_eq_true, decide_eq_true_eq]
  exact Nat.le_total _ _

theorem pairwise_classesByLength (css : Text) :
    (classesByLength css).Pairwise fun a b => b.byteLength ≤ a.byteLength := by
  have sorted : (classesByLength css).Pairwise
      fun a b => decide (b.byteLength ≤ a.byteLength) = true :=
    List.pairwise_mergeSort atLeastAsLong_trans atLeastAsLong_total (classesOf css)
  exact sorted.imp of_decide_eq_true

theorem filter_classesByLength (css : Text) (n : Nat) :
    (classesByLength css).filter (·.byteLength = n) =
      (classesOf css).filter (·.byteLength = n) := by
  have equal : ((classesOf css).filter (·.byteLength = n)).Pairwise
      fun a b => decide (b.byteLength ≤ a.byteLength) = true := by
    refine List.pairwise_of_forall_mem_list fun a first b second => ?_
    simp only [List.mem_filter, decide_eq_true_eq] at first second ⊢
    exact Nat.le_of_eq (second.2.trans first.2.symm)
  -- they are sorted as they are, so sorting all classes keeps their order
  have inside := (List.sublist_mergeSort atLeastAsLong_trans atLeastAsLong_total equal
    List.filter_sublist).filter (·.byteLength = n)
  rw [List.filter_filter] at inside
  simp only [Bool.and_self] at inside
  have long : ((classesByLength css).filter (·.byteLength = n)).length =
      ((classesOf css).filter (·.byteLength = n)).length :=
    ((List.mergeSort_perm _ _).filter _).length_eq
  exact (inside.eq_of_length long.symm).symm

def nameOf (digest : Digest) (scope css className : Text) : Text :=
  clearName digest scope className (classesByLength css)

theorem entries_renamingBy (digest : Digest) (scope css : Text) :
    (renamingBy digest scope css).entries =
      (classesByLength css).map fun className =>
        (className, nameOf digest scope css className) := by
  apply Table.entries_ofList
  rw [List.map_map]
  exact (List.map_id _).symm ▸ nodup_classesByLength css

theorem get?_renamingBy (digest : Digest) (scope : Text) (known : className ∈ classesOf css) :
    (renamingBy digest scope css).get? className = some (nameOf digest scope css className) := by
  rw [← mem_classesByLength] at known
  rw [Table.get?, entries_renamingBy]
  generalize nameOf digest scope css = name
  generalize classesByLength css = classes at known
  induction classes with
  | nil => simp at known
  | cons first more ih =>
      by_cases same : first = className
      · simp [Table.findIn, same]
      · have later : className ∈ more := by simpa [Ne.symm same] using known
        simpa [Table.findIn, same] using ih later

theorem isClear_iff {classes : List Text} {name : Text} : isClear className classes name ↔
    ∀ other ∈ classes, other ≠ className → ¬ other <:+: name := by
  simp only [isClear, List.all_eq_true, Bool.or_eq_true, beq_iff_eq, Bool.not_eq_true',
    or_iff_not_imp_left, ← Bool.not_eq_true, Text.occurs_iff]

theorem isClear_clearName_iff {classes : List Text} :
    isClear className classes (clearName digest scope className classes) ↔
      ∃ salt ≤ lastSalt, isClear className classes (saltedName digest scope className salt) := by
  rw [clearName]
  generalize found : (List.range (lastSalt + 1)).findSome? _ = result
  cases result with
  | none =>
      rw [List.findSome?_eq_none_iff] at found
      rw [Option.getD_none]
      constructor
      · intro clear
        exact ⟨0, Nat.zero_le _, clear⟩
      · rintro ⟨salt, small, clear⟩
        have refused := found salt (List.mem_range.mpr (Nat.lt_succ_of_le small))
        simp [clear] at refused
  | some name =>
      rcases List.exists_of_findSome?_eq_some found with ⟨salt, tried, same⟩
      rw [Option.getD_some]
      simp only [Option.ite_none_right_eq_some, Option.some.injEq] at same
      rcases same with ⟨clear, rfl⟩
      exact ⟨fun _ => ⟨salt, Nat.le_of_lt_succ (List.mem_range.mp tried), clear⟩, fun _ => clear⟩

/-- The names hold no classes but their own if the search for a salt succeeds for every class, and
only then. -/
theorem clear_entries_iff : (∀ entry ∈ (renamingBy digest scope css).entries,
      ∀ other ∈ classesOf css, other ≠ entry.1 → ¬ other <:+: entry.2) ↔
    ∀ className ∈ classesOf css, ∃ salt ≤ lastSalt,
      isClear className (classesByLength css) (saltedName digest scope className salt) := by
  simp only [← isClear_clearName_iff]
  simp only [entries_renamingBy, isClear_iff, List.forall_mem_map, mem_classesByLength, nameOf]

structure Replaceable (classes : List Text) (name : Text → Text) : Prop where
  nonempty : ∀ className ∈ classes, className ≠ []
  distinct : classes.Nodup
  longestFirst : classes.Pairwise fun a b => b.byteLength ≤ a.byteLength
  clear : ∀ className ∈ classes, ∀ other ∈ classes, other ≠ className → ¬ other <:+: name className

/-- Classes with separators between them: no separator has a character of a class, and only the last
class may have nothing after it. -/
structure Separated (classes : List Text) (start : Text) (words : List (Text × Text)) : Prop where
  known : ∀ word ∈ words, word.1 ∈ classes
  apart : ∀ word ∈ words.dropLast, word.2 ≠ []
  foreignStart : ∀ c ∈ start, ∀ className ∈ classes, c ∉ className
  foreign : ∀ word ∈ words, ∀ c ∈ word.2, ∀ className ∈ classes, c ∉ className

def renamed (name : Text → Text) (done : List Text) (word : Text × Text) : Text × Text :=
  (if done.contains word.1 then name word.1 else word.1, word.2)

variable {name : Text → Text} {start : Text} {words : List (Text × Text)}

theorem renamed_of_mem {done : List Text} {word : Text × Text} (member : word.1 ∈ done) :
    renamed name done word = (name word.1, word.2) := by
  rw [renamed, if_pos (List.contains_iff_mem.mpr member)]

theorem renamed_of_not_mem {done : List Text} {word : Text × Text} (outside : word.1 ∉ done) :
    renamed name done word = word := by
  rw [renamed, if_neg (mt List.contains_iff_mem.mp outside)]

/-- The next class is a word that is not renamed yet, or occurs in none at all: the classes that are
not renamed are no longer than it, and the names of the others do not hold it. -/
theorem Replaceable.whole {done later : List Text} {className : Text}
    (replaceable : Replaceable (done ++ className :: later) name)
    {word : Text × Text} (known : word.1 ∈ done ++ className :: later) :
    (word.1 = className ∧ renamed name done word = word) ∨
      (word.1 ≠ className ∧ ¬ className <:+: (renamed name done word).1) := by
  have distinct := List.nodup_append.mp replaceable.distinct
  by_cases member : word.1 ∈ done
  · have other : className ≠ word.1 := fun same =>
      distinct.2.2 word.1 member className List.mem_cons_self same.symm
    have clear := replaceable.clear word.1 known className (by simp) other
    exact .inr ⟨other.symm, by rwa [renamed_of_mem member]⟩
  · have plain : renamed name done word = word := renamed_of_not_mem member
    by_cases same : word.1 = className
    · exact .inl ⟨same, plain⟩
    · have after : word.1 ∈ later := by simpa [member, same] using known
      have sorted := (List.pairwise_append.mp replaceable.longestFirst).2.1
      have shorter := List.rel_of_pairwise_cons sorted after
      exact .inr ⟨same, fun inside =>
        same (Text.eq_of_infix (plain ▸ inside) shorter).symm⟩

theorem Replaceable.renamed_append {done later : List Text} {className : Text}
    (replaceable : Replaceable (done ++ className :: later) name)
    {word : Text × Text} (known : word.1 ∈ done ++ className :: later) :
    renamed name (done ++ [className]) word =
      (if (renamed name done word).1 = className then name className
        else (renamed name done word).1, word.2) := by
  rcases replaceable.whole known with ⟨same, plain⟩ | ⟨other, absent⟩
  · rw [renamed_of_mem (by simp [same]), plain, if_pos same, same]
  · have differs : (renamed name done word).1 ≠ className := fun same =>
      absent (same ▸ List.infix_rfl)
    rw [if_neg differs]
    simp [renamed, other]

theorem Replaceable.replace {done later : List Text} {className : Text}
    (replaceable : Replaceable (done ++ className :: later) name)
    (separated : Separated (done ++ className :: later) start words) :
    Text.replace className (name className)
        (start ++ Text.spaced (words.map (renamed name done))) =
      start ++ Text.spaced (words.map (renamed name (done ++ [className]))) := by
  have member : className ∈ done ++ className :: later := by simp
  have nonempty := replaceable.nonempty className member
  have apart : ∀ word ∈ (words.map (renamed name done)).dropLast, word.2 ≠ [] := by
    rw [← List.map_dropLast, List.forall_mem_map]
    exact separated.apart
  have foreign : ∀ word ∈ words.map (renamed name done), ∀ c ∈ word.2, c ∉ className := by
    rw [List.forall_mem_map]
    exact fun word inside c after => separated.foreign word inside c after className member
  have whole : ∀ word ∈ words.map (renamed name done),
      word.1 = className ∨ ¬ className <:+: word.1 := by
    rw [List.forall_mem_map]
    intro word inside
    rcases replaceable.whole (separated.known word inside) with ⟨same, plain⟩ | ⟨_, absent⟩
    · exact .inl (by rw [plain, same])
    · exact .inr absent
  rw [Text.replace_append_of_foreign nonempty fun c inside =>
    separated.foreignStart c inside className member]
  rw [Text.replace_spaced nonempty apart foreign whole, List.map_map]
  congr 2
  exact List.map_congr_left fun word inside =>
    (replaceable.renamed_append (separated.known word inside)).symm

/-- Replacing one class after another renames every word once: a name is never taken for a class. -/
theorem Replaceable.foldl_replace {classes : List Text} (replaceable : Replaceable classes name)
    (separated : Separated classes start words) :
    (classes.map fun className => (className, name className)).foldl
        (fun t (className, name) =>
          if className.isEmpty then t else Text.replace className name t)
        (start ++ Text.spaced words) =
      start ++ Text.spaced (words.map fun word => (name word.1, word.2)) := by
  -- over the classes still to be replaced: all words of those done before them are renamed
  suffices ∀ later done : List Text, done ++ later = classes →
      (later.map fun className => (className, name className)).foldl
          (fun t (className, name) =>
            if className.isEmpty then t else Text.replace className name t)
          (start ++ Text.spaced (words.map (renamed name done))) =
        start ++ Text.spaced (words.map (renamed name classes)) by
    have untouched : words.map (renamed name []) = words :=
      List.map_id'' (fun word => by simp [renamed]) words
    have all : words.map (renamed name classes) = words.map fun word => (name word.1, word.2) :=
      List.map_congr_left fun word inside => renamed_of_mem (separated.known word inside)
    rw [← all, ← this classes [] rfl, untouched]
  intro later
  induction later with
  | nil =>
      rintro done rfl
      rw [List.append_nil]
      rfl
  | cons className more ih =>
      rintro done rfl
      have nonempty := replaceable.nonempty className (by simp)
      rw [List.map_cons, List.foldl_cons]
      simp only [List.isEmpty_eq_false_iff.mpr nonempty]
      rw [if_neg Bool.false_ne_true, replaceable.replace separated]
      exact ih (done ++ [className]) (by simp)

/-- Every class of a stylesheet has a name, and in a text of classes with separators between them
exactly the classes are replaced by their names, if no name holds a class other than its own. -/
theorem Renaming.apply_spaced (digest : Digest) (scope css start : Text)
    (words : List (Text × Text))
    (clear : ∀ entry ∈ (renamingBy digest scope css).entries,
      ∀ other ∈ classesOf css, other ≠ entry.1 → ¬ other <:+: entry.2)
    (known : ∀ word ∈ words, word.1 ∈ classesOf css)
    (apart : ∀ word ∈ words.dropLast, word.2 ≠ [])
    (foreignStart : ∀ c ∈ start, ∀ className ∈ classesOf css, c ∉ className)
    (foreign : ∀ word ∈ words, ∀ c ∈ word.2, ∀ className ∈ classesOf css, c ∉ className) :
    ∃ name : Text → Text,
      (∀ className ∈ classesOf css,
        (renamingBy digest scope css).get? className = some (name className)) ∧
      (renamingBy digest scope css).apply (start ++ Text.spaced words) =
        start ++ Text.spaced (words.map fun word => (name word.1, word.2)) := by
  have entry {className : Text} (member : className ∈ classesByLength css) :
      (className, nameOf digest scope css className) ∈ (renamingBy digest scope css).entries := by
    rw [entries_renamingBy]
    exact List.mem_map.mpr ⟨className, member, rfl⟩
  have replaceable : Replaceable (classesByLength css) (nameOf digest scope css) := {
    nonempty := fun className member => ne_nil_of_mem_classesOf (mem_classesByLength.mp member)
    distinct := nodup_classesByLength css
    longestFirst := pairwise_classesByLength css
    clear := by
      intro className member other inside
      have clear := clear _ (entry member) other (mem_classesByLength.mp inside)
      -- the pair is taken apart before the types are compared, which would compute the name
      dsimp only at clear
      exact clear }
  have separated : Separated (classesByLength css) start words := {
    known := fun word member => mem_classesByLength.mpr (known word member)
    apart := apart
    foreignStart := fun c inside className member =>
      foreignStart c inside className (mem_classesByLength.mp member)
    foreign := fun word after c inside className member =>
      foreign word after c inside className (mem_classesByLength.mp member) }
  refine ⟨nameOf digest scope css, fun className => get?_renamingBy digest scope, ?_⟩
  rw [Renaming.apply, entries_renamingBy]
  exact replaceable.foldl_replace separated

/-- Two classes, one of which is part of the other, and a third. -/
def buttonSheet : Text :=
  ".on .button, .btn.on {}".toList

theorem classesOf_buttonSheet :
    classesOf buttonSheet = ["on".toList, "button".toList, "btn".toList] := by decide +kernel

theorem classesByLength_buttonSheet :
    classesByLength buttonSheet = ["button".toList, "btn".toList, "on".toList] := by
  rw [classesByLength, classesOf_buttonSheet]
  simp [List.mergeSort, List.MergeSort.Internal.splitInTwo, Text.byteLength, Char.utf8Size]

def buttonWords : List (Text × Text) :=
  [("button".toList, " ".toList), ("on".toList, " ".toList), ("btn".toList, "-".toList),
    ("on".toList, [])]

/-- The names are made with a digest that gives its bytes from the last to the first. -/
theorem Renaming.apply_spaced_buttonSheet :
    (renamingBy List.reverse "s".toList buttonSheet).apply "<i class='button on btn-on".toList =
      "<i class='_6e6f7474 _6e6f3a73 _6e74623a-_6e6f3a73".toList := by
  have names : (renamingBy List.reverse "s".toList buttonSheet).entries =
      [("button".toList, "_6e6f7474".toList), ("btn".toList, "_6e74623a".toList),
        ("on".toList, "_6e6f3a73".toList)] := by
    rw [entries_renamingBy]
    simp only [nameOf, classesByLength_buttonSheet]
    decide +kernel
  have foreign : ∀ t ∈ "<i class='".toList :: buttonWords.map (·.2),
      ∀ c ∈ t, ∀ className ∈ classesOf buttonSheet, c ∉ className := by
    -- over the characters of a text, as it is not decided over all characters there are
    have all : ∀ t ∈ "<i class='".toList :: buttonWords.map (·.2),
        t.all fun c => (classesOf buttonSheet).all fun className => c ∉ className := by
      rw [classesOf_buttonSheet]
      decide
    simpa only [List.all_eq_true, decide_eq_true_iff] using all
  obtain ⟨name, named, applied⟩ := Renaming.apply_spaced List.reverse "s".toList buttonSheet
    "<i class='".toList buttonWords
    (by rw [names, classesOf_buttonSheet]; decide) (by rw [classesOf_buttonSheet]; decide)
    (by decide) (foreign _ List.mem_cons_self)
    (fun word member => foreign _ (List.mem_cons_of_mem _ (List.mem_map_of_mem member)))
  have lookup {className : Text} (known : className ∈ classesOf buttonSheet) :
      some (name className) = Table.findIn className _ :=
    (named className known).symm.trans (congrArg (Table.findIn className) names)
  have button : name "button".toList = "_6e6f7474".toList :=
    Option.some.inj (lookup (by rw [classesOf_buttonSheet]; decide))
  have btn : name "btn".toList = "_6e74623a".toList :=
    Option.some.inj (lookup (by rw [classesOf_buttonSheet]; decide))
  have on : name "on".toList = "_6e6f3a73".toList :=
    Option.some.inj (lookup (by rw [classesOf_buttonSheet]; decide))
  calc
    (renamingBy List.reverse "s".toList buttonSheet).apply "<i class='button on btn-on".toList =
        (renamingBy List.reverse "s".toList buttonSheet).apply
          ("<i class='".toList ++ Text.spaced buttonWords) := congrArg _ (by decide)
    _ = "<i class='".toList ++ Text.spaced (buttonWords.map fun word => (name word.1, word.2)) :=
      applied
    _ = "<i class='".toList ++ Text.spaced [("_6e6f7474".toList, " ".toList),
          ("_6e6f3a73".toList, " ".toList), ("_6e74623a".toList, "-".toList),
          ("_6e6f3a73".toList, [])] := by
      simp only [buttonWords, List.map_cons, List.map_nil, button, btn, on]
    _ = "<i class='_6e6f7474 _6e6f3a73 _6e74623a-_6e6f3a73".toList := by decide

end Style

end LiveTemplate
