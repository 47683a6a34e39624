import LiveTemplate.Markup.Node
import Mathlib.Data.List.Basic
import Mathlib.Data.List.Induction
import Mathlib.Data.Nat.Find

/-! The attributes of an element, read off the history of what was done to them: every name is there
once and has the value that it was given last, and the names stand in the order in which they came,
a name that was taken away and came back being new. -/

namespace LiveTemplate.Markup

/-- What is done to attributes. A value is given to a name in one way, whether the attributes are
being built up or belong to an element already. -/
inductive Change where
  | insert (name value : Text)
  | remove (name : Text)

namespace Change

def name : Change → Text
  | .insert name _ => name
  | .remove name => name

def apply (attributes : Attributes) : Change → Attributes
  | .insert name value => attributes.insert name value
  | .remove name => (attributes.extract name).2

end Change

def Attributes.after (history : List Change) : Attributes :=
  history.foldl Change.apply {}

variable {history : List Change} {change : Change} {attributes : Attributes}
  {name given value : Text} {place : Nat}

def LastGiven (history : List Change) (name value : Text) : Prop :=
  ∃ before after, history = before ++ .insert name value :: after ∧
    ∀ change ∈ after, change.name ≠ name

/-- A name is given a value at a place of the history and is not taken away after it. -/
def Stands (history : List Change) (name : Text) (place : Nat) : Prop :=
  ∃ before value after, history = before ++ .insert name value :: after ∧ before.length = place ∧
    .remove name ∉ after

/-- The first place at which a name is given a value since it was last taken away. -/
structure AddedAt (history : List Change) (name : Text) (place : Nat) : Prop where
  stands : Stands history name place
  first : ∀ earlier < place, ¬ Stands history name earlier

theorem concat_eq_append_cons_iff {α : Type} {l before after : List α} {last a : α} :
    l ++ [last] = before ++ a :: after ↔
      (l = before ∧ last = a ∧ after = []) ∨
        ∃ more, after = more ++ [last] ∧ l = before ++ a :: more := by
  constructor
  · intro split
    rcases List.eq_nil_or_concat' after with rfl | ⟨more, other, rfl⟩
    · obtain ⟨same, new⟩ := List.append_inj' split rfl
      exact .inl ⟨same, (List.cons.inj new).1, rfl⟩
    · rw [← List.cons_append, ← List.append_assoc] at split
      obtain ⟨same, new⟩ := List.append_inj' split rfl
      exact .inr ⟨more, by rw [(List.cons.inj new).1], same⟩
  · rintro (⟨rfl, rfl, rfl⟩ | ⟨more, rfl, rfl⟩)
    · rfl
    · rw [List.append_assoc, List.cons_append]

theorem lastGiven_concat : LastGiven (history ++ [change]) name value ↔
    change = .insert name value ∨ change.name ≠ name ∧ LastGiven history name value := by
  constructor
  · rintro ⟨before, after, split, others⟩
    rcases concat_eq_append_cons_iff.mp split with ⟨-, new, -⟩ | ⟨more, rfl, old⟩
    · exact .inl new
    · exact .inr ⟨others change (by simp), before, more, old,
        fun other member => others other (List.mem_append_left _ member)⟩
  · rintro (rfl | ⟨other, before, after, rfl, others⟩)
    · exact ⟨history, [], rfl, nofun⟩
    · refine ⟨before, after ++ [change], by simp, fun last member => ?_⟩
      rcases List.mem_append.mp member with inside | new
      · exact others last inside
      · rwa [List.mem_singleton.mp new]

theorem stands_concat : Stands (history ++ [change]) name place ↔
    (change ≠ .remove name ∧ Stands history name place) ∨
      (∃ value, change = .insert name value) ∧ place = history.length := by
  constructor
  · rintro ⟨before, value, after, split, long, kept⟩
    rcases concat_eq_append_cons_iff.mp split with ⟨rfl, new, -⟩ | ⟨more, rfl, old⟩
    · exact .inr ⟨⟨value, new⟩, long.symm⟩
    · rw [List.mem_append, not_or, List.mem_singleton] at kept
      exact .inl ⟨Ne.symm kept.2, before, value, more, old, long, kept.1⟩
  · rintro (⟨other, before, value, after, rfl, long, kept⟩ | ⟨⟨value, rfl⟩, rfl⟩)
    · refine ⟨before, value, after ++ [change], by simp, long, ?_⟩
      rw [List.mem_append, not_or, List.mem_singleton]
      exact ⟨kept, Ne.symm other⟩
    · exact ⟨history, value, [], rfl, rfl, nofun⟩

theorem Stands.lt_length (stands : Stands history name place) : place < history.length := by
  obtain ⟨before, value, after, rfl, rfl, -⟩ := stands
  simp

theorem exists_addedAt_iff :
    (∃ place, AddedAt history name place) ↔ ∃ place, Stands history name place := by
  classical
  refine ⟨fun ⟨place, added⟩ => ⟨place, added.stands⟩, fun placed => ?_⟩
  exact ⟨Nat.find placed, Nat.find_spec placed, fun _ => Nat.find_min placed⟩

theorem stands_insert : Stands (history ++ [.insert given value]) name place ↔
    Stands history name place ∨ given = name ∧ place = history.length := by
  simp [stands_concat]

theorem stands_remove : Stands (history ++ [.remove given]) name place ↔
    given ≠ name ∧ Stands history name place := by
  simp [stands_concat]

/-- A name that stands already keeps the place at which it was added. -/
theorem addedAt_insert : AddedAt (history ++ [.insert given value]) name place ↔
    AddedAt history name place ∨
      given = name ∧ place = history.length ∧ ∀ earlier, ¬ Stands history name earlier := by
  constructor
  · rintro ⟨stands, first⟩
    simp only [stands_insert, not_or] at stands first
    rcases stands with old | ⟨same, rfl⟩
    · exact .inl ⟨old, fun earlier before => (first earlier before).1⟩
    · exact .inr ⟨same, rfl, fun earlier old => (first earlier old.lt_length).1 old⟩
  · rintro (⟨old, first⟩ | ⟨same, rfl, fresh⟩)
    · refine ⟨stands_insert.mpr (.inl old), fun earlier before => ?_⟩
      rw [stands_insert, not_or]
      exact ⟨first earlier before, fun new =>
        Nat.lt_irrefl _ (new.2 ▸ Nat.lt_trans before old.lt_length)⟩
    · refine ⟨stands_insert.mpr (.inr ⟨same, rfl⟩), fun earlier before => ?_⟩
      rw [stands_insert, not_or]
      exact ⟨fresh earlier, fun new => Nat.ne_of_lt before new.2⟩

theorem addedAt_remove : AddedAt (history ++ [.remove given]) name place ↔
    given ≠ name ∧ AddedAt history name place := by
  constructor
  · rintro ⟨stands, first⟩
    simp only [stands_remove] at stands first
    exact ⟨stands.1, stands.2, fun earlier before old => first earlier before ⟨stands.1, old⟩⟩
  · rintro ⟨other, stands, first⟩
    exact ⟨stands_remove.mpr ⟨other, stands⟩, fun earlier before again =>
      first earlier before (stands_remove.mp again).2⟩

structure Follows (history : List Change) (attributes : Attributes) : Prop where
  distinct : attributes.keys.Nodup
  values : ∀ name value, attributes.get? name = some value ↔ LastGiven history name value
  present : ∀ name, name ∈ attributes.keys ↔ ∃ place, Stands history name place
  ordered : attributes.keys.Pairwise fun name other => ∀ place later,
    AddedAt history name place → AddedAt history other later → place < later

theorem follows_nil : Follows [] {} where
  distinct := List.nodup_nil
  values name value := by simp [Table.get?, Table.findIn, LastGiven]
  present name := by simp [Stands, Table.keys]
  ordered := List.Pairwise.nil

theorem Follows.addedAt_of_insert (follows : Follows history attributes)
    (known : name ∈ attributes.keys)
    (added : AddedAt (history ++ [.insert given value]) name place) :
    AddedAt history name place := by
  obtain ⟨earlier, stands⟩ := (follows.present name).mp known
  rcases addedAt_insert.mp added with old | ⟨-, -, fresh⟩
  · exact old
  · exact absurd stands (fresh earlier)

theorem Follows.insert (follows : Follows history attributes) (given value : Text) :
    Follows (history ++ [.insert given value]) (attributes.insert given value) where
  distinct := Table.nodup_keys_insert follows.distinct given value
  values name last := by
    rw [Table.get?_insert, lastGiven_concat, ← follows.values]
    by_cases same : given = name <;> simp [Change.name, same]
  present name := by
    rw [Table.mem_keys_insert, follows.present]
    simp [stands_insert, exists_or]
  ordered := by
    have old : attributes.keys.Pairwise fun name other => ∀ place later,
        AddedAt (history ++ [.insert given value]) name place →
        AddedAt (history ++ [.insert given value]) other later → place < later :=
      follows.ordered.imp_of_mem fun known otherKnown ordered place later added otherAdded =>
        ordered place later (follows.addedAt_of_insert known added)
          (follows.addedAt_of_insert otherKnown otherAdded)
    rw [Table.keys_insert]
    split
    · exact old
    · rename_i fresh
      refine List.pairwise_append.mpr ⟨old, List.pairwise_singleton _ _, ?_⟩
      intro name known other new place later added otherAdded
      obtain rfl := List.mem_singleton.mp new
      rcases addedAt_insert.mp otherAdded with before | ⟨-, rfl, -⟩
      · exact absurd ((follows.present other).mpr ⟨later, before.stands⟩) fresh
      · exact (follows.addedAt_of_insert known added).stands.lt_length

theorem Follows.remove (follows : Follows history attributes) (given : Text) :
    Follows (history ++ [.remove given]) (attributes.extract given).2 := by
  rw [Table.extract_eq]
  exact {
    distinct := Table.nodup_keys_remove follows.distinct given
    values := by
      intro name last
      rw [Table.get?_remove follows.distinct, lastGiven_concat, ← follows.values]
      by_cases same : given = name <;> simp [Change.name, same]
    present := by
      intro name
      rw [Table.keys_remove follows.distinct, List.mem_filter, follows.present, and_comm]
      simp only [decide_eq_true_iff, stands_remove, exists_and_left, ne_comm]
    ordered := by
      rw [Table.keys_remove follows.distinct]
      exact (follows.ordered.filter _).imp fun ordered place later added otherAdded =>
        ordered place later (addedAt_remove.mp added).2 (addedAt_remove.mp otherAdded).2 }

theorem follows_after (history : List Change) : Follows history (Attributes.after history) := by
  induction history using List.reverseRecOn with
  | nil => exact follows_nil
  | append_singleton history change ih =>
      rw [Attributes.after, List.foldl_append, List.foldl_cons, List.foldl_nil]
      cases change with
      | insert name value => exact ih.insert name value
      | remove name => exact ih.remove name

/-- After any changes, each name is there once, with the value that it was given last; the names
stand in the order in which they were added, a name that is given another value staying where it is;
and taking a name away gives the value that it had and leaves all the others as they are. -/
theorem Attributes.after_in_order (history : List Change) :
    (after history).keys.Nodup ∧
      (∀ name value, (after history).get? name = some value ↔ LastGiven history name value) ∧
      (∀ name value, (name, value) ∈ (after history).entries ↔
        (after history).get? name = some value) ∧
      (∀ name, name ∈ (after history).keys ↔ ∃ place, AddedAt history name place) ∧
      ((after history).keys.Pairwise fun name other => ∀ place later,
        AddedAt history name place → AddedAt history other later → place < later) ∧
      ∀ name, ((after history).extract name).1 = (after history).get? name ∧
        ((after history).extract name).2.entries = (after history).entries.filter (·.1 ≠ name) := by
  have follows := follows_after history
  have added (name : Text) : name ∈ (after history).keys ↔ ∃ place, AddedAt history name place :=
    (follows.present name).trans exists_addedAt_iff.symm
  refine ⟨follows.distinct, follows.values, fun _ _ => Table.mem_entries_iff follows.distinct,
    added, follows.ordered, fun name => ?_⟩
  rw [Table.extract_eq]
  exact ⟨rfl, Table.entries_remove follows.distinct name⟩

/-- A value that is replaced stays in its place, and a name that comes back comes last. -/
example : (Attributes.after [.insert "id".toList "a".toList, .insert "class".toList "x".toList,
    .insert "id".toList "b".toList, .insert "title".toList "t".toList, .remove "class".toList,
    .insert "class".toList "y".toList]).entries =
      [("id".toList, "b".toList), ("title".toList, "t".toList), ("class".toList, "y".toList)] := by
  decide

end LiveTemplate.Markup
