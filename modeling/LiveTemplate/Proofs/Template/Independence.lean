import LiveTemplate.Proofs.Template.Injection
import Mathlib.Algebra.Order.BigOperators.Group.List
import Mathlib.Algebra.Order.Group.Nat

/-! Updates of different variables can be exchanged. A text changes when it mentions a variable that
gets another value and never otherwise, so even the number of writes does not depend on the order. -/

namespace LiveTemplate.Template

open Document

theorem eq_of_flatMap_eq {α : Type} {f g : α → Text} {l : List α}
    (same : l.flatMap f = l.flatMap g) (lengths : ∀ a ∈ l, (f a).length = (g a).length) :
    ∀ a ∈ l, f a = g a := by
  induction l with
  | nil => simp
  | cons a more ih =>
      rw [List.flatMap_cons, List.flatMap_cons] at same
      rcases List.append_inj same (lengths a List.mem_cons_self) with ⟨first, others⟩
      have later := ih others fun b member => lengths b (List.mem_cons_of_mem a member)
      intro b member
      rcases List.mem_cons.mp member with rfl | further
      · exact first
      · exact later b further

section Replaced

variable {α : Type} {f g : α → Text} {l : List α} {new old : Text}

theorem length_flatMap_lt (each : ∀ a ∈ l, f a = g a ∨ f a = new ∧ g a = old)
    (replaced : ∃ a ∈ l, f a = new ∧ g a = old) (shorter : new.length < old.length) :
    (l.flatMap f).length < (l.flatMap g).length := by
  rw [List.length_flatMap, List.length_flatMap]
  apply List.sum_lt_sum
  · intro a member
    rcases each a member with kept | ⟨now, was⟩
    · rw [kept]
    · rw [now, was]
      exact Nat.le_of_lt shorter
  · rcases replaced with ⟨a, member, now, was⟩
    exact ⟨a, member, by rwa [now, was]⟩

/-- Putting one text in the place of another, however often, makes a different text: it has another
length, or it differs at the first of the places. -/
theorem flatMap_ne (each : ∀ a ∈ l, f a = g a ∨ f a = new ∧ g a = old)
    (replaced : ∃ a ∈ l, f a = new ∧ g a = old) (apart : new ≠ old) :
    l.flatMap f ≠ l.flatMap g := by
  intro same
  rcases Nat.lt_trichotomy new.length old.length with shorter | level | longer
  · exact Nat.ne_of_lt (length_flatMap_lt each replaced shorter) (congrArg List.length same)
  · have lengths : ∀ a ∈ l, (f a).length = (g a).length := by
      intro a member
      rcases each a member with kept | ⟨now, was⟩
      · rw [kept]
      · rw [now, was, level]
    rcases replaced with ⟨a, member, now, was⟩
    exact apart (now.symm.trans ((eq_of_flatMap_eq same lengths a member).trans was))
  · have back : ∀ a ∈ l, g a = f a ∨ g a = old ∧ f a = new :=
      fun a member => (each a member).imp Eq.symm And.symm
    rcases replaced with ⟨a, member, now, was⟩
    exact Nat.ne_of_gt (length_flatMap_lt back ⟨a, member, was, now⟩ longer)
      (congrArg List.length same)

end Replaced

def Mentions (nameCase : NameCase) (pattern name : Text) : Prop :=
  ∃ source ∈ placeholderNames pattern, nameCase.normalize source = nameCase.normalize name

instance (nameCase : NameCase) (pattern name : Text) : Decidable (Mentions nameCase pattern name) :=
  inferInstanceAs (Decidable (∃ source ∈ placeholderNames pattern, _))

theorem filled_eq_iff {value : Text → Text} {changes : Text → Prop} [DecidablePred changes]
    {old new pattern : Text} (held : ∀ name, changes name → value name = old) :
    filled (fun name => if changes name then new else value name) pattern = filled value pattern ↔
      new = old ∨ ∀ name ∈ placeholderNames pattern, ¬ changes name := by
  constructor
  · intro same
    by_contra differs
    simp only [not_or, not_forall, not_not] at differs
    rcases differs with ⟨apart, name, member, change⟩
    refine flatMap_ne ?_ ⟨_, mem_placeholderNames_iff.mp member, if_pos change, held name change⟩
      apart same
    intro part _
    cases part with
    | literal content => exact .inl rfl
    | placeholder name =>
        by_cases change : changes name
        · exact .inr ⟨if_pos change, held name change⟩
        · exact .inl (if_neg change)
  · intro unseen
    apply filled_congr
    intro name member
    by_cases change : changes name
    · rcases unseen with same | unnamed
      · rw [if_pos change, same, held name change]
      · exact absurd change (unnamed name member)
    · exact if_neg change

namespace Tracker

variable {k first second : Tracker} {name other value given : Text}

theorem valueOf_congr (same : k.nameCase.normalize name = k.nameCase.normalize other) :
    k.valueOf name = k.valueOf other := by
  rw [valueOf, valueOf, get?, get?, same]

theorem filled_set?_iff (stored : k.set? name value = some first) (pattern : Text) :
    filled first.valueOf pattern = filled k.valueOf pattern ↔
      k.valueOf name = value ∨ ¬ Mentions k.nameCase pattern name := by
  have values : first.valueOf = fun source =>
      if k.nameCase.normalize source = k.nameCase.normalize name then value
      else k.valueOf source := by
    funext source
    rw [valueOf_set? stored]
    simp only [eq_comm]
  have held : ∀ source, k.nameCase.normalize source = k.nameCase.normalize name →
      k.valueOf source = k.valueOf name := fun source same => valueOf_congr same
  rw [values, filled_eq_iff held, Mentions, eq_comm]
  simp only [not_exists, not_and]

theorem set?_comm (stored : k.set? name value = some first) (put : k.set? other given = some second)
    (apart : k.nameCase.normalize name ≠ k.nameCase.normalize other) :
    ∃ both, first.set? other given = some both ∧ second.set? name value = some both := by
  rcases eq_of_set? stored with ⟨v, found, rfl⟩
  rcases eq_of_set? put with ⟨w, read, rfl⟩
  rw [get?] at found read
  have known : k.nameCase.normalize name ∈ k.vars.keys :=
    (k.vars.mem_keys_iff _).mpr (Option.isSome_of_eq_some found)
  refine ⟨_, by rw [set?, get?, Table.get?_insert, if_neg apart, read, Option.map_some], ?_⟩
  rw [set?, get?, Table.get?_insert, if_neg apart.symm, found, Option.map_some,
    Table.insert_comm _ known apart]

/-- Two ways to the same values end in the same document if they take the same number of writes. -/
theorem Rendered.document_eq {l : List TrackedText} {d left right last other : Document}
    {m n i j : Nat} (start : Rendered first l d left m) (finish : Rendered k l left last n)
    (depart : Rendered second l d right i) (arrive : Rendered k l right other j)
    (writes : m + n = i + j) : last = other := by
  apply eq_of_views
  · intro id
    by_cases listed : id ∈ l.map (·.node)
    · rcases List.mem_map.mp listed with ⟨t, member, rfl⟩
      rw [text?_eq_some_iff.mp (finish.text t member), text?_eq_some_iff.mp (arrive.text t member)]
    · rw [finish.content id listed, start.content id listed, arrive.content id listed,
        depart.content id listed]
  · intro id
    rw [finish.parent, start.parent, arrive.parent, depart.parent]
  · intro id
    rw [finish.children, start.children, arrive.children, depart.children]
  · rw [finish.textWrites, start.textWrites, arrive.textWrites, depart.textWrites, Nat.add_assoc,
      Nat.add_assoc, writes]

end Tracker

namespace Component

variable {nameCase : NameCase} {texts : List TrackedText} {stores : List (Text × Text)}
  {c : Component} {name other value given : Text}

theorem perform_update_of_set? {k : Tracker} (stored : c.tracker.set? name value = some k) :
    c.perform (.update name value) = (Component.refresh { c with tracker := k }).1 := by
  rw [perform, attempt, update, stored]

theorem perform_update_of_refused (refused : c.tracker.set? name value = none) :
    c.perform (.update name value) = c := by
  rw [perform, attempt, update, refused]

theorem perform_update_congr
    (same : c.tracker.nameCase.normalize name = c.tracker.nameCase.normalize other) :
    c.perform (.update name value) = c.perform (.update other value) := by
  have alike : c.tracker.set? name value = c.tracker.set? other value := by
    rw [Tracker.set?, Tracker.set?, Tracker.get?, Tracker.get?, same]
  cases stored : c.tracker.set? name value with
  | none => rw [perform_update_of_refused stored, perform_update_of_refused (alike ▸ stored)]
  | some k => rw [perform_update_of_set? stored, perform_update_of_set? (alike ▸ stored)]

theorem contains_perform_update (c : Component) (name value source : Text) :
    (c.perform (.update name value)).tracker.contains source = c.tracker.contains source := by
  cases stored : c.tracker.set? name value with
  | none => rw [perform_update_of_refused stored]
  | some k =>
      rw [perform_update_of_set? stored]
      exact Tracker.contains_set? stored source

theorem Tracks.text?_ne_render_iff {k : Tracker} {t : TrackedText}
    (tracks : Tracks nameCase texts stores c) (shown : c.Shows texts (lastStored nameCase stores))
    (stored : c.tracker.set? name value = some k) (tracked : t ∈ texts) :
    c.document.text? t.node ≠ some (k.render t) ↔
      c.tracker.valueOf name ≠ value ∧ Mentions nameCase t.pattern name := by
  have set := tracks.set stored
  have rendered : k.render t = filled k.valueOf t.pattern := by
    rw [set.values]
    exact set.render tracked
  rw [shown t tracked, ← tracks.values, rendered, ne_eq, Option.some_inj, eq_comm,
    Tracker.filled_set?_iff stored, tracks.sameCase, not_or, not_not]

theorem Tracks.writes_set {k : Tracker} (tracks : Tracks nameCase texts stores c)
    (shown : c.Shows texts (lastStored nameCase stores))
    (stored : c.tracker.set? name value = some k) :
    (Component.refresh { c with tracker := k }).2 = if c.tracker.valueOf name = value then 0
      else texts.countP fun t => Mentions nameCase t.pattern name := by
  rw [(tracks.set stored).rendered.differing]
  split
  · rename_i same
    apply List.countP_eq_zero.mpr
    intro t tracked
    simp [tracks.text?_ne_render_iff shown stored tracked, same]
  · rename_i differs
    apply List.countP_congr
    intro t tracked
    simp [tracks.text?_ne_render_iff shown stored tracked, differs]

/-- Updates of two different variables that are both there: each of them writes as often after the
other as before it. -/
theorem Tracks.perform_update_comm_of_set? {first second : Tracker}
    (tracks : Tracks nameCase texts stores c) (shown : c.Shows texts (lastStored nameCase stores))
    (apart : nameCase.normalize name ≠ nameCase.normalize other)
    (stored : c.tracker.set? name value = some first)
    (put : c.tracker.set? other given = some second) :
    (c.perform (.update name value)).perform (.update other given) =
      (c.perform (.update other given)).perform (.update name value) := by
  rw [← tracks.sameCase] at apart
  rcases Tracker.set?_comm stored put apart with ⟨both, further, back⟩
  let left := (Component.refresh { c with tracker := first }).1
  let right := (Component.refresh { c with tracker := second }).1
  have tracksLeft : Tracks nameCase texts _ left := (tracks.set stored).refresh
  have tracksRight : Tracks nameCase texts _ right := (tracks.set put).refresh
  have valueOther : left.tracker.valueOf other = c.tracker.valueOf other :=
    (Tracker.valueOf_set? stored other).trans (if_neg apart)
  have valueName : right.tracker.valueOf name = c.tracker.valueOf name :=
    (Tracker.valueOf_set? put name).trans (if_neg apart.symm)
  -- each update finds the value that it would have found first, so it writes as often
  have writes : (Component.refresh { c with tracker := first }).2 +
        (Component.refresh { left with tracker := both }).2 =
      (Component.refresh { c with tracker := second }).2 +
        (Component.refresh { right with tracker := both }).2 := by
    rw [tracks.writes_set shown stored, tracks.writes_set shown put,
      tracksLeft.writes_set (tracks.set stored).shows_refresh further,
      tracksRight.writes_set (tracks.set put).shows_refresh back, valueOther, valueName,
      Nat.add_comm]
  have same := (tracks.set stored).rendered.document_eq (tracksLeft.set further).rendered
    (tracks.set put).rendered (tracksRight.set back).rendered writes
  calc
    (c.perform (.update name value)).perform (.update other given) =
        left.perform (.update other given) := by rw [perform_update_of_set? stored]
    _ = (Component.refresh { left with tracker := both }).1 := perform_update_of_set? further
    _ = (Component.refresh { right with tracker := both }).1 :=
      congrArg (fun document => { c with document, tracker := both }) same
    _ = right.perform (.update name value) := (perform_update_of_set? back).symm
    _ = (c.perform (.update other given)).perform (.update name value) := by
      rw [perform_update_of_set? put]

theorem Tracks.perform_update_comm (tracks : Tracks nameCase texts stores c)
    (shown : c.Shows texts (lastStored nameCase stores))
    (apart : nameCase.normalize name ≠ nameCase.normalize other) (value given : Text) :
    (c.perform (.update name value)).perform (.update other given) =
      (c.perform (.update other given)).perform (.update name value) := by
  cases stored : c.tracker.set? name value with
  | none =>
      have still : (c.perform (.update other given)).tracker.set? name value = none := by
        rw [Tracker.set?_eq_none_iff] at stored ⊢
        rwa [contains_perform_update]
      rw [perform_update_of_refused stored, perform_update_of_refused still]
  | some first =>
      cases put : c.tracker.set? other given with
      | none =>
          have still : (c.perform (.update name value)).tracker.set? other given = none := by
            rw [Tracker.set?_eq_none_iff] at put ⊢
            rwa [contains_perform_update]
          rw [perform_update_of_refused put, perform_update_of_refused still]
      | some second => exact tracks.perform_update_comm_of_set? shown apart stored put

/-- The values that a variable is given, in their order. -/
def valuesUnder (nameCase : NameCase) (key : Text) (stores : List (Text × Text)) : List Text :=
  (stores.filter fun store => nameCase.normalize store.1 = key).map (·.2)

def updates (stores : List (Text × Text)) : List Step :=
  stores.map fun store => .update store.1 store.2

/-- The first update of a variable can be done before all updates of other variables. -/
theorem Tracks.run_updates_front {before : List (Text × Text)} (after : List (Text × Text))
    (tracks : Tracks nameCase texts stores c) (shown : c.Shows texts (lastStored nameCase stores))
    (others : ∀ store ∈ before, nameCase.normalize store.1 ≠ nameCase.normalize name) :
    c.run (updates (before ++ (name, value) :: after)) =
      (c.perform (.update name value)).run (updates (before ++ after)) := by
  induction before generalizing c stores with
  | nil => rfl
  | cons store more ih =>
      rcases store with ⟨other, given⟩
      have first := others _ List.mem_cons_self
      have rest : ∀ store ∈ more, nameCase.normalize store.1 ≠ nameCase.normalize name :=
        fun store member => others store (List.mem_cons_of_mem _ member)
      calc
        c.run (updates ((other, given) :: more ++ (name, value) :: after)) =
            (c.perform (.update other given)).run (updates (more ++ (name, value) :: after)) := rfl
        _ = ((c.perform (.update other given)).perform (.update name value)).run
              (updates (more ++ after)) :=
          ih (tracks.perform _) (tracks.shows_perform shown rfl) rest
        _ = ((c.perform (.update name value)).perform (.update other given)).run
              (updates (more ++ after)) := by
          rw [tracks.perform_update_comm shown first]
        _ = (c.perform (.update name value)).run (updates ((other, given) :: more ++ after)) := rfl

theorem exists_of_valuesUnder {key : Text} {l : List (Text × Text)} {more : List Text}
    (same : valuesUnder nameCase key l = value :: more) :
    ∃ before other after, l = before ++ (other, value) :: after ∧ nameCase.normalize other = key ∧
      ∀ store ∈ before, nameCase.normalize store.1 ≠ key := by
  rcases List.map_eq_cons_iff.mp same with ⟨⟨other, _⟩, rest, kept, rfl, _⟩
  rcases List.filter_eq_cons_iff.mp kept with ⟨before, after, rfl, unnamed, named, _⟩
  exact ⟨before, other, after, rfl, by simpa using named, by simpa using unnamed⟩

theorem Tracks.run_updates_eq {first second : List (Text × Text)}
    (tracks : Tracks nameCase texts stores c) (shown : c.Shows texts (lastStored nameCase stores))
    (same : ∀ key, valuesUnder nameCase key first = valuesUnder nameCase key second) :
    c.run (updates first) = c.run (updates second) := by
  induction first generalizing c stores second with
  | nil =>
      cases second with
      | nil => rfl
      | cons store more => simpa [valuesUnder] using same (nameCase.normalize store.1)
  | cons store more ih =>
      rcases store with ⟨name, value⟩
      have given : valuesUnder nameCase (nameCase.normalize name) second =
          value :: valuesUnder nameCase (nameCase.normalize name) more := by
        rw [← same]
        simp [valuesUnder]
      -- what comes before the first value for this variable is for others, and can be passed
      rcases exists_of_valuesUnder given with ⟨before, other, after, rfl, named, unnamed⟩
      have rest : ∀ key, valuesUnder nameCase key more = valuesUnder nameCase key (before ++ after) := by
        intro key
        have here := same key
        by_cases own : nameCase.normalize name = key
        · have unseen : before.filter (fun store => nameCase.normalize store.1 = key) = [] := by
            simpa [own] using unnamed
          simpa [valuesUnder, own, named, unseen] using here
        · simpa [valuesUnder, own, named] using here
      calc
        c.run (updates ((name, value) :: more)) =
            (c.perform (.update name value)).run (updates more) := rfl
        _ = (c.perform (.update name value)).run (updates (before ++ after)) :=
          ih (tracks.perform _) (tracks.shows_perform shown rfl) rest
        _ = (c.perform (.update other value)).run (updates (before ++ after)) := by
          rw [perform_update_congr]
          rw [tracks.sameCase, named]
        _ = c.run (updates (before ++ (other, value) :: after)) :=
          (tracks.run_updates_front after shown (by rwa [named])).symm

/-- After any run of updates, two sequences of updates that give each variable the same values in the
same order lead to the same component: to the same values, the same document with the same texts and
the same number of writes, and hence to the same markup and plain text. -/
theorem run_updates_eq_of_valuesUnder_eq {template : Text} {o : Options}
    (built : build template o = .ok c) {steps : List Step} (all : ∀ s ∈ steps, s.renders)
    {first second : List (Text × Text)}
    (same : ∀ key, valuesUnder o.nameCase key first = valuesUnder o.nameCase key second) :
    (c.run steps).run (updates first) = (c.run steps).run (updates second) := by
  rcases tracks_build built with ⟨_, _, _, _, start, shown, _⟩
  have shows := (start.run_of_renders shown all).2.2
  exact (start.run steps).run_updates_eq shows same

theorem run_updates_eq_of_valuesUnder_eq_pair : ∃ c,
    build "<p>{{a}}{{B}}</p>".toList { nameCase := .insensitive } = .ok c ∧
      (c.run [.update "b".toList "2".toList]).run (updates [("a".toList, "2".toList),
          ("x".toList, "0".toList), ("b".toList, []), ("A".toList, "1".toList)]) =
        (c.run [.update "b".toList "2".toList]).run (updates [("B".toList, []),
          ("A".toList, "2".toList), ("a".toList, "1".toList), ("x".toList, "0".toList)]) := by
  have succeeds : (build "<p>{{a}}{{B}}</p>".toList
      { nameCase := .insensitive }).toOption.isSome := by decide +kernel
  rcases Option.isSome_iff_exists.mp succeeds with ⟨c, built⟩
  refine ⟨c, eq_ok_of_toOption built, ?_⟩
  apply run_updates_eq_of_valuesUnder_eq (eq_ok_of_toOption built)
  · simp [Step.renders]
  · intro key
    have upperA : NameCase.insensitive.normalize "A".toList = "a".toList := by decide
    have upperB : NameCase.insensitive.normalize "B".toList = "b".toList := by decide
    have lowerA : NameCase.insensitive.normalize "a".toList = "a".toList := by decide
    have lowerB : NameCase.insensitive.normalize "b".toList = "b".toList := by decide
    have lowerX : NameCase.insensitive.normalize "x".toList = "x".toList := by decide
    simp only [valuesUnder, List.filter_cons, List.filter_nil, upperA, upperB, lowerA, lowerB,
      lowerX]
    by_cases a : "a".toList = key
    · subst a
      decide
    · by_cases b : "b".toList = key
      · subst b
        decide
      · simp only [a, b, decide_false, Bool.false_eq_true, if_false]

end Component

end LiveTemplate.Template
