import LiveTemplate.Proofs.Template.Independence
import LiveTemplate.Proofs.Template.Indexing

/-! Several values given at once. An unknown name refuses all of them before the first is stored;
otherwise one rendering at the end leaves what a rendering after each value would leave, in no more
writes. -/

namespace LiveTemplate.Template

open Document

/-- Values that differ in the end have come to differ before some middle state or after it. -/
theorem countP_ne_triangle {α β : Type} [DecidableEq β] (f g h : α → β) (l : List α) :
    l.countP (fun a => f a ≠ h a) ≤ l.countP (fun a => f a ≠ g a) + l.countP fun a => g a ≠ h a := by
  induction l with
  | nil => simp
  | cons a more ih =>
      simp only [List.countP_cons, decide_eq_true_eq]
      by_cases early : f a = g a
      · rw [early]
        omega
      · rw [if_pos early]
        split <;> split <;> omega

namespace Tracker

theorem setAll_of_unknown {k : Tracker} {stores : List (Text × Text)} {name : Text}
    (known : ∀ store ∈ stores, k.contains store.1) (unknown : k.contains name = false)
    (value : Text) (more : List (Text × Text)) :
    k.setAll (stores ++ (name, value) :: more) =
      (k.given stores, .error (.invalidVariable name)) := by
  have refused : (k.given stores).set? name value = none := by
    rw [set?_eq_none_iff, contains_given, unknown]
  rw [setAll_append known, setAll, refused]

end Tracker

namespace Component

variable {nameCase : NameCase} {texts : List TrackedText} {stores values : List (Text × Text)}
  {c : Component} {name value : Text} {s : Step} {steps : List Step}

/-- Updates one after another, up to the first that is refused. -/
def updateEach (c : Component) : List (Text × Text) → Component × Except Error Unit
  | [] => (c, .ok ())
  | (name, value) :: more =>
    match c.update name value with
    | (next, .ok ()) => next.updateEach more
    | (next, .error cause) => (next, .error cause)

theorem update_eq (c : Component) (name value : Text) : c.update name value =
    if c.tracker.contains name then (c.perform (.update name value), .ok ())
    else (c, .error (.invalidVariable name)) := by
  cases stored : c.tracker.set? name value with
  | none =>
      have unknown := Tracker.set?_eq_none_iff.mp stored
      rw [update, stored, unknown]
      rfl
  | some k =>
      have known := Tracker.set?_isSome_iff.mp (Option.isSome_of_eq_some stored)
      rw [update, stored, if_pos known, perform_update_of_set? stored]

theorem updateEach_of_known (known : ∀ store ∈ values, c.tracker.contains store.1) :
    c.updateEach values = (c.run (updates values), .ok ()) := by
  induction values generalizing c with
  | nil => rfl
  | cons store more ih =>
      rcases store with ⟨name, value⟩
      rcases List.forall_mem_cons.mp known with ⟨first, others⟩
      have still : ∀ store ∈ more, (c.perform (.update name value)).tracker.contains store.1 := by
        simpa only [contains_perform_update] using others
      rw [updateEach, update_eq, if_pos first]
      exact ih still

theorem perform?_update (known : c.tracker.contains name) (value : Text) :
    c.perform? (.update name value) = some (c.perform (.update name value)) := by
  rw [perform?_eq_some_iff, attempt, update_eq, if_pos known]

theorem renders_of_mem_updates (member : s ∈ updates values) : s.renders := by
  rcases List.mem_map.mp member with ⟨store, _, rfl⟩
  rfl

theorem stored_updates (known : ∀ store ∈ values, c.tracker.contains store.1) :
    c.stored (updates values) = values := by
  induction values generalizing c with
  | nil => rfl
  | cons store more ih =>
      rcases store with ⟨name, value⟩
      rcases List.forall_mem_cons.mp known with ⟨first, others⟩
      have done : (c.perform? (.update name value)).isSome :=
        Option.isSome_of_eq_some (perform?_update first value)
      have rest : (c.perform (.update name value)).stored (updates more) = more :=
        ih (by simpa only [contains_perform_update] using others)
      calc
        c.stored (updates ((name, value) :: more)) =
            (if (c.perform? (.update name value)).isSome then [(name, value)] else []) ++
              (c.perform (.update name value)).stored (updates more) := rfl
        _ = (name, value) :: more := by rw [if_pos done, rest, List.singleton_append]

theorem updateAll_of_unknown {before : List (Text × Text)}
    (known : ∀ store ∈ before, c.tracker.contains store.1)
    (unknown : c.tracker.contains name = false) (value : Text) (after : List (Text × Text)) :
    c.updateAll (before ++ (name, value) :: after) = (c, .error (.invalidVariable name)) := by
  have first : ((before ++ (name, value) :: after).find? fun store => !c.tracker.contains store.1) =
      some (name, value) :=
    List.find?_eq_some_iff_append.mpr
      ⟨by simp [unknown], before, after, rfl, fun store member => by simp [known store member]⟩
  rw [updateAll, first]

theorem Tracks.textWrites_perform (tracks : Tracks nameCase texts stores c) (renders : s.renders) :
    (c.perform s).document.textWrites = c.document.textWrites + texts.countP fun t =>
      c.document.text? t.node ≠ (c.perform s).document.text? t.node := by
  rcases c.perform_cases s with ⟨next, done, same⟩ | ⟨_, same⟩
  · rcases eq_refresh_of_perform? renders done with ⟨k, rfl, kept⟩
    have rendered := (kept tracks).rendered
    rw [same, rendered.textWrites, rendered.differing]
    congr 1
    refine List.countP_congr fun t tracked => ?_
    rw [rendered.text t tracked]
  · simp [same]

/-- A text that is not in the end what it was at first has been written on the way. -/
theorem Tracks.textWrites_run_ge (tracks : Tracks nameCase texts stores c)
    (renders : ∀ s ∈ steps, s.renders) :
    c.document.textWrites + texts.countP (fun t =>
      c.document.text? t.node ≠ (c.run steps).document.text? t.node) ≤
        (c.run steps).document.textWrites := by
  induction steps generalizing c stores with
  | nil => simp
  | cons s more ih =>
      let middle := c.perform s
      have first : middle.document.textWrites = _ :=
        tracks.textWrites_perform (renders s List.mem_cons_self)
      have rest := ih (tracks.perform s) fun s member => renders s (List.mem_cons_of_mem _ member)
      have apart := countP_ne_triangle (fun t => c.document.text? t.node)
        (fun t => middle.document.text? t.node)
        (fun t => (middle.run more).document.text? t.node) texts
      calc
        _ ≤ c.document.textWrites +
            (texts.countP (fun t => c.document.text? t.node ≠ middle.document.text? t.node) +
              texts.countP fun t =>
                middle.document.text? t.node ≠ (middle.run more).document.text? t.node) :=
          Nat.add_le_add_left apart _
        _ ≤ (middle.run more).document.textWrites := by
          rw [← Nat.add_assoc, ← first]
          exact rest

/-- Runs that render agree in all records once they show the same values. -/
theorem Tracks.record?_run_eq {read : Text → Text} (tracks : Tracks nameCase texts stores c)
    (steps more : List Step) (first : ∀ s ∈ steps, s.renders) (second : ∀ s ∈ more, s.renders)
    (shown : (c.run steps).Shows texts read)
    (again : (c.run more).Shows texts read) (id : NodeId) :
    (c.run steps).document.record? id = (c.run more).document.record? id := by
  rcases tracks.frame_run first with ⟨tree, apart⟩
  rcases tracks.frame_run second with ⟨other, separate⟩
  by_cases tracked : id ∈ texts.map (·.node)
  · rcases List.mem_map.mp tracked with ⟨t, member, rfl⟩
    have same : (c.run steps).document.content? t.node = (c.run more).document.content? t.node := by
      rw [text?_eq_some_iff.mp (shown t member), text?_eq_some_iff.mp (again t member)]
    exact record?_eq_of_views same ((tree.parent _).trans (other.parent _).symm)
      ((tree.children _).trans (other.children _).symm)
  · exact (apart id tracked).trans (separate id tracked).symm

theorem Tracks.shows_run_updates (tracks : Tracks nameCase texts stores c)
    (known : ∀ store ∈ values, c.tracker.contains store.1) (nonempty : values ≠ []) :
    (c.run (updates values)).Shows texts (lastStored nameCase (stores ++ values)) := by
  rcases values with _ | ⟨⟨name, value⟩, more⟩
  · exact absurd rfl nonempty
  rcases List.forall_mem_cons.mp known with ⟨first, others⟩
  rcases tracks.perform? (perform?_update first value) with ⟨kept, shown⟩
  have still : ∀ store ∈ more, (c.perform (.update name value)).tracker.contains store.1 := by
    simpa only [contains_perform_update] using others
  have all : ∀ s ∈ updates more, s.renders := fun s member => renders_of_mem_updates member
  have rest := kept.shows_run (shown rfl) all
  rw [stored_updates still, List.append_assoc] at rest
  exact rest

theorem Tracks.updateAll_agrees (tracks : Tracks nameCase texts stores c)
    (known : ∀ store ∈ values, c.tracker.contains store.1) (nonempty : values ≠ []) :
    let batch := (Component.refresh { c with tracker := c.tracker.given values }).1
    let single := c.run (updates values)
    (∀ id, batch.document.record? id = single.document.record? id) ∧
      batch.document.textWrites ≤ single.document.textWrites := by
  intro batch single
  have attempted : c.attempt (.updateAll values) = (batch, .ok ()) := updateAll_of_known known
  have done := perform?_eq_some_iff.mpr attempted
  have step : c.perform (.updateAll values) = batch := congrArg Prod.fst attempted
  have all : ∀ s ∈ updates values, s.renders := fun s member => renders_of_mem_updates member
  have records : ∀ id, batch.document.record? id = single.document.record? id := by
    rw [← step]
    refine tracks.record?_run_eq [.updateAll values] _ (by simp [Step.renders]) all ?_
      (tracks.shows_run_updates known nonempty)
    rw [run_cons, run_nil, step]
    exact (tracks.perform? done).2 rfl
  refine ⟨records, ?_⟩
  -- the one rendering writes what is different in the end, which the updates must have written too
  have said : ∀ id, batch.document.text? id = single.document.text? id := fun id => by
    rw [Document.text?, Document.text?, records]
  calc
    batch.document.textWrites = c.document.textWrites + texts.countP fun t =>
        c.document.text? t.node ≠ batch.document.text? t.node := by
      rw [← step]
      exact tracks.textWrites_perform rfl
    _ = c.document.textWrites + texts.countP fun t =>
        c.document.text? t.node ≠ single.document.text? t.node := by simp only [said]
    _ ≤ single.document.textWrites := tracks.textWrites_run_ge all

/-- Values given at once are all stored or none. If a name is unknown, the first such name is refused
and nothing is changed, although the values before it could have been stored. Otherwise none is
refused; and values there are make of any component, also of one whose texts were written by hand,
what single updates in their order make of it, in no more writes. -/
theorem updateAll_refused_or_agrees {template : Text} {o : Options} (built : build template o = .ok c)
    (steps : List Step) (values : List (Text × Text)) :
    let here := c.run steps
    (∀ before name value after, values = before ++ (name, value) :: after →
      (∀ store ∈ before, here.tracker.contains store.1) → here.tracker.contains name = false →
      here.updateAll values = (here, .error (.invalidVariable name)) ∧
      here.tracker.setAll values = (here.tracker.given before, .error (.invalidVariable name))) ∧
    ((∀ store ∈ values, here.tracker.contains store.1) → ∃ next last,
      here.updateAll values = (next, .ok ()) ∧ here.updateEach values = (last, .ok ()) ∧
      here.tracker.setAll values = (next.tracker, .ok ()) ∧
      next.tracker = last.tracker ∧ next.root = last.root ∧ next.handles = last.handles ∧
      (values ≠ [] → (∀ id, next.document.record? id = last.document.record? id) ∧
        next.document.textWrites ≤ last.document.textWrites)) := by
  intro here
  rcases tracks_build built with ⟨_, _, _, _, start, _⟩
  have tracks := start.run steps
  constructor
  · rintro before name value after rfl known unknown
    exact ⟨updateAll_of_unknown known unknown value after,
      Tracker.setAll_of_unknown known unknown value after⟩
  · intro known
    have sequence : (here.run (updates values)).tracker = here.tracker.given values := by
      rw [tracker_run here, stored_updates known]
    exact ⟨_, here.run (updates values), updateAll_of_known known, updateEach_of_known known,
      Tracker.setAll_of_known known, sequence.symm, (here.root_run _).symm,
      (here.handles_run _).symm, tracks.updateAll_agrees known⟩

/-- A name that comes twice, in either case, after a text was written by hand; and a list with two names
that are not there, behind one that is. -/
theorem updateAll_refused_or_agrees_items : ∃ c next last,
    build "<ul><li>{{a}}{{B}}<li>{{b}}</ul>".toList { nameCase := .insensitive } = .ok c ∧
    let here := c.run [.update "a".toList "0".toList, .edit (.setText 2 "by hand".toList)]
    let unknown := [("b".toList, "1".toList), ("y".toList, "2".toList), ("x".toList, [])]
    let known := [("A".toList, "1".toList), ("b".toList, "2".toList), ("a".toList, "3".toList)]
    here.updateAll unknown = (here, .error (.invalidVariable "y".toList)) ∧
      (here.tracker.setAll unknown).1 ≠ here.tracker ∧
      here.updateAll known = (next, .ok ()) ∧ here.updateEach known = (last, .ok ()) ∧
      (∀ id, next.document.record? id = last.document.record? id) ∧
      next.document.textWrites ≤ last.document.textWrites := by
  let steps : List Step := [.update "a".toList "0".toList, .edit (.setText 2 "by hand".toList)]
  let known := [("A".toList, "1".toList), ("b".toList, "2".toList), ("a".toList, "3".toList)]
  have facts : ((build "<ul><li>{{a}}{{B}}<li>{{b}}</ul>".toList { nameCase := .insensitive }).toOption.map
      fun c => ((c.run steps).tracker.contains "b".toList, (c.run steps).tracker.contains "y".toList,
        known.all fun store => (c.run steps).tracker.contains store.1,
        (c.run steps).tracker.valueOf "b".toList,
        ((c.run steps).tracker.given [("b".toList, "1".toList)]).valueOf "b".toList)) =
      some (true, false, true, [], "1".toList) := by
    decide +kernel
  rcases Option.map_eq_some_iff.mp facts with ⟨c, built, facts⟩
  simp only [Prod.mk.injEq, List.all_eq_true] at facts
  rcases facts with ⟨first, second, all, before, after⟩
  have built := eq_ok_of_toOption built
  rcases (updateAll_refused_or_agrees built steps _).1 [("b".toList, "1".toList)] "y".toList "2".toList
    [("x".toList, [])] rfl (by simpa using first) second with ⟨refused, partly⟩
  rcases (updateAll_refused_or_agrees built steps known).2 all with
    ⟨next, last, done, sequence, _, _, _, _, agree⟩
  refine ⟨c, next, last, built, refused, fun same => ?_, done, sequence, agree (by decide)⟩
  have kept : (c.run steps).tracker.given [("b".toList, "1".toList)] = (c.run steps).tracker :=
    (congrArg Prod.fst partly).symm.trans same
  rw [kept, before] at after
  exact absurd after (by decide)

end Component

end LiveTemplate.Template
