import LiveTemplate.Proofs.Template.Batches
import LiveTemplate.Proofs.Template.Writes
import LiveTemplate.Proofs.Text.LowerCase

namespace LiveTemplate.Template

theorem NameCase.normalize_normalize (nameCase : NameCase) (name : Text) :
    nameCase.normalize (nameCase.normalize name) = nameCase.normalize name := by
  cases nameCase with
  | sensitive => rfl
  | insensitive => exact Text.lower_lower name

namespace Tracker

variable {k next : Tracker} {name other key value : Text}

def Normal (k : Tracker) : Prop :=
  ∀ key ∈ k.vars.keys, k.nameCase.normalize key = key

theorem normal_ofNodes (d : Document) (nodes : List NodeId) (nameCase : NameCase) :
    (ofNodes d nodes nameCase).Normal := by
  intro key listed
  rw [keys_ofNodes, List.mem_eraseDups] at listed
  rcases List.mem_flatMap.mp listed with ⟨id, _, member⟩
  rcases List.mem_map.mp member with ⟨name, _, rfl⟩
  rw [nameCase_ofNodes]
  exact nameCase.normalize_normalize name

theorem Normal.given (normal : k.Normal) (stores : List (Text × Text)) :
    (k.given stores).Normal := by
  rw [Normal, keys_given, nameCase_given]
  exact normal

theorem Normal.contains (normal : k.Normal) (listed : key ∈ k.vars.keys) : k.contains key := by
  rw [contains_iff, normal key listed]
  exact listed

theorem get?_congr (same : k.nameCase.normalize name = k.nameCase.normalize other) :
    k.get? name = k.get? other := by
  rw [get?, get?, same]

theorem Normal.entries_set? (normal : k.Normal) (distinct : k.vars.keys.Nodup)
    (listed : key ∈ k.vars.keys) (stored : k.set? key value = some next) :
    next.vars.entries.map (fun (name, v) => (name, v.value)) =
      (k.vars.entries.map fun (name, v) => (name, v.value)).map fun entry =>
        if entry.1 = key then (key, value) else entry := by
  rcases eq_of_set? stored with ⟨v, found, rfl⟩
  rw [normal key listed, Table.entries_insert distinct listed, List.map_map, List.map_map]
  apply List.map_congr_left
  intro entry _
  by_cases same : entry.1 = key <;> simp [same]

end Tracker

namespace Component

variable {template : Text} {o : Options} {c : Component} {key name other : Text}

theorem normal_build (built : build template o = .ok c) : c.tracker.Normal := by
  rw [build] at built
  cases planted : plantRoot (o.renamed template) with
  | error cause => simp [planted] at built
  | ok result =>
      rw [planted] at built
      rw [← Except.ok.inj built]
      exact Tracker.normal_ofNodes _ _ _

theorem value?_of_mem_values (normal : c.tracker.Normal) (distinct : c.tracker.vars.keys.Nodup)
    {value : Text} (listed : (key, value) ∈ c.values) : c.value? key = some value := by
  rcases List.mem_map.mp listed with ⟨⟨name, v⟩, member, same⟩
  rcases Prod.mk.inj same with ⟨rfl, rfl⟩
  have known : name ∈ c.tracker.vars.keys := List.mem_map_of_mem member
  rw [value?, Tracker.get?, normal name known, Table.get?_of_mem distinct member]
  rfl

theorem update_listed (normal : c.tracker.Normal) (distinct : c.tracker.vars.keys.Nodup)
    (listed : key ∈ c.values.map (·.1)) (value : Text) :
    ∃ next, c.update key value = (next, .ok ()) ∧
      next.values = c.values.map (fun entry => if entry.1 = key then (key, value) else entry) ∧
      next.value? key = some value ∧
      ∀ other, c.tracker.nameCase.normalize other ≠ key → next.value? other = c.value? other := by
  rw [names_values] at listed
  have known := normal.contains listed
  rcases Tracker.exists_set? known value with ⟨k, stored⟩
  rcases Option.isSome_iff_exists.mp known with ⟨v, found⟩
  refine ⟨(Component.refresh { c with tracker := k }).1, by rw [update, stored],
    normal.entries_set? distinct listed stored, ?_, fun other apart => ?_⟩
  · exact congrArg (Option.map _) ((Tracker.get?_set? stored key).trans (by rw [if_pos rfl, found]))
  · rw [← normal key listed] at apart
    exact congrArg (Option.map _) ((Tracker.get?_set? stored other).trans (if_neg apart.symm))

/-- Names of the same form are known or unknown together, and do the same; a name that is refused is
told as it was given. -/
theorem update_alike (same : c.tracker.nameCase.normalize name = c.tracker.nameCase.normalize other)
    (value : Text) :
    (c.tracker.contains name = true ∧ ∃ next, c.update name value = (next, .ok ()) ∧
      c.update other value = (next, .ok ())) ∨
    (c.tracker.contains name = false ∧ c.update name value = (c, .error (.invalidVariable name)) ∧
      c.update other value = (c, .error (.invalidVariable other))) := by
  have alike : c.tracker.contains other = c.tracker.contains name := by
    rw [Tracker.contains, Tracker.contains, Tracker.get?_congr same]
  rw [update_eq, update_eq, alike, perform_update_congr same]
  cases c.tracker.contains name with
  | true => exact .inl ⟨rfl, _, rfl, rfl⟩
  | false => exact .inr ⟨rfl, rfl, rfl⟩

/-- In either case mode, after any run: a name is listed in its normal form, under which the value
shown with it is found and changed, this value and no other. Names of the same normal form lead to
the same value and the same update. The normal form of a normal form is itself. -/
theorem listed_names_address (built : build template o = .ok c) (steps : List Step) :
    let here := c.run steps
    (∀ (nameCase : NameCase) (name : Text),
      nameCase.normalize (nameCase.normalize name) = nameCase.normalize name) ∧
    (∀ entry ∈ here.values, o.nameCase.normalize entry.1 = entry.1 ∧
      here.value? entry.1 = some entry.2 ∧ here.tracker.contains entry.1 = true ∧
      ∀ value, ∃ next, here.update entry.1 value = (next, .ok ()) ∧
        next.values = here.values.map (fun shown =>
          if shown.1 = entry.1 then (entry.1, value) else shown) ∧
        next.value? entry.1 = some value ∧
        ∀ other, o.nameCase.normalize other ≠ entry.1 → next.value? other = here.value? other) ∧
    ∀ name other, o.nameCase.normalize name = o.nameCase.normalize other →
      here.value? name = here.value? other ∧
      here.tracker.contains name = here.tracker.contains other ∧
      ∀ value, (here.tracker.contains name = true ∧
          ∃ next, here.update name value = (next, .ok ()) ∧
            here.update other value = (next, .ok ())) ∨
        (here.tracker.contains name = false ∧
          here.update name value = (here, .error (.invalidVariable name)) ∧
          here.update other value = (here, .error (.invalidVariable other))) := by
  intro here
  rcases tracks_build built with ⟨_, _, _, _, start, _⟩
  have sameCase : here.tracker.nameCase = o.nameCase := (start.run steps).sameCase
  have normal : here.tracker.Normal := by
    rw [tracker_run]
    exact (normal_build built).given _
  have distinct : here.tracker.vars.keys.Nodup := by
    rw [tracker_run, Tracker.keys_given]
    exact (listed_build built).distinct
  rw [← sameCase]
  refine ⟨NameCase.normalize_normalize, fun entry member => ?_, fun name other same => ?_⟩
  · have listed : entry.1 ∈ here.values.map (·.1) := List.mem_map_of_mem member
    have known : entry.1 ∈ here.tracker.vars.keys := names_values here ▸ listed
    exact ⟨normal _ known, value?_of_mem_values normal distinct member, normal.contains known,
      update_listed normal distinct listed⟩
  · have found := Tracker.get?_congr same
    refine ⟨?_, ?_, update_alike same⟩
    · rw [value?, value?, found]
    · rw [Tracker.contains, Tracker.contains, found]

/-- A dotted capital, whose normal form is no name that a placeholder could have, and a name that
ends in a sigma. -/
theorem listed_names_address_street : ∃ c next,
    build "<p>{{İ}}, {{ΟΔΟΣ}}</p>".toList { nameCase := .insensitive } = .ok c ∧
    c.update ['i', '\u0307'] "1".toList = (next, .ok ()) ∧
    next.values = [(['i', '\u0307'], "1".toList), ("οδος".toList, [])] ∧
    c.value? "ΟΔΟΣ".toList = c.value? "οδος".toList := by
  have facts : (build "<p>{{İ}}, {{ΟΔΟΣ}}</p>".toList
      { nameCase := .insensitive }).toOption.map (·.values) =
      some [(['i', '\u0307'], []), ("οδος".toList, [])] := by decide +kernel
  rcases Option.map_eq_some_iff.mp facts with ⟨c, built, values⟩
  rcases listed_names_address (eq_ok_of_toOption built) [] with ⟨_, listed, alike⟩
  simp only [run_nil] at listed alike
  have first : (['i', '\u0307'], []) ∈ c.values := by rw [values]; exact List.mem_cons_self
  rcases (listed _ first).2.2.2 "1".toList with ⟨next, done, changed, _⟩
  refine ⟨c, next, eq_ok_of_toOption built, done, ?_, (alike _ _ (by decide +kernel)).1⟩
  rw [changed, values]
  decide

end Component

end LiveTemplate.Template
