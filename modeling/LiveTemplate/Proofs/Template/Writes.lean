import LiveTemplate.Proofs.Template.Independence
import LiveTemplate.Proofs.Template.Indexing

/-! What one update writes: the texts that the index lists for its variable if the value is a new one,
and nothing otherwise. The rendering does not look at the index, it compares texts; that both agree is
because a new value shows in every text that mentions it. -/

namespace LiveTemplate.Template

open Document

theorem countP_range {α : Type} (p : α → Bool) (l : List α) :
    (List.range l.length).countP (fun place => (l[place]?).any p) = l.countP p := by
  induction l using List.reverseRecOn with
  | nil => rfl
  | append_singleton l a ih =>
      have before : ∀ place ∈ List.range l.length,
          ((l ++ [a])[place]?).any p ↔ (l[place]?).any p := by
        intro place inside
        rw [List.getElem?_append_left (List.mem_range.mp inside)]
      rw [List.length_append, List.length_singleton, List.range_succ, List.countP_append,
        List.countP_congr before, ih, List.countP_append]
      simp

namespace Tracker

variable {k : Tracker} {v : Variable} {name : Text} {id : NodeId}

def nodesOf (k : Tracker) (v : Variable) : List NodeId :=
  v.texts.filterMap fun place => (k.texts[place]?).map (·.node)

theorem Listed.texts_eq (listed : k.Listed) (found : k.get? name = some v) :
    v.texts = (List.range k.texts.length).filter (k.mentionedAt (k.nameCase.normalize name)) := by
  rw [get?] at found
  rw [← listed.texts, textsOf, found]
  rfl

theorem Listed.length_texts (listed : k.Listed) (found : k.get? name = some v) :
    v.texts.length = k.texts.countP fun t => Mentions k.nameCase t.pattern name := by
  rw [listed.texts_eq found, ← List.countP_eq_length_filter]
  refine (countP_range _ k.texts).trans (List.countP_congr fun t _ => ?_)
  rw [decide_eq_true_iff]
  simp [Mentions]

theorem Listed.mem_nodesOf_iff (listed : k.Listed) (found : k.get? name = some v) :
    id ∈ k.nodesOf v ↔ ∃ t ∈ k.texts, Mentions k.nameCase t.pattern name ∧ t.node = id := by
  rw [nodesOf, List.mem_filterMap, listed.texts_eq found]
  constructor
  · rintro ⟨place, listed, node⟩
    rcases mentionedAt_iff.mp (List.mem_filter.mp listed).2 with ⟨t, there, mentions⟩
    rw [there] at node
    exact ⟨t, List.mem_of_getElem? there, mentions, Option.some.inj node⟩
  · rintro ⟨t, tracked, mentions, rfl⟩
    rcases List.getElem?_of_mem tracked with ⟨place, there⟩
    refine ⟨place, List.mem_filter.mpr ⟨?_, mentionedAt_iff.mpr ⟨t, there, mentions⟩⟩, by rw [there]; rfl⟩
    exact List.mem_range.mpr (List.getElem?_eq_some_iff.mp there).1

end Tracker

namespace Component

variable {template : Text} {o : Options} {c : Component} {nameCase : NameCase}
  {texts : List TrackedText} {stores : List (Text × Text)} {name value : Text} {id : NodeId}

theorem listed_build (built : build template o = .ok c) : c.tracker.Listed := by
  rw [build] at built
  cases planted : plantRoot (o.renamed template) with
  | error cause => simp [planted] at built
  | ok result =>
      rw [planted] at built
      rw [← Except.ok.inj built]
      exact Tracker.listed_ofNodes _ _ _

theorem stored_of_not_renders {s : Step} (quiet : ¬ s.renders) : c.stored [s] = [] := by
  cases s <;> simp_all [stored, Step.values, Step.renders]

theorem Tracks.shows_perform_of_unwritten {s : Step} (tracks : Tracks nameCase texts stores c)
    (shown : c.Shows texts (lastStored nameCase stores))
    (unwritten : ∀ id content, s = .edit (.setText id content) → id ∉ texts.map (·.node)) :
    (c.perform s).Shows texts (lastStored nameCase (stores ++ c.stored [s])) := by
  by_cases renders : s.renders
  · exact tracks.shows_perform shown renders
  · rw [stored_of_not_renders renders, List.append_nil]
    intro t tracked
    have known := lt_size_of_isText (tracks.live t tracked)
    rw [← shown t tracked]
    cases s with
    | mount source parent => exact text?_mount source parent known
    | edit e =>
        refine text?_edit e known fun content same => ?_
        exact unwritten t.node content (congrArg Step.edit same) (List.mem_map_of_mem tracked)
    | _ => simp [Step.renders] at renders

theorem Tracks.shows_run_of_unwritten {steps : List Step} (tracks : Tracks nameCase texts stores c)
    (shown : c.Shows texts (lastStored nameCase stores))
    (unwritten : ∀ id content, .edit (.setText id content) ∈ steps → id ∉ texts.map (·.node)) :
    (c.run steps).Shows texts (lastStored nameCase (stores ++ c.stored steps)) := by
  induction steps generalizing c stores with
  | nil => simpa [stored] using shown
  | cons s more ih =>
      have step := tracks.shows_perform_of_unwritten shown fun id content same =>
        unwritten id content (same ▸ List.mem_cons_self)
      have rest := ih (tracks.perform s) step fun id content member =>
        unwritten id content (List.mem_cons_of_mem _ member)
      rw [← List.singleton_append, stored_append, ← List.append_assoc]
      exact rest

variable {k : Tracker} {v : Variable}

/-- The texts that an update changes are those that mention its variable. -/
theorem Tracks.text?_set_ne_iff (tracks : Tracks nameCase texts stores c)
    (shown : c.Shows texts (lastStored nameCase stores))
    (stored : c.tracker.set? name value = some k) :
    (Component.refresh { c with tracker := k }).1.document.text? id ≠ c.document.text? id ↔
      c.tracker.valueOf name ≠ value ∧ ∃ t ∈ texts, Mentions nameCase t.pattern name ∧ t.node = id := by
  have set := tracks.set stored
  have each : ∀ t ∈ texts,
      (Component.refresh { c with tracker := k }).1.document.text? t.node ≠ c.document.text? t.node ↔
        c.tracker.valueOf name ≠ value ∧ Mentions nameCase t.pattern name := by
    intro t tracked
    rw [set.rendered.text t tracked, ne_comm]
    exact tracks.text?_ne_render_iff shown stored tracked
  constructor
  · intro changed
    by_cases tracked : id ∈ texts.map (·.node)
    · rcases List.mem_map.mp tracked with ⟨t, member, rfl⟩
      rcases (each t member).mp changed with ⟨differs, mentions⟩
      exact ⟨differs, t, member, mentions, rfl⟩
    · exact absurd (text?_of_content? (set.rendered.content id tracked)) changed
  · rintro ⟨differs, t, member, mentions, rfl⟩
    exact (each t member).mpr ⟨differs, mentions⟩

theorem Tracks.update_of_same (tracks : Tracks nameCase texts stores c)
    (shown : c.Shows texts (lastStored nameCase stores)) (found : c.tracker.get? name = some v) :
    c.update name v.value = (c, .ok ()) := by
  have stored : c.tracker.set? name v.value = some c.tracker := by
    rw [Tracker.set?, found, Option.map_some, Table.insert_self found]
  rw [update, stored]
  change (c.refresh.1, Except.ok ()) = (c, .ok ())
  rw [tracks.refresh_of_shows shown]

/-- An update with a new value writes the texts that are listed for its variable, one write for each,
and an update with the old value writes none. Whichever it is, only texts of nodes change, only of the
listed ones, and of the variables only the one that is named. -/
theorem update_writes_mentions (built : build template o = .ok c) {steps : List Step}
    (unwritten : ∀ id content, .edit (.setText id content) ∈ steps →
      id ∉ c.tracker.texts.map (·.node))
    (found : (c.run steps).tracker.get? name = some v) (value : Text) :
    let here := c.run steps
    ∃ next, here.update name value = (next, .ok ()) ∧
      (value = v.value → next = here) ∧
      (value ≠ v.value →
        (∀ id, next.document.text? id ≠ here.document.text? id ↔ id ∈ here.tracker.nodesOf v) ∧
        next.document.textWrites = here.document.textWrites + v.texts.length) ∧
      here.document.SameTree next.document ∧
      (∀ id ∉ here.tracker.nodesOf v, next.document.record? id = here.document.record? id) ∧
      next.tracker.texts = here.tracker.texts ∧
      next.tracker.vars.keys = here.tracker.vars.keys ∧
      next.tracker.get? name = some { v with value } ∧
      (∀ other, o.nameCase.normalize other ≠ o.nameCase.normalize name →
        next.tracker.get? other = here.tracker.get? other) ∧
      next.handles = here.handles ∧ next.root = here.root := by
  intro here
  rcases tracks_build built with ⟨_, _, _, _, start, shown, _⟩
  have tracks := start.run steps
  have shows : here.Shows _ _ := start.shows_run_of_unwritten shown unwritten
  have sameCase : here.tracker.nameCase = o.nameCase := tracks.sameCase
  have listed : here.tracker.Listed := (tracker_run c steps).symm ▸ (listed_build built).given _
  have known : here.tracker.contains name := Option.isSome_of_eq_some found
  rcases Tracker.exists_set? known value with ⟨k, stored⟩
  have set := tracks.set stored
  have tree := set.rendered.sameTree set.live
  have held : here.tracker.valueOf name = v.value := by
    rw [Tracker.valueOf, found]
    rfl
  -- the texts show the old values, so a text changes where the new value makes a difference to it
  have changed : ∀ id, (Component.refresh { here with tracker := k }).1.document.text? id ≠
      here.document.text? id ↔ value ≠ v.value ∧ id ∈ here.tracker.nodesOf v := by
    intro id
    rw [tracks.text?_set_ne_iff shows stored, held, listed.mem_nodesOf_iff found, sameCase,
      tracks.sameTexts, ne_comm]
  refine ⟨(Component.refresh { here with tracker := k }).1, ?_, ?_, ?_, tree, ?_,
    Tracker.texts_set? stored, Tracker.keys_set? stored, ?_, ?_, rfl, rfl⟩
  · rw [update, stored]
  · rintro rfl
    have same := tracks.update_of_same shows found
    rw [update, stored] at same
    exact (Prod.mk.inj same).1
  · intro differs
    refine ⟨fun id => (changed id).trans (and_iff_right differs), ?_⟩
    rw [set.rendered.textWrites, tracks.writes_set shows stored, held, if_neg (Ne.symm differs),
      listed.length_texts found, sameCase, tracks.sameTexts]
  · intro id unlisted
    refine tree.record?_eq (not_not.mp fun differs => ?_)
    exact unlisted ((changed id).mp differs).2
  · exact (Tracker.get?_set? stored name).trans (by rw [if_pos rfl, found]; rfl)
  · intro other apart
    rw [← sameCase] at apart
    exact (Tracker.get?_set? stored other).trans (if_neg apart.symm)

/-- Two of three texts mention the variable, one of them twice; a text that is not tracked is written
by hand before. -/
theorem update_writes_mentions_items : ∃ c v next,
    build "<ul><li>{{a}}{{b}}{{a}}<li>{{b}}<li>{{a}}</ul>".toList {} = .ok c ∧
    let here := c.run [.update "b".toList "1".toList, .edit (.create (.text [])),
      .edit (.setText 7 "x".toList)]
    here.tracker.get? "a".toList = some v ∧ "1".toList ≠ v.value ∧
    here.update "a".toList "1".toList = (next, .ok ()) ∧ here.tracker.nodesOf v = [2, 6] ∧
    next.document.textWrites = here.document.textWrites + 2 ∧
    next.document.record? 4 = here.document.record? 4 := by
  let steps : List Step := [.update "b".toList "1".toList, .edit (.create (.text [])),
    .edit (.setText 7 "x".toList)]
  have facts : ((build "<ul><li>{{a}}{{b}}{{a}}<li>{{b}}<li>{{a}}</ul>".toList {}).toOption.bind
      fun c => ((c.run steps).tracker.get? "a".toList).map fun v =>
        (c.tracker.texts.map (·.node), v, (c.run steps).tracker.nodesOf v)) =
      some ([2, 4, 6], ⟨[], [0, 2]⟩, [2, 6]) := by decide +kernel
  rcases Option.bind_eq_some_iff.mp facts with ⟨c, built, facts⟩
  rcases Option.map_eq_some_iff.mp facts with ⟨v, found, facts⟩
  simp only [Prod.mk.injEq] at facts
  rcases facts with ⟨nodes, rfl, listed⟩
  have unwritten : ∀ id content, .edit (.setText id content) ∈ steps →
      id ∉ c.tracker.texts.map (·.node) := by
    rw [nodes]
    intro id content member
    have same : id = 7 ∧ content = "x".toList := by simpa [steps] using member
    rw [same.1]
    decide
  rcases update_writes_mentions (eq_ok_of_toOption built) unwritten found "1".toList with
    ⟨next, done, _, writes, _, frame, _⟩
  refine ⟨c, _, next, eq_ok_of_toOption built, found, by decide, done, listed,
    (writes (by decide)).2, frame 4 ?_⟩
  rw [listed]
  decide

end Component

end LiveTemplate.Template
