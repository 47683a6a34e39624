import LiveTemplate.Proofs.Document.PlantedWalks
import LiveTemplate.Proofs.Template.Rendering
import LiveTemplate.Template.Component

namespace LiveTemplate.Template

open Document
open Markup (Node)
open Tracker (Rendered)

inductive Step where
  | update (name value : Text)
  | updateAll (values : List (Text × Text))
  | refresh
  /-- A copy of another component is put into the document. -/
  | mount (source : Component) (parent : NodeId)
  | edit (e : Edit)

def Step.values : Step → List (Text × Text)
  | .update name value => [(name, value)]
  | .updateAll values => values
  | _ => []

def Step.renders : Step → Bool
  | .update _ _ => true
  | .updateAll _ => true
  | .refresh => true
  | _ => false

/-- The value stored last under a name that is the same as `name`. -/
def lastStored (nameCase : NameCase) (stores : List (Text × Text)) (name : Text) : Text :=
  ((stores.reverse.find? fun store =>
    nameCase.normalize store.1 = nameCase.normalize name).map (·.2)).getD []

namespace Component

/-- The component after a step, and the answer if the step is an update. What the others answer is
not looked at. -/
def attempt (c : Component) : Step → Component × Except Error Unit
  | .update name value => c.update name value
  | .updateAll values => c.updateAll values
  | .refresh => (c.refresh.1, .ok ())
  | .mount source parent => ({ c with document := (source.mount c.document parent).1 }, .ok ())
  | .edit e => ({ c with document := c.document.edit e }, .ok ())

def perform (c : Component) (s : Step) : Component :=
  (c.attempt s).1

def perform? (c : Component) (s : Step) : Option Component :=
  match c.attempt s with
  | (next, .ok ()) => some next
  | (_, .error _) => none

def run (c : Component) (steps : List Step) : Component :=
  steps.foldl perform c

def stored (c : Component) : List Step → List (Text × Text)
  | [] => []
  | s :: more => (if (c.perform? s).isSome then s.values else []) ++ (c.perform s).stored more

@[simp] theorem run_nil (c : Component) : c.run [] = c := rfl

@[simp] theorem run_cons (c : Component) (s : Step) (more : List Step) :
    c.run (s :: more) = (c.perform s).run more := rfl

theorem stored_append (c : Component) (steps more : List Step) :
    c.stored (steps ++ more) = c.stored steps ++ (c.run steps).stored more := by
  induction steps generalizing c with
  | nil => rfl
  | cons s steps ih => simp [stored, ih]

theorem stored_of_perform? {c next : Component} {s : Step} (done : c.perform? s = some next) :
    c.stored [s] = s.values := by
  simp [stored, done]

structure Tracks (nameCase : NameCase) (texts : List TrackedText)
    (stores : List (Text × Text)) (c : Component) : Prop where
  sameCase : c.tracker.nameCase = nameCase
  sameTexts : c.tracker.texts = texts
  indexed : c.tracker.Indexed
  values : c.tracker.valueOf = lastStored nameCase stores
  live : ∀ t ∈ texts, c.document.isText t.node
  distinct : (texts.map (·.node)).Nodup

def Shows (c : Component) (texts : List TrackedText) (value : Text → Text) : Prop :=
  ∀ t ∈ texts, c.document.text? t.node = some (filled value t.pattern)

variable {nameCase : NameCase} {texts : List TrackedText} {stores : List (Text × Text)}
  {c next : Component}

theorem lastStored_append (nameCase : NameCase) (stores : List (Text × Text))
    (name value other : Text) : lastStored nameCase (stores ++ [(name, value)]) other =
      if nameCase.normalize name = nameCase.normalize other then value
      else lastStored nameCase stores other := by
  simp only [lastStored, List.reverse_append, List.reverse_singleton, List.singleton_append,
    List.find?_cons]
  by_cases same : nameCase.normalize name = nameCase.normalize other <;> simp [same]

theorem Tracks.set {k : Tracker} {name value : Text} (tracks : Tracks nameCase texts stores c)
    (given : c.tracker.set? name value = some k) :
    Tracks nameCase texts (stores ++ [(name, value)]) { c with tracker := k } where
  sameCase := (Tracker.nameCase_set? given).trans tracks.sameCase
  sameTexts := (Tracker.texts_set? given).trans tracks.sameTexts
  indexed := Tracker.indexed_set? tracks.indexed given
  values := by
    funext other
    rw [Tracker.valueOf_set? given, tracks.sameCase, tracks.values, lastStored_append]
  live := tracks.live
  distinct := tracks.distinct

theorem Tracks.setAll (tracks : Tracks nameCase texts stores c) (values : List (Text × Text))
    (known : ∀ store ∈ values, c.tracker.contains store.1) :
    Tracks nameCase texts (stores ++ values) { c with tracker := c.tracker.given values } := by
  induction values generalizing c stores with
  | nil => simpa using tracks
  | cons store more ih =>
      rcases store with ⟨name, value⟩
      rcases List.forall_mem_cons.mp known with ⟨first, others⟩
      rcases Tracker.exists_set? first value with ⟨k, given⟩
      have still : ∀ store ∈ more, k.contains store.1 := by
        simpa only [Tracker.contains_set? given] using others
      have all := ih (tracks.set given) still
      simpa [Tracker.given_cons, given] using all

theorem Tracks.rendered (tracks : Tracks nameCase texts stores c) :
    Rendered c.tracker texts c.document c.refresh.1.document c.refresh.2 := by
  have rendered := Tracker.rendered_apply (k := c.tracker) (d := c.document)
    (by rw [tracks.sameTexts]; exact tracks.live) (by rw [tracks.sameTexts]; exact tracks.distinct)
  rwa [tracks.sameTexts] at rendered

theorem Tracks.render (tracks : Tracks nameCase texts stores c) {t : TrackedText}
    (tracked : t ∈ texts) :
    c.tracker.render t = filled (lastStored nameCase stores) t.pattern := by
  rw [Tracker.render_eq_filled tracks.indexed (by rwa [tracks.sameTexts]), tracks.values]

theorem Tracks.refresh (tracks : Tracks nameCase texts stores c) :
    Tracks nameCase texts stores c.refresh.1 where
  sameCase := tracks.sameCase
  sameTexts := tracks.sameTexts
  indexed := tracks.indexed
  values := tracks.values
  live := fun t member => tracks.rendered.isText (tracks.live t member)
  distinct := tracks.distinct

theorem Tracks.shows_refresh (tracks : Tracks nameCase texts stores c) :
    c.refresh.1.Shows texts (lastStored nameCase stores) := by
  intro t member
  rw [tracks.rendered.text t member, tracks.render member]

theorem Tracks.refresh_of_shows (tracks : Tracks nameCase texts stores c)
    (shown : c.Shows texts (lastStored nameCase stores)) : c.refresh = (c, 0) := by
  have current : c.tracker.apply c.document = (c.document, 0) := by
    apply Tracker.apply_of_rendered
    intro t member
    have tracked : t ∈ texts := tracks.sameTexts ▸ member
    rw [shown t tracked, tracks.render tracked]
  rw [Component.refresh, current]

theorem Tracks.counts_refresh (tracks : Tracks nameCase texts stores c) :
    c.refresh.1.document.textWrites = c.document.textWrites + c.refresh.2 ∧
      c.refresh.2 = texts.countP (fun t =>
        c.document.text? t.node ≠ some (filled (lastStored nameCase stores) t.pattern)) ∧
      c.refresh.1.refresh = (c.refresh.1, 0) := by
  refine ⟨tracks.rendered.textWrites, ?_, tracks.refresh.refresh_of_shows tracks.shows_refresh⟩
  rw [tracks.rendered.differing]
  apply List.countP_congr
  intro t member
  rw [tracks.render member]

theorem Tracks.edit (tracks : Tracks nameCase texts stores c) (e : Edit) :
    Tracks nameCase texts stores { c with document := c.document.edit e } where
  sameCase := tracks.sameCase
  sameTexts := tracks.sameTexts
  indexed := tracks.indexed
  values := tracks.values
  live := fun t member => isText_of_changed (changed_edit _ e) (tracks.live t member)
  distinct := tracks.distinct

theorem mount_of_unknown {source : Component} (d : Document) (parent : NodeId)
    (unknown : source.document.tree? source.root = none) :
    source.mount d parent = (d, .error (.document (.unknownNode source.root))) := by
  rw [mount, copyFrom_of_unknown unknown]

theorem mount_of_tree? {source : Component} {node : Node} (d : Document) (parent : NodeId)
    (standing : source.document.tree? source.root = some node) : source.mount d parent =
      match (d.plant node).1.append parent d.size with
      | (mounted, .error cause) => (mounted, .error (.document cause))
      | (mounted, .ok ()) => (mounted, .ok d.size) := by
  rewrite [mount, copyFrom_of_tree? standing]
  rfl

theorem exists_edits_of_mount (source : Component) (d : Document) (parent : NodeId) :
    ∃ edits : List Edit, (source.mount d parent).1 = edits.foldl Document.edit d ∧
      ∀ target child, .append target child ∈ edits → child = d.size := by
  cases standing : source.document.tree? source.root with
  | none => exact ⟨[], by rw [mount_of_unknown d parent standing]; rfl, by simp⟩
  | some node =>
      have made : d.edit (.copyFrom source.document source.root) = (d.plant node).1 :=
        congrArg Prod.fst (copyFrom_of_tree? standing)
      refine ⟨[.copyFrom source.document source.root, .append parent d.size], ?_, by simp⟩
      rw [List.foldl_cons, List.foldl_cons, List.foldl_nil, made, Document.edit,
        mount_of_tree? d parent standing]
      rcases (d.plant node).1.append parent d.size with ⟨mounted, cause | _⟩
      · rfl
      · rfl

theorem text?_mount (source : Component) {d : Document} (parent : NodeId) {id : NodeId}
    (known : id < d.size) : (source.mount d parent).1.text? id = d.text? id := by
  cases standing : source.document.tree? source.root with
  | none => rw [mount_of_unknown d parent standing]
  | some node =>
      have planted := content?_plant_of_lt node known
      rw [mount_of_tree? d parent standing]
      rcases append_cases (d.plant node).1 parent d.size with ⟨cause, refused⟩ | done
      · rw [refused]
        exact text?_of_content? planted
      · rw [done]
        exact text?_of_content? ((content?_append done).trans planted)

/-- Bringing texts up to date is writing some of them. -/
theorem exists_edits_of_apply (k : Tracker) (d : Document) :
    ∃ edits : List Edit, (k.apply d).1 = edits.foldl Document.edit d := by
  suffices ∀ (l : List TrackedText) (d : Document) (n : Nat), ∃ edits : List Edit,
      (l.foldl (fun p t => ((k.write t p.1).1, p.2 + (k.write t p.1).2)) (d, n)).1 =
        edits.foldl Document.edit d from this k.texts d 0
  intro l
  induction l with
  | nil => exact fun d n => ⟨[], rfl⟩
  | cons t more ih =>
      intro d n
      rcases ih (k.write t d).1 (n + (k.write t d).2) with ⟨edits, same⟩
      rw [List.foldl_cons, same]
      by_cases current : d.text? t.node = some (k.render t)
      · exact ⟨edits, by rw [Tracker.write, if_pos current]⟩
      · exact ⟨.setText t.node (k.render t) :: edits, by rw [Tracker.write, if_neg current]; rfl⟩

theorem Tracks.edits (tracks : Tracks nameCase texts stores c) (edits : List Edit) :
    Tracks nameCase texts stores { c with document := edits.foldl Document.edit c.document } := by
  induction edits generalizing c with
  | nil => exact tracks
  | cons e more ih => exact ih (tracks.edit e)

theorem eq_ok_of_toOption {ε α : Type} {result : Except ε α} {a : α}
    (same : result.toOption = some a) : result = .ok a := by
  cases result with
  | error cause => simp [Except.toOption] at same
  | ok b => rw [Option.some.inj same]

theorem update_eq_ok {name value : Text} (done : c.update name value = (next, .ok ())) :
    ∃ k, c.tracker.set? name value = some k ∧ next = (Component.refresh { c with tracker := k }).1 := by
  rw [update] at done
  split at done
  · rename_i k given
    exact ⟨k, given, (Prod.mk.inj done).1.symm⟩
  · simp at done

theorem updateAll_of_known {values : List (Text × Text)}
    (known : ∀ store ∈ values, c.tracker.contains store.1) : c.updateAll values =
      ((Component.refresh { c with tracker := c.tracker.given values }).1, .ok ()) := by
  have nothing : (values.find? fun store => !c.tracker.contains store.1) = none :=
    List.find?_eq_none.mpr fun store member => by simp [known store member]
  rw [updateAll, nothing]
  simp only [Tracker.setAll_of_known known]

theorem updateAll_cases (c : Component) (values : List (Text × Text)) :
    ((∀ store ∈ values, c.tracker.contains store.1) ∧ c.updateAll values =
      ((Component.refresh { c with tracker := c.tracker.given values }).1, .ok ())) ∨
    ∃ store ∈ values, c.tracker.contains store.1 = false ∧
      c.updateAll values = (c, .error (.invalidVariable store.1)) := by
  by_cases known : ∀ store ∈ values, c.tracker.contains store.1
  · exact .inl ⟨known, updateAll_of_known known⟩
  · right
    cases found : values.find? fun store => !c.tracker.contains store.1 with
    | none =>
        rw [List.find?_eq_none] at found
        exact absurd (fun store member => by simpa using found store member) known
    | some store =>
        refine ⟨store, List.mem_of_find?_eq_some found, ?_, ?_⟩
        · simpa using List.find?_some found
        · rw [updateAll, found]

theorem updateAll_eq_ok {values : List (Text × Text)} (done : c.updateAll values = (next, .ok ())) :
    (∀ store ∈ values, c.tracker.contains store.1) ∧
      next = (Component.refresh { c with tracker := c.tracker.given values }).1 := by
  rcases c.updateAll_cases values with ⟨known, same⟩ | ⟨_, _, _, refused⟩
  · exact ⟨known, (Prod.mk.inj (done.symm.trans same)).1⟩
  · simp [refused] at done

theorem perform?_eq_some_iff {s : Step} :
    c.perform? s = some next ↔ c.attempt s = (next, .ok ()) := by
  rw [perform?]
  split <;> simp_all

/-- A step that is refused changes nothing. -/
theorem perform_cases (c : Component) (s : Step) :
    (∃ next, c.perform? s = some next ∧ c.perform s = next) ∨
      c.perform? s = none ∧ c.perform s = c := by
  have accepted (next : Component) (done : c.attempt s = (next, .ok ())) :
      ∃ next, c.perform? s = some next ∧ c.perform s = next :=
    ⟨next, perform?_eq_some_iff.mpr done, congrArg Prod.fst done⟩
  have refused (cause : Error) (failed : c.attempt s = (c, .error cause)) :
      c.perform? s = none ∧ c.perform s = c := by
    rw [perform?, perform, failed]
    exact ⟨rfl, rfl⟩
  cases s with
  | update name value =>
      cases given : c.tracker.set? name value with
      | some k => exact .inl (accepted _ (by rw [attempt, update, given]))
      | none => exact .inr (refused (.invalidVariable name) (by rw [attempt, update, given]))
  | updateAll values =>
      rcases c.updateAll_cases values with ⟨_, done⟩ | ⟨_, _, _, failed⟩
      · exact .inl (accepted _ done)
      · exact .inr (refused _ failed)
  | refresh => exact .inl (accepted _ rfl)
  | mount source parent => exact .inl (accepted _ rfl)
  | edit e => exact .inl (accepted _ rfl)

/-- A step that renders stores its values and then brings the texts up to date. -/
theorem eq_refresh_of_perform? {s : Step} (renders : s.renders) (done : c.perform? s = some next) :
    ∃ k, next = (Component.refresh { c with tracker := k }).1 ∧
      ∀ ⦃nameCase texts stores⦄, Tracks nameCase texts stores c →
        Tracks nameCase texts (stores ++ s.values) { c with tracker := k } := by
  cases s with
  | update name value =>
      rcases update_eq_ok (perform?_eq_some_iff.mp done) with ⟨k, given, same⟩
      exact ⟨k, same, fun _ _ _ tracks => tracks.set given⟩
  | updateAll values =>
      rcases updateAll_eq_ok (perform?_eq_some_iff.mp done) with ⟨known, same⟩
      exact ⟨_, same, fun _ _ _ tracks => tracks.setAll values known⟩
  | refresh =>
      refine ⟨c.tracker, (Option.some.inj done).symm, fun _ _ stores tracks => ?_⟩
      exact (List.append_nil stores).symm ▸ tracks
  | mount source parent => exact absurd renders (by simp [Step.renders])
  | edit e => exact absurd renders (by simp [Step.renders])

theorem tracker_perform? {s : Step} (done : c.perform? s = some next) :
    next.tracker = c.tracker.given s.values := by
  cases s with
  | update name value =>
      rcases update_eq_ok (perform?_eq_some_iff.mp done) with ⟨k, given, rfl⟩
      rw [Step.values, Tracker.given_cons, given]
      rfl
  | updateAll values =>
      rcases updateAll_eq_ok (perform?_eq_some_iff.mp done) with ⟨_, rfl⟩
      rfl
  | refresh => exact Option.some.inj done ▸ rfl
  | mount source parent => exact Option.some.inj done ▸ rfl
  | edit e => exact Option.some.inj done ▸ rfl

theorem tracker_run (c : Component) (steps : List Step) :
    (c.run steps).tracker = c.tracker.given (c.stored steps) := by
  induction steps generalizing c with
  | nil => rfl
  | cons s more ih =>
      rw [run_cons, ih, stored, Tracker.given_append]
      congr 1
      rcases c.perform_cases s with ⟨next, done, same⟩ | ⟨refused, same⟩
      · rw [same, done]
        exact tracker_perform? done
      · rw [same, refused]
        rfl

theorem Tracks.perform? {s : Step} (tracks : Tracks nameCase texts stores c)
    (done : c.perform? s = some next) : Tracks nameCase texts (stores ++ s.values) next ∧
      (s.renders → next.Shows texts (lastStored nameCase (stores ++ s.values))) := by
  by_cases renders : s.renders
  · rcases eq_refresh_of_perform? renders done with ⟨k, rfl, kept⟩
    exact ⟨(kept tracks).refresh, fun _ => (kept tracks).shows_refresh⟩
  · cases s with
    | mount source parent =>
        obtain rfl := Option.some.inj done
        rcases exists_edits_of_mount source c.document parent with ⟨edits, same, _⟩
        simp only [Step.values, List.append_nil, same]
        exact ⟨tracks.edits edits, nofun⟩
    | edit e =>
        obtain rfl := Option.some.inj done
        simp only [Step.values, List.append_nil]
        exact ⟨tracks.edit e, nofun⟩
    | _ => simp [Step.renders] at renders

theorem Tracks.sameTree_perform? {s : Step} (tracks : Tracks nameCase texts stores c)
    (renders : s.renders) (done : c.perform? s = some next) :
    c.document.SameTree next.document ∧ next.root = c.root := by
  rcases eq_refresh_of_perform? renders done with ⟨k, rfl, kept⟩
  exact ⟨(kept tracks).rendered.sameTree (kept tracks).live, rfl⟩

/-- A step edits the document and gives the variables other values, and does nothing else. -/
theorem exists_edits_of_perform (c : Component) (s : Step) : ∃ (edits : List Edit) (k : Tracker),
    c.perform s = { c with document := edits.foldl Document.edit c.document, tracker := k } := by
  rcases c.perform_cases s with ⟨next, done, same⟩ | ⟨_, same⟩
  · rw [same]
    by_cases renders : s.renders
    · rcases eq_refresh_of_perform? renders done with ⟨k, rfl, _⟩
      rcases exists_edits_of_apply k c.document with ⟨edits, written⟩
      exact ⟨edits, k, by rw [← written]; rfl⟩
    · cases s with
      | mount source parent =>
          obtain rfl := Option.some.inj done
          rcases exists_edits_of_mount source c.document parent with ⟨edits, mounted, _⟩
          exact ⟨edits, c.tracker, by rw [mounted]⟩
      | edit e =>
          obtain rfl := Option.some.inj done
          exact ⟨[e], c.tracker, rfl⟩
      | _ => simp [Step.renders] at renders
  · exact ⟨[], c.tracker, same⟩

theorem exists_edits_of_run (c : Component) (steps : List Step) :
    ∃ (edits : List Edit) (k : Tracker), c.run steps =
      { c with document := edits.foldl Document.edit c.document, tracker := k } := by
  induction steps generalizing c with
  | nil => exact ⟨[], c.tracker, rfl⟩
  | cons s more ih =>
      rcases exists_edits_of_perform c s with ⟨first, k, here⟩
      rcases ih (c.perform s) with ⟨others, last, there⟩
      exact ⟨first ++ others, last, by rw [run_cons, there, here, List.foldl_append]⟩

theorem handles_run (c : Component) (steps : List Step) : (c.run steps).handles = c.handles := by
  rcases c.exists_edits_of_run steps with ⟨edits, k, same⟩
  rw [same]

theorem root_run (c : Component) (steps : List Step) : (c.run steps).root = c.root := by
  rcases c.exists_edits_of_run steps with ⟨edits, k, same⟩
  rw [same]

theorem Tracks.perform (tracks : Tracks nameCase texts stores c) (s : Step) :
    Tracks nameCase texts (stores ++ c.stored [s]) (c.perform s) := by
  rcases c.perform_cases s with ⟨next, done, same⟩ | ⟨refused, same⟩
  · rw [stored_of_perform? done, same]
    exact (tracks.perform? done).1
  · simpa [stored, same, refused] using tracks

theorem Tracks.run (tracks : Tracks nameCase texts stores c) (steps : List Step) :
    Tracks nameCase texts (stores ++ c.stored steps) (c.run steps) := by
  induction steps generalizing c stores with
  | nil => simpa [stored] using tracks
  | cons s more ih =>
      have all := ih (tracks.perform s)
      rw [← List.singleton_append, stored_append]
      simpa using all

/-- A step that fails stores nothing, so the texts go on to show what was stored last. -/
theorem Tracks.shows_perform {s : Step} (tracks : Tracks nameCase texts stores c)
    (shown : c.Shows texts (lastStored nameCase stores)) (renders : s.renders) :
    (c.perform s).Shows texts (lastStored nameCase (stores ++ c.stored [s])) := by
  rcases c.perform_cases s with ⟨next, done, same⟩ | ⟨refused, same⟩
  · rw [stored_of_perform? done, same]
    exact (tracks.perform? done).2 renders
  · simpa [stored, same, refused] using shown

theorem Tracks.shows_run {steps : List Step} (tracks : Tracks nameCase texts stores c)
    (shown : c.Shows texts (lastStored nameCase stores)) (renders : ∀ s ∈ steps, s.renders) :
    (c.run steps).Shows texts (lastStored nameCase (stores ++ c.stored steps)) := by
  induction steps generalizing c stores with
  | nil => simpa [stored] using shown
  | cons s more ih =>
      have step := tracks.shows_perform shown (renders s List.mem_cons_self)
      have rest := ih (tracks.perform s) step fun s member =>
        renders s (List.mem_cons_of_mem _ member)
      rw [← List.singleton_append, stored_append, ← List.append_assoc]
      exact rest

theorem Tracks.frame_perform {s : Step} (tracks : Tracks nameCase texts stores c)
    (renders : s.renders) : c.document.SameTree (c.perform s).document ∧
      ∀ id ∉ texts.map (·.node), (c.perform s).document.record? id = c.document.record? id := by
  rcases c.perform_cases s with ⟨next, done, same⟩ | ⟨_, same⟩
  · rw [same]
    rcases eq_refresh_of_perform? renders done with ⟨k, rfl, kept⟩
    have rendered := (kept tracks).rendered
    exact ⟨rendered.sameTree (kept tracks).live, fun id untracked =>
      record?_eq_of_views (rendered.content id untracked) (rendered.parent id)
        (rendered.children id)⟩
  · rw [same]
    exact ⟨SameTree.refl _, fun _ _ => rfl⟩

theorem Tracks.frame_run {steps : List Step} (tracks : Tracks nameCase texts stores c)
    (renders : ∀ s ∈ steps, s.renders) : c.document.SameTree (c.run steps).document ∧
      ∀ id ∉ texts.map (·.node), (c.run steps).document.record? id = c.document.record? id := by
  induction steps generalizing c stores with
  | nil => exact ⟨SameTree.refl _, fun _ _ => rfl⟩
  | cons s more ih =>
      have step := tracks.frame_perform (renders s List.mem_cons_self)
      have rest := ih (tracks.perform s) fun s member => renders s (List.mem_cons_of_mem _ member)
      exact ⟨step.1.trans rest.1, fun id untracked =>
        (rest.2 id untracked).trans (step.2 id untracked)⟩

theorem tracker_perform_congr {other : Component} {s : Step} (renders : s.renders)
    (same : other.tracker = c.tracker) : (other.perform s).tracker = (c.perform s).tracker := by
  cases s with
  | update name value =>
      rw [Component.perform, Component.perform, attempt, attempt, update, update, same]
      cases c.tracker.set? name value with
      | none => exact same
      | some k => rfl
  | updateAll values =>
      rw [Component.perform, Component.perform, attempt, attempt, updateAll, updateAll, same]
      cases values.find? fun store => !c.tracker.contains store.1 with
      | none =>
          rcases c.tracker.setAll values with ⟨k, cause | _⟩
          · rfl
          · rfl
      | some store => exact same
  | refresh => exact same
  | mount source parent => exact absurd renders (by simp [Step.renders])
  | edit e => exact absurd renders (by simp [Step.renders])

theorem tracker_run_congr {other : Component} {steps : List Step}
    (renders : ∀ s ∈ steps, s.renders) (same : other.tracker = c.tracker) :
    (other.run steps).tracker = (c.run steps).tracker := by
  induction steps generalizing c other with
  | nil => exact same
  | cons s more ih =>
      exact ih (fun s member => renders s (List.mem_cons_of_mem _ member))
        (tracker_perform_congr (renders s List.mem_cons_self) same)

end Component

end LiveTemplate.Template
