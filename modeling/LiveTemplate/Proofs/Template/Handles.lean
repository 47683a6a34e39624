import LiveTemplate.Proofs.Document.Families
import LiveTemplate.Proofs.Template.Synchronized
import Mathlib.Data.List.Find

/-! Handles lead to the first of the elements that declare them. A shadow only notes the first child
of each such element, which is enough to come back to the element while the child stays in it. -/

namespace LiveTemplate

open Markup
open Template

namespace Document

def Carries (d : Document) (handle : Text) (id : NodeId) : Prop :=
  handle ≠ [] ∧ d.attribute? id handleAttribute = some handle

def Declares (d : Document) (handle : Text) (id : NodeId) : Prop :=
  d.Carries handle id ∧ d.children id ≠ []

/-- The parent of the node carries the handle, so that the node can stand for it. -/
def IsUnder (d : Document) (handle : Text) (id : NodeId) : Prop :=
  ∃ parent ∈ d.parent? id, d.Carries handle parent

instance (d : Document) (handle : Text) : DecidablePred (d.Carries handle) :=
  fun id => inferInstanceAs (Decidable (handle ≠ [] ∧ d.attribute? id handleAttribute = some handle))

instance (d : Document) (handle : Text) : DecidablePred (d.Declares handle) :=
  fun id => inferInstanceAs (Decidable (d.Carries handle id ∧ d.children id ≠ []))

instance (d : Document) (handle : Text) : DecidablePred (d.IsUnder handle) :=
  fun id => inferInstanceAs (Decidable (∃ parent ∈ d.parent? id, d.Carries handle parent))

variable {d changed : Document} {handle : Text} {id child : NodeId}

theorem SameTree.declares (same : d.SameTree changed) :
    changed.Declares handle id ↔ d.Declares handle id := by
  rw [Declares, Declares, Carries, Carries, same.attribute?, same.children]

theorem find?_range_iff {p : Nat → Prop} [DecidablePred p] {n i : Nat} :
    (List.range n).find? (p ·) = some i ↔ p i ∧ i < n ∧ ∀ j < i, ¬ p j := by
  simp [List.find?_range_eq_some]

theorem first_of_declares (sound : d.Sound) (numbered : d.Numbered)
    (declares : d.Declares handle id) :
    d.parent? (id + 1) = some id ∧ d.firstChild? id = some (id + 1) := by
  rcases List.exists_cons_of_ne_nil declares.2 with ⟨child, more, children⟩
  have first : d.firstChild? id = some child := by rw [firstChild?, children, List.head?_cons]
  rw [← numbered.next first]
  exact ⟨(sound.linked id child).mp (List.mem_of_head? first), first⟩

/-- The first node under a handle is the first child of the first element that declares it. -/
theorem find?_declares (sound : d.Sound) (numbered : d.Numbered)
    (found : (List.range d.size).find? (d.IsUnder handle ·) = some child) :
    ∃ id, d.parent? child = some id ∧ d.firstChild? id = some child ∧
      (List.range d.size).find? (d.Declares handle ·) = some id := by
  rcases find?_range_iff.mp found with ⟨⟨id, linked, carries⟩, _, least⟩
  have after : id < child := numbered.after linked
  have declares : d.Declares handle id :=
    ⟨carries, List.ne_nil_of_mem ((sound.linked id child).mpr linked)⟩
  -- the first child of an element that declares the handle is under it, so not before `child`
  have bound : ∀ other, d.Declares handle other → child ≤ other + 1 := by
    intro other declares
    by_contra early
    have linked := (first_of_declares sound numbered declares).1
    exact least (other + 1) (Nat.lt_of_not_le early) ⟨other, linked, declares.1⟩
  obtain rfl : child = id + 1 := Nat.le_antisymm (bound id declares) after
  have first := (first_of_declares sound numbered declares).2
  refine ⟨id, linked, first, find?_range_iff.mpr ⟨declares, sound.parent_known linked, ?_⟩⟩
  intro other before earlier
  exact absurd (bound other earlier) (Nat.not_le_of_lt (Nat.succ_lt_succ before))

theorem find?_declares_eq_none (sound : d.Sound) (numbered : d.Numbered)
    (nowhere : (List.range d.size).find? (d.IsUnder handle ·) = none) :
    (List.range d.size).find? (d.Declares handle ·) = none := by
  simp only [List.find?_eq_none, List.mem_range, decide_eq_true_iff] at nowhere ⊢
  intro id _ declares
  have linked := (first_of_declares sound numbered declares).1
  exact nowhere (id + 1) (lt_size_of_parent? linked) ⟨id, linked, declares.1⟩

end Document

namespace Template

open Document

namespace Shadow

variable {d : Document}

theorem declaration?_shadowNode (sound : d.Sound) {id child : NodeId} {handle : Text} :
    declaration? d ((List.range d.size).map d.shadowNode) (d.shadowNode id) = some (handle, child) ↔
      d.IsUnder handle id ∧ child = id := by
  have parents : (d.parent? id).bind (fun place =>
      ((List.range d.size).map d.shadowNode)[place]?) = (d.parent? id).map d.shadowNode := by
    cases linked : d.parent? id with
    | none => rfl
    | some parent =>
        have known := List.getElem?_range (sound.parent_known linked)
        rw [Option.bind_some, List.getElem?_map, known, Option.map_some]
  rw [declaration?, shadowNode, parents]
  constructor
  · intro declared
    obtain ⟨_, above, given⟩ := Option.bind_eq_some_iff.mp declared
    obtain ⟨parent, linked, rfl⟩ := Option.map_eq_some_iff.mp above
    obtain ⟨_, kept, same⟩ := Option.map_eq_some_iff.mp given
    obtain ⟨rfl, rfl⟩ := Prod.mk.inj same
    obtain ⟨carried, nonempty⟩ := Option.filter_eq_some_iff.mp kept
    exact ⟨⟨parent, linked, by simpa using nonempty, carried⟩, rfl⟩
  · rintro ⟨⟨parent, linked, nonempty, carried⟩, rfl⟩
    rw [Option.mem_def] at linked
    simp [linked, shadowNode, carried, nonempty]

theorem get?_handles_of_plant (node : Markup.Node) (handle : Text) :
    (Shadow.of (Document.plant {} node).1 0).handles.get? handle =
      (List.range (Document.plant {} node).1.size).find?
        ((Document.plant {} node).1.IsUnder handle ·) := by
  have sound := sound_empty.plant node
  have nodes := nodes_of_plant node
  generalize (Document.plant {} node).1 = d at sound nodes ⊢
  have handles : (Shadow.of d 0).handles = handlesOf d ((List.range d.size).map d.shadowNode) :=
    congrArg (handlesOf d) nodes
  have under : ∀ id, Option.any (·.1 = handle) ((declaration? d ((List.range d.size).map
      d.shadowNode) ∘ d.shadowNode) id) = decide (d.IsUnder handle id) := by
    intro id
    rw [Bool.eq_iff_iff, Option.any_eq_true, decide_eq_true_iff]
    constructor
    · rintro ⟨⟨_, child⟩, declared, same⟩
      obtain rfl := of_decide_eq_true same
      exact ((declaration?_shadowNode sound).mp declared).1
    · intro carried
      exact ⟨(handle, id), (declaration?_shadowNode sound).mpr ⟨carried, rfl⟩, by simp⟩
  rw [handles, handlesOf, Table.get?_foldl_insertNew, List.filterMap_map, List.find?_filterMap]
  simp only [under]
  cases found : (List.range d.size).find? (d.IsUnder handle ·) with
  | none => rfl
  | some child =>
      have carried := (find?_range_iff.mp found).1
      have declared := (declaration?_shadowNode sound).mpr ⟨carried, rfl⟩
      rw [Option.bind_some, Function.comp_apply, declared]
      rfl

end Shadow

namespace Component

variable {template : Text} {o : Options} {c : Component} {d : Document} {handle : Text}
  {nameCase : NameCase} {texts : List TrackedText} {stores : List (Text × Text)}
  {id root child : NodeId}

theorem handles_build (built : build template o = .ok c)
    (planted : plantRoot (o.renamed template) = .ok (d, root)) :
    c.handles = (Shadow.of d root).handles := by
  rw [build, planted] at built
  rw [← Except.ok.inj built]
  rfl

/-- A handle is registered for the first child of the first element that declares it, or for nothing
if there is none. -/
theorem handle_build (built : build template o = .ok c) (handle : Text) :
    (∃ id child, c.handles.get? handle = some child ∧
      c.document.parentElement? child = some id ∧ c.document.firstChild? id = some child ∧
      (c.document.preorder c.root).find? (c.document.Declares handle ·) = some id) ∨
    (c.handles.get? handle = none ∧
      (c.document.preorder c.root).find? (c.document.Declares handle ·) = none) := by
  rcases tracks_build built with ⟨d, root, planted, _, _, _, tree, rfl⟩
  have handles := handles_build built planted
  rcases plantRoot_eq_ok planted with ⟨node, _, rfl, rooted⟩
  rw [rooted] at handles
  have registered := Shadow.get?_handles_of_plant node handle
  rw [← handles] at registered
  have sound := sound_empty.plant node
  have numbered := numbered_plant node
  have order : (Document.plant {} node).1.preorder 0 = List.range (Document.plant {} node).1.size :=
    (preorder_plant {} node).trans (range_size_plant node).symm
  generalize (Document.plant {} node).1 = d at registered sound numbered order tree
  have same : (c.document.preorder c.root).find? (c.document.Declares handle ·) =
      (List.range d.size).find? (d.Declares handle ·) := by
    rw [rooted, tree.preorder, order]
    exact List.find?_congr fun id _ => decide_eq_decide.mpr tree.declares
  rw [registered, same]
  cases found : (List.range d.size).find? (d.IsUnder handle ·) with
  | none => exact .inr ⟨rfl, find?_declares_eq_none sound numbered found⟩
  | some child =>
      rcases find?_declares sound numbered found with ⟨id, linked, first, declares⟩
      have carries := (find?_range_iff.mp declares).1.1
      refine .inl ⟨id, child, rfl, ?_, ?_, declares⟩
      · rw [tree.parentElement?, parentElement?_eq_some_iff]
        exact ⟨linked, isElement_of_attribute? carries.2⟩
      · rw [firstChild?, tree.children]
        exact first

/-- No step of a run moves the node: where one asks for it to be appended, that is refused. -/
def NeverMoves (id : NodeId) (c : Component) : List Step → Prop
  | [] => True
  | s :: more =>
    (∀ target next, s = .edit (.append target id) →
      c.document.append target id ≠ (next, .ok ())) ∧
      NeverMoves id (c.perform s) more

theorem Tracks.parentElement?_perform {s : Step} (tracks : Tracks nameCase texts stores c)
    (found : c.document.parentElement? child = some id)
    (unmoved : ∀ target next, s = .edit (.append target child) →
      c.document.append target child ≠ (next, .ok ())) :
    (c.perform s).document.parentElement? child = some id := by
  rcases c.perform_cases s with ⟨next, done, same⟩ | ⟨_, same⟩
  · rw [same]
    by_cases renders : s.renders
    · rw [(tracks.sameTree_perform? renders done).1.parentElement?, found]
    · cases s with
      | mount source parent =>
          obtain rfl := Option.some.inj done
          rcases exists_edits_of_mount source c.document parent with ⟨edits, mounted, fresh⟩
          have known := lt_size_of_parent? (parentElement?_eq_some_iff.mp found).1
          simp only [mounted]
          refine parentElement?_edits found fun target member => ?_
          exact absurd (fresh target child member) (Nat.ne_of_lt known)
      | edit e =>
          obtain rfl := Option.some.inj done
          refine parentElement?_edit found fun target next same => ?_
          exact unmoved target next (congrArg Step.edit same)
      | _ => simp [Step.renders] at renders
  · rw [same, found]

theorem Tracks.parentElement?_run {steps : List Step} (tracks : Tracks nameCase texts stores c)
    (found : c.document.parentElement? child = some id) (unmoved : c.NeverMoves child steps) :
    (c.run steps).document.parentElement? child = some id := by
  induction steps generalizing c stores with
  | nil => exact found
  | cons s more ih =>
      rw [run_cons]
      exact ih (tracks.perform s) (tracks.parentElement?_perform found unmoved.1) unmoved.2

theorem element_of_handle (registered : c.handles.get? handle = some child)
    (found : c.document.parentElement? child = some id) : c.element handle = .ok id := by
  rw [element, registered, Option.bind_some, found]

theorem element_of_unknown (unknown : c.handles.get? handle = none) :
    c.element handle = .error (.handleNotFound handle) := by
  rw [element, unknown, Option.bind_none]

/-- The handles of a component are those that elements of its tree declare. Each leads to the first
element that declares it, in document order, and goes on to do so through any run that does not move
the first child of this element. -/
theorem element_of_build (built : build template o = .ok c) :
    c.handles.keys.Nodup ∧
      (∀ handle, handle ∈ c.handles.keys ↔
        ∃ id ∈ c.document.preorder c.root, c.document.Declares handle id) ∧
      (∀ handle, c.element handle =
        match (c.document.preorder c.root).find? (c.document.Declares handle ·) with
        | some id => .ok id
        | none => .error (.handleNotFound handle)) ∧
      ∀ handle (steps : List Step),
        (∀ id child, c.element handle = .ok id → c.document.firstChild? id = some child →
          c.NeverMoves child steps) →
        (c.run steps).element handle = c.element handle := by
  have resolved := handle_build built
  rcases tracks_build built with ⟨d, root, planted, _, tracks, _⟩
  refine ⟨?_, fun handle => ?_, fun handle => ?_, fun handle steps unmoved => ?_⟩
  · rw [handles_build built planted]
    exact Table.nodup_keys_foldl_insertNew _ .nil
  · have declared : ((c.document.preorder c.root).find? (c.document.Declares handle ·)).isSome ↔
        ∃ id ∈ c.document.preorder c.root, c.document.Declares handle id := by simp
    rw [Table.mem_keys_iff, ← declared]
    rcases resolved handle with ⟨id, child, registered, _, _, found⟩ | ⟨unknown, missing⟩
    · simp only [registered, found, Option.isSome_some]
    · simp only [unknown, missing]
  · rcases resolved handle with ⟨id, child, registered, linked, _, found⟩ | ⟨unknown, missing⟩
    · simp only [element_of_handle registered linked, found]
    · simp only [element_of_unknown unknown, missing]
  · have same := congrArg (Table.get? · handle) (c.handles_run steps)
    rcases resolved handle with ⟨id, child, registered, linked, first, _⟩ | ⟨unknown, _⟩
    · have here := element_of_handle registered linked
      have still := tracks.parentElement?_run linked (unmoved id child here first)
      rw [here, element_of_handle (same.trans registered) still]
    · rw [element_of_unknown unknown, element_of_unknown (same.trans unknown)]

/-- Elements with one handle inside and beside each other, one without a child and one with the empty
handle. -/
def nestedTemplate : Text :=
  ("<main #handle=\"a\"><b #handle=\"\">x</b><i #handle=\"b\"></i>" ++
    "<p #handle=\"b\"><u #handle=\"a\">{{v}}</u></p><s #handle=\"b\">y</s></main>").toList

/-- The paragraph keeps its handle while it is moved and even when it no longer carries it. -/
theorem element_of_build_nested : ∃ c, build nestedTemplate {} = .ok c ∧
    c.element "a".toList = .ok 0 ∧ c.element "b".toList = .ok 4 ∧
    c.element [] = .error (.handleNotFound []) ∧
    (c.run [.update "v".toList "1".toList, .edit (.append 1 4),
      .edit (.removeAttribute 4 handleAttribute)]).element "b".toList = .ok 4 := by
  have facts : (build nestedTemplate {}).toOption.map (fun c =>
      ((c.document.preorder c.root).find? (c.document.Declares "a".toList ·),
        (c.document.preorder c.root).find? (c.document.Declares "b".toList ·),
        (c.document.preorder c.root).find? (c.document.Declares [] ·),
        c.document.firstChild? 4)) = some (some 0, some 4, none, some 5) := by decide +kernel
  rcases Option.map_eq_some_iff.mp facts with ⟨c, built, same⟩
  simp only [Prod.mk.injEq] at same
  rcases same with ⟨outer, paragraph, empty, first⟩
  rcases element_of_build (eq_ok_of_toOption built) with ⟨_, _, resolves, runs⟩
  have here : c.element "b".toList = .ok 4 := by rw [resolves, paragraph]
  refine ⟨c, eq_ok_of_toOption built, by rw [resolves, outer], here, by rw [resolves, empty], ?_⟩
  rw [runs _ _ fun id child found inside => ?_, here]
  obtain rfl := Except.ok.inj (found.symm.trans here)
  obtain rfl := Option.some.inj (inside.symm.trans first)
  simp [NeverMoves]

end Component

end Template

end LiveTemplate
