import LiveTemplate.Proofs.Template.Handles

/-! Copies of components in other documents. A copy takes new numbers, which no component that the
document belongs to tracks, so that nothing that is rendered later reaches it. -/

namespace LiveTemplate

open Markup

namespace Document

variable {d changed : Document} {id parent : NodeId} {node : Node}

def graft (d : Document) (node : Node) (parent : NodeId) : Document :=
  (d.plant node).1.attach parent d.size

theorem size_graft : (d.graft node parent).size = d.size + node.count := by
  rw [graft, size_attach, size_plant]

theorem textWrites_graft : (d.graft node parent).textWrites = d.textWrites :=
  textWrites_plant d node

theorem holds_graft (known : parent < d.size) :
    (d.graft node parent).Holds d.size (node.records d.size (some parent)) := by
  have planted := plant_records d node
  rw [← toList_records_length d] at planted known
  have held := holds_of_toList (attach_records planted known)
  rwa [List.length_modify, toList_records_length] at held

theorem tree?_graft (known : parent < d.size) : (d.graft node parent).tree? d.size = some node :=
  tree?_of_holds (holds_graft known) (size_graft ▸ Nat.le_add_left _ _)

theorem content?_graft_of_lt (known : id < d.size) :
    (d.graft node parent).content? id = d.content? id := by
  rw [graft, content?_attach, content?_plant_of_lt node known]

theorem parent?_graft_of_lt (known : id < d.size) :
    (d.graft node parent).parent? id = d.parent? id := by
  rw [graft, parent?_attach (size_lt_size_plant d node), if_neg (Nat.ne_of_lt known),
    parent?_plant_of_lt node known]

theorem children_graft_of_lt (inside : parent < d.size) (known : id < d.size) :
    (d.graft node parent).children id =
      if id = parent then d.children id ++ [d.size] else d.children id := by
  have present := Nat.lt_trans inside (size_lt_size_plant d node)
  rw [graft, children_attach present, children_plant_of_lt node known,
    children_plant_of_lt node inside]
  split
  · rename_i same
    rw [same]
  · rfl

/-- The root of a planted tree is not above any node that was there before, so every element of the
document takes it. -/
theorem Sound.append_plant (sound : d.Sound) (element : d.isElement parent) (node : Node) :
    (d.plant node).1.append parent d.size = (d.graft node parent, .ok ()) := by
  have known := lt_size_of_isElement element
  have free : (d.plant node).1.parent? d.size = none := parent?_of_holds (holds_plant d node)
  refine append_eq_ok_iff.mpr ⟨⟨?_, ?_, (Nat.ne_of_lt known).symm, ?_⟩, ?_⟩
  · rwa [isElement_of_content? (content?_plant_of_lt node known)]
  · exact size_lt_size_plant d node
  · intro above
    have before := above_of_plant sound node ((sound.plant node).mem_ancestors_iff.mp above) known
    exact Nat.lt_irrefl _ (lt_size_of_above sound before)
  · rw [Document.detach, free]
    rfl

theorem tree?_of_frame (known : parent < d.size) (size : changed.size = (d.graft node parent).size)
    (same : ∀ id, d.size ≤ id → changed.record? id = (d.graft node parent).record? id) :
    changed.tree? d.size = some node := by
  apply tree?_of_holds (holds_congr same (holds_graft known))
  rw [size, size_graft]
  exact Nat.le_add_left _ _

theorem Sound.parentElement?_graft_of_lt (sound : d.Sound) (known : id < d.size) :
    (d.graft node parent).parentElement? id = d.parentElement? id := by
  apply Option.ext
  intro upper
  rw [parentElement?_eq_some_iff, parentElement?_eq_some_iff, parent?_graft_of_lt known]
  refine and_congr_right fun linked => ?_
  rw [isElement_of_content? (content?_graft_of_lt (sound.parent_known linked))]

end Document

namespace Template

open Document

namespace Component

variable {template : Text} {o : Options} {c next source : Component} {d : Document}
  {node : Node} {parent : NodeId} {handle : Text}
  {nameCase : NameCase} {texts : List TrackedText} {stores : List (Text × Text)}

theorem exists_edits_of_build (built : build template o = .ok c) :
    ∃ edits : List Edit, c.document = edits.foldl Document.edit {} := by
  rw [build] at built
  cases planted : plantRoot (o.renamed template) with
  | error cause => simp [planted] at built
  | ok result =>
      rcases result with ⟨d, root⟩
      rcases plantRoot_eq_ok planted with ⟨node, _, rfl, rfl⟩
      simp only [planted, Except.ok.injEq] at built
      rcases exists_edits_of_apply (Tracker.ofNodes (Document.plant {} node).1
        (Shadow.of (Document.plant {} node).1 0).texts o.nameCase)
        (Document.plant {} node).1 with ⟨edits, same⟩
      exact ⟨.plant node :: edits, by rw [← built]; exact same⟩

theorem exists_familyOf_run (built : build template o = .ok c) (steps : List Step) :
    ∃ actions, (c.run steps).document ∈ familyOf actions := by
  rcases exists_edits_of_build built with ⟨first, start⟩
  rcases c.exists_edits_of_run steps with ⟨others, k, same⟩
  have document : (c.run steps).document = (first ++ others).foldl Document.edit {} := by
    rw [same, start, List.foldl_append]
  exact ⟨_, document ▸ edits_mem_familyOf (first ++ others)⟩

theorem root_lt_size (built : build template o = .ok c) : c.root < c.document.size := by
  rcases tracks_build built with ⟨d, root, planted, _, _, _, tree, rfl⟩
  rcases plantRoot_eq_ok planted with ⟨node, _, rfl, rooted⟩
  rw [rooted, tree.size]
  exact size_lt_size_plant {} node

theorem exists_tree?_run (built : build template o = .ok c) (steps : List Step) :
    ∃ node, (c.run steps).document.tree? (c.run steps).root = some node := by
  refine Option.isSome_iff_exists.mp (tree?_isSome_iff.mpr ?_)
  rcases c.exists_edits_of_run steps with ⟨edits, k, same⟩
  rw [same]
  exact lt_size_of_edits (root_lt_size built)

theorem handle_lt_size (built : build template o = .ok c) {child : NodeId}
    (registered : c.handles.get? handle = some child) : child < c.document.size := by
  rcases handle_build built handle with ⟨id, first, found, linked, _⟩ | ⟨unknown, _⟩
  · obtain rfl := Option.some.inj (found.symm.trans registered)
    exact lt_size_of_parent? (parentElement?_eq_some_iff.mp linked).1
  · simp [unknown] at registered

theorem element_congr (handles : next.handles = c.handles)
    (same : ∀ child, c.handles.get? handle = some child →
      next.document.parentElement? child = c.document.parentElement? child) :
    next.element handle = c.element handle := by
  rw [element, element, handles]
  cases registered : c.handles.get? handle with
  | none => rfl
  | some child => rw [Option.bind_some, Option.bind_some, same child registered]

theorem mount_eq (standing : source.document.tree? source.root = some node) (sound : d.Sound)
    (element : d.isElement parent) : source.mount d parent = (d.graft node parent, .ok d.size) := by
  have put := sound.append_plant element node
  rw [mount_of_tree? d parent standing, put]

inductive Move where
  | source (s : Step)
  | host (s : Step)

def Move.step : Move → Step
  | .source s => s
  | .host s => s

def Move.host? : Move → Option Step
  | .source _ => none
  | .host s => some s

structure Pair where
  source : Component
  host : Component

def Pair.perform (p : Pair) : Move → Pair
  | .source s => { p with source := p.source.perform s }
  | .host s => { p with host := p.host.perform s }

def Pair.run (p : Pair) (moves : List Move) : Pair :=
  moves.foldl Pair.perform p

/-- What the source does is nothing to the host. -/
theorem Pair.host_run (p : Pair) (moves : List Move) :
    (p.run moves).host = p.host.run (moves.filterMap Move.host?) := by
  induction moves generalizing p with
  | nil => rfl
  | cons m more ih =>
      rw [run, List.foldl_cons, ← run, ih]
      cases m with
      | source s => rfl
      | host s => rfl

theorem Tracks.tree?_run_of_graft {steps : List Step} {later : List (Text × Text)}
    (tracks : Tracks nameCase texts stores c) (still : Tracks nameCase texts later next)
    (mounted : next.document = c.document.graft node parent) (known : parent < c.document.size)
    (renders : ∀ s ∈ steps, s.renders) :
    (next.run steps).document.tree? c.document.size = some node := by
  rcases still.frame_run renders with ⟨tree, untouched⟩
  rw [mounted] at tree untouched
  refine tree?_of_frame known tree.size fun id new => untouched id fun tracked => ?_
  rcases List.mem_map.mp tracked with ⟨t, member, rfl⟩
  exact Nat.not_lt_of_le new (lt_size_of_isText (tracks.live t member))

/-- Renderings of a component in which a copy has been put leave the copy alone, and the component
goes on as it would without it. -/
theorem run_of_mounted (built : build template o = .ok c) (before : List Step)
    (standing : source.document.tree? source.root = some node)
    (element : (c.run before).document.isElement parent) {later : List Step}
    (renders : ∀ s ∈ later, s.renders) :
    let host := ((c.run before).perform (.mount source parent)).run later
    host.document.tree? (c.run before).document.size = some node ∧
      host.values = ((c.run before).run later).values ∧
      host.handles = (c.run before).handles ∧
      ∀ handle, host.element handle = (c.run before).element handle := by
  intro host
  rcases tracks_build built with ⟨_, _, _, _, start, _⟩
  rcases exists_familyOf_run built before with ⟨actions, reached⟩
  have sound := sound_familyOf actions _ reached
  have tracks := start.run before
  have still := tracks.perform (.mount source parent)
  have mounted : ((c.run before).perform (.mount source parent)).document =
      (c.run before).document.graft node parent :=
    congrArg Prod.fst (mount_eq standing sound element)
  have handles : host.handles = (c.run before).handles :=
    handles_run ((c.run before).perform (.mount source parent)) later
  refine ⟨?_, ?_, handles, fun handle => element_congr handles fun child registered => ?_⟩
  · exact tracks.tree?_run_of_graft still mounted (lt_size_of_isElement element) renders
  · have same : host.tracker = ((c.run before).run later).tracker :=
      tracker_run_congr renders rfl
    rw [values, values, same]
  · have known : child < (c.run before).document.size := by
      rw [handles_run] at registered
      rcases c.exists_edits_of_run before with ⟨edits, k, same⟩
      rw [same]
      exact lt_size_of_edits (handle_lt_size built registered)
    rw [(still.frame_run renders).1.parentElement?, mounted, sound.parentElement?_graft_of_lt known]

/-- A component, which is only read, is copied into every document at every element: the copy is the
last child of the element and stands for the tree of the component as it is at that moment, and all
else in the document stays as it was. Where the document belongs to a component, no rendering of
either of the two reaches the copy, and the variables and the handles of the host are what they would
be without it. -/
theorem mount_static_copy (built : build template o = .ok c) (steps : List Step)
    {actions : List Action} (reached : d ∈ familyOf actions) (element : d.isElement parent) :
    ∃ mounted id node,
      (c.run steps).mount d parent = (mounted, .ok id) ∧ d.record? id = none ∧
      (c.run steps).document.tree? (c.run steps).root = some node ∧
      mounted.tree? id = some node ∧ mounted.parent? id = some parent ∧
      (∀ other < d.size,
        mounted.content? other = d.content? other ∧ mounted.parent? other = d.parent? other ∧
        mounted.children other =
          if other = parent then d.children other ++ [id] else d.children other) ∧
      mounted.textWrites = d.textWrites ∧
      ∀ (hostTemplate : Text) (hostOptions : Options) (fresh : Component),
        build hostTemplate hostOptions = .ok fresh →
        ∀ before : List Step, (fresh.run before).document = d →
        ∀ moves : List Move, (∀ m ∈ moves, m.step.renders) →
          let host := (Pair.run ⟨c.run steps,
            (fresh.run before).perform (.mount (c.run steps) parent)⟩ moves).host
          let without := (fresh.run before).run (moves.filterMap Move.host?)
          host.document.tree? id = some node ∧ host.values = without.values ∧
            host.handles = (fresh.run before).handles ∧
            ∀ handle, host.element handle = (fresh.run before).element handle := by
  have sound := sound_familyOf actions d reached
  have known := lt_size_of_isElement element
  rcases exists_tree?_run built steps with ⟨node, standing⟩
  have mounted := mount_eq standing sound element
  refine ⟨d.graft node parent, d.size, node, mounted, record?_of_size_le (Nat.le_refl _), standing,
    tree?_graft known, parent?_of_holds (holds_graft known), ?_, textWrites_graft, ?_⟩
  · intro other old
    exact ⟨content?_graft_of_lt old, parent?_graft_of_lt old, children_graft_of_lt known old⟩
  · rintro hostTemplate hostOptions fresh freshBuilt before rfl moves renders
    have later : ∀ s ∈ moves.filterMap Move.host?, s.renders := by
      intro s member
      rcases List.mem_filterMap.mp member with ⟨m, made, here⟩
      cases m with
      | source _ => simp [Move.host?] at here
      | host _ => exact Option.some.inj here ▸ renders _ made
    rw [Pair.host_run]
    exact run_of_mounted freshBuilt before standing element later

theorem mount_static_copy_item : ∃ item list mounted node,
    build "<li>{{label}}</li>".toList {} = .ok item ∧
    build "<section><h2>{{title}}</h2><ul></ul></section>".toList {} = .ok list ∧
    (item.run [.update "label".toList "one".toList]).mount list.document 3 = (mounted, .ok 4) ∧
    node.written false = "<li>one</li>".toList ∧ mounted.tree? 4 = some node ∧
    (Pair.run ⟨item.run [.update "label".toList "one".toList],
        list.perform (.mount (item.run [.update "label".toList "one".toList]) 3)⟩
      [.source (.update "label".toList "two".toList),
        .host (.update "title".toList "new".toList)]).host.document.tree? 4 = some node := by
  have facts : ((build "<li>{{label}}</li>".toList {}).toOption.bind fun item =>
      (build "<section><h2>{{title}}</h2><ul></ul></section>".toList {}).toOption.map fun list =>
        let source := item.run [.update "label".toList "one".toList]
        ((source.mount list.document 3).2.toOption, list.document.isElement 3,
          (source.document.tree? source.root).map (Node.written false))) =
      some (some 4, true, some "<li>one</li>".toList) := by decide +kernel
  rcases Option.bind_eq_some_iff.mp facts with ⟨item, itemBuilt, facts⟩
  rcases Option.map_eq_some_iff.mp facts with ⟨list, listBuilt, facts⟩
  simp only [Prod.mk.injEq] at facts
  rcases facts with ⟨made, element, written⟩
  have itemBuilt := eq_ok_of_toOption itemBuilt
  have listBuilt := eq_ok_of_toOption listBuilt
  rcases exists_familyOf_run listBuilt [] with ⟨actions, reached⟩
  rcases mount_static_copy itemBuilt [.update "label".toList "one".toList] reached element with
    ⟨mounted, id, node, done, _, standing, copied, _, _, _, host⟩
  obtain rfl : id = 4 := by
    rw [run_nil] at done
    rw [done] at made
    exact Option.some.inj made
  rw [standing] at written
  have reads := Option.some.inj written
  refine ⟨item, list, mounted, node, itemBuilt, listBuilt, done, reads, copied, ?_⟩
  exact (host _ _ list listBuilt [] rfl _ (by decide)).1

end Component

end Template

end LiveTemplate
