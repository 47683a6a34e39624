import LiveTemplate.Command.Basic
import LiveTemplate.Proofs.Template.Batches
import LiveTemplate.Style.ScopedName

/-! Rendering by a command, which updates a live component once for each assignment, says the same as
the tree of the template with all its placeholders filled at once. -/

namespace LiveTemplate.Command

open Markup
open Template
open Template.Component (updates)

def Request.renamed (rename : Renamer) (r : Request) (template css : Text) : Text :=
  match r.style with
  | some path => (rename (scopeOf path r.scope) css).apply template
  | none => template

def assigned (assignments : List Assignment) : List (Text × Text) :=
  assignments.map fun a => (a.name, a.value)

/-- A tree with its placeholders filled at once, as markup or as plain text; the first name that no
placeholder of the tree has is refused. -/
def renderTree (nameCase : NameCase) (assignments : List Assignment) (plain : Bool) (node : Node) :
    Except Failure Text :=
  match assignments.find? fun a =>
      !(mentioned nameCase node).contains (nameCase.normalize a.name) with
  | some a => .error (.set a.name (.invalidVariable a.name))
  | none =>
    let tree := node.mapTexts (filled (lastStored nameCase (assigned assignments)))
    .ok (if plain then tree.plainText else tree.written false)

variable {rename : Renamer} {read : Reader} {r : Request} {c : Component}

theorem assign_eq (c : Component) (a : Assignment) : assign c a =
    if c.tracker.contains a.name then .ok (c.perform (.update a.name a.value))
    else .error (.set a.name (.invalidVariable a.name)) := by
  rw [assign, Component.update_eq]
  cases c.tracker.contains a.name with
  | true => rfl
  | false => rfl

/-- The first name that the component does not know is refused. -/
theorem foldlM_assign (assignments : List Assignment) (c : Component) :
    assignments.foldlM assign c =
      match assignments.find? fun a => !c.tracker.contains a.name with
      | some a => .error (.set a.name (.invalidVariable a.name))
      | none => .ok (c.run (updates (assigned assignments))) := by
  induction assignments generalizing c with
  | nil => rfl
  | cons a more ih =>
      rw [List.foldlM_cons, List.find?_cons, assign_eq]
      cases known : c.tracker.contains a.name with
      | false => rfl
      | true =>
          have rest := ih (c.perform (.update a.name a.value))
          simp only [Component.contains_perform_update] at rest
          exact rest

theorem load_of_readable {template css : Text} (found : read r.template = .ok template)
    (styled : ∀ path ∈ r.style, read path = .ok css) :
    ∃ o : Options, o.nameCase = r.nameCase ∧ o.renamed template = r.renamed rename template css ∧
      r.load rename read = (Component.build template o).mapError (.build r.template) := by
  cases style : r.style with
  | none =>
      refine ⟨{ nameCase := r.nameCase }, rfl, ?_, ?_⟩
      · rw [Request.renamed, style]
        rfl
      · simp [Request.load, readFile, found, Request.renames, style, Except.mapError, bind,
          Except.bind]
  | some path =>
      have sheet := styled path style
      refine ⟨{ renames := rename (scopeOf path r.scope) css, nameCase := r.nameCase },
        rfl, ?_, ?_⟩
      · rw [Request.renamed, style]
        rfl
      · simp [Request.load, readFile, found, Request.renames, style, loadRenaming, sheet,
          Except.mapError, Except.map, bind, Except.bind, pure, Except.pure]

theorem contains_build {template : Text} {o : Options} {node : Node}
    (built : Component.build template o = .ok c) (found : rootOf (o.renamed template) = .ok node)
    (name : Text) :
    c.tracker.contains name = (mentioned o.nameCase node).contains (o.nameCase.normalize name) := by
  rcases Component.tracks_build built with ⟨_, _, _, _, start, _⟩
  rw [Bool.eq_iff_iff, Tracker.contains_iff, start.sameCase, Component.keys_build built found,
    List.mem_eraseDups, List.contains_iff_mem]

theorem run_updates_says {template : Text} {o : Options} {node : Node}
    {stores : List (Text × Text)} (built : Component.build template o = .ok c)
    (found : rootOf (o.renamed template) = .ok node)
    (known : ∀ store ∈ stores, c.tracker.contains store.1) :
    let tree := node.mapTexts (filled (lastStored o.nameCase stores))
    (c.run (updates stores)).markup = tree.written false ∧
      (c.run (updates stores)).plainText = tree.plainText := by
  rcases Component.tracks_build built with ⟨d, root, planted, covers, start, shown, tree, rooted⟩
  rcases plantRoot_eq_ok planted with ⟨same, again, rfl, rfl⟩
  obtain rfl : same = node := Except.ok.inj (again.symm.trans found)
  have all : ∀ s ∈ updates stores, s.renders := fun s member => Component.renders_of_mem_updates member
  rcases start.run_of_renders shown all with ⟨still, kept, shows⟩
  rw [Component.stored_updates known, List.nil_append] at shows
  exact ⟨Component.markup_of_shows (tree.trans still) covers shows (kept.trans rooted),
    Component.plainText_of_shows (tree.trans still) covers shows (kept.trans rooted)⟩

/-- Where its files can be read and its template has a root, a command renders what the root says with
all assignments put in at once, however classes are renamed. -/
theorem render_eq_renderTree {template css : Text} {node : Node} {others : List Node}
    (found : read r.template = .ok template) (styled : ∀ path ∈ r.style, read path = .ok css)
    (parsed : parse? (r.renamed rename template css).trim = some (node :: others))
    (assignments : List Assignment) (plain : Bool) :
    r.render rename read assignments plain = renderTree r.nameCase assignments plain node := by
  rcases load_of_readable found styled with ⟨o, nameCase, renamed, loaded⟩
  have root : rootOf (o.renamed template) = .ok node := by rw [rootOf, renamed, parsed]
  rcases Component.build_of_rootOf root with ⟨c, built⟩
  have unknown : (fun a : Assignment => !c.tracker.contains a.name) =
      fun a => !(mentioned r.nameCase node).contains (r.nameCase.normalize a.name) := by
    funext a
    rw [contains_build built root, nameCase]
  have ready : r.load rename read = .ok c := by
    rw [loaded, built]
    rfl
  rw [Request.render, ready, renderTree, ← unknown]
  change (assignments.foldlM assign c).bind _ = _
  rw [foldlM_assign]
  cases first : assignments.find? fun a => !c.tracker.contains a.name with
  | some a => rfl
  | none =>
      have known : ∀ store ∈ assigned assignments, c.tracker.contains store.1 := by
        intro store member
        rcases List.mem_map.mp member with ⟨a, present, rfl⟩
        simpa using List.find?_eq_none.mp first a present
      rcases run_updates_says built root known with ⟨markup, plainText⟩
      rw [nameCase] at markup plainText
      change Except.ok (if plain then _ else _) = Except.ok _
      rw [markup, plainText]

def noticeFiles : Reader := fun path =>
  if path = "notice.html".toList then .ok "\n<p class=\"note\">{{who}}, {{Who}}: {{x}}</p>".toList
  else if path = "notice.css".toList then .ok ".note { color: red }".toList
  else .error .missing

def noticeRequest : Request :=
  { template := "notice.html".toList, style := some "notice.css".toList, ignoreCase := true }

def noticeAssignments : List Assignment :=
  [⟨"WHO".toList, "a".toList⟩, ⟨"who".toList, "<b>".toList⟩]

theorem render_eq_renderTree_notice : ∃ node,
    noticeRequest.render Style.scopedRenaming noticeFiles noticeAssignments false =
      renderTree .insensitive noticeAssignments false node ∧
    noticeRequest.render Style.scopedRenaming noticeFiles noticeAssignments false =
      .ok "<p class=\"_67f47846\">&lt;b&gt;, &lt;b&gt;: </p>".toList := by
  have facts : ((parse? (noticeRequest.renamed Style.scopedRenaming
      "\n<p class=\"note\">{{who}}, {{Who}}: {{x}}</p>".toList
      ".note { color: red }".toList).trim).bind List.head?).isSome ∧
      (noticeRequest.render Style.scopedRenaming noticeFiles noticeAssignments false).toOption =
        some "<p class=\"_67f47846\">&lt;b&gt;, &lt;b&gt;: </p>".toList := by
    decide +kernel
  rcases Option.isSome_iff_exists.mp facts.1 with ⟨node, first⟩
  rcases Option.bind_eq_some_iff.mp first with ⟨nodes, parsed, head⟩
  obtain ⟨others, rfl⟩ := List.head?_eq_some_iff.mp head
  refine ⟨node, ?_, Component.eq_ok_of_toOption facts.2⟩
  exact render_eq_renderTree (by decide) (by decide) parsed _ _

end LiveTemplate.Command
