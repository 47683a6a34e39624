import LiveTemplate.Proofs.Template.Skeleton
import LiveTemplate.Proofs.Template.Synchronized

namespace LiveTemplate.Template

open Document
open Markup

def valueIn (values : List (Text × Text)) (name : Text) : Text :=
  (values.lookup name).getD []

theorem lookup_values (vars : Table Variable) (name : Text) :
    (vars.entries.map fun (name, v) => (name, v.value)).lookup name =
      (vars.get? name).map (·.value) := by
  rw [Table.get?]
  induction vars.entries with
  | nil => rfl
  | cons entry more ih =>
      rcases entry with ⟨k, v⟩
      rw [List.map_cons, List.lookup_cons, ih, Table.findIn]
      by_cases same : k = name
      · simp [same]
      · have other : (name == k) = false := by simpa using Ne.symm same
        simp [same, other]

theorem Tracker.valueOf_eq (k : Tracker) (name : Text) : k.valueOf name =
    valueIn (k.vars.entries.map fun (name, v) => (name, v.value)) (k.nameCase.normalize name) := by
  rw [valueIn, lookup_values]
  rfl

namespace Component

variable {template : Text} {o : Options} {c : Component} {d : Document}
  {nameCase : NameCase} {texts : List TrackedText} {stores : List (Text × Text)}

theorem Tracks.run_of_renders {steps : List Step} (tracks : Tracks nameCase texts stores c)
    (shown : c.Shows texts (lastStored nameCase stores)) (all : ∀ s ∈ steps, s.renders) :
    c.document.SameTree (c.run steps).document ∧ (c.run steps).root = c.root ∧
      (c.run steps).Shows texts (lastStored nameCase (stores ++ c.stored steps)) :=
  ⟨(tracks.frame_run all).1, c.root_run steps, tracks.shows_run shown all⟩

theorem content?_of_shows {value : Text → Text} (tree : d.SameTree c.document)
    (covers : Covers texts d)
    (shown : c.Shows texts value) (id : NodeId) :
    c.document.content? id = (d.content? id).map (Content.mapText (filled value)) := by
  by_cases text : d.isText id
  · rcases isText_iff.mp text with ⟨pattern, found⟩
    rcases covers.exists_of_text? (text?_eq_some_iff.mpr found) with ⟨t, tracked, rfl, rfl⟩
    have now := text?_eq_some_iff.mp (shown t tracked)
    rw [now, found]
    rfl
  · rw [tree.content id (by simpa using text)]
    cases found : d.content? id with
    | none => rfl
    | some kind =>
        cases kind with
        | text content => exact absurd (isText_iff.mpr ⟨content, found⟩) text
        | comment content => rfl
        | element tag attributes => rfl

theorem holds_of_shows {node : Node} {value : Text → Text}
    (tree : (Document.plant {} node).1.SameTree c.document)
    (covers : Covers texts (Document.plant {} node).1) (shown : c.Shows texts value) :
    c.document.Holds 0 ((node.mapTexts (filled value)).records 0 none) ∧
      (node.mapTexts (filled value)).count ≤ c.document.size := by
  have records : ∀ id, c.document.record? id =
      ((Document.plant {} node).1.record? id).map (Record.mapText (filled value)) := fun id =>
    record?_of_views (content?_of_shows tree covers shown id) (tree.parent id) (tree.children id)
  constructor
  · rw [records_mapTexts]
    exact holds_map records (holds_plant {} node)
  · rw [count_mapTexts, tree.size, size_plant]
    exact Nat.le_add_left _ _

theorem markup_of_shows {node : Node} {value : Text → Text}
    (tree : (Document.plant {} node).1.SameTree c.document)
    (covers : Covers texts (Document.plant {} node).1)
    (shown : c.Shows texts value) (root : c.root = 0) :
    c.markup = (node.mapTexts (filled value)).written false := by
  rcases holds_of_shows tree covers shown with ⟨held, enough⟩
  rw [markup, root]
  exact markupWithin_of_holds held enough

theorem plainText_of_shows {node : Node} {value : Text → Text}
    (tree : (Document.plant {} node).1.SameTree c.document)
    (covers : Covers texts (Document.plant {} node).1)
    (shown : c.Shows texts value) (root : c.root = 0) :
    c.plainText = (node.mapTexts (filled value)).plainText := by
  rcases holds_of_shows tree covers shown with ⟨held, enough⟩
  rw [plainText, root]
  exact plainText_of_holds held enough

/-- The holes of a skeleton belong to variables of the component. -/
theorem known_of_hole {node : Node} {name : Text} {verbatim : Bool}
    (tracks : Tracks nameCase texts stores c)
    (covers : Covers texts (Document.plant {} node).1)
    (hole : .hole name verbatim ∈ chunks nameCase false node) : name ∈ c.values.map (·.1) := by
  rcases exists_text_of_hole hole 0 none with ⟨r, member, pattern, text, source, inside, rfl⟩
  rcases exists_of_holds (holds_plant {} node) r member with ⟨id, found⟩
  have read : (Document.plant {} node).1.text? id = some pattern := by
    rw [text?_eq_some_iff, content?, found, Option.map_some, text]
  rcases covers.exists_of_text? read with ⟨t, tracked, _, rfl⟩
  have known := tracks.indexed.known t (tracks.sameTexts ▸ tracked) source inside
  rw [tracks.sameCase] at known
  simpa [values, Table.keys] using known

/-- The markup of a component after any run of updates is the skeleton of its template with the
values of its variables in the holes, escaped unless they stand in verbatim text. Hence escaped
values add no characters that open or close tags, and equal values give equal markup. -/
theorem markup_run_eq_skeleton (built : build template o = .ok c) :
    ∃ l, skeleton template o = .ok l ∧
      (∀ name verbatim, .hole name verbatim ∈ l → name ∈ c.values.map (·.1)) ∧
      ∀ steps : List Step, (∀ s ∈ steps, s.renders) →
        (c.run steps).markup = l.flatMap (Chunk.filled (valueIn (c.run steps).values)) ∧
        ((∀ name, .hole name true ∉ l) →
          (c.run steps).markup.filter (fun x => x = '<' ∨ x = '>') =
            (l.flatMap Chunk.fixedText).filter fun x => x = '<' ∨ x = '>') ∧
        ∀ more : List Step, (∀ s ∈ more, s.renders) →
          (c.run more).values = (c.run steps).values →
          (c.run more).markup = (c.run steps).markup := by
  rcases tracks_build built with ⟨d, root, planted, covers, start, shown, tree, rooted⟩
  rcases plantRoot_eq_ok planted with ⟨node, found, rfl, rfl⟩
  have written : ∀ steps : List Step, (∀ s ∈ steps, s.renders) → (c.run steps).markup =
      (chunks o.nameCase false node).flatMap (Chunk.filled (valueIn (c.run steps).values)) := by
    intro steps all
    rcases start.run_of_renders shown all with ⟨still, same, shows⟩
    have now := start.run steps
    rw [← now.values] at shows
    have values : (c.run steps).tracker.valueOf =
        fun name => valueIn (c.run steps).values (o.nameCase.normalize name) := by
      funext name
      rw [Tracker.valueOf_eq, now.sameCase]
      rfl
    calc
      (c.run steps).markup =
          (node.mapTexts (filled (c.run steps).tracker.valueOf)).written false :=
        markup_of_shows (tree.trans still) covers shows (same.trans rooted)
      _ = (node.mapTexts (filled fun name =>
            valueIn (c.run steps).values (o.nameCase.normalize name))).written false := by
        rw [values]
      _ = (chunks o.nameCase false node).flatMap (Chunk.filled (valueIn (c.run steps).values)) :=
        (flatMap_chunks node false).symm
  refine ⟨chunks o.nameCase false node, ?_, ?_, ?_⟩
  · rw [skeleton, found]
    rfl
  · intro name verbatim hole
    exact known_of_hole start covers hole
  · intro steps all
    refine ⟨written steps all, ?_, ?_⟩
    · intro escaped
      rw [written steps all]
      exact filter_flatMap_filled escaped _
    · intro more others same
      rw [written more others, written steps all, same]

theorem markup_run_eq_skeleton_notice : ∃ c,
    build "<p title=\"{{a}}\">{{a}}<style>{{a}}</style></p>".toList {} = .ok c ∧
      (c.run [.update "a".toList "<i>".toList]).markup =
        "<p title=\"{{a}}\">&lt;i&gt;<style><i></style></p>".toList := by
  let template : Text := "<p title=\"{{a}}\">{{a}}<style>{{a}}</style></p>".toList
  have values : (build template {}).toOption.map (fun c =>
      (c.run [.update "a".toList "<i>".toList]).values) =
        some [("a".toList, "<i>".toList)] := by decide +kernel
  rcases Option.map_eq_some_iff.mp values with ⟨c, built, now⟩
  rcases markup_run_eq_skeleton (eq_ok_of_toOption built) with ⟨l, found, _, runs⟩
  have known : skeleton template {} = .ok [.fixed "<p title=\"{{a}}\">".toList,
      .hole "a".toList false, .fixed "<style>".toList, .hole "a".toList true,
      .fixed "</style>".toList, .fixed "</p>".toList] := by decide +kernel
  obtain rfl := Except.ok.inj (found.symm.trans known)
  refine ⟨c, eq_ok_of_toOption built, ?_⟩
  rw [(runs _ (by simp [Step.renders])).1, now]
  decide

end Component

end LiveTemplate.Template
