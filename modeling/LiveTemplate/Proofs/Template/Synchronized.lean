import LiveTemplate.Proofs.Template.Runs

namespace LiveTemplate.Template

open Document
open Markup (Node)

theorem plantRoot_eq_ok {template : Text} {d : Document} {root : NodeId}
    (planted : plantRoot template = .ok (d, root)) :
    ∃ node, rootOf template = .ok node ∧ d = (Document.plant {} node).1 ∧ root = 0 := by
  rw [plantRoot] at planted
  cases found : rootOf template with
  | error cause => simp [found, Except.map] at planted
  | ok node =>
      simp only [found, Except.map, Except.ok.injEq] at planted
      rcases Prod.mk.inj planted with ⟨rfl, rfl⟩
      exact ⟨node, rfl, rfl, plant_snd {} node⟩

def Covers (texts : List TrackedText) (d : Document) : Prop :=
  texts.map (fun t => (t.node, some t.pattern)) =
    ((List.range d.size).filter d.isText).map fun id => (id, d.text? id)

theorem Covers.exists_of_text? {texts : List TrackedText} {d : Document} {id : NodeId}
    {pattern : Text} (covers : Covers texts d) (found : d.text? id = some pattern) :
    ∃ t ∈ texts, t.node = id ∧ t.pattern = pattern := by
  have text : d.isText id := isText_iff_text?_isSome.mpr (by simp [found])
  have listed : (id, d.text? id) ∈ texts.map fun t => (t.node, some t.pattern) := by
    rw [covers]
    apply List.mem_map_of_mem
    exact List.mem_filter.mpr ⟨List.mem_range.mpr (lt_size_of_isText text), text⟩
  rcases List.mem_map.mp listed with ⟨t, tracked, same⟩
  rcases Prod.mk.inj same with ⟨node, read⟩
  exact ⟨t, tracked, node, Option.some.inj (read.trans found)⟩

theorem texts_of_plant (node : Node) :
    (Shadow.of (Document.plant {} node).1 0).texts =
      (List.range (Document.plant {} node).1.size).filter (Document.plant {} node).1.isText := by
  have nodes : (Shadow.of (Document.plant {} node).1 0).nodes.map (·.node) =
      List.range (Document.plant {} node).1.size := by
    rw [nodes_of_plant, List.map_map]
    exact List.map_id _
  exact congrArg (List.filter _) nodes

def mentioned (nameCase : NameCase) (node : Node) : List Text :=
  (node.texts.flatMap placeholderNames).map nameCase.normalize

theorem flatMap_filter_isText (d : Document) (names : Text → List Text) (ids : List NodeId) :
    (ids.filter d.isText).flatMap (fun id => names ((d.text? id).getD [])) =
      (ids.filterMap d.text?).flatMap names := by
  induction ids with
  | nil => rfl
  | cons id more ih =>
      have kind : d.isText id = (d.text? id).isSome := by
        rw [Bool.eq_iff_iff, isText_iff_text?_isSome]
      cases read : d.text? id with
      | none =>
          rw [read, Option.isSome_none] at kind
          rw [List.filter_cons_of_neg (by simp [kind]), List.filterMap_cons_none read, ih]
      | some content =>
          rw [read, Option.isSome_some] at kind
          rw [List.filter_cons_of_pos kind, List.filterMap_cons_some read, List.flatMap_cons, ih,
            read, Option.getD_some, List.flatMap_cons]

namespace Component

variable {template : Text} {o : Options} {c : Component}

theorem build_of_rootOf {node : Node} (found : rootOf (o.renamed template) = .ok node) :
    ∃ c, build template o = .ok c := by
  rw [build, plantRoot, found]
  exact ⟨_, rfl⟩

theorem names_values (c : Component) : c.values.map (·.1) = c.tracker.vars.keys := by
  rw [values, List.map_map]
  rfl

theorem keys_build {node : Node} (built : build template o = .ok c)
    (found : rootOf (o.renamed template) = .ok node) :
    c.tracker.vars.keys = (mentioned o.nameCase node).eraseDups := by
  rw [build, plantRoot, found] at built
  have tracker : c.tracker = Tracker.ofNodes (Document.plant {} node).1
      (Shadow.of (Document.plant {} node).1 (Document.plant {} node).2).texts o.nameCase := by
    rw [← Except.ok.inj built]
    rfl
  have inside : (List.range (Document.plant {} node).1.size).filterMap
      (Document.plant {} node).1.text? = node.texts := texts_plant node
  have nodes : (Shadow.of (Document.plant {} node).1 (Document.size {})).texts =
      (List.range (Document.plant {} node).1.size).filter (Document.plant {} node).1.isText :=
    texts_of_plant node
  rw [tracker, plant_snd, nodes, Tracker.keys_ofNodes, mentioned, List.map_flatMap, ← inside,
    ← flatMap_filter_isText]

theorem tracks_ofNodes (d : Document) (root : NodeId) (nameCase : NameCase)
    (handles : Table NodeId) :
    let k := Tracker.ofNodes d ((List.range d.size).filter d.isText) nameCase
    Tracks nameCase k.texts [] ⟨d, root, k, handles⟩ := by
  intro k
  have fresh := Tracker.fresh_ofNodes d ((List.range d.size).filter d.isText) nameCase
  have nodes : k.texts.map (·.node) = (List.range d.size).filter d.isText := by
    have pairs := congrArg (List.map Prod.fst) fresh.texts
    simpa [Function.comp_def] using pairs
  constructor
  · exact Tracker.nameCase_ofNodes d _ nameCase
  · rfl
  · exact fresh.indexed
  · funext name
    exact Tracker.valueOf_fresh fresh name
  · intro t member
    have listed : t.node ∈ (List.range d.size).filter d.isText :=
      nodes ▸ List.mem_map_of_mem member
    exact (List.mem_filter.mp listed).2
  · rw [nodes]
    exact List.nodup_range.filter _

theorem covers_ofNodes (d : Document) (nameCase : NameCase) :
    Covers (Tracker.ofNodes d ((List.range d.size).filter d.isText) nameCase).texts d := by
  have fresh := Tracker.fresh_ofNodes d ((List.range d.size).filter d.isText) nameCase
  have pairs := congrArg (List.map fun p : NodeId × Text => (p.1, some p.2)) fresh.texts
  simp only [List.map_map, Function.comp_def] at pairs
  rw [Covers, pairs]
  apply List.map_congr_left
  intro id member
  have text := (List.mem_filter.mp member).2
  rcases Option.isSome_iff_exists.mp (isText_iff_text?_isSome.mp text) with ⟨content, found⟩
  rw [found, Option.getD_some]

/-- A component starts from the tree of its template, every text of which is tracked. -/
theorem tracks_build (built : build template o = .ok c) :
    ∃ d root, plantRoot (o.renamed template) = .ok (d, root) ∧ Covers c.tracker.texts d ∧
      Tracks o.nameCase c.tracker.texts [] c ∧
      c.Shows c.tracker.texts (lastStored o.nameCase []) ∧
      d.SameTree c.document ∧ c.root = root := by
  rw [build] at built
  cases planted : plantRoot (o.renamed template) with
  | error cause => simp [planted] at built
  | ok result =>
      rcases result with ⟨d, root⟩
      rcases plantRoot_eq_ok planted with ⟨node, _, rfl, rfl⟩
      simp only [planted, Except.ok.injEq] at built
      rw [texts_of_plant] at built
      subst built
      have start := tracks_ofNodes (Document.plant {} node).1 0 o.nameCase
        (Shadow.of (Document.plant {} node).1 0).handles
      exact ⟨_, _, rfl, covers_ofNodes _ o.nameCase, start.refresh, start.shows_refresh,
        start.rendered.sameTree start.live, rfl⟩

/-- Every text of a template shows the values stored last after each rendering of any run, and a
rendering counts, as writes, the texts that differed before it. -/
theorem texts_synchronized (built : build template o = .ok c) :
    ∃ d root, plantRoot (o.renamed template) = .ok (d, root) ∧
      c.tracker.texts.map (fun t => (t.node, some t.pattern)) =
        ((List.range d.size).filter d.isText).map (fun id => (id, d.text? id)) ∧
      c.Shows c.tracker.texts (lastStored o.nameCase []) ∧
      ∀ steps : List Step,
        (∀ t ∈ c.tracker.texts, (c.run steps).document.isText t.node) ∧
        (∀ s next, s.renders → (c.run steps).perform? s = some next →
          next.Shows c.tracker.texts (lastStored o.nameCase (c.stored (steps ++ [s])))) ∧
        (c.run steps).refresh.1.document.textWrites =
          (c.run steps).document.textWrites + (c.run steps).refresh.2 ∧
        (c.run steps).refresh.2 = c.tracker.texts.countP (fun t =>
          (c.run steps).document.text? t.node ≠
            some (filled (lastStored o.nameCase (c.stored steps)) t.pattern)) ∧
        (c.run steps).refresh.1.refresh = ((c.run steps).refresh.1, 0) := by
  rcases tracks_build built with ⟨d, root, planted, covers, start, shown, _⟩
  refine ⟨d, root, planted, covers, shown, fun steps => ?_⟩
  have tracks := start.run steps
  rw [List.nil_append] at tracks
  refine ⟨tracks.live, fun s next renders done => ?_, tracks.counts_refresh⟩
  rw [stored_append, stored_of_perform? done]
  exact (tracks.perform? done).2 renders

theorem texts_synchronized_greeting :
    ∃ c next, build "<p>Hi {{name}}</p>".toList {} = .ok c ∧
      c.perform? (.update "name".toList "you".toList) = some next ∧
      next.Shows c.tracker.texts (lastStored .sensitive (c.stored
        [.update "name".toList "you".toList])) ∧
      c.document.text? 1 = some "Hi ".toList ∧ next.document.text? 1 = some "Hi you".toList := by
  have facts : ((build "<p>Hi {{name}}</p>".toList {}).toOption.bind fun c =>
      (c.perform? (.update "name".toList "you".toList)).map fun next =>
        (c.document.text? 1, next.document.text? 1)) =
          some (some "Hi ".toList, some "Hi you".toList) := by decide +kernel
  rcases Option.bind_eq_some_iff.mp facts with ⟨c, built, shown⟩
  rcases Option.map_eq_some_iff.mp shown with ⟨next, done, shown⟩
  rcases texts_synchronized (eq_ok_of_toOption built) with ⟨_, _, _, _, _, runs⟩
  exact ⟨c, next, eq_ok_of_toOption built, done, (runs []).2.1 _ next rfl done,
    (Prod.mk.inj shown).1, (Prod.mk.inj shown).2⟩

end Component

end LiveTemplate.Template
