import LiveTemplate.Proofs.Template.Indexing
import LiveTemplate.Proofs.Text.Distinct

/-! What bringing texts up to date counts, whatever nodes are tracked. A node that is tracked twice has
its text when it comes again, so it is written once; a node that is no text never has its rendering,
so it is counted each time although nothing is written. -/

namespace LiveTemplate.Template.Tracker

open Document

variable {k : Tracker} {d next : Document} {l first : List TrackedText} {t : TrackedText}
  {rendering : NodeId → Text} {written : Nat}

theorem write_of_current (current : d.text? t.node = some (k.render t)) : k.write t d = (d, 0) := by
  rw [write, if_pos current]

theorem write_of_not_text (other : ¬ d.isText t.node) : k.write t d = (d, 1) := by
  have unread : d.text? t.node = none := by
    rw [isText_iff_text?_isSome] at other
    simpa using other
  have unwritable : d.setText? t.node (k.render t) = none := by
    rw [← Option.not_isSome_iff_eq_none, setText?_isSome_iff]
    exact other
  rw [write, if_neg (by simp [unread]), unwritable, Option.getD_none]

structure FirstTexts (d : Document) (l first : List TrackedText) : Prop where
  inside : first ⊆ l
  nodes : first.map (·.node) = (l.map (·.node)).eraseDups.filter d.isText
  distinct : (first.map (·.node)).Nodup

namespace FirstTexts

theorem mem_iff (firsts : FirstTexts d l first) {id : NodeId} :
    id ∈ first.map (·.node) ↔ id ∈ l.map (·.node) ∧ d.isText id := by
  rw [firsts.nodes, List.mem_filter, List.mem_eraseDups]

theorem live (firsts : FirstTexts d l first) : ∀ u ∈ first, d.isText u.node :=
  fun _ member => (firsts.mem_iff.mp (List.mem_map_of_mem member)).2

/-- A node that is no text or has been met before adds nothing. -/
theorem skip (firsts : FirstTexts d l first)
    (known : d.isText t.node → t.node ∈ l.map (·.node)) : FirstTexts d (l ++ [t]) first where
  inside := List.Subset.trans firsts.inside (List.subset_append_left _ _)
  nodes := by
    rw [firsts.nodes, List.map_append, List.map_singleton, eraseDups_concat, List.filter_append]
    by_cases text : d.isText t.node
    · simp [known text]
    · split <;> simp [text]
  distinct := firsts.distinct

theorem add (firsts : FirstTexts d l first) (text : d.isText t.node)
    (fresh : t.node ∉ l.map (·.node)) : FirstTexts d (l ++ [t]) (first ++ [t]) where
  inside := List.append_subset.mpr
    ⟨List.Subset.trans firsts.inside (List.subset_append_left _ _), List.subset_append_right _ _⟩
  nodes := by
    rw [List.map_append, List.map_append, List.map_singleton, firsts.nodes, eraseDups_concat,
      if_neg fresh, List.filter_append, List.filter_singleton, text]
    rfl
  distinct := by
    rw [List.map_append, List.map_singleton, List.nodup_append]
    refine ⟨firsts.distinct, List.nodup_singleton _, fun id early other late same => ?_⟩
    obtain rfl := List.mem_singleton.mp late
    exact fresh (same ▸ (firsts.mem_iff.mp early).1)

end FirstTexts

def Renders (k : Tracker) (l : List TrackedText) (rendering : NodeId → Text) : Prop :=
  ∀ t ∈ l, k.render t = rendering t.node

def writeAll (k : Tracker) (l : List TrackedText) (d : Document) : Document × Nat :=
  l.foldl (fun (d, writes) t =>
    let (d, written) := k.write t d
    (d, writes + written)) (d, 0)

theorem apply_eq (k : Tracker) (d : Document) : k.apply d = k.writeAll k.texts d := rfl

theorem writeAll_concat (k : Tracker) (l : List TrackedText) (t : TrackedText) (d : Document) :
    k.writeAll (l ++ [t]) d = ((k.write t (k.writeAll l d).1).1,
      (k.writeAll l d).2 + (k.write t (k.writeAll l d).1).2) := by
  rw [writeAll, List.foldl_append]
  rfl

def misses (d : Document) (l : List TrackedText) : Nat :=
  l.countP fun t => !d.isText t.node

theorem misses_concat (d : Document) (l : List TrackedText) (t : TrackedText) :
    misses d (l ++ [t]) = misses d l + if d.isText t.node then 0 else 1 := by
  rw [misses, List.countP_append, ← misses, List.countP_singleton]
  cases d.isText t.node <;> rfl

/-- A pass renders the texts among the tracked nodes, and counts each other node besides. -/
theorem rendered_writeAll (renders : k.Renders l rendering) (d : Document) :
    ∃ (first : List TrackedText) (next : Document) (written : Nat),
      k.writeAll l d = (next, written + misses d l) ∧ FirstTexts d l first ∧
      Rendered k first d next written := by
  induction l using List.reverseRecOn with
  | nil => exact ⟨[], d, 0, rfl, ⟨List.nil_subset _, rfl, List.nodup_nil⟩, rendered_nil k d⟩
  | append_singleton l t ih =>
      have before : l ⊆ l ++ [t] := List.subset_append_left _ _
      have last : t ∈ l ++ [t] := List.mem_append_right _ (List.mem_singleton_self t)
      rcases ih fun u early => renders u (before early) with
        ⟨first, next, written, done, firsts, rendered⟩
      have kind : next.isText t.node = d.isText t.node := (rendered.sameTree firsts.live).isText
      rw [writeAll_concat, done, misses_concat]
      by_cases text : d.isText t.node
      · rw [if_pos text, Nat.add_zero]
        by_cases again : t.node ∈ l.map (·.node)
        · -- the node has its text since it was met first
          rcases List.mem_map.mp (firsts.mem_iff.mpr ⟨again, text⟩) with ⟨u, member, same⟩
          have current : next.text? t.node = some (k.render t) := by
            rw [renders t last, ← same, rendered.text u member,
              renders u (before (firsts.inside member))]
          refine ⟨first, next, written, ?_, firsts.skip fun _ => again, rendered⟩
          rw [write_of_current current]
          rfl
        · have added := firsts.add text again
          have step := rendered_write (k := k) (kind.trans text)
          refine ⟨first ++ [t], _, _, ?_, added, rendered.trans step added.distinct⟩
          rw [Nat.add_right_comm]
      · rw [if_neg text, write_of_not_text (by rwa [kind])]
        exact ⟨first, next, written, rfl, firsts.skip fun now => absurd now text, rendered⟩

theorem writeAll_of_current
    (current : ∀ t ∈ l, d.isText t.node → d.text? t.node = some (k.render t)) :
    k.writeAll l d = (d, misses d l) := by
  induction l using List.reverseRecOn with
  | nil => rfl
  | append_singleton l t ih =>
      have last := current t (List.mem_append_right _ (List.mem_singleton_self t))
      have others := ih fun u member => current u (List.mem_append_left _ member)
      rw [writeAll_concat, misses_concat, others]
      by_cases text : d.isText t.node
      · rw [write_of_current (last text), if_pos text]
      · rw [write_of_not_text text, if_neg text]

structure Passed (rendering : NodeId → Text) (ids : List NodeId) (now next : Document)
    (written : Nat) : Prop where
  shown : ∀ id ∈ ids, now.isText id → next.text? id = some (rendering id)
  /-- A text counts once, however often it is listed. -/
  differing : written = ids.eraseDups.countP fun id =>
    now.isText id ∧ now.text? id ≠ some (rendering id)
  textWrites : next.textWrites = now.textWrites + written
  tree : now.SameTree next
  others : ∀ id ∉ ids, next.record? id = now.record? id

theorem FirstTexts.passed (firsts : FirstTexts d l first) (renders : k.Renders l rendering)
    (rendered : Rendered k first d next written) :
    Passed rendering (l.map (·.node)) d next written where
  shown := by
    intro id member text
    rcases List.mem_map.mp (firsts.mem_iff.mpr ⟨member, text⟩) with ⟨t, inside, rfl⟩
    rw [rendered.text t inside, renders t (firsts.inside inside)]
  differing := by
    calc
      written = first.countP (fun t => d.text? t.node ≠ some (k.render t)) := rendered.differing
      _ = first.countP (fun t => d.text? t.node ≠ some (rendering t.node)) := by
        apply List.countP_congr
        intro t inside
        rw [renders t (firsts.inside inside)]
      _ = (first.map (·.node)).countP (fun id => d.text? id ≠ some (rendering id)) := by
        rw [List.countP_map]
        rfl
      _ = (l.map (·.node)).eraseDups.countP (fun id =>
            d.isText id ∧ d.text? id ≠ some (rendering id)) := by
        rw [firsts.nodes, List.countP_filter]
        apply List.countP_congr
        simp [and_comm]
  textWrites := rendered.textWrites
  tree := rendered.sameTree firsts.live
  others := by
    intro id unlisted
    have untouched : id ∉ first.map (·.node) := fun met => unlisted (firsts.mem_iff.mp met).1
    exact record?_eq_of_views (rendered.content id untouched) (rendered.parent id)
      (rendered.children id)

theorem exists_passed (renders : k.Renders k.texts rendering) (now : Document) :
    ∃ next written, k.apply now = (next, written + misses now k.texts) ∧
      Passed rendering (k.texts.map (·.node)) now next written ∧
      k.apply next = (next, misses now k.texts) := by
  rcases rendered_writeAll renders now with ⟨first, next, written, done, firsts, rendered⟩
  have passed := firsts.passed renders rendered
  refine ⟨next, written, done, passed, ?_⟩
  have current : ∀ t ∈ k.texts, next.isText t.node → next.text? t.node = some (k.render t) := by
    intro t tracked text
    rw [passed.tree.isText] at text
    rw [renders t tracked]
    exact passed.shown t.node (List.mem_map_of_mem tracked) text
  rw [apply_eq, writeAll_of_current current]
  simp only [misses, passed.tree.isText]

theorem pairs_given (d : Document) (nodes : List NodeId) (nameCase : NameCase)
    (stores : List (Text × Text)) :
    ((ofNodes d nodes nameCase).given stores).texts.map (fun t => (t.node, t.pattern)) =
      nodes.map fun id => (id, (d.text? id).getD []) :=
  (texts_given _ stores).symm ▸ (fresh_ofNodes d nodes nameCase).texts

theorem nodes_given (d : Document) (nodes : List NodeId) (nameCase : NameCase)
    (stores : List (Text × Text)) :
    ((ofNodes d nodes nameCase).given stores).texts.map (·.node) = nodes := by
  have firsts := congrArg (List.map Prod.fst) (pairs_given d nodes nameCase stores)
  simpa [Function.comp_def] using firsts

/-- A listed text is rendered as it read when it was listed, under the values set last. -/
theorem renders_given (d : Document) (nodes : List NodeId) (nameCase : NameCase)
    (stores : List (Text × Text)) :
    let k := (ofNodes d nodes nameCase).given stores
    k.Renders k.texts fun id => filled (lastStored nameCase stores) ((d.text? id).getD []) := by
  intro k t tracked
  have fresh := fresh_ofNodes d nodes nameCase
  have first : t ∈ (ofNodes d nodes nameCase).texts := texts_given _ stores ▸ tracked
  have pair : (t.node, t.pattern) ∈ nodes.map fun id => (id, (d.text? id).getD []) :=
    pairs_given d nodes nameCase stores ▸ List.mem_map_of_mem tracked
  rcases List.mem_map.mp pair with ⟨id, _, same⟩
  rcases Prod.mk.inj same with ⟨rfl, pattern⟩
  simp only [pattern]
  rw [render_eq_filled (fresh.indexed.given stores) tracked]
  apply filled_congr
  intro name member
  have known : (ofNodes d nodes nameCase).contains name := contains_iff.mpr
    (fresh.indexed.known t first name (mem_placeholderNames_iff.mp member))
  rw [valueOf_given (valueOf_fresh fresh name) known, nameCase_ofNodes]

/-- Whatever nodes were listed, whatever values were set and whatever the document says now: a pass
leaves every listed text with its rendering. It answers the number of its writes and of the listed
nodes that are no texts, and another pass the latter alone. -/
theorem apply_counts (d now : Document) (nodes : List NodeId) (nameCase : NameCase)
    (stores : List (Text × Text)) :
    let k := (ofNodes d nodes nameCase).given stores
    let rendering := fun id => filled (lastStored nameCase stores) ((d.text? id).getD [])
    let missed := nodes.countP fun id => !now.isText id
    (∀ t ∈ k.texts, k.render t = rendering t.node) ∧
    ∃ next written, k.apply now = (next, written + missed) ∧
      Passed rendering nodes now next written ∧ k.apply next = (next, missed) ∧
      (missed = 0 ↔ ∀ id ∈ nodes, now.isText id) := by
  intro k rendering missed
  have renders : k.Renders k.texts rendering := renders_given d nodes nameCase stores
  have listed : k.texts.map (·.node) = nodes := nodes_given d nodes nameCase stores
  have missing : misses now k.texts = missed := by
    rw [misses]
    simp only [missed, ← listed, List.countP_map]
    rfl
  rcases exists_passed renders now with ⟨next, written, done, passed, again⟩
  rw [missing] at done again
  rw [listed] at passed
  refine ⟨renders, next, written, done, passed, again, ?_⟩
  simp [missed]

/-- An element that is listed is counted at every pass, and nothing is ever written. -/
theorem apply_counts_element :
    let d := (Document.create {} (.element "p".toList {})).1
    let k := ofNodes d [0] .sensitive
    (k.apply d).2 = 1 ∧ (k.apply d).1.textWrites = d.textWrites ∧
      (k.apply (k.apply d).1).2 = 1 := by
  decide

end LiveTemplate.Template.Tracker
