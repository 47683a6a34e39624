import LiveTemplate.Proofs.Document.Edits
import LiveTemplate.Proofs.Template.Tracking

namespace LiveTemplate.Template.Tracker

open Document

variable {k : Tracker} {d middle next : Document} {l more : List TrackedText} {m n : Nat}

structure Rendered (k : Tracker) (l : List TrackedText) (d next : Document) (writes : Nat) :
    Prop where
  text : ∀ t ∈ l, next.text? t.node = some (k.render t)
  content : ∀ id, id ∉ l.map (·.node) → next.content? id = d.content? id
  parent : ∀ id, next.parent? id = d.parent? id
  children : ∀ id, next.children id = d.children id
  size : next.size = d.size
  differing : writes = l.countP fun t => d.text? t.node ≠ some (k.render t)
  textWrites : next.textWrites = d.textWrites + writes

theorem rendered_nil (k : Tracker) (d : Document) : Rendered k [] d d 0 := by
  constructor <;> simp

theorem rendered_write {t : TrackedText} (text : d.isText t.node) :
    Rendered k [t] d (k.write t d).1 (k.write t d).2 := by
  rw [write]
  split
  · rename_i same
    constructor <;> simp [same]
  · rename_i differs
    have writable : (d.setText? t.node (k.render t)).isSome := setText?_isSome_iff.mpr text
    rcases Option.isSome_iff_exists.mp writable with ⟨changed, written⟩
    rw [written]
    constructor
    · intro u member
      obtain rfl := List.mem_singleton.mp member
      rw [text?_eq_some_iff, Option.getD_some, content?_setText written, if_pos rfl]
    · intro id other
      rw [Option.getD_some, content?_setText written, if_neg (by simpa using other)]
    · exact fun id => parent?_setText written
    · exact fun id => children_setText written
    · exact size_setText written
    · simp [differs]
    · exact textWrites_setText written

/-- Texts rendered later do not disturb those rendered before, as no node is listed twice. -/
theorem Rendered.trans (first : Rendered k l d middle m) (second : Rendered k more middle next n)
    (distinct : ((l ++ more).map (·.node)).Nodup) : Rendered k (l ++ more) d next (m + n) := by
  rw [List.map_append, List.nodup_append] at distinct
  rcases distinct with ⟨_, _, apart⟩
  constructor
  · intro t member
    rcases List.mem_append.mp member with early | late
    · have untouched : t.node ∉ more.map (·.node) := fun again =>
        apart _ (List.mem_map_of_mem early) _ again rfl
      rw [text?_of_content? (second.content _ untouched)]
      exact first.text t early
    · exact second.text t late
  · intro id outside
    rw [List.map_append, List.mem_append, not_or] at outside
    rw [second.content id outside.2, first.content id outside.1]
  · exact fun id => (second.parent id).trans (first.parent id)
  · exact fun id => (second.children id).trans (first.children id)
  · exact second.size.trans first.size
  · have unseen : more.countP (fun t => middle.text? t.node ≠ some (k.render t)) =
        more.countP fun t => d.text? t.node ≠ some (k.render t) := by
      apply List.countP_congr
      intro t late
      have untouched : t.node ∉ l.map (·.node) := fun early =>
        apart _ early _ (List.mem_map_of_mem late) rfl
      rw [text?_of_content? (first.content _ untouched)]
    calc
      m + n = l.countP (fun t => d.text? t.node ≠ some (k.render t)) +
          more.countP (fun t => middle.text? t.node ≠ some (k.render t)) := by
        rw [first.differing, second.differing]
      _ = l.countP (fun t => d.text? t.node ≠ some (k.render t)) +
          more.countP (fun t => d.text? t.node ≠ some (k.render t)) := by rw [unseen]
      _ = (l ++ more).countP fun t => d.text? t.node ≠ some (k.render t) :=
        List.countP_append.symm
  · calc
      next.textWrites = middle.textWrites + n := second.textWrites
      _ = d.textWrites + m + n := by rw [first.textWrites]
      _ = d.textWrites + (m + n) := Nat.add_assoc _ _ _

theorem Rendered.isText {id : NodeId} (rendered : Rendered k l d next n) (text : d.isText id) :
    next.isText id := by
  by_cases listed : id ∈ l.map (·.node)
  · rcases List.mem_map.mp listed with ⟨t, member, rfl⟩
    rw [isText_iff_text?_isSome, rendered.text t member]
    rfl
  · rw [isText_iff] at text ⊢
    rwa [rendered.content id listed]

theorem Rendered.sameTree (rendered : Rendered k l d next n) (texts : ∀ t ∈ l, d.isText t.node) :
    d.SameTree next where
  text := fun id text => rendered.isText text
  content := by
    intro id other
    refine rendered.content id fun listed => ?_
    rcases List.mem_map.mp listed with ⟨t, member, rfl⟩
    simp [texts t member] at other
  parent := rendered.parent
  children := rendered.children
  size := rendered.size

theorem rendered_foldl (k : Tracker) : ∀ (l : List TrackedText) (d : Document) (n : Nat),
    (∀ t ∈ l, d.isText t.node) → (l.map (·.node)).Nodup →
    ∃ next m, l.foldl (fun (d, writes) t =>
      let (d, written) := k.write t d
      (d, writes + written)) (d, n) = (next, n + m) ∧ Rendered k l d next m
  | [], d, n, _, _ => ⟨d, 0, rfl, rendered_nil k d⟩
  | t :: more, d, n, texts, distinct => by
      have first : Rendered k [t] d (k.write t d).1 (k.write t d).2 :=
        rendered_write (texts t List.mem_cons_self)
      have still : ∀ u ∈ more, (k.write t d).1.isText u.node := fun u member =>
        first.isText (texts u (List.mem_cons_of_mem t member))
      obtain ⟨next, m, same, others⟩ := rendered_foldl k more (k.write t d).1
        (n + (k.write t d).2) still (List.nodup_cons.mp distinct).2
      refine ⟨next, (k.write t d).2 + m, ?_, first.trans others distinct⟩
      rw [List.foldl_cons, same, Nat.add_assoc]

theorem rendered_apply (texts : ∀ t ∈ k.texts, d.isText t.node)
    (distinct : (k.texts.map (·.node)).Nodup) :
    Rendered k k.texts d (k.apply d).1 (k.apply d).2 := by
  rcases rendered_foldl k k.texts d 0 texts distinct with ⟨next, m, same, rendered⟩
  rw [apply, same]
  simpa using rendered

theorem apply_of_rendered (current : ∀ t ∈ k.texts, d.text? t.node = some (k.render t)) :
    k.apply d = (d, 0) := by
  suffices ∀ l : List TrackedText, (∀ t ∈ l, d.text? t.node = some (k.render t)) →
      l.foldl (fun (d, writes) t =>
        let (d, written) := k.write t d
        (d, writes + written)) (d, 0) = (d, 0) from this k.texts current
  intro l current
  induction l with
  | nil => rfl
  | cons t more ih =>
      have same : k.write t d = (d, 0) := by
        rw [write, if_pos (current t List.mem_cons_self)]
      simp only [List.foldl_cons, same]
      exact ih fun u member => current u (List.mem_cons_of_mem t member)

end LiveTemplate.Template.Tracker
