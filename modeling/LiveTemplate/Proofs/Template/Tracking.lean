import LiveTemplate.Proofs.Template.Segments
import LiveTemplate.Template.Tracker
import Mathlib.Data.List.Basic
import Mathlib.Tactic.Common

namespace LiveTemplate.Template

def Part.filled (value : Text → Text) : Part → Text
  | .literal content => content
  | .placeholder name => value name

def filled (value : Text → Text) (pattern : Text) : Text :=
  (parts pattern).flatMap (Part.filled value)

/-- Only the values of its own names count for a text. -/
theorem filled_congr {value other : Text → Text} {pattern : Text}
    (same : ∀ name ∈ placeholderNames pattern, value name = other name) :
    filled value pattern = filled other pattern := by
  apply List.flatMap_congr
  intro part inside
  cases part with
  | literal content => rfl
  | placeholder name => exact same name (mem_placeholderNames_iff.mpr inside)

namespace Tracker

variable {k next : Tracker} {name value : Text}

def valueOf (k : Tracker) (name : Text) : Text :=
  ((k.get? name).map (·.value)).getD []

def piecesFrom (nameCase : NameCase) (vars : Table Variable) (next : Nat) : List Part → List Piece
  | [] => []
  | .literal content :: more =>
    .literal next (next + content.byteLength) ::
      piecesFrom nameCase vars (next + content.byteLength) more
  | .placeholder name :: more =>
    .slot (vars.keys.idxOf (nameCase.normalize name)) ::
      piecesFrom nameCase vars (next + (Part.placeholder name).byteLength) more

structure Indexed (k : Tracker) : Prop where
  pieces : ∀ t ∈ k.texts, t.pieces = piecesFrom k.nameCase k.vars 0 (parts t.pattern)
  known : ∀ t ∈ k.texts, ∀ name, .placeholder name ∈ parts t.pattern →
    k.nameCase.normalize name ∈ k.vars.keys

theorem valueAt_idxOf (known : k.nameCase.normalize name ∈ k.vars.keys) :
    k.valueAt (k.vars.keys.idxOf (k.nameCase.normalize name)) = k.valueOf name := by
  rcases Option.isSome_iff_exists.mp ((k.vars.mem_keys_iff _).mp known) with ⟨v, found⟩
  rw [valueAt, k.vars.getElem?_idxOf found, valueOf, get?, found]
  rfl

theorem flatMap_renderPiece {before : Text} {l : List Part}
    (known : ∀ name, .placeholder name ∈ l → k.nameCase.normalize name ∈ k.vars.keys) :
    (piecesFrom k.nameCase k.vars before.byteLength l).flatMap
      (k.renderPiece (before ++ l.flatMap Part.source)) = l.flatMap (Part.filled k.valueOf) := by
  -- the characters before the parts say at which byte the first of them starts
  induction l generalizing before with
  | nil => rfl
  | cons part more ih =>
      have later := @ih (before ++ part.source) fun name member =>
        known name (List.mem_cons_of_mem part member)
      rw [List.append_assoc, ← List.flatMap_cons, Text.byteLength_append] at later
      cases part with
      | literal content =>
          have cut : k.renderPiece (before ++ (Part.literal content :: more).flatMap Part.source)
              (.literal before.byteLength (before.byteLength + content.byteLength)) = content := by
            rw [List.flatMap_cons, ← List.append_assoc, ← Text.byteLength_append]
            exact congrArg (Option.getD · []) (Text.slice?_append before content _)
          rw [piecesFrom, List.flatMap_cons, cut]
          exact congrArg (content ++ ·) later
      | placeholder name =>
          rw [piecesFrom, List.flatMap_cons, renderPiece,
            valueAt_idxOf (known name List.mem_cons_self)]
          exact congrArg (k.valueOf name ++ ·) later

/-- Every text is rendered as its pattern with the values that the names in it have. -/
theorem render_eq_filled (indexed : k.Indexed) {t : TrackedText} (tracked : t ∈ k.texts) :
    k.render t = filled k.valueOf t.pattern := by
  have rendered := @flatMap_renderPiece k [] _ (indexed.known t tracked)
  rw [List.nil_append, flatMap_source_parts] at rendered
  rw [render, indexed.pieces t tracked]
  exact rendered

theorem eq_of_set? (stored : k.set? name value = some next) : ∃ v, k.get? name = some v ∧
    next = { k with vars := k.vars.insert (k.nameCase.normalize name) { v with value } } := by
  rcases Option.map_eq_some_iff.mp stored with ⟨v, found, same⟩
  exact ⟨v, found, same.symm⟩

theorem nameCase_set? (stored : k.set? name value = some next) : next.nameCase = k.nameCase := by
  rcases eq_of_set? stored with ⟨v, _, rfl⟩
  rfl

theorem texts_set? (stored : k.set? name value = some next) : next.texts = k.texts := by
  rcases eq_of_set? stored with ⟨v, _, rfl⟩
  rfl

theorem keys_set? (stored : k.set? name value = some next) : next.vars.keys = k.vars.keys := by
  rcases eq_of_set? stored with ⟨v, found, rfl⟩
  have known : k.nameCase.normalize name ∈ k.vars.keys :=
    (k.vars.mem_keys_iff _).mpr (by rw [get?] at found; simp [found])
  simp only [Table.keys_insert, if_pos known]

theorem idxOf_of_grown {first second : List Text} {name : Text} (grown : first <+: second)
    (known : name ∈ first) : first.idxOf name = second.idxOf name := by
  rcases grown with ⟨more, rfl⟩
  exact (List.idxOf_append_of_mem known).symm

theorem piecesFrom_of_prefix {nameCase : NameCase} {first second : Table Variable} {l : List Part}
    (grown : first.keys <+: second.keys)
    (known : ∀ name, .placeholder name ∈ l → nameCase.normalize name ∈ first.keys) (start : Nat) :
    piecesFrom nameCase first start l = piecesFrom nameCase second start l := by
  induction l generalizing start with
  | nil => rfl
  | cons part more ih =>
      have later := ih fun name member => known name (List.mem_cons_of_mem part member)
      cases part with
      | literal content => rw [piecesFrom, piecesFrom, later]
      | placeholder name =>
          rw [piecesFrom, piecesFrom, later, idxOf_of_grown grown (known name List.mem_cons_self)]

theorem indexed_set? (indexed : k.Indexed) (stored : k.set? name value = some next) :
    next.Indexed where
  pieces := by
    rw [texts_set? stored, nameCase_set? stored]
    intro t tracked
    rw [indexed.pieces t tracked]
    exact piecesFrom_of_prefix (keys_set? stored ▸ List.prefix_rfl) (indexed.known t tracked) 0
  known := by
    rw [texts_set? stored, nameCase_set? stored, keys_set? stored]
    exact indexed.known

theorem get?_set? (stored : k.set? name value = some next) (other : Text) :
    next.get? other = if k.nameCase.normalize name = k.nameCase.normalize other
      then (k.get? name).map fun v => { v with value } else k.get? other := by
  rcases eq_of_set? stored with ⟨v, found, rfl⟩
  rw [found, get?, Table.get?_insert]
  rfl

theorem valueOf_set? (stored : k.set? name value = some next) (other : Text) :
    next.valueOf other =
      if k.nameCase.normalize name = k.nameCase.normalize other then value
      else k.valueOf other := by
  rcases eq_of_set? stored with ⟨v, found, _⟩
  rw [valueOf, get?_set? stored, found]
  split <;> rfl

theorem contains_iff : k.contains name ↔ k.nameCase.normalize name ∈ k.vars.keys := by
  rw [Table.mem_keys_iff, contains, get?]

theorem contains_set? (stored : k.set? name value = some next) (other : Text) :
    next.contains other = k.contains other := by
  rw [Bool.eq_iff_iff, contains_iff, contains_iff, nameCase_set? stored, keys_set? stored]

theorem set?_isSome_iff : (k.set? name value).isSome ↔ k.contains name := by
  simp [set?, contains]

theorem exists_set? (known : k.contains name) (value : Text) :
    ∃ next, k.set? name value = some next :=
  Option.isSome_iff_exists.mp (set?_isSome_iff.mpr known)

theorem set?_eq_none_iff : k.set? name value = none ↔ k.contains name = false := by
  rw [← Option.not_isSome_iff_eq_none, set?_isSome_iff, Bool.not_eq_true]

/-- The tracker after values were given to names in this order; unknown names are passed over. -/
def given (k : Tracker) (stores : List (Text × Text)) : Tracker :=
  stores.foldl (fun k (name, value) => (k.set? name value).getD k) k

@[simp] theorem given_nil (k : Tracker) : k.given [] = k := rfl

theorem given_append (k : Tracker) (stores more : List (Text × Text)) :
    k.given (stores ++ more) = (k.given stores).given more :=
  List.foldl_append

theorem given_cons (k : Tracker) (name value : Text) (more : List (Text × Text)) :
    k.given ((name, value) :: more) = ((k.set? name value).getD k).given more := rfl

theorem setAll_append {stores : List (Text × Text)}
    (known : ∀ store ∈ stores, k.contains store.1) (more : List (Text × Text)) :
    k.setAll (stores ++ more) = (k.given stores).setAll more := by
  induction stores generalizing k with
  | nil => rfl
  | cons store others ih =>
      rcases store with ⟨name, value⟩
      rcases List.forall_mem_cons.mp known with ⟨first, later⟩
      rcases exists_set? first value with ⟨next, stored⟩
      have still : ∀ store ∈ others, next.contains store.1 := by
        simpa only [contains_set? stored] using later
      rw [List.cons_append, setAll, given_cons, stored]
      exact ih still

theorem setAll_of_known {stores : List (Text × Text)}
    (known : ∀ store ∈ stores, k.contains store.1) : k.setAll stores = (k.given stores, .ok ()) := by
  have all := setAll_append known []
  rwa [List.append_nil] at all

/-- What every value that is set keeps is kept by a sequence of them. -/
theorem given_induction {motive : Tracker → Prop} (start : motive k)
    (set : ∀ {k next : Tracker} {name value : Text}, motive k → k.set? name value = some next →
      motive next) (stores : List (Text × Text)) : motive (k.given stores) := by
  induction stores generalizing k with
  | nil => exact start
  | cons store more ih =>
      rcases store with ⟨name, value⟩
      rw [given_cons]
      cases stored : k.set? name value with
      | none => exact ih start
      | some next => exact ih (set start stored)

theorem keys_mention (text : Nat) (vars : Table Variable) (name : Text) :
    (mention text vars name).keys =
      if name ∈ vars.keys then vars.keys else vars.keys ++ [name] :=
  vars.keys_insert name _

theorem prefix_keys_mentions (text : Nat) (names : List Text) :
    ∀ vars : Table Variable, vars.keys <+: (names.foldl (mention text) vars).keys := by
  induction names with
  | nil => exact fun vars => List.prefix_rfl
  | cons name more ih =>
      intro vars
      refine List.IsPrefix.trans ?_ (ih (mention text vars name))
      rw [keys_mention]
      split
      · exact List.prefix_rfl
      · exact List.prefix_append _ _

theorem mem_keys_mention (text : Nat) (vars : Table Variable) (name : Text) :
    name ∈ (mention text vars name).keys := by
  rw [keys_mention]
  split
  · assumption
  · simp

theorem idxOf_mention (text : Nat) (vars : Table Variable) (name : Text) :
    vars.keys.idxOf name = (mention text vars name).keys.idxOf name := by
  rw [keys_mention]
  split
  · rfl
  · rename_i unknown
    rw [List.idxOf_append_of_notMem unknown, List.idxOf_eq_length unknown]
    simp

theorem mem_keys_mentions (text : Nat) (names : List Text) :
    ∀ vars : Table Variable, ∀ name ∈ names, name ∈ (names.foldl (mention text) vars).keys := by
  induction names with
  | nil => simp
  | cons first more ih =>
      intro vars name member
      rcases List.mem_cons.mp member with same | later
      · subst same
        exact (prefix_keys_mentions text more _).subset (mem_keys_mention text vars name)
      · exact ih _ name later

theorem keys_mentions (text : Nat) (names : List Text) : ∀ {vars : Table Variable}
    {before : List Text}, vars.keys = before.eraseDups →
      (names.foldl (mention text) vars).keys = (before ++ names).eraseDups := by
  induction names with
  | nil => intro vars before same; rw [List.append_nil]; exact same
  | cons name more ih =>
      intro vars before same
      have next : (mention text vars name).keys = (before ++ [name]).eraseDups := by
        rw [keys_mention, List.eraseDups_append, same]
        by_cases known : name ∈ before <;> simp [List.removeAll, known, List.eraseDups_cons]
      rw [List.foldl_cons, ih next, List.append_assoc, List.singleton_append]

theorem get?_mention_value {text : Nat} {vars : Table Variable}
    (empty : ∀ key v, vars.get? key = some v → v.value = []) (name : Text) :
    ∀ key v, (mention text vars name).get? key = some v → v.value = [] := by
  intro key v found
  rw [mention, Table.get?_insert] at found
  split at found
  · have before : ((vars.get? name).getD {}).value = [] := by
      cases known : vars.get? name with
      | none => rfl
      | some w => exact empty name w known
    obtain rfl := Option.some.inj found
    rw [Variable.mentionedIn]
    split <;> exact before
  · exact empty key v found

def keysOf (nameCase : NameCase) (l : List Part) : List Text :=
  (l.filterMap Part.name?).map nameCase.normalize

theorem keysOf_cons_literal (nameCase : NameCase) (content : Text) (l : List Part) :
    keysOf nameCase (.literal content :: l) = keysOf nameCase l := rfl

theorem keysOf_cons_placeholder (nameCase : NameCase) (name : Text) (l : List Part) :
    keysOf nameCase (.placeholder name :: l) = nameCase.normalize name :: keysOf nameCase l := rfl

/-- A new name takes the place behind all others, where it stays whatever names come later. -/
theorem foldl_note (nameCase : NameCase) (text : Nat) (l : List Part) (n : Noted) :
    let vars := (keysOf nameCase l).foldl (mention text) n.vars
    (l.foldl (Noted.note nameCase text) n).vars = vars ∧
      (l.foldl (Noted.note nameCase text) n).pieces =
        n.pieces ++ piecesFrom nameCase vars n.offset l := by
  induction l generalizing n with
  | nil => simp [keysOf, piecesFrom]
  | cons part more ih =>
      cases part with
      | literal content =>
          rcases ih (Noted.note nameCase text n (.literal content)) with ⟨vars, pieces⟩
          refine ⟨vars, ?_⟩
          rw [List.foldl_cons, pieces]
          simp [Noted.note, piecesFrom, keysOf_cons_literal, Part.byteLength, Part.source]
      | placeholder name =>
          rcases ih (Noted.note nameCase text n (.placeholder name)) with ⟨vars, pieces⟩
          refine ⟨vars, ?_⟩
          have place := (idxOf_mention text n.vars (nameCase.normalize name)).trans
            (idxOf_of_grown (prefix_keys_mentions text (keysOf nameCase more) _)
              (mem_keys_mention text n.vars (nameCase.normalize name)))
          rw [List.foldl_cons, pieces, keysOf_cons_placeholder, List.foldl_cons, piecesFrom, ← place]
          simp [Noted.note]

theorem vars_track (d : Document) (k : Tracker) (node : NodeId) : (track d k node).vars =
    ((placeholderNames ((d.text? node).getD [])).map k.nameCase.normalize).foldl
      (mention k.texts.length) k.vars :=
  (foldl_note k.nameCase k.texts.length (segments ((d.text? node).getD [])) { vars := k.vars }).1

theorem texts_track (d : Document) (k : Tracker) (node : NodeId) : (track d k node).texts =
    k.texts ++ [{
      node
      pattern := (d.text? node).getD []
      pieces := piecesFrom k.nameCase (track d k node).vars 0 (parts ((d.text? node).getD [])) }] := by
  have noted := (foldl_note k.nameCase k.texts.length (segments ((d.text? node).getD []))
    { vars := k.vars }).2
  rw [List.nil_append] at noted
  rw [vars_track, ← segments_eq_parts]
  exact congrArg (fun pieces => k.texts ++ [TrackedText.mk node _ pieces]) noted

structure Fresh (d : Document) (nodes : List NodeId) (k : Tracker) : Prop where
  indexed : k.Indexed
  texts : k.texts.map (fun t => (t.node, t.pattern)) =
    nodes.map fun id => (id, (d.text? id).getD [])
  empty : ∀ key v, k.vars.get? key = some v → v.value = []

theorem fresh_track {d : Document} {nodes : List NodeId} (fresh : Fresh d nodes k)
    (node : NodeId) : Fresh d (nodes ++ [node]) (track d k node) := by
  have grown : k.vars.keys <+: (track d k node).vars.keys := by
    rw [vars_track]
    exact prefix_keys_mentions k.texts.length _ k.vars
  have mentioned : ∀ name, .placeholder name ∈ parts ((d.text? node).getD []) →
      k.nameCase.normalize name ∈ (track d k node).vars.keys := by
    intro name member
    rw [vars_track]
    exact mem_keys_mentions _ _ _ _ (List.mem_map_of_mem (mem_placeholderNames_iff.mpr member))
  refine ⟨⟨?_, ?_⟩, ?_, ?_⟩
  · intro t member
    rw [texts_track] at member
    rcases List.mem_append.mp member with old | new
    · rw [fresh.indexed.pieces t old]
      exact piecesFrom_of_prefix grown (fresh.indexed.known t old) 0
    · obtain rfl := List.mem_singleton.mp new
      rfl
  · intro t member
    rw [texts_track] at member
    rcases List.mem_append.mp member with old | new
    · intro name inside
      exact grown.subset (fresh.indexed.known t old name inside)
    · obtain rfl := List.mem_singleton.mp new
      exact mentioned
  · simp [texts_track, fresh.texts]
  · have each : ∀ (names : List Text) (vars : Table Variable),
        (∀ key v, vars.get? key = some v → v.value = []) →
        ∀ key v, (names.foldl (mention k.texts.length) vars).get? key = some v → v.value = [] := by
      intro names
      induction names with
      | nil => exact fun vars empty => empty
      | cons name more ih => exact fun vars empty => ih _ (get?_mention_value empty name)
    rw [vars_track]
    exact each _ _ fresh.empty

theorem nameCase_ofNodes (d : Document) (nodes : List NodeId) (nameCase : NameCase) :
    (ofNodes d nodes nameCase).nameCase = nameCase := by
  suffices ∀ k : Tracker, (nodes.foldl (track d) k).nameCase = k.nameCase from this { nameCase }
  induction nodes with
  | nil => exact fun k => rfl
  | cons node more ih => exact fun k => ih (track d k node)

theorem keys_ofNodes (d : Document) (nodes : List NodeId) (nameCase : NameCase) :
    (ofNodes d nodes nameCase).vars.keys = (nodes.flatMap fun id =>
      (placeholderNames ((d.text? id).getD [])).map nameCase.normalize).eraseDups := by
  let names := fun id => (placeholderNames ((d.text? id).getD [])).map nameCase.normalize
  suffices ∀ (before : List Text) (k : Tracker), k.nameCase = nameCase →
      k.vars.keys = before.eraseDups →
        (nodes.foldl (track d) k).vars.keys = (before ++ nodes.flatMap names).eraseDups from
    this [] { nameCase } rfl rfl
  induction nodes with
  | nil => intro before k _ same; rw [List.flatMap_nil, List.append_nil]; exact same
  | cons node more ih =>
      intro before k sameCase same
      subst sameCase
      rw [List.foldl_cons, List.flatMap_cons, ← List.append_assoc]
      refine ih (before ++ names node) (track d k node) rfl ?_
      rw [vars_track]
      exact keys_mentions _ (names node) same

theorem fresh_ofNodes (d : Document) (nodes : List NodeId) (nameCase : NameCase) :
    Fresh d nodes (ofNodes d nodes nameCase) := by
  suffices ∀ (before : List NodeId) (k : Tracker), Fresh d before k →
      Fresh d (before ++ nodes) (nodes.foldl (track d) k) from
    this [] { nameCase } ⟨⟨by simp, by simp⟩, rfl, by simp [Table.get?, Table.findIn]⟩
  induction nodes with
  | nil => simp
  | cons node more ih =>
      intro before k fresh
      have next := ih (before ++ [node]) (track d k node) (fresh_track fresh node)
      simpa using next

theorem valueOf_fresh {d : Document} {nodes : List NodeId} (fresh : Fresh d nodes k)
    (name : Text) : k.valueOf name = [] := by
  rw [valueOf]
  cases found : k.get? name with
  | none => rfl
  | some v => exact fresh.empty _ v found

end Tracker

end LiveTemplate.Template
