import LiveTemplate.Proofs.Template.Runs
import Mathlib.Data.List.Induction

namespace LiveTemplate.Template.Tracker

variable {k next : Tracker} {name value key : Text} {place text : Nat} {stores : List (Text × Text)}

def textsOf (vars : Table Variable) (key : Text) : List Nat :=
  ((vars.get? key).map (·.texts)).getD []

def mentionedAt (k : Tracker) (key : Text) (place : Nat) : Bool :=
  (k.texts[place]?).any fun t => ((placeholderNames t.pattern).map k.nameCase.normalize).contains key

structure Listed (k : Tracker) : Prop where
  distinct : k.vars.keys.Nodup
  texts : ∀ key, textsOf k.vars key = (List.range k.texts.length).filter (k.mentionedAt key)

theorem mentionedAt_iff : k.mentionedAt key place ↔ ∃ t, k.texts[place]? = some t ∧
    ∃ source ∈ placeholderNames t.pattern, k.nameCase.normalize source = key := by
  simp [mentionedAt, Option.any_eq_true]

theorem textsOf_mention (text : Nat) (vars : Table Variable) (name key : Text) :
    textsOf (mention text vars name) key =
      if name = key ∧ (textsOf vars key).getLast? ≠ some text then textsOf vars key ++ [text]
      else textsOf vars key := by
  rw [textsOf, mention, Table.get?_insert]
  by_cases same : name = key
  · subst same
    have noted : (((vars.get? name).getD {}).mentionedIn text).texts =
        if (textsOf vars name).getLast? = some text then textsOf vars name
        else textsOf vars name ++ [text] := by
      rw [textsOf, Variable.mentionedIn]
      cases vars.get? name <;> split <;> simp_all
    rw [if_pos rfl, Option.map_some, Option.getD_some, noted]
    split <;> simp_all
  · rw [if_neg same, if_neg fun both => same both.1, textsOf]

/-- However often a text mentions a name, it is noted once, after the texts that came before. -/
theorem textsOf_mentions {vars : Table Variable} (earlier : ∀ place ∈ textsOf vars key, place < text)
    (names : List Text) : textsOf (names.foldl (mention text) vars) key =
      textsOf vars key ++ if key ∈ names then [text] else [] := by
  induction names using List.reverseRecOn with
  | nil => simp
  | append_singleton names name ih =>
      rw [List.foldl_append, List.foldl_cons, List.foldl_nil, textsOf_mention, ih]
      by_cases seen : key ∈ names
      · simp [seen]
      · have unseen : (textsOf vars key).getLast? ≠ some text := fun last =>
          Nat.lt_irrefl _ (earlier text (List.mem_of_getLast? last))
        by_cases same : name = key
        · simp [seen, same, unseen]
        · simp [seen, same, Ne.symm same]

theorem nodup_keys_mentions (text : Nat) (names : List Text) {vars : Table Variable}
    (distinct : vars.keys.Nodup) : (names.foldl (mention text) vars).keys.Nodup := by
  induction names generalizing vars with
  | nil => exact distinct
  | cons name more ih => exact ih (Table.nodup_keys_insert distinct name _)

theorem Listed.track (listed : k.Listed) (d : Document) (node : NodeId) :
    (track d k node).Listed where
  distinct := by
    rw [vars_track]
    exact nodup_keys_mentions _ _ listed.distinct
  texts := by
    intro key
    have earlier : ∀ place ∈ textsOf k.vars key, place < k.texts.length := by
      intro place member
      rw [listed.texts] at member
      exact List.mem_range.mp (List.mem_filter.mp member).1
    have before : ∀ place ∈ List.range k.texts.length,
        (Tracker.track d k node).mentionedAt key place = k.mentionedAt key place := by
      intro place inside
      simp only [mentionedAt, Tracker.track,
        List.getElem?_append_left (List.mem_range.mp inside)]
    have here : (Tracker.track d k node).mentionedAt key k.texts.length =
        ((placeholderNames ((d.text? node).getD [])).map k.nameCase.normalize).contains key := by
      simp only [mentionedAt, Tracker.track, List.getElem?_concat_length, Option.any_some]
    have grown : (Tracker.track d k node).texts.length = k.texts.length + 1 := by
      simp [Tracker.track]
    calc
      textsOf (Tracker.track d k node).vars key = textsOf k.vars key ++
          if key ∈ (placeholderNames ((d.text? node).getD [])).map k.nameCase.normalize
          then [k.texts.length] else [] := by
        rw [vars_track]
        exact textsOf_mentions earlier _
      _ = (List.range k.texts.length).filter ((Tracker.track d k node).mentionedAt key) ++
          [k.texts.length].filter ((Tracker.track d k node).mentionedAt key) := by
        rw [listed.texts, List.filter_congr before, List.filter_singleton, here]
        simp only [cond_eq_ite, List.contains_iff_mem]
      _ = (List.range (Tracker.track d k node).texts.length).filter
          ((Tracker.track d k node).mentionedAt key) := by
        rw [grown, List.range_succ, List.filter_append]

theorem listed_ofNodes (d : Document) (nodes : List NodeId) (nameCase : NameCase) :
    (ofNodes d nodes nameCase).Listed := by
  suffices ∀ k : Tracker, k.Listed → (nodes.foldl (Tracker.track d) k).Listed from
    this { nameCase } ⟨List.nodup_nil, fun key => rfl⟩
  induction nodes with
  | nil => exact fun k listed => listed
  | cons node more ih => exact fun k listed => ih _ (listed.track d node)

theorem textsOf_set? (stored : k.set? name value = some next) (key : Text) :
    textsOf next.vars key = textsOf k.vars key := by
  rcases eq_of_set? stored with ⟨v, found, rfl⟩
  rw [get?] at found
  rw [textsOf, textsOf, Table.get?_insert]
  by_cases same : k.nameCase.normalize name = key
  · rw [if_pos same, ← same, found]
    rfl
  · rw [if_neg same]

theorem Listed.set? (listed : k.Listed) (stored : k.set? name value = some next) :
    next.Listed where
  distinct := keys_set? stored ▸ listed.distinct
  texts := by
    intro key
    have same : next.mentionedAt key = k.mentionedAt key := by
      funext place
      rw [mentionedAt, mentionedAt, texts_set? stored, nameCase_set? stored]
    rw [textsOf_set? stored, listed.texts, texts_set? stored, same]

theorem Listed.given (listed : k.Listed) (stores : List (Text × Text)) : (k.given stores).Listed :=
  given_induction listed Listed.set? stores

theorem Indexed.given (indexed : k.Indexed) (stores : List (Text × Text)) :
    (k.given stores).Indexed :=
  given_induction indexed indexed_set? stores

theorem texts_given (k : Tracker) (stores : List (Text × Text)) :
    (k.given stores).texts = k.texts :=
  given_induction (motive := fun j => j.texts = k.texts) rfl
    (fun same stored => (texts_set? stored).trans same) stores

theorem nameCase_given (k : Tracker) (stores : List (Text × Text)) :
    (k.given stores).nameCase = k.nameCase :=
  given_induction (motive := fun j => j.nameCase = k.nameCase) rfl
    (fun same stored => (nameCase_set? stored).trans same) stores

theorem keys_given (k : Tracker) (stores : List (Text × Text)) :
    (k.given stores).vars.keys = k.vars.keys :=
  given_induction (motive := fun j => j.vars.keys = k.vars.keys) rfl
    (fun same stored => (keys_set? stored).trans same) stores

theorem contains_given (k : Tracker) (stores : List (Text × Text)) (name : Text) :
    (k.given stores).contains name = k.contains name := by
  rw [Bool.eq_iff_iff, contains_iff, contains_iff, nameCase_given, keys_given]

theorem valueOf_given (empty : k.valueOf name = []) (known : k.contains name)
    (stores : List (Text × Text)) :
    (k.given stores).valueOf name = lastStored k.nameCase stores name := by
  induction stores using List.reverseRecOn with
  | nil => exact empty
  | append_singleton stores store ih =>
      rcases store with ⟨other, value⟩
      rw [given_append, given_cons, given_nil, Component.lastStored_append, ← ih]
      cases stored : (k.given stores).set? other value with
      | some next =>
          rw [Option.getD_some, valueOf_set? stored, nameCase_given]
      | none =>
          have apart : k.nameCase.normalize other ≠ k.nameCase.normalize name := by
            intro same
            rw [set?_eq_none_iff, contains_given] at stored
            rw [contains_iff, ← same, ← contains_iff, stored] at known
            exact absurd known (by simp)
          rw [Option.getD_none, if_neg apart]

theorem exists_of_slot_mem {nameCase : NameCase} {vars : Table Variable} {next : Nat} {l : List Part}
    (slot : .slot place ∈ piecesFrom nameCase vars next l) : ∃ name, .placeholder name ∈ l ∧
      vars.keys.idxOf (nameCase.normalize name) = place := by
  induction l generalizing next with
  | nil => simp [piecesFrom] at slot
  | cons part more ih =>
      cases part with
      | literal content =>
          rw [piecesFrom, List.mem_cons, or_iff_right (by simp)] at slot
          rcases ih slot with ⟨name, member, same⟩
          exact ⟨name, List.mem_cons_of_mem _ member, same⟩
      | placeholder name =>
          rcases List.mem_cons.mp slot with same | later
          · exact ⟨name, List.mem_cons_self, (Piece.slot.inj same).symm⟩
          · rcases ih later with ⟨other, member, same⟩
            exact ⟨other, List.mem_cons_of_mem _ member, same⟩

theorem slice?_of_literal_mem_piecesFrom {nameCase : NameCase} {vars : Table Variable}
    {before : Text} {l : List Part} {start stop : Nat}
    (literal : .literal start stop ∈ piecesFrom nameCase vars before.byteLength l) :
    ∃ content, .literal content ∈ l ∧
      (before ++ l.flatMap Part.source).slice? start stop = some content := by
  induction l generalizing before with
  | nil => simp [piecesFrom] at literal
  | cons part more ih =>
      have later := @ih (before ++ part.source)
      rw [List.append_assoc, ← List.flatMap_cons, Text.byteLength_append] at later
      have among : ∀ {content}, .literal content ∈ more → .literal content ∈ part :: more :=
        fun member => List.mem_cons_of_mem part member
      cases part with
      | literal content =>
          rcases List.mem_cons.mp literal with same | rest
          · obtain ⟨rfl, rfl⟩ := Piece.literal.inj same
            refine ⟨content, List.mem_cons_self, ?_⟩
            rw [List.flatMap_cons, ← List.append_assoc, ← Text.byteLength_append]
            exact Text.slice?_append before content _
          · exact (later rest).imp fun _ found => found.imp_left among
      | placeholder name =>
          rw [piecesFrom, List.mem_cons, or_iff_right (by simp)] at literal
          exact (later literal).imp fun _ found => found.imp_left among

/-- A reference in a text leads to one of the variables. -/
theorem slot_lt_size (indexed : k.Indexed) {t : TrackedText} (tracked : t ∈ k.texts)
    (slot : .slot place ∈ t.pieces) : place < k.vars.size := by
  rw [indexed.pieces t tracked] at slot
  rcases exists_of_slot_mem slot with ⟨name, member, rfl⟩
  have inside := List.idxOf_lt_length_iff.mpr (indexed.known t tracked name member)
  simpa [Table.keys, Table.size] using inside

theorem slice?_of_literal_mem (indexed : k.Indexed) {t : TrackedText} (tracked : t ∈ k.texts)
    {start stop : Nat} (literal : .literal start stop ∈ t.pieces) :
    ∃ content, .literal content ∈ parts t.pattern ∧ t.pattern.slice? start stop = some content := by
  rw [indexed.pieces t tracked] at literal
  have cut := @slice?_of_literal_mem_piecesFrom _ _ [] _ _ _ literal
  rwa [List.nil_append, flatMap_source_parts] at cut

/-- The index of a list of nodes has an entry for each node, a variable for each name in the order of
first mention, and with each variable the places of the texts that mention it. Whatever values are
set afterwards, a text is rendered as its pattern with the values set last, no reference is lost, and
the literals are cut out of the pattern in whole characters. -/
theorem ofNodes_indexes (d : Document) (nodes : List NodeId) (nameCase : NameCase) :
    let k := ofNodes d nodes nameCase
    k.texts.map (fun t => (t.node, t.pattern)) = nodes.map (fun id => (id, (d.text? id).getD [])) ∧
    k.vars.keys = (nodes.flatMap fun id =>
      (placeholderNames ((d.text? id).getD [])).map nameCase.normalize).eraseDups ∧
    k.vars.keys.Nodup ∧
    (∀ key v, (key, v) ∈ k.vars.entries → v.value = [] ∧ v.texts.Pairwise (· < ·) ∧
      ∀ place, place ∈ v.texts ↔ ∃ t, k.texts[place]? = some t ∧
        ∃ source ∈ placeholderNames t.pattern, nameCase.normalize source = key) ∧
    ∀ stores : List (Text × Text),
      (k.given stores).texts = k.texts ∧ (k.given stores).vars.keys = k.vars.keys ∧
      ∀ t ∈ k.texts,
        (k.given stores).render t = filled (lastStored nameCase stores) t.pattern ∧
        (∀ name ∈ placeholderNames t.pattern, ∃ v, (k.given stores).get? name = some v ∧
          v.value = lastStored nameCase stores name) ∧
        (∀ place, .slot place ∈ t.pieces → place < (k.given stores).vars.size) ∧
        ∀ start stop, .literal start stop ∈ t.pieces →
          ∃ content, .literal content ∈ parts t.pattern ∧
            t.pattern.slice? start stop = some content := by
  intro k
  have fresh := fresh_ofNodes d nodes nameCase
  have listed := listed_ofNodes d nodes nameCase
  have sameCase : k.nameCase = nameCase := nameCase_ofNodes d nodes nameCase
  refine ⟨fresh.texts, keys_ofNodes d nodes nameCase, listed.distinct, ?_, fun stores =>
    ⟨texts_given k stores, keys_given k stores, fun t tracked => ?_⟩⟩
  · intro key v member
    have found := Table.get?_of_mem listed.distinct member
    have texts : v.texts = (List.range k.texts.length).filter (k.mentionedAt key) := by
      rw [← listed.texts, textsOf, found]
      rfl
    refine ⟨fresh.empty key v found, texts ▸ List.pairwise_lt_range.filter _, fun place => ?_⟩
    rw [texts, List.mem_filter, mentionedAt_iff, sameCase, List.mem_range]
    refine and_iff_right_of_imp ?_
    rintro ⟨t, there, _⟩
    exact (List.getElem?_eq_some_iff.mp there).1
  · have still : t ∈ (k.given stores).texts := texts_given k stores ▸ tracked
    have indexed := fresh.indexed.given stores
    have last : ∀ name ∈ placeholderNames t.pattern, (k.given stores).contains name ∧
        (k.given stores).valueOf name = lastStored nameCase stores name := by
      intro name member
      have known : k.contains name := contains_iff.mpr
        (fresh.indexed.known t tracked name (mem_placeholderNames_iff.mp member))
      rw [contains_given, ← sameCase]
      exact ⟨known, valueOf_given (valueOf_fresh fresh name) known stores⟩
    refine ⟨?_, fun name member => ?_, fun place => slot_lt_size indexed still,
      fun start stop => slice?_of_literal_mem indexed still⟩
    · rw [render_eq_filled indexed still]
      apply filled_congr
      exact fun name member => (last name member).2
    · rcases Option.isSome_iff_exists.mp (last name member).1 with ⟨v, found⟩
      refine ⟨v, found, ?_⟩
      rw [← (last name member).2, valueOf, found]
      rfl

end LiveTemplate.Template.Tracker
