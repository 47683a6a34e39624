import LiveTemplate.Proofs.Markup.NameStack
import LiveTemplate.Proofs.Markup.ReadTokens

/-! Implied ends leave no sibling open: an element never stands in what its start tag ends, unless a
shield is between them. A group of options is the exception, as its start tag ends only the innermost
of the open options and groups. -/

namespace LiveTemplate.Markup

open NameStack

/-- The rules that keep an element out of what they end. All that a group of options is kept out of
is what an option is kept out of. -/
def keptRules (tag : Text) : List ImpliedEnd :=
  if tag = "optgroup".toList then impliedEnds "option".toList else impliedEnds tag

def Guarded : NameStack → Prop
  | [] => True
  | name :: outer => (∀ rule ∈ keptRules name, Shielded rule outer) ∧ Guarded outer

variable {names : NameStack} {rule goal : ImpliedEnd}

theorem Guarded.of_append {inner outer : NameStack} (guarded : Guarded (inner ++ outer)) :
    Guarded outer := by
  induction inner with
  | nil => exact guarded
  | cons name inner ih => exact ih guarded.2

theorem exists_of_outside? {targets shields : List Text} {outer : NameStack}
    (found : outside? targets shields names = some outer) :
    ∃ inner target, names = inner ++ target :: outer ∧ target ∈ targets := by
  induction names with
  | nil => simp [outside?] at found
  | cons name more ih =>
      rw [outside?_cons] at found
      split at found
      · rename_i target
        obtain rfl := Option.some.inj found
        exact ⟨[], name, rfl, target⟩
      · split at found
        · simp at found
        · rcases ih found with ⟨inner, target, rfl, member⟩
          exact ⟨name :: inner, target, rfl, member⟩

theorem outside?_eq_none_iff : outside? rule.targets rule.shields names = none ↔
    Shielded rule names := by
  rw [← Nesting.map_drop_reach?, Option.map_eq_none_iff, reach?_eq_none_iff]

theorem Guarded.cut (guarded : Guarded names) (targets shields : List Text) :
    Guarded (cut targets shields names) := by
  rw [NameStack.cut]
  cases found : outside? targets shields names with
  | none => exact guarded
  | some outer =>
      rcases exists_of_outside? found with ⟨inner, target, rfl, _⟩
      exact guarded.of_append.2

/-- Cutting brings about what was so where each of the targets was opened. -/
theorem Guarded.shielded_cut (guarded : Guarded names)
    (free : Shielded rule names → Shielded goal names)
    (kept : ∀ target ∈ rule.targets, goal ∈ keptRules target) :
    Shielded goal (NameStack.cut rule.targets rule.shields names) := by
  rw [NameStack.cut]
  cases found : outside? rule.targets rule.shields names with
  | none => exact free (outside?_eq_none_iff.mp found)
  | some outer =>
      rcases exists_of_outside? found with ⟨inner, target, rfl, member⟩
      exact guarded.of_append.1 goal (kept target member)

theorem Guarded.foldl_cut (guarded : Guarded names) (rules : List ImpliedEnd) :
    Guarded (rules.foldl (fun names rule => NameStack.cut rule.targets rule.shields names)
      names) := by
  induction rules generalizing names with
  | nil => exact guarded
  | cons rule more ih => exact ih (guarded.cut _ _)

/-- Later cuts leave what holds by then, as it also held where their targets were opened. -/
theorem Guarded.shielded_foldl {rules : List ImpliedEnd} (guarded : Guarded names)
    (already : Shielded goal names)
    (kept : ∀ rule ∈ rules, ∀ target ∈ rule.targets, goal ∈ keptRules target) :
    Shielded goal (rules.foldl (fun names rule =>
      NameStack.cut rule.targets rule.shields names) names) := by
  induction rules generalizing names with
  | nil => exact already
  | cons rule more ih =>
      have first := guarded.shielded_cut (fun _ => already) (kept rule List.mem_cons_self)
      exact ih (guarded.cut _ _) first fun other member =>
        kept other (List.mem_cons_of_mem rule member)

structure Settles (rules : List ImpliedEnd) : Prop where
  self : ∀ rule ∈ rules, ∀ target ∈ rule.targets, rule ∈ keptRules target
  earlier : rules.Pairwise fun first later => ∀ target ∈ later.targets, first ∈ keptRules target

theorem Guarded.shielded_of_settles {rules : List ImpliedEnd} (guarded : Guarded names)
    (settles : Settles rules) : ∀ rule ∈ rules, Shielded rule (rules.foldl (fun names rule =>
      NameStack.cut rule.targets rule.shields names) names) := by
  induction rules generalizing names with
  | nil => simp
  | cons first more ih =>
      rcases List.pairwise_cons.mp settles.earlier with ⟨before, others⟩
      have rest : Settles more :=
        ⟨fun rule member => settles.self rule (List.mem_cons_of_mem first member), others⟩
      have done := guarded.shielded_cut id (settles.self first List.mem_cons_self)
      intro rule member
      rcases List.mem_cons.mp member with rfl | later
      · exact (guarded.cut _ _).shielded_foldl done before
      · exact ih (guarded.cut _ _) rest rule later

def ruledTags : List Text :=
  paragraphClosers ++ impliedEndRules.flatMap (·.1)

theorem impliedEnds_of_not_mem {tag : Text} (free : tag ∉ ruledTags) : impliedEnds tag = [] := by
  rw [ruledTags, List.mem_append, not_or, List.mem_flatMap] at free
  have unruled : impliedEndRules.find? (·.1.contains tag) = none := by
    apply List.find?_eq_none.mpr
    intro entry member
    simpa using fun found => free.2 ⟨entry, member, found⟩
  rw [impliedEnds, unruled]
  simpa using free.1

theorem settles_of_mem_ruledTags : ∀ tag ∈ ruledTags, tag ≠ "optgroup".toList →
    (∀ rule ∈ impliedEnds tag, ∀ target ∈ rule.targets, rule ∈ keptRules target) ∧
      (impliedEnds tag).Pairwise fun first later =>
        ∀ target ∈ later.targets, first ∈ keptRules target := by
  decide +kernel

theorem settles_impliedEnds {tag : Text} (other : tag ≠ "optgroup".toList) :
    Settles (impliedEnds tag) := by
  by_cases ruled : tag ∈ ruledTags
  · rcases settles_of_mem_ruledTags tag ruled other with ⟨self, earlier⟩
    exact ⟨self, earlier⟩
  · rw [impliedEnds_of_not_mem ruled]
    exact ⟨by simp, .nil⟩

theorem shielded_of_subset (targets : goal.targets ⊆ rule.targets)
    (shields : rule.shields ⊆ goal.shields) (shielded : Shielded rule names) :
    Shielded goal names := by
  intro inner target outer same member
  rcases shielded inner target outer same (targets member) with ⟨tag, inside, shield⟩
  exact ⟨tag, inside, shields shield⟩

theorem Guarded.shielded_implied (guarded : Guarded names) (tag : Text) :
    ∀ rule ∈ keptRules tag, Shielded rule (implied tag names) := by
  rw [implied_eq_foldl, keptRules]
  split
  · -- the one rule of a group has more targets and fewer shields than that of an option
    rename_i group
    intro goal member
    have rules : impliedEnds "optgroup".toList =
        [⟨["optgroup", "option"].map String.toList, ["select"].map String.toList⟩] := by decide
    have weaker : ∀ goal ∈ impliedEnds "option".toList,
        goal.targets ⊆ ["optgroup", "option"].map String.toList ∧
          ["select"].map String.toList ⊆ goal.shields ∧
          ∀ target ∈ ["optgroup", "option"].map String.toList, goal ∈ keptRules target := by
      decide +kernel
    rcases weaker goal member with ⟨targets, shields, kept⟩
    rw [group, rules]
    exact guarded.shielded_cut (shielded_of_subset targets shields) kept
  · rename_i other
    exact guarded.shielded_of_settles (settles_impliedEnds other)

theorem unruled_of_isRaw {name : Text} (raw : isRaw name) :
    impliedEnds name.lowerAscii = [] ∧ keptRules name.lowerAscii = [] := by
  have unruled : ∀ tag ∈ rawTags, impliedEnds tag = [] ∧ keptRules tag = [] := by decide +kernel
  rw [isRaw, List.contains_iff_mem] at raw
  exact unruled _ raw

theorem Guarded.after (guarded : Guarded names) (token : Token) :
    Guarded (NameStack.after names token) := by
  cases token with
  | startTag name written closed =>
      have left : Guarded (implied name.lowerAscii names) := by
        rw [implied_eq_foldl]
        exact guarded.foldl_cut _
      simp only [NameStack.after]
      split
      · exact left
      · exact ⟨guarded.shielded_implied _, left⟩
  | endTag name => exact guarded.cut _ _
  | _ => exact guarded

theorem Guarded.shielded_emit {token : Token} (guarded : Guarded names) (formed : token.Formed) :
    ∀ l ∈ emit names token, ∀ tag attributes, l.content = .element tag attributes →
      ∀ rule ∈ keptRules tag, Shielded rule l.above := by
  intro l member tag attributes same
  cases token with
  | text content =>
      rw [List.mem_singleton.mp member] at same
      simp at same
  | comment content =>
      rw [List.mem_singleton.mp member] at same
      simp at same
  | doctype => simp [emit] at member
  | startTag name written closed =>
      rw [List.mem_singleton.mp member] at same ⊢
      obtain ⟨rfl, _⟩ := Content.element.inj same
      exact guarded.shielded_implied _
  | endTag name => simp [emit] at member
  | raw name written content ended =>
      rcases List.mem_cons.mp member with rfl | inner
      · obtain ⟨rfl, _⟩ := Content.element.inj same
        simp [(unruled_of_isRaw formed.2.2.1).2]
      · split at inner
        · simp at inner
        · rw [List.mem_singleton.mp inner] at same
          simp at same

theorem Guarded.shielded_emitAll {tokens : List Token} (guarded : Guarded names)
    (formed : ∀ token ∈ tokens, token.Formed) :
    ∀ l ∈ emitAll names tokens, ∀ tag attributes, l.content = .element tag attributes →
      ∀ rule ∈ keptRules tag, Shielded rule l.above := by
  induction tokens generalizing names with
  | nil => simp [emitAll]
  | cons token more ih =>
      have others : ∀ token ∈ more, token.Formed :=
        fun other later => formed other (List.mem_cons_of_mem token later)
      intro l member
      rcases List.mem_append.mp member with first | later
      · exact guarded.shielded_emit (formed token List.mem_cons_self) l first
      · exact ih (guarded.after token) others l later

/-- In what is read from a source, no element stands in something that its start tag ends, unless a
shield is between them. A group of options is only kept out of options, as options are. -/
theorem shielded_of_parse? {source : Text} {nodes : List Node}
    (read : parse? source = some nodes) :
    ∀ l ∈ locatedAll [] nodes, ∀ tag attributes, l.content = .element tag attributes →
      (tag ≠ "optgroup".toList → ∀ rule ∈ impliedEnds tag, Shielded rule l.above) ∧
        (tag = "optgroup".toList →
          ∀ rule ∈ impliedEnds "option".toList, Shielded rule l.above) := by
  obtain ⟨tokens, found, rfl⟩ := Option.map_eq_some_iff.mp read
  rw [locatedAll_nodesOfTokens]
  intro l member tag attributes same
  have start : Guarded [] := trivial
  have kept := start.shielded_emitAll (tokens?_formed found) l member tag attributes same
  refine ⟨fun other => ?_, fun group => ?_⟩
  · rwa [keptRules, if_neg other] at kept
  · rwa [keptRules, if_pos group] at kept

theorem shielded_of_parse?_cells : ∃ nodes,
    parse? "<p><button><p>a<dl><dt>b<dd>c<table><tr><td>d<td>e".toList = some nodes ∧
      ∃ l ∈ locatedAll [] nodes, l.content = .element "td".toList {} ∧
        l.above = ["tr", "table", "dd", "dl", "button", "p"].map String.toList ∧
        ∀ rule ∈ impliedEnds "td".toList, Shielded rule l.above := by
  let source := "<p><button><p>a<dl><dt>b<dd>c<table><tr><td>d<td>e".toList
  have located : (parse? source).map (fun nodes => (locatedAll [] nodes)[11]?) =
      some (some ⟨["tr", "table", "dd", "dl", "button", "p"].map String.toList,
        .element "td".toList {}⟩) := by decide +kernel
  rcases Option.map_eq_some_iff.mp located with ⟨nodes, read, found⟩
  have member := List.mem_of_getElem? found
  have law := shielded_of_parse? read _ member "td".toList {} rfl
  exact ⟨nodes, read, _, member, rfl, rfl, law.1 (by decide)⟩

/-- The start tag of a group ends the open option of the group before it and not that group. -/
theorem optgroup_in_optgroup : ∃ nodes,
    parse? "<select><optgroup><option>a<optgroup><option>b</select>".toList = some nodes ∧
      ∃ l ∈ locatedAll [] nodes, l.content = .element "optgroup".toList {} ∧
        ∃ rule ∈ impliedEnds "optgroup".toList, ¬ Shielded rule l.above := by
  let source := "<select><optgroup><option>a<optgroup><option>b</select>".toList
  have located : (parse? source).map (fun nodes => (locatedAll [] nodes)[4]?) =
      some (some ⟨["optgroup", "select"].map String.toList, .element "optgroup".toList {}⟩) := by
    decide +kernel
  rcases Option.map_eq_some_iff.mp located with ⟨nodes, read, found⟩
  exact ⟨nodes, read, _, List.mem_of_getElem? found, rfl, by decide +kernel⟩

/-- A group may also stay in an option, with a datalist between them, which does not shield a group. -/
example : (parse? "<option><datalist><option><optgroup>".toList).map
    (fun nodes => (locatedAll [] nodes)[3]?) =
      some (some ⟨["datalist", "option"].map String.toList, .element "optgroup".toList {}⟩) := by
  decide +kernel

end LiveTemplate.Markup
