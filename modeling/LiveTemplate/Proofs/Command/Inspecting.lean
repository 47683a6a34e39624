import LiveTemplate.Proofs.Command.Rendering
import LiveTemplate.Proofs.Style.Renaming
import LiveTemplate.Proofs.Template.Declarations
import LiveTemplate.Proofs.Text.ByteOrder

namespace LiveTemplate.Command

open Markup
open Template
open Style (Digest classesByLength classesOf nameOf renamingBy)

/-- The handles of a tree in ascending order of their bytes, each with the tag of the first element
that declares it. -/
structure ListsHandles (node : Node) (entries : List (Text × Text)) : Prop where
  ascending : (entries.map fun entry => Style.utf8 entry.1).Pairwise (· < ·)
  firsts : ∀ entry, entry ∈ entries ↔ node.declarations.find? (·.1 = entry.1) = some entry
  tagged : ∀ entry ∈ entries, entry.2 ≠ ['?']

/-- The classes of a stylesheet, the longest first, those of one length as they first come. -/
structure ListsClasses (css : Text) (classes : List Text) : Prop where
  perm : classes.Perm (classesOf css)
  distinct : classes.Nodup
  longestFirst : classes.Pairwise fun a b => b.byteLength ≤ a.byteLength
  stable : ∀ n, classes.filter (·.byteLength = n) = (classesOf css).filter (·.byteLength = n)

def describeDeclaration (entry : Text × Text) : Text :=
  entry.1 ++ " -> <".toList ++ entry.2 ++ ['>']

inductive ItemLines : List Text → Text → Prop where
  | none : ItemLines [] []
  | line {items : List Text} {lines : Text} (item : Text) (later : ItemLines items lines) :
      ItemLines (item :: items) ("  ".toList ++ item ++ "\n".toList ++ lines)

/-- Items printed below a line with their title and their number. -/
def Prints (title : String) (items : List Text) (t : Text) : Prop :=
  ∃ lines, ItemLines items lines ∧
    t = (title ++ " (" ++ toString items.length ++ "):\n").toList ++ lines

theorem ListsHandles.unique {node : Node} {entries others : List (Text × Text)}
    (lists : ListsHandles node entries) (again : ListsHandles node others) : entries = others := by
  let earlier (a b : Text × Text) : Prop := Style.utf8 a.1 < Style.utf8 b.1
  have irreflexive : Std.Irrefl earlier := ⟨fun a => List.lt_irrefl (Style.utf8 a.1)⟩
  have antisymmetric : Std.Antisymm earlier := ⟨fun a b less more => absurd more (List.lt_asymm less)⟩
  have sorted : entries.Pairwise earlier := List.pairwise_map.mp lists.ascending
  exact sorted.eq_of_mem_iff (List.pairwise_map.mp again.ascending) fun entry =>
    (lists.firsts entry).trans (again.firsts entry).symm

theorem listsClasses_classesByLength (css : Text) : ListsClasses css (classesByLength css) where
  perm := List.mergeSort_perm _ _
  distinct := Style.nodup_classesByLength css
  longestFirst := Style.pairwise_classesByLength css
  stable := Style.filter_classesByLength css

variable {rename : Renamer} {read : Reader} {r : Request} {c : Component} {template css : Text} {o : Options}
  {node : Node} {digest : Digest}

theorem readable_of_load (loaded : r.load rename read = .ok c) : ∃ template css,
    read r.template = .ok template ∧ ∀ path ∈ r.style, read path = .ok css := by
  rw [Request.load] at loaded
  cases found : read r.template with
  | error cause => simp [readFile, found, Except.mapError, bind, Except.bind] at loaded
  | ok template =>
      cases style : r.style with
      | none => exact ⟨template, [], rfl, by simp⟩
      | some path =>
          cases sheet : read path with
          | error cause =>
              simp [readFile, found, Request.renames, style, loadRenaming, sheet, Except.mapError,
                Except.map, bind, Except.bind] at loaded
          | ok css => exact ⟨template, css, rfl, by simp [sheet]⟩

theorem renames_of_readable (styled : ∀ path ∈ r.style, read path = .ok css) :
    r.renames rename read =
      .ok (r.style.map fun path => rename (scopeOf path r.scope) css) := by
  rw [Request.renames]
  cases style : r.style with
  | none => rfl
  | some path =>
      simp [loadRenaming, readFile, styled path style, Except.mapError, Except.map, bind,
        Except.bind, pure, Except.pure]

theorem rootOf_eq_ok_iff : rootOf template = .ok node ↔
    ∃ others, parse? template.trim = some (node :: others) := by
  rw [rootOf]
  cases parse? template.trim with
  | none => simp
  | some nodes => cases nodes <;> simp

theorem load_of_parse? {others : List Node} (found : read r.template = .ok template)
    (styled : ∀ path ∈ r.style, read path = .ok css)
    (parsed : parse? (r.renamed rename template css).trim = some (node :: others)) :
    ∃ c, r.load rename read = .ok c := by
  rcases load_of_readable found styled with ⟨o, _, renamed, loaded⟩
  have root : rootOf (o.renamed template) = .ok node :=
    rootOf_eq_ok_iff.mpr ⟨others, renamed ▸ parsed⟩
  rcases Component.build_of_rootOf root with ⟨c, built⟩
  exact ⟨c, by rw [loaded, built]; rfl⟩

theorem built_of_load (loaded : r.load rename read = .ok c) : ∃ template css o node others,
    read r.template = .ok template ∧ (∀ path ∈ r.style, read path = .ok css) ∧
      o.nameCase = r.nameCase ∧ Component.build template o = .ok c ∧
      rootOf (o.renamed template) = .ok node ∧
      parse? (r.renamed rename template css).trim = some (node :: others) := by
  rcases readable_of_load loaded with ⟨template, css, found, styled⟩
  rcases load_of_readable found styled with ⟨o, nameCase, renamed, same⟩
  have built : Component.build template o = .ok c := by
    rw [same] at loaded
    cases tried : Component.build template o with
    | error cause => simp [tried, Except.mapError] at loaded
    | ok other => simpa [tried, Except.mapError] using loaded
  rcases Component.tracks_build built with ⟨_, _, planted, _⟩
  rcases plantRoot_eq_ok planted with ⟨node, root, _, _⟩
  rcases rootOf_eq_ok_iff.mp root with ⟨others, parsed⟩
  exact ⟨template, css, o, node, others, found, styled, nameCase, built, root, renamed ▸ parsed⟩

theorem describeHandle_eq {handle : Text} (built : Component.build template o = .ok c)
    (found : rootOf (o.renamed template) = .ok node) (known : handle ∈ c.handles.keys) :
    ∃ tag, node.declarations.find? (·.1 = handle) = some (handle, tag) ∧
      describeHandle c handle = .ok (describeDeclaration (handle, tag)) := by
  rcases Component.element_of_declarations built found handle with
    ⟨id, tag, _, resolved, tagged, first⟩ | ⟨unknown, _⟩
  · refine ⟨tag, first, ?_⟩
    rw [describeHandle, resolved]
    change Except.ok (_ ++ (c.document.tag? id).getD _ ++ _) = _
    rw [tagged]
    rfl
  · exact absurd known unknown

theorem exists_described {declared : List (Text × Text)} {handles : List Text}
    (described : ∀ handle ∈ handles, ∃ tag, declared.find? (·.1 = handle) = some (handle, tag) ∧
      describeHandle c handle = .ok (describeDeclaration (handle, tag))) :
    ∃ entries : List (Text × Text), entries.map (·.1) = handles ∧
      (∀ entry ∈ entries, declared.find? (·.1 = entry.1) = some entry) ∧
      handles.mapM (describeHandle c) = .ok (entries.map describeDeclaration) := by
  induction handles with
  | nil => exact ⟨[], rfl, by simp, rfl⟩
  | cons handle more ih =>
      rcases described handle List.mem_cons_self with ⟨tag, first, written⟩
      rcases ih fun other later => described other (List.mem_cons_of_mem handle later) with
        ⟨entries, keys, firsts, rest⟩
      refine ⟨(handle, tag) :: entries, by rw [List.map_cons, keys],
        List.forall_mem_cons.mpr ⟨first, firsts⟩, ?_⟩
      rw [List.mapM_cons, written, rest]
      rfl

theorem exists_listsHandles (built : Component.build template o = .ok c)
    (found : rootOf (o.renamed template) = .ok node) (tidy : node.Tidy) :
    ∃ handles, ListsHandles node handles ∧
      (c.handles.keys.mergeSort Text.atMost).mapM (describeHandle c) =
        .ok (handles.map describeDeclaration) := by
  have perm := List.mergeSort_perm c.handles.keys Text.atMost
  rcases exists_described fun handle member =>
      describeHandle_eq built found (perm.mem_iff.mp member) with ⟨handles, keys, firsts, written⟩
  have ascending : (handles.map fun entry => Style.utf8 entry.1).Pairwise (· < ·) := by
    have distinct : c.handles.keys.Nodup := Component.nodup_keys_handles built
    have sorted := Text.pairwise_mergeSort_atMost distinct
    rwa [← keys, List.pairwise_map, ← List.pairwise_map] at sorted
  have complete : ∀ entry, node.declarations.find? (·.1 = entry.1) = some entry →
      entry ∈ handles := by
    intro entry first
    rcases Component.element_of_declarations built found entry.1 with
      ⟨_, _, known, _⟩ | ⟨_, missing⟩
    · rw [← perm.mem_iff, ← keys] at known
      rcases List.mem_map.mp known with ⟨other, listed, same⟩
      have again := firsts other listed
      rw [same, first] at again
      rwa [Option.some.inj again]
    · exact absurd (first.symm.trans missing) (by simp)
  have tagged : ∀ entry ∈ handles, entry.2 ≠ ['?'] := by
    intro entry listed placeholder
    have declared := List.mem_of_find?_eq_some (firsts entry listed)
    have named := isTagName_of_mem_declarations tidy declared
    rw [placeholder] at named
    exact absurd named (by decide)
  exact ⟨handles, ⟨ascending, fun entry => ⟨firsts entry, complete entry⟩, tagged⟩, written⟩

theorem itemLines_flatMap (items : List Text) : ItemLines items (items.flatMap listed) := by
  induction items with
  | nil => exact .none
  | cons item more ih =>
      have line := ItemLines.line item ih
      simpa [listed] using line

theorem ItemLines.eq_flatMap {items : List Text} {lines : Text} (printed : ItemLines items lines) :
    lines = items.flatMap listed := by
  induction printed with
  | none => rfl
  | line item later ih => simp [listed, ih]

/-- A list is printed with its number of items and each of them once, in the given order. -/
theorem prints_iff {title : String} {items : List Text} {t : Text} :
    Prints title items t ↔ t = listing title items := by
  have printed : listing title items =
      (title ++ " (" ++ toString items.length ++ "):\n").toList ++ items.flatMap listed := by
    rw [listing, heading]
    simp [toString, Nat.repr]
  constructor
  · rintro ⟨lines, each, rfl⟩
    rw [printed, each.eq_flatMap]
  · rintro rfl
    exact ⟨items.flatMap listed, itemLines_flatMap items, printed⟩

/-- Where a component can be loaded it can be listed, one item in a line: its variables as they first
come in the texts of its template, its handles with the tags of their elements, and the classes of its
stylesheet, if there is one, with their new names. -/
theorem inspect_of_load (loaded : r.load (renamingBy digest) read = .ok c) :
    ∃ template css node others handles classes variableLines handleLines classLines,
      read r.template = .ok template ∧ (∀ path ∈ r.style, read path = .ok css) ∧
      parse? (r.renamed (renamingBy digest) template css).trim = some (node :: others) ∧
      ListsHandles node handles ∧ ListsClasses css classes ∧
      r.inspect (renamingBy digest) read = .ok (variableLines ++ handleLines ++ classLines) ∧
      Prints "variables" (mentioned r.nameCase node).eraseDups variableLines ∧
      Prints "handles" (handles.map describeDeclaration) handleLines ∧
      match r.style with
      | some path => Prints "classes" (classes.map fun className =>
          className ++ " -> ".toList ++ nameOf digest (scopeOf path r.scope) css className) classLines
      | none => classLines = [] := by
  rcases built_of_load loaded with
    ⟨template, css, o, node, others, found, styled, nameCase, built, root, parsed⟩
  obtain ⟨tokens, spelled, nodes⟩ := Option.map_eq_some_iff.mp parsed
  have tidy : AllTidy (node :: others) := nodes ▸ allTidy_nodesOfTokens (tokens?_formed spelled)
  rcases exists_listsHandles built root tidy.1 with ⟨handles, lists, written⟩
  have names : c.values.map (·.1) = (mentioned r.nameCase node).eraseDups := by
    rw [Component.names_values, Component.keys_build built root, nameCase]
  have inspected : r.inspect (renamingBy digest) read =
      .ok (listing "variables" (c.values.map (·.1)) ++
        listing "handles" (handles.map describeDeclaration) ++
        classListing (r.style.map fun path => renamingBy digest (scopeOf path r.scope) css)) := by
    rw [Request.inspect, loaded]
    change ((c.handles.keys.mergeSort Text.atMost).mapM (describeHandle c)).bind _ = _
    rw [written, renames_of_readable styled]
    rfl
  refine ⟨template, css, node, others, handles, classesByLength css, _, _, _, found, styled, parsed,
    lists, listsClasses_classesByLength css, inspected, prints_iff.mpr (by rw [names]),
    prints_iff.mpr rfl, ?_⟩
  cases r.style with
  | none => rfl
  | some path =>
      have entries : (renamingBy digest (scopeOf path r.scope) css).entries.map describeRename =
          (classesByLength css).map fun className =>
            className ++ " -> ".toList ++ nameOf digest (scopeOf path r.scope) css className := by
        rw [Style.entries_renamingBy, List.map_map]
        simp only [Function.comp_def, describeRename]
      simp only [Option.map_some, classListing, entries]
      exact prints_iff.mpr rfl

/-- A handle outside the letters of English, one declared twice, and one without a child. -/
def shelfTemplate : Text :=
  ("<ul #handle=\"list\" class=\"top\"><li #handle=\"ä\">{{b}}</li>" ++
    "<li #handle=\"Z\">{{a}} {{b}}</li><i #handle=\"Z\">x</i><s #handle=\"none\"></s></ul>").toList

def shelfFiles : Reader := fun path =>
  if path = "shelf.html".toList then .ok shelfTemplate
  else if path = "shelf.css".toList then .ok ".top {}".toList
  else .error .missing

def shelfRequest : Request :=
  { template := "shelf.html".toList, style := some "shelf.css".toList }

theorem listsHandles_shelf {node : Node} (declarations : node.declarations =
    [("list".toList, "ul".toList), ("ä".toList, "li".toList), ("Z".toList, "li".toList),
      ("Z".toList, "i".toList)]) :
    ListsHandles node [("Z".toList, "li".toList), ("list".toList, "ul".toList),
      ("ä".toList, "li".toList)] where
  ascending := by decide
  firsts := by
    rw [declarations]
    rintro ⟨handle, tag⟩
    constructor
    · simp only [List.mem_cons, List.not_mem_nil, or_false]
      rintro (same | same | same) <;> cases same <;> decide
    · intro first
      have declared := List.mem_of_find?_eq_some first
      simp only [List.mem_cons, List.not_mem_nil, or_false] at declared
      rcases declared with same | same | same | same <;> cases same <;> revert first <;> decide
  tagged := by decide

theorem inspect_of_load_shelf : ∃ c,
    shelfRequest.load Style.scopedRenaming shelfFiles = .ok c ∧
    shelfRequest.inspect Style.scopedRenaming shelfFiles = .ok
      ("variables (2):\n  b\n  a\n" ++
        "handles (3):\n  Z -> <li>\n  list -> <ul>\n  ä -> <li>\n" ++
        "classes (1):\n  top -> _a2eb95b6\n").toList := by
  have facts : ((parse? (shelfRequest.renamed Style.scopedRenaming shelfTemplate
      ".top {}".toList).trim).bind List.head?).map
        (fun node => (node.declarations, mentioned .sensitive node)) =
      some ([("list".toList, "ul".toList), ("ä".toList, "li".toList), ("Z".toList, "li".toList),
        ("Z".toList, "i".toList)], ["b".toList, "a".toList, "b".toList]) := by decide +kernel
  have styled : ∀ path ∈ shelfRequest.style, shelfFiles path = .ok ".top {}".toList := by decide
  rcases Option.map_eq_some_iff.mp facts with ⟨first, headed, _⟩
  rcases Option.bind_eq_some_iff.mp headed with ⟨nodes, parsed, head⟩
  obtain ⟨later, rfl⟩ := List.head?_eq_some_iff.mp head
  obtain ⟨c, loaded⟩ : ∃ c, shelfRequest.load Style.scopedRenaming shelfFiles = .ok c :=
    load_of_parse? rfl styled parsed
  rcases @inspect_of_load shelfFiles shelfRequest c Blake3.digest loaded with
    ⟨template, css, node, others, handles, classes, _, _, _, found, sheet, again, lists, inOrder,
      inspected, names, tags, renamed⟩
  obtain rfl : shelfTemplate = template := Except.ok.inj found
  obtain rfl : ".top {}".toList = css := Except.ok.inj (sheet "shelf.css".toList rfl)
  change (parse? (shelfRequest.renamed Style.scopedRenaming _ _).trim) = _ at again
  rw [again] at facts
  rcases Prod.mk.inj (Option.some.inj facts) with ⟨declarations, mentions⟩
  have firstMentions : (mentioned shelfRequest.nameCase node).eraseDups = ["b".toList, "a".toList] :=
    (congrArg List.eraseDups mentions).trans (by decide)
  obtain rfl := lists.unique (listsHandles_shelf declarations)
  have only : classes = ["top".toList] := by
    have perm := inOrder.perm
    rw [show classesOf ".top {}".toList = ["top".toList] by decide +kernel] at perm
    exact List.perm_singleton.mp perm
  subst only
  refine ⟨c, loaded, inspected.trans (congrArg _ ?_)⟩
  have name : nameOf Blake3.digest "shelf.css".toList ".top {}".toList "top".toList =
      "_a2eb95b6".toList := by decide +kernel
  rw [prints_iff.mp names, prints_iff.mp tags, prints_iff.mp renamed, firstMentions]
  change _ ++ _ ++ listing "classes" ["top".toList ++ " -> ".toList ++ nameOf Blake3.digest
    "shelf.css".toList ".top {}".toList "top".toList] = _
  rw [name]
  decide

end LiveTemplate.Command
