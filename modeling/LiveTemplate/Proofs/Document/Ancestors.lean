import LiveTemplate.Proofs.Document.Sound
import Mathlib.Data.List.Perm.Subperm
import Mathlib.Data.Nat.Init

namespace LiveTemplate.Document

variable {d : Document} {id parent child upper : NodeId}

theorem above_of_mem_ancestorsWithin : ∀ {n : Nat} {id : NodeId},
    upper ∈ d.ancestorsWithin n (d.parent? id) → d.Above upper id
  | 0, _, member => by simp [ancestorsWithin] at member
  | n + 1, id, member => by
      cases linked : d.parent? id with
      | none => simp [linked, ancestorsWithin] at member
      | some parent =>
          rw [linked, ancestorsWithin] at member
          rw [above_iff_of_parent? linked]
          rcases List.mem_cons.mp member with same | further
          · exact .inl same
          · exact .inr (above_of_mem_ancestorsWithin further)

theorem Sound.nodup_ancestorsWithin (sound : d.Sound) : ∀ (n : Nat) (id : NodeId),
    (id :: d.ancestorsWithin n (d.parent? id)).Nodup
  | 0, id => List.nodup_singleton id
  | n + 1, id => by
      cases linked : d.parent? id with
      | none => exact List.nodup_singleton id
      | some parent =>
          rw [ancestorsWithin]
          refine List.nodup_cons.mpr ⟨fun member => ?_, sound.nodup_ancestorsWithin n parent⟩
          apply sound.acyclic id
          rw [above_iff_of_parent? linked]
          rcases List.mem_cons.mp member with same | further
          · exact .inl same
          · exact .inr (above_of_mem_ancestorsWithin further)

/-- As the nodes above a node are different from each other and from it, they are fewer than the
nodes of the document. -/
theorem Sound.length_ancestorsWithin_lt (sound : d.Sound) (known : id < d.size) (n : Nat) :
    (d.ancestorsWithin n (d.parent? id)).length < d.size := by
  have inside : id :: d.ancestorsWithin n (d.parent? id) ⊆ List.range d.size := by
    intro other member
    rw [List.mem_range]
    rcases List.mem_cons.mp member with rfl | further
    · exact known
    · exact lt_size_of_above sound (above_of_mem_ancestorsWithin further)
  have bound := (List.subperm_of_subset (sound.nodup_ancestorsWithin n id) inside).length_le
  rw [List.length_range] at bound
  exact bound

theorem ancestorsWithin_succ : ∀ {n : Nat} {start : Option NodeId},
    (d.ancestorsWithin n start).length < n →
    d.ancestorsWithin (n + 1) start = d.ancestorsWithin n start
  | n + 1, none, _ => rfl
  | n + 1, some id, short => by
      rw [ancestorsWithin, List.length_cons] at short
      rw [ancestorsWithin, ancestorsWithin_succ (Nat.lt_of_succ_lt_succ short), ancestorsWithin]

theorem parent?_of_size_le (outside : d.size ≤ id) : d.parent? id = none := by
  rw [parent?, record?_of_size_le outside]
  rfl

theorem ancestorsWithin_none (n : Nat) : d.ancestorsWithin n none = [] := by
  cases n <;> rfl

theorem Sound.ancestorsWithin_eq (sound : d.Sound) (id : NodeId) {n : Nat} (enough : d.size ≤ n) :
    d.ancestorsWithin n (d.parent? id) = d.ancestors id := by
  by_cases known : id < d.size
  · induction n, enough using Nat.le_induction with
    | base => rfl
    | succ n enough ih =>
        have short : (d.ancestorsWithin n (d.parent? id)).length < n :=
          Nat.lt_of_lt_of_le (sound.length_ancestorsWithin_lt known n) enough
        calc
          d.ancestorsWithin (n + 1) (d.parent? id) = d.ancestorsWithin n (d.parent? id) :=
            ancestorsWithin_succ short
          _ = d.ancestors id := ih
  · rw [ancestors, parent?_of_size_le (Nat.le_of_not_lt known), ancestorsWithin_none,
      ancestorsWithin_none]

theorem Sound.ancestors_of_child (sound : d.Sound) (linked : d.parent? child = some parent) :
    d.ancestors child = parent :: d.ancestors parent := by
  calc
    d.ancestors child = d.ancestorsWithin (d.size + 1) (d.parent? child) :=
      (sound.ancestorsWithin_eq child (Nat.le_succ d.size)).symm
    _ = d.ancestorsWithin (d.size + 1) (some parent) := by rw [linked]
    _ = parent :: d.ancestors parent := rfl

theorem Sound.nodup_ancestors (sound : d.Sound) (id : NodeId) : (id :: d.ancestors id).Nodup :=
  sound.nodup_ancestorsWithin d.size id

theorem Sound.length_ancestors_lt (sound : d.Sound) (known : id < d.size) :
    (d.ancestors id).length < d.size :=
  sound.length_ancestorsWithin_lt known d.size

theorem Sound.mem_ancestors_iff (sound : d.Sound) :
    upper ∈ d.ancestors id ↔ d.Above upper id := by
  constructor
  · exact above_of_mem_ancestorsWithin
  · intro above
    induction above with
    | single linked =>
        rw [sound.ancestors_of_child linked]
        exact List.mem_cons_self
    | tail _ linked ih =>
        rw [sound.ancestors_of_child linked]
        exact List.mem_cons_of_mem _ ih

end LiveTemplate.Document
