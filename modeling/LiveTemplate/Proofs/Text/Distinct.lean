import Mathlib.Data.List.Induction

namespace LiveTemplate

variable {α : Type} [BEq α] [LawfulBEq α]

theorem nodup_eraseDups (l : List α) : l.eraseDups.Nodup := by
  match l with
  | [] => exact List.nodup_nil
  | a :: more =>
      rw [List.eraseDups_cons, List.nodup_cons]
      refine ⟨fun again => ?_, nodup_eraseDups _⟩
      simp at again
termination_by l.length
decreasing_by exact Nat.lt_succ_of_le (List.length_filter_le _ more)

theorem eraseDups_concat (l : List α) (a : α) :
    (l ++ [a]).eraseDups = l.eraseDups ++ if a ∈ l then [] else [a] := by
  rw [List.eraseDups_append]
  by_cases again : a ∈ l <;> simp [List.removeAll, again, List.eraseDups_cons]

theorem foldl_eq_eraseDups (l : List α) :
    l.foldl (fun found a => if found.contains a then found else found ++ [a]) [] = l.eraseDups := by
  induction l using List.reverseRecOn with
  | nil => rfl
  | append_singleton l a ih =>
      rw [List.foldl_append, List.foldl_cons, List.foldl_nil, ih, eraseDups_concat]
      by_cases again : a ∈ l <;> simp [again]

end LiveTemplate
