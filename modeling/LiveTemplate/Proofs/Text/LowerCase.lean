import LiveTemplate.Text.LowerCase
import Mathlib.Tactic.Common

/-! A text in lower case is its own lower-case form. No lower-case form of a character is again the
capital of another, and no capital sigma is left that could be read in two ways. -/

namespace LiveTemplate.Text

def lowerCode? (n : Nat) : Option Nat :=
  caseRuns.findSome? (·.lower? n)

theorem lowerChar_eq (c : Char) : lowerChar c =
    if c.toNat = 0x130 then ['i', '\u0307']
    else [((lowerCode? c.toNat).map Char.ofNat).getD c] := rfl

namespace CaseRun

variable {run other : CaseRun} {m n : Nat}

def top (run : CaseRun) : Nat :=
  run.target + (run.last - run.first)

/-- No lower-case form of the run is in the other run: they lie apart, or each form falls between
two code points of the other. -/
def clears (run other : CaseRun) : Bool :=
  Nat.blt run.top other.first || Nat.blt other.last run.target ||
    (run.step == 2 || run.first == run.last) && other.step == 2 &&
      (run.target + other.first) % 2 == 1

def writable (run : CaseRun) : Bool :=
  (Nat.blt run.top 0xD800 || Nat.blt 0xDFFF run.target && Nat.blt run.top 0x110000) &&
    (Nat.blt run.top 0x130 || Nat.blt 0x130 run.target)

theorem lower?_eq_some_iff : run.lower? n = some m ↔ (run.first ≤ n ∧ n ≤ run.last ∧
    (n - run.first) % run.step = 0) ∧ run.target + (n - run.first) = m := by
  rw [lower?, Option.ite_none_right_eq_some, Option.some_inj]

theorem lower?_of_clears (clears : run.clears other) (found : run.lower? n = some m) :
    other.lower? m = none := by
  rcases lower?_eq_some_iff.mp found with ⟨⟨least, greatest, even⟩, rfl⟩
  rw [lower?, if_neg]
  rintro ⟨above, below, fits⟩
  simp only [CaseRun.clears, top, Bool.or_eq_true, Bool.and_eq_true, Nat.blt_eq,
    beq_iff_eq] at clears
  rcases clears with (before | behind) | ⟨⟨steps, two⟩, odd⟩
  · omega
  · omega
  · rw [two] at fits
    rcases steps with step | single
    · rw [step] at even
      omega
    · omega

theorem isValidChar_of_writable (writable : run.writable) (found : run.lower? n = some m) :
    m.isValidChar ∧ m ≠ 0x130 := by
  rcases lower?_eq_some_iff.mp found with ⟨⟨least, greatest, _⟩, rfl⟩
  simp only [CaseRun.writable, top, Bool.or_eq_true, Bool.and_eq_true, Nat.blt_eq] at writable
  rw [Nat.isValidChar]
  omega

end CaseRun

theorem clears_caseRuns : caseRuns.all fun run => caseRuns.all run.clears := by decide +kernel

theorem writable_caseRuns : caseRuns.all CaseRun.writable := by decide +kernel

theorem lowerCode?_lowerCode? {n m : Nat} (found : lowerCode? n = some m) :
    m.isValidChar ∧ m ≠ 0x130 ∧ lowerCode? m = none := by
  rcases List.exists_of_findSome?_eq_some found with ⟨run, member, lower⟩
  have clears := List.all_eq_true.mp (List.all_eq_true.mp clears_caseRuns run member)
  have writable := List.all_eq_true.mp writable_caseRuns run member
  rcases CaseRun.isValidChar_of_writable writable lower with ⟨valid, undotted⟩
  refine ⟨valid, undotted, List.findSome?_eq_none_iff.mpr fun other listed => ?_⟩
  exact CaseRun.lower?_of_clears (clears other listed) lower

def IsLower (c : Char) : Prop :=
  c.toNat ≠ 0x130 ∧ lowerCode? c.toNat = none

instance : DecidablePred IsLower :=
  fun c => inferInstanceAs (Decidable (c.toNat ≠ 0x130 ∧ lowerCode? c.toNat = none))

theorem IsLower.lowerChar {c : Char} (small : IsLower c) : lowerChar c = [c] := by
  rw [lowerChar_eq, if_neg small.1, small.2]
  rfl

theorem IsLower.ne_sigma {c : Char} (small : IsLower c) : c ≠ '\u03a3' := by
  rintro rfl
  exact absurd small (by decide)

theorem isLower_of_mem_lowerChar {c d : Char} (member : d ∈ lowerChar c) : IsLower d := by
  rw [lowerChar_eq] at member
  split at member
  · have either : d = 'i' ∨ d = '\u0307' := by simpa using member
    rcases either with rfl | rfl <;> decide
  · rename_i undotted
    obtain rfl := List.mem_singleton.mp member
    cases found : lowerCode? c.toNat with
    | none => exact ⟨undotted, found⟩
    | some m =>
        rcases lowerCode?_lowerCode? found with ⟨valid, other, unmapped⟩
        have code : (Char.ofNat m).toNat = m := by
          rw [Char.ofNat, dif_pos valid]
          rfl
        exact ⟨code.symm ▸ other, code.symm ▸ unmapped⟩

theorem isLower_of_mem_lowerAfter {d : Char} : ∀ {t before : Text},
    d ∈ lowerAfter before t → IsLower d
  | c :: r, before, member => by
      rw [lowerAfter] at member
      rcases List.mem_append.mp member with here | later
      · split at here
        · obtain rfl := List.mem_singleton.mp here
          split <;> decide
        · exact isLower_of_mem_lowerChar here
      · exact isLower_of_mem_lowerAfter later

theorem lowerAfter_of_isLower : ∀ {t : Text} (before : Text), (∀ c ∈ t, IsLower c) →
    lowerAfter before t = t
  | [], _, _ => rfl
  | c :: r, before, small => by
      rcases List.forall_mem_cons.mp small with ⟨first, others⟩
      rw [lowerAfter, if_neg first.ne_sigma, first.lowerChar, lowerAfter_of_isLower _ others]
      rfl

theorem lower_lower (t : Text) : lower (lower t) = lower t :=
  lowerAfter_of_isLower [] fun _ member => isLower_of_mem_lowerAfter member

end LiveTemplate.Text
