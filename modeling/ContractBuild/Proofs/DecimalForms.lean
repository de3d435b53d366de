import ContractBuild.Text.Decimal
import Mathlib.Data.List.TakeWhile

/-! Numbers as they are written: digits, none of them a leading zero, that write the number they were
made from. -/
namespace ContractBuild.DecimalForms
open Text

variable {c : Char} {n : Nat} {digits : List Char}

private theorem digit_of_small : ∀ d < 10,
    isDigit (Char.ofNat (48 + d)) = true ∧ digitValue (Char.ofNat (48 + d)) = d := by decide

theorem decimal_small (small : n < 10) : decimal n = [Char.ofNat (48 + n)] := by
  rw [decimal, if_pos small, Nat.mod_eq_of_lt small]

theorem decimal_large (large : ¬ n < 10) :
    decimal n = decimal (n / 10) ++ [Char.ofNat (48 + n % 10)] := by
  rw [decimal, if_neg large]

theorem decimal_digits (n : Nat) : ∀ c ∈ decimal n, isDigit c = true := by
  induction n using Nat.strongRecOn with
  | _ n ih =>
    by_cases small : n < 10
    · simpa [decimal_small small] using (digit_of_small n small).1
    · rw [decimal_large small, List.forall_mem_append]
      refine ⟨ih (n / 10) (by omega), ?_⟩
      simpa using (digit_of_small (n % 10) (by omega)).1

/-- Digits write the number they were made from. -/
theorem value_of_decimal (n : Nat) : ofDecimal (decimal n) = n := by
  induction n using Nat.strongRecOn with
  | _ n ih =>
    by_cases small : n < 10
    · simpa [decimal_small small, ofDecimal] using (digit_of_small n small).2
    · have front := ih (n / 10) (by omega)
      have last := (digit_of_small (n % 10) (by omega)).2
      rw [decimal_large small, ofDecimal, List.foldl_append]
      rw [ofDecimal] at front
      rw [front, List.foldl_cons, List.foldl_nil, last]
      omega

/-- A number that is not zero is written from a digit on that is not zero. -/
theorem decimal_starts (some : 0 < n) : ∃ c rest, decimal n = c :: rest ∧ c ≠ '0' := by
  induction n using Nat.strongRecOn with
  | _ n ih =>
    by_cases small : n < 10
    · have each : ∀ d < 10, 0 < d → Char.ofNat (48 + d) ≠ '0' := by decide
      exact ⟨_, [], decimal_small small, each n small some⟩
    · obtain ⟨c, rest, front, solid⟩ := ih (n / 10) (by omega) (by omega)
      exact ⟨c, rest ++ [Char.ofNat (48 + n % 10)], by rw [decimal_large small, front]; rfl, solid⟩

/-- Digits before a text that starts with none are taken off it as they are. -/
theorem take_digits {rest : List Char} (all : ∀ c ∈ digits, isDigit c = true)
    (stop : ∀ c ∈ rest.head?, isDigit c = false) :
    (digits ++ rest).takeWhile isDigit = digits ∧ (digits ++ rest).dropWhile isDigit = rest := by
  cases rest with
  | nil => simp [List.takeWhile_eq_self_iff.mpr all, List.dropWhile_eq_nil_iff.mpr all]
  | cons c rest =>
    have solid : isDigit c = false := stop c (by simp)
    rw [List.takeWhile_append_of_pos all, List.dropWhile_append_of_pos all]
    simp [solid]

end ContractBuild.DecimalForms
