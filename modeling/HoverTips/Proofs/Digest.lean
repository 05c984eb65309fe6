import HoverTips.Digest
import Mathlib.Algebra.Ring.Nat

/-! # Digests as written

A digest is written with all its digits, so two digests that are written alike
are the same. -/

namespace HoverTips.Digest

theorem hexDigit_injective :
    ∀ a < 16, ∀ b < 16, Json.hexDigit a = Json.hexDigit b → a = b := by
  decide

/-- Numbers with the same lower digits are equal, if they have no higher ones. -/
theorem eq_of_digits {b k : Nat} : ∀ {m n : Nat}, m < b ^ k → n < b ^ k →
    (∀ i < k, m / b ^ i % b = n / b ^ i % b) → m = n := by
  induction k with
  | zero =>
    intro m n hm hn _
    rw [Nat.pow_zero] at hm hn
    omega
  | succ k ih =>
    intro m n hm hn h
    have hlow : m % b = n % b := by simpa using h 0 (by omega)
    have hhigh : m / b = n / b := by
      rw [Nat.pow_succ'] at hm hn
      refine ih (Nat.div_lt_of_lt_mul hm) (Nat.div_lt_of_lt_mul hn) fun i hi => ?_
      have hdigit := h (i + 1) (by omega)
      rwa [Nat.pow_succ', ← Nat.div_div_eq_div_mul, ← Nat.div_div_eq_div_mul] at hdigit
    rw [← Nat.div_add_mod m b, hlow, hhigh, Nat.div_add_mod]

theorem hex_injective {c d : UInt64} (h : hex c = hex d) : c = d := by
  have hdigits := List.map_inj_left.mp (String.ofList_injective h)
  refine UInt64.toNat_inj.mp (eq_of_digits (b := 16) (k := 16) c.toNat_lt d.toNat_lt fun i hi => ?_)
  have hi' := hexDigit_injective _ (Nat.mod_lt _ (by decide)) _ (Nat.mod_lt _ (by decide))
    (hdigits (15 - i) (List.mem_range.mpr (by omega)))
  rw [show 15 - (15 - i) = i by omega] at hi'
  exact hi'

end HoverTips.Digest
