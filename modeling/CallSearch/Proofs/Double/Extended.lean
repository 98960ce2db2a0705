import Mathlib.Algebra.Group.Nat.Defs
import CallSearch.Double.Extended
import CallSearch.Proofs.Number

namespace CallSearch

theorem Double.isNan_ofRatio (negative : Bool) (n d : ℕ) : (ofRatio negative n d).isNan = false :=
  isNan_ofSignificand _ _ _

theorem Extended.isNan_toDouble (negative : Bool) (x : Extended) :
    (x.toDouble negative).isNan = false := by
  unfold toDouble
  dsimp only
  split_ifs
  · rfl
  · exact Double.isNan_ofRatio _ _ _

namespace Literal

theorem isNan_toStored (literal : Literal) : literal.toStored.isNan = false := by
  unfold toStored
  dsimp only
  split_ifs
  · rfl
  · rfl
  · rfl
  · exact Double.isNan_ofRatio _ _ _
  · exact Extended.isNan_toDouble _ _
  · exact Extended.isNan_toDouble _ _

variable {negative : Bool} {digits : ℕ} {scale : ℤ}

theorem firstDigits_eq (few : digits < 10 ^ 19) :
    firstDigits ⟨negative, digits, scale⟩ = (digits, scale) := by
  have none : (Nat.toDigits 10 digits).length - 19 = 0 := by
    have := (Nat.length_toDigits_le_iff (by decide) (by decide : 0 < 19)).mpr few
    omega
  simp [firstDigits, none]

theorem toStored_whole (few : digits < 10 ^ 19) :
    toStored ⟨negative, digits, 0⟩ =
      if digits = 0 then Double.signedZero negative else Double.ofRatio negative digits 1 := by
  have length : (Nat.toDigits 10 digits).length ≤ 19 :=
    (Nat.length_toDigits_le_iff (by decide) (by decide)).mpr few
  have settled : settle 20 (digits, 0) = (digits, 0) := rfl
  unfold toStored
  rw [firstDigits_eq few, settled]
  dsimp only
  split
  · rfl
  · rw [if_neg (by omega), if_neg (by omega), if_pos rfl]

theorem toStored_eq_toDouble (few : digits < 10 ^ 19) :
    toStored ⟨negative, digits, 0⟩ = toDouble ⟨negative, digits, 0⟩ := by
  have length : (Nat.toDigits 10 digits).length ≤ 19 :=
    (Nat.length_toDigits_le_iff (by decide) (by decide)).mpr few
  rw [toStored_whole few]
  unfold toDouble
  dsimp only
  split
  · rfl
  · rw [if_neg (by omega), if_neg (by omega), if_pos le_rfl]
    simp

end Literal

end CallSearch
