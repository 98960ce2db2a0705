import Mathlib.Algebra.Order.Ring.Nat
import Mathlib.Data.List.Nodup
import CallSearch.Identity

namespace CallSearch

namespace IdSupply

def digitValue (c : Char) : ℕ := if c.isDigit then c.toNat - '0'.toNat else c.toNat - 'a'.toNat + 10

def valueOf (digits : List Char) : ℕ := digits.foldl (fun value c ↦ 16 * value + digitValue c) 0

theorem digitValue_digitChar : ∀ d < 16, digitValue (Nat.digitChar d) = d := by decide

theorem valueOf_toDigits (n : ℕ) : valueOf (Nat.toDigits 16 n) = n := by
  induction n using Nat.strong_induction_on with
  | _ n ih =>
    have last : digitValue (Nat.digitChar (n % 16)) = n % 16 :=
      digitValue_digitChar _ (Nat.mod_lt _ (by decide))
    by_cases small : n < 16
    · rw [Nat.mod_eq_of_lt small] at last
      rw [Nat.toDigits_of_lt_base small, valueOf, List.foldl_cons, List.foldl_nil, last,
        Nat.mul_zero, Nat.zero_add]
    · have front : valueOf (Nat.toDigits 16 (n / 16)) = n / 16 := ih _ (by omega)
      rw [valueOf] at front
      rw [Nat.toDigits_of_base_le (by decide) (by omega), valueOf, List.foldl_append, front,
        List.foldl_cons, List.foldl_nil, last, Nat.div_add_mod]

theorem valueOf_leadingZeros (k : ℕ) (digits : List Char) :
    valueOf (List.replicate k '0' ++ digits) = valueOf digits := by
  induction k with
  | zero => rfl
  | succ k ih => rw [List.replicate_succ, List.cons_append, ← ih]; rfl

theorem idOf_injective : Function.Injective idOf := fun n m same ↦ by
  have digits := congrArg (valueOf ∘ String.toList) same
  simpa [idOf, valueOf_leadingZeros, valueOf_toDigits] using digits

/-- The ids that a supply gives one after another, with what is left of it. -/
inductive Gives : IdSupply → List String → IdSupply → Prop
  | nil (supply : IdSupply) : Gives supply [] supply
  | cons {supply left : IdSupply} {ids : List String} (rest : Gives ⟨supply.next + 1⟩ ids left) :
      Gives supply (idOf supply.next :: ids) left

variable {supply between left : IdSupply} {ids others : List String} {id : String}

theorem Gives.append (first : Gives supply ids between) (second : Gives between others left) :
    Gives supply (ids ++ others) left := by
  induction first with
  | nil => exact second
  | cons rest ih => exact .cons (ih second)

theorem Gives.of_mem (gives : Gives supply ids left) (inside : id ∈ ids) :
    ∃ n, supply.next ≤ n ∧ id = idOf n := by
  induction gives with
  | nil => exact absurd inside List.not_mem_nil
  | @cons supply left ids rest ih =>
    rcases List.mem_cons.mp inside with first | later
    · exact ⟨supply.next, le_rfl, first⟩
    · obtain ⟨n, after, same⟩ := ih later
      exact ⟨n, Nat.le_of_succ_le after, same⟩

theorem Gives.nodup (gives : Gives supply ids left) : ids.Nodup := by
  induction gives with
  | nil => exact List.nodup_nil
  | @cons supply left ids rest ih =>
    refine List.nodup_cons.mpr ⟨fun again ↦ ?_, ih⟩
    obtain ⟨n, after, same⟩ := rest.of_mem again
    exact Nat.ne_of_lt after (idOf_injective same)

end IdSupply

section Fresh

variable {α β γ : Type} {f : α → Fresh β}

theorem map_mapM {view : β → γ} {seen : α → γ}
    (each : ∀ a supply, view ((f a).run supply).1 = seen a) (items : List α) (supply : IdSupply) :
    ((items.mapM f).run supply).1.map view = items.map seen := by
  induction items generalizing supply with
  | nil => rfl
  | cons a rest ih =>
    rw [List.mapM_cons, List.map_cons, ← each a supply, ← ih ((f a).run supply).2]
    rfl

theorem gives_mapM {id : β → String}
    (each : ∀ a supply, IdSupply.Gives supply [id ((f a).run supply).1] ((f a).run supply).2)
    (items : List α) (supply : IdSupply) :
    IdSupply.Gives supply (((items.mapM f).run supply).1.map id) ((items.mapM f).run supply).2 := by
  induction items generalizing supply with
  | nil => exact .nil supply
  | cons a rest ih =>
    rw [List.mapM_cons]
    exact (each a supply).append (ih ((f a).run supply).2)

end Fresh

end CallSearch
