import Mathlib.Order.Basic
import CallSearch.Calendar.Date

namespace CallSearch

theorem orElse_eq_none_iff {α : Type} {x : Option α} {other : Unit → Option α} :
    x.orElse other = none ↔ x = none ∧ other () = none := by
  cases x <;> simp [Option.orElse]

theorem orElse_eq_some_iff {α : Type} {x : Option α} {other : Unit → Option α} {a : α} :
    x.orElse other = some a ↔ x = some a ∨ x = none ∧ other () = some a := by
  cases x <;> simp [Option.orElse]

variable {year month day : Nat}

theorem daysInMonth_bounds (year month : Nat) :
    1 ≤ daysInMonth year month ∧ daysInMonth year month ≤ 31 := by
  unfold daysInMonth
  split
  · split <;> omega
  · split <;> omega

theorem IsDate.first_of_month (hyear : 1 ≤ year ∧ year ≤ 9999) (hmonth : 1 ≤ month ∧ month ≤ 12) :
    IsDate year month 1 :=
  ⟨hyear.1, hyear.2, hmonth.1, hmonth.2, Nat.le_refl 1, (daysInMonth_bounds year month).1⟩

theorem IsDate.last_of_month (hyear : 1 ≤ year ∧ year ≤ 9999) (hmonth : 1 ≤ month ∧ month ≤ 12) :
    IsDate year month (daysInMonth year month) :=
  ⟨hyear.1, hyear.2, hmonth.1, hmonth.2, (daysInMonth_bounds year month).1, Nat.le_refl _⟩

namespace Date

variable {d : Date}

theorem of?_eq_none_iff : of? year month day = none ↔ ¬IsDate year month day := by
  unfold of?
  split <;> simp_all

theorem of?_eq_some_iff : of? year month day = some d ↔
    d.year = year ∧ d.month = month ∧ d.day = day := by
  unfold of?
  split
  · next valid =>
    rw [Option.some_inj]
    constructor
    · rintro rfl
      exact ⟨rfl, rfl, rfl⟩
    · rintro ⟨rfl, rfl, rfl⟩
      rfl
  · next invalid =>
    refine iff_of_false (by simp) ?_
    rintro ⟨rfl, rfl, rfl⟩
    exact invalid d.isDate

def IsLast (d : Date) : Prop := d.year = 9999 ∧ d.month = 12 ∧ d.day = 31

def IsFirst (d : Date) : Prop := d.year = 1 ∧ d.month = 1 ∧ d.day = 1

theorem next?_eq_none_iff : d.next? = none ↔ d.IsLast := by
  obtain ⟨year, month, day, h1, h2, h3, h4, h5, h6⟩ := d
  simp only [next?, orElse_eq_none_iff, of?_eq_none_iff, IsLast]
  constructor
  · rintro ⟨later, nextMonth, nextYear⟩
    have hmonth : month = 12 := by
      by_contra hm
      exact nextMonth (.first_of_month ⟨h1, h2⟩ (by omega))
    have hyear : year = 9999 := by
      by_contra hy
      exact nextYear (.first_of_month (by omega) (by omega))
    subst hmonth hyear
    have hday : ¬day + 1 ≤ daysInMonth 9999 12 := fun h ↦ later ⟨h1, h2, h3, h4, by omega, h⟩
    have length : daysInMonth 9999 12 = 31 := by decide
    omega
  · rintro ⟨rfl, rfl, rfl⟩
    decide

theorem previous?_eq_none_iff : d.previous? = none ↔ d.IsFirst := by
  obtain ⟨year, month, day, h1, h2, h3, h4, h5, h6⟩ := d
  simp only [previous?, orElse_eq_none_iff, of?_eq_none_iff, IsFirst]
  constructor
  · rintro ⟨earlier, lastMonth, lastYear⟩
    have hmonth : month = 1 := by
      by_contra hm
      exact lastMonth (.last_of_month ⟨h1, h2⟩ (by omega))
    have hyear : year = 1 := by
      by_contra hy
      exact lastYear (.last_of_month (by omega) (by omega))
    refine ⟨hyear, hmonth, ?_⟩
    by_contra hd
    exact earlier ⟨h1, h2, h3, h4, by omega, by omega⟩
  · rintro ⟨rfl, rfl, rfl⟩
    decide

end Date

end CallSearch
