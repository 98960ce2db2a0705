import Mathlib.Data.Prod.Lex
import CallSearch.Calendar.Timestamp
import CallSearch.Proofs.Calendar

namespace CallSearch

namespace Date

variable {d e next : Date}

def fields (d : Date) : ℕ ×ₗ ℕ ×ₗ ℕ := toLex (d.year, toLex (d.month, d.day))

theorem fields_injective : Function.Injective fields := by
  rintro ⟨year, month, day, _⟩ ⟨year', month', day', _⟩ same
  simpa [fields] using same

instance : LinearOrder Date := LinearOrder.lift' fields fields_injective

theorem lt_iff_fields : d < e ↔
    d.year < e.year ∨
      d.year = e.year ∧ (d.month < e.month ∨ d.month = e.month ∧ d.day < e.day) := by
  change d.fields < e.fields ↔ _
  simp only [fields, Prod.Lex.toLex_lt_toLex]

theorem key_lt_iff : d.key < e.key ↔ d < e := by
  obtain ⟨-, -, -, month_d, -, day_d⟩ := d.isDate
  obtain ⟨-, -, -, month_e, -, day_e⟩ := e.isDate
  have := (daysInMonth_bounds d.year d.month).2
  have := (daysInMonth_bounds e.year e.month).2
  rw [lt_iff_fields, key, key]
  omega

theorem key_eq_iff : d.key = e.key ↔ d = e := by
  rw [← not_iff_not, ← ne_eq, ← ne_eq, ne_iff_lt_or_gt, ne_iff_lt_or_gt, key_lt_iff, key_lt_iff]

theorem next?_cases (h : d.next? = some next) :
    (next.year = d.year ∧ next.month = d.month ∧ next.day = d.day + 1) ∨
      d.day = daysInMonth d.year d.month ∧ next.day = 1 ∧
        (next.year = d.year ∧ next.month = d.month + 1 ∨
          d.month = 12 ∧ next.year = d.year + 1 ∧ next.month = 1) := by
  obtain ⟨year_pos, year_le, month_pos, month_le, day_pos, day_le⟩ := d.isDate
  simp only [next?, orElse_eq_some_iff, of?_eq_some_iff, of?_eq_none_iff] at h
  obtain later | ⟨noLater, h⟩ := h
  · exact Or.inl later
  · have last : d.day = daysInMonth d.year d.month := by
      by_contra hd
      exact noLater ⟨year_pos, year_le, month_pos, month_le, by omega, by omega⟩
    obtain ⟨hy, hm, hd⟩ | ⟨noMonth, hy, hm, hd⟩ := h
    · exact Or.inr ⟨last, hd, Or.inl ⟨hy, hm⟩⟩
    · have december : d.month = 12 := by
        by_contra hm
        exact noMonth (.first_of_month ⟨year_pos, year_le⟩ (by omega))
      exact Or.inr ⟨last, hd, Or.inr ⟨december, hy, hm⟩⟩

theorem next?_of_previous? (h : e.previous? = some d) : d.next? = some e := by
  obtain ⟨year_pos, year_le, month_pos, month_le, day_pos, day_le⟩ := e.isDate
  simp only [previous?, orElse_eq_some_iff, of?_eq_some_iff, of?_eq_none_iff] at h
  simp only [next?, orElse_eq_some_iff, of?_eq_some_iff, of?_eq_none_iff]
  obtain ⟨hy, hm, hd⟩ | ⟨noEarlier, h⟩ := h
  · have := d.isDate.2.2.2.2.1
    exact Or.inl ⟨hy.symm, hm.symm, by omega⟩
  · have first : e.day = 1 := by
      by_contra hd
      exact noEarlier ⟨year_pos, year_le, month_pos, month_le, by omega, by omega⟩
    obtain ⟨hy, hm, hd⟩ | ⟨noMonth, hy, hm, hd⟩ := h
    · have monthBefore := d.isDate.2.2.1
      rw [hy, hm, hd]
      exact Or.inr ⟨fun valid ↦ by have := valid.2.2.2.2.2; omega, Or.inl ⟨rfl, by omega, first⟩⟩
    · have january : e.month = 1 := by
        by_contra hm
        exact noMonth (.last_of_month ⟨year_pos, year_le⟩ (by omega))
      have yearBefore := d.isDate.1
      rw [hy, hm, hd]
      refine Or.inr ⟨?_, Or.inr ⟨?_, by omega, january, first⟩⟩
      · exact fun valid ↦ absurd (valid.2.2.2.2.2.trans (daysInMonth_bounds _ 12).2) (by decide)
      · exact fun valid ↦ absurd valid.2.2.2.1 (by decide)

theorem next?_le_iff (h : d.next? = some next) : next ≤ e ↔ d < e := by
  obtain ⟨-, -, month_pos, month_le, day_pos, day_le⟩ := e.isDate
  -- A date in the month of `d` is not beyond the end of that month.
  have inMonth : e.year = d.year ∧ e.month = d.month → e.day ≤ daysInMonth d.year d.month := by
    rintro ⟨year_eq, month_eq⟩
    rwa [year_eq, month_eq] at day_le
  rw [← not_lt, lt_iff_fields, lt_iff_fields]
  obtain ⟨hy, hm, hd⟩ | ⟨last, hd, ⟨hy, hm⟩ | ⟨december, hy, hm⟩⟩ := next?_cases h <;> omega

theorem next?_inj (h : d.next? = some next) (h' : e.next? = some next) : d = e := by
  apply le_antisymm
  · by_contra later
    have beyond := (next?_le_iff h').mpr (not_le.mp later)
    exact lt_irrefl d ((next?_le_iff h).mp beyond)
  · by_contra later
    have beyond := (next?_le_iff h).mpr (not_le.mp later)
    exact lt_irrefl e ((next?_le_iff h').mp beyond)

end Date

namespace Timestamp

variable {s t : Timestamp} {d : Date}

theorem microOfDay_lt (t : Timestamp) : t.microOfDay < 86400000000 := by
  have := t.hour.isLt
  have := t.minute.isLt
  have := t.second.isLt
  have := t.micro.isLt
  unfold microOfDay
  omega

theorem key_lt_iff : s.key < t.key ↔
    s.date < t.date ∨ s.date = t.date ∧ s.microOfDay < t.microOfDay := by
  have := microOfDay_lt s
  have := microOfDay_lt t
  rw [← Date.key_lt_iff, ← Date.key_eq_iff, key, key]
  omega

theorem key_startOf_le_iff : (startOf d).key ≤ t.key ↔ d ≤ t.date := by
  rw [← not_lt, key_lt_iff, ← not_lt]
  simp [startOf, microOfDay]

theorem key_lt_startOf_iff : t.key < (startOf d).key ↔ t.date < d := by
  rw [← not_le, key_startOf_le_iff, not_le]

end Timestamp

end CallSearch
