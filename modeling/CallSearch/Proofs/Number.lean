import Mathlib.Order.WithBot
import CallSearch.Number

namespace CallSearch

namespace Place

def bounds : Place → WithBot (WithTop ℤ)
  | .bottom => ⊥
  | .inside units => ((units : WithTop ℤ) : WithBot (WithTop ℤ))
  | .top => ((⊤ : WithTop ℤ) : WithBot (WithTop ℤ))

theorem bounds_injective : Function.Injective bounds := by
  intro p q h
  cases p <;> cases q <;> simp_all [bounds]

instance : LinearOrder Place := LinearOrder.lift' bounds bounds_injective

theorem before_iff {p q : Place} : p.before q ↔ p < q := by
  change p.before q ↔ p.bounds < q.bounds
  cases p <;> cases q <;> simp [before, bounds, -WithBot.coe_top, WithTop.coe_lt_top]

variable {p q : Place} {m n : ℤ}

theorem bottom_le (p : Place) : bottom ≤ p := by
  change bottom.bounds ≤ p.bounds
  exact bot_le

theorem le_top (p : Place) : p ≤ top := by
  change p.bounds ≤ top.bounds
  cases p <;> simp [bounds, -WithBot.coe_top]

@[simp]
theorem inside_le_inside : inside m ≤ inside n ↔ m ≤ n := by
  change (inside m).bounds ≤ (inside n).bounds ↔ _
  simp [bounds]

@[simp]
theorem le_bottom_iff : p ≤ bottom ↔ p = bottom :=
  ⟨fun h ↦ le_antisymm h (bottom_le p), fun h ↦ h.le⟩

@[simp]
theorem top_le_iff : top ≤ p ↔ p = top :=
  ⟨fun h ↦ le_antisymm (le_top p) h, fun h ↦ h.ge⟩

def opposite : Place → Place
  | bottom => top
  | inside units => inside (-units)
  | top => bottom

theorem opposite_opposite (p : Place) : p.opposite.opposite = p := by
  cases p <;> simp [opposite]

theorem opposite_le_opposite (h : p ≤ q) : q.opposite ≤ p.opposite := by
  cases p <;> cases q <;> simp_all [opposite, bottom_le, le_top]

end Place

theorem Double.place?_eq_none_iff {x : Double} : x.place? = none ↔ x.isNan := by
  cases x <;> simp [Double.place?, Double.isNan]

theorem Double.isNan_ofSignificand (negative : Bool) (significand shift : Nat) :
    (ofSignificand negative significand shift).isNan = false := by
  simp only [ofSignificand]
  split
  · rfl
  · split <;> split <;> rfl

theorem Double.isNan_ofInt (n : Int) : (ofInt n).isNan = false :=
  isNan_ofSignificand _ _ _

theorem Double.eq_of_notInfinite? {x y : Double} (h : x.notInfinite? = some y) : x = y := by
  cases x with
  | infinite => cases h
  | nan | finite => exact Option.some.inj h

theorem Double.ofInt_of_ofInt? {n : ℤ} {x : Double} (h : ofInt? n = some x) : ofInt n = x := by
  unfold ofInt? at h
  exact eq_of_notInfinite? h

namespace Number

variable {m n : Number}

theorem place?_eq_none_iff : m.place? = none ↔ m.isNan := by
  cases m with
  | int k => exact iff_of_false (Option.some_ne_none _) Bool.false_ne_true
  | real x => exact Double.place?_eq_none_iff

theorem exists_place (h : m.isNan = false) : ∃ p, m.place? = some p := by
  rw [← Option.isSome_iff_exists, Option.isSome_iff_ne_none, ne_eq, place?_eq_none_iff, h]
  exact Bool.false_ne_true

theorem ofInt_of_toDouble {k : ℤ} {x : Double} (h : (int k).toDouble = .ok x) :
    Double.ofInt k = x := by
  rw [toDouble] at h
  cases found : Double.ofInt? k with
  | none =>
    rw [found] at h
    cases h
  | some y =>
    rw [found] at h
    cases h
    exact Double.ofInt_of_ofInt? found

theorem lt_iff {p q : Place} (hm : m.place? = some p) (hn : n.place? = some q) :
    m.lt n ↔ p < q := by
  rw [lt, hm, hn]
  exact Place.before_iff

theorem same_iff {p q : Place} (hm : m.place? = some p) (hn : n.place? = some q) :
    m.same n ↔ p = q := by
  rw [same, hm, hn]
  exact beq_iff_eq

theorem le_self (h : m.isNan = false) : m.le m := by
  obtain ⟨p, hp⟩ := exists_place h
  exact (Bool.or_eq_true _ _).mpr (.inr ((same_iff hp hp).mpr rfl))

theorem places_of_lt (h : m.lt n) : ∃ p q, m.place? = some p ∧ n.place? = some q ∧ p < q := by
  cases hp : m.place? with
  | none => simp [lt, hp] at h
  | some p => cases hq : n.place? with
    | none => simp [lt, hp, hq] at h
    | some q => exact ⟨p, q, rfl, rfl, (lt_iff hp hq).mp h⟩

theorem places_of_le (h : m.le n) : ∃ p q, m.place? = some p ∧ n.place? = some q ∧ p ≤ q := by
  rcases (Bool.or_eq_true _ _).mp h with less | equal
  · obtain ⟨p, q, hp, hq, below⟩ := places_of_lt less
    exact ⟨p, q, hp, hq, below.le⟩
  · unfold same at equal
    cases hp : m.place? with
    | none => simp [hp] at equal
    | some p => cases hq : n.place? with
      | none => simp [hp, hq] at equal
      | some q => exact ⟨p, q, rfl, rfl, by simp_all⟩

end Number

end CallSearch
