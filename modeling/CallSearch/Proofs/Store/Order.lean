import Mathlib.Data.Prod.Lex
import Mathlib.Data.String.Basic
import Mathlib.Data.Sum.Order
import CallSearch.Proofs.Double.Extended
import CallSearch.Proofs.Store.Insert
import CallSearch.Store.Listing

namespace CallSearch

namespace Cell

abbrev Rank := WithBot (Place ⊕ₗ (String ⊕ₗ ℕ))

def rank : Cell → Rank
  | .null => ⊥
  | .number n => (Sum.inlₗ (n.place?.getD .bottom) : Place ⊕ₗ (String ⊕ₗ ℕ))
  | .text s => (Sum.inrₗ (Sum.inlₗ s) : Place ⊕ₗ (String ⊕ₗ ℕ))
  | .time t => (Sum.inrₗ (Sum.inrₗ t.key) : Place ⊕ₗ (String ⊕ₗ ℕ))

def Suits (timed : Bool) : Cell → Prop
  | .null => True
  | .number n => n.isNan = false
  | .text _ => timed = false
  | .time _ => timed = true

variable {timed : Bool} {a b : Cell}

theorem inOrder_iff_rank_le (ha : a.Suits timed) (hb : b.Suits timed) :
    a.inOrder b ↔ a.rank ≤ b.rank := by
  cases a with
  | null => simp [inOrder, rank]
  | number m =>
    obtain ⟨p, hp⟩ := Number.exists_place ha
    cases b with
    | null => simp [inOrder, rank]
    | number n =>
      obtain ⟨q, hq⟩ := Number.exists_place hb
      have hlt := Number.lt_iff hq hp
      simp [inOrder, rank, before, hp, hq, ← not_lt, ← hlt]
    | text s => simp [inOrder, rank, before]
    | time t => simp [inOrder, rank, before]
  | text s =>
    cases b with
    | null => simp [inOrder, rank]
    | number n => simp [inOrder, rank, before]
    | text t => simp [inOrder, rank, before, ← not_lt]
    | time t => simp_all [Suits]
  | time s =>
    cases b with
    | null => simp [inOrder, rank]
    | number n => simp [inOrder, rank, before]
    | text t => simp_all [Suits]
    | time t => simp [inOrder, rank, before]

theorem suits_ofDouble (x : Double) : (ofDouble x).Suits timed := by
  unfold ofDouble
  cases h : x.isNan <;> simp [Suits, Number.isNan, h]

theorem suits_ofInt (n : Int) : (number (Number.ofInt n)).Suits timed := by
  unfold Number.ofInt
  split
  · rfl
  · exact Literal.isNan_toStored _

end Cell

namespace Call

variable {column : CallColumn} {a b c : Call}

theorem cell_suits (call : Call) (column : CallColumn) :
    (call.cell column).Suits (Draft.isTimeColumn column) := by
  cases column with
  | id | agent | createdAt => rfl
  | text column => cases h : call.texts column <;> simp [cell, h, Cell.Suits, Draft.isTimeColumn]
  | time column => cases h : call.times column <;> simp [cell, h, Cell.Suits, Draft.isTimeColumn]
  | number column =>
    cases h : call.numbers column with
    | none => simp [cell, h, Cell.Suits]
    | some x => simpa [cell, h] using Cell.suits_ofDouble x
  | payload column =>
    simp only [cell]
    split
    · trivial
    · exact Cell.suits_ofInt _
    · next x _ =>
      cases x with
      | nan | infinite => rfl
      | finite => rfl
    · rfl

/-- The place of a call in a listing by an ascending column. -/
def rank (column : CallColumn) (call : Call) : Cell.Rank ×ₗ ℤ :=
  toLex ((call.cell column).rank, call.id)

theorem inOrder_iff : a.inOrder column b ↔ a.rank column ≤ b.rank column := by
  have hab := Cell.inOrder_iff_rank_le (a.cell_suits column) (b.cell_suits column)
  have hba := Cell.inOrder_iff_rank_le (b.cell_suits column) (a.cell_suits column)
  simp only [inOrder, Bool.and_eq_true, Bool.or_eq_true, Bool.not_eq_true', decide_eq_true_eq,
    ← Bool.not_eq_true, hab, hba, rank, Prod.Lex.le_iff', ofLex_toLex]
  constructor
  · rintro ⟨hle, hlast⟩
    refine ⟨hle, fun same ↦ hlast.resolve_left fun h ↦ h same.ge⟩
  · rintro ⟨hle, hlast⟩
    refine ⟨hle, ?_⟩
    by_cases h : (b.cell column).rank ≤ (a.cell column).rank
    · exact Or.inr (hlast (le_antisymm hle h))
    · exact Or.inl h

theorem id_eq_of_rank_eq (h : a.rank column = b.rank column) : a.id = b.id :=
  congrArg (fun r ↦ (ofLex r).2) h

end Call

namespace SortOrder

variable {order : SortOrder} {calls others : List Call}

theorem precedes_iff {a b : Call} :
    order.precedes a b ↔ if order.ascending then a.rank order.target ≤ b.rank order.target
      else b.rank order.target ≤ a.rank order.target := by
  unfold precedes
  split <;> exact Call.inOrder_iff

theorem precedes_trans {a b c : Call} (hab : order.precedes a b) (hbc : order.precedes b c) :
    order.precedes a c := by
  rw [precedes_iff] at *
  split at hab
  · simp_all only [if_true]
    exact hab.trans hbc
  · simp_all only [Bool.false_eq_true, if_false]
    exact hbc.trans hab

theorem precedes_total (order : SortOrder) (a b : Call) :
    order.precedes a b ∨ order.precedes b a := by
  rw [precedes_iff, precedes_iff]
  split
  · exact le_total _ _
  · exact le_total _ _

theorem id_eq_of_precedes {a b : Call} (hab : order.precedes a b) (hba : order.precedes b a) :
    a.id = b.id := by
  refine Call.id_eq_of_rank_eq (?_ : a.rank order.target = b.rank order.target)
  rw [precedes_iff] at *
  split at hab
  · simp_all only [if_true]
    exact le_antisymm hab hba
  · simp_all only [Bool.false_eq_true, if_false]
    exact le_antisymm hba hab

theorem list_perm (order : SortOrder) (calls : List Call) : (order.list calls).Perm calls :=
  List.mergeSort_perm _ _

theorem list_sorted (order : SortOrder) (calls : List Call) :
    (order.list calls).Pairwise fun a b ↦ order.precedes a b := by
  apply List.pairwise_mergeSort
  · intro a b c
    exact precedes_trans
  · intro a b
    rw [Bool.or_eq_true]
    exact order.precedes_total a b

/-- Calls with different ids can be in order in one way only. -/
theorem eq_list (ids : UniqueIds calls) (perm : others.Perm calls)
    (sorted : others.Pairwise fun a b ↦ order.precedes a b) : others = order.list calls := by
  have listed := list_perm order calls
  refine List.Perm.eq_of_pairwise ?_ sorted (list_sorted order calls) (perm.trans listed.symm)
  intro a b ha hb hab hba
  exact ids.eq_of_id_eq (perm.subset ha) (listed.subset hb) (id_eq_of_precedes hab hba)

theorem list_congr (order : SortOrder) (ids : UniqueIds calls)
    (same : calls.Perm others) : order.list calls = order.list others := by
  have perm := (list_perm order others).trans same.symm
  exact (eq_list ids perm (list_sorted order others)).symm

@[simp] theorem length_list (order : SortOrder) (calls : List Call) :
    (order.list calls).length = calls.length :=
  (list_perm order calls).length_eq

end SortOrder

end CallSearch
