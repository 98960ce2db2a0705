import CallSearch.Proofs.Anomaly.Computed

namespace CallSearch

section Ascending

variable {α β : Type} [LinearOrder β] {key : α → β} {items : List α} {i : ℕ} {a : α}

theorem countP_lt_le (ascending : items.Pairwise fun a b ↦ key a ≤ key b)
    (found : items[i]? = some a) : (items.countP fun b ↦ key b < key a) ≤ i := by
  obtain ⟨parts, -, behind⟩ := split_ascending ascending found
  have none : (items.drop (i + 1)).countP (fun b ↦ key b < key a) = 0 := by
    rw [List.countP_eq_zero]
    intro b hb below
    exact (behind b hb).not_gt (of_decide_eq_true below)
  have some := List.countP_le_length (p := fun b ↦ decide (key b < key a)) (l := items.take i)
  rw [List.length_take] at some
  rw [parts, List.countP_append, List.countP_cons_of_neg (by simp), none]
  omega

theorem lt_countP_le (ascending : items.Pairwise fun a b ↦ key a ≤ key b)
    (found : items[i]? = some a) : i < items.countP fun b ↦ key b ≤ key a := by
  obtain ⟨parts, before, -⟩ := split_ascending ascending found
  have inside := (List.getElem?_eq_some_iff.mp found).1
  have all : (items.take i).countP (fun b ↦ key b ≤ key a) = (items.take i).length := by
    rw [List.countP_eq_length]
    exact fun b hb ↦ decide_eq_true (before b hb)
  rw [List.length_take] at all
  rw [parts, List.countP_append, List.countP_cons_of_pos (by simp), all]
  omega

end Ascending

/-- The values among some that are there and are numbers. -/
def usable (values : List (Option Number)) : List Number :=
  (values.filterMap id).filter (!·.isNan)

/-- Whether a value has a rank among some values: fewer than the rank are less than it, and at least
as many are not more than it. -/
structure HasRank (values : List Number) (rank : ℕ) (r : Number) : Prop where
  among : r ∈ values
  less : values.countP (·.lt r) < rank
  notMore : rank ≤ values.countP (·.le r)

section Rank

variable {values : List Number} {r r' : Number} {rank : ℕ}

theorem hasRank_of_sorted (found : (sortedNumbers values)[rank]? = some r) :
    HasRank (values.filter (!·.isNan)) (rank + 1) r := by
  have perm : (sortedNumbers values).Perm (values.filter (!·.isNan)) := List.mergeSort_perm _ _
  have among := perm.subset (List.mem_of_getElem? found)
  have number {n : Number} (hn : n ∈ values.filter (!·.isNan)) : n.isNan = false := by
    simpa using (List.mem_filter.mp hn).2
  have ascending := sortedNumbers_ascending values
  have below := countP_lt_le ascending found
  have reached := lt_countP_le ascending found
  have lt_eq : (values.filter (!·.isNan)).countP (·.lt r) =
      (values.filter (!·.isNan)).countP fun n ↦ n.placed < r.placed := by
    refine List.countP_congr fun n hn ↦ ?_
    rw [Number.lt_iff_placed (number hn) (number among), decide_eq_true_iff]
  have le_eq : (values.filter (!·.isNan)).countP (·.le r) =
      (values.filter (!·.isNan)).countP fun n ↦ n.placed ≤ r.placed := by
    refine List.countP_congr fun n hn ↦ ?_
    rw [Number.le_iff_placed (number hn) (number among), decide_eq_true_iff]
  rw [perm.countP_eq, ← lt_eq] at below
  rw [perm.countP_eq, ← le_eq] at reached
  exact ⟨among, by omega, by omega⟩

theorem HasRank.perm {others : List Number} (has : HasRank values rank r)
    (perm : values.Perm others) : HasRank others rank r where
  among := perm.subset has.among
  less := by
    rw [← perm.countP_eq]
    exact has.less
  notMore := by
    rw [← perm.countP_eq]
    exact has.notMore

/-- Two values of one rank are the same number: all values that are not more than one that is less
would be less than the other. -/
theorem HasRank.same (numbers : ∀ n ∈ values, n.isNan = false) (has : HasRank values rank r)
    (has' : HasRank values rank r') : r.same r' := by
  have notLess {r r' : Number} (has : HasRank values rank r) (has' : HasRank values rank r') :
      ¬r.placed < r'.placed := by
    intro less
    have fewer : values.countP (·.le r) ≤ values.countP (·.lt r') := by
      refine List.countP_mono_left fun n hn reaches ↦ ?_
      rw [Number.le_iff_placed (numbers n hn) (numbers r has.among)] at reaches
      rw [Number.lt_iff_placed (numbers n hn) (numbers r' has'.among)]
      exact reaches.trans_lt less
    have := has.notMore
    have := has'.less
    omega
  obtain ⟨p, hp⟩ := Number.exists_place (numbers r has.among)
  obtain ⟨q, hq⟩ := Number.exists_place (numbers r' has'.among)
  have placed : r.placed = r'.placed :=
    le_antisymm (not_lt.mp (notLess has' has)) (not_lt.mp (notLess has has'))
  rw [Number.placed, Number.placed, hp, hq] at placed
  exact (Number.same_iff hp hq).mpr placed

theorem percentileRank_ceiling {percentile : Number} {x : Double} {n : ℕ}
    (given : percentile.toDouble = .ok x)
    (finite : ((x.divNat 100).mul (Double.ofInt n)).isFinite) :
    ∃ rank units : ℤ, percentileRank percentile n = .ok rank ∧
      ((x.divNat 100).mul (Double.ofInt n)).units? = some units ∧
      (rank - 1) * Double.unitsPerOne < units ∧ units ≤ rank * Double.unitsPerOne := by
  obtain ⟨units, hunits⟩ : ∃ units, ((x.divNat 100).mul (Double.ofInt n)).units? = some units := by
    generalize (x.divNat 100).mul (Double.ofInt n) = y at finite ⊢
    cases y with
    | nan | infinite => cases finite
    | finite => exact ⟨_, rfl⟩
  have positive : (0 : ℤ) < Double.unitsPerOne := Int.natCast_pos.mpr Double.unitsPerOne_pos
  refine ⟨_, units, percentileRank_eq given hunits, hunits, ?_, ?_⟩
  · have above := Int.lt_ediv_add_one_mul_self (-units) positive
    rw [Int.add_mul, Int.one_mul] at above
    rw [Int.sub_mul, Int.neg_mul, Int.one_mul]
    omega
  · have below := Int.ediv_mul_le (-units) positive.ne'
    rw [Int.neg_mul]
    omega

end Rank

section Present

variable {values others more : List (Option Number)} {percentile : Number} {rank : ℤ}

def AllFit (values : List (Option Number)) : Prop := ∀ n, some n ∈ values → n.isTooLarge = false

theorem length_sortedNumbers (values : List (Option Number)) :
    (sortedNumbers (values.filterMap id)).length = (usable values).length :=
  List.length_mergeSort _

theorem nearestRankPresent_eq (fits : AllFit values) :
    nearestRankPresent values percentile =
      if (usable values).length = 0 then .ok none
      else match percentileRank percentile (usable values).length with
        | .error error => .error (.number error)
        | .ok rank => atRank (sortedNumbers (values.filterMap id)) rank := by
  have small : (values.filterMap id).any Number.isTooLarge = false := by
    rw [List.any_eq_false]
    intro n hn
    rw [fits n (by simpa using hn)]
    exact Bool.false_ne_true
  rw [nearestRankPresent, nearestRank, small, ← length_sortedNumbers]
  cases sortedNumbers (values.filterMap id) <;> rfl

theorem nearestRankPresent_empty (fits : AllFit values) (empty : usable values = []) :
    nearestRankPresent values percentile = .ok none := by
  rw [nearestRankPresent_eq fits, empty]
  rfl

theorem nearestRankPresent_ranked (fits : AllFit values)
    (ranked : percentileRank percentile (usable values).length = .ok rank)
    (inside : max 1 rank ≤ (usable values).length) :
    ∃ r, nearestRankPresent values percentile = .ok (some r) ∧
      HasRank (usable values) (max 1 rank).toNat r := by
  have bound : (rank - 1).toNat < (sortedNumbers (values.filterMap id)).length := by
    rw [length_sortedNumbers]
    omega
  have found := List.getElem?_eq_getElem bound
  have place : (max 1 rank).toNat = (rank - 1).toNat + 1 := by omega
  refine ⟨_, ?_, place ▸ hasRank_of_sorted found⟩
  rw [nearestRankPresent_eq fits, if_neg (by omega), ranked]
  dsimp only
  rw [atRank, found]

theorem nearestRankPresent_beyond (fits : AllFit values)
    (ranked : percentileRank percentile (usable values).length = .ok rank)
    (any : usable values ≠ []) (beyond : (usable values).length < max 1 rank) :
    ∃ e, nearestRankPresent values percentile = .error e ∧
      (e = .rankOutOfRange ∨ e = .rankTooLarge) := by
  have some : (usable values).length ≠ 0 := by simpa using any
  have outside : (sortedNumbers (values.filterMap id)).length ≤ (rank - 1).toNat := by
    rw [length_sortedNumbers]
    omega
  rw [nearestRankPresent_eq fits, if_neg some, ranked]
  dsimp only
  rw [atRank, List.getElem?_eq_none outside]
  refine ⟨_, rfl, ?_⟩
  split
  · exact .inr rfl
  · exact .inl rfl

theorem usable_perm (nothing : ∀ n, some n ∈ more → n.isNan) (perm : others.Perm (values ++ more)) :
    (usable others).Perm (usable values) := by
  have none : usable more = [] := by
    rw [usable, List.filter_eq_nil_iff]
    intro n hn
    simp [nothing n (by simpa using hn)]
  have parts : usable (values ++ more) = usable values := by
    rw [usable, List.filterMap_append, List.filter_append, ← usable, ← usable, none,
      List.append_nil]
  rw [← parts]
  exact (perm.filterMap id).filter _

end Present

/-- The percentile of values of which some may be missing, where the product of the share and the
number of usable values is finite. The rank is this product, rounded up, and at least one. The value
at the rank is given if there is one, and the same number whatever the order of the values and
whatever else is among them that is missing or not a number. -/
theorem nearestRank_orderStatistic {values : List (Option Number)} {percentile : Number}
    {x : Double} (fits : AllFit values) (given : percentile.toDouble = .ok x)
    (finite : ((x.divNat 100).mul (Double.ofInt (usable values).length)).isFinite) :
    (usable values = [] → nearestRankPresent values percentile = .ok none) ∧
    ∃ rank units : ℤ, percentileRank percentile (usable values).length = .ok rank ∧
      ((x.divNat 100).mul (Double.ofInt (usable values).length)).units? = some units ∧
      (rank - 1) * Double.unitsPerOne < units ∧ units ≤ rank * Double.unitsPerOne ∧
      (max 1 rank ≤ (usable values).length →
        ∃ r, nearestRankPresent values percentile = .ok (some r) ∧
          HasRank (usable values) (max 1 rank).toNat r ∧
          ∀ more others, (∀ n, some n ∈ more → n.isNan) → others.Perm (values ++ more) →
            ∃ r', nearestRankPresent others percentile = .ok (some r') ∧ r'.same r) ∧
      (usable values ≠ [] → (usable values).length < max 1 rank →
        ∃ e, nearestRankPresent values percentile = .error e ∧
          (e = .rankOutOfRange ∨ e = .rankTooLarge)) := by
  refine ⟨nearestRankPresent_empty fits, ?_⟩
  obtain ⟨rank, units, ranked, product, above, below⟩ := percentileRank_ceiling given finite
  refine ⟨rank, units, ranked, product, above, below, ?_, nearestRankPresent_beyond fits ranked⟩
  intro inside
  obtain ⟨r, chosen, has⟩ := nearestRankPresent_ranked fits ranked inside
  refine ⟨r, chosen, has, ?_⟩
  intro more others nothing perm
  have same := usable_perm nothing perm
  have othersFit : AllFit others := by
    intro n hn
    rcases List.mem_append.mp (perm.subset hn) with old | new
    · exact fits n old
    · cases n with
      | int => cases nothing _ new
      | real => rfl
  rw [← same.length_eq] at ranked inside
  obtain ⟨r', chosen', has'⟩ := nearestRankPresent_ranked othersFit ranked inside
  have numbers : ∀ n ∈ usable values, n.isNan = false := by
    intro n hn
    simpa using (List.mem_filter.mp hn).2
  exact ⟨r', chosen', (has'.perm same).same numbers has⟩

/-- Half of three numbers, rounded up, is the second of them. -/
theorem nearestRank_orderStatistic_half :
    ∃ r, nearestRankPresent [some (.int 3), none, some (.real .nan), some (.real (.ofInt 1)),
        some (.int 3)] (.int 50) = .ok (some r) ∧
      HasRank [.int 3, .real (.ofInt 1), .int 3] 2 r := by
  have fits : AllFit [some (.int 3), none, some (.real .nan), some (.real (.ofInt 1)),
      some (.int 3)] := by
    intro n hn
    cases n with
    | real => rfl
    | int n =>
      obtain rfl : n = 3 := by simpa using hn
      decide +kernel
  have three : usable [some (.int 3), none, some (.real .nan), some (.real (.ofInt 1)),
      some (.int 3)] = [.int 3, .real (.ofInt 1), .int 3] := by decide +kernel
  have given : (Number.int 50).toDouble = .ok (Double.ofInt 50) := by decide +kernel
  obtain ⟨-, rank, units, ranked, -, -, -, inside, -⟩ :=
    nearestRank_orderStatistic fits given (by rw [three]; decide +kernel)
  rw [three] at ranked inside
  have second : percentileRank (.int 50) 3 = .ok 2 := by decide +kernel
  cases ranked.symm.trans second
  obtain ⟨r, chosen, has, -⟩ := inside (by decide)
  exact ⟨r, chosen, has⟩

end CallSearch
