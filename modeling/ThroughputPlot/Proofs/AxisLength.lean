import ThroughputPlot.Proofs.OwnSeries

/-!
# The length of an axis

Two values keep an axis open by themselves.  A single one relies on its margin: that is a twentieth
of the value, rounded, and it moves at least one end of the axis whenever it is as large as the step
from the value to its neighbour.  So it is for all numbers but the nine least magnitudes.  Their
twentieth is rounded to zero, and their axis has no length.
-/

namespace ThroughputPlot

open Binary64

/-! ## Steps between magnitudes -/

/-- One step up from a magnitude above the least normal one. -/
theorem unitsOfRank_succ_of_doubling (doubling : ℕ) {part : ℕ} (hpart : part < ranksPerDoubling) :
    unitsOfRank ((doubling + 1) * ranksPerDoubling + part + 1) =
      unitsOfRank ((doubling + 1) * ranksPerDoubling + part) + powerOfTwo doubling := by
  rw [unitsOfRank_of_doubling doubling hpart]
  by_cases hnext : part + 1 < ranksPerDoubling
  · rw [Nat.add_assoc, unitsOfRank_of_doubling doubling hnext]
    ring
  · -- The next magnitude is the first of the next doubling.
    have hrank : (doubling + 1) * ranksPerDoubling + part + 1 =
        (doubling + 1 + 1) * ranksPerDoubling + 0 := by
      rw [Nat.add_mul (doubling + 1)]
      omega
    have hdouble : powerOfTwo (doubling + 1) = powerOfTwo doubling * 2 := Nat.pow_succ ..
    have hwhole : ranksPerDoubling = part + 1 := by omega
    rw [hrank, unitsOfRank_of_doubling (doubling + 1) ranksPerDoubling_pos, hdouble, Nat.add_zero]
    calc
      ranksPerDoubling * (powerOfTwo doubling * 2) =
          (ranksPerDoubling + ranksPerDoubling) * powerOfTwo doubling := by ring
      _ = (ranksPerDoubling + part) * powerOfTwo doubling + powerOfTwo doubling := by
          nth_rewrite 2 [hwhole]
          ring

theorem unitsOfRank_succ_of_lt {rank : ℕ} (hlt : rank < ranksPerDoubling) :
    unitsOfRank (rank + 1) = unitsOfRank rank + 1 := by
  rw [unitsOfRank_of_lt hlt]
  by_cases hnext : rank + 1 < ranksPerDoubling
  · exact unitsOfRank_of_lt hnext
  · have hrank : rank + 1 = (0 + 1) * ranksPerDoubling + 0 := by omega
    rw [hrank, unitsOfRank_of_doubling 0 ranksPerDoubling_pos, Nat.add_zero, Nat.zero_add,
      Nat.one_mul, Nat.add_zero]
    exact Nat.mul_one ranksPerDoubling

/-- Every power of two units has a rank. -/
theorem exists_unitsOfRank_eq_powerOfTwo (n : ℕ) : ∃ rank, unitsOfRank rank = powerOfTwo n := by
  by_cases hsmall : n < 52
  · exact ⟨powerOfTwo n, unitsOfRank_of_lt (Nat.pow_lt_pow_right (by decide) hsmall)⟩
  · obtain ⟨doubling, rfl⟩ := Nat.exists_eq_add_of_le (Nat.not_lt.mp hsmall)
    refine ⟨(doubling + 1) * ranksPerDoubling + 0, ?_⟩
    rw [unitsOfRank_of_doubling doubling ranksPerDoubling_pos]
    exact (Nat.pow_add 2 52 doubling).symm

/-! ## The margin of a magnitude -/

theorem twentieth_eq_zero_iff {rank : ℕ} : twentieth rank = 0 ↔ rank < 10 := by
  constructor
  · intro hzero
    by_contra hlarge
    have hten : 0 < twentieth 10 := by decide +kernel
    have hmono := twentieth_mono (Nat.not_lt.mp hlarge)
    omega
  · intro hsmall
    have hnine : twentieth 9 = 0 := by decide +kernel
    have hmono := twentieth_mono (Nat.le_of_lt_succ hsmall)
    omega

/-- A power of two units is at most the margin of a magnitude that is large enough. -/
theorem powerOfTwo_le_units_twentieth {n rank : ℕ}
    (hle : ranksPerDoubling * powerOfTwo n ≤ unitsOfRank rank) :
    powerOfTwo n ≤ unitsOfRank (twentieth rank) := by
  have hmargin : unitsOfOne ≤ ranksPerDoubling * unitsOfRank marginRank := by decide +kernel
  obtain ⟨power, hpower⟩ := exists_unitsOfRank_eq_powerOfTwo n
  have hunits : unitsOfRank power * unitsOfOne ≤ unitsOfRank rank * unitsOfRank marginRank := by
    calc
      unitsOfRank power * unitsOfOne ≤
          unitsOfRank power * (ranksPerDoubling * unitsOfRank marginRank) :=
        Nat.mul_le_mul_left _ hmargin
      _ = ranksPerDoubling * powerOfTwo n * unitsOfRank marginRank := by rw [hpower]; ring
      _ ≤ unitsOfRank rank * unitsOfRank marginRank := Nat.mul_le_mul_right _ hle
  have hrank : power ≤ twentieth rank := by
    calc
      power = nearestRank (unitsOfRank power * unitsOfOne) unitsOfOne :=
        (nearestRank_unitsOfRank power unitsOfOne_pos).symm
      _ ≤ twentieth rank :=
        nearestRank_mono unitsOfOne_pos unitsOfOne_pos (Nat.mul_le_mul_right unitsOfOne hunits)
  rw [← hpower]
  exact unitsOfRank_strictMono.monotone hrank

/-- The margin takes a magnitude at least one step down, if it is not rounded to zero. -/
theorem unitsOfRank_succ_le {rank : ℕ} (hlarge : 10 ≤ rank + 1) :
    unitsOfRank (rank + 1) ≤ unitsOfRank rank + unitsOfRank (twentieth (rank + 1)) := by
  rcases rank_cases rank with hsmall | ⟨doubling, part, hpart, rfl⟩
  · have hpos : 0 < twentieth (rank + 1) := by
      have hzero : twentieth (rank + 1) = 0 ↔ rank + 1 < 10 := twentieth_eq_zero_iff
      omega
    have hunits : unitsOfRank 0 < unitsOfRank (twentieth (rank + 1)) :=
      unitsOfRank_strictMono hpos
    rw [unitsOfRank_succ_of_lt hsmall]
    omega
  · have hstep := unitsOfRank_succ_of_doubling doubling hpart
    have hbase : ranksPerDoubling * powerOfTwo doubling ≤
        unitsOfRank ((doubling + 1) * ranksPerDoubling + part + 1) := by
      rw [hstep, unitsOfRank_of_doubling doubling hpart, Nat.add_mul]
      omega
    have hmargin := powerOfTwo_le_units_twentieth hbase
    omega

/-! ## Strict order -/

namespace Binary64

instance : LT Binary64 := ⟨fun x y => x.less y = true⟩

instance (x y : Binary64) : Decidable (x < y) := inferInstanceAs (Decidable (x.less y = true))

theorem lt_iff_place {x y : Binary64} :
    x < y ↔ ∃ i j, x.place = some i ∧ y.place = some j ∧ i < j := by
  change x.less y = true ↔ _
  unfold less
  cases x.place with
  | none => simp
  | some i =>
      cases y.place with
      | none => simp
      | some j => simp

theorem lt_of_le_of_lt {x y z : Binary64} (hxy : x ≤ y) (hyz : y < z) : x < z := by
  obtain ⟨i, j, hi, hj, hij⟩ := le_iff_place.mp hxy
  obtain ⟨j', k, hj', hk, hjk⟩ := lt_iff_place.mp hyz
  obtain rfl : j = j' := Option.some.inj (hj.symm.trans hj')
  exact lt_iff_place.mpr ⟨i, k, hi, hk, by omega⟩

theorem lt_of_lt_of_le {x y z : Binary64} (hxy : x < y) (hyz : y ≤ z) : x < z := by
  obtain ⟨i, j, hi, hj, hij⟩ := lt_iff_place.mp hxy
  obtain ⟨j', k, hj', hk, hjk⟩ := le_iff_place.mp hyz
  obtain rfl : j = j' := Option.some.inj (hj.symm.trans hj')
  exact lt_iff_place.mpr ⟨i, k, hi, hk, by omega⟩

theorem lt_irrefl (x : Binary64) : ¬ x < x := by
  intro hlt
  obtain ⟨i, j, hi, hj, hij⟩ := lt_iff_place.mp hlt
  obtain rfl : i = j := Option.some.inj (hi.symm.trans hj)
  exact Int.lt_irrefl i hij

theorem lt_of_le_of_not_same {x y : Binary64} (hle : x ≤ y) (hsame : ¬ x.same y = true) :
    x < y := by
  obtain ⟨i, j, hi, hj, hij⟩ := le_iff_place.mp hle
  have hne : i ≠ j := by
    rintro rfl
    exact hsame (Axis.same_iff_place.mpr ⟨i, hi, hj⟩)
  exact lt_iff_place.mpr ⟨i, j, hi, hj, by omega⟩

/-- Apart from zero, a finite number is known from its place. -/
theorem eq_of_place_eq {x : Binary64} {s : Bool} {m : Magnitude} (hx : x.isFinite = true)
    (hm : 0 < m.rank) (hplace : x.place = (finite s m).place) : x = finite s m := by
  obtain ⟨t, n, rfl⟩ := exists_of_isFinite hx
  obtain ⟨rank, hrank⟩ := m
  obtain ⟨rank', hrank'⟩ := n
  have hranks : withSign t rank' = withSign s rank := Option.some.inj hplace
  dsimp only at hm
  unfold withSign at hranks
  obtain rfl : t = s := by
    cases t <;> cases s <;> simp at hranks ⊢ <;> omega
  obtain rfl : rank' = rank := by
    cases t <;> simp at hranks <;> omega
  rfl

end Binary64

/-! ## The axis of a single value -/

namespace Axis

theorem roundedPlace_sub_twentieth_lt {m : Magnitude} (hlarge : 10 ≤ m.rank) :
    roundedPlace (m.units - m.twentieth.units) < m.rank := by
  obtain ⟨rank, hrank⟩ := m
  cases rank with
  | zero => contradiction
  | succ rank =>
      have hbelow : rank < rankCount := Nat.lt_of_succ_lt hrank
      have hstep : unitsOfRank (rank + 1) ≤ unitsOfRank rank + unitsOfRank (twentieth (rank + 1)) :=
        unitsOfRank_succ_le hlarge
      have hunits : (unitsOfRank (rank + 1) - unitsOfRank (twentieth (rank + 1)) : ℤ) ≤
          (Magnitude.mk rank hbelow).units := by
        change _ ≤ (unitsOfRank rank : ℤ)
        omega
      calc
        roundedPlace (unitsOfRank (rank + 1) - unitsOfRank (twentieth (rank + 1))) ≤
            roundedPlace (Magnitude.mk rank hbelow).units := roundedPlace_mono hunits
        _ = rank := roundedPlace_units false ⟨rank, hbelow⟩
        _ < (rank + 1 : ℕ) := by omega

/-- The margin moves the start of the axis above zero, and its end below zero. -/
theorem sub_margin_lt_add_margin {s : Bool} {m : Magnitude} (hlarge : 10 ≤ m.rank) :
    (finite s m - finite false m.twentieth).max .least <
      (finite s m + finite false m.twentieth).min .greatest := by
  have hmoved := roundedPlace_sub_twentieth_lt hlarge
  have hpad : (finite false m.twentieth).place = some (m.twentieth.rank : ℤ) := rfl
  have hnonneg : (0 : ℤ) ≤ m.twentieth.rank := Int.natCast_nonneg _
  have hranks : (0 : ℤ) < rankCount := by decide
  have hrank := m.rank_lt
  cases s with
  | false =>
      have hstop := (min_greatest rfl (le_add_padding (x := finite false m) rfl hpad hnonneg)).2
      refine lt_of_lt_of_le ?_ hstop
      have hstart := place_max (place_sub false false m m.twentieth) place_least
      refine lt_iff_place.mpr ⟨_, m.rank, hstart, rfl, max_lt ?_ ?_⟩
      · exact hmoved
      · omega
  | true =>
      have hstart := (max_least rfl (sub_padding_le (x := finite true m) rfl hpad hnonneg)).2
      refine lt_of_le_of_lt hstart ?_
      have hstop := place_min (place_add true false m m.twentieth) place_greatest
      have hunits : withSign true m.units + withSign false m.twentieth.units =
          -(m.units - m.twentieth.units : ℤ) := by
        simp only [withSign, if_true, Bool.false_eq_true, if_false]
        omega
      rw [hunits, roundedPlace_neg] at hstop
      refine lt_iff_place.mpr ⟨-m.rank, _, rfl, hstop, lt_min ?_ ?_⟩
      · omega
      · omega

theorem sub_one_lt_add_one (s t : Bool) :
    (finite s .zero - .one).max .least < (finite t .zero + .one).min .greatest := by
  cases s <;> cases t <;> decide +kernel

/-- Without a margin both ends stay at the value. -/
theorem range_of_small {s : Bool} {m : Magnitude} (hpos : 0 < m.rank) (hsmall : m.rank < 10) :
    (finite s m - finite false m.twentieth).max .least = finite s m ∧
      (finite s m + finite false m.twentieth).min .greatest = finite s m := by
  have hmargin : m.twentieth.units = 0 := by
    change unitsOfRank (twentieth m.rank) = 0
    rw [twentieth_eq_zero_iff.mpr hsmall, unitsOfRank_zero]
  have hranks : (10 : ℤ) < rankCount := by decide +kernel
  have hbounds : -(rankCount - 1 : ℤ) ≤ withSign s m.rank ∧ withSign s m.rank ≤ rankCount - 1 := by
    unfold withSign
    split <;> constructor <;> omega
  have hstart := place_max (place_sub s false m m.twentieth) place_least
  have hstop := place_min (place_add s false m m.twentieth) place_greatest
  have hzero : withSign false m.twentieth.units = 0 := by
    rw [hmargin]
    rfl
  rw [hzero, Int.sub_zero, roundedPlace_units, max_eq_left hbounds.1] at hstart
  rw [hzero, Int.add_zero, roundedPlace_units, min_eq_left hbounds.2] at hstop
  have hfinite {x : Binary64} (hplace : x.place = some (withSign s m.rank)) :
      x.isFinite = true :=
    isFinite_iff_place.mpr ⟨_, hplace, by omega, by omega⟩
  exact ⟨eq_of_place_eq (hfinite hstart) hpos hstart, eq_of_place_eq (hfinite hstop) hpos hstop⟩

/-! ## Axes without length -/

theorem same_zero_iff {s : Bool} {m : Magnitude} :
    (finite s m).same .zero = true ↔ m.rank = 0 := by
  constructor
  · intro hsame
    rw [eq_zero_of_same_zero hsame]
    rfl
  · intro hzero
    refine same_iff_place.mpr ⟨0, ?_, rfl⟩
    cases s <;> simp [place, withSign, hzero]

theorem padding_single {s : Bool} {m : Magnitude} (hpos : 0 < m.rank) :
    padding (finite s m) (finite s m) = finite false m.twentieth := by
  have hsame : (finite s m).same (finite s m) = true := same_iff_place.mpr ⟨_, rfl, rfl⟩
  have hzero : ¬ (finite s m).same .zero = true := by
    rw [same_zero_iff]
    omega
  rw [padding, if_pos hsame, if_neg hzero]
  exact mul_margin false m

theorem range_single {values : List Binary64} {s : Bool} {m : Magnitude} (hpos : 0 < m.rank)
    (hextent : extent values = some (finite s m, finite s m)) :
    range values = ⟨(finite s m - finite false m.twentieth).max .least,
      (finite s m + finite false m.twentieth).min .greatest⟩ := by
  rw [range_of_extent hextent, padding_single hpos]

/-- A number of one to nine units. -/
def IsTiny (x : Binary64) : Prop :=
  ∃ s m, x = finite s m ∧ 0 < m.units ∧ m.units < 10

theorem isTiny_finite_iff {s : Bool} {m : Magnitude} :
    IsTiny (finite s m) ↔ 0 < m.rank ∧ m.rank < 10 := by
  have hlower : 0 < m.units ↔ 0 < m.rank := unitsOfRank_strictMono.lt_iff_lt (a := 0)
  have hupper : m.units < 10 ↔ m.rank < 10 := unitsOfRank_strictMono.lt_iff_lt (b := 10)
  rw [← hlower, ← hupper]
  constructor
  · rintro ⟨_, _, heq, hm⟩
    obtain ⟨rfl, rfl⟩ := Binary64.finite.inj heq
    exact hm
  · intro hm
    exact ⟨s, m, rfl, hm⟩

/-- The number is drawn, and no other. -/
structure StandsAlone (x : Binary64) (values : List Binary64) : Prop where
  mem : x ∈ values
  eq_of_isFinite : ∀ y ∈ values, y.isFinite = true → y = x

theorem StandsAlone.extent_eq {x : Binary64} {values : List Binary64}
    (halone : StandsAlone x values) (hx : x.isFinite = true) : extent values = some (x, x) := by
  rcases extent_cases values with ⟨-, hempty⟩ | ⟨lo, hi, hextent, -⟩
  · have hmem : x ∈ values.filter isFinite := List.mem_filter.mpr ⟨halone.mem, hx⟩
    rw [hempty] at hmem
    contradiction
  · obtain ⟨hlo, hhi⟩ := extent_mem hextent
    obtain ⟨hlo, hloFinite⟩ := List.mem_filter.mp hlo
    obtain ⟨hhi, hhiFinite⟩ := List.mem_filter.mp hhi
    rw [hextent, halone.eq_of_isFinite lo hlo hloFinite, halone.eq_of_isFinite hi hhi hhiFinite]

/-- Where both bounds are one number other than zero, nothing else is drawn. -/
theorem Bounds.standsAlone {values : List Binary64} {s : Bool} {m : Magnitude}
    (hbounds : Bounds (finite s m) (finite s m) (values.filter isFinite)) (hpos : 0 < m.rank)
    (hmem : finite s m ∈ values) : StandsAlone (finite s m) values where
  mem := hmem
  eq_of_isFinite := by
    intro y hy hfinite
    obtain ⟨hlower, hupper⟩ := hbounds.between y (List.mem_filter.mpr ⟨hy, hfinite⟩)
    obtain ⟨i, j, hi, hj, hij⟩ := le_iff_place.mp hlower
    obtain ⟨j', k, hj', hk, hjk⟩ := le_iff_place.mp hupper
    obtain rfl : j = j' := Option.some.inj (hj.symm.trans hj')
    obtain rfl : i = k := Option.some.inj (hi.symm.trans hk)
    obtain rfl : j = i := Int.le_antisymm hjk hij
    exact eq_of_place_eq hfinite hpos (hj.trans hi.symm)

theorem range_of_isTiny {x : Binary64} {values : List Binary64} (hx : IsTiny x)
    (halone : StandsAlone x values) : range values = ⟨x, x⟩ := by
  obtain ⟨s, m, rfl, hunits⟩ := hx
  obtain ⟨hpos, hsmall⟩ := isTiny_finite_iff.mp ⟨s, m, rfl, hunits⟩
  obtain ⟨hstart, hstop⟩ := range_of_small (s := s) hpos hsmall
  rw [range_single hpos (halone.extent_eq rfl), hstart, hstop]

/-- A zero has a margin of one, and the other end may be the zero of the other sign. -/
theorem range_of_zero {values : List Binary64} {lo hi : Binary64}
    (hextent : extent values = some (lo, hi)) (hlo : lo.same .zero = true)
    (hhi : hi.same .zero = true) : (range values).start < (range values).stop := by
  have hbounds := bounds_of_extent hextent
  obtain ⟨s, m, rfl⟩ := exists_of_isFinite hbounds.lo_finite
  obtain ⟨t, n, rfl⟩ := exists_of_isFinite hbounds.hi_finite
  obtain rfl := eq_zero_of_same_zero hlo
  obtain rfl := eq_zero_of_same_zero hhi
  have hsame : (finite s .zero).same (finite t .zero) = true := by
    cases s <;> cases t <;> rfl
  rw [range_of_extent hextent, padding, if_pos hsame, if_pos hlo]
  dsimp only
  exact sub_one_lt_add_one s t

theorem range_start_lt_stop {values : List Binary64}
    (htiny : ¬ ∃ x, IsTiny x ∧ StandsAlone x values) :
    (range values).start < (range values).stop := by
  rcases extent_cases values with ⟨hnone, -⟩ | ⟨lo, hi, hextent, hbounds⟩
  · rw [range, hnone]
    decide +kernel
  by_cases hsame : lo.same hi = true
  · obtain ⟨s, m, rfl⟩ := exists_of_isFinite hbounds.lo_finite
    obtain ⟨i, hlo, hhi⟩ := same_iff_place.mp hsame
    by_cases hzero : (finite s m).same .zero = true
    · obtain ⟨j, hj, hplace⟩ := same_iff_place.mp hzero
      obtain rfl : i = j := Option.some.inj (hlo.symm.trans hj)
      exact range_of_zero hextent hzero (same_iff_place.mpr ⟨i, hhi, hplace⟩)
    · have hpos : 0 < m.rank := by
        rw [same_zero_iff] at hzero
        omega
      obtain rfl := eq_of_place_eq hbounds.hi_finite hpos (hhi.trans hlo.symm)
      have hmem : finite s m ∈ values := (List.mem_filter.mp (extent_mem hextent).1).1
      have hlarge : 10 ≤ m.rank := by
        by_contra hsmall
        have hm : IsTiny (finite s m) := isTiny_finite_iff.mpr ⟨hpos, Nat.not_le.mp hsmall⟩
        exact htiny ⟨_, hm, hbounds.standsAlone hpos hmem⟩
      rw [range_single hpos hextent]
      exact sub_margin_lt_add_margin hlarge
  · obtain ⟨hlo, hhi⟩ := extent_mem hextent
    have hcovers := range_covers values
    have hopen : lo < hi := lt_of_le_of_not_same hbounds.lo_le_hi hsame
    exact lt_of_le_of_lt (hcovers.contains lo hlo).1
      (lt_of_lt_of_le hopen (hcovers.contains hi hhi).2)

/-- An axis has a length, unless a number of one to nine units is drawn and no other.  Then both of
its ends are that number. -/
theorem range_start_lt_stop_iff (values : List Binary64) :
    ((range values).start < (range values).stop ↔
      ¬ ∃ x, IsTiny x ∧ StandsAlone x values) ∧
    ∀ x, IsTiny x → StandsAlone x values → range values = ⟨x, x⟩ := by
  refine ⟨⟨?_, range_start_lt_stop⟩, fun x => range_of_isTiny⟩
  rintro hlt ⟨x, hx, halone⟩
  rw [range_of_isTiny hx halone] at hlt
  exact lt_irrefl x hlt

def leastPositive : Binary64 := .finite false ⟨1, by decide⟩

theorem range_leastPositive_without_length :
    ¬ (range [leastPositive]).start < (range [leastPositive]).stop := by
  decide +kernel

end Axis

end ThroughputPlot
