import ThroughputPlot.Proofs.Rounding

/-!
# The numeric order of binary64 numbers

The place of a number orders the numbers as their values do.  Sums and differences are exact
until they are rounded, and rounding respects the order, so they respect it too.
-/

namespace ThroughputPlot.Binary64

/-- Numeric order, in which both zeros are equal and not-a-number stands nowhere. -/
instance : LE Binary64 := ⟨fun x y => (x.less y || x.same y) = true⟩

instance (x y : Binary64) : Decidable (x ≤ y) :=
  inferInstanceAs (Decidable ((x.less y || x.same y) = true))

theorem le_iff_place {x y : Binary64} :
    x ≤ y ↔ ∃ i j, x.place = some i ∧ y.place = some j ∧ i ≤ j := by
  change (x.less y || x.same y) = true ↔ _
  unfold less same
  cases x.place with
  | none => simp
  | some i =>
      cases y.place with
      | none => simp
      | some j => simp [le_iff_lt_or_eq]

theorem le_trans {x y z : Binary64} (hxy : x ≤ y) (hyz : y ≤ z) : x ≤ z := by
  obtain ⟨i, j, hi, hj, hij⟩ := le_iff_place.mp hxy
  obtain ⟨j', k, hj', hk, hjk⟩ := le_iff_place.mp hyz
  obtain rfl : j = j' := Option.some.inj (hj.symm.trans hj')
  exact le_iff_place.mpr ⟨i, k, hi, hk, hij.trans hjk⟩

theorem le_congr_right {x y z : Binary64} (hplace : y.place = z.place) :
    x ≤ y ↔ x ≤ z := by
  rw [le_iff_place, le_iff_place, hplace]

theorem le_congr_left {x y z : Binary64} (hplace : x.place = y.place) :
    x ≤ z ↔ y ≤ z := by
  rw [le_iff_place, le_iff_place, hplace]

theorem isFinite_iff_place {x : Binary64} :
    x.isFinite = true ↔ ∃ i, x.place = some i ∧ -(rankCount : ℤ) < i ∧ i < rankCount := by
  cases x with
  | nan => simp [isFinite, place]
  | infinite s => cases s <;> simp [isFinite, place, withSign]
  | finite s m =>
      have hlt := m.rank_lt
      cases s <;> simp [isFinite, place, withSign] <;> omega

theorem exists_of_isFinite {x : Binary64} (hx : x.isFinite = true) : ∃ s m, x = .finite s m := by
  cases x with
  | nan => contradiction
  | infinite s => contradiction
  | finite s m => exact ⟨s, m, rfl⟩

/-! ## The lesser and the greater of two numbers -/

theorem place_min {x y : Binary64} {i j : ℤ} (hx : x.place = some i) (hy : y.place = some j) :
    (x.min y).place = some (i ⊓ j) := by
  have hnan : x ≠ .nan := by
    rintro rfl
    contradiction
  by_cases hlt : j < i
  · have hless : y.less x = true := by simp [less, hx, hy, hlt]
    simp [Binary64.min, hless, hy, min_eq_right hlt.le]
  · have hless : y.less x = false := by simp [less, hx, hy, hlt]
    simp [Binary64.min, hless, hnan, hx, min_eq_left (not_lt.mp hlt)]

theorem place_max {x y : Binary64} {i j : ℤ} (hx : x.place = some i) (hy : y.place = some j) :
    (x.max y).place = some (i ⊔ j) := by
  have hnan : x ≠ .nan := by
    rintro rfl
    contradiction
  by_cases hlt : i < j
  · have hless : x.less y = true := by simp [less, hx, hy, hlt]
    simp [Binary64.max, hless, hy, max_eq_right hlt.le]
  · have hless : x.less y = false := by simp [less, hx, hy, hlt]
    simp [Binary64.max, hless, hnan, hx, max_eq_left (not_lt.mp hlt)]

theorem isFinite_min {x y : Binary64} (hx : x.isFinite = true)
    (hy : y.isFinite = true) : (x.min y).isFinite = true := by
  unfold Binary64.min
  split <;> assumption

theorem isFinite_max {x y : Binary64} (hx : x.isFinite = true)
    (hy : y.isFinite = true) : (x.max y).isFinite = true := by
  unfold Binary64.max
  split <;> assumption

theorem le_refl_of_isFinite {x : Binary64} (hx : x.isFinite = true) : x ≤ x := by
  obtain ⟨i, hi, _⟩ := isFinite_iff_place.mp hx
  exact le_iff_place.mpr ⟨i, i, hi, hi, le_rfl⟩

theorem min_le_both {x y : Binary64} (hx : x.isFinite = true)
    (hy : y.isFinite = true) : x.min y ≤ x ∧ x.min y ≤ y := by
  obtain ⟨i, hi, _⟩ := isFinite_iff_place.mp hx
  obtain ⟨j, hj, _⟩ := isFinite_iff_place.mp hy
  have hmin := place_min hi hj
  exact ⟨le_iff_place.mpr ⟨_, i, hmin, hi, inf_le_left⟩,
    le_iff_place.mpr ⟨_, j, hmin, hj, inf_le_right⟩⟩

theorem both_le_max {x y : Binary64} (hx : x.isFinite = true)
    (hy : y.isFinite = true) : x ≤ x.max y ∧ y ≤ x.max y := by
  obtain ⟨i, hi, _⟩ := isFinite_iff_place.mp hx
  obtain ⟨j, hj, _⟩ := isFinite_iff_place.mp hy
  have hmax := place_max hi hj
  exact ⟨le_iff_place.mpr ⟨i, _, hi, hmax, le_sup_left⟩,
    le_iff_place.mpr ⟨j, _, hj, hmax, le_sup_right⟩⟩

/-! ## Signs -/

theorem withSign_natAbs (i : ℤ) : withSign (i < 0) i.natAbs = i := by
  unfold withSign
  split_ifs with hneg
  · have := of_decide_eq_true hneg
    omega
  · have : ¬ i < 0 := fun h => hneg (decide_eq_true h)
    omega

theorem withSign_not (s : Bool) (n : ℕ) : withSign (!s) n = -withSign s n := by
  cases s <;> simp [withSign]

theorem place_neg {x : Binary64} {i : ℤ} (hplace : x.place = some i) :
    x.neg.place = some (-i) := by
  cases x with
  | nan => contradiction
  | infinite s =>
      obtain rfl : withSign s rankCount = i := Option.some.inj hplace
      exact congrArg some (withSign_not s rankCount)
  | finite s m =>
      obtain rfl : withSign s m.rank = i := Option.some.inj hplace
      exact congrArg some (withSign_not s m.rank)

/-- A monotone function on magnitudes is monotone on numbers with a sign. -/
theorem withSign_le_withSign {f : ℕ → ℕ} (hmono : Monotone f) (hzero : f 0 = 0) {s t : Bool}
    {m n : ℕ} (hle : withSign s m ≤ withSign t n) : withSign s (f m) ≤ withSign t (f n) := by
  cases s with
  | false =>
      cases t with
      | false =>
          have := hmono (show m ≤ n by simpa [withSign] using hle)
          simpa [withSign] using this
      | true =>
          obtain ⟨rfl, rfl⟩ : m = 0 ∧ n = 0 := by
            simp only [withSign, if_true, if_false, Bool.false_eq_true] at hle
            omega
          simp [withSign, hzero]
  | true =>
      cases t with
      | false =>
          simp only [withSign, if_true, if_false, Bool.false_eq_true]
          omega
      | true =>
          have := hmono (show n ≤ m by simpa [withSign] using hle)
          simpa [withSign] using this

/-! ## Rounded sums and differences -/

/-- The place to which a whole number of units is rounded. -/
def roundedPlace (units : ℤ) : ℤ :=
  withSign (units < 0) (nearestRank units.natAbs 1 ⊓ rankCount)

theorem nearestRank_zero {den : ℕ} (hden : 0 < den) : nearestRank 0 den = 0 := by
  have hzero := nearestRank_unitsOfRank 0 hden
  rwa [unitsOfRank_zero, Nat.zero_mul] at hzero

theorem roundedPlace_mono : Monotone roundedPlace := by
  intro i j hle
  have hranks : Monotone fun n => nearestRank n 1 ⊓ rankCount := by
    intro m n hmn
    exact min_le_min_right rankCount
      (nearestRank_mono Nat.one_pos Nat.one_pos (Nat.mul_le_mul_right 1 hmn))
  have hzero : nearestRank 0 1 ⊓ rankCount = 0 := by
    rw [nearestRank_zero Nat.one_pos, Nat.zero_min]
  rw [← withSign_natAbs i, ← withSign_natAbs j] at hle
  exact withSign_le_withSign hranks hzero hle

theorem roundedPlace_zero : roundedPlace 0 = 0 := by
  have hzero : nearestRank (Int.natAbs 0) 1 = 0 := nearestRank_zero Nat.one_pos
  rw [roundedPlace, hzero]
  rfl

theorem roundedPlace_neg (units : ℤ) : roundedPlace (-units) = -roundedPlace units := by
  rcases lt_trichotomy units 0 with hneg | rfl | hpos
  · simp [roundedPlace, withSign, hneg, hneg.le]
  · simp [roundedPlace_zero]
  · simp [roundedPlace, withSign, hpos, hpos.le]

/-- Rounding changes no number that has a place. -/
theorem roundedPlace_units (s : Bool) (m : Magnitude) :
    roundedPlace (withSign s m.units) = withSign s m.rank := by
  have hnat : roundedPlace (m.units : ℤ) = m.rank := by
    have hround : nearestRank m.units 1 = m.rank := by
      have := nearestRank_unitsOfRank m.rank Nat.one_pos
      rwa [Nat.mul_one] at this
    have hneg : ¬ ((m.units : ℤ) < 0) := by omega
    simp [roundedPlace, withSign, hneg, hround, min_eq_left m.rank_lt.le]
  cases s with
  | false => exact hnat
  | true =>
      change roundedPlace (-(m.units : ℤ)) = -(m.rank : ℤ)
      rw [roundedPlace_neg, hnat]

theorem ofRank_of_lt (s : Bool) {rank : ℕ} (hlt : rank < rankCount) :
    ofRank s rank = .finite s ⟨rank, hlt⟩ := dif_pos hlt

theorem place_ofRank (s : Bool) (rank : ℕ) :
    (ofRank s rank).place = some (withSign s (rank ⊓ rankCount)) := by
  unfold ofRank
  split
  next hlt => rw [min_eq_left hlt.le]; rfl
  next hge => rw [min_eq_right (not_lt.mp hge)]; rfl

theorem place_ofUnitRatio (s : Bool) (num den : ℕ) :
    (ofUnitRatio s num den).place = some (withSign s (nearestRank num den ⊓ rankCount)) :=
  place_ofRank s (nearestRank num den)

theorem place_ofUnits (s : Bool) (units : ℤ) :
    (ofUnits s units).place = some (roundedPlace units) := by
  unfold ofUnits
  split
  next hzero =>
      subst hzero
      rw [roundedPlace_zero]
      cases s <;> rfl
  next => exact place_ofRank _ _

theorem place_add (s t : Bool) (m n : Magnitude) :
    (finite s m + finite t n).place =
      some (roundedPlace (withSign s m.units + withSign t n.units)) :=
  place_ofUnits _ _

theorem place_sub (s t : Bool) (m n : Magnitude) :
    (finite s m - finite t n).place =
      some (roundedPlace (withSign s m.units - withSign t n.units)) := by
  have hplace := place_add s (!t) m n
  rwa [withSign_not, ← sub_eq_add_neg] at hplace

theorem mul_finite (s t : Bool) (m n : Magnitude) :
    finite s m * finite t n = ofUnitRatio (s ^^ t) (m.units * n.units) unitsOfOne := by
  change mul (finite s m) (finite t n) = _
  rw [mul]

theorem units_le_of_place_le {s t : Bool} {m n : Magnitude}
    (hle : withSign s m.rank ≤ withSign t n.rank) :
    withSign s m.units ≤ withSign t n.units :=
  withSign_le_withSign unitsOfRank_strictMono.monotone unitsOfRank_zero hle

theorem place_finite_bounds (s : Bool) (m : Magnitude) :
    -(rankCount : ℤ) < withSign s m.rank ∧ withSign s m.rank < rankCount := by
  have hlt := m.rank_lt
  cases s <;> simp only [withSign] <;> constructor <;> simp <;> omega

theorem place_bounds {x : Binary64} {i : ℤ} (hplace : x.place = some i) :
    -(rankCount : ℤ) ≤ i ∧ i ≤ rankCount := by
  cases x with
  | nan => contradiction
  | infinite s =>
      obtain rfl : withSign s rankCount = i := Option.some.inj hplace
      cases s <;> simp [withSign]
  | finite s m =>
      obtain rfl : withSign s m.rank = i := Option.some.inj hplace
      have hbounds := place_finite_bounds s m
      exact ⟨hbounds.1.le, hbounds.2.le⟩

theorem exists_place_add (s : Bool) (m : Magnitude) {y : Binary64} {j : ℤ}
    (hy : y.place = some j) : ∃ k, (finite s m + y).place = some k := by
  cases y with
  | nan => contradiction
  | infinite t => exact ⟨withSign t rankCount, rfl⟩
  | finite t n => exact ⟨_, place_add s t m n⟩

/-- What is added to a finite number may be infinite. -/
theorem add_le_add_left {x y z : Binary64} (hx : x.isFinite = true) (hle : y ≤ z) :
    x + y ≤ x + z := by
  obtain ⟨s, m, rfl⟩ := exists_of_isFinite hx
  obtain ⟨i, j, hi, hj, hij⟩ := le_iff_place.mp hle
  obtain ⟨k, hk⟩ := exists_place_add s m hi
  obtain ⟨l, hl⟩ := exists_place_add s m hj
  refine le_iff_place.mpr ⟨k, l, hk, hl, ?_⟩
  have hkBounds := place_bounds hk
  have hlBounds := place_bounds hl
  have hiBounds := place_bounds hi
  have hjBounds := place_bounds hj
  cases y with
  | nan => contradiction
  | infinite t =>
      cases t with
      | true =>
          obtain rfl : -(rankCount : ℤ) = k := Option.some.inj hk
          exact hlBounds.1
      | false =>
          obtain rfl : (rankCount : ℤ) = i := Option.some.inj hi
          obtain rfl : (rankCount : ℤ) = j := le_antisymm hij hjBounds.2
          cases z with
          | nan => contradiction
          | infinite u =>
              cases u with
              | true => contradiction
              | false =>
                  obtain rfl : (rankCount : ℤ) = l := Option.some.inj hl
                  exact hkBounds.2
          | finite u r =>
              have hfinite := place_finite_bounds u r
              have hplace : withSign u r.rank = rankCount := Option.some.inj hj
              omega
  | finite t n =>
      obtain rfl : withSign t n.rank = i := Option.some.inj hi
      cases z with
      | nan => contradiction
      | infinite u =>
          cases u with
          | true =>
              obtain rfl : -(rankCount : ℤ) = j := Option.some.inj hj
              have hfinite := place_finite_bounds t n
              omega
          | false =>
              obtain rfl : (rankCount : ℤ) = l := Option.some.inj hl
              exact hkBounds.2
      | finite u r =>
          obtain rfl : withSign u r.rank = j := Option.some.inj hj
          rw [place_add] at hk hl
          obtain rfl := Option.some.inj hk
          obtain rfl := Option.some.inj hl
          exact roundedPlace_mono (Int.add_le_add_left (units_le_of_place_le hij) _)

theorem place_add_zero (s : Bool) (m : Magnitude) :
    (finite s m + zero).place = (finite s m).place := by
  change (finite s m + finite false .zero).place = _
  have hzero : withSign false Magnitude.zero.units = 0 := rfl
  rw [place_add, hzero, Int.add_zero, roundedPlace_units]
  rfl

end ThroughputPlot.Binary64
