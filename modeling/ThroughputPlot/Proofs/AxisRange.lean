import ThroughputPlot.Axis
import ThroughputPlot.Proofs.NumericOrder

/-!
# What an axis covers

The ends of an axis are finite and in order, and every finite value lies between them.  The
margin is the rounded difference of two rounded products, so that it is not a twentieth of the
span; but rounding respects the order, which makes the margin at least zero, and that is all the
argument needs.
-/

namespace ThroughputPlot

open Binary64

/-! ## The extent of finite values -/

namespace Axis

structure Bounds (lo hi : Binary64) (values : List Binary64) : Prop where
  lo_finite : lo.isFinite = true
  hi_finite : hi.isFinite = true
  lo_le_hi : lo ≤ hi
  between : ∀ x ∈ values, lo ≤ x ∧ x ≤ hi

theorem Bounds.singleton {x : Binary64} (hx : x.isFinite = true) : Bounds x x [x] where
  lo_finite := hx
  hi_finite := hx
  lo_le_hi := le_refl_of_isFinite hx
  between := by
    intro y hy
    obtain rfl := List.mem_singleton.mp hy
    exact ⟨le_refl_of_isFinite hx, le_refl_of_isFinite hx⟩

/-- One value more moves the bounds outwards only. -/
theorem Bounds.widen {lo hi x : Binary64} {values : List Binary64} (hbounds : Bounds lo hi values)
    (hx : x.isFinite = true) : Bounds (lo.min x) (hi.max x) (values ++ [x]) where
  lo_finite := isFinite_min hbounds.lo_finite hx
  hi_finite := isFinite_max hbounds.hi_finite hx
  lo_le_hi :=
    le_trans (min_le_both hbounds.lo_finite hx).2 (both_le_max hbounds.hi_finite hx).2
  between := by
    have hmin := min_le_both hbounds.lo_finite hx
    have hmax := both_le_max hbounds.hi_finite hx
    intro y hy
    rcases List.mem_append.mp hy with hvalue | hlast
    · have hbetween := hbounds.between y hvalue
      exact ⟨le_trans hmin.1 hbetween.1, le_trans hbetween.2 hmax.1⟩
    · obtain rfl := List.mem_singleton.mp hlast
      exact ⟨hmin.2, hmax.2⟩

theorem exists_bounds_foldl {lo hi : Binary64} {before values : List Binary64}
    (hbounds : Bounds lo hi before) (hfinite : ∀ x ∈ values, x.isFinite = true) :
    ∃ lo' hi', values.foldl Axis.widen (some (lo, hi)) = some (lo', hi') ∧
      Bounds lo' hi' (before ++ values) := by
  induction values generalizing lo hi before with
  | nil => exact ⟨lo, hi, rfl, by simpa using hbounds⟩
  | cons x values ih =>
      have hx := hfinite x (List.mem_cons_self ..)
      obtain ⟨lo', hi', hfold, hbounds'⟩ :=
        ih (hbounds.widen hx) fun y hy => hfinite y (List.mem_cons_of_mem _ hy)
      exact ⟨lo', hi', hfold, by simpa using hbounds'⟩

/-- Either nothing finite is drawn, or the extent bounds what is. -/
theorem extent_cases (values : List Binary64) :
    (extent values = none ∧ values.filter isFinite = []) ∨
    ∃ lo hi, extent values = some (lo, hi) ∧ Bounds lo hi (values.filter isFinite) := by
  have hfinite : ∀ x ∈ values.filter isFinite, x.isFinite = true :=
    fun x hx => (List.mem_filter.mp hx).2
  unfold extent
  generalize values.filter isFinite = drawn at *
  cases drawn with
  | nil => exact Or.inl ⟨rfl, rfl⟩
  | cons x drawn =>
      have hx := hfinite x (List.mem_cons_self ..)
      exact Or.inr (exists_bounds_foldl (Bounds.singleton hx)
        fun y hy => hfinite y (List.mem_cons_of_mem _ hy))

end Axis

/-! ## The margin -/

def marginRank : ℕ := 4587366580439587226

theorem Axis.margin_eq : Axis.margin = .finite false ⟨marginRank, by decide⟩ := by
  decide +kernel

theorem unitsOfRank_marginRank_le : unitsOfRank marginRank ≤ unitsOfOne := by
  decide +kernel

/-- The rank of a magnitude times the margin. -/
def twentieth (rank : ℕ) : ℕ :=
  nearestRank (unitsOfRank rank * unitsOfRank marginRank) unitsOfOne

theorem unitsOfOne_pos : 0 < unitsOfOne := powerOfTwo_pos 1074

theorem twentieth_mono : Monotone twentieth := by
  intro rank rank' hle
  have hunits := unitsOfRank_strictMono.monotone hle
  unfold twentieth
  apply nearestRank_mono unitsOfOne_pos unitsOfOne_pos
  exact Nat.mul_le_mul_right unitsOfOne (Nat.mul_le_mul_right (unitsOfRank marginRank) hunits)

theorem twentieth_zero : twentieth 0 = 0 := by
  rw [twentieth, unitsOfRank_zero, Nat.zero_mul, nearestRank_zero unitsOfOne_pos]

theorem twentieth_le (rank : ℕ) : twentieth rank ≤ rank := by
  have hmono : twentieth rank ≤ nearestRank (unitsOfRank rank * unitsOfOne) unitsOfOne := by
    have hmargin := unitsOfRank_marginRank_le
    unfold twentieth
    apply nearestRank_mono unitsOfOne_pos unitsOfOne_pos
    exact Nat.mul_le_mul_right unitsOfOne (Nat.mul_le_mul_left (unitsOfRank rank) hmargin)
  rwa [nearestRank_unitsOfRank rank unitsOfOne_pos] at hmono

def Magnitude.twentieth (m : Magnitude) : Magnitude :=
  ⟨ThroughputPlot.twentieth m.rank, (twentieth_le m.rank).trans_lt m.rank_lt⟩

theorem mul_margin (s : Bool) (m : Magnitude) :
    finite s m * Axis.margin = finite s m.twentieth := by
  rw [Axis.margin_eq, mul_finite, Bool.xor_false, ofUnitRatio]
  exact ofRank_of_lt s m.twentieth.rank_lt

theorem padding_nonneg {lo hi : Binary64} (hlo : lo.isFinite = true) (hhi : hi.isFinite = true)
    (hle : lo ≤ hi) : ∃ p, (Axis.padding lo hi).place = some p ∧ 0 ≤ p := by
  obtain ⟨s, m, rfl⟩ := exists_of_isFinite hlo
  obtain ⟨t, n, rfl⟩ := exists_of_isFinite hhi
  unfold Axis.padding
  split_ifs
  · rw [Binary64.one, place_ofUnitRatio]
    exact ⟨_, rfl, Int.natCast_nonneg _⟩
  · change ∃ p, (finite false m * Axis.margin).place = some p ∧ 0 ≤ p
    rw [mul_margin]
    exact ⟨_, rfl, Int.natCast_nonneg _⟩
  · obtain ⟨i, j, hi, hj, hij⟩ := le_iff_place.mp hle
    obtain rfl : withSign s m.rank = i := Option.some.inj hi
    obtain rfl : withSign t n.rank = j := Option.some.inj hj
    have hproducts : withSign s m.twentieth.rank ≤ withSign t n.twentieth.rank :=
      withSign_le_withSign twentieth_mono twentieth_zero hij
    rw [mul_margin, mul_margin, place_sub]
    refine ⟨_, rfl, ?_⟩
    rw [← roundedPlace_zero]
    exact roundedPlace_mono (sub_nonneg.mpr (units_le_of_place_le hproducts))

/-! ## The ends of an axis -/

theorem sub_padding_le {x pad : Binary64} (hx : x.isFinite = true) {p : ℤ}
    (hpad : pad.place = some p) (hp : 0 ≤ p) : x - pad ≤ x := by
  have hneg : pad.neg ≤ .zero :=
    le_iff_place.mpr ⟨-p, 0, place_neg hpad, rfl, Int.neg_nonpos_of_nonneg hp⟩
  have hle : x - pad ≤ x + .zero := add_le_add_left hx hneg
  obtain ⟨s, m, rfl⟩ := exists_of_isFinite hx
  exact (le_congr_right (place_add_zero s m)).mp hle

theorem le_add_padding {x pad : Binary64} (hx : x.isFinite = true) {p : ℤ}
    (hpad : pad.place = some p) (hp : 0 ≤ p) : x ≤ x + pad := by
  have hpos : .zero ≤ pad := le_iff_place.mpr ⟨0, p, rfl, hpad, hp⟩
  have hle : x + .zero ≤ x + pad := add_le_add_left hx hpos
  obtain ⟨s, m, rfl⟩ := exists_of_isFinite hx
  exact (le_congr_left (place_add_zero s m)).mp hle

theorem place_greatest : Binary64.greatest.place = some (rankCount - 1 : ℤ) := by decide +kernel

theorem place_least : Binary64.least.place = some (-(rankCount - 1 : ℤ)) := by decide +kernel

theorem max_least {x y : Binary64} (hx : x.isFinite = true) (hle : y ≤ x) :
    (y.max .least).isFinite = true ∧ y.max .least ≤ x := by
  obtain ⟨i, hi, hlower, hupper⟩ := isFinite_iff_place.mp hx
  obtain ⟨j, i', hj, hi', hji⟩ := le_iff_place.mp hle
  obtain rfl : i = i' := Option.some.inj (hi.symm.trans hi')
  have hmax := place_max hj place_least
  have hranks : (0 : ℤ) < rankCount := by decide
  refine ⟨isFinite_iff_place.mpr ⟨_, hmax, ?_, ?_⟩, le_iff_place.mpr ⟨_, i, hmax, hi, ?_⟩⟩
  · omega
  · omega
  · omega

theorem min_greatest {x y : Binary64} (hx : x.isFinite = true) (hle : x ≤ y) :
    (y.min .greatest).isFinite = true ∧ x ≤ y.min .greatest := by
  obtain ⟨i, hi, hlower, hupper⟩ := isFinite_iff_place.mp hx
  obtain ⟨i', j, hi', hj, hij⟩ := le_iff_place.mp hle
  obtain rfl : i = i' := Option.some.inj (hi.symm.trans hi')
  have hmin := place_min hj place_greatest
  have hranks : (0 : ℤ) < rankCount := by decide
  refine ⟨isFinite_iff_place.mpr ⟨_, hmin, ?_, ?_⟩, le_iff_place.mpr ⟨i, _, hi, hmin, ?_⟩⟩
  · omega
  · omega
  · omega

structure AxisRange.Covers (range : AxisRange) (values : List Binary64) : Prop where
  start_finite : range.start.isFinite = true
  stop_finite : range.stop.isFinite = true
  start_le_stop : range.start ≤ range.stop
  contains : ∀ x ∈ values, range.start ≤ x ∧ x ≤ range.stop

theorem Axis.Bounds.covers {lo hi : Binary64} {values : List Binary64}
    (hbounds : Axis.Bounds lo hi values) :
    AxisRange.Covers ⟨(lo - Axis.padding lo hi).max .least,
      (hi + Axis.padding lo hi).min .greatest⟩ values := by
  obtain ⟨p, hpad, hp⟩ := padding_nonneg hbounds.lo_finite hbounds.hi_finite hbounds.lo_le_hi
  have hstart := max_least hbounds.lo_finite (sub_padding_le hbounds.lo_finite hpad hp)
  have hstop := min_greatest hbounds.hi_finite (le_add_padding hbounds.hi_finite hpad hp)
  refine ⟨hstart.1, hstop.1, le_trans hstart.2 (le_trans hbounds.lo_le_hi hstop.2), ?_⟩
  intro x hx
  have hbetween := hbounds.between x hx
  exact ⟨le_trans hstart.2 hbetween.1, le_trans hbetween.2 hstop.2⟩

/-- The range of an axis covers the finite values drawn on it. -/
theorem Axis.range_covers (values : List Binary64) :
    (Axis.range values).Covers (values.filter isFinite) := by
  rcases Axis.extent_cases values with ⟨hnone, hvalues⟩ | ⟨lo, hi, hsome, hbounds⟩
  · rw [hvalues, Axis.range, hnone]
    exact ⟨by decide, by decide +kernel, by decide +kernel, by simp⟩
  · rw [Axis.range, hsome]
    exact hbounds.covers

end ThroughputPlot
