import ThroughputPlot.Proofs.AxisRange

/-!
# Axes that can be drawn

An axis can be drawn if the distance between its ends is finite.  Whether it is depends on the
least and the greatest of the values alone.  The axis of a single value is short enough: it stays
on one side of zero, or near it.  If the two values differ, the distance from the one to the other
with a margin on either side decides.
-/

namespace ThroughputPlot

open Binary64

/-! ## Numbers between others -/

namespace Binary64

variable {x x' y y' : Binary64}

theorem min_eq_or (x y : Binary64) : x.min y = x ∨ x.min y = y := by
  unfold Binary64.min
  split
  · exact .inr rfl
  · exact .inl rfl

theorem max_eq_or (x y : Binary64) : x.max y = x ∨ x.max y = y := by
  unfold Binary64.max
  split
  · exact .inr rfl
  · exact .inl rfl

theorem max_le_max {bound : Binary64} {k : ℤ} (hbound : bound.place = some k) (hle : x ≤ y) :
    x.max bound ≤ y.max bound := by
  obtain ⟨i, j, hi, hj, hij⟩ := le_iff_place.mp hle
  exact le_iff_place.mpr ⟨_, _, place_max hi hbound, place_max hj hbound, sup_le_sup_right hij k⟩

theorem min_le_min {bound : Binary64} {k : ℤ} (hbound : bound.place = some k) (hle : x ≤ y) :
    x.min bound ≤ y.min bound := by
  obtain ⟨i, j, hi, hj, hij⟩ := le_iff_place.mp hle
  exact le_iff_place.mpr ⟨_, _, place_min hi hbound, place_min hj hbound, inf_le_inf_right k hij⟩

theorem neg_le_neg (hle : x ≤ y) : y.neg ≤ x.neg := by
  obtain ⟨i, j, hi, hj, hij⟩ := le_iff_place.mp hle
  exact le_iff_place.mpr ⟨-j, -i, place_neg hj, place_neg hi, Int.neg_le_neg hij⟩

/-- An infinite number that is added hides what it is added to. -/
theorem add_le_add_right {z : Binary64} {k : ℤ} (hx : x.isFinite = true) (hy : y.isFinite = true)
    (hz : z.place = some k) (hle : x ≤ y) : x + z ≤ y + z := by
  obtain ⟨s, m, rfl⟩ := exists_of_isFinite hx
  obtain ⟨t, n, rfl⟩ := exists_of_isFinite hy
  obtain ⟨i, j, hi, hj, hij⟩ := le_iff_place.mp hle
  obtain rfl := Option.some.inj hi
  obtain rfl := Option.some.inj hj
  cases z with
  | nan => contradiction
  | infinite u => exact le_iff_place.mpr ⟨withSign u rankCount, _, rfl, rfl, le_rfl⟩
  | finite u r =>
      refine le_iff_place.mpr ⟨_, _, place_add s u m r, place_add t u n r, ?_⟩
      exact roundedPlace_mono (Int.add_le_add_right (units_le_of_place_le hij) _)

theorem add_le_add_of_isFinite (hx : x.isFinite = true) (hy : y.isFinite = true) (hxy : x ≤ y)
    (hxy' : x' ≤ y') : x + x' ≤ y + y' := by
  obtain ⟨i, j, hi, hj, -⟩ := le_iff_place.mp hxy'
  exact le_trans (add_le_add_right hx hy hi hxy) (add_le_add_left hy hxy')

theorem le_greatest (hx : x.isFinite = true) : x ≤ .greatest := by
  obtain ⟨i, hi, -, hlt⟩ := isFinite_iff_place.mp hx
  exact le_iff_place.mpr ⟨i, _, hi, place_greatest, by omega⟩

theorem least_le (hx : x.isFinite = true) : .least ≤ x := by
  obtain ⟨i, hi, hlt, -⟩ := isFinite_iff_place.mp hx
  exact le_iff_place.mpr ⟨_, i, place_least, hi, by omega⟩

/-- Between two numbers with a finite difference any two others have one. -/
theorem isFinite_sub_of_between {lo hi : Binary64} (hlo : lo.isFinite = true)
    (hhi : hi.isFinite = true) (hx : x.isFinite = true) (hy : y.isFinite = true)
    (hspan : (hi - lo).isFinite = true) (hlox : lo ≤ x) (hxy : x ≤ y) (hyhi : y ≤ hi) :
    (y - x).isFinite = true := by
  obtain ⟨s, m, rfl⟩ := exists_of_isFinite hlo
  obtain ⟨t, n, rfl⟩ := exists_of_isFinite hhi
  obtain ⟨u, q, rfl⟩ := exists_of_isFinite hx
  obtain ⟨v, r, rfl⟩ := exists_of_isFinite hy
  have units_le : ∀ {a b : Bool} {c d : Magnitude}, finite a c ≤ finite b d →
      withSign a c.units ≤ withSign b d.units := by
    intro a b c d hle
    obtain ⟨i, j, hi, hj, hij⟩ := le_iff_place.mp hle
    obtain rfl := Option.some.inj hi
    obtain rfl := Option.some.inj hj
    exact units_le_of_place_le hij
  have hstart := units_le hlox
  have hinner := units_le hxy
  have hstop := units_le hyhi
  have hsmall : 0 ≤ withSign v r.units - withSign u q.units := by omega
  have hlarge : withSign v r.units - withSign u q.units ≤
      withSign t n.units - withSign s m.units := by omega
  have hnonneg := roundedPlace_mono hsmall
  have hle := roundedPlace_mono hlarge
  rw [roundedPlace_zero] at hnonneg
  rw [isFinite_iff_place, place_sub] at hspan
  obtain ⟨i, hi, -, hbound⟩ := hspan
  obtain rfl := Option.some.inj hi
  have hranks : (0 : ℤ) < rankCount := by decide
  rw [isFinite_iff_place, place_sub]
  exact ⟨_, rfl, by omega, by omega⟩

end Binary64

theorem AxisRange.Covers.isPlottable_of_between {start stop lo hi : Binary64}
    {values : List Binary64} (hcovers : AxisRange.Covers ⟨start, stop⟩ values)
    (hlo : lo.isFinite = true) (hhi : hi.isFinite = true) (hspan : (hi - lo).isFinite = true)
    (hstart : lo ≤ start) (hstop : stop ≤ hi) : (AxisRange.mk start stop).isPlottable = true :=
  isFinite_sub_of_between hlo hhi hcovers.start_finite hcovers.stop_finite hspan hstart
    hcovers.start_le_stop hstop

/-- An axis on one side of zero is short enough. -/
theorem AxisRange.Covers.isPlottable_of_side {start stop : Binary64} {values : List Binary64}
    (hcovers : AxisRange.Covers ⟨start, stop⟩ values) (hside : .zero ≤ start ∨ stop ≤ .zero) :
    (AxisRange.mk start stop).isPlottable = true := by
  rcases hside with hstart | hstop
  · have hspan : (Binary64.greatest - .zero).isFinite = true := by decide +kernel
    exact hcovers.isPlottable_of_between rfl rfl hspan hstart (le_greatest hcovers.stop_finite)
  · have hspan : (Binary64.zero - .least).isFinite = true := by decide +kernel
    exact hcovers.isPlottable_of_between rfl rfl hspan (least_le hcovers.start_finite) hstop

/-! ## The values at the ends -/

namespace Axis

theorem foldl_widen_mem {lo hi lo' hi' : Binary64} {values : List Binary64}
    (hfold : values.foldl widen (some (lo, hi)) = some (lo', hi')) :
    lo' ∈ lo :: values ∧ hi' ∈ hi :: values := by
  induction values generalizing lo hi with
  | nil =>
      obtain ⟨rfl, rfl⟩ : lo = lo' ∧ hi = hi' := by simpa using hfold
      exact ⟨List.mem_singleton_self lo, List.mem_singleton_self hi⟩
  | cons x values ih =>
      obtain ⟨hlo, hhi⟩ := ih hfold
      constructor
      · rcases List.mem_cons.mp hlo with rfl | hmem
        · rcases min_eq_or lo x with heq | heq <;> simp [heq]
        · exact List.mem_cons_of_mem _ (List.mem_cons_of_mem _ hmem)
      · rcases List.mem_cons.mp hhi with rfl | hmem
        · rcases max_eq_or hi x with heq | heq <;> simp [heq]
        · exact List.mem_cons_of_mem _ (List.mem_cons_of_mem _ hmem)

theorem extent_mem {lo hi : Binary64} {values : List Binary64}
    (hextent : extent values = some (lo, hi)) :
    lo ∈ values.filter isFinite ∧ hi ∈ values.filter isFinite := by
  unfold extent at hextent
  generalize values.filter isFinite = drawn at *
  cases drawn with
  | nil => contradiction
  | cons x drawn => exact foldl_widen_mem hextent

theorem bounds_of_extent {lo hi : Binary64} {values : List Binary64}
    (hextent : extent values = some (lo, hi)) : Bounds lo hi (values.filter isFinite) := by
  rcases extent_cases values with ⟨hnone, -⟩ | ⟨lo', hi', hsome, hbounds⟩
  · rw [hnone] at hextent
    contradiction
  · rw [hsome] at hextent
    obtain ⟨rfl, rfl⟩ : lo' = lo ∧ hi' = hi := by simpa using hextent
    exact hbounds

theorem same_iff_place {x y : Binary64} :
    x.same y = true ↔ ∃ i, x.place = some i ∧ y.place = some i := by
  unfold same
  cases x.place with
  | none => simp
  | some i =>
      cases y.place with
      | none => simp
      | some j => simp [eq_comm]

theorem same_iff_le {x y : Binary64} : x.same y = true ↔ x ≤ y ∧ y ≤ x := by
  rw [same_iff_place, le_iff_place, le_iff_place]
  constructor
  · rintro ⟨i, hx, hy⟩
    exact ⟨⟨i, i, hx, hy, le_rfl⟩, i, i, hy, hx, le_rfl⟩
  · rintro ⟨⟨i, j, hx, hy, hij⟩, j', i', hy', hx', hji⟩
    obtain rfl : i = i' := Option.some.inj (hx.symm.trans hx')
    obtain rfl : j = j' := Option.some.inj (hy.symm.trans hy')
    obtain rfl : i = j := Int.le_antisymm hij hji
    exact ⟨i, hx, hy⟩

theorem same_symm {x y : Binary64} (hsame : x.same y = true) : y.same x = true :=
  same_iff_le.mpr (same_iff_le.mp hsame).symm

theorem same_trans {x y z : Binary64} (hxy : x.same y = true) (hyz : y.same z = true) :
    x.same z = true := by
  obtain ⟨hxy, hyx⟩ := same_iff_le.mp hxy
  obtain ⟨hyz, hzy⟩ := same_iff_le.mp hyz
  exact same_iff_le.mpr ⟨le_trans hxy hyz, le_trans hzy hyx⟩

theorem isFinite_of_same {x y : Binary64} (hx : x.isFinite = true) (hsame : x.same y = true) :
    y.isFinite = true := by
  obtain ⟨i, hi, hy⟩ := same_iff_place.mp hsame
  rw [isFinite_iff_place] at hx ⊢
  rwa [hy, ← hi]

theorem isFinite_mul_margin {x : Binary64} (hx : x.isFinite = true) :
    (x * margin).isFinite = true := by
  obtain ⟨s, m, rfl⟩ := exists_of_isFinite hx
  rw [mul_margin]
  rfl

theorem mul_margin_mono {x y : Binary64} (hx : x.isFinite = true) (hy : y.isFinite = true)
    (hle : x ≤ y) : x * margin ≤ y * margin := by
  obtain ⟨s, m, rfl⟩ := exists_of_isFinite hx
  obtain ⟨t, n, rfl⟩ := exists_of_isFinite hy
  obtain ⟨i, j, hi, hj, hij⟩ := le_iff_place.mp hle
  obtain rfl := Option.some.inj hi
  obtain rfl := Option.some.inj hj
  rw [mul_margin, mul_margin]
  exact le_iff_place.mpr ⟨_, _, rfl, rfl, withSign_le_withSign twentieth_mono twentieth_zero hij⟩

theorem not_same_of_between {lo hi lo' hi' : Binary64} (hle : lo ≤ hi) (hlo : lo' ≤ lo)
    (hhi : hi ≤ hi') (hsame : ¬ lo.same hi = true) : ¬ lo'.same hi' = true := by
  intro houter
  have hback := (same_iff_le.mp houter).2
  exact hsame (same_iff_le.mpr ⟨hle, le_trans hhi (le_trans hback hlo)⟩)

/-- The margin grows with the span. -/
theorem padding_mono {lo hi lo' hi' : Binary64} {values values' : List Binary64}
    (hbounds : Bounds lo hi values) (hbounds' : Bounds lo' hi' values') (hlo : lo' ≤ lo)
    (hhi : hi ≤ hi') (hsame : ¬ lo.same hi = true) : padding lo hi ≤ padding lo' hi' := by
  have hsame' := not_same_of_between hbounds.lo_le_hi hlo hhi hsame
  have hhigh := mul_margin_mono hbounds.hi_finite hbounds'.hi_finite hhi
  have hlow := mul_margin_mono hbounds'.lo_finite hbounds.lo_finite hlo
  rw [padding, padding, if_neg hsame, if_neg hsame']
  exact add_le_add_of_isFinite (isFinite_mul_margin hbounds.hi_finite)
    (isFinite_mul_margin hbounds'.hi_finite) hhigh (neg_le_neg hlow)

theorem range_of_extent {values : List Binary64} {lo hi : Binary64}
    (hextent : extent values = some (lo, hi)) :
    range values =
      ⟨(lo - padding lo hi).max .least, (hi + padding lo hi).min .greatest⟩ := by
  rw [range, hextent]

/-- Values nearer to each other and a lesser margin move both ends inwards. -/
theorem ends_inside {lo hi lo' hi' pad pad' : Binary64} {values values' : List Binary64}
    (hbounds : Bounds lo hi values) (hbounds' : Bounds lo' hi' values') (hlo : lo' ≤ lo)
    (hhi : hi ≤ hi') (hpad : pad ≤ pad') :
    (lo' - pad').max .least ≤ (lo - pad).max .least ∧
      (hi + pad).min .greatest ≤ (hi' + pad').min .greatest := by
  constructor
  · apply max_le_max place_least
    exact add_le_add_of_isFinite hbounds'.lo_finite hbounds.lo_finite hlo (neg_le_neg hpad)
  · apply min_le_min place_greatest
    exact add_le_add_of_isFinite hbounds.hi_finite hbounds'.hi_finite hhi hpad

theorem zero_le_sub_twentieth (m : Magnitude) :
    .zero ≤ finite false m - finite false m.twentieth := by
  have hunits : m.twentieth.units ≤ m.units :=
    unitsOfRank_strictMono.monotone (twentieth_le m.rank)
  refine le_iff_place.mpr ⟨0, _, rfl, place_sub false false m m.twentieth, ?_⟩
  rw [← roundedPlace_zero]
  apply roundedPlace_mono
  simp only [withSign, Bool.false_eq_true, if_false]
  omega

theorem add_twentieth_le_zero {t : Bool} {m n : Magnitude}
    (hsame : withSign t n.rank = withSign true m.rank) :
    finite t n + finite false m.twentieth ≤ .zero := by
  have hunits : m.twentieth.units ≤ m.units :=
    unitsOfRank_strictMono.monotone (twentieth_le m.rank)
  have hle := units_le_of_place_le hsame.le
  refine le_iff_place.mpr ⟨_, 0, place_add t false n m.twentieth, rfl, ?_⟩
  rw [← roundedPlace_zero]
  apply roundedPlace_mono
  simp only [withSign, if_true, Bool.false_eq_true, if_false] at hle ⊢
  omega

theorem isPlottable_of_zeros (s t : Bool) :
    (AxisRange.mk ((finite s .zero - .one).max .least)
      ((finite t .zero + .one).min .greatest)).isPlottable = true := by
  cases s <;> cases t <;> decide +kernel

theorem eq_zero_of_same_zero {s : Bool} {m : Magnitude} (hsame : (finite s m).same .zero = true) :
    m = .zero := by
  obtain ⟨i, hm, hzero⟩ := same_iff_place.mp hsame
  obtain rfl : 0 = i := Option.some.inj hzero
  have hrank : m.rank = 0 := by
    cases s <;> simpa [withSign] using Option.some.inj hm
  cases m
  cases hrank
  rfl

/-- The axis of a single value stays on its side of zero. -/
theorem isPlottable_of_same {lo hi : Binary64} {values : List Binary64}
    (hextent : extent values = some (lo, hi)) (hsame : lo.same hi = true) :
    (range values).isPlottable = true := by
  have hbounds := bounds_of_extent hextent
  have hcovers := range_covers values
  rw [range_of_extent hextent] at hcovers ⊢
  obtain ⟨s, m, rfl⟩ := exists_of_isFinite hbounds.lo_finite
  obtain ⟨t, n, rfl⟩ := exists_of_isFinite hbounds.hi_finite
  obtain ⟨i, hlo, hhi⟩ := same_iff_place.mp hsame
  have hplace : withSign t n.rank = withSign s m.rank := Option.some.inj (hhi.trans hlo.symm)
  by_cases hzero : (finite s m).same .zero = true
  · have hzero' : (finite t n).same .zero = true := same_trans (same_symm hsame) hzero
    obtain rfl := eq_zero_of_same_zero hzero
    obtain rfl := eq_zero_of_same_zero hzero'
    rw [padding, if_pos hsame, if_pos hzero]
    exact isPlottable_of_zeros s t
  · have hpad : padding (finite s m) (finite t n) = finite false m.twentieth := by
      rw [padding, if_pos hsame, if_neg hzero]
      exact mul_margin false m
    rw [hpad] at hcovers ⊢
    cases s with
    | false =>
        have hzeroMax : Binary64.zero.max .least = .zero := by decide +kernel
        have hstart := max_le_max place_least (zero_le_sub_twentieth m)
        rw [hzeroMax] at hstart
        exact hcovers.isPlottable_of_side (.inl hstart)
    | true =>
        have hzeroMin : Binary64.zero.min .greatest = .zero := by decide +kernel
        have hstop := min_le_min place_greatest (add_twentieth_le_zero hplace)
        rw [hzeroMin] at hstop
        exact hcovers.isPlottable_of_side (.inr hstop)

/-! ## When a span overflows -/

/-- The distance between two values with a margin on either side, as far as numbers reach. -/
def marginedSpan (lo hi : Binary64) : Binary64 :=
  let pad := hi * margin - lo * margin
  (hi + pad).min .greatest - (lo - pad).max .least

/-- From the least to the greatest of the finite values, which differ, it is too far. -/
def SpanOverflows (values : List Binary64) : Prop :=
  ∃ lo ∈ values, ∃ hi ∈ values, Bounds lo hi (values.filter isFinite) ∧ ¬ lo.same hi = true ∧
    (marginedSpan lo hi).isFinite = false

theorem isPlottable_of_differ {lo hi : Binary64} (hsame : ¬ lo.same hi = true) :
    (AxisRange.mk ((lo - padding lo hi).max .least)
      ((hi + padding lo hi).min .greatest)).isPlottable = (marginedSpan lo hi).isFinite := by
  rw [padding, if_neg hsame]
  rfl

theorem isFinite_marginedSpan {lo hi lo' hi' : Binary64} {values values' : List Binary64}
    (hbounds : Bounds lo hi values) (hbounds' : Bounds lo' hi' values') (hlo : lo' ≤ lo)
    (hhi : hi ≤ hi') (hsame : ¬ lo.same hi = true)
    (hspan : (marginedSpan lo' hi').isFinite = true) : (marginedSpan lo hi).isFinite = true := by
  have hsame' := not_same_of_between hbounds.lo_le_hi hlo hhi hsame
  have hpad := padding_mono hbounds hbounds' hlo hhi hsame
  obtain ⟨hstart, hstop⟩ := ends_inside hbounds hbounds' hlo hhi hpad
  have houter := hbounds'.covers
  rw [← isPlottable_of_differ hsame'] at hspan
  rw [← isPlottable_of_differ hsame]
  exact hbounds.covers.isPlottable_of_between houter.start_finite houter.stop_finite hspan hstart
    hstop

/-- Every finite number of the one list is one of the other; the zeros count as one number. -/
def Within (inner outer : List Binary64) : Prop :=
  ∀ x ∈ inner, x.isFinite = true → ∃ y ∈ outer, x.same y = true

theorem Within.of_subset {inner outer : List Binary64} (hsub : inner ⊆ outer) :
    Within inner outer := by
  intro x hx hfinite
  have hle := le_refl_of_isFinite hfinite
  exact ⟨x, hsub hx, same_iff_le.mpr ⟨hle, hle⟩⟩

theorem Within.between {inner outer : List Binary64} {lo hi x : Binary64}
    (hwithin : Within inner outer) (hbounds : Bounds lo hi (outer.filter isFinite))
    (hx : x ∈ inner.filter isFinite) : lo ≤ x ∧ x ≤ hi := by
  obtain ⟨hmem, hfinite⟩ := List.mem_filter.mp hx
  obtain ⟨y, hy, hsame⟩ := hwithin x hmem hfinite
  have hfilter : y ∈ outer.filter isFinite :=
    List.mem_filter.mpr ⟨hy, isFinite_of_same hfinite hsame⟩
  obtain ⟨hlo, hhi⟩ := hbounds.between y hfilter
  obtain ⟨hle, hge⟩ := same_iff_le.mp hsame
  exact ⟨le_trans hlo hge, le_trans hle hhi⟩

/-- Any two of fewer values lie within the extent of all. -/
theorem extent_within {inner outer : List Binary64} {lo hi : Binary64}
    (hwithin : Within inner outer)
    (hmem : lo ∈ inner.filter isFinite ∧ hi ∈ inner.filter isFinite) :
    ∃ lo' hi', extent outer = some (lo', hi') ∧ lo' ≤ lo ∧ hi ≤ hi' := by
  obtain ⟨hlo, hhi⟩ := hmem
  rcases extent_cases outer with ⟨-, hempty⟩ | ⟨lo', hi', hsome, hbounds⟩
  · obtain ⟨hmem, hfinite⟩ := List.mem_filter.mp hlo
    obtain ⟨y, hy, hsame⟩ := hwithin lo hmem hfinite
    have hfilter : y ∈ outer.filter isFinite :=
      List.mem_filter.mpr ⟨hy, isFinite_of_same hfinite hsame⟩
    rw [hempty] at hfilter
    exact absurd hfilter List.not_mem_nil
  · exact ⟨lo', hi', hsome, (hwithin.between hbounds hlo).1, (hwithin.between hbounds hhi).2⟩

/-- Of two zeros an extent holds one, so the ends of an extent need not be the given two values. -/
theorem SpanOverflows.exists_extent {inner outer : List Binary64} (hwithin : Within inner outer)
    (hlong : SpanOverflows inner) :
    ∃ lo hi, extent outer = some (lo, hi) ∧ ¬ lo.same hi = true ∧
      (marginedSpan lo hi).isFinite = false := by
  obtain ⟨lo, hlo, hi, hhi, hbounds, hsame, hspan⟩ := hlong
  have hloMem := List.mem_filter.mpr ⟨hlo, hbounds.lo_finite⟩
  have hhiMem := List.mem_filter.mpr ⟨hhi, hbounds.hi_finite⟩
  obtain ⟨lo', hi', hextent, hlower, hupper⟩ := extent_within hwithin ⟨hloMem, hhiMem⟩
  have hsame' := not_same_of_between hbounds.lo_le_hi hlower hupper hsame
  refine ⟨lo', hi', hextent, hsame', ?_⟩
  rw [Bool.eq_false_iff] at hspan ⊢
  exact mt (isFinite_marginedSpan hbounds (bounds_of_extent hextent) hlower hupper hsame) hspan

theorem spanOverflows_iff_extent {values : List Binary64} :
    SpanOverflows values ↔ ∃ lo hi, extent values = some (lo, hi) ∧ ¬ lo.same hi = true ∧
      (marginedSpan lo hi).isFinite = false := by
  constructor
  · exact SpanOverflows.exists_extent (Within.of_subset (List.Subset.refl values))
  · rintro ⟨lo, hi, hextent, hsame, hspan⟩
    obtain ⟨hlo, hhi⟩ := extent_mem hextent
    exact ⟨lo, (List.mem_filter.mp hlo).1, hi, (List.mem_filter.mp hhi).1,
      bounds_of_extent hextent, hsame, hspan⟩

/-- A span that overflows does so with more values too. -/
theorem SpanOverflows.of_within {inner outer : List Binary64} (hwithin : Within inner outer)
    (hlong : SpanOverflows inner) : SpanOverflows outer :=
  spanOverflows_iff_extent.mpr (hlong.exists_extent hwithin)

/-- An axis can be drawn unless the least and the greatest of its values are too far apart. -/
theorem isPlottable_range_eq_false_iff {values : List Binary64} :
    (range values).isPlottable = false ↔ SpanOverflows values := by
  rw [spanOverflows_iff_extent]
  rcases extent_cases values with ⟨hnone, -⟩ | ⟨lo, hi, hextent, -⟩
  · have hunit : (range values).isPlottable = true := by
      rw [range, hnone]
      decide +kernel
    simp [hunit, hnone]
  · by_cases hsame : lo.same hi = true
    · simp [isPlottable_of_same hextent hsame, hextent, hsame]
    · rw [range_of_extent hextent, isPlottable_of_differ hsame]
      simp [hextent, hsame]

theorem isPlottable_range_iff {values : List Binary64} :
    (range values).isPlottable = true ↔ ¬ SpanOverflows values := by
  rw [← isPlottable_range_eq_false_iff, Bool.not_eq_false]

/-- An axis that is short enough for some values is so for fewer. -/
theorem isPlottable_range_of_subset {inner outer : List Binary64} (hsub : inner ⊆ outer)
    (hplottable : (range outer).isPlottable = true) : (range inner).isPlottable = true := by
  rw [isPlottable_range_iff] at hplottable ⊢
  exact mt (SpanOverflows.of_within (Within.of_subset hsub)) hplottable

instance (values : List Binary64) : Decidable (SpanOverflows values) :=
  decidable_of_iff _ isPlottable_range_eq_false_iff

example : SpanOverflows [.least, .nan, .greatest] := by decide +kernel

end Axis

end ThroughputPlot
