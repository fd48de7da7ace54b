import ThroughputPlot.Binary64.Literal
import ThroughputPlot.Binary64.Shortest
import ThroughputPlot.Proofs.Rounding

/-!
# Shortest decimals read back

The search for the shortest decimal takes what reads back, so all depends on its finding something
at all.  Half a step of the decimals with seventeen digits is shorter than half a step of the
magnitudes, because `2 ^ 53` is less than `10 ^ 16`.  The nearer of the two decimals around a
magnitude is then near enough to be rounded to it, and the search ends there at the latest.
-/

namespace ThroughputPlot

/-! ## Powers of ten -/

theorem powerOfTen_eq (n : ℕ) : powerOfTen n = 10 ^ n := rfl

theorem powerOfTen_pos (n : ℕ) : 0 < powerOfTen n := Nat.pow_pos (by decide)

theorem powerOfTen_add (m n : ℕ) : powerOfTen (m + n) = powerOfTen m * powerOfTen n :=
  Nat.pow_add 10 m n

/-- An exponent stands in the numerator or in the denominator. -/
theorem powerOfTen_div (exponent : ℤ) :
    (powerOfTen exponent.toNat : ℚ) / powerOfTen (-exponent).toNat = 10 ^ exponent := by
  rw [powerOfTen_eq, powerOfTen_eq]
  obtain ⟨n, rfl | rfl⟩ := exponent.eq_nat_or_neg
  · simp
  · simp

theorem digitCount_pos (n : ℕ) : 0 < digitCount n := Nat.length_toDigits_pos

theorem lt_powerOfTen_digitCount (n : ℕ) : n < powerOfTen (digitCount n) :=
  (Nat.length_toDigits_le_iff (by decide) (digitCount_pos n)).mp le_rfl

theorem powerOfTen_le_of_pos {n : ℕ} (hn : 0 < n) : powerOfTen (digitCount n - 1) ≤ n := by
  by_contra hlt
  rw [Nat.not_le] at hlt
  rcases Nat.eq_zero_or_pos (digitCount n - 1) with hone | hmore
  · rw [hone] at hlt
    change n < 1 at hlt
    omega
  · have hle : digitCount n ≤ digitCount n - 1 :=
      (Nat.length_toDigits_le_iff (by decide) hmore).mpr hlt
    omega

namespace Magnitude

variable {m : Magnitude}

theorem units_pos (hm : 0 < m.rank) : 0 < m.units := unitsOfRank_strictMono hm

/-! ## The first digit -/

/-- A magnitude is at least the power of ten of its first digit. -/
theorem leadingExponent_le (hm : 0 < m.rank) :
    unitsOfOne * (10 : ℚ) ^ m.leadingExponent ≤ m.units := by
  have hunits := units_pos hm
  unfold leadingExponent
  split
  next hle =>
    have hquotient : 0 < m.units / unitsOfOne := Nat.div_pos hle (powerOfTwo_pos 1074)
    have hcount := digitCount_pos (m.units / unitsOfOne)
    have hpower : unitsOfOne * powerOfTen (digitCount (m.units / unitsOfOne) - 1) ≤ m.units :=
      (Nat.mul_le_mul_left _ (powerOfTen_le_of_pos hquotient)).trans (Nat.mul_div_le ..)
    generalize digitCount (m.units / unitsOfOne) = count at hcount hpower
    obtain ⟨places, rfl⟩ := Nat.exists_eq_add_one_of_ne_zero hcount.ne'
    rw [Nat.add_sub_cancel, powerOfTen_eq] at hpower
    rw [Nat.cast_add_one, add_sub_cancel_right, zpow_natCast]
    exact_mod_cast hpower
  next hlt =>
    have hpower := lt_powerOfTen_digitCount ((unitsOfOne - 1) / m.units)
    generalize digitCount ((unitsOfOne - 1) / m.units) = count at hpower
    rw [Nat.div_lt_iff_lt_mul hunits, powerOfTen_eq] at hpower
    have hle : unitsOfOne ≤ 10 ^ count * m.units := by omega
    have hcast : (unitsOfOne : ℚ) ≤ 10 ^ count * m.units := by exact_mod_cast hle
    have hpos : (0 : ℚ) < 10 ^ count := by positivity
    rw [zpow_neg, zpow_natCast, ← div_eq_mul_inv, div_le_iff₀ hpos, mul_comm]
    exact hcast

/-! ## Decimals near a magnitude -/

/-- With `placeUnits`, the magnitude as a multiple of the unit of a decimal place. -/
def unitsAt (m : Magnitude) (exponent : ℤ) : ℕ := m.units * powerOfTen (-exponent).toNat

def placeUnits (exponent : ℤ) : ℕ := unitsOfOne * powerOfTen exponent.toNat

theorem placeUnits_pos (exponent : ℤ) : 0 < placeUnits exponent :=
  Nat.mul_pos (powerOfTwo_pos 1074) (powerOfTen_pos _)

theorem isReadBack_iff {d : Decimal} :
    m.isReadBack d = true ↔
      nearestRank (d.digits * placeUnits d.exponent) (powerOfTen (-d.exponent).toNat) = m.rank := by
  rw [placeUnits, ← Nat.mul_assoc]
  exact decide_eq_true_iff

/-- Seventeen digits are finer than the steps of the magnitudes. -/
theorem placeUnits_lt_unitsAt (hm : 0 < m.rank) :
    placeUnits (m.leadingExponent - 16) * 2 ^ 53 < m.unitsAt (m.leadingExponent - 16) := by
  have hleading := leadingExponent_le hm
  have hunits : (0 : ℚ) < m.units := by exact_mod_cast units_pos hm
  unfold placeUnits unitsAt
  generalize m.leadingExponent = leading at hleading ⊢
  have hpower := powerOfTen_div (leading - 16)
  have hdown : (0 : ℚ) < powerOfTen (-(leading - 16)).toNat := by exact_mod_cast powerOfTen_pos _
  have hshift : (10 : ℚ) ^ (leading - 16) = 10 ^ leading / 10 ^ 16 := zpow_sub₀ (by norm_num) ..
  rw [div_eq_iff hdown.ne', hshift] at hpower
  have hfine : (unitsOfOne : ℚ) * (10 ^ leading / 10 ^ 16) * (2 : ℚ) ^ 53 < m.units := by
    calc
      (unitsOfOne : ℚ) * (10 ^ leading / 10 ^ 16) * (2 : ℚ) ^ 53 =
          unitsOfOne * 10 ^ leading * ((2 : ℚ) ^ 53 / 10 ^ 16) := by ring
      _ ≤ m.units * ((2 : ℚ) ^ 53 / 10 ^ 16) := by gcongr
      _ < m.units := mul_lt_of_lt_one_right hunits (by norm_num)
  have hscaled := mul_lt_mul_of_pos_right hfine hdown
  rw [mul_right_comm, mul_assoc (unitsOfOne : ℚ), ← hpower] at hscaled
  exact_mod_cast hscaled

/-- A decimal that is off by half of its last place at most reads back. -/
theorem isReadBack_of_near {d : Decimal}
    (hfine : placeUnits d.exponent * 2 ^ 53 < m.unitsAt d.exponent)
    (hlow : 2 * m.unitsAt d.exponent ≤ 2 * (d.digits * placeUnits d.exponent) +
      placeUnits d.exponent)
    (hhigh : 2 * (d.digits * placeUnits d.exponent) ≤ 2 * m.unitsAt d.exponent +
      placeUnits d.exponent) :
    m.isReadBack d = true := by
  have hunits : unitsOfRank m.rank * powerOfTen (-d.exponent).toNat = m.unitsAt d.exponent := rfl
  rw [isReadBack_iff]
  apply nearestRank_of_near
  · rw [hunits]
    linarith
  · rw [hunits]
    linarith

/-- Of the two neighbours of a magnitude on a decimal grid the nearer one is tried first. -/
theorem exists_neighbours (m : Magnitude) (tie : Tie) (exponent : ℤ) :
    ∃ first second : Decimal, first.exponent = exponent ∧
      2 * m.unitsAt exponent ≤
        2 * (first.digits * placeUnits exponent) + placeUnits exponent ∧
      2 * (first.digits * placeUnits exponent) ≤
        2 * m.unitsAt exponent + placeUnits exponent ∧
      m.decimalAt? tie exponent =
        if m.isReadBack first then some first
        else if m.isReadBack second then some second
        else none := by
  have hpos := placeUnits_pos exponent
  unfold decimalAt? unitsAt placeUnits
  unfold placeUnits at hpos
  generalize m.units * powerOfTen (-exponent).toNat = num
  generalize unitsOfOne * powerOfTen exponent.toNat = den at hpos ⊢
  dsimp only
  generalize hnearer : (decide (2 * (num % den) < den) ||
    decide (2 * (num % den) = den) && decide (tie = .toEven) && decide (num / den % 2 = 0)) = nearer
  have hdiv := Nat.div_add_mod' num den
  have hmod := Nat.mod_lt num hpos
  have habove : (num / den + 1) * den = num / den * den + den := by rw [Nat.add_mul, Nat.one_mul]
  cases nearer with
  | true =>
      have hhalf : 2 * (num % den) ≤ den := by grind
      refine ⟨⟨num / den, exponent⟩, ⟨num / den + 1, exponent⟩, rfl, ?_, ?_, rfl⟩
      · dsimp only
        omega
      · dsimp only
        omega
  | false =>
      have hhalf : den ≤ 2 * (num % den) := by grind
      refine ⟨⟨num / den + 1, exponent⟩, ⟨num / den, exponent⟩, rfl, ?_, ?_, rfl⟩
      · dsimp only
        omega
      · dsimp only
        omega

theorem isSome_decimalAt? {exponent : ℤ}
    (hfine : placeUnits exponent * 2 ^ 53 < m.unitsAt exponent) (tie : Tie) :
    (m.decimalAt? tie exponent).isSome = true := by
  obtain ⟨first, second, rfl, hlow, hhigh, hsearch⟩ := exists_neighbours m tie exponent
  rw [hsearch, if_pos (isReadBack_of_near hfine hlow hhigh)]
  rfl

theorem isReadBack_of_decimalAt? {tie : Tie} {exponent : ℤ} {d : Decimal}
    (hd : m.decimalAt? tie exponent = some d) : m.isReadBack d = true := by
  obtain ⟨first, second, _, _, _, hsearch⟩ := exists_neighbours m tie exponent
  rw [hsearch] at hd
  split at hd
  next hfirst => exact Option.some.inj hd ▸ hfirst
  next =>
    split at hd
    next hsecond => exact Option.some.inj hd ▸ hsecond
    next => exact absurd hd.symm (Option.some_ne_none d)

/-- The shortest decimal reads back. -/
theorem isReadBack_shortest (hm : 0 < m.rank) (tie : Tie) :
    m.isReadBack (m.shortest tie) = true := by
  have hlast := isSome_decimalAt? (placeUnits_lt_unitsAt hm) tie
  have hsome : ((List.range 17).findSome? fun k : ℕ =>
      m.decimalAt? tie (m.leadingExponent - k)).isSome = true := by
    rw [List.findSome?_isSome_iff]
    refine ⟨16, by decide, ?_⟩
    exact hlast
  obtain ⟨d, hd⟩ := Option.isSome_iff_exists.mp hsome
  obtain ⟨place, _, hplace⟩ := List.exists_of_findSome?_eq_some hd
  have hshortest : m.shortest tie = d := by
    unfold shortest
    dsimp only
    rw [hd, Option.getD_some]
  rw [hshortest]
  exact isReadBack_of_decimalAt? hplace

end Magnitude

/-! ## Decimals of one value -/

theorem nearestRank_congr {num den num' den' : ℕ} (hden : 0 < den) (hden' : 0 < den')
    (heq : num * den' = num' * den) : nearestRank num den = nearestRank num' den' :=
  le_antisymm (nearestRank_mono hden hden' heq.le) (nearestRank_mono hden' hden heq.ge)

namespace Binary64

theorem ofRank_rank (negative : Bool) (m : Magnitude) :
    ofRank negative m.rank = .finite negative m :=
  dif_pos m.rank_lt

/-- What a decimal is rounded to depends on its value alone. -/
theorem ofDecimal_congr (negative : Bool) {digits digits' : ℕ} {exponent exponent' : ℤ}
    (hvalue : (digits : ℚ) * 10 ^ exponent = digits' * 10 ^ exponent') :
    ofDecimal negative digits exponent = ofDecimal negative digits' exponent' := by
  have hden := powerOfTen_pos (-exponent).toNat
  have hden' := powerOfTen_pos (-exponent').toNat
  have hdown : ((powerOfTen (-exponent).toNat : ℕ) : ℚ) ≠ 0 := by exact_mod_cast hden.ne'
  have hdown' : ((powerOfTen (-exponent').toNat : ℕ) : ℚ) ≠ 0 := by exact_mod_cast hden'.ne'
  rw [← powerOfTen_div, ← powerOfTen_div, ← mul_div_assoc, ← mul_div_assoc,
    div_eq_div_iff hdown hdown'] at hvalue
  have hcross : digits * powerOfTen exponent.toNat * powerOfTen (-exponent').toNat =
      digits' * powerOfTen exponent'.toNat * powerOfTen (-exponent).toNat := by
    exact_mod_cast hvalue
  unfold ofDecimal ofUnitRatio
  rw [nearestRank_congr hden hden']
  calc
    digits * unitsOfOne * powerOfTen exponent.toNat * powerOfTen (-exponent').toNat =
        unitsOfOne * (digits * powerOfTen exponent.toNat * powerOfTen (-exponent').toNat) := by ring
    _ = unitsOfOne * (digits' * powerOfTen exponent'.toNat * powerOfTen (-exponent).toNat) := by
      rw [hcross]
    _ = digits' * unitsOfOne * powerOfTen exponent'.toNat * powerOfTen (-exponent).toNat := by ring

theorem ofDecimal_zero (negative : Bool) (exponent : ℤ) :
    ofDecimal negative 0 exponent = .finite negative .zero := by
  have hrank := nearestRank_unitsOfRank 0 (powerOfTen_pos (-exponent).toNat)
  rw [unitsOfRank_zero, Nat.zero_mul] at hrank
  unfold ofDecimal ofUnitRatio
  rw [Nat.zero_mul, Nat.zero_mul, hrank]
  rfl

theorem digits_pos_of_isReadBack {m : Magnitude} {d : Decimal} (hm : 0 < m.rank)
    (hd : m.isReadBack d = true) : 0 < d.digits := by
  by_contra hzero
  have hrank := nearestRank_unitsOfRank 0 (powerOfTen_pos (-d.exponent).toNat)
  rw [unitsOfRank_zero, Nat.zero_mul] at hrank
  rw [Magnitude.isReadBack_iff, Nat.eq_zero_of_not_pos hzero, Nat.zero_mul, hrank] at hd
  exact hm.ne hd

theorem ofDecimal_of_isReadBack {m : Magnitude} {d : Decimal} (hd : m.isReadBack d = true)
    (negative : Bool) : ofDecimal negative d.digits d.exponent = .finite negative m := by
  rw [Magnitude.isReadBack_iff, Magnitude.placeUnits, ← Nat.mul_assoc] at hd
  unfold ofDecimal ofUnitRatio
  rw [hd, ofRank_rank]

/-! ## Decimals out of reach -/

theorem unitsOfRank_rankCount : unitsOfRank rankCount = powerOfTwo 1024 * unitsOfOne := by
  have hrank : rankCount = (2046 + 1) * ranksPerDoubling + 0 := rfl
  have hunits : ranksPerDoubling * powerOfTwo 2046 = powerOfTwo 1024 * unitsOfOne := by
    rw [ranksPerDoubling, unitsOfOne, ← powerOfTwo_add, ← powerOfTwo_add]
  rw [hrank, unitsOfRank_of_doubling 2046 ranksPerDoubling_pos, Nat.add_zero, hunits]

theorem ofDecimal_of_large (negative : Bool) {digits : ℕ} (hdigits : digits ≠ 0) {exponent : ℤ}
    (hexponent : 400 ≤ exponent) : ofDecimal negative digits exponent = .infinite negative := by
  have hdown : (-exponent).toNat = 0 := by omega
  have hup : 400 ≤ exponent.toNat := by omega
  have hpower : powerOfTwo 1024 ≤ powerOfTen exponent.toNat :=
    Nat.le_trans (by decide +kernel) (Nat.pow_le_pow_right (by decide) hup)
  have hone : unitsOfOne ≤ digits * unitsOfOne :=
    Nat.le_mul_of_pos_left unitsOfOne (Nat.pos_of_ne_zero hdigits)
  have hunits : unitsOfRank rankCount * 1 ≤ digits * unitsOfOne * powerOfTen exponent.toNat := by
    rw [unitsOfRank_rankCount, Nat.mul_one, Nat.mul_comm (powerOfTwo 1024)]
    exact Nat.mul_le_mul hone hpower
  have hrank := nearestRank_mono Nat.one_pos Nat.one_pos (Nat.mul_le_mul_right 1 hunits)
  rw [nearestRank_unitsOfRank rankCount Nat.one_pos] at hrank
  unfold ofDecimal ofUnitRatio ofRank
  rw [hdown]
  exact dif_neg (Nat.not_lt.mpr hrank)

theorem nearestRank_of_lt_half {num den : ℕ} (hhalf : 2 * num < den) : nearestRank num den = 0 := by
  have hden : 0 < den := by omega
  have hstep : den * powerOfTwo 0 = den := Nat.mul_one den
  have hupper : num < 2 * ranksPerDoubling * (den * powerOfTwo 0) := by
    have hcount : 1 ≤ 2 * ranksPerDoubling := Nat.mul_pos Nat.two_pos ranksPerDoubling_pos
    have hle := Nat.mul_le_mul_right den hcount
    rw [hstep]
    omega
  have hrank : nearestRank num den = 0 * ranksPerDoubling + 0 :=
    nearestRank_of_doubling hden (.inl rfl) hupper (by omega) (by omega)
  rwa [Nat.zero_mul] at hrank

theorem ofDecimal_of_small (negative : Bool) {digits length : ℕ} {exponent : ℤ}
    (hdigits : digits < powerOfTen length) (hexponent : exponent < -400 - (length : ℤ)) :
    ofDecimal negative digits exponent = .finite negative .zero := by
  have hup : exponent.toNat = 0 := by omega
  have hdown : 400 + length ≤ (-exponent).toNat := by omega
  have hhalf : 2 * (digits * unitsOfOne * 1) < powerOfTen (-exponent).toNat := by
    calc
      2 * (digits * unitsOfOne * 1) = 2 * unitsOfOne * digits := by ring
      _ < 2 * unitsOfOne * powerOfTen length :=
        Nat.mul_lt_mul_of_pos_left hdigits (by decide +kernel)
      _ ≤ powerOfTen 400 * powerOfTen length := Nat.mul_le_mul_right _ (by decide +kernel)
      _ = powerOfTen (400 + length) := (powerOfTen_add 400 length).symm
      _ ≤ powerOfTen (-exponent).toNat := Nat.pow_le_pow_right (by decide) hdown
  have hrank := nearestRank_of_lt_half hhalf
  unfold ofDecimal ofUnitRatio
  rw [hup]
  change ofRank negative (nearestRank (digits * unitsOfOne * 1) _) = _
  rw [hrank]
  rfl

/-- The bounds of a numeral save work and change nothing. -/
theorem ofNumeral_eq_ofDecimal (negative : Bool) {digits length : ℕ}
    (hdigits : digits < powerOfTen length) (exponent : ℤ) :
    ofNumeral negative digits length exponent = ofDecimal negative digits exponent := by
  unfold ofNumeral
  split
  next hzero => rw [hzero, ofDecimal_zero]
  next hzero =>
    split
    next hlarge => exact (ofDecimal_of_large negative hzero (by omega)).symm
    next =>
      split
      next hsmall => exact (ofDecimal_of_small negative hdigits hsmall).symm
      next => rfl

end Binary64

end ThroughputPlot
