import ThroughputPlot.Binary64.Basic
import Mathlib.Tactic

/-!
# Rounding to the nearest rank

Rounding a quotient of natural numbers to the nearest rank respects the order of quotients, and
it gives back the rank of every magnitude that has one.  Within one doubling both facts come
from the rounding to whole numbers.  Across doublings it is enough that a rounded number never
leaves the closed interval between two powers of two.
-/

namespace ThroughputPlot

/-! ## Rounding to whole numbers -/

/-- When the quotient is rounded up. -/
theorem roundHalfEven_cases (num den : ℕ) :
    (roundHalfEven num den = num / den ∧
      (2 * (num % den) < den ∨ 2 * (num % den) = den ∧ num / den % 2 = 0)) ∨
    (roundHalfEven num den = num / den + 1 ∧
      (den < 2 * (num % den) ∨ 2 * (num % den) = den ∧ num / den % 2 = 1)) := by
  unfold roundHalfEven
  dsimp only
  split_ifs <;> omega

theorem roundHalfEven_mul (n : ℕ) {den : ℕ} (hden : 0 < den) :
    roundHalfEven (n * den) den = n := by
  have hquotient : n * den / den = n := Nat.mul_div_cancel n hden
  have hremainder : n * den % den = 0 := Nat.mul_mod_left n den
  have hcases := roundHalfEven_cases (n * den) den
  omega

theorem div_le_div_of_mul_le {num den num' den' : ℕ} (hden : 0 < den) (hden' : 0 < den')
    (hle : num * den' ≤ num' * den) : num / den ≤ num' / den' := by
  calc
    num / den = num * den' / (den * den') := (Nat.mul_div_mul_right num den hden').symm
    _ ≤ num' * den / (den * den') := Nat.div_le_div_right hle
    _ = num' * den / (den' * den) := by rw [Nat.mul_comm den den']
    _ = num' / den' := Nat.mul_div_mul_right num' den' hden

theorem roundHalfEven_mono {num den num' den' : ℕ} (hden : 0 < den) (hden' : 0 < den')
    (hle : num * den' ≤ num' * den) : roundHalfEven num den ≤ roundHalfEven num' den' := by
  have hquotient := div_le_div_of_mul_le hden hden' hle
  have hcases := roundHalfEven_cases num den
  have hcases' := roundHalfEven_cases num' den'
  rcases Nat.lt_or_eq_of_le hquotient with hlt | heq
  · omega
  · -- With equal quotients the remainders are compared with half of their divisors.
    have hdiv := Nat.div_add_mod num den
    have hdiv' := Nat.div_add_mod num' den'
    have hremainder : num % den * den' ≤ num' % den' * den := by
      rw [← hdiv, ← hdiv', heq] at hle
      nlinarith
    have hhalf : den ≤ 2 * (num % den) → den' ≤ 2 * (num' % den') := by
      intro h
      by_contra hlt
      nlinarith
    have hmore : den < 2 * (num % den) → den' < 2 * (num' % den') := by
      intro h
      by_contra hlt
      nlinarith
    omega

theorem roundHalfEven_le {num den n : ℕ} (hden : 0 < den) (hle : num ≤ n * den) :
    roundHalfEven num den ≤ n := by
  have hmono := roundHalfEven_mono hden hden (Nat.mul_le_mul_right den hle)
  rwa [roundHalfEven_mul n hden] at hmono

theorem le_roundHalfEven {num den n : ℕ} (hden : 0 < den) (hle : n * den ≤ num) :
    n ≤ roundHalfEven num den := by
  have hmono := roundHalfEven_mono hden hden (Nat.mul_le_mul_right den hle)
  rwa [roundHalfEven_mul n hden] at hmono

theorem roundHalfEven_of_near {num den n : ℕ} (hlow : 2 * (n * den) < 2 * num + den)
    (hhigh : 2 * num < 2 * (n * den) + den) : roundHalfEven num den = n := by
  have hden : 0 < den := by
    by_contra hzero
    obtain rfl : den = 0 := by omega
    omega
  have hcases := roundHalfEven_cases num den
  have hdiv := Nat.div_add_mod num den
  have hmod := Nat.mod_lt num hden
  rw [Nat.mul_comm] at hdiv
  generalize num / den = quotient at hcases hdiv
  have hle : quotient ≤ n := by
    by_contra hlt
    have hstep : (n + 1) * den ≤ quotient * den := Nat.mul_le_mul_right den (by omega)
    rw [Nat.add_mul] at hstep
    omega
  have hge : n ≤ quotient + 1 := by
    by_contra hlt
    have hstep : (quotient + 2) * den ≤ n * den := Nat.mul_le_mul_right den (by omega)
    rw [Nat.add_mul] at hstep
    omega
  rcases Nat.lt_or_eq_of_le hle with hlt | rfl
  · obtain rfl : n = quotient + 1 := by omega
    rw [Nat.add_mul] at hlow hhigh
    omega
  · omega

/-! ## Rounding to ranks -/

theorem powerOfTwo_eq (n : ℕ) : powerOfTwo n = 2 ^ n := rfl

theorem powerOfTwo_pos (n : ℕ) : 0 < powerOfTwo n := Nat.two_pow_pos n

theorem powerOfTwo_add (m n : ℕ) : powerOfTwo (m + n) = powerOfTwo m * powerOfTwo n :=
  Nat.pow_add 2 m n

def doublingOf (num den : ℕ) : ℕ := (num / den).log2 - 52

theorem nearestRank_eq (num den : ℕ) :
    nearestRank num den = doublingOf num den * ranksPerDoubling +
      roundHalfEven num (den * powerOfTwo (doublingOf num den)) := rfl

theorem doublingOf_mono {num den num' den' : ℕ} (hden : 0 < den) (hden' : 0 < den')
    (hle : num * den' ≤ num' * den) : doublingOf num den ≤ doublingOf num' den' := by
  have hquotient := div_le_div_of_mul_le hden hden' hle
  have hlog : (num / den).log2 ≤ (num' / den').log2 := by
    rw [Nat.log2_eq_log_two, Nat.log2_eq_log_two]
    exact Nat.log_mono_right hquotient
  unfold doublingOf
  omega

theorem lt_of_doublingOf (num : ℕ) {den : ℕ} (hden : 0 < den) :
    num < 2 * ranksPerDoubling * (den * powerOfTwo (doublingOf num den)) := by
  have hlog : num / den < 2 ^ ((num / den).log2 + 1) := Nat.lt_log2_self
  have hpow : 2 ^ ((num / den).log2 + 1) ≤ 2 ^ (53 + doublingOf num den) :=
    Nat.pow_le_pow_right (by decide) (by unfold doublingOf; omega)
  have hnum : num < 2 ^ (53 + doublingOf num den) * den :=
    (Nat.div_lt_iff_lt_mul hden).mp (lt_of_lt_of_le hlog hpow)
  calc
    num < 2 ^ (53 + doublingOf num den) * den := hnum
    _ = 2 * 2 ^ 52 * (den * 2 ^ doublingOf num den) := by rw [Nat.pow_add]; ring
    _ = 2 * ranksPerDoubling * (den * powerOfTwo (doublingOf num den)) := rfl

theorem le_of_doublingOf_pos {num den : ℕ} (hpos : 0 < doublingOf num den) :
    ranksPerDoubling * (den * powerOfTwo (doublingOf num den)) ≤ num := by
  have hlog : (num / den).log2 = 52 + doublingOf num den := by
    unfold doublingOf at hpos ⊢
    omega
  have hne : num / den ≠ 0 := by
    intro hzero
    rw [hzero] at hlog
    have : Nat.log2 0 = 0 := by decide
    omega
  have hself : 2 ^ (52 + doublingOf num den) ≤ num / den := by
    rw [← hlog]
    exact Nat.log2_self_le hne
  calc
    ranksPerDoubling * (den * powerOfTwo (doublingOf num den)) =
        den * 2 ^ (52 + doublingOf num den) := by
          rw [Nat.pow_add, powerOfTwo_eq]
          change 2 ^ 52 * _ = _
          ring
    _ ≤ den * (num / den) := Nat.mul_le_mul_left den hself
    _ ≤ num := Nat.mul_div_le num den

/-- The numbers of a lower doubling are rounded to ranks below those of a higher one. -/
theorem nearestRank_mono {num den num' den' : ℕ} (hden : 0 < den) (hden' : 0 < den')
    (hle : num * den' ≤ num' * den) : nearestRank num den ≤ nearestRank num' den' := by
  rw [nearestRank_eq, nearestRank_eq]
  have hdoubling := doublingOf_mono hden hden' hle
  have hlt := lt_of_doublingOf num hden
  have hge : 0 < doublingOf num' den' → _ := le_of_doublingOf_pos
  generalize doublingOf num den = low at *
  generalize doublingOf num' den' = high at *
  have hlow : 0 < den * powerOfTwo low := Nat.mul_pos hden (powerOfTwo_pos low)
  have hhigh : 0 < den' * powerOfTwo high := Nat.mul_pos hden' (powerOfTwo_pos high)
  rcases Nat.lt_or_eq_of_le hdoubling with hless | rfl
  · have hupper : roundHalfEven num (den * powerOfTwo low) ≤ 2 * ranksPerDoubling :=
      roundHalfEven_le hlow hlt.le
    have hlower : ranksPerDoubling ≤ roundHalfEven num' (den' * powerOfTwo high) :=
      le_roundHalfEven hhigh (hge (by omega))
    have hranks : (low + 1) * ranksPerDoubling ≤ high * ranksPerDoubling :=
      Nat.mul_le_mul_right ranksPerDoubling hless
    rw [Nat.add_mul] at hranks
    omega
  · have hscaled : num * (den' * powerOfTwo low) ≤ num' * (den * powerOfTwo low) := by
      rw [← Nat.mul_assoc, ← Nat.mul_assoc]
      exact Nat.mul_le_mul_right (powerOfTwo low) hle
    have hround := roundHalfEven_mono hlow hhigh hscaled
    omega

/-! ## The units of a rank -/

theorem unitsOfRank_zero : unitsOfRank 0 = 0 := by decide

theorem ranksPerDoubling_pos : 0 < ranksPerDoubling := powerOfTwo_pos 52

theorem unitsOfRank_of_lt {rank : ℕ} (hlt : rank < ranksPerDoubling) : unitsOfRank rank = rank :=
  if_pos hlt

theorem unitsOfRank_of_doubling (doubling : ℕ) {part : ℕ} (hpart : part < ranksPerDoubling) :
    unitsOfRank ((doubling + 1) * ranksPerDoubling + part) =
      (ranksPerDoubling + part) * powerOfTwo doubling := by
  have hge : ¬ (doubling + 1) * ranksPerDoubling + part < ranksPerDoubling := by
    rw [Nat.add_mul]
    omega
  have hdiv : ((doubling + 1) * ranksPerDoubling + part) / ranksPerDoubling = doubling + 1 := by
    rw [Nat.add_comm, Nat.add_mul_div_right _ _ ranksPerDoubling_pos, Nat.div_eq_of_lt hpart,
      Nat.zero_add]
  have hmod : ((doubling + 1) * ranksPerDoubling + part) % ranksPerDoubling = part := by
    rw [Nat.add_comm, Nat.add_mul_mod_self_right, Nat.mod_eq_of_lt hpart]
  rw [unitsOfRank, if_neg hge, hdiv, hmod]
  rfl

theorem rank_cases (rank : ℕ) :
    rank < ranksPerDoubling ∨
      ∃ doubling part, part < ranksPerDoubling ∧
        rank = (doubling + 1) * ranksPerDoubling + part := by
  by_cases hsmall : rank < ranksPerDoubling
  · exact .inl hsmall
  · have hpos : 0 < rank / ranksPerDoubling :=
      Nat.div_pos (Nat.not_lt.mp hsmall) ranksPerDoubling_pos
    obtain ⟨doubling, hdoubling⟩ := Nat.exists_eq_add_of_le' hpos
    refine .inr ⟨doubling, rank % ranksPerDoubling, Nat.mod_lt _ ranksPerDoubling_pos, ?_⟩
    rw [← hdoubling, Nat.mul_comm]
    exact (Nat.div_add_mod rank ranksPerDoubling).symm

/-- A rank counts doublings and, within one, whole steps. -/
theorem exists_digits (rank : ℕ) :
    ∃ doubling digits, rank = doubling * ranksPerDoubling + digits ∧
      unitsOfRank rank = digits * powerOfTwo doubling ∧ digits < 2 * ranksPerDoubling ∧
      (doubling = 0 ∨ ranksPerDoubling ≤ digits) := by
  rcases rank_cases rank with hsmall | ⟨doubling, part, hpart, rfl⟩
  · refine ⟨0, rank, by omega, ?_, by omega, .inl rfl⟩
    exact (unitsOfRank_of_lt hsmall).trans (Nat.mul_one rank).symm
  · refine ⟨doubling, ranksPerDoubling + part, ?_, unitsOfRank_of_doubling doubling hpart,
      by omega, .inr (Nat.le_add_right ..)⟩
    rw [Nat.add_mul, Nat.one_mul, Nat.add_assoc]

theorem doublingOf_eq {num den doubling : ℕ} (hden : 0 < den)
    (hlower : doubling = 0 ∨ ranksPerDoubling * powerOfTwo doubling * den ≤ num)
    (hupper : num < 2 * ranksPerDoubling * powerOfTwo doubling * den) :
    doublingOf num den = doubling := by
  have hquotient : num / den < 2 ^ (53 + doubling) := by
    rw [Nat.div_lt_iff_lt_mul hden, Nat.pow_add]
    exact hupper
  have hlog : (num / den).log2 < 53 + doubling := by
    by_cases hzero : num / den = 0
    · rw [hzero]
      have : Nat.log2 0 = 0 := by decide
      omega
    · exact (Nat.log2_lt hzero).mpr hquotient
  rcases hlower with rfl | hlower
  · unfold doublingOf
    omega
  · have hge : 2 ^ (52 + doubling) ≤ num / den := by
      rw [Nat.le_div_iff_mul_le hden, Nat.pow_add]
      exact hlower
    have hne : num / den ≠ 0 := by
      have := Nat.two_pow_pos (52 + doubling)
      omega
    have hself : 52 + doubling ≤ (num / den).log2 := (Nat.le_log2 hne).mpr hge
    unfold doublingOf
    omega

theorem nearestRank_of_doubling {num den doubling digits : ℕ} (hden : 0 < den)
    (hlower : doubling = 0 ∨ ranksPerDoubling * (den * powerOfTwo doubling) ≤ num)
    (hupper : num < 2 * ranksPerDoubling * (den * powerOfTwo doubling))
    (hlow : 2 * (digits * (den * powerOfTwo doubling)) < 2 * num + den * powerOfTwo doubling)
    (hhigh : 2 * num < 2 * (digits * (den * powerOfTwo doubling)) + den * powerOfTwo doubling) :
    nearestRank num den = doubling * ranksPerDoubling + digits := by
  have hcomm : den * powerOfTwo doubling = powerOfTwo doubling * den := Nat.mul_comm ..
  have heq : doublingOf num den = doubling := by
    rw [hcomm, ← Nat.mul_assoc] at hlower hupper
    exact doublingOf_eq hden hlower hupper
  rw [nearestRank_eq, heq, roundHalfEven_of_near hlow hhigh]

theorem unitsOfRank_mul_eq {rank doubling digits : ℕ}
    (hunits : unitsOfRank rank = digits * powerOfTwo doubling) (den : ℕ) :
    unitsOfRank rank * den = digits * (den * powerOfTwo doubling) := by
  rw [hunits, Nat.mul_assoc, Nat.mul_comm den]

theorem nearestRank_unitsOfRank (rank : ℕ) {den : ℕ} (hden : 0 < den) :
    nearestRank (unitsOfRank rank * den) den = rank := by
  obtain ⟨doubling, digits, hrank, hunits, hdigits, hlarge⟩ := exists_digits rank
  have hstep : 0 < den * powerOfTwo doubling := Nat.mul_pos hden (powerOfTwo_pos doubling)
  have hlower : doubling = 0 ∨ ranksPerDoubling * (den * powerOfTwo doubling) ≤
      digits * (den * powerOfTwo doubling) := hlarge.imp_right (Nat.mul_le_mul_right _)
  have hupper := Nat.mul_lt_mul_of_pos_right hdigits hstep
  rw [unitsOfRank_mul_eq hunits, hrank]
  exact nearestRank_of_doubling hden hlower hupper (by omega) (by omega)

/-- What lies nearer to a magnitude than half a step is rounded to it.  Steps are no shorter than
the magnitude divided by `2 ^ 53`. -/
theorem nearestRank_of_near {rank num den : ℕ}
    (hlow : unitsOfRank rank * den * 2 ^ 54 < num * 2 ^ 54 + unitsOfRank rank * den)
    (hhigh : num * 2 ^ 54 < unitsOfRank rank * den * 2 ^ 54 + unitsOfRank rank * den) :
    nearestRank num den = rank := by
  obtain ⟨doubling, digits, hrank, hunits, hdigits, hlarge⟩ := exists_digits rank
  have hden : 0 < den := by
    by_contra hzero
    obtain rfl : den = 0 := by omega
    omega
  rw [unitsOfRank_mul_eq hunits] at hlow hhigh
  change digits < 2 ^ 53 at hdigits
  have hnext : (digits + 1) * (den * powerOfTwo doubling) ≤
      2 ^ 53 * (den * powerOfTwo doubling) := Nat.mul_le_mul_right _ hdigits
  rw [Nat.add_mul, Nat.one_mul] at hnext
  by_cases hsame : doubling = 0 ∨ 2 ^ 52 * (den * powerOfTwo doubling) ≤ num
  · have hupper : num < 2 ^ 53 * (den * powerOfTwo doubling) := by omega
    rw [hrank]
    exact nearestRank_of_doubling hden hsame hupper (by omega) (by omega)
  · -- Below a power of two the steps are half as long.
    rw [not_or] at hsame
    obtain ⟨lower, rfl⟩ := Nat.exists_eq_add_one_of_ne_zero hsame.1
    have hdouble : den * powerOfTwo (lower + 1) = 2 * (den * powerOfTwo lower) := by
      rw [powerOfTwo_eq, powerOfTwo_eq, Nat.pow_succ]
      ring
    have hfirst : digits = 2 ^ 52 := by
      by_contra hne
      have hlarge : 2 ^ 52 ≤ digits := hlarge.resolve_left hsame.1
      have hmore : (2 ^ 52 + 1) * (den * powerOfTwo (lower + 1)) ≤
          digits * (den * powerOfTwo (lower + 1)) := Nat.mul_le_mul_right _ (by omega)
      rw [Nat.add_mul, Nat.one_mul] at hmore
      omega
    subst hfirst
    rw [hdouble] at hlow hhigh hsame
    have hlower : 2 ^ 52 * (den * powerOfTwo lower) ≤ num := by omega
    have hupper : num < 2 ^ 53 * (den * powerOfTwo lower) := by omega
    have hranks : (lower + 1) * ranksPerDoubling + 2 ^ 52 =
        lower * ranksPerDoubling + 2 ^ 53 := by
      rw [Nat.add_mul, Nat.one_mul, Nat.add_assoc]
      rfl
    rw [hrank, hranks]
    exact nearestRank_of_doubling hden (.inr hlower) hupper (by omega) (by omega)

theorem le_of_unitsOfRank_le {rank rank' : ℕ} (hle : unitsOfRank rank ≤ unitsOfRank rank') :
    rank ≤ rank' := by
  have hmono : nearestRank (unitsOfRank rank * 1) 1 ≤ nearestRank (unitsOfRank rank' * 1) 1 :=
    nearestRank_mono Nat.one_pos Nat.one_pos (by simpa using hle)
  rwa [nearestRank_unitsOfRank rank Nat.one_pos, nearestRank_unitsOfRank rank' Nat.one_pos]
    at hmono

/-- Ranks are places in the increasing list of magnitudes. -/
theorem unitsOfRank_strictMono : StrictMono unitsOfRank := by
  intro rank rank' hlt
  by_contra hle
  have := le_of_unitsOfRank_le (Nat.not_lt.mp hle)
  omega

end ThroughputPlot
