import ThroughputPlot.Label
import ThroughputPlot.Text.Integer
import Mathlib.Tactic

/-!
# Numerals

A number has one numeral in ordinary decimal, but more texts are read as that number: zeros may
stand before its digits, and a plus sign before those.  The theory below says that these are all.
A number with a sign is read back from its decimal text.
-/

namespace ThroughputPlot

theorem natOfDigits_eq_ofDigitChars (digits : List Char) :
    natOfDigits digits = Nat.ofDigitChars 10 digits 0 :=
  rfl

theorem natOfDigits_append_singleton (digits : List Char) (c : Char) :
    natOfDigits (digits ++ [c]) = 10 * natOfDigits digits + (c.toNat - 48) := by
  simp [natOfDigits]

namespace Text

/-- A character of a class differs from each one outside of it. -/
theorem ne_of_class {p : Char → Bool} {c d : Char} (hc : p c = true) (hd : p d = false) :
    c ≠ d := by
  rintro rfl
  rw [hc] at hd
  contradiction

/-- The decimal digits of a number, before which further zeros may stand. -/
def IsNumeral (n : ℕ) (digits : List Char) : Prop :=
  ∃ zeros, digits = List.replicate zeros '0' ++ Nat.toDigits 10 n

theorem isNumeral_toDigits (n : ℕ) : IsNumeral n (Nat.toDigits 10 n) :=
  ⟨0, rfl⟩

theorem IsNumeral.ne_nil {n : ℕ} {digits : List Char} (hdigits : IsNumeral n digits) :
    digits ≠ [] := by
  obtain ⟨zeros, rfl⟩ := hdigits
  simp

theorem IsNumeral.isDigit {n : ℕ} {digits : List Char} (hdigits : IsNumeral n digits) :
    ∀ c ∈ digits, c.isDigit = true := by
  obtain ⟨zeros, rfl⟩ := hdigits
  intro c hc
  rcases List.mem_append.mp hc with hzero | hdigit
  · obtain rfl := List.eq_of_mem_replicate hzero
    rfl
  · exact Nat.isDigit_of_mem_toDigits (by decide) (by decide) hdigit

theorem IsNumeral.natOfDigits_eq {n : ℕ} {digits : List Char} (hdigits : IsNumeral n digits) :
    natOfDigits digits = n := by
  obtain ⟨zeros, rfl⟩ := hdigits
  rw [natOfDigits_eq_ofDigitChars, Nat.ofDigitChars_append, Nat.ofDigitChars_replicate_zero,
    Nat.mul_zero, Nat.ofDigitChars_ten_toDigits]

theorem toDigits_injective : Function.Injective (Nat.toDigits 10) := by
  intro m n heq
  have hvalue := congrArg (Nat.ofDigitChars 10 · 0) heq
  simpa only [Nat.ofDigitChars_ten_toDigits] using hvalue

theorem head?_toDigits_ne {n : ℕ} (hn : 0 < n) : (Nat.toDigits 10 n).head? ≠ some '0' := by
  induction n using Nat.strongRecOn with
  | ind n ih =>
      by_cases hlt : n < 10
      · rw [Nat.toDigits_of_lt_base hlt]
        interval_cases n <;> decide
      · have hquotient : 0 < n / 10 := by omega
        have hhead := ih (n / 10) (by omega) hquotient
        rw [Nat.toDigits_of_base_le (by decide) (by omega)]
        obtain ⟨c, digits, hdigits⟩ :=
          List.exists_cons_of_ne_nil (isNumeral_toDigits (n / 10)).ne_nil
        rw [hdigits] at hhead ⊢
        simpa using hhead

theorem toDigits_digit {c : Char} (hc : c.isDigit = true) :
    c.toNat - 48 < 10 ∧ Nat.toDigits 10 (c.toNat - 48) = [c] := by
  have hbounds : 48 ≤ c.toNat ∧ c.toNat ≤ 57 := by
    simpa [Char.isDigit, UInt32.le_iff_toNat_le] using hc
  have hdigit : c.toNat - 48 < 10 := by omega
  refine ⟨hdigit, ?_⟩
  rw [Nat.toDigits_of_lt_base hdigit]
  congr 1
  apply Char.toNat_inj.mp
  rw [Nat.toNat_digitChar_of_lt_ten hdigit]
  omega

theorem IsNumeral.append_digit {n : ℕ} {digits : List Char} {c : Char}
    (hdigits : IsNumeral n digits) (hc : c.isDigit = true) :
    IsNumeral (10 * n + (c.toNat - 48)) (digits ++ [c]) := by
  obtain ⟨zeros, rfl⟩ := hdigits
  obtain ⟨hdigit, htoDigits⟩ := toDigits_digit hc
  rcases Nat.eq_zero_or_pos n with rfl | hn
  · -- The one digit of zero becomes another zero before the new digit.
    refine ⟨zeros + 1, ?_⟩
    rw [Nat.mul_zero, Nat.zero_add, htoDigits, Nat.toDigits_zero, ← List.replicate_succ']
  · refine ⟨zeros, ?_⟩
    rw [List.append_assoc, ← htoDigits, Nat.toDigits_append_toDigits (by decide) hn hdigit]

theorem isNumeral_natOfDigits {digits : List Char} (hne : digits ≠ [])
    (hdigits : ∀ c ∈ digits, c.isDigit = true) : IsNumeral (natOfDigits digits) digits := by
  induction digits using List.reverseRecOn with
  | nil => contradiction
  | append_singleton digits c ih =>
      have hc : c.isDigit = true := hdigits c (by simp)
      rw [natOfDigits_append_singleton]
      by_cases hempty : digits = []
      · subst hempty
        refine ⟨0, ?_⟩
        simpa [natOfDigits] using (toDigits_digit hc).2.symm
      · have hfront : ∀ d ∈ digits, d.isDigit = true :=
          fun d hd => hdigits d (List.mem_append_left [c] hd)
        exact (ih hempty hfront).append_digit hc

theorem natural?_eq_some_iff {digits : List Char} {n : ℕ} :
    natural? digits = some n ↔ IsNumeral n digits := by
  unfold natural?
  constructor
  · intro h
    split at h
    · contradiction
    next hall =>
      obtain ⟨hne, hdigits⟩ : digits ≠ [] ∧ ∀ c ∈ digits, c.isDigit = true := by
        simpa using hall
      obtain rfl := Option.some.inj h
      exact isNumeral_natOfDigits hne hdigits
  · intro hdigits
    have hne := hdigits.ne_nil
    have hall := hdigits.isDigit
    rw [if_neg (by simpa using ⟨hne, hall⟩), hdigits.natOfDigits_eq]

/-- A text that is read as an unsigned number. -/
def IsUnsignedNumeral (k : UInt32) (text : List Char) : Prop :=
  ∃ digits, IsNumeral k.toNat digits ∧ (text = digits ∨ text = '+' :: digits)

theorem bind_ofNat_eq_some_iff {found : Option ℕ} {k : UInt32} :
    (found.bind fun n => if n < UInt32.size then some (UInt32.ofNat n) else none) = some k ↔
      found = some k.toNat := by
  cases found with
  | none => simp
  | some n =>
      have hk : k.toNat < UInt32.size := k.toNat_lt
      simp only [Option.bind_some, Option.some.injEq]
      constructor
      · intro h
        split at h
        next hn =>
          obtain rfl := Option.some.inj h
          rw [UInt32.toNat_ofNat_of_lt' hn]
        · contradiction
      · rintro rfl
        rw [if_pos hk, UInt32.ofNat_toNat]

theorem uint32?_eq_some_iff {text : List Char} {k : UInt32} :
    uint32? text = some k ↔ IsUnsignedNumeral k text := by
  unfold uint32?
  dsimp only
  rw [bind_ofNat_eq_some_iff, natural?_eq_some_iff]
  split
  next rest =>
    constructor
    · intro hrest
      exact ⟨rest, hrest, .inr rfl⟩
    · rintro ⟨digits, hdigits, rfl | hplus⟩
      · have hsign := hdigits.isDigit '+' (List.mem_cons_self ..)
        contradiction
      · rwa [(List.cons.inj hplus).2]
  next hsign =>
    constructor
    · intro htext
      exact ⟨text, htext, .inl rfl⟩
    · rintro ⟨digits, hdigits, rfl | hplus⟩
      · exact hdigits
      · exact absurd hplus (hsign digits)

/-! ## Numbers with a sign -/

theorem isDigit_of_mem_toDigits {n : ℕ} {c : Char} (hc : c ∈ Nat.toDigits 10 n) :
    c.isDigit = true :=
  (isNumeral_toDigits n).isDigit c hc

theorem takeSign_of_isDigit {digits : List Char} (hdigits : ∀ c ∈ digits, c.isDigit = true) :
    takeSign digits = (false, digits) := by
  unfold takeSign
  split
  next => exact absurd (hdigits '+' List.mem_cons_self) (by decide)
  next => exact absurd (hdigits '-' List.mem_cons_self) (by decide)
  next => rfl

theorem toList_decimalText (n : Int64) :
    (decimalText n).toList =
      if n.toInt < 0 then '-' :: Nat.toDigits 10 n.toInt.natAbs
      else Nat.toDigits 10 n.toInt.natAbs := by
  rw [decimalText, Int.toString_eq_repr]
  cases n.toInt with
  | ofNat m =>
      rw [if_neg (by simp), Int.repr, Nat.toList_repr]
      rfl
  | negSucc m =>
      rw [if_pos (Int.negSucc_lt_zero m), Int.repr, String.toList_append, Nat.toList_repr]
      rfl

/-- Digits behind a sign are read as the number they stand for, if that is small enough. -/
theorem int64?_of_numeral {text digits : List Char} {negative : Bool} {m : ℕ} {n : Int64}
    (hsign : takeSign text = (negative, digits)) (hdigits : IsNumeral m digits)
    (hvalue : Binary64.withSign negative m = n.toInt) : int64? text = some n := by
  have hlower := n.minValue_le_toInt
  have hupper := n.toInt_le
  rw [int64?, hsign]
  dsimp only
  rw [natural?_eq_some_iff.mpr hdigits, Option.bind_some, hvalue, if_pos, Int64.ofInt_toInt]
  rw [Bool.and_eq_true, decide_eq_true_eq, decide_eq_true_eq]
  exact ⟨hlower, hupper⟩

theorem int64?_decimalText (n : Int64) : int64? (decimalText n).toList = some n := by
  have hdigits := isNumeral_toDigits n.toInt.natAbs
  rw [toList_decimalText]
  split
  next hneg =>
    have hsign : takeSign ('-' :: Nat.toDigits 10 n.toInt.natAbs) =
        (true, Nat.toDigits 10 n.toInt.natAbs) := rfl
    refine int64?_of_numeral hsign hdigits ?_
    simp only [Binary64.withSign, if_true]
    omega
  next hneg =>
    refine int64?_of_numeral (takeSign_of_isDigit hdigits.isDigit) hdigits ?_
    simp only [Binary64.withSign, Bool.false_eq_true, if_false]
    omega

end Text

end ThroughputPlot
