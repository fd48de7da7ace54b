import ThroughputPlot.Binary64.Layout
import ThroughputPlot.Proofs.NumberTexts

/-!
# Written numbers

Each layout writes every finite number as a number text that reads as the same number.  The digits
of the text are those of the shortest decimal, with the zeros at its end cut off or put back, so
its value is the value of that decimal.
-/

namespace ThroughputPlot

/-! ## Zeros around digits -/

theorem natOfDigits_append (digits more : List Char) :
    natOfDigits (digits ++ more) = 10 ^ more.length * natOfDigits digits + natOfDigits more := by
  rw [natOfDigits_eq_ofDigitChars, natOfDigits_eq_ofDigitChars, natOfDigits_eq_ofDigitChars,
    Nat.ofDigitChars_append, Nat.ofDigitChars_eq_ofDigitChars_zero]

theorem natOfDigits_replicate_zero (count : ℕ) : natOfDigits (List.replicate count '0') = 0 := by
  rw [natOfDigits_eq_ofDigitChars, Nat.ofDigitChars_replicate_zero, Nat.mul_zero]

theorem natOfDigits_append_zeros (digits : List Char) (count : ℕ) :
    natOfDigits (digits ++ List.replicate count '0') = natOfDigits digits * 10 ^ count := by
  rw [natOfDigits_append, natOfDigits_replicate_zero, List.length_replicate, Nat.mul_comm,
    Nat.add_zero]

theorem natOfDigits_zeros_append (digits : List Char) (count : ℕ) :
    natOfDigits (List.replicate count '0' ++ digits) = natOfDigits digits := by
  rw [natOfDigits_append, natOfDigits_replicate_zero, Nat.mul_zero, Nat.zero_add]

theorem exists_trimZeros (digits : List Char) :
    ∃ zeros, digits = trimZeros digits ++ List.replicate zeros '0' := by
  have hzeros : ∀ c ∈ digits.reverse.takeWhile (· = '0'), c = '0' := fun c hc =>
    of_decide_eq_true (List.all_eq_true.mp List.all_takeWhile c hc)
  refine ⟨(digits.reverse.takeWhile (· = '0')).length, ?_⟩
  calc
    digits = digits.reverse.reverse := (List.reverse_reverse digits).symm
    _ = (digits.reverse.takeWhile (· = '0') ++ digits.reverse.dropWhile (· = '0')).reverse := by
      rw [List.takeWhile_append_dropWhile]
    _ = trimZeros digits ++ (digits.reverse.takeWhile (· = '0')).reverse := List.reverse_append
    _ = _ := by rw [List.eq_replicate_of_mem hzeros, List.reverse_replicate, List.length_replicate]

/-- Digits with no zero before them. -/
structure Significand (digits : List Char) : Prop where
  ne_nil : digits ≠ []
  isDigit : ∀ c ∈ digits, c.isDigit = true
  head?_ne : digits.head? ≠ some '0'

theorem significand_trimZeros {n : ℕ} (hn : 0 < n) :
    Significand (trimZeros (Nat.toDigits 10 n)) := by
  have hhead := Text.head?_toDigits_ne hn
  have hne := (Text.isNumeral_toDigits n).ne_nil
  obtain ⟨zeros, hdigits⟩ := exists_trimZeros (Nat.toDigits 10 n)
  have hsome : trimZeros (Nat.toDigits 10 n) ≠ [] := by
    intro hempty
    rw [hdigits, hempty, List.nil_append] at hhead hne
    cases zeros with
    | zero => exact hne rfl
    | succ zeros => exact hhead rfl
  refine ⟨hsome, ?_, ?_⟩
  · intro c hc
    refine Text.isDigit_of_mem_toDigits (n := n) ?_
    rw [hdigits]
    exact List.mem_append_left _ hc
  · rw [hdigits, List.head?_append_of_ne_nil _ hsome] at hhead
    exact hhead

/-! ## Forms -/

/-- A text that stands for a value without its sign. -/
def Spells (negative : Bool) (text : List Char) (value : ℚ) : Prop :=
  ∃ n : NumberText, n.negative = negative ∧ n.whole ++ (n.fraction ++ n.ending) = text ∧
    n.value = value

variable (negative : Bool) {digits : List Char}

theorem isDigit_zeros (count : ℕ) : ∀ c ∈ List.replicate count '0', c.isDigit = true := by
  intro c hc
  obtain rfl := List.eq_of_mem_replicate hc
  rfl

theorem isDigit_append {more : List Char} (hdigits : ∀ c ∈ digits, c.isDigit = true)
    (hmore : ∀ c ∈ more, c.isDigit = true) : ∀ c ∈ digits ++ more, c.isDigit = true :=
  fun c hc => (List.mem_append.mp hc).elim (hdigits c) (hmore c)

theorem value_append_zeros (digits : List Char) (zeros : ℕ) (last : ℤ) :
    (natOfDigits (digits ++ List.replicate zeros '0') : ℚ) * 10 ^ last =
      natOfDigits digits * 10 ^ (zeros + last) := by
  rw [natOfDigits_append_zeros, zpow_add₀ (by norm_num), zpow_natCast]
  push_cast
  ring

/-- Zeros stand between the point and the digits. -/
theorem spells_behind_point (hdigits : Significand digits) (zeros : ℕ) :
    Spells negative ('0' :: '.' :: (List.replicate zeros '0' ++ digits))
      (natOfDigits digits * 10 ^ (-(zeros + digits.length : ℤ))) := by
  have hpart := isDigit_append (isDigit_zeros zeros) hdigits.isDigit
  refine ⟨⟨negative, ['0'], _, none, by simp, isDigit_zeros 1, hpart, fun _ => rfl⟩, rfl, ?_, ?_⟩
  · simp [NumberText.fraction, NumberText.ending, hdigits.ne_nil]
  · have hvalue : natOfDigits (['0'] ++ (List.replicate zeros '0' ++ digits)) =
        natOfDigits digits := natOfDigits_zeros_append digits (zeros + 1)
    have hlength : (0 : ℤ) - (List.replicate zeros '0' ++ digits).length =
        -(zeros + digits.length) := by
      rw [List.length_append, List.length_replicate]
      omega
    rw [NumberText.value, hvalue, ← hlength]
    rfl

/-- Zeros stand between the digits and the point, if the point is written at all. -/
theorem spells_whole (hdigits : Significand digits) (zeros : ℕ) (keepsPoint : Bool) :
    Spells negative
      (digits ++ List.replicate zeros '0' ++ (if keepsPoint then ['.', '0'] else []))
      (natOfDigits digits * 10 ^ (zeros : ℤ)) := by
  have hwhole := isDigit_append hdigits.isDigit (isDigit_zeros zeros)
  have hhead : (digits ++ List.replicate zeros '0').head? = some '0' →
      digits ++ List.replicate zeros '0' = ['0'] := by
    rw [List.head?_append_of_ne_nil _ hdigits.ne_nil]
    exact fun hzero => absurd hzero hdigits.head?_ne
  refine ⟨⟨negative, digits ++ List.replicate zeros '0', List.replicate keepsPoint.toNat '0',
    none, by simp [hdigits.ne_nil], hwhole, isDigit_zeros _, hhead⟩, rfl, ?_, ?_⟩
  · cases keepsPoint with
    | false => rfl
    | true => rfl
  · have hlast : ((zeros + keepsPoint.toNat : ℕ) : ℤ) +
        (0 - (List.replicate keepsPoint.toNat '0').length) = zeros := by
      rw [List.length_replicate]
      omega
    rw [NumberText.value, NumberText.lastExponent, List.append_assoc,
      List.replicate_append_replicate]
    exact (value_append_zeros digits _ _).trans (by rw [← hlast]; rfl)

/-- The point stands between two digits, perhaps before an exponent. -/
theorem spells_split (hdigits : Significand digits) {places : ℕ} (hplaces : 0 < places)
    (exponent : Option ExponentText) :
    Spells negative
      (digits.take places ++ ((if places < digits.length then '.' :: digits.drop places else []) ++
        exponent.elim [] ExponentText.text))
      (natOfDigits digits *
        10 ^ (exponent.elim 0 ExponentText.value - (digits.length - places : ℕ))) := by
  have hwhole : digits.take places ≠ [] := by
    simp [hdigits.ne_nil, hplaces.ne']
  have hhead : (digits.take places).head? = some '0' → digits.take places = ['0'] := by
    rw [List.head?_take, if_neg hplaces.ne']
    exact fun hzero => absurd hzero hdigits.head?_ne
  refine ⟨⟨negative, digits.take places, digits.drop places, exponent, hwhole,
    fun c hc => hdigits.isDigit c (List.mem_of_mem_take hc),
    fun c hc => hdigits.isDigit c (List.mem_of_mem_drop hc), hhead⟩, rfl, ?_, ?_⟩
  · by_cases hmore : places < digits.length
    · simp [NumberText.fraction, NumberText.ending, hmore, Nat.not_le.mpr hmore]
    · simp [NumberText.fraction, NumberText.ending, hmore, Nat.not_lt.mp hmore]
  · rw [NumberText.value, List.take_append_drop, ← List.length_drop]
    rfl

/-- What a text reads as depends on the value that it stands for. -/
theorem exists_numberText_of_spells {text : List Char} {digits : ℕ} {exponent : ℤ}
    (htext : Spells negative text (digits * 10 ^ exponent)) :
    ∃ n : NumberText, (if negative then ['-'] else []) ++ text = n.text ∧
      Binary64.ofLiteral? n.text = some (.ofDecimal negative digits exponent) := by
  obtain ⟨n, rfl, rfl, hvalue⟩ := htext
  refine ⟨n, rfl, ?_⟩
  rw [n.ofLiteral?_text, Binary64.ofDecimal_congr n.negative hvalue]

/-! ## Layouts -/

namespace NumberLayout

variable (layout : NumberLayout)

theorem spells_plain (hdigits : Significand digits) (exponent : ℤ) :
    Spells negative (layout.plain digits exponent)
      (natOfDigits digits * 10 ^ (exponent + 1 - digits.length)) := by
  unfold plain
  split
  next hneg =>
    have hlast : exponent + 1 - digits.length =
        -((-exponent - 1).toNat + digits.length : ℤ) := by omega
    rw [hlast]
    exact spells_behind_point negative hdigits _
  next hneg =>
    dsimp only
    split
    next hlong =>
      have hlast : exponent + 1 - digits.length =
          (exponent.toNat + 1 - digits.length : ℕ) := by omega
      rw [hlast]
      exact spells_whole negative hdigits _ _
    next hshort =>
      have hlast : exponent + 1 - digits.length =
          0 - (digits.length - (exponent.toNat + 1) : ℕ) := by omega
      have hsplit := spells_split negative hdigits (Nat.succ_pos exponent.toNat) none
      rw [if_pos (Nat.not_le.mp hshort)] at hsplit
      rw [hlast]
      simpa using hsplit

/-- An exponent with the sign that a layout gives it. -/
def exponentText (exponent : ℤ) : ExponentText where
  sign := if exponent < 0 then some true else if layout.plusExponent then some false else none
  digits := Nat.toDigits 10 exponent.natAbs
  digits_ne := (Text.isNumeral_toDigits _).ne_nil
  isDigit := (Text.isNumeral_toDigits _).isDigit

theorem value_exponentText (exponent : ℤ) : (layout.exponentText exponent).value = exponent := by
  have hdigits := (Text.isNumeral_toDigits exponent.natAbs).natOfDigits_eq
  unfold ExponentText.value exponentText
  dsimp only
  rw [hdigits]
  by_cases hneg : exponent < 0
  · rw [if_pos hneg, Option.getD_some, Binary64.withSign, if_pos rfl]
    omega
  · have hsign : (if layout.plusExponent then some false else none : Option Bool).getD false =
        false := by
      cases layout.plusExponent with
      | false => rfl
      | true => rfl
    rw [if_neg hneg, hsign, Binary64.withSign, if_neg Bool.false_ne_true]
    omega

theorem scientific_eq (hdigits : Significand digits) (exponent : ℤ) :
    layout.scientific digits exponent =
      digits.take 1 ++ ((if 1 < digits.length then '.' :: digits.drop 1 else []) ++
        (layout.exponentText exponent).text) := by
  have hsign : signText (layout.exponentText exponent).sign =
      if exponent < 0 then ['-'] else if layout.plusExponent then ['+'] else [] := by
    unfold exponentText signText
    dsimp only
    split_ifs <;> rfl
  unfold scientific ExponentText.text
  rw [hsign]
  cases digits with
  | nil => exact absurd rfl hdigits.ne_nil
  | cons c more =>
      cases more with
      | nil => rfl
      | cons d more => simp [exponentText]

theorem spells_scientific (hdigits : Significand digits) (exponent : ℤ) :
    Spells negative (layout.scientific digits exponent)
      (natOfDigits digits * 10 ^ (exponent + 1 - digits.length)) := by
  have hpos : 0 < digits.length := List.length_pos_of_ne_nil hdigits.ne_nil
  have hlast : exponent + 1 - digits.length = exponent - (digits.length - 1 : ℕ) := by omega
  have hsplit := spells_split negative hdigits Nat.one_pos (some (layout.exponentText exponent))
  rw [Option.elim_some, Option.elim_some, value_exponentText] at hsplit
  rw [hlast, scientific_eq layout hdigits]
  exact hsplit

/-- All that a layout decides leaves the value of the digits as it is. -/
theorem spells_magnitude {m : Magnitude} (hm : 0 < m.rank) :
    Spells negative (layout.magnitude m)
      ((m.shortest layout.tie).digits * 10 ^ (m.shortest layout.tie).exponent) := by
  have hpos := Binary64.digits_pos_of_isReadBack hm (m.isReadBack_shortest hm layout.tie)
  unfold magnitude
  rw [if_neg hm.ne']
  dsimp only
  generalize m.shortest layout.tie = d at hpos ⊢
  have hdigits := significand_trimZeros hpos
  obtain ⟨zeros, hall⟩ := exists_trimZeros (Nat.toDigits 10 d.digits)
  generalize trimZeros (Nat.toDigits 10 d.digits) = trimmed at hdigits hall ⊢
  have hvalue : natOfDigits (trimmed ++ List.replicate zeros '0') = d.digits := by
    rw [← hall]
    exact (Text.isNumeral_toDigits d.digits).natOfDigits_eq
  have hlength := congrArg List.length hall
  rw [List.length_append, List.length_replicate] at hlength
  have hexponent : zeros + d.exponent =
      d.exponent + (Nat.toDigits 10 d.digits).length - 1 + 1 - trimmed.length := by omega
  have hlast := value_append_zeros trimmed zeros d.exponent
  rw [hvalue, hexponent] at hlast
  rw [hlast]
  split
  next => exact spells_plain negative layout hdigits _
  next => exact spells_scientific negative layout hdigits _

theorem spells_zero : Spells negative (layout.plain ['0'] 0) ((0 : ℕ) * 10 ^ (0 : ℤ)) := by
  have hhead : ['0'].head? = some '0' → ['0'] = ['0'] := fun _ => rfl
  refine ⟨⟨negative, ['0'], List.replicate layout.keepsPoint.toNat '0', none, by simp,
    isDigit_zeros 1, isDigit_zeros _, hhead⟩, rfl, ?_, ?_⟩
  · unfold plain
    cases layout.keepsPoint with
    | false => rfl
    | true => rfl
  · cases layout.keepsPoint with
    | false => simp [NumberText.value, natOfDigits]
    | true => simp [NumberText.value, natOfDigits]

/-- A finite number is written as a text of JSON that reads as the same number. -/
theorem exists_numberText (m : Magnitude) :
    ∃ n : NumberText, (layout.write (.finite negative m)).toList = n.text ∧
      Binary64.ofLiteral? n.text = some (.finite negative m) := by
  rw [write, String.toList_ofList]
  rcases Nat.eq_zero_or_pos m.rank with hzero | hpos
  · have hm : m = .zero := by
      obtain ⟨rank, hrank⟩ := m
      obtain rfl : rank = 0 := hzero
      rfl
    have htext := exists_numberText_of_spells negative (layout.spells_zero negative)
    rw [Binary64.ofDecimal_zero] at htext
    rw [magnitude, if_pos hzero, hm]
    exact htext
  · have htext := exists_numberText_of_spells negative (layout.spells_magnitude negative hpos)
    rwa [Binary64.ofDecimal_of_isReadBack (m.isReadBack_shortest hpos layout.tie)] at htext

end NumberLayout

end ThroughputPlot
