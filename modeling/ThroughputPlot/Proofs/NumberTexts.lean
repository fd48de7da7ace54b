import ThroughputPlot.Json.Reader
import ThroughputPlot.Proofs.Literals
import ThroughputPlot.Proofs.Numerals
import ThroughputPlot.Proofs.ShortestDecimals

/-!
# Number texts

The numbers of JSON are literals too.  A number text has a sign or none, digits before a point,
perhaps digits behind one, and perhaps an exponent; no zero stands before other digits.  The JSON
reader takes all of such a text and nothing behind it, and as a literal the text reads as the number
nearest to its value.
-/

namespace ThroughputPlot

/-! ## Digits -/

theorem natOfDigits_lt {digits : List Char} (hdigits : ∀ c ∈ digits, c.isDigit = true) :
    natOfDigits digits < powerOfTen digits.length := by
  induction digits using List.reverseRecOn with
  | nil => decide
  | append_singleton digits c ih =>
      have hfront := ih fun d hd => hdigits d (List.mem_append_left [c] hd)
      have hdigit := (Text.toDigits_digit (hdigits c (by simp))).1
      have hpower : powerOfTen (digits.length + 1) = powerOfTen digits.length * 10 :=
        powerOfTen_add digits.length 1
      rw [natOfDigits_append_singleton, List.length_append, List.length_singleton, hpower]
      omega

theorem takeDigits_append {digits rest : List Char} (hdigits : ∀ c ∈ digits, c.isDigit = true)
    (hrest : ∀ c ∈ rest.head?, c.isDigit = false) :
    takeDigits (digits ++ rest) = (digits, rest) := by
  unfold takeDigits
  rw [List.takeWhile_append_of_pos hdigits, List.dropWhile_append_of_pos hdigits]
  cases rest with
  | nil => simp
  | cons c rest =>
      have hc := hrest c rfl
      rw [List.takeWhile_cons_of_neg (by simp [hc]), List.dropWhile_cons_of_neg (by simp [hc]),
        List.append_nil]

/-! ## The form of a number -/

def signText : Option Bool → List Char
  | none => []
  | some false => ['+']
  | some true => ['-']

structure ExponentText where
  /-- Whether the exponent is negative, where it has a sign. -/
  sign : Option Bool
  digits : List Char
  digits_ne : digits ≠ []
  isDigit : ∀ c ∈ digits, c.isDigit = true

namespace ExponentText

def text (e : ExponentText) : List Char := 'e' :: (signText e.sign ++ e.digits)

def value (e : ExponentText) : ℤ := Binary64.withSign (e.sign.getD false) (natOfDigits e.digits)

end ExponentText

structure NumberText where
  negative : Bool
  whole : List Char
  /-- The digits behind the point, which stands only before such digits. -/
  part : List Char
  exponent : Option ExponentText
  whole_ne : whole ≠ []
  isDigit_whole : ∀ c ∈ whole, c.isDigit = true
  isDigit_part : ∀ c ∈ part, c.isDigit = true
  noLeadingZero : whole.head? = some '0' → whole = ['0']

namespace NumberText

def sign (n : NumberText) : List Char := if n.negative then ['-'] else []

def fraction (n : NumberText) : List Char := if n.part = [] then [] else '.' :: n.part

def ending (n : NumberText) : List Char := n.exponent.elim [] ExponentText.text

def text (n : NumberText) : List Char := n.sign ++ (n.whole ++ (n.fraction ++ n.ending))

/-- The exponent of the last digit. -/
def lastExponent (n : NumberText) : ℤ := n.exponent.elim 0 ExponentText.value - n.part.length

/-- The number without its sign. -/
def value (n : NumberText) : ℚ := natOfDigits (n.whole ++ n.part) * 10 ^ n.lastExponent

/-! ## What may follow -/

/-- A text that adds nothing to a number before it. -/
def EndsNumber (rest : List Char) : Prop :=
  ∀ c ∈ rest.head?, c.isDigit = false ∧ c ≠ '.' ∧ c ≠ 'e' ∧ c ≠ 'E'

theorem endsNumber_nil : EndsNumber [] := nofun

variable (n : NumberText) {rest : List Char}

theorem head?_ending_append (hrest : EndsNumber rest) :
    ∀ c ∈ (n.ending ++ rest).head?, c.isDigit = false ∧ c ≠ '.' := by
  unfold ending
  cases n.exponent with
  | none =>
      intro c hc
      obtain ⟨hdigit, hpoint, -, -⟩ := hrest c hc
      exact ⟨hdigit, hpoint⟩
  | some e =>
      rintro c ⟨⟩
      decide

theorem head?_fraction_append (hrest : EndsNumber rest) :
    ∀ c ∈ (n.fraction ++ (n.ending ++ rest)).head?, c.isDigit = false := by
  unfold fraction
  split
  next => exact fun c hc => (n.head?_ending_append hrest c hc).1
  next =>
    rintro c ⟨⟩
    decide

theorem takeDigits_text (hrest : EndsNumber rest) :
    takeDigits (n.whole ++ (n.fraction ++ (n.ending ++ rest))) =
      (n.whole, n.fraction ++ (n.ending ++ rest)) :=
  takeDigits_append n.isDigit_whole (n.head?_fraction_append hrest)

theorem takeDigits_part (hrest : EndsNumber rest) :
    takeDigits (n.part ++ (n.ending ++ rest)) = (n.part, n.ending ++ rest) :=
  takeDigits_append n.isDigit_part fun c hc => (n.head?_ending_append hrest c hc).1

/-! ## Literals -/

theorem takeFraction_text (hrest : EndsNumber rest) :
    Binary64.takeFraction (n.fraction ++ (n.ending ++ rest)) = (n.part, n.ending ++ rest) := by
  unfold fraction
  split
  next hpart =>
    have hpoint := n.head?_ending_append hrest
    rw [hpart, List.nil_append]
    unfold Binary64.takeFraction
    split
    next heq =>
      rw [heq] at hpoint
      exact absurd rfl (hpoint '.' rfl).2
    next => rfl
  next => exact n.takeDigits_part hrest

theorem takeSign_exponent (e : ExponentText) :
    takeSign (signText e.sign ++ e.digits) = (e.sign.getD false, e.digits) := by
  cases e.sign with
  | none => exact Text.takeSign_of_isDigit e.isDigit
  | some negative =>
      cases negative with
      | false => rfl
      | true => rfl

theorem exponent?_ending :
    Binary64.exponent? n.ending = some (n.exponent.elim 0 ExponentText.value) := by
  unfold ending
  cases n.exponent with
  | none => rfl
  | some e =>
      have hdigits : (e.digits.isEmpty || !e.digits.all Char.isDigit) = false := by
        simpa [e.digits_ne] using e.isDigit
      change Binary64.exponent? ('e' :: (signText e.sign ++ e.digits)) = _
      rw [Binary64.exponent?, if_pos (by decide), takeSign_exponent]
      dsimp only
      rw [hdigits]
      rfl

theorem exists_first_digit : ∃ c digits, n.whole = c :: digits ∧ c.isDigit = true := by
  obtain ⟨c, digits, hwhole⟩ := List.exists_cons_of_ne_nil n.whole_ne
  exact ⟨c, digits, hwhole, n.isDigit_whole c (by simp [hwhole])⟩

theorem takeSign_text : takeSign n.text = (n.negative, n.whole ++ (n.fraction ++ n.ending)) := by
  unfold text sign
  split
  next hnegative =>
    rw [hnegative]
    rfl
  next hnegative =>
    obtain ⟨c, digits, hwhole, hdigit⟩ := n.exists_first_digit
    have hplus : c ≠ '+' := Text.ne_of_class hdigit (by decide)
    have hminus : c ≠ '-' := Text.ne_of_class hdigit (by decide)
    rw [hwhole, Bool.eq_false_iff.mpr hnegative]
    simp [takeSign, hplus, hminus]

theorem toLower_of_isDigit {c : Char} (hc : c.isDigit = true) : c.toLower = c := by
  have hbounds : 48 ≤ c.toNat ∧ c.toNat ≤ 57 := by
    simpa [Char.isDigit, UInt32.le_iff_toNat_le] using hc
  unfold Char.toLower
  rw [dif_neg]
  rintro ⟨hupper, -⟩
  have hupper : 65 ≤ c.toNat := hupper
  omega

/-- A text that starts with a digit is none of the words. -/
theorem map_toLower_ne {c first : Char} (hc : c.isDigit = true) (hfirst : first.isDigit = false)
    (text word : List Char) : (c :: text).map Char.toLower ≠ first :: word := by
  intro heq
  rw [List.map_cons, toLower_of_isDigit hc] at heq
  exact Text.ne_of_class hc hfirst (List.cons.inj heq).1

/-- A number text is read as the number nearest to its value. -/
theorem ofLiteral?_text : Binary64.ofLiteral? n.text =
    some (.ofDecimal n.negative (natOfDigits (n.whole ++ n.part)) n.lastExponent) := by
  have htaken := n.takeDigits_text endsNumber_nil
  have hfraction := n.takeFraction_text endsNumber_nil
  rw [List.append_nil] at htaken hfraction
  obtain ⟨c, digits, hwhole, hc⟩ := n.exists_first_digit
  have hword : ∀ first word, first.isDigit = false →
      (n.whole ++ (n.fraction ++ n.ending)).map Char.toLower ≠ first :: word := by
    intro first word hfirst
    rw [hwhole]
    exact map_toLower_ne hc hfirst _ word
  have hne : (n.whole.isEmpty && n.part.isEmpty) = false := by simp [n.whole_ne]
  have hdigits : ∀ d ∈ n.whole ++ n.part, d.isDigit = true := by
    intro d hd
    exact (List.mem_append.mp hd).elim (n.isDigit_whole d) (n.isDigit_part d)
  rw [Binary64.ofLiteral?, takeSign_text]
  dsimp only
  rw [Binary64.unsigned?_of_not_word n.negative (hword _ _ rfl) (hword _ _ rfl) (hword _ _ rfl)
    htaken hfraction, hne, exponent?_ending]
  change some (Binary64.ofNumeral _ _ _ _) = _
  rw [Binary64.ofNumeral_eq_ofDecimal n.negative (natOfDigits_lt hdigits)]
  rfl

/-! ## JSON -/

theorem readDigits_append {digits rest : List Char} (hne : digits ≠ [])
    (hdigits : ∀ c ∈ digits, c.isDigit = true) (hrest : ∀ c ∈ rest.head?, c.isDigit = false) :
    Json.readDigits (digits ++ rest) = some (digits, rest) := by
  have hempty : digits.isEmpty = false := by simpa using hne
  rw [Json.readDigits, takeDigits_append hdigits hrest]
  dsimp only
  rw [hempty]
  rfl

theorem readWhole_text (hrest : EndsNumber rest) :
    Json.readWhole (n.whole ++ (n.fraction ++ (n.ending ++ rest))) =
      some (n.whole, n.fraction ++ (n.ending ++ rest)) := by
  unfold Json.readWhole
  split
  next more heq =>
    obtain ⟨c, digits, hwhole, -⟩ := n.exists_first_digit
    have hzero : n.whole = ['0'] := by
      apply n.noLeadingZero
      rw [hwhole, List.cons_append] at heq
      rw [hwhole, (List.cons.inj heq).1]
      rfl
    rw [hzero] at heq ⊢
    rw [← (List.cons.inj heq).2]
    rfl
  next => exact readDigits_append n.whole_ne n.isDigit_whole (n.head?_fraction_append hrest)

theorem readFraction_text (hrest : EndsNumber rest) :
    Json.readFraction (n.fraction ++ (n.ending ++ rest)) =
      some (n.fraction, n.ending ++ rest) := by
  unfold fraction
  split
  next hpart =>
    have hpoint := n.head?_ending_append hrest
    rw [List.nil_append]
    unfold Json.readFraction
    split
    next heq =>
      rw [heq] at hpoint
      exact absurd rfl (hpoint '.' rfl).2
    next => rfl
  next hpart =>
    change (Json.readDigits (n.part ++ (n.ending ++ rest))).map _ = _
    rw [readDigits_append hpart n.isDigit_part fun c hc => (n.head?_ending_append hrest c hc).1]
    rfl

theorem readExponent_text (hrest : EndsNumber rest) :
    Json.readExponent (n.ending ++ rest) = some (n.ending, rest) := by
  unfold ending
  cases n.exponent with
  | none =>
      cases rest with
      | nil => rfl
      | cons c rest =>
          obtain ⟨-, -, he, hE⟩ := hrest c rfl
          simp [Json.readExponent, he, hE]
  | some e =>
      have hdigits : Json.readDigits (e.digits ++ rest) = some (e.digits, rest) :=
        readDigits_append e.digits_ne e.isDigit fun c hc => (hrest c hc).1
      rw [Option.elim_some, ExponentText.text]
      cases e.sign with
      | none =>
          obtain ⟨c, digits, heq⟩ := List.exists_cons_of_ne_nil e.digits_ne
          have hc : c.isDigit = true := e.isDigit c (by simp [heq])
          have hplus : c ≠ '+' := Text.ne_of_class hc (by decide)
          have hminus : c ≠ '-' := Text.ne_of_class hc (by decide)
          rw [heq] at hdigits ⊢
          simp only [List.cons_append] at hdigits
          simp [Json.readExponent, signText, hplus, hminus, hdigits]
      | some negative =>
          cases negative with
          | false => simp [Json.readExponent, signText, hdigits]
          | true => simp [Json.readExponent, signText, hdigits]

theorem readNumber_text (hrest : EndsNumber rest) :
    Json.readNumber (n.text ++ rest) = some (n.text, rest) := by
  have hwhole := n.readWhole_text hrest
  have hfraction := n.readFraction_text hrest
  have hexponent := n.readExponent_text hrest
  unfold Json.readNumber text sign
  cases n.negative with
  | true => simp [hwhole, hfraction, hexponent]
  | false =>
      obtain ⟨c, digits, heq, hc⟩ := n.exists_first_digit
      have hminus : c ≠ '-' := Text.ne_of_class hc (by decide)
      rw [heq] at hwhole ⊢
      simp only [List.cons_append] at hwhole
      simp [hminus, hwhole, hfraction, hexponent]

/-- The digits of a natural number are a number text. -/
theorem exists_text_eq_toDigits (k : ℕ) : ∃ n : NumberText, n.text = Nat.toDigits 10 k := by
  have hdigits := Text.isNumeral_toDigits k
  have hzero : (Nat.toDigits 10 k).head? = some '0' → Nat.toDigits 10 k = ['0'] := by
    intro hhead
    rcases Nat.eq_zero_or_pos k with rfl | hpos
    · rfl
    · exact absurd hhead (Text.head?_toDigits_ne hpos)
  refine ⟨⟨false, Nat.toDigits 10 k, [], none, hdigits.ne_nil, hdigits.isDigit, nofun, hzero⟩, ?_⟩
  exact List.append_nil _

end NumberText

end ThroughputPlot
