import ThroughputPlot.Proofs.StringPlaces

/-!
# Plain strings

Between double quotes a plain character stands for itself.  A quote ends the string and a backslash
begins an escape, which is longer than what it stands for.  So the texts that stand for themselves
are the texts of plain characters.
-/

namespace ThroughputPlot.Toml

def IsPlain (c : Char) : Prop := c ≠ '"' ∧ c ≠ '\\' ∧ isAllowed c = true

instance (c : Char) : Decidable (IsPlain c) := inferInstanceAs (Decidable (_ ∧ _ ∧ _))

/-! ## Plain texts stand for themselves -/

theorem readBasic_of_plain {text : List Char} (hplain : ∀ c ∈ text, IsPlain c) (rest : List Char) :
    readBasic (text ++ '"' :: rest) = some (text, rest) := by
  induction text with
  | nil => rfl
  | cons c text ih =>
      obtain ⟨hc, htext⟩ := List.forall_mem_cons.mp hplain
      obtain ⟨hquote, hslash, hallowed⟩ := hc
      rw [List.cons_append, readBasic_cons hquote hslash hallowed, ih htext]
      rfl

theorem readQuoted_of_head?_ne {text : List Char} (hhead : text.head? ≠ some '"') :
    readQuoted ('"' :: text) = readBasic text := by
  rw [readQuoted]
  rintro rest rfl
  exact hhead rfl

/-- An empty string is told from one between three quotes by what follows it. -/
theorem readQuoted_of_plain {text : List Char} (hplain : ∀ c ∈ text, IsPlain c) {rest : List Char}
    (hrest : rest.head? ≠ some '"') :
    readQuoted ('"' :: (text ++ '"' :: rest)) = some (text, rest) := by
  cases text with
  | nil =>
      rw [List.nil_append, readQuoted]
      · rfl
      · rintro more ⟨⟩
        exact hrest rfl
  | cons c text =>
      have hc : c ≠ '"' := (hplain c List.mem_cons_self).1
      rw [readQuoted_of_head?_ne (by simpa using hc)]
      exact readBasic_of_plain hplain rest

/-! ## Nothing else stands for itself -/

theorem length_le_of_readBasic {text content left : List Char}
    (htext : readBasic text = some (content, left)) :
    content.length + left.length + 1 ≤ text.length := by
  fun_induction readBasic text generalizing content <;>
    simp_all [consChar_eq_some_iff] <;> grind

/-- Where the content is as long as what was read for it, nothing was escaped. -/
theorem isPlain_of_readBasic {text content left : List Char}
    (htext : readBasic text = some (content, left))
    (hlength : content.length + left.length + 1 = text.length) : ∀ c ∈ content, IsPlain c := by
  have hescaped {c : Option Char} {rest content : List Char}
      (hread : consChar c (readBasic rest) = some (content, left)) :
      content.length + left.length ≤ rest.length := by
    obtain ⟨_, inner, -, hrest, rfl⟩ := consChar_eq_some_iff.mp hread
    have hle := length_le_of_readBasic hrest
    rw [List.length_cons]
    omega
  fun_induction readBasic text generalizing content with
  | case1 => contradiction
  | case2 rest =>
      obtain ⟨rfl, -⟩ := Prod.mk.inj (Option.some.inj htext)
      simp
  | case3 | case4 | case5 | case6 =>
      have hle := hescaped htext
      simp only [List.length_cons] at hlength
      omega
  | case7 c rest hquote _ _ _ hescape hallowed ih =>
      obtain ⟨d, inner, hd, hrest, rfl⟩ := consChar_eq_some_iff.mp htext
      obtain rfl := Option.some.inj hd
      have hslash : c ≠ '\\' := by
        rintro rfl
        cases rest with
        | nil => contradiction
        | cons e rest => exact hescape e rest rfl rfl
      have hinner := ih hrest (by simp only [List.length_cons] at hlength; omega)
      exact List.forall_mem_cons.mpr ⟨⟨hquote, hslash, hallowed⟩, hinner⟩
  | case8 => contradiction

theorem length_dropLineEnd_le (text : List Char) : (dropLineEnd text).length ≤ text.length := by
  unfold dropLineEnd
  split
  next => exact Nat.le_succ _
  next => exact Nat.le_add_right _ 2
  next => exact le_rfl

theorem isPlain_of_readQuoted {text left : List Char}
    (htext : readQuoted ('"' :: (text ++ ['"'])) = some (text, left)) : ∀ c ∈ text, IsPlain c := by
  unfold readQuoted at htext
  split at htext
  next rest hquotes =>
    have hle := length_le_of_readLongBasic htext
    have hrest := length_dropLineEnd_le rest
    have hlength := congrArg List.length hquotes
    simp only [List.length_cons, List.length_append, List.length_nil] at hlength
    omega
  next rest _ hquote =>
    obtain ⟨-, rfl⟩ := List.cons.inj hquote
    have hle := length_le_of_readBasic htext
    refine isPlain_of_readBasic htext ?_
    simp only [List.length_append, List.length_singleton] at hle ⊢
    omega
  next rest hquotes => simp at hquotes
  next rest _ hquote => simp at hquote
  next => contradiction

end ThroughputPlot.Toml
