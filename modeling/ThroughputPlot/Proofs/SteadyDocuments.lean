import ThroughputPlot.Proofs.SteadyReaders

/-!
# Values and statements in front of a quote

Keys, scalars, lists and statements are read by readers that look no further than the readers of
strings do.  Each of them has a check that it goes on behind what it has read, which it always does.
-/

namespace ThroughputPlot.Toml

open Text (Reader ListForm readItems readItems_closed readItems_last readItems_more readList)

/-! ## Keys -/

theorem takeWhile_alike {p : Char → Bool} {text left' : List Char}
    (halike : Alike (text.dropWhile p) left') :
    (text.takeWhile p ++ left').takeWhile p = text.takeWhile p ∧
      (text.takeWhile p ++ left').dropWhile p = left' := by
  have hall : ∀ c ∈ text.takeWhile p, p c = true := fun c hc => List.mem_takeWhile_imp hc
  obtain ⟨c, rest, rest', hdrop, rfl, -⟩ := halike.exists_cons
  have hstop := List.head?_dropWhile_not p text
  rw [hdrop] at hstop
  have hc : p c = false := by simpa using hstop
  rw [List.takeWhile_append_of_pos hall, List.dropWhile_append_of_pos hall]
  simp [hc]

theorem readName_of_nameChar {c : Char} (hc : isNameChar c = true) (rest : List Char) :
    readName (c :: rest) = some (String.ofList ((c :: rest).takeWhile isNameChar),
      (c :: rest).dropWhile isNameChar) := by
  unfold readName
  split
  next hquote =>
    obtain ⟨rfl, -⟩ := List.cons.inj hquote
    contradiction
  next hquote =>
    obtain ⟨rfl, -⟩ := List.cons.inj hquote
    contradiction
  next => simp [hc]

theorem steady_readName : Steady readName := by
  intro text name left htext
  unfold readName at htext
  split at htext
  next rest =>
    obtain ⟨⟨content, _⟩, hread, heq⟩ := Option.map_eq_some_iff.mp htext
    obtain ⟨rfl, rfl⟩ := Prod.mk.inj heq
    refine (steady_readBasic _ _ _ hread).step ['"'] fun _ _ _ _ hrest => ?_
    simp [readName, hrest]
  next rest =>
    obtain ⟨⟨content, _⟩, hread, heq⟩ := Option.map_eq_some_iff.mp htext
    obtain ⟨rfl, rfl⟩ := Prod.mk.inj heq
    refine (steady_readLiteral _ _ _ hread).step ['\''] fun _ _ _ _ hrest => ?_
    simp [readName, hrest]
  next =>
    dsimp only at htext
    split at htext
    · contradiction
    next hname =>
      obtain ⟨rfl, rfl⟩ := Prod.mk.inj (Option.some.inj htext)
      refine ⟨text.takeWhile isNameChar, List.takeWhile_append_dropWhile.symm,
        fun left' halike => ?_⟩
      obtain ⟨htake, hdrop⟩ := takeWhile_alike halike
      cases hchars : text.takeWhile isNameChar with
      | nil => simp [hchars] at hname
      | cons c chars =>
          have hc : isNameChar c = true := by
            have hmem : c ∈ text.takeWhile isNameChar := by simp [hchars]
            exact List.mem_takeWhile_imp hmem
          rw [hchars] at htake hdrop
          rw [List.cons_append, readName_of_nameChar hc, ← List.cons_append, htake, hdrop]

theorem length_le_of_steady {α : Type} {read : Reader α} (hread : Steady read)
    {text left : List Char}
    {a : α} (htext : read text = some (a, left)) : left.length ≤ text.length := by
  obtain ⟨used, rfl, -⟩ := hread _ _ _ htext
  simp

theorem length_skipSpace_le (text : List Char) : (skipSpace text).length ≤ text.length :=
  (List.dropWhile_sublist _).length_le

theorem readNames_dotted {text rest more : List Char} {name : String}
    (hname : readName text = some (name, rest)) (hdot : skipSpace rest = '.' :: more) :
    readNames text =
      (readNames (skipSpace more)).map fun (names, left) => (name :: names, left) := by
  have hrest := length_le_of_steady steady_readName hname
  have hskip := length_skipSpace_le rest
  have hnext := length_skipSpace_le more
  rw [hdot, List.length_cons] at hskip
  have hlt : (skipSpace more).length < text.length := by omega
  rw [readNames]
  simp only [hname, hdot, hlt, if_true]
  cases readNames (skipSpace more) <;> rfl

theorem readNames_last {text rest : List Char} {name : String}
    (hname : readName text = some (name, rest)) (hdot : ∀ more, skipSpace rest ≠ '.' :: more) :
    readNames text = some ([name], skipSpace rest) := by
  rw [readNames]
  simp only [hname]

theorem steady_skipSpace (text : List Char) :
    ∃ used, text = used ++ skipSpace text ∧
      ∀ left', Alike (skipSpace text) left' → skipSpace (used ++ left') = left' := by
  obtain ⟨used, htext, hused⟩ := steadyGap_skipSpace text _ rfl
  exact ⟨used, htext, fun left' halike => Option.some.inj (hused left' halike)⟩

theorem steady_readNames : Steady readNames := by
  intro text names left htext
  fun_induction readNames text generalizing names with
  | case1 => contradiction
  | case2 => contradiction
  | case3 text name rest hname more hmore next _ names' left hnext ih =>
      obtain ⟨rfl, rfl⟩ := Prod.mk.inj (Option.some.inj htext)
      obtain ⟨front, rfl, hfront⟩ := steady_readName _ _ _ hname
      obtain ⟨gap, hrest, hgap⟩ := steady_skipSpace rest
      obtain ⟨gap', hmore', hgap'⟩ := steady_skipSpace more
      obtain ⟨used, hbehind, hused⟩ := ih names' hnext
      have hnext' : skipSpace more = used ++ left := hbehind
      refine ⟨front ++ (gap ++ '.' :: (gap' ++ used)), ?_, fun left' halike => ?_⟩
      · rw [hrest, hmore, hmore', hnext']
        simp
      · have hnextAlike : Alike (skipSpace more) (used ++ left') := hnext' ▸ halike.append used
        have hmoreAlike : Alike more (gap' ++ (used ++ left')) := hmore' ▸ hnextAlike.append gap'
        have hdotAlike := hmoreAlike.cons '.'
        rw [← hmore] at hdotAlike
        have hrestAlike : Alike rest (gap ++ '.' :: (gap' ++ (used ++ left'))) :=
          hrest ▸ hdotAlike.append gap
        have hread := readNames_dotted (hfront _ hrestAlike) (hgap _ hdotAlike)
        rw [hgap' _ hnextAlike, hused left' halike] at hread
        simpa using hread
  | case4 => contradiction
  | case5 text name rest hname hdot =>
      obtain ⟨rfl, rfl⟩ := Prod.mk.inj (Option.some.inj htext)
      obtain ⟨front, rfl, hfront⟩ := steady_readName _ _ _ hname
      obtain ⟨gap, hrest, hgap⟩ := steady_skipSpace rest
      refine ⟨front ++ gap, ?_, fun left' halike => ?_⟩
      · rw [List.append_assoc, ← hrest]
      · have hrestAlike : Alike rest (gap ++ left') := hrest ▸ halike.append gap
        have hdot' := halike.ne_append ['.'] (by decide) hdot
        rw [← hgap left' halike] at hdot'
        have hread := readNames_last (hfront _ hrestAlike) hdot'
        rw [hgap left' halike] at hread
        rwa [List.append_assoc]

theorem steady_readKey : Steady readKey := by
  intro text path left htext
  unfold readKey at htext
  split at htext
  next names left' hnames =>
    split at htext
    next hdepth =>
      obtain ⟨rfl, rfl⟩ := Prod.mk.inj (Option.some.inj htext)
      obtain ⟨used, rfl, hused⟩ := steady_readNames _ _ _ hnames
      refine ⟨used, rfl, fun left' halike => ?_⟩
      simp [readKey, hused left' halike, hdepth]
    · contradiction
  · contradiction

/-! ## Scalars -/

theorem Alike.continuesScalar_eq {text text' : List Char} (halike : Alike text text') :
    continuesScalar text' = continuesScalar text := by
  have hquote : isSpace '"' = false := by decide
  obtain ⟨c, rest, rest', hrest, hrest', -⟩ := (halike.dropWhile hquote).exists_cons
  rw [continuesScalar, continuesScalar, hrest, hrest']

theorem takeScalar_alike {text : List Char} :
    text = (takeScalar text).1 ++ (takeScalar text).2 ∧
      ∀ left', Alike (takeScalar text).2 left' →
        takeScalar ((takeScalar text).1 ++ left') = ((takeScalar text).1, left') := by
  induction text with
  | nil => exact ⟨rfl, nofun⟩
  | cons c rest ih =>
      obtain ⟨hrest, halikes⟩ := ih
      by_cases htaken : (isScalarChar c || (isSpace c && continuesScalar rest)) = true
      · have htake : takeScalar (c :: rest) = (c :: (takeScalar rest).1, (takeScalar rest).2) := by
          rw [takeScalar, if_pos htaken]
        rw [htake]
        refine ⟨congrArg (c :: ·) hrest, fun left' halike => ?_⟩
        have hcontinues := (halike.append (takeScalar rest).1).continuesScalar_eq
        rw [← hrest] at hcontinues
        rw [← hcontinues] at htaken
        rw [List.cons_append, takeScalar, if_pos htaken, halikes left' halike]
      · have htake : takeScalar (c :: rest) = ([], c :: rest) := by
          rw [takeScalar, if_neg htaken]
        rw [htake]
        refine ⟨rfl, fun left' halike => ?_⟩
        obtain ⟨_, _, rest', hcons, rfl, hrest'⟩ := halike.exists_cons
        obtain ⟨rfl, rfl⟩ := List.cons.inj hcons
        have hquote : c ≠ '"' := by
          rintro rfl
          simp [isScalarChar] at htaken
        rw [← (hrest' hquote).continuesScalar_eq] at htaken
        rw [List.nil_append, takeScalar, if_neg htaken]

theorem steady_readScalar : Steady readScalar := by
  intro text value left htext
  obtain ⟨scalar, hscalar, heq⟩ := Option.map_eq_some_iff.mp htext
  obtain ⟨rfl, rfl⟩ := Prod.mk.inj heq
  obtain ⟨hsplit, halikes⟩ := takeScalar_alike
  refine ⟨(takeScalar text).1, hsplit, fun left' halike => ?_⟩
  have htake := halikes left' halike
  simp [readScalar, htake, hscalar]

/-! ## Lists -/

section

variable {α : Type} {form : ListForm} {item : Reader α}

theorem length_le_of_steadyGap {skip : List Char → Option (List Char)} (hskip : SteadyGap skip)
    {text left : List Char} (htext : skip text = some left) : left.length ≤ text.length := by
  obtain ⟨used, rfl, -⟩ := hskip _ _ htext
  simp

theorem readItems_more_of_steady (hitems : Steady item) (hgaps : SteadyGap form.skipGap)
    {isOpen : Bool} {text after more next : List Char} {c : Char} {value : α}
    (hhead : text.head? = some c) (hc : c ≠ form.close) (hitem : item text = some (value, after))
    (hgap : form.skipGap after = some (',' :: more)) (hcomma : ',' ≠ form.close)
    (hnext : form.skipGap more = some next) :
    readItems form item isOpen text =
      (readItems form item form.allowsLastComma next).map fun (values, left) =>
        (value :: values, left) := by
  have hafter := length_le_of_steady hitems hitem
  have hmark := length_le_of_steadyGap hgaps hgap
  have hmore := length_le_of_steadyGap hgaps hnext
  rw [List.length_cons] at hmark
  exact readItems_more hhead hc hitem hgap hcomma hnext (by omega)

theorem steady_readItems (hitems : Steady item) (hgaps : SteadyGap form.skipGap) (isOpen : Bool) :
    Steady (readItems form item isOpen) := by
  intro text values left htext
  fun_induction readItems form item isOpen text generalizing values with
  | case1 => contradiction
  | case2 rest =>
      obtain ⟨rfl, rfl⟩ := Prod.mk.inj (Option.some.inj htext)
      exact steadyAt_of_taken [form.close] fun left' _ => readItems_closed rfl
  | case3 => contradiction
  | case4 => contradiction
  | case5 => contradiction
  | case6 => contradiction
  | case7 isOpen c rest hc value after hitem left hgap =>
      obtain ⟨rfl, rfl⟩ := Prod.mk.inj (Option.some.inj htext)
      obtain ⟨front, htext', hfront⟩ := hitems _ _ _ hitem
      obtain ⟨gap, rfl, hgap'⟩ := hgaps _ _ hgap
      refine ⟨front ++ (gap ++ [form.close]), ?_, fun left' halike => ?_⟩
      · rw [htext']
        simp
      · have hcloseAlike := halike.cons form.close
        have hafterAlike := hcloseAlike.append gap
        have hhead := (hafterAlike.append front).head?_eq
        rw [← htext'] at hhead
        have hread : readItems form item isOpen _ = _ :=
          readItems_last hhead hc (hfront _ hafterAlike) (hgap' _ hcloseAlike)
        simpa using hread
  | case8 => contradiction
  | case9 => contradiction
  | case10 isOpen c rest hc value after hitem more next hnext _ values' left hvalues hgap hcomma
      ih =>
      obtain ⟨rfl, rfl⟩ := Prod.mk.inj (Option.some.inj htext)
      obtain ⟨front, htext', hfront⟩ := hitems _ _ _ hitem
      obtain ⟨gap, rfl, hgap'⟩ := hgaps _ _ hgap
      obtain ⟨behind, rfl, hbehind⟩ := hgaps _ _ hnext
      obtain ⟨used, rfl, hused⟩ := ih values' hvalues
      refine ⟨front ++ (gap ++ ',' :: (behind ++ used)), ?_, fun left' halike => ?_⟩
      · rw [htext']
        simp
      · have hnextAlike := halike.append used
        have hcommaAlike := (hnextAlike.append behind).cons ','
        have hafterAlike := hcommaAlike.append gap
        have hhead := (hafterAlike.append front).head?_eq
        rw [← htext'] at hhead
        have hread : readItems form item isOpen _ = _ :=
          readItems_more_of_steady hitems hgaps hhead hc (hfront _ hafterAlike)
            (hgap' _ hcommaAlike) hcomma (hbehind _ hnextAlike)
        rw [hused left' halike] at hread
        simpa using hread
  | case11 => contradiction
  | case12 => contradiction

theorem steady_readList (hitems : Steady item) (hgaps : SteadyGap form.skipGap) :
    Steady (readList form item) := by
  intro text values left htext
  unfold readList at htext
  split at htext
  · contradiction
  next first hfirst =>
    obtain ⟨gap, rfl, hgap⟩ := hgaps _ _ hfirst
    obtain ⟨used, rfl, hused⟩ := steady_readItems hitems hgaps true _ _ _ htext
    refine ⟨gap ++ used, (List.append_assoc ..).symm, fun left' halike => ?_⟩
    have hgap' := hgap _ (halike.append used)
    rw [List.append_assoc, readList, hgap']
    exact hused left' halike

end

/-! ## Values -/

theorem readPair_eq {skipGap : List Char → Option (List Char)} {value : Reader Toml}
    {text rest rest' start left : List Char} {path : List String} {x : Toml}
    (hkey : readKey text = some (path, rest)) (hgap : skipGap rest = some ('=' :: rest'))
    (hgap' : skipGap rest' = some start) (hvalue : value start = some (x, left)) :
    readPair skipGap value text = some ((path, x), left) := by
  simp [readPair, hkey, hgap, hgap', hvalue]

theorem exists_of_readPair {skipGap : List Char → Option (List Char)} {value : Reader Toml}
    {text left : List Char} {pair : List String × Toml}
    (htext : readPair skipGap value text = some (pair, left)) :
    ∃ path rest rest' start x, readKey text = some (path, rest) ∧
      skipGap rest = some ('=' :: rest') ∧ skipGap rest' = some start ∧
      value start = some (x, left) ∧ pair = (path, x) := by
  obtain ⟨⟨path, rest⟩, hkey, htext⟩ := Option.bind_eq_some_iff.mp htext
  obtain ⟨gap, hgap, htext⟩ := Option.bind_eq_some_iff.mp htext
  split at htext
  next rest' =>
    obtain ⟨start, hgap', htext⟩ := Option.bind_eq_some_iff.mp htext
    obtain ⟨⟨x, _⟩, hvalue, htext⟩ := Option.bind_eq_some_iff.mp htext
    obtain ⟨rfl, rfl⟩ := Prod.mk.inj (Option.some.inj htext)
    exact ⟨path, rest, rest', start, x, hkey, hgap, hgap', hvalue, rfl⟩
  · contradiction

theorem steady_readPair {skipGap : List Char → Option (List Char)} {value : Reader Toml}
    (hgaps : SteadyGap skipGap) (hvalues : Steady value) : Steady (readPair skipGap value) := by
  intro text pair left htext
  obtain ⟨path, rest, rest', start, x, hkey, hgap, hgap', hvalue, rfl⟩ := exists_of_readPair htext
  obtain ⟨front, rfl, hfront⟩ := steady_readKey _ _ _ hkey
  obtain ⟨before, rfl, hbefore⟩ := hgaps _ _ hgap
  obtain ⟨behind, rfl, hbehind⟩ := hgaps _ _ hgap'
  obtain ⟨used, rfl, hused⟩ := hvalues _ _ _ hvalue
  refine ⟨front ++ (before ++ '=' :: (behind ++ used)), by simp, fun left' halike => ?_⟩
  have hstartAlike := halike.append used
  have hsignAlike := (hstartAlike.append behind).cons '='
  have hread := readPair_eq (hfront _ (hsignAlike.append before)) (hbefore _ hsignAlike)
    (hbehind _ hstartAlike) (hused left' halike)
  simpa using hread

def pairReader (depth : ℕ) : Reader (List String × Toml) :=
  readPair (skipLines false) (readValue depth)

theorem readValue_array (depth : ℕ) (rest : List Char) :
    readValue (depth + 1) ('[' :: rest) =
      (readList arrayForm (readValue depth) rest).map fun (items, left) =>
        (.array items, left) := by
  rw [readValue]

theorem readValue_inline (depth : ℕ) (rest : List Char) :
    readValue (depth + 1) ('\x7b' :: rest) =
      (readList inlineForm (pairReader depth) rest).bind fun (pairs, left) =>
        (inlineEntries pairs).map fun entries => (.table .inline entries, left) := by
  rw [readValue, pairReader]
  split
  next hlist => rw [hlist]; rfl
  next hlist => rw [hlist]; rfl

theorem readValue_quoted {depth : ℕ} {text : List Char} {c : Char} (hhead : text.head? = some c)
    (hc : c = '"' ∨ c = '\'') :
    readValue depth text =
      (readQuoted text).map fun (content, left) => (.string (String.ofList content), left) := by
  cases text with
  | nil => contradiction
  | cons d rest =>
      obtain rfl := Option.some.inj hhead
      rcases hc with rfl | rfl <;> cases depth <;> rfl

theorem readValue_scalar {depth : ℕ} {text : List Char}
    (hhead : ∀ c, text.head? = some c → c ≠ '[' ∧ c ≠ '\x7b' ∧ c ≠ '"' ∧ c ≠ '\'') :
    readValue depth text = readScalar text := by
  cases text with
  | nil => cases depth <;> rfl
  | cons c rest =>
      obtain ⟨harray, hinline, hquote, hsingle⟩ := hhead c rfl
      unfold readValue
      split
      next heq => exact absurd (List.cons.inj heq).1 harray
      next heq => exact absurd (List.cons.inj heq).1 hinline
      next heq => exact absurd (List.cons.inj heq).1 hquote
      next heq => exact absurd (List.cons.inj heq).1 hsingle
      next => rfl

theorem steady_readValue_of {depth : ℕ}
    (hinner : ∀ inner, depth = inner + 1 → Steady (readValue inner)) :
    Steady (readValue depth) := by
  intro text value left htext
  by_cases harray : text.head? = some '['
  · obtain ⟨rest, rfl⟩ := List.head?_eq_some_iff.mp harray
    cases depth with
    | zero => contradiction
    | succ depth =>
        rw [readValue_array] at htext
        obtain ⟨⟨items, _⟩, hlist, heq⟩ := Option.map_eq_some_iff.mp htext
        obtain ⟨rfl, rfl⟩ := Prod.mk.inj heq
        have hsteady := steady_readList (hinner depth rfl) (steadyGap_skipLines false) _ _ _ hlist
        refine hsteady.step ['['] fun _ _ _ _ hrest => ?_
        rw [List.singleton_append, readValue_array, hrest]
        rfl
  by_cases hinline : text.head? = some '\x7b'
  · obtain ⟨rest, rfl⟩ := List.head?_eq_some_iff.mp hinline
    cases depth with
    | zero => contradiction
    | succ depth =>
        rw [readValue_inline] at htext
        obtain ⟨⟨pairs, _⟩, hlist, heq⟩ := Option.bind_eq_some_iff.mp htext
        obtain ⟨entries, hentries, heq⟩ := Option.map_eq_some_iff.mp heq
        obtain ⟨rfl, rfl⟩ := Prod.mk.inj heq
        have hpairs := steady_readPair (steadyGap_skipLines false) (hinner depth rfl)
        have hsteady := steady_readList hpairs (steadyGap_skipLines false) _ _ _ hlist
        refine hsteady.step ['\x7b'] fun _ _ _ _ hrest => ?_
        rw [List.singleton_append, readValue_inline, pairReader, hrest]
        simp [hentries]
  by_cases hquoted : ∃ c, text.head? = some c ∧ (c = '"' ∨ c = '\'')
  · obtain ⟨c, hhead, hc⟩ := hquoted
    rw [readValue_quoted hhead hc] at htext
    obtain ⟨⟨content, _⟩, hread, heq⟩ := Option.map_eq_some_iff.mp htext
    obtain ⟨rfl, rfl⟩ := Prod.mk.inj heq
    refine (steady_readQuoted _ _ _ hread).step [] fun used left' hused halike hrest => ?_
    have hhead' := (halike.append used).head?_eq
    rw [← hused] at hhead'
    rw [List.nil_append, readValue_quoted (hhead'.trans hhead) hc, hrest]
    rfl
  · have hplain : ∀ c, text.head? = some c →
        c ≠ '[' ∧ c ≠ '\x7b' ∧ c ≠ '"' ∧ c ≠ '\'' := by
      intro c hc
      refine ⟨?_, ?_, ?_, ?_⟩
      · rintro rfl
        exact harray hc
      · rintro rfl
        exact hinline hc
      · rintro rfl
        exact hquoted ⟨_, hc, .inl rfl⟩
      · rintro rfl
        exact hquoted ⟨_, hc, .inr rfl⟩
    rw [readValue_scalar hplain] at htext
    refine (steady_readScalar _ _ _ htext).step [] fun used left' hused halike hrest => ?_
    have hhead' := (halike.append used).head?_eq
    rw [← hused] at hhead'
    rw [List.nil_append, readValue_scalar]
    · exact hrest
    · rwa [hhead']

theorem steady_readValue (depth : ℕ) : Steady (readValue depth) := by
  induction depth with
  | zero => exact steady_readValue_of nofun
  | succ depth ih =>
      refine steady_readValue_of fun inner heq => ?_
      obtain rfl := Nat.succ.inj heq
      exact ih

/-! ## Statements -/

theorem readStatement_pair {text : List Char} (hhead : text.head? ≠ some '[') :
    readStatement text = (readPair (some ∘ skipSpace) (readValue maxDepth) text).map
      fun ((path, value), left) => (.pair path value, left) := by
  unfold readStatement
  split
  · contradiction
  · contradiction
  next => rfl

theorem readStatement_table {rest : List Char} (hitem : ∀ more, rest ≠ '[' :: more) :
    readStatement ('[' :: rest) =
      match readKey (skipSpace rest) with
      | some (path, ']' :: left) => some (.table path, left)
      | _ => none := by
  cases rest with
  | nil => rfl
  | cons c rest =>
      unfold readStatement
      split
      next heq => exact absurd (List.cons.inj heq).2 (hitem _)
      next heq =>
        obtain ⟨-, rfl⟩ := List.cons.inj heq
        rfl
      next htable => exact absurd rfl (htable _)

theorem steady_readStatement : Steady readStatement := by
  intro text statement left htext
  unfold readStatement at htext
  split at htext
  next rest =>
    split at htext
    next path left' hkey =>
      obtain ⟨rfl, rfl⟩ := Prod.mk.inj (Option.some.inj htext)
      obtain ⟨gap, hrest, hgap⟩ := steady_skipSpace rest
      obtain ⟨used, hkey', hused⟩ := steady_readKey _ _ _ hkey
      refine ⟨'[' :: '[' :: (gap ++ (used ++ [']', ']'])), ?_, fun left' halike => ?_⟩
      · rw [hrest, hkey']
        simp
      · have hcloseAlike := (halike.cons ']').cons ']'
        have hkeyAlike := hcloseAlike.append used
        rw [← hkey'] at hkeyAlike
        have hread : readKey (used ++ ']' :: ']' :: left') = some (path, ']' :: ']' :: left') :=
          hused _ hcloseAlike
        simp only [List.cons_append, List.append_assoc, List.nil_append]
        rw [readStatement, hgap _ hkeyAlike, hread]
        rfl
    · contradiction
  next rest hitem =>
    split at htext
    next path left' hkey =>
      obtain ⟨rfl, rfl⟩ := Prod.mk.inj (Option.some.inj htext)
      obtain ⟨gap, hrest, hgap⟩ := steady_skipSpace rest
      obtain ⟨used, hkey', hused⟩ := steady_readKey _ _ _ hkey
      refine ⟨'[' :: (gap ++ (used ++ [']'])), ?_, fun left' halike => ?_⟩
      · rw [hrest, hkey']
        simp
      · have hcloseAlike := halike.cons ']'
        have hkeyAlike := hcloseAlike.append used
        rw [← hkey'] at hkeyAlike
        have hrestAlike := hkeyAlike.append gap
        rw [← hrest] at hrestAlike
        have hitem' : ∀ more, gap ++ (used ++ ']' :: left') ≠ '[' :: more :=
          hrestAlike.ne_append ['['] (by decide) fun more hmore => hitem more (by rw [hmore]; rfl)
        have hread : readKey (used ++ ']' :: left') = some (path, ']' :: left') :=
          hused _ hcloseAlike
        simp only [List.cons_append, List.append_assoc, List.nil_append]
        rw [readStatement_table hitem', hgap _ hkeyAlike, hread]
        rfl
    · contradiction
  next hitem htable =>
    have hhead : text.head? ≠ some '[' := by
      intro hhead
      obtain ⟨rest, rfl⟩ := List.head?_eq_some_iff.mp hhead
      exact htable rest rfl
    obtain ⟨⟨⟨path, value⟩, _⟩, hpair, heq⟩ := Option.map_eq_some_iff.mp htext
    obtain ⟨rfl, rfl⟩ := Prod.mk.inj heq
    have hsteady := steady_readPair steadyGap_skipSpace (steady_readValue maxDepth) _ _ _ hpair
    refine hsteady.step [] fun used left' hused halike hrest => ?_
    have hhead' := (halike.append used).head?_eq
    rw [← hused] at hhead'
    rw [List.nil_append, readStatement_pair, hrest]
    · rfl
    · rwa [hhead']

theorem steadyGap_nextLine : SteadyGap nextLine := by
  intro text left htext
  obtain ⟨gap, hgap, hgaps⟩ := steady_skipSpace text
  unfold nextLine at htext
  split at htext
  next =>
    obtain rfl := Option.some.inj htext
    exact ⟨text, (List.append_nil _).symm, nofun⟩
  next rest hrest =>
    obtain rfl := Option.some.inj htext
    refine ⟨gap ++ ['\n'], by rw [hgap, hrest]; simp, fun left' halike => ?_⟩
    have hread := hgaps _ (hrest ▸ halike.cons '\n')
    rw [List.append_assoc, List.singleton_append, nextLine, hread]
    rfl
  next rest hrest =>
    obtain rfl := Option.some.inj htext
    refine ⟨gap ++ ['\r', '\n'], by rw [hgap, hrest]; simp, fun left' halike => ?_⟩
    have hread := hgaps _ (hrest ▸ (halike.cons '\n').cons '\r')
    simp only [List.append_assoc, List.cons_append, List.nil_append]
    rw [nextLine, hread]
    rfl
  next rest hrest =>
    obtain ⟨used, rfl, hused⟩ := steadyGap_skipLines true _ _ htext
    refine ⟨gap ++ '#' :: used, by rw [hgap, hrest]; simp, fun left' halike => ?_⟩
    have hread := hgaps _ (hrest ▸ (halike.append used).cons '#')
    simp only [List.append_assoc, List.cons_append]
    rw [nextLine, hread]
    exact hused left' halike
  next => contradiction

end ThroughputPlot.Toml
