import ThroughputPlot.Proofs.OneString
import ThroughputPlot.Proofs.SteadyDocuments

/-!
# Where a document has a value

A value stands where the reading of a document comes to it: behind the equals sign of a statement,
or in an array or an inline table that does.  What stands in front of it is read without it, and so
a document in which another string stands there is read to one that differs in that string.
-/

namespace ThroughputPlot.Toml

open Text (Reader ListForm readItems readItems_last readList readList_of_gap)

/-! ## Places of values -/

/-- The reading of a list at the first text comes to an item at the second. -/
inductive ReachesItem {α : Type} (form : ListForm) (item : Reader α) :
    List Char → List Char → Prop
  | here {text : List Char} {c : Char} (hhead : text.head? = some c) (hc : c ≠ form.close) :
      ReachesItem form item text text
  | later {text behind more next member : List Char} {c : Char} {value : α}
      (hhead : text.head? = some c) (hc : c ≠ form.close)
      (hitem : item text = some (value, behind)) (hgap : form.skipGap behind = some (',' :: more))
      (hnext : form.skipGap more = some next) (hmember : ReachesItem form item next member) :
      ReachesItem form item text member

def ReachesPair (skipGap : List Char → Option (List Char)) (text start : List Char) : Prop :=
  ∃ path rest rest', readKey text = some (path, rest) ∧ skipGap rest = some ('=' :: rest') ∧
    skipGap rest' = some start

/-- The reading of a value at the first text comes to a value at the second. -/
inductive ReachesValue : ℕ → List Char → List Char → Prop
  | here (depth : ℕ) (text : List Char) : ReachesValue depth text text
  | item {depth : ℕ} {rest first member start : List Char}
      (hfirst : skipLines false rest = some first)
      (hmember : ReachesItem arrayForm (readValue depth) first member)
      (hstart : ReachesValue depth member start) : ReachesValue (depth + 1) ('[' :: rest) start
  | pair {depth : ℕ} {rest first member inner start : List Char}
      (hfirst : skipLines false rest = some first)
      (hmember : ReachesItem inlineForm (pairReader depth) first member)
      (hinner : ReachesPair (skipLines false) member inner)
      (hstart : ReachesValue depth inner start) : ReachesValue (depth + 1) ('\x7b' :: rest) start

/-- The reading of a document comes to a value at the second text. -/
inductive DocumentReaches : List Char → List Char → Prop
  | here {text line inner start : List Char} (hline : skipLines false text = some line)
      (hinner : ReachesPair (some ∘ skipSpace) line inner)
      (hstart : ReachesValue maxDepth inner start) : DocumentReaches text start
  | later {text line left next start : List Char} {statement : Statement}
      (hline : skipLines false text = some line)
      (hstatement : readStatement line = some (statement, left)) (hnext : nextLine left = some next)
      (hstart : DocumentReaches next start) : DocumentReaches text start

/-! ## Items -/

/-- What may stand between items ends before a quote, and a quote ends no list. -/
structure Orderly (form : ListForm) : Prop where
  steady : SteadyGap form.skipGap
  stops : ∀ rest, form.skipGap ('"' :: rest) = some ('"' :: rest)
  comma_ne : ',' ≠ form.close
  quote_ne : '"' ≠ form.close

theorem skipLines_quote (rest : List Char) :
    skipLines false ('"' :: rest) = some ('"' :: rest) := by
  simp [skipLines, isSpace]

theorem orderly_arrayForm : Orderly arrayForm :=
  ⟨steadyGap_skipLines false, skipLines_quote, by decide, by decide⟩

theorem orderly_inlineForm : Orderly inlineForm :=
  ⟨steadyGap_skipLines false, skipLines_quote, by decide, by decide⟩

section

variable {α : Type} {form : ListForm} {item : Reader α}

theorem exists_of_readItems {isOpen : Bool} {text left : List Char} {c : Char} {values : List α}
    (hhead : text.head? = some c) (hc : c ≠ form.close)
    (htext : readItems form item isOpen text = some (values, left)) :
    ∃ value behind, item text = some (value, behind) ∧
      ((form.skipGap behind = some (form.close :: left) ∧ values = [value]) ∨
        ∃ more next values', form.skipGap behind = some (',' :: more) ∧ ',' ≠ form.close ∧
          form.skipGap more = some next ∧
          readItems form item form.allowsLastComma next = some (values', left) ∧
          values = value :: values') := by
  cases text with
  | nil => contradiction
  | cons d rest =>
      obtain rfl := Option.some.inj hhead
      rw [readItems, if_neg hc] at htext
      split at htext
      · contradiction
      next value behind hitem =>
        split at htext
        · contradiction
        · contradiction
        next mark more hgap =>
          refine ⟨value, behind, hitem, ?_⟩
          split at htext
          next hclose =>
            subst hclose
            obtain ⟨rfl, rfl⟩ := Prod.mk.inj (Option.some.inj htext)
            exact .inl ⟨hgap, rfl⟩
          next hclose =>
            split at htext
            next hmark =>
              subst hmark
              split at htext
              · contradiction
              next next hnext =>
                split at htext
                next =>
                  split at htext
                  · contradiction
                  next values' left' hvalues =>
                    obtain ⟨rfl, rfl⟩ := Prod.mk.inj (Option.some.inj htext)
                    exact .inr ⟨more, next, values', hgap, hclose, hnext, hvalues, rfl⟩
                · contradiction
            · contradiction

theorem Orderly.head?_ne {text : List Char} {mark : Char} {more : List Char}
    (horderly : Orderly form) (hgap : form.skipGap text = some (mark :: more))
    (hmark : mark ≠ '"') : text.head? ≠ some '"' := by
  intro hhead
  obtain ⟨rest, rfl⟩ := List.head?_eq_some_iff.mp hhead
  rw [horderly.stops] at hgap
  exact hmark (List.cons.inj (Option.some.inj hgap)).1.symm

/-- A list with another item in place of one. -/
theorem ReachesItem.exists_reads (hitems : Steady item) (horderly : Orderly form)
    {text member left : List Char} {values : List α} {isOpen : Bool}
    (hreaches : ReachesItem form item text member)
    (htext : readItems form item isOpen text = some (values, left)) :
    ∃ front before value after behind, text = front ++ member ∧
      values = before ++ value :: after ∧ item member = some (value, behind) ∧
      behind.head? ≠ some '"' ∧
      ∀ member' value', Alike member member' → item member' = some (value', behind) →
        readItems form item isOpen (front ++ member') = some (before ++ value' :: after, left) := by
  induction hreaches generalizing values isOpen with
  | @here text c hhead hc =>
      obtain ⟨value, behind, hitem, hends | hgoes⟩ := exists_of_readItems hhead hc htext
      · obtain ⟨hgap, rfl⟩ := hends
        refine ⟨[], [], value, [], behind, rfl, rfl, hitem,
          horderly.head?_ne hgap horderly.quote_ne.symm, fun member' value' halike hitem' => ?_⟩
        exact readItems_last (halike.head?_eq.trans hhead) hc hitem' hgap
      · obtain ⟨more, next, values', hgap, hcomma, hnext, hvalues, rfl⟩ := hgoes
        refine ⟨[], [], value, values', behind, rfl, rfl, hitem,
          horderly.head?_ne hgap (by decide), fun member' value' halike hitem' => ?_⟩
        have hread : readItems form item isOpen member' = _ :=
          readItems_more_of_steady hitems horderly.steady (halike.head?_eq.trans hhead) hc hitem'
            hgap hcomma hnext
        rw [hvalues] at hread
        exact hread
  | @later text behind more next member c first hhead hc hitem hgap hnext _ ih =>
      obtain ⟨first', behind', hitem', hcases⟩ := exists_of_readItems hhead hc htext
      obtain ⟨rfl, rfl⟩ := Prod.mk.inj (Option.some.inj (hitem.symm.trans hitem'))
      rcases hcases with ⟨hclose, -⟩ | ⟨more', next', values', hgap', hcomma, hnext', hvalues, rfl⟩
      · obtain ⟨heq, -⟩ := List.cons.inj (Option.some.inj (hgap.symm.trans hclose))
        exact absurd heq horderly.comma_ne
      obtain ⟨-, rfl⟩ := List.cons.inj (Option.some.inj (hgap.symm.trans hgap'))
      obtain rfl := Option.some.inj (hnext.symm.trans hnext')
      obtain ⟨front, before, value, after, end', rfl, rfl, hmember, hend, hreads⟩ := ih hvalues
      obtain ⟨used, htext', hused⟩ := hitems _ _ _ hitem
      obtain ⟨gap, rfl, hgap''⟩ := horderly.steady _ _ hgap
      obtain ⟨gap', rfl, hnext''⟩ := horderly.steady _ _ hnext
      refine ⟨used ++ (gap ++ ',' :: (gap' ++ front)), first :: before, value, after, end', ?_, rfl,
        hmember, hend, fun member' value' halike hmember' => ?_⟩
      · rw [htext']
        simp
      · -- The two texts part behind a quote in the item, and no reading in front of it gets there.
        have hnextAlike := halike.append front
        have hcommaAlike := (hnextAlike.append gap').cons ','
        have hbehindAlike := hcommaAlike.append gap
        have hhead' := (hbehindAlike.append used).head?_eq
        rw [← htext'] at hhead'
        have hread : readItems form item isOpen _ = _ :=
          readItems_more_of_steady hitems horderly.steady (hhead'.trans hhead) hc
            (hused _ hbehindAlike) (hgap'' _ hcommaAlike) hcomma (hnext'' _ hnextAlike)
        rw [hreads member' value' halike hmember'] at hread
        simpa using hread

end

/-! ## Pairs and values -/

theorem ReachesPair.exists_reads {skipGap : List Char → Option (List Char)} {value : Reader Toml}
    (hgaps : SteadyGap skipGap) {text start left : List Char} {pair : List String × Toml}
    (hreaches : ReachesPair skipGap text start)
    (htext : readPair skipGap value text = some (pair, left)) :
    ∃ front path x, text = front ++ start ∧ pair = (path, x) ∧ value start = some (x, left) ∧
      ∀ start' x', Alike start start' → value start' = some (x', left) →
        readPair skipGap value (front ++ start') = some ((path, x'), left) := by
  obtain ⟨path, rest, rest', hkey, hgap, hgap'⟩ := hreaches
  obtain ⟨path₁, rest₁, rest₁', start₁, x, hkey₁, hgap₁, hgap₁', hvalue, rfl⟩ :=
    exists_of_readPair htext
  obtain ⟨rfl, rfl⟩ := Prod.mk.inj (Option.some.inj (hkey.symm.trans hkey₁))
  obtain ⟨-, rfl⟩ := List.cons.inj (Option.some.inj (hgap.symm.trans hgap₁))
  obtain rfl := Option.some.inj (hgap'.symm.trans hgap₁')
  obtain ⟨used, rfl, hused⟩ := steady_readKey _ _ _ hkey
  obtain ⟨before, rfl, hbefore⟩ := hgaps _ _ hgap
  obtain ⟨behind, rfl, hbehind⟩ := hgaps _ _ hgap'
  refine ⟨used ++ (before ++ '=' :: behind), path, x, by simp, rfl, hvalue,
    fun start' x' halike hvalue' => ?_⟩
  have hsignAlike := (halike.append behind).cons '='
  have hread := readPair_eq (hused _ (hsignAlike.append before)) (hbefore _ hsignAlike)
    (hbehind _ halike) hvalue'
  simpa using hread

theorem steady_pairReader (depth : ℕ) : Steady (pairReader depth) :=
  steady_readPair (steadyGap_skipLines false) (steady_readValue depth)

theorem exists_of_readValue_array {depth : ℕ} {rest first left : List Char} {value : Toml}
    (hfirst : skipLines false rest = some first)
    (htext : readValue (depth + 1) ('[' :: rest) = some (value, left)) :
    ∃ items, readItems arrayForm (readValue depth) true first = some (items, left) ∧
      value = .array items := by
  have hfirst' : arrayForm.skipGap rest = some first := hfirst
  rw [readValue_array, readList_of_gap hfirst'] at htext
  obtain ⟨⟨items, _⟩, hitems, heq⟩ := Option.map_eq_some_iff.mp htext
  obtain ⟨rfl, rfl⟩ := Prod.mk.inj heq
  exact ⟨items, hitems, rfl⟩

theorem exists_of_readValue_inline {depth : ℕ} {rest first left : List Char} {value : Toml}
    (hfirst : skipLines false rest = some first)
    (htext : readValue (depth + 1) ('\x7b' :: rest) = some (value, left)) :
    ∃ pairs entries, readItems inlineForm (pairReader depth) true first = some (pairs, left) ∧
      inlineEntries pairs = some entries ∧ value = .table .inline entries := by
  have hfirst' : inlineForm.skipGap rest = some first := hfirst
  rw [readValue_inline, readList_of_gap hfirst'] at htext
  obtain ⟨⟨pairs, _⟩, hpairs, heq⟩ := Option.bind_eq_some_iff.mp htext
  obtain ⟨entries, hentries, heq⟩ := Option.map_eq_some_iff.mp heq
  obtain ⟨rfl, rfl⟩ := Prod.mk.inj heq
  exact ⟨pairs, entries, hpairs, hentries, rfl⟩

/-- Two texts at which strings are read, and what follows the strings. -/
structure StringsAt (start start' : List Char) (s s' : String) (behind : List Char) : Prop where
  alike : Alike start start'
  read : ∀ depth, readValue depth start = some (.string s, behind)
  read' : behind.head? ≠ some '"' → ∀ depth, readValue depth start' = some (.string s', behind)

section

variable {start start' behind : List Char} {s s' : String}

/-- The string is followed by no quote unless the whole value is. -/
theorem ReachesValue.head?_ne (hstrings : StringsAt start start' s s' behind) {depth : ℕ}
    {text left : List Char} {value : Toml} (hreaches : ReachesValue depth text start)
    (htext : readValue depth text = some (value, left)) (hleft : left.head? ≠ some '"') :
    behind.head? ≠ some '"' := by
  induction hreaches generalizing value left with
  | here depth text =>
      obtain ⟨-, rfl⟩ := Prod.mk.inj (Option.some.inj (htext.symm.trans (hstrings.read depth)))
      exact hleft
  | @item depth rest first member start hfirst hmember _ ih =>
      obtain ⟨items, hitems, rfl⟩ := exists_of_readValue_array hfirst htext
      obtain ⟨_, _, _, _, _, -, -, hitem, hend, -⟩ :=
        hmember.exists_reads (steady_readValue depth) orderly_arrayForm hitems
      exact ih hstrings hitem hend
  | @pair depth rest first member inner start hfirst hmember hinner _ ih =>
      obtain ⟨pairs, entries, hpairs, -, rfl⟩ := exists_of_readValue_inline hfirst htext
      obtain ⟨_, _, _, _, _, -, -, hpair, hend, -⟩ :=
        hmember.exists_reads (steady_pairReader depth) orderly_inlineForm hpairs
      obtain ⟨_, _, _, -, -, hvalue, -⟩ := hinner.exists_reads (steadyGap_skipLines false) hpair
      exact ih hstrings hvalue hend

/-- Another string in its place changes the value in that string, and nothing else. -/
theorem ReachesValue.exists_reads (hstrings : StringsAt start start' s s' behind)
    (hbehind : behind.head? ≠ some '"') {depth : ℕ} {text left : List Char} {value : Toml}
    (hreaches : ReachesValue depth text start)
    (htext : readValue depth text = some (value, left)) :
    ∃ front place value', text = front ++ start ∧
      readValue depth (front ++ start') = some (value', left) ∧
      DifferAt s s' place value value' := by
  induction hreaches generalizing value left with
  | here depth text =>
      obtain ⟨rfl, rfl⟩ := Prod.mk.inj (Option.some.inj (htext.symm.trans (hstrings.read depth)))
      exact ⟨[], [], .string s', rfl, hstrings.read' hbehind depth, rfl, rfl⟩
  | @item depth rest first member start hfirst hmember _ ih =>
      obtain ⟨items, hitems, rfl⟩ := exists_of_readValue_array hfirst htext
      obtain ⟨front, before, x, after, end', rfl, rfl, hitem, -, hreads⟩ :=
        hmember.exists_reads (steady_readValue depth) orderly_arrayForm hitems
      obtain ⟨front', place, x', rfl, hread, hdiffer⟩ := ih hstrings hitem
      obtain ⟨gap, rfl, hgap⟩ := steadyGap_skipLines false _ _ hfirst
      have hmemberAlike := hstrings.alike.append front'
      have hitems' := hreads _ x' hmemberAlike hread
      have hfirst' := hgap _ (hmemberAlike.append front)
      refine ⟨'[' :: (gap ++ (front ++ front')), .index before.length :: place,
        .array (before ++ x' :: after), by simp, ?_, before, x, x', after, rfl, rfl, rfl, hdiffer⟩
      have hvalue := readValue_array depth (gap ++ (front ++ (front' ++ start')))
      rw [readList_of_gap hfirst', hitems'] at hvalue
      simpa using hvalue
  | @pair depth rest first member inner start hfirst hmember hinner _ ih =>
      obtain ⟨pairs, entries, hpairs, hentries, rfl⟩ := exists_of_readValue_inline hfirst htext
      obtain ⟨front, before, pair, after, end', rfl, rfl, hpair, -, hreads⟩ :=
        hmember.exists_reads (steady_pairReader depth) orderly_inlineForm hpairs
      obtain ⟨front', path, x, rfl, rfl, hvalue, hpairs'⟩ :=
        hinner.exists_reads (steadyGap_skipLines false) hpair
      obtain ⟨front'', place, x', rfl, hread, hdiffer⟩ := ih hstrings hvalue
      obtain ⟨gap, rfl, hgap⟩ := steadyGap_skipLines false _ _ hfirst
      obtain ⟨entries', key, place', hentries', hdiffer'⟩ :=
        exists_inlineEntries_of_differ hdiffer hentries
      have hinnerAlike := hstrings.alike.append front''
      have hmemberAlike := hinnerAlike.append front'
      have hlist := hreads _ _ hmemberAlike (hpairs' _ x' hinnerAlike hread)
      have hfirst' := hgap _ (hmemberAlike.append front)
      refine ⟨'\x7b' :: (gap ++ (front ++ (front' ++ front''))), .key key :: place',
        .table .inline entries', by simp, ?_, rfl, hdiffer'⟩
      have hvalue' := readValue_inline depth (gap ++ (front ++ (front' ++ (front'' ++ start'))))
      rw [readList_of_gap hfirst', hlist] at hvalue'
      simpa [hentries'] using hvalue'

end

/-! ## Documents -/

theorem length_lt_of_nextLine {text next : List Char} (hnext : nextLine text = some next)
    (hne : next ≠ []) : next.length < text.length := by
  have hskip := length_skipSpace_le text
  unfold nextLine at hnext
  split at hnext
  next => exact absurd (Option.some.inj hnext).symm hne
  next rest hrest =>
    obtain rfl := Option.some.inj hnext
    rw [hrest, List.length_cons] at hskip
    omega
  next rest hrest =>
    obtain rfl := Option.some.inj hnext
    rw [hrest, List.length_cons, List.length_cons] at hskip
    omega
  next rest hrest =>
    have hcomment := length_le_of_steadyGap (steadyGap_skipLines true) hnext
    rw [hrest, List.length_cons] at hskip
    omega
  next => contradiction

theorem readStatements_eq_some_iff {text : List Char} {statements : List Statement} :
    readStatements text = some statements ↔
      (skipLines false text = some [] ∧ statements = []) ∨
        ∃ line statement left next rest, skipLines false text = some line ∧ line ≠ [] ∧
          readStatement line = some (statement, left) ∧ nextLine left = some next ∧
          readStatements next = some rest ∧ statements = statement :: rest := by
  rw [readStatements]
  constructor
  · intro htext
    split at htext
    · contradiction
    next hskip => exact .inl ⟨hskip, (Option.some.inj htext).symm⟩
    next c line hskip =>
      split at htext
      · contradiction
      next statement left hstatement =>
        split at htext
        · contradiction
        next next hnext =>
          split at htext
          next =>
            obtain ⟨rest, hrest, rfl⟩ := Option.map_eq_some_iff.mp htext
            exact .inr ⟨_, statement, left, next, rest, hskip, by simp, hstatement, hnext, hrest,
              rfl⟩
          · contradiction
  · rintro (⟨hskip, rfl⟩ | ⟨line, statement, left, next, rest, hskip, hne, hstatement, hnext, hrest,
      rfl⟩)
    · simp [hskip]
    · have hline := length_le_of_steadyGap (steadyGap_skipLines false) hskip
      have hleft := length_le_of_steady steady_readStatement hstatement
      cases line with
      | nil => contradiction
      | cons c line =>
          have hlt : next.length < text.length := by
            cases next with
            | nil =>
                simp only [List.length_cons] at hline
                simp only [List.length_nil]
                omega
            | cons d next =>
                have hnext' := length_lt_of_nextLine hnext (by simp)
                omega
          simp [hskip, hstatement, hnext, hrest, hlt]

theorem readStatements_of_readStatement {text line left next : List Char} {statement : Statement}
    (hline : skipLines false text = some line) (hne : line ≠ [])
    (hstatement : readStatement line = some (statement, left)) (hnext : nextLine left = some next) :
    readStatements text = (readStatements next).map (statement :: ·) := by
  refine Option.ext fun statements => ?_
  rw [readStatements_eq_some_iff, Option.map_eq_some_iff]
  constructor
  · rintro (⟨hempty, -⟩ | ⟨_, _, _, _, later, hline', -, hstatement', hnext', hlater, rfl⟩)
    · exact absurd (Option.some.inj (hline.symm.trans hempty)) hne
    · obtain rfl := Option.some.inj (hline.symm.trans hline')
      obtain ⟨rfl, rfl⟩ := Prod.mk.inj (Option.some.inj (hstatement.symm.trans hstatement'))
      obtain rfl := Option.some.inj (hnext.symm.trans hnext')
      exact ⟨later, hlater, rfl⟩
  · rintro ⟨later, hlater, rfl⟩
    exact .inr ⟨line, statement, left, next, later, hline, hne, hstatement, hnext, hlater, rfl⟩

theorem nextLine_quote (rest : List Char) : nextLine ('"' :: rest) = none := by
  simp [nextLine, skipSpace, isSpace]

theorem readKey_eq_none {text : List Char} (hhead : text.head?.any isNameChar = false)
    (hquote : text.head? ≠ some '"') (hsingle : text.head? ≠ some '\'') : readKey text = none := by
  have hname : readName text = none := by
    unfold readName
    split
    · contradiction
    · contradiction
    next => cases text <;> simp_all
  rw [readKey, readNames]
  simp [hname]

theorem readStatement_nil : readStatement [] = none := by
  rw [readStatement_pair (by simp), readPair, readKey_eq_none rfl (by simp) (by simp)]
  rfl

theorem ReachesPair.head?_ne {skipGap : List Char → Option (List Char)} {text start : List Char}
    (hreaches : ReachesPair skipGap text start) : text ≠ [] ∧ text.head? ≠ some '[' := by
  obtain ⟨path, rest, rest', hkey, -⟩ := hreaches
  constructor
  · rintro rfl
    rw [readKey_eq_none rfl (by simp) (by simp)] at hkey
    contradiction
  · intro hhead
    rw [readKey_eq_none (by rw [hhead]; rfl) (by simp [hhead]) (by simp [hhead])] at hkey
    contradiction

section

variable {start start' behind : List Char} {s s' : String}

/-- Another string in its place changes the document in that string, and nothing else. -/
theorem DocumentReaches.exists_reads (hstrings : StringsAt start start' s s' behind)
    {text : List Char} {statements : List Statement} (hreaches : DocumentReaches text start)
    (htext : readStatements text = some statements) :
    ∃ front before path value after place value', text = front ++ start ∧
      statements = before ++ .pair path value :: after ∧
      readStatements (front ++ start') = some (before ++ .pair path value' :: after) ∧
      DifferAt s s' place value value' := by
  induction hreaches generalizing statements with
  | @here text line inner start hline hinner hstart =>
      obtain ⟨hne, hhead⟩ := hinner.head?_ne
      rcases readStatements_eq_some_iff.mp htext with ⟨hempty, -⟩ |
        ⟨line', statement, left, next, rest, hline', -, hstatement, hnext, hrest, rfl⟩
      · exact absurd (Option.some.inj (hline.symm.trans hempty)) hne
      obtain rfl := Option.some.inj (hline.symm.trans hline')
      rw [readStatement_pair hhead] at hstatement
      obtain ⟨⟨pair, left'⟩, hpair, heq⟩ := Option.map_eq_some_iff.mp hstatement
      obtain ⟨front, path, value, rfl, rfl, hvalue, hreads⟩ :=
        hinner.exists_reads steadyGap_skipSpace hpair
      obtain ⟨rfl, rfl⟩ := Prod.mk.inj heq
      -- A line ends behind the value, and so no quote joins the one that closes the string.
      have hleft : left'.head? ≠ some '"' := by
        intro hquote
        obtain ⟨more, rfl⟩ := List.head?_eq_some_iff.mp hquote
        rw [nextLine_quote] at hnext
        contradiction
      have hbehind := hstart.head?_ne hstrings hvalue hleft
      obtain ⟨front', place, value', rfl, hread, hdiffer⟩ :=
        hstart.exists_reads hstrings hbehind hvalue
      obtain ⟨gap, rfl, hgap⟩ := steadyGap_skipLines false _ _ hline
      have hinnerAlike := hstrings.alike.append front'
      have hlineAlike := hinnerAlike.append front
      have hhead' : (front ++ (front' ++ start')).head? ≠ some '[' := by
        rwa [hlineAlike.head?_eq]
      have hne' : front ++ (front' ++ start') ≠ [] := by
        obtain ⟨_, _, _, -, hcons, -⟩ := hlineAlike.exists_cons
        simp [hcons]
      have hstatement' : readStatement (front ++ (front' ++ start')) =
          some (.pair path value', left') := by
        rw [readStatement_pair hhead', hreads _ value' hinnerAlike hread]
        rfl
      refine ⟨gap ++ (front ++ front'), [], path, value, rest, place, value', by simp, rfl, ?_,
        hdiffer⟩
      have hskip := hgap _ hlineAlike
      simp only [List.append_assoc]
      exact readStatements_eq_some_iff.mpr (.inr ⟨_, _, left', next, rest, hskip, hne',
        hstatement', hnext, hrest, rfl⟩)
  | @later text line left next start statement hline hstatement hnext _ ih =>
      rcases readStatements_eq_some_iff.mp htext with ⟨hempty, -⟩ |
        ⟨line', statement', left', next', rest, hline', hne, hstatement', hnext', hrest, rfl⟩
      · obtain rfl := Option.some.inj (hline.symm.trans hempty)
        rw [readStatement_nil] at hstatement
        contradiction
      obtain rfl := Option.some.inj (hline.symm.trans hline')
      obtain ⟨rfl, rfl⟩ := Prod.mk.inj (Option.some.inj (hstatement.symm.trans hstatement'))
      obtain rfl := Option.some.inj (hnext.symm.trans hnext')
      obtain ⟨front, before, path, value, after, place, value', rfl, rfl, hreads, hdiffer⟩ :=
        ih hstrings hrest
      obtain ⟨gap, rfl, hgap⟩ := steadyGap_skipLines false _ _ hline
      obtain ⟨used, rfl, hused⟩ := steady_readStatement _ _ _ hstatement
      obtain ⟨end', rfl, hend⟩ := steadyGap_nextLine _ _ hnext
      have hnextAlike := hstrings.alike.append front
      have hleftAlike := hnextAlike.append end'
      have hlineAlike := hleftAlike.append used
      have hne' : used ++ (end' ++ (front ++ start')) ≠ [] := by
        obtain ⟨_, _, _, -, hcons, -⟩ := hlineAlike.exists_cons
        simp [hcons]
      refine ⟨gap ++ (used ++ (end' ++ front)), statement :: before, path, value, after, place,
        value', by simp, rfl, ?_, hdiffer⟩
      simp only [List.append_assoc]
      exact readStatements_eq_some_iff.mpr (.inr ⟨_, statement, _, _, _, hgap _ hlineAlike, hne',
        hused _ hleftAlike, hend _ hnextAlike, hreads, rfl⟩)

end

end ThroughputPlot.Toml
