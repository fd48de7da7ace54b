import ThroughputPlot.Proofs.PlainStrings
import ThroughputPlot.Proofs.ReferenceScan
import ThroughputPlot.Proofs.TextFields

/-!
# Values of references in strings

References are replaced in the text, before it is read as a document.  The value of a reference that
is the whole of a basic string is therefore read between the quotes of that string.  If it is plain,
it is the string, and nothing else in the configuration changes.  If it is not, it may end the
string, or stand for another text.
-/

namespace ThroughputPlot

namespace Environment

/-- A text with a reference between double quotes. -/
def withReference (before name after : List Char) : List Char :=
  before ++ '"' :: (writeReference name ++ '"' :: after)

theorem expand_withReference (value : String → Option String) {before name : List Char}
    (hclosed : ¬ LeftOpen before) (hne : name ≠ []) (hname : '}' ∉ name) (after : List Char) :
    expand value (withReference before name after) =
      expand value before ++ '"' :: (replacement value name ++ '"' :: expand value after) := by
  have hquote (rest : List Char) : expand value ('"' :: rest) = '"' :: expand value rest :=
    expand_cons_of_none rfl
  rw [withReference, expand_append hclosed (by simp), hquote,
    expand_writeReference_append hne hname, hquote]

end Environment

open Toml (DifferAt DocumentReaches EntriesDiffer IsPlain Step StringsAt readBasic
  readQuoted readValue)

/-! ## Strings that a value is put into -/

namespace Toml

theorem readValue_of_readQuoted {text content left : List Char}
    (htext : readQuoted ('"' :: text) = some (content, left)) (depth : ℕ) :
    readValue depth ('"' :: text) = some (.string (String.ofList content), left) := by
  rw [readValue_quoted rfl (.inl rfl), htext]
  rfl

theorem readQuoted_writeReference (name rest : List Char) :
    readQuoted ('"' :: (Environment.writeReference name ++ '"' :: rest)) =
      readBasic (Environment.writeReference name ++ '"' :: rest) :=
  readQuoted_of_head?_ne (by simp [Environment.writeReference])

theorem stringsAt_of_plain {name content behind : List Char} {v : String}
    (hwhole : readBasic (Environment.writeReference name ++ '"' :: behind) = some (content, behind))
    (hplain : ∀ c ∈ v.toList, IsPlain c) :
    StringsAt ('"' :: (Environment.writeReference name ++ '"' :: behind))
      ('"' :: (v.toList ++ '"' :: behind)) (String.ofList content) v behind where
  alike := .quote _ _
  read := readValue_of_readQuoted ((readQuoted_writeReference name behind).trans hwhole)
  read' hbehind depth := by
    rw [readValue_of_readQuoted (readQuoted_of_plain hplain hbehind), String.ofList_toList]

theorem dropMark_append_cons (front rest : List Char) :
    dropMark (front ++ '"' :: rest) = dropMark front ++ '"' :: rest := by
  cases front with
  | nil => rfl
  | cons c front =>
      by_cases hc : c = '\uFEFF'
      · subst hc
        rfl
      · have hkept (text : List Char) : dropMark (c :: text) = c :: text := by
          rw [dropMark]
          rintro _ ⟨⟩
          exact hc rfl
        rw [List.cons_append, hkept, hkept, List.cons_append]

end Toml

/-! ## Values that are confined to the string -/

namespace Config

open Environment

/-- A text has a reference as the whole of a basic string, and the string as a value, while the
variable is not set. -/
structure HoldsReference (environment : Environment) (before name after content : List Char) :
    Prop where
  unset : environment.get? (String.ofList name) = none
  closed : ¬ LeftOpen before
  whole : readBasic (writeReference name ++ '"' :: expand environment.get? after) =
    some (content, expand environment.get? after)
  reached : DocumentReaches
    (Toml.dropMark (expand environment.get? (withReference before name after)))
    ('"' :: (writeReference name ++ '"' :: expand environment.get? after))

/-- With the variable set to the value, every text that has a reference to it as the whole of a
string is read with the value as that string, and otherwise as if the variable were not set. -/
def Confined (name : List Char) (v : String) : Prop :=
  ∀ (diagnosis : Diagnosis) (environment environment' : Environment)
    (before after content : List Char) (config : Config),
    HoldsReference environment before name after content →
    environment'.get? (String.ofList name) = some v →
    (∀ other ∈ references before ++ references after,
      environment'.get? other = environment.get? other) →
    read diagnosis environment (withReference before name after) = .ok config →
    ∃ key place document document',
      Toml.read? (expand environment.get? (withReference before name after)) = some document ∧
      Toml.read? (expand environment'.get? (withReference before name after)) = some document' ∧
      EntriesDiffer key (DifferAt (String.ofList content) v place) document document' ∧
      read diagnosis environment' (withReference before name after) =
        .ok (config.withText v (.key key :: place))

theorem read_eq_ok_iff {diagnosis : Diagnosis} {environment : Environment} {text : List Char}
    {config : Config} :
    read diagnosis environment text = .ok config ↔
      ∃ document, Toml.read? (expand environment.get? text) = some document ∧
        ofEntries? document = some config := by
  rw [← Option.bind_eq_some_iff, read]
  split
  next found hfound => simp [hfound]
  next hfound => simp [hfound]

theorem confined_of_plain {name : List Char} (hne : name ≠ []) (hname : '}' ∉ name) {v : String}
    (hplain : ∀ c ∈ v.toList, IsPlain c) : Confined name v := by
  intro diagnosis environment environment' before after content config hholds hset hothers hconfig
  obtain ⟨document, hdocument, hentries⟩ := read_eq_ok_iff.mp hconfig
  obtain ⟨hbefore, hafter⟩ := List.forall_mem_append.mp hothers
  have htext := expand_withReference environment.get? hholds.closed hne hname after
  have htext' := expand_withReference environment'.get? hholds.closed hne hname after
  have hunset : replacement environment.get? name = writeReference name := by
    rw [replacement, hholds.unset]
  have hvalue : replacement environment'.get? name = v.toList := by
    rw [replacement, hset]
  rw [hunset] at htext
  rw [expand_congr hbefore, expand_congr hafter, hvalue] at htext'
  obtain ⟨statements, hstatements, hbuilt⟩ := Option.bind_eq_some_iff.mp hdocument
  obtain ⟨front, earlier, path, x, later, place, x', hfront, rfl, hread, hdiffer⟩ :=
    hholds.reached.exists_reads (Toml.stringsAt_of_plain hholds.whole hplain) hstatements
  obtain ⟨document', key, place', hbuilt', hdocument'⟩ :=
    Toml.exists_ofStatements_of_differ hdiffer hbuilt
  have hfront' : front = Toml.dropMark (expand environment.get? before) := by
    rw [htext, Toml.dropMark_append_cons] at hfront
    exact (List.append_cancel_right hfront).symm
  have hread' : Toml.read? (expand environment'.get? (withReference before name after)) =
      some document' := by
    rw [Toml.read?, htext', Toml.dropMark_append_cons, ← hfront', hread]
    exact hbuilt'
  exact ⟨key, place', document, document', hdocument, hread', hdocument',
    read_eq_ok_iff.mpr ⟨document', hread', ofEntries?_of_differ hdocument' hentries⟩⟩

end Config

/-! ## A document with an input directory -/

namespace Toml

/-- A document up to the value of its input directory. -/
def inputDirFront : List Char := "[paths]\ninput_dir = ".toList

def inputDirKey : List Char := "input_dir = ".toList

section
variable (rest : List Char)

theorem readStatement_inputDirFront :
    readStatement (inputDirFront ++ '"' :: rest) =
      some (.table ["paths"], '\n' :: (inputDirKey ++ '"' :: rest)) := by
  have hname : readName ("paths]\ninput_dir = ".toList ++ '"' :: rest) =
      some ("paths", "]\ninput_dir = ".toList ++ '"' :: rest) := rfl
  have hkey : readKey (skipSpace ("paths]\ninput_dir = ".toList ++ '"' :: rest)) =
      some (["paths"], ']' :: '\n' :: (inputDirKey ++ '"' :: rest)) := by
    have hskip : skipSpace ("paths]\ninput_dir = ".toList ++ '"' :: rest) =
      "paths]\ninput_dir = ".toList ++ '"' :: rest := rfl
    rw [hskip, readKey, readNames, hname]
    rfl
  have htable : readStatement ('[' :: ("paths]\ninput_dir = ".toList ++ '"' :: rest)) = _ :=
    readStatement_table (by rintro _ ⟨⟩)
  rw [hkey] at htable
  exact htable

theorem readKey_inputDirKey :
    readKey (inputDirKey ++ '"' :: rest) = some (["input_dir"], "= ".toList ++ '"' :: rest) := by
  have hname : readName (inputDirKey ++ '"' :: rest) =
      some ("input_dir", " = ".toList ++ '"' :: rest) := rfl
  rw [readKey, readNames, hname]
  rfl

theorem documentReaches_inputDirFront :
    DocumentReaches (inputDirFront ++ '"' :: rest) ('"' :: rest) :=
  .later rfl (readStatement_inputDirFront rest) rfl
    (.here rfl ⟨_, _, _, readKey_inputDirKey rest, rfl, rfl⟩ (.here _ _))

theorem readStatement_inputDirKey :
    readStatement (inputDirKey ++ '"' :: rest) =
      (readQuoted ('"' :: rest)).map fun found =>
        (.pair ["input_dir"] (.string (String.ofList found.1)), found.2) := by
  have hpair : readPair (some ∘ skipSpace) (readValue maxDepth) (inputDirKey ++ '"' :: rest) =
      (readValue maxDepth ('"' :: rest)).bind fun found =>
        some ((["input_dir"], found.1), found.2) := by
    rw [readPair, readKey_inputDirKey]
    rfl
  rw [readStatement_pair (by rintro ⟨⟩), hpair, readValue_quoted rfl (.inl rfl)]
  cases readQuoted ('"' :: rest) <;> rfl

theorem readStatements_inputDirFront :
    readStatements (inputDirFront ++ '"' :: rest) =
      (readStatements (inputDirKey ++ '"' :: rest)).map (.table ["paths"] :: ·) :=
  readStatements_of_readStatement rfl (List.cons_ne_nil _ _) (readStatement_inputDirFront rest) rfl

/-- The document of an input directory, and of nothing else. -/
def inputDirDocument (s : String) : Entries :=
  [("paths", .table .header [("input_dir", .string s)])]

def HasInputDir (document : Entries) (s : String) : Prop :=
  ∃ origin entries, find? "paths" document = some (.table origin entries) ∧
    find? "input_dir" entries = some (.string s)

theorem HasInputDir.eq {document : Entries} {s t : String} (hs : HasInputDir document s)
    (ht : HasInputDir document t) : s = t := by
  obtain ⟨origin, entries, hpaths, hstring⟩ := hs
  obtain ⟨origin', entries', hpaths', hstring'⟩ := ht
  cases Option.some.inj (hpaths.symm.trans hpaths')
  cases Option.some.inj (hstring.symm.trans hstring')
  rfl

theorem hasInputDir_of_differ {s t : String} {document document' : Entries}
    (hdiffer : EntriesDiffer "paths" (DifferAt s t [.key "input_dir"]) document document') :
    HasInputDir document s ∧ HasInputDir document' t := by
  obtain ⟨x, x', hx, hx', hvalue⟩ := hdiffer.find?_key
  rcases hvalue.shape with ⟨hplace, -⟩ | ⟨_, _, _, _, hplace, -⟩ |
    ⟨key, place, origin, entries, entries', hplace, rfl, rfl, hentries⟩ |
    ⟨_, _, _, _, _, hplace, -⟩
  · contradiction
  · cases hplace
  · cases hplace
    obtain ⟨y, y', hy, hy', hstring⟩ := hentries.find?_key
    rcases hstring.shape with ⟨-, rfl, rfl⟩ | ⟨_, _, _, _, hplace, -⟩ | ⟨_, _, _, _, _, hplace, -⟩ |
      ⟨_, _, _, _, _, hplace, -⟩
    · exact ⟨⟨origin, entries, hx, hy⟩, origin, entries', hx', hy'⟩
    all_goals contradiction
  · cases hplace

/-- There is one string in it, and so there is one place for another. -/
theorem place_of_inputDirDocument {s t : String} {key : String} {place : List Step}
    {document : Entries}
    (hdiffer : EntriesDiffer key (DifferAt s t place) (inputDirDocument s) document) :
    key = "paths" ∧ place = [.key "input_dir"] := by
  obtain rfl : key = "paths" := by simpa [inputDirDocument] using hdiffer.mem
  obtain ⟨x, x', hx, -, hvalue⟩ := hdiffer.find?_key
  obtain rfl := Option.some.inj hx
  obtain ⟨key, rest, entries, rfl, -, hentries⟩ := hvalue.of_table
  obtain rfl : key = "input_dir" := by simpa using hentries.mem
  obtain ⟨y, y', hy, -, hstring⟩ := hentries.find?_key
  obtain rfl := Option.some.inj hy
  obtain ⟨rfl, -⟩ := text?_of_differ hstring rfl
  exact ⟨rfl, rfl⟩

theorem entriesDiffer_inputDirDocument (s t : String) :
    EntriesDiffer "paths" (DifferAt s t [.key "input_dir"]) (inputDirDocument s)
      (inputDirDocument t) := by
  have hstring : EntriesDiffer "input_dir" (DifferAt s t []) [("input_dir", .string s)]
      [("input_dir", .string t)] := @entriesDiffer_new _ _ [] _ _ rfl ⟨rfl, rfl⟩
  exact @entriesDiffer_new _ _ [] _ _ rfl ⟨rfl, hstring⟩

/-- What comes behind the input directory does not change it. -/
theorem hasInputDir_of_foldlM {s : String} {later : List Statement} {header : List String}
    {building : Building}
    (hbuilt : later.foldlM obey ⟨inputDirDocument s, header⟩ = some building) :
    HasInputDir building.root s := by
  have hcarries : ∀ (a a' : Building) (statement : Statement) r,
      (a'.header = a.header ∧
        EntriesDiffer "paths" (DifferAt s s [.key "input_dir"]) a.root a'.root) →
      obey a statement = some r →
      ∃ r', obey a' statement = some r' ∧ r'.header = r.header ∧
        EntriesDiffer "paths" (DifferAt s s [.key "input_dir"]) r.root r'.root := by
    rintro a a' statement r ⟨hheader, hroot⟩ hobey
    exact exists_obey_of_differ hroot hheader hobey
  obtain ⟨_, -, -, hdiffer⟩ :=
    exists_foldlM_of_differ hcarries ⟨rfl, entriesDiffer_inputDirDocument s s⟩ hbuilt
  exact (hasInputDir_of_differ hdiffer).1

theorem read?_inputDirFront {s : List Char} (hquoted : readQuoted ('"' :: rest) = some (s, [])) :
    read? (inputDirFront ++ '"' :: rest) = some (inputDirDocument (String.ofList s)) := by
  have hstatement : readStatement (inputDirKey ++ '"' :: rest) = _ := readStatement_inputDirKey rest
  rw [hquoted] at hstatement
  have hstatements : readStatements (inputDirKey ++ '"' :: rest) = _ :=
    readStatements_of_readStatement rfl (List.cons_ne_nil _ _) hstatement rfl
  have hend : readStatements [] = some [] := by
    rw [readStatements]
    rfl
  have hmark : dropMark (inputDirFront ++ '"' :: rest) = inputDirFront ++ '"' :: rest := rfl
  rw [read?, hmark, readStatements_inputDirFront, hstatements, hend]
  rfl

/-- What comes behind the value does not change it. -/
theorem exists_string_of_read?_inputDirFront {document : Entries}
    (hdocument : read? (inputDirFront ++ '"' :: rest) = some document) :
    ∃ s left, readQuoted ('"' :: rest) = some (s, left) ∧
      HasInputDir document (String.ofList s) := by
  have hmark : dropMark (inputDirFront ++ '"' :: rest) = inputDirFront ++ '"' :: rest := rfl
  rw [read?, hmark, readStatements_inputDirFront] at hdocument
  obtain ⟨statements, hstatements, hbuilt⟩ := Option.bind_eq_some_iff.mp hdocument
  obtain ⟨statements, hkey, rfl⟩ := Option.map_eq_some_iff.mp hstatements
  have hskip : skipLines false (inputDirKey ++ '"' :: rest) = some (inputDirKey ++ '"' :: rest) :=
    rfl
  rcases readStatements_eq_some_iff.mp hkey with ⟨hempty, -⟩ |
    ⟨_, _, _, next, later, hline, -, hstatement, hnext, hlater, rfl⟩
  · rw [hskip] at hempty
    exact absurd (Option.some.inj hempty) (List.cons_ne_nil _ _)
  obtain rfl := Option.some.inj (hskip.symm.trans hline)
  rw [readStatement_inputDirKey] at hstatement
  obtain ⟨⟨s, left⟩, hquoted, heq⟩ := Option.map_eq_some_iff.mp hstatement
  obtain ⟨rfl, rfl⟩ := Prod.mk.inj heq
  obtain ⟨building, hfold, rfl⟩ := Option.map_eq_some_iff.mp hbuilt
  have hfold' : later.foldlM obey ⟨inputDirDocument (String.ofList s), ["paths"]⟩ =
      some building := hfold
  exact ⟨s, left, hquoted, hasInputDir_of_foldlM hfold'⟩
end

end Toml

/-! ## Nothing else is confined -/

namespace Config

open Environment

section

variable {name content : List Char} (hne : name ≠ []) (hname : '}' ∉ name)

include hne hname

theorem expand_inputDirFront (value : String → Option String) :
    expand value (withReference Toml.inputDirFront name []) =
      Toml.inputDirFront ++ '"' :: (replacement value name ++ ['"']) := by
  have hclosed : ¬ LeftOpen Toml.inputDirFront := by decide
  rw [expand_withReference value hclosed hne hname, expand_of_not_mem (by decide), expand_nil]

theorem holdsReference_inputDirFront
    (hcontent : readBasic (writeReference name ++ ['"']) = some (content, [])) :
    HoldsReference [] Toml.inputDirFront name [] content where
  unset := rfl
  closed := by decide
  whole := by rw [expand_nil, hcontent]
  reached := by
    rw [expand_inputDirFront hne hname, expand_nil]
    exact Toml.documentReaches_inputDirFront _

theorem read?_inputDirFront_unset
    (hcontent : readBasic (writeReference name ++ ['"']) = some (content, [])) :
    Toml.read? (expand (get? []) (withReference Toml.inputDirFront name [])) =
      some (Toml.inputDirDocument (String.ofList content)) := by
  have hunset : replacement (get? []) name = writeReference name := rfl
  rw [expand_inputDirFront hne hname, hunset]
  exact Toml.read?_inputDirFront _ ((Toml.readQuoted_writeReference name []).trans hcontent)

theorem plain_of_confined {v : String}
    (hcontent : readBasic (writeReference name ++ ['"']) = some (content, []))
    (hconfined : Confined name v) : ∀ c ∈ v.toList, IsPlain c := by
  have hunset := read?_inputDirFront_unset hne hname hcontent
  have hset : get? [(String.ofList name, v)] (String.ofList name) = some v := get?_singleton _ _
  have hothers : references Toml.inputDirFront ++ references [] = [] := by
    rw [references_of_not_mem (by decide), references_of_not_mem (by decide)]
    rfl
  obtain ⟨key, place, document, document', hdocument, hdocument', hdiffer, -⟩ :=
    hconfined (fun _ => "") [] [(String.ofList name, v)] Toml.inputDirFront [] content
      ⟨some ⟨some (String.ofList content), none⟩, none, []⟩
      (holdsReference_inputDirFront hne hname hcontent) hset (by simp [hothers])
      (read_eq_ok_iff.mpr ⟨_, hunset, rfl⟩)
  obtain rfl := Option.some.inj (hunset.symm.trans hdocument)
  obtain ⟨rfl, rfl⟩ := Toml.place_of_inputDirDocument hdiffer
  rw [expand_inputDirFront hne hname, replacement, hset] at hdocument'
  obtain ⟨s, left, hquoted, hs⟩ := Toml.exists_string_of_read?_inputDirFront _ hdocument'
  have hv : String.ofList s = v := hs.eq (Toml.hasInputDir_of_differ hdiffer).2
  have hs' : s = v.toList := by rw [← hv, String.toList_ofList]
  exact Toml.isPlain_of_readQuoted (hs' ▸ hquoted)

end

/-- Of the values of a variable, the plain ones and no others are confined to the string. -/
theorem confined_iff {name content : List Char} (hne : name ≠ []) (hname : '}' ∉ name)
    (hcontent : readBasic (writeReference name ++ ['"']) = some (content, [])) (v : String) :
    Confined name v ↔ ∀ c ∈ v.toList, IsPlain c :=
  ⟨plain_of_confined hne hname hcontent, confined_of_plain hne hname⟩

theorem confined_benchDir :
    HoldsReference [] Toml.inputDirFront "BENCH_DIR".toList [] "$\x7bBENCH_DIR\x7d".toList ∧
      read (fun _ => "") [] (withReference Toml.inputDirFront "BENCH_DIR".toList []) =
        .ok ⟨some ⟨some "$\x7bBENCH_DIR\x7d", none⟩, none, []⟩ ∧
      Confined "BENCH_DIR".toList "bench/in" ∧
      read (fun _ => "") [("BENCH_DIR", "bench/in")]
          (withReference Toml.inputDirFront "BENCH_DIR".toList []) =
        .ok ⟨some ⟨some "bench/in", none⟩, none, []⟩ ∧
      ¬ Confined "BENCH_DIR".toList "in\\out" := by
  have hne : "BENCH_DIR".toList ≠ [] := by decide
  have hname : '}' ∉ "BENCH_DIR".toList := by decide
  have hcontent : readBasic (writeReference "BENCH_DIR".toList ++ ['"']) =
      some ("$\x7bBENCH_DIR\x7d".toList, []) := by decide
  refine ⟨holdsReference_inputDirFront hne hname hcontent, by decide +kernel, ?_,
    by decide +kernel, ?_⟩
  · have hplain : ("bench/in".toList.all fun c => decide (IsPlain c)) = true := by decide
    exact (confined_iff hne hname hcontent "bench/in").mpr fun c hc =>
      of_decide_eq_true (List.all_eq_true.mp hplain c hc)
  · intro hconfined
    have hplain := (confined_iff hne hname hcontent "in\\out").mp hconfined '\\' (by decide)
    exact hplain.2.1 rfl

/-- What comes behind a quote in the value is read as more of the document. -/
theorem read_value_with_quotes :
    read (fun _ => "") [] (withReference Toml.inputDirFront "ORACLE_A".toList ['\n']) =
        .ok ⟨some ⟨some "$\x7bORACLE_A\x7d", none⟩, none, []⟩ ∧
      read (fun _ => "") [("ORACLE_A", "a\"\noutput_dir = \"b")]
          (withReference Toml.inputDirFront "ORACLE_A".toList ['\n']) =
        .ok ⟨some ⟨some "a", some "b"⟩, none, []⟩ := by
  constructor
  · decide +kernel
  · decide +kernel

end Config

end ThroughputPlot
