import ThroughputPlot.Proofs.WrittenValues

/-!
# Written documents

A document is written as tables, each under a header of its own or as one more item of an array.
Behind a header stand the entries of the table, one on a line.  The table of a header is the last
entry of the document, or the last item in it, so an entry that is read next is added there.
-/

namespace ThroughputPlot.Toml

/-- A name that is written without quotes. -/
def IsBareName (name : String) : Prop := name ≠ "" ∧ name.toList.all isNameChar = true

instance (name : String) : Decidable (IsBareName name) := inferInstanceAs (Decidable (_ ∧ _))

/-- The entries of a table, one on a line. -/
inductive WrittenEntries : Entries → List Char → Prop
  | nil : WrittenEntries [] []
  | cons {key : String} {value : Toml} {entries : Entries} {written gap lines : List Char}
      (hkey : IsBareName key) (hvalue : WrittenValue value written) (hgap : LineBreak gap)
      (hlines : WrittenEntries entries lines) :
      WrittenEntries ((key, value) :: entries)
        (key.toList ++ (" = ".toList ++ (written ++ (gap ++ lines))))

inductive Header where
  | table (name : String)
  | item (name : String)
deriving DecidableEq

namespace Header

def name : Header → String
  | table name => name
  | item name => name

def written : Header → List Char
  | table name => '[' :: (name.toList ++ [']'])
  | item name => '[' :: '[' :: (name.toList ++ [']', ']'])

def statement : Header → Statement
  | table name => .table [name]
  | item name => .item [name]

end Header

/-- Tables under their headers. -/
inductive WrittenTables : List (Header × Entries) → List Char → Prop
  | nil : WrittenTables [] []
  | cons {header : Header} {entries : Entries} {tables : List (Header × Entries)}
      {gap lines text : List Char} (hname : IsBareName header.name) (hgap : LineBreak gap)
      (hlines : WrittenEntries entries lines) (htext : WrittenTables tables text) :
      WrittenTables ((header, entries) :: tables) (header.written ++ (gap ++ (lines ++ text)))

/-! ## Where a statement begins -/

theorem skipLines_eq_self {c : Char} (hc : isSpace c = false) (hfeed : c ≠ '\n')
    (hreturn : c ≠ '\r') (hcomment : c ≠ '#') (rest : List Char) :
    skipLines false (c :: rest) = some (c :: rest) := by
  rw [skipLines]
  · simp [hc, hcomment]
  · exact hfeed
  · exact fun _ h => absurd h hreturn

theorem IsBareName.chars {name : String} (hname : IsBareName name) :
    ∀ c ∈ name.toList, isNameChar c = true :=
  List.all_eq_true.mp hname.2

theorem IsBareName.exists_cons {name : String} (hname : IsBareName name) :
    ∃ c more, name.toList = c :: more ∧ isNameChar c = true := by
  have hne : name.toList ≠ [] := fun heq => hname.1 (String.toList_eq_nil_iff.mp heq)
  obtain ⟨c, more, heq⟩ := List.exists_cons_of_ne_nil hne
  exact ⟨c, more, heq, hname.chars c (heq ▸ List.mem_cons_self)⟩

theorem isSpace_of_isNameChar {c : Char} (hc : isNameChar c = true) : isSpace c = false := by
  have hspace : c ≠ ' ' := Text.ne_of_class hc rfl
  have htab : c ≠ '\t' := Text.ne_of_class hc rfl
  simp [isSpace, hspace, htab]

theorem skipSpace_of_isNameChar {c : Char} (hc : isNameChar c = true) (rest : List Char) :
    skipSpace (c :: rest) = c :: rest :=
  List.dropWhile_cons_of_neg (by simp [isSpace_of_isNameChar hc])

theorem skipLines_name {name : String} (hname : IsBareName name) (rest : List Char) :
    skipLines false (name.toList ++ rest) = some (name.toList ++ rest) := by
  obtain ⟨c, more, heq, hc⟩ := hname.exists_cons
  rw [heq, List.cons_append]
  exact skipLines_eq_self (isSpace_of_isNameChar hc) (Text.ne_of_class hc rfl)
    (Text.ne_of_class hc rfl) (Text.ne_of_class hc rfl) _

theorem WrittenTables.skipLines_eq {tables : List (Header × Entries)} {text : List Char}
    (h : WrittenTables tables text) : skipLines false text = some text := by
  cases h with
  | nil => rw [skipLines]
  | @cons header =>
      cases header <;> exact skipLines_eq_self rfl (by decide) (by decide) (by decide) _

theorem WrittenEntries.skipLines_eq {entries : Entries} {lines rest : List Char}
    (h : WrittenEntries entries lines) (hrest : skipLines false rest = some rest) :
    skipLines false (lines ++ rest) = some (lines ++ rest) := by
  cases h with
  | nil => exact hrest
  | cons hkey =>
      rw [List.append_assoc]
      exact skipLines_name hkey _

/-! ## Statements -/

theorem readKey_name {name : String} (hname : IsBareName name) {rest : List Char}
    (hrest : rest.head?.any isNameChar = false) (hdot : ∀ more, skipSpace rest ≠ '.' :: more) :
    readKey (name.toList ++ rest) = some ([name], skipSpace rest) := by
  have hstop : rest.takeWhile isNameChar = [] ∧ rest.dropWhile isNameChar = rest := by
    cases rest with
    | nil => exact ⟨rfl, rfl⟩
    | cons c rest =>
        have hc : isNameChar c = false := hrest
        simp [hc]
  have htaken : (name.toList ++ rest).takeWhile isNameChar = name.toList := by
    rw [List.takeWhile_append_of_pos hname.chars, hstop.1, List.append_nil]
  have hleft : (name.toList ++ rest).dropWhile isNameChar = rest := by
    rw [List.dropWhile_append_of_pos hname.chars, hstop.2]
  have hread : readName (name.toList ++ rest) = some (name, rest) := by
    obtain ⟨c, more, heq, hc⟩ := hname.exists_cons
    have hword := readName_of_nameChar hc (more ++ rest)
    rwa [← List.cons_append, ← heq, htaken, hleft, String.ofList_toList] at hword
  rw [readKey, readNames_last hread hdot]
  rfl

theorem readStatements_of_skipLines_eq {text text' : List Char}
    (h : skipLines false text = skipLines false text') :
    readStatements text = readStatements text' := by
  refine Option.ext fun statements => ?_
  rw [readStatements_eq_some_iff, readStatements_eq_some_iff, h]

/-- A statement with a line break behind it, and then the others. -/
theorem readStatements_line {text gap rest : List Char} {statement : Statement}
    (htext : skipLines false text = some text)
    (hstatement : readStatement text = some (statement, gap ++ rest)) (hgap : LineBreak gap)
    (hrest : skipLines false rest = some rest) :
    readStatements text = (readStatements rest).map (statement :: ·) := by
  obtain ⟨next, hnext, hskip⟩ := hgap.exists_nextLine hrest
  have hne : text ≠ [] := by
    rintro rfl
    rw [readStatement_nil] at hstatement
    contradiction
  rw [readStatements_of_readStatement htext hne hstatement hnext,
    readStatements_of_skipLines_eq (hskip.trans hrest.symm)]

theorem Header.readStatement_eq {header : Header} (hname : IsBareName header.name)
    (rest : List Char) :
    readStatement (header.written ++ rest) = some (header.statement, rest) := by
  obtain ⟨c, name', heq, hc⟩ := hname.exists_cons
  have hkey (more : List Char) : readKey (skipSpace (header.name.toList ++ ']' :: more)) =
      some ([header.name], ']' :: more) := by
    have hskip := skipSpace_of_isNameChar hc (name' ++ ']' :: more)
    rw [← List.cons_append, ← heq] at hskip
    rw [hskip]
    exact readKey_name hname rfl (by rintro _ ⟨⟩)
  cases header with
  | table name =>
      have hitem : ∀ more, name.toList ++ ']' :: rest ≠ '[' :: more := by
        intro more hmore
        rw [show name.toList = c :: name' from heq] at hmore
        exact Text.ne_of_class hc rfl (List.cons.inj hmore).1
      have hwritten : (Header.table name).written ++ rest =
          '[' :: (name.toList ++ ']' :: rest) := by
        simp [Header.written]
      have hread : readKey (skipSpace (name.toList ++ ']' :: rest)) = _ := hkey rest
      rw [hwritten, readStatement_table hitem, hread]
      rfl
  | item name =>
      have hwritten : (Header.item name).written ++ rest =
          '[' :: '[' :: (name.toList ++ ']' :: ']' :: rest) := by
        simp [Header.written]
      have hread : readKey (skipSpace (name.toList ++ ']' :: ']' :: rest)) = _ := hkey _
      rw [hwritten, readStatement, hread]
      rfl

theorem WrittenValue.skipSpace_eq {value : Toml} {written : List Char}
    (h : WrittenValue value written) (rest : List Char) :
    skipSpace (written ++ rest) = written ++ rest := by
  cases h with
  | string => rfl
  | size n =>
      have hdigits := Text.isNumeral_toDigits n
      obtain ⟨c, digits, heq⟩ := List.exists_cons_of_ne_nil hdigits.ne_nil
      have hc := hdigits.isDigit c (heq ▸ List.mem_cons_self)
      have hname : isNameChar c = true := by
        rw [isNameChar, Char.isAlphanum, hc, Bool.or_true]
        rfl
      rw [heq]
      exact skipSpace_of_isNameChar hname (digits ++ rest)
  | boolean value => cases value <;> rfl

theorem readStatement_entry {key : String} {value : Toml} {written gap : List Char}
    (hkey : IsBareName key) (hvalue : WrittenValue value written) (hgap : LineBreak gap)
    (rest : List Char) :
    readStatement (key.toList ++ (" = ".toList ++ (written ++ (gap ++ rest)))) =
      some (.pair [key] value, gap ++ rest) := by
  have hsign : readKey (key.toList ++ (" = ".toList ++ (written ++ (gap ++ rest)))) =
      some ([key], '=' :: ' ' :: (written ++ (gap ++ rest))) :=
    readKey_name hkey rfl (by rintro _ ⟨⟩)
  have hbefore : (some ∘ skipSpace) ('=' :: ' ' :: (written ++ (gap ++ rest))) =
      some ('=' :: ' ' :: (written ++ (gap ++ rest))) := rfl
  have hbehind : (some ∘ skipSpace) (' ' :: (written ++ (gap ++ rest))) =
      some (written ++ (gap ++ rest)) := congrArg some (hvalue.skipSpace_eq (gap ++ rest))
  have hpair := readPair_eq hsign hbefore hbehind (hvalue.readValue_eq hgap rest maxDepth)
  have hhead : (key.toList ++ (" = ".toList ++ (written ++ (gap ++ rest)))).head? ≠ some '[' := by
    obtain ⟨c, more, heq, hc⟩ := hkey.exists_cons
    rw [heq, List.cons_append, List.head?_cons]
    exact fun hbracket => Text.ne_of_class hc rfl (Option.some.inj hbracket)
  rw [readStatement_pair hhead, hpair]
  rfl

def pairStatement (entry : String × Toml) : Statement := .pair [entry.1] entry.2

/-- The statements of a table under its header. -/
def tableStatements (table : Header × Entries) : List Statement :=
  table.1.statement :: table.2.map pairStatement

theorem WrittenEntries.readStatements_eq {entries : Entries} {lines rest : List Char}
    (h : WrittenEntries entries lines) (hrest : skipLines false rest = some rest) :
    readStatements (lines ++ rest) =
      (readStatements rest).map (entries.map pairStatement ++ ·) := by
  induction h with
  | nil => simp
  | @cons key value entries written gap lines hkey hvalue hgap hlines ih =>
      have hread := readStatement_entry hkey hvalue hgap (lines ++ rest)
      have htext := skipLines_name hkey (" = ".toList ++ (written ++ (gap ++ (lines ++ rest))))
      have hmore := readStatements_line htext hread hgap (hlines.skipLines_eq hrest)
      rw [ih, Option.map_map] at hmore
      simp only [List.append_assoc]
      exact hmore

theorem WrittenTables.readStatements_eq {tables : List (Header × Entries)} {text : List Char}
    (h : WrittenTables tables text) :
    readStatements text = some (tables.flatMap tableStatements) := by
  induction h with
  | nil =>
      rw [readStatements, skipLines]
      rfl
  | @cons header entries tables gap lines text hname hgap hlines htext ih =>
      have hread := header.readStatement_eq hname (gap ++ (lines ++ text))
      have htext' : skipLines false (header.written ++ (gap ++ (lines ++ text))) =
          some (header.written ++ (gap ++ (lines ++ text))) :=
        (WrittenTables.cons hname hgap hlines htext).skipLines_eq
      rw [readStatements_line htext' hread hgap (hlines.skipLines_eq htext.skipLines_eq),
        hlines.readStatements_eq htext.skipLines_eq, ih]
      rfl

/-! ## The document -/

/-- The entry of an array of tables; without an item there is none. -/
def itemsEntry (name : String) : List Entries → Entries
  | [] => []
  | item :: items => [(name, .tables (item :: items))]

/-- The document of some tables with a header each, and of the items of one array behind them. -/
def document (tables : List (String × Entries)) (name : String) (items : List Entries) : Entries :=
  (tables.map fun table => (table.1, .table .header table.2)) ++ itemsEntry name items

/-- What holds the table that entries are added to. -/
inductive Holder where
  | header
  | array (earlier : List Entries)

def Holder.hold : Holder → Entries → Toml
  | header, entries => .table .header entries
  | array earlier, entries => .tables (earlier ++ [entries])

section
variable {root entries : Entries} {name : String}

theorem find?_append_singleton (hname : find? name root = none) (value : Toml) :
    find? name (root ++ [(name, value)]) = some value := by
  rw [find?] at hname
  rw [find?, List.lookup_append, hname]
  simp

theorem find?_eq_none_of_nodup {key : String} {keys : List String}
    (h : (entries.map Prod.fst ++ key :: keys).Nodup) : find? key entries = none := by
  rw [find?_eq_none_iff]
  rw [List.nodup_append] at h
  exact fun hmem => h.2.2 key hmem key List.mem_cons_self rfl

theorem replace_append_singleton (hname : find? name root = none) (value value' : Toml) :
    replace name value' (root ++ [(name, value)]) = root ++ [(name, value')] := by
  rw [find?_eq_none_iff] at hname
  have hroot : replace name value' root = root := by
    refine (List.map_congr_left ?_).trans (List.map_id root)
    intro entry hentry
    have hne : entry.1 ≠ name := fun heq => hname (heq ▸ List.mem_map_of_mem hentry)
    exact if_neg hne
  have happend : replace name value' (root ++ [(name, value)]) =
      replace name value' root ++ replace name value' [(name, value)] := List.map_append ..
  rw [happend, hroot]
  simp [replace]

theorem changeLast_append (change : Entries → Option Entries) (earlier : List Entries)
    (item : Entries) :
    changeLast change (earlier ++ [item]) = (change item).map (earlier ++ [·]) := by
  induction earlier with
  | nil => rfl
  | cons first earlier ih =>
      cases h : earlier ++ [item] with
      | nil => simp at h
      | cons second more =>
          rw [h] at ih
          rw [List.cons_append, h, changeLast, ih]
          · cases change item <;> rfl
          · simp

theorem descend_hold (hname : find? name root = none) (change : Entries → Option Entries)
    (holder : Holder) :
    descend change [name] (root ++ [(name, holder.hold entries)]) =
      (change entries).map fun inner => root ++ [(name, holder.hold inner)] := by
  rw [descend, find?_append_singleton hname]
  cases holder with
  | header =>
      dsimp only [Holder.hold]
      rw [if_neg (by decide), descend]
      cases change entries with
      | none => rfl
      | some inner => rw [Option.map_some, replace_append_singleton hname]; rfl
  | array earlier =>
      dsimp only [Holder.hold]
      rw [changeLast_append, descend]
      cases change entries with
      | none => rfl
      | some inner => rw [Option.map_some, Option.map_some, replace_append_singleton hname]; rfl

theorem obey_pair (hname : find? name root = none) (holder : Holder) {key : String}
    (hkey : find? key entries = none) (value : Toml) :
    obey ⟨root ++ [(name, holder.hold entries)], [name]⟩ (.pair [key] value) =
      some ⟨root ++ [(name, holder.hold (entries ++ [(key, value)]))], [name]⟩ := by
  have hput : put value [key] entries = some (entries ++ [(key, value)]) :=
    put_singleton_eq_some_iff.mpr ⟨hkey, rfl⟩
  rw [obey, descend_hold hname, hput]
  rfl

/-- The entries of a table are added to it in their order. -/
theorem foldlM_obey_pairs (hname : find? name root = none) (holder : Holder) {more : Entries}
    (hkeys : ((entries ++ more).map Prod.fst).Nodup) :
    (more.map pairStatement).foldlM obey ⟨root ++ [(name, holder.hold entries)], [name]⟩ =
      some ⟨root ++ [(name, holder.hold (entries ++ more))], [name]⟩ := by
  -- The entries already there are kept, so the next key must differ from theirs.
  induction more generalizing entries with
  | nil => simp
  | cons entry more ih =>
      obtain ⟨key, value⟩ := entry
      have hkey : find? key entries = none := by
        rw [List.map_append] at hkeys
        exact find?_eq_none_of_nodup hkeys
      have hsplit : entries ++ (key, value) :: more = entries ++ [(key, value)] ++ more :=
        List.append_cons ..
      rw [hsplit] at hkeys ⊢
      rw [List.map_cons, List.foldlM_cons, pairStatement, obey_pair hname holder hkey value]
      exact ih hkeys

theorem foldlM_obey_table (hname : find? name root = none) (header : List String)
    (hkeys : (entries.map Prod.fst).Nodup) :
    (tableStatements (.table name, entries)).foldlM obey ⟨root, header⟩ =
      some ⟨root ++ [(name, .table .header entries)], [name]⟩ := by
  have hopen : obey ⟨root, header⟩ (.table [name]) =
      some ⟨root ++ [(name, .table .header [])], [name]⟩ := by
    have hopened : openTable name root = some (root ++ [(name, .table .header [])]) := by
      rw [openTable, hname]
    change (openTable name root).map _ = _
    rw [hopened]
    rfl
  rw [tableStatements, List.foldlM_cons]
  change obey ⟨root, header⟩ (.table [name]) >>= _ = _
  rw [hopen]
  exact foldlM_obey_pairs hname .header hkeys

theorem foldlM_obey_item (hname : find? name root = none) (header : List String)
    (earlier : List Entries) (hkeys : (entries.map Prod.fst).Nodup) :
    (tableStatements (.item name, entries)).foldlM obey ⟨root ++ itemsEntry name earlier, header⟩ =
      some ⟨root ++ itemsEntry name (earlier ++ [entries]), [name]⟩ := by
  have hopen : obey ⟨root ++ itemsEntry name earlier, header⟩ (.item [name]) =
      some ⟨root ++ [(name, (Holder.array earlier).hold [])], [name]⟩ := by
    have hopened : openItem name (root ++ itemsEntry name earlier) =
        some (root ++ [(name, (Holder.array earlier).hold [])]) := by
      cases earlier with
      | nil =>
          rw [itemsEntry, List.append_nil, openItem, hname]
          rfl
      | cons first earlier =>
          rw [itemsEntry, openItem, find?_append_singleton hname]
          exact congrArg some (replace_append_singleton hname _ _)
    change (openItem name _).map _ = _
    rw [hopened]
    rfl
  have hitems : itemsEntry name (earlier ++ [entries]) =
      [(name, (Holder.array earlier).hold entries)] := by
    cases earlier <;> rfl
  rw [tableStatements, List.foldlM_cons, hitems]
  change obey _ (.item [name]) >>= _ = _
  rw [hopen]
  exact foldlM_obey_pairs hname (.array earlier) hkeys

end

section
variable {root : Entries}

theorem foldlM_obey_tables {tables : List (String × Entries)} (header : List String)
    (hnames : (root.map Prod.fst ++ tables.map Prod.fst).Nodup)
    (hkeys : ∀ table ∈ tables, (table.2.map Prod.fst).Nodup) :
    ∃ header', ((tables.map fun table => (Header.table table.1, table.2)).flatMap
        tableStatements).foldlM obey ⟨root, header⟩ =
      some ⟨root ++ tables.map fun table => (table.1, .table .header table.2), header'⟩ := by
  induction tables generalizing root header with
  | nil => exact ⟨header, by simp⟩
  | cons table tables ih =>
      obtain ⟨name, entries⟩ := table
      obtain ⟨hentries, htables⟩ := List.forall_mem_cons.mp hkeys
      have hname : find? name root = none := find?_eq_none_of_nodup hnames
      have hnames' : ((root ++ [(name, Toml.table .header entries)]).map Prod.fst ++
          tables.map Prod.fst).Nodup := by
        rw [List.map_append, List.append_assoc]
        exact hnames
      obtain ⟨header', hmore⟩ := @ih _ [name] hnames' htables
      rw [List.append_assoc] at hmore
      refine ⟨header', ?_⟩
      rw [List.map_cons, List.flatMap_cons, List.foldlM_append,
        foldlM_obey_table hname header hentries]
      exact hmore

theorem foldlM_obey_items {name : String} (hname : find? name root = none) (header : List String)
    {earlier items : List Entries} (hkeys : ∀ entries ∈ items, (entries.map Prod.fst).Nodup) :
    ∃ header', ((items.map fun entries => (Header.item name, entries)).flatMap
        tableStatements).foldlM obey ⟨root ++ itemsEntry name earlier, header⟩ =
      some ⟨root ++ itemsEntry name (earlier ++ items), header'⟩ := by
  induction items generalizing earlier header with
  | nil => exact ⟨header, by simp⟩
  | cons entries items ih =>
      obtain ⟨hentries, hitems⟩ := List.forall_mem_cons.mp hkeys
      obtain ⟨header', hmore⟩ := @ih [name] (earlier ++ [entries]) hitems
      refine ⟨header', ?_⟩
      rw [List.append_assoc, List.singleton_append] at hmore
      rw [List.map_cons, List.flatMap_cons, List.foldlM_append,
        foldlM_obey_item hname header earlier hentries]
      exact hmore

end

/-- The tables and the items, each with its header. -/
def sections (tables : List (String × Entries)) (name : String) (items : List Entries) :
    List (Header × Entries) :=
  (tables.map fun table => (Header.table table.1, table.2)) ++
    items.map fun entries => (Header.item name, entries)

theorem WrittenTables.dropMark_eq {tables : List (Header × Entries)} {text : List Char}
    (h : WrittenTables tables text) : dropMark text = text := by
  cases h with
  | nil => rfl
  | @cons header => cases header <;> rfl

/-- The tables and the items are read in their order, and the entries of each in theirs. -/
theorem WrittenTables.read?_eq {tables : List (String × Entries)} {name : String}
    {items : List Entries} {text : List Char} (h : WrittenTables (sections tables name items) text)
    (hnames : (tables.map Prod.fst).Nodup) (hname : name ∉ tables.map Prod.fst)
    (htables : ∀ table ∈ tables, (table.2.map Prod.fst).Nodup)
    (hitems : ∀ entries ∈ items, (entries.map Prod.fst).Nodup) :
    read? text = some (document tables name items) := by
  obtain ⟨header, hfirst⟩ := @foldlM_obey_tables [] tables [] hnames htables
  have hroot : find? name (tables.map fun table => (table.1, .table .header table.2)) = none := by
    rw [find?_eq_none_iff, List.map_map]
    exact hname
  obtain ⟨header', hthen⟩ := @foldlM_obey_items _ name hroot header [] items hitems
  rw [itemsEntry, List.append_nil, List.nil_append] at hthen
  have hbuilt : ((sections tables name items).flatMap tableStatements).foldlM obey ⟨[], []⟩ =
      some ⟨document tables name items, header'⟩ := by
    rw [sections, List.flatMap_append, List.foldlM_append, hfirst]
    exact hthen
  rw [read?, h.dropMark_eq, h.readStatements_eq, Option.bind_some, ofStatements?, hbuilt]
  rfl

/-! ## Every document can be written -/

theorem exists_writtenString (text : String) : ∃ written, WrittenValue (.string text) written := by
  obtain ⟨written, htext⟩ := exists_writtenText text.toList
  exact ⟨_, .string htext⟩

theorem exists_writtenEntries {entries : Entries}
    (hkeys : ∀ key ∈ entries.map Prod.fst, IsBareName key)
    (hvalues : ∀ value ∈ entries.map Prod.snd, ∃ written, WrittenValue value written) :
    ∃ lines, WrittenEntries entries lines := by
  induction entries with
  | nil => exact ⟨[], .nil⟩
  | cons entry entries ih =>
      obtain ⟨hkey, hkeys⟩ := List.forall_mem_cons.mp hkeys
      obtain ⟨⟨written, hvalue⟩, hvalues⟩ := List.forall_mem_cons.mp hvalues
      obtain ⟨lines, hlines⟩ := ih hkeys hvalues
      exact ⟨_, .cons hkey hvalue (.last .feed) hlines⟩

theorem exists_writtenTables {tables : List (Header × Entries)}
    (h : ∀ table ∈ tables, IsBareName table.1.name ∧ ∃ lines, WrittenEntries table.2 lines) :
    ∃ text, WrittenTables tables text := by
  induction tables with
  | nil => exact ⟨[], .nil⟩
  | cons table tables ih =>
      obtain ⟨⟨hname, lines, hlines⟩, htables⟩ := List.forall_mem_cons.mp h
      obtain ⟨text, htext⟩ := ih htables
      exact ⟨_, .cons hname (.last .feed) hlines htext⟩

end ThroughputPlot.Toml
