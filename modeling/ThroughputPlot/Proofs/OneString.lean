import ThroughputPlot.Toml.Document
import Mathlib.Tactic

/-!
# Documents that differ in one string

Two documents are compared that are the same but for one string.  A statement never looks into the
strings that are there already, and so it leaves such documents in that relation.  A statement
whose value has the string brings two equal documents into it.
-/

namespace ThroughputPlot.Toml

/-- A step on the way from a value to a value in it. -/
inductive Step where
  | key (name : String)
  | index (n : ℕ)
deriving DecidableEq

/-- The same keys in the same order, with the same values but under one key. -/
structure EntriesDiffer (key : String) (differ : Toml → Toml → Prop) (entries entries' : Entries) :
    Prop where
  mem : key ∈ entries.map Prod.fst
  related : List.Forall₂ (fun entry entry' => entry.1 = entry'.1 ∧
    (entry.1 = key → differ entry.2 entry'.2) ∧ (entry.1 ≠ key → entry.2 = entry'.2))
    entries entries'

def ItemsDiffer {α : Type} (index : ℕ) (differ : α → α → Prop) (items items' : List α) : Prop :=
  ∃ before item item' after, items = before ++ item :: after ∧ items' = before ++ item' :: after ∧
    before.length = index ∧ differ item item'

/-- Two values that are the same but for a string at one place. -/
def DifferAt (s s' : String) : List Step → Toml → Toml → Prop
  | [], .string text, .string text' => text = s ∧ text' = s'
  | .index n :: place, .array items, .array items' =>
    ItemsDiffer n (DifferAt s s' place) items items'
  | .key key :: place, .table origin entries, .table origin' entries' =>
    origin = origin' ∧ EntriesDiffer key (DifferAt s s' place) entries entries'
  | .index n :: .key key :: place, .tables items, .tables items' =>
    ItemsDiffer n (EntriesDiffer key (DifferAt s s' place)) items items'
  | _, _, _ => False

theorem ItemsDiffer.append {α : Type} {n : ℕ} {differ : α → α → Prop} {items items' : List α}
    (hitems : ItemsDiffer n differ items items') (more : List α) :
    ItemsDiffer n differ (items ++ more) (items' ++ more) := by
  obtain ⟨before, item, item', after, rfl, rfl, hn, hdiffer⟩ := hitems
  exact ⟨before, item, item', after ++ more, by simp, by simp, hn, hdiffer⟩

namespace DifferAt

variable {s s' : String} {place : List Step} {x' : Toml}

/-- Strings differ at once, and everything else in what it holds. -/
theorem shape {x : Toml} (hdiffer : DifferAt s s' place x x') :
    (place = [] ∧ x = .string s ∧ x' = .string s') ∨
      (∃ n rest items items', place = .index n :: rest ∧ x = .array items ∧ x' = .array items' ∧
        ItemsDiffer n (DifferAt s s' rest) items items') ∨
      (∃ key rest origin entries entries', place = .key key :: rest ∧ x = .table origin entries ∧
        x' = .table origin entries' ∧ EntriesDiffer key (DifferAt s s' rest) entries entries') ∨
      ∃ n key rest items items', place = .index n :: .key key :: rest ∧ x = .tables items ∧
        x' = .tables items' ∧
        ItemsDiffer n (EntriesDiffer key (DifferAt s s' rest)) items items' := by
  unfold DifferAt at hdiffer
  split at hdiffer <;> simp_all

theorem of_table {origin : Origin} {entries : Entries}
    (hdiffer : DifferAt s s' place (.table origin entries) x') :
    ∃ key rest entries', place = .key key :: rest ∧ x' = .table origin entries' ∧
      EntriesDiffer key (DifferAt s s' rest) entries entries' := by
  unfold DifferAt at hdiffer
  split at hdiffer <;> simp_all

theorem of_tables {items : List Entries} (hdiffer : DifferAt s s' place (.tables items) x') :
    ∃ n key rest items', place = .index n :: .key key :: rest ∧ x' = .tables items' ∧
      ItemsDiffer n (EntriesDiffer key (DifferAt s s' rest)) items items' := by
  unfold DifferAt at hdiffer
  split at hdiffer <;> simp_all

end DifferAt

/-! ## Entries -/

theorem map_fst_replace (key : String) (value : Toml) (entries : Entries) :
    (replace key value entries).map Prod.fst = entries.map Prod.fst := by
  rw [replace, List.map_map]
  apply List.map_congr_left
  rintro ⟨k, v⟩ -
  simp only [Function.comp_apply]
  split <;> rfl

theorem find?_eq_none_iff {key : String} {entries : Entries} :
    find? key entries = none ↔ key ∉ entries.map Prod.fst := by
  rw [find?, List.lookup_eq_none_iff]
  constructor
  · intro hnone hmem
    obtain ⟨entry, hentry, rfl⟩ := List.mem_map.mp hmem
    simpa using hnone entry hentry
  · intro hmissing entry hentry
    have hne : key ≠ entry.1 := by
      rintro rfl
      exact hmissing (List.mem_map_of_mem hentry)
    simpa using hne

namespace EntriesDiffer

variable {key name : String} {differ : Toml → Toml → Prop} {entries entries' : Entries}
  {value value' : Toml}

theorem find?_of_ne (hdiffer : EntriesDiffer key differ entries entries') (hne : name ≠ key) :
    find? name entries' = find? name entries := by
  obtain ⟨-, hrelated⟩ := hdiffer
  induction hrelated with
  | nil => rfl
  | @cons entry entry' entries entries' hfirst _ ih =>
      obtain ⟨k, v⟩ := entry
      obtain ⟨k', v'⟩ := entry'
      obtain ⟨rfl, -, hsame⟩ := hfirst
      by_cases hk : name = k
      · subst hk
        obtain rfl := hsame hne
        simp [find?]
      · have hk' : (name == k) = false := by simpa using hk
        simpa [find?, List.lookup_cons, hk'] using ih

theorem find?_key (hdiffer : EntriesDiffer key differ entries entries') :
    ∃ x x', find? key entries = some x ∧ find? key entries' = some x' ∧ differ x x' := by
  obtain ⟨hmem, hrelated⟩ := hdiffer
  induction hrelated with
  | nil => contradiction
  | @cons entry entry' entries entries' hfirst _ ih =>
      obtain ⟨k, v⟩ := entry
      obtain ⟨k', v'⟩ := entry'
      obtain ⟨rfl, hkey, -⟩ := hfirst
      by_cases hk : key = k
      · exact ⟨v, v', by simp [find?, hk], by simp [find?, hk], hkey hk.symm⟩
      · have hk' : (key == k) = false := by simpa using hk
        have hrest : key ∈ entries.map Prod.fst := by simpa [hk] using hmem
        simpa [find?, List.lookup_cons, hk'] using ih hrest

theorem append (hdiffer : EntriesDiffer key differ entries entries') (hne : name ≠ key)
    (value : Toml) :
    EntriesDiffer key differ (entries ++ [(name, value)]) (entries' ++ [(name, value)]) where
  mem := by simpa using Or.inl hdiffer.mem
  related := List.rel_append hdiffer.related
    (.cons ⟨rfl, fun heq => absurd heq hne, fun _ => rfl⟩ .nil)

theorem replace_of_ne (hdiffer : EntriesDiffer key differ entries entries') (hne : name ≠ key)
    (value : Toml) :
    EntriesDiffer key differ (replace name value entries) (replace name value entries') where
  mem := by simpa [map_fst_replace] using hdiffer.mem
  related := by
    unfold replace
    rw [List.forall₂_map_left_iff, List.forall₂_map_right_iff]
    refine hdiffer.related.imp fun entry entry' hrelated => ?_
    obtain ⟨hkeys, hkey, hsame⟩ := hrelated
    by_cases hname : entry.1 = name
    · have hname' : entry'.1 = name := hkeys.symm.trans hname
      simp [hname, hname', hne]
    · have hname' : entry'.1 ≠ name := hkeys ▸ hname
      simpa [hname, hname'] using ⟨hkeys, hkey, hsame⟩

theorem replace_key {differ' : Toml → Toml → Prop}
    (hdiffer : EntriesDiffer key differ entries entries') (hvalue : differ' value value') :
    EntriesDiffer key differ' (replace key value entries) (replace key value' entries') where
  mem := by simpa [map_fst_replace] using hdiffer.mem
  related := by
    unfold replace
    rw [List.forall₂_map_left_iff, List.forall₂_map_right_iff]
    refine hdiffer.related.imp fun entry entry' hrelated => ?_
    obtain ⟨hkeys, -, hsame⟩ := hrelated
    by_cases hname : entry.1 = key
    · have hname' : entry'.1 = key := hkeys.symm.trans hname
      simp [hname, hname', hvalue]
    · have hname' : entry'.1 ≠ key := hkeys ▸ hname
      simpa [hname, hname'] using ⟨hkeys, hsame hname⟩

end EntriesDiffer

theorem entriesDiffer_new {key : String} {differ : Toml → Toml → Prop} {entries : Entries}
    {value value' : Toml} (hfind : find? key entries = none) (hvalue : differ value value') :
    EntriesDiffer key differ (entries ++ [(key, value)]) (entries ++ [(key, value')]) where
  mem := by simp
  related := by
    refine List.rel_append (List.forall₂_same.mpr fun entry hentry => ?_)
      (.cons ⟨rfl, fun _ => hvalue, fun hne => absurd rfl hne⟩ .nil)
    have hne : entry.1 ≠ key := fun heq =>
      find?_eq_none_iff.mp hfind (heq ▸ List.mem_map_of_mem hentry)
    exact ⟨rfl, fun heq => absurd heq hne, fun _ => rfl⟩

theorem entriesDiffer_replace {key : String} {differ : Toml → Toml → Prop} {entries : Entries}
    {value value' found : Toml} (hfind : find? key entries = some found)
    (hvalue : differ value value') :
    EntriesDiffer key differ (replace key value entries) (replace key value' entries) := by
  have hmem : key ∈ entries.map Prod.fst := by
    by_contra hmissing
    rw [find?_eq_none_iff.mpr hmissing] at hfind
    contradiction
  have hsame : EntriesDiffer key (· = ·) entries entries :=
    ⟨hmem, List.forall₂_same.mpr fun _ _ => ⟨rfl, fun _ => rfl, fun _ => rfl⟩⟩
  exact hsame.replace_key hvalue

/-! ## The last item of an array of tables -/

theorem changeLast_eq_some_iff {change : Entries → Option Entries} {items result : List Entries} :
    changeLast change items = some result ↔
      ∃ front last changed, items = front ++ [last] ∧ change last = some changed ∧
        result = front ++ [changed] := by
  induction items generalizing result with
  | nil => simp [changeLast]
  | cons item items ih =>
      cases items with
      | nil =>
          simp only [changeLast, Option.map_eq_some_iff]
          constructor
          · rintro ⟨changed, hchange, rfl⟩
            exact ⟨[], item, changed, rfl, hchange, rfl⟩
          · rintro ⟨front, last, changed, hsplit, hchange, rfl⟩
            cases front with
            | nil =>
                obtain rfl : item = last := by simpa using hsplit
                exact ⟨changed, hchange, rfl⟩
            | cons first front => simp at hsplit
      | cons next items =>
          rw [changeLast]
          · simp only [Option.map_eq_some_iff, ih]
            constructor
            · rintro ⟨_, ⟨front, last, changed, hsplit, hchange, rfl⟩, rfl⟩
              exact ⟨item :: front, last, changed, congrArg (item :: ·) hsplit, hchange, rfl⟩
            · rintro ⟨front, last, changed, hsplit, hchange, rfl⟩
              cases front with
              | nil => simp at hsplit
              | cons first front =>
                  obtain ⟨rfl, hsplit'⟩ := List.cons.inj hsplit
                  exact ⟨_, ⟨front, last, changed, hsplit', hchange, rfl⟩, rfl⟩
          · simp

/-! ## Changes that do not look at the difference -/

section

variable (s s' : String)

/-- Tables that differ in one string differ in it after the change. -/
def Carries (change : Entries → Option Entries) : Prop :=
  ∀ key place entries entries' result, EntriesDiffer key (DifferAt s s' place) entries entries' →
    change entries = some result →
    ∃ result', change entries' = some result' ∧
      EntriesDiffer key (DifferAt s s' place) result result'

/-- Equal tables differ in one string after the two changes. -/
def Brings (change change' : Entries → Option Entries) : Prop :=
  ∀ entries result, change entries = some result →
    ∃ result' key place, change' entries = some result' ∧
      EntriesDiffer key (DifferAt s s' place) result result'

end

/-- A change inside the table of a key; the table is made if the key is not there. -/
inductive Entered (change : Entries → Option Entries) (origin : Origin) (passes : Origin → Prop)
    (passesItems : Prop) (key : String) (entries : Entries) : Entries → Prop
  | new {inner : Entries} (hfind : find? key entries = none) (hchange : change [] = some inner) :
      Entered change origin passes passesItems key entries (entries ++ [(key, .table origin inner)])
  | table {found : Origin} {inner changed : Entries}
      (hfind : find? key entries = some (.table found inner)) (hpasses : passes found)
      (hchange : change inner = some changed) :
      Entered change origin passes passesItems key entries
        (replace key (.table found changed) entries)
  | tables {items changed : List Entries} (hfind : find? key entries = some (.tables items))
      (hpasses : passesItems) (hchange : changeLast change items = some changed) :
      Entered change origin passes passesItems key entries
        (replace key (.tables changed) entries)

section

variable {s s' : String} {change change' : Entries → Option Entries} {origin : Origin}
  {passes : Origin → Prop} {passesItems : Prop} {key : String}

theorem Carries.changeLast (hcarries : Carries s s' change) {n : ℕ} {place : List Step}
    {items items' result : List Entries}
    (hitems : ItemsDiffer n (EntriesDiffer key (DifferAt s s' place)) items items')
    (hchange : changeLast change items = some result) :
    ∃ result', Toml.changeLast change items' = some result' ∧
      ItemsDiffer n (EntriesDiffer key (DifferAt s s' place)) result result' := by
  obtain ⟨before, item, item', after, rfl, rfl, hn, hdiffer⟩ := hitems
  obtain ⟨front, last, changed, hsplit, hlast, rfl⟩ := changeLast_eq_some_iff.mp hchange
  rcases List.eq_nil_or_concat after with rfl | ⟨between, last', rfl⟩
  · obtain ⟨rfl, hlast'⟩ := List.append_inj' hsplit rfl
    obtain rfl := List.singleton_inj.mp hlast'
    obtain ⟨changed', hchange', hchanged⟩ := hcarries _ _ _ _ _ hdiffer hlast
    exact ⟨before ++ [changed'],
      changeLast_eq_some_iff.mpr ⟨before, item', changed', rfl, hchange', rfl⟩,
      before, changed, changed', [], rfl, rfl, hn, hchanged⟩
  · have hsplit' : (before ++ item :: between) ++ [last'] = front ++ [last] := by
      simpa using hsplit
    obtain ⟨rfl, hlast'⟩ := List.append_inj' hsplit' rfl
    obtain rfl := List.singleton_inj.mp hlast'
    refine ⟨before ++ item' :: between ++ [changed], changeLast_eq_some_iff.mpr
      ⟨before ++ item' :: between, last', changed, by simp, hlast, rfl⟩, ?_⟩
    exact ⟨before, item, item', between ++ [changed], by simp, by simp, hn, hdiffer⟩

theorem Brings.changeLast (hbrings : Brings s s' change change') {items result : List Entries}
    (hchange : changeLast change items = some result) :
    ∃ result' n key place, Toml.changeLast change' items = some result' ∧
      ItemsDiffer n (EntriesDiffer key (DifferAt s s' place)) result result' := by
  obtain ⟨front, last, changed, rfl, hlast, rfl⟩ := changeLast_eq_some_iff.mp hchange
  obtain ⟨changed', key, place, hlast', hdiffer⟩ := hbrings _ _ hlast
  exact ⟨front ++ [changed'], front.length, key, place,
    changeLast_eq_some_iff.mpr ⟨front, last, changed', rfl, hlast', rfl⟩,
    front, changed, changed', [], rfl, rfl, rfl, hdiffer⟩

theorem Entered.carries (hcarries : Carries s s' change) {name : String} {place : List Step}
    {entries entries' result : Entries}
    (hdiffer : EntriesDiffer name (DifferAt s s' place) entries entries')
    (hentered : Entered change origin passes passesItems key entries result) :
    ∃ result', Entered change origin passes passesItems key entries' result' ∧
      EntriesDiffer name (DifferAt s s' place) result result' := by
  by_cases hkey : key = name
  · subst hkey
    obtain ⟨x, x', hx, hx', hvalue⟩ := hdiffer.find?_key
    cases hentered with
    | new hfind =>
        rw [hx] at hfind
        contradiction
    | table hfind hpasses hchange =>
        obtain rfl := Option.some.inj (hx.symm.trans hfind)
        obtain ⟨k, rest, inner', rfl, rfl, hinner⟩ := hvalue.of_table
        obtain ⟨changed', hchange', hchanged⟩ := hcarries _ _ _ _ _ hinner hchange
        exact ⟨_, .table hx' hpasses hchange', hdiffer.replace_key ⟨rfl, hchanged⟩⟩
    | tables hfind hpasses hchange =>
        obtain rfl := Option.some.inj (hx.symm.trans hfind)
        obtain ⟨n, k, rest, items', rfl, rfl, hitems⟩ := hvalue.of_tables
        obtain ⟨changed', hchange', hchanged⟩ := hcarries.changeLast hitems hchange
        exact ⟨_, .tables hx' hpasses hchange', hdiffer.replace_key hchanged⟩
  · have hsame := hdiffer.find?_of_ne hkey
    cases hentered with
    | new hfind hchange =>
        exact ⟨_, .new (hsame.trans hfind) hchange, hdiffer.append hkey _⟩
    | table hfind hpasses hchange =>
        exact ⟨_, .table (hsame.trans hfind) hpasses hchange, hdiffer.replace_of_ne hkey _⟩
    | tables hfind hpasses hchange =>
        exact ⟨_, .tables (hsame.trans hfind) hpasses hchange, hdiffer.replace_of_ne hkey _⟩

theorem Entered.brings (hbrings : Brings s s' change change') {entries result : Entries}
    (hentered : Entered change origin passes passesItems key entries result) :
    ∃ result' place, Entered change' origin passes passesItems key entries result' ∧
      EntriesDiffer key (DifferAt s s' place) result result' := by
  cases hentered with
  | new hfind hchange =>
      obtain ⟨inner', name, place, hchange', hdiffer⟩ := hbrings _ _ hchange
      exact ⟨_, .key name :: place, .new hfind hchange', entriesDiffer_new hfind ⟨rfl, hdiffer⟩⟩
  | table hfind hpasses hchange =>
      obtain ⟨inner', name, place, hchange', hdiffer⟩ := hbrings _ _ hchange
      exact ⟨_, .key name :: place, .table hfind hpasses hchange',
        entriesDiffer_replace hfind ⟨rfl, hdiffer⟩⟩
  | tables hfind hpasses hchange =>
      obtain ⟨items', n, name, place, hchange', hdiffer⟩ := hbrings.changeLast hchange
      exact ⟨_, .index n :: .key name :: place, .tables hfind hpasses hchange',
        entriesDiffer_replace hfind hdiffer⟩

end

/-! ## Statements -/

theorem put_singleton_eq_some_iff {value : Toml} {key : String} {entries result : Entries} :
    put value [key] entries = some result ↔
      find? key entries = none ∧ result = entries ++ [(key, value)] := by
  rw [put]
  cases find? key entries with
  | none => simp [eq_comm]
  | some found => simp

/-- The tables that the rest of a dotted key may lead through. -/
def PassesKey (rest : List String) (origin : Origin) : Prop :=
  origin = .dotted ∨ (origin = .implied ∧ 1 < rest.length)

theorem put_cons_eq_some_iff {value : Toml} {key : String} {rest : List String}
    (hrest : rest ≠ []) {entries result : Entries} :
    put value (key :: rest) entries = some result ↔
      Entered (put value rest) .dotted (PassesKey rest) (1 < rest.length) key entries result := by
  rw [put]
  · constructor
    · intro hput
      split at hput
      next hfind =>
        obtain ⟨inner, hinner, rfl⟩ := Option.map_eq_some_iff.mp hput
        exact .new hfind hinner
      next origin inner hfind =>
        split at hput
        next hpasses =>
          obtain ⟨changed, hchange, rfl⟩ := Option.map_eq_some_iff.mp hput
          exact .table hfind (by simpa [PassesKey] using hpasses) hchange
        · contradiction
      next items hfind =>
        split at hput
        next hlong =>
          obtain ⟨changed, hchange, rfl⟩ := Option.map_eq_some_iff.mp hput
          exact .tables hfind hlong hchange
        · contradiction
      · contradiction
    · rintro (⟨hfind, hchange⟩ | ⟨hfind, hpasses, hchange⟩ | ⟨hfind, hlong, hchange⟩)
      · simp [hfind, hchange]
      · have hpasses' := hpasses
        simp only [PassesKey] at hpasses'
        simp [hfind, hpasses', hchange]
      · simp [hfind, hlong, hchange]
  · exact hrest

theorem descend_cons_eq_some_iff {change : Entries → Option Entries} {key : String}
    {rest : List String} {entries result : Entries} :
    descend change (key :: rest) entries = some result ↔
      Entered (descend change rest) .implied (· ≠ .inline) True key entries result := by
  rw [descend]
  constructor
  · intro hdescend
    split at hdescend
    next hfind =>
      obtain ⟨inner, hinner, rfl⟩ := Option.map_eq_some_iff.mp hdescend
      exact .new hfind hinner
    next origin inner hfind =>
      split at hdescend
      · contradiction
      next hpasses =>
        obtain ⟨changed, hchange, rfl⟩ := Option.map_eq_some_iff.mp hdescend
        exact .table hfind hpasses hchange
    next items hfind =>
      obtain ⟨changed, hchange, rfl⟩ := Option.map_eq_some_iff.mp hdescend
      exact .tables hfind trivial hchange
    · contradiction
  · rintro (⟨hfind, hchange⟩ | ⟨hfind, hpasses, hchange⟩ | ⟨hfind, _, hchange⟩)
    · simp [hfind, hchange]
    · simp [hfind, hpasses, hchange]
    · simp [hfind, hchange]

section

variable {s s' : String}

theorem carries_put (value : Toml) (path : List String) : Carries s s' (put value path) := by
  intro name place entries entries' result hdiffer hput
  induction path generalizing name place entries entries' result with
  | nil => contradiction
  | cons key rest ih =>
      by_cases hrest : rest = []
      · subst hrest
        obtain ⟨hfind, rfl⟩ := put_singleton_eq_some_iff.mp hput
        have hne : key ≠ name := by
          rintro rfl
          exact find?_eq_none_iff.mp hfind hdiffer.mem
        have hfind' := (hdiffer.find?_of_ne hne).trans hfind
        exact ⟨_, put_singleton_eq_some_iff.mpr ⟨hfind', rfl⟩, hdiffer.append hne value⟩
      · have hentered := (put_cons_eq_some_iff hrest).mp hput
        obtain ⟨result', hentered', hresult⟩ :=
          hentered.carries ih hdiffer
        exact ⟨result', (put_cons_eq_some_iff hrest).mpr hentered', hresult⟩

theorem brings_put {value value' : Toml} {place : List Step}
    (hvalue : DifferAt s s' place value value') (path : List String) :
    Brings s s' (put value path) (put value' path) := by
  intro entries result hput
  induction path generalizing entries result with
  | nil => contradiction
  | cons key rest ih =>
      by_cases hrest : rest = []
      · subst hrest
        obtain ⟨hfind, rfl⟩ := put_singleton_eq_some_iff.mp hput
        exact ⟨_, key, place, put_singleton_eq_some_iff.mpr ⟨hfind, rfl⟩,
          entriesDiffer_new hfind hvalue⟩
      · have hentered := (put_cons_eq_some_iff hrest).mp hput
        obtain ⟨result', place', hentered', hresult⟩ := hentered.brings ih
        exact ⟨result', key, place', (put_cons_eq_some_iff hrest).mpr hentered', hresult⟩

theorem Carries.descend {change : Entries → Option Entries} (hcarries : Carries s s' change)
    (path : List String) : Carries s s' (descend change path) := by
  induction path with
  | nil => exact hcarries
  | cons key rest ih =>
      intro name place entries entries' result hdiffer hdescend
      obtain ⟨result', hentered', hresult⟩ :=
        (descend_cons_eq_some_iff.mp hdescend).carries ih hdiffer
      exact ⟨result', descend_cons_eq_some_iff.mpr hentered', hresult⟩

theorem Brings.descend {change change' : Entries → Option Entries}
    (hbrings : Brings s s' change change') (path : List String) :
    Brings s s' (descend change path) (descend change' path) := by
  induction path with
  | nil => exact hbrings
  | cons key rest ih =>
      intro entries result hdescend
      obtain ⟨result', place, hentered', hresult⟩ :=
        (descend_cons_eq_some_iff.mp hdescend).brings ih
      exact ⟨result', key, place, descend_cons_eq_some_iff.mpr hentered', hresult⟩

theorem carries_openTable (key : String) : Carries s s' (openTable key) := by
  intro name place entries entries' result hdiffer hopen
  unfold openTable at hopen ⊢
  by_cases hkey : key = name
  · subst hkey
    obtain ⟨x, x', hx, hx', hvalue⟩ := hdiffer.find?_key
    rw [hx] at hopen
    split at hopen
    next hfind => contradiction
    next inner hfind =>
      obtain rfl := Option.some.inj hfind
      obtain rfl := Option.some.inj hopen
      obtain ⟨k, rest, inner', rfl, rfl, hinner⟩ := hvalue.of_table
      rw [hx']
      exact ⟨_, rfl, hdiffer.replace_key ⟨rfl, hinner⟩⟩
    · contradiction
  · rw [hdiffer.find?_of_ne hkey]
    split at hopen
    next hfind =>
      obtain rfl := Option.some.inj hopen
      exact ⟨_, rfl, hdiffer.append hkey _⟩
    next inner hfind =>
      obtain rfl := Option.some.inj hopen
      exact ⟨_, rfl, hdiffer.replace_of_ne hkey _⟩
    · contradiction

theorem carries_openItem (key : String) : Carries s s' (openItem key) := by
  intro name place entries entries' result hdiffer hopen
  unfold openItem at hopen ⊢
  by_cases hkey : key = name
  · subst hkey
    obtain ⟨x, x', hx, hx', hvalue⟩ := hdiffer.find?_key
    rw [hx] at hopen
    split at hopen
    next hfind => contradiction
    next items hfind =>
      obtain rfl := Option.some.inj hfind
      obtain rfl := Option.some.inj hopen
      obtain ⟨n, k, rest, items', rfl, rfl, hitems⟩ := hvalue.of_tables
      rw [hx']
      exact ⟨_, rfl, hdiffer.replace_key (hitems.append [[]])⟩
    · contradiction
  · rw [hdiffer.find?_of_ne hkey]
    split at hopen
    next hfind =>
      obtain rfl := Option.some.inj hopen
      exact ⟨_, rfl, hdiffer.append hkey _⟩
    next items hfind =>
      obtain rfl := Option.some.inj hopen
      exact ⟨_, rfl, hdiffer.replace_of_ne hkey _⟩
    · contradiction

theorem exists_openAt_of_differ {opening : String → Entries → Option Entries}
    (hopening : ∀ key, Carries s s' (opening key)) {key : String} {place : List Step}
    {path : List String} {building building' next : Building}
    (hroot : EntriesDiffer key (DifferAt s s' place) building.root building'.root)
    (hopen : openAt opening path building = some next) :
    ∃ next', openAt opening path building' = some next' ∧ next'.header = next.header ∧
      EntriesDiffer key (DifferAt s s' place) next.root next'.root := by
  unfold openAt at hopen ⊢
  cases hlast : path.getLast? with
  | none => simp [hlast] at hopen
  | some last =>
      simp only [hlast, Option.map_eq_some_iff] at hopen
      obtain ⟨root, hdescend, rfl⟩ := hopen
      obtain ⟨root', hdescend', hdiffer⟩ :=
        (hopening last).descend path.dropLast _ _ _ _ _ hroot hdescend
      exact ⟨⟨root', path⟩, by simp [hdescend'], rfl, hdiffer⟩

theorem exists_obey_of_differ {key : String} {place : List Step}
    {building building' next : Building} {statement : Statement}
    (hroot : EntriesDiffer key (DifferAt s s' place) building.root building'.root)
    (hheader : building'.header = building.header) (hobey : obey building statement = some next) :
    ∃ next', obey building' statement = some next' ∧ next'.header = next.header ∧
      EntriesDiffer key (DifferAt s s' place) next.root next'.root := by
  cases statement with
  | pair path value =>
      obtain ⟨root, hdescend, rfl⟩ := Option.map_eq_some_iff.mp hobey
      obtain ⟨root', hdescend', hdiffer⟩ :=
        (carries_put value path).descend building.header _ _ _ _ _ hroot hdescend
      refine ⟨{ building' with root := root' }, ?_, hheader, hdiffer⟩
      simp [obey, hheader, hdescend']
  | table path => exact exists_openAt_of_differ carries_openTable hroot hobey
  | item path => exact exists_openAt_of_differ carries_openItem hroot hobey

theorem exists_obey_pair_of_differ {place : List Step} {value value' : Toml} {path : List String}
    {building next : Building} (hvalue : DifferAt s s' place value value')
    (hobey : obey building (.pair path value) = some next) :
    ∃ next' key place', obey building (.pair path value') = some next' ∧
      next'.header = next.header ∧
      EntriesDiffer key (DifferAt s s' place') next.root next'.root := by
  obtain ⟨root, hdescend, rfl⟩ := Option.map_eq_some_iff.mp hobey
  obtain ⟨root', key, place', hdescend', hdiffer⟩ :=
    (brings_put hvalue path).descend building.header _ _ hdescend
  exact ⟨{ building with root := root' }, key, place', by simp [obey, hdescend'], rfl, hdiffer⟩

end

/-! ## Whole documents -/

section

variable {σ α : Type} {step : σ → α → Option σ} {differ : σ → σ → Prop}

theorem exists_foldlM_of_differ
    (hstep : ∀ a a' x r, differ a a' → step a x = some r → ∃ r', step a' x = some r' ∧ differ r r')
    {xs : List α} {a a' r : σ} (ha : differ a a') (hfold : xs.foldlM step a = some r) :
    ∃ r', xs.foldlM step a' = some r' ∧ differ r r' := by
  induction xs generalizing a a' with
  | nil =>
      obtain rfl := Option.some.inj hfold
      exact ⟨a', rfl, ha⟩
  | cons x xs ih =>
      rw [List.foldlM_cons] at hfold
      obtain ⟨b, hb, hfold⟩ := Option.bind_eq_some_iff.mp hfold
      obtain ⟨b', hb', hbs⟩ := hstep _ _ _ _ ha hb
      obtain ⟨r', hr', hrs⟩ := ih hbs hfold
      exact ⟨r', by rw [List.foldlM_cons, hb']; exact hr', hrs⟩

/-- One element is another, and what is done with the two differs. -/
theorem exists_foldlM_of_changed
    (hstep : ∀ a a' x r, differ a a' → step a x = some r → ∃ r', step a' x = some r' ∧ differ r r')
    {before after : List α} {x x' : α}
    (hchanged : ∀ a r, step a x = some r → ∃ r', step a x' = some r' ∧ differ r r')
    {a r : σ} (hfold : (before ++ x :: after).foldlM step a = some r) :
    ∃ r', (before ++ x' :: after).foldlM step a = some r' ∧ differ r r' := by
  rw [List.foldlM_append] at hfold
  obtain ⟨b, hb, hfold⟩ := Option.bind_eq_some_iff.mp hfold
  rw [List.foldlM_cons] at hfold
  obtain ⟨c, hc, hfold⟩ := Option.bind_eq_some_iff.mp hfold
  obtain ⟨c', hc', hcs⟩ := hchanged _ _ hc
  obtain ⟨r', hr', hrs⟩ := exists_foldlM_of_differ hstep hcs hfold
  refine ⟨r', ?_, hrs⟩
  rw [List.foldlM_append, hb, Option.bind_eq_bind, Option.bind_some, List.foldlM_cons, hc']
  exact hr'

end

section

variable {s s' : String} {place : List Step} {value value' : Toml} {path : List String}

theorem exists_inlineEntries_of_differ (hvalue : DifferAt s s' place value value')
    {before after : List (List String × Toml)} {entries : Entries}
    (hentries : inlineEntries (before ++ (path, value) :: after) = some entries) :
    ∃ entries' key place', inlineEntries (before ++ (path, value') :: after) = some entries' ∧
      EntriesDiffer key (DifferAt s s' place') entries entries' := by
  have hcarries : ∀ (a a' : Entries) (pair : List String × Toml) r,
      (∃ key place, EntriesDiffer key (DifferAt s s' place) a a') → put pair.2 pair.1 a = some r →
      ∃ r', put pair.2 pair.1 a' = some r' ∧
        ∃ key place, EntriesDiffer key (DifferAt s s' place) r r' := by
    rintro a a' pair r ⟨key, place, ha⟩ hput
    obtain ⟨r', hput', hr⟩ := carries_put pair.2 pair.1 _ _ _ _ _ ha hput
    exact ⟨r', hput', key, place, hr⟩
  have hbrings : ∀ a r, put value path a = some r → ∃ r', put value' path a = some r' ∧
      ∃ key place, EntriesDiffer key (DifferAt s s' place) r r' := by
    intro a r hput
    obtain ⟨r', key, place, hput', hr⟩ := brings_put hvalue path _ _ hput
    exact ⟨r', hput', key, place, hr⟩
  obtain ⟨entries', hentries', key, place', hdiffer⟩ :=
    @exists_foldlM_of_changed _ _ _ _ hcarries before after (path, value) (path, value') hbrings
      [] entries hentries
  exact ⟨entries', key, place', hentries', hdiffer⟩

theorem exists_ofStatements_of_differ (hvalue : DifferAt s s' place value value')
    {before after : List Statement} {document : Entries}
    (hdocument : ofStatements? (before ++ .pair path value :: after) = some document) :
    ∃ document' key place', ofStatements? (before ++ .pair path value' :: after) = some document' ∧
      EntriesDiffer key (DifferAt s s' place') document document' := by
  have hcarries : ∀ (a a' : Building) (statement : Statement) r,
      (a'.header = a.header ∧ ∃ key place, EntriesDiffer key (DifferAt s s' place) a.root a'.root) →
      obey a statement = some r →
      ∃ r', obey a' statement = some r' ∧ r'.header = r.header ∧
        ∃ key place, EntriesDiffer key (DifferAt s s' place) r.root r'.root := by
    rintro a a' statement r ⟨hheader, key, place, hroot⟩ hobey
    obtain ⟨r', hobey', hheader', hr⟩ := exists_obey_of_differ hroot hheader hobey
    exact ⟨r', hobey', hheader', key, place, hr⟩
  have hbrings : ∀ a r, obey a (.pair path value) = some r →
      ∃ r', obey a (.pair path value') = some r' ∧ r'.header = r.header ∧
        ∃ key place, EntriesDiffer key (DifferAt s s' place) r.root r'.root := by
    intro a r hobey
    obtain ⟨r', key, place, hobey', hheader, hr⟩ := exists_obey_pair_of_differ hvalue hobey
    exact ⟨r', hobey', hheader, key, place, hr⟩
  obtain ⟨building, hbuilding, rfl⟩ := Option.map_eq_some_iff.mp hdocument
  obtain ⟨building', hbuilding', -, key, place', hdiffer⟩ :=
    exists_foldlM_of_changed hcarries hbrings hbuilding
  exact ⟨building'.root, key, place', by simp [ofStatements?, hbuilding'], hdiffer⟩

end

end ThroughputPlot.Toml
