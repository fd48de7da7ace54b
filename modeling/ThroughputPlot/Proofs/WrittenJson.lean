import ThroughputPlot.Proofs.JsonStrings
import ThroughputPlot.Proofs.NumberTexts

/-!
# Written JSON

A value is spelled with any gaps around brackets, commas and colons, and with any spelling of its
strings.  Whatever spelling is taken, the value is read back from it, with nothing lost behind it.
The compact form and the indented form of a value are both spellings of it.
-/

namespace ThroughputPlot.Json

open Text (Reader ListForm readItems readItems_closed readItems_last readItems_more readList
  readList_of_gap)

/-! ## Spellings -/

/-- A text that may stand around brackets, commas and colons. -/
def IsGap (gap : List Char) : Prop := ∀ c ∈ gap, isGap c = true

section

variable {α : Type} (item : α → List Char → Prop) (close : Char)

/-- Items with commas between them, from the first item up to the closing bracket. -/
inductive WrittenItems : List α → List Char → Prop
  | last {value : α} {written gap : List Char} (hvalue : item value written) (hgap : IsGap gap) :
      WrittenItems [value] (written ++ (gap ++ [close]))
  | more {value : α} {values : List α} {written gap gap' text : List Char}
      (hvalue : item value written) (hgap : IsGap gap) (hgap' : IsGap gap')
      (hvalues : WrittenItems values text) :
      WrittenItems (value :: values) (written ++ (gap ++ ',' :: (gap' ++ text)))

/-- A list from behind its opening bracket. -/
inductive WrittenList : List α → List Char → Prop
  | empty {gap : List Char} (hgap : IsGap gap) : WrittenList [] (gap ++ [close])
  | items {values : List α} {gap text : List Char} (hgap : IsGap gap)
      (hvalues : WrittenItems item close values text) : WrittenList values (gap ++ text)

end

/-- A member of an object: a key, a colon and a value. -/
inductive WrittenMember (value : Json → List Char → Prop) :
    Option String × Json → List Char → Prop
  | mk {key : String} {item : Json} {name gap gap' written : List Char}
      (hkey : WrittenString key name) (hgap : IsGap gap) (hgap' : IsGap gap')
      (hvalue : value item written) :
      WrittenMember value (some key, item) (name ++ (gap ++ ':' :: (gap' ++ written)))

/-- A spelling of a value that nests at most `depth` arrays and objects. -/
def Written : ℕ → Json → List Char → Prop
  | _, .null, text => text = "null".toList
  | _, .bool value, text => text = if value then "true".toList else "false".toList
  | _, .number literal, text => text = literal.toList ∧ ∃ n : NumberText, n.text = text
  | _, .string content, text => ∃ s, content = some s ∧ WrittenString s text
  | depth + 1, .array items, text =>
    ∃ written, text = '[' :: written ∧ WrittenList (Written depth) ']' items written
  | depth + 1, .object members, text =>
    ∃ written, text = '{' :: written ∧
      WrittenList (WrittenMember (Written depth)) '}' members written
  | 0, .array _, _ => False
  | 0, .object _, _ => False

/-! ## Gaps -/

theorem skipGap_append {gap : List Char} (hgap : IsGap gap) (rest : List Char) :
    skipGap (gap ++ rest) = skipGap rest :=
  List.dropWhile_append_of_pos hgap

theorem skipGap_cons {c : Char} (hc : isGap c = false) (rest : List Char) :
    skipGap (c :: rest) = c :: rest :=
  List.dropWhile_cons_of_neg (by simp [hc])

theorem endsNumber_gap {gap rest : List Char} (hgap : IsGap gap)
    (hrest : NumberText.EndsNumber rest) : NumberText.EndsNumber (gap ++ rest) := by
  cases gap with
  | nil => exact hrest
  | cons c gap =>
      rintro d ⟨⟩
      have hc : isGap c = true := hgap c List.mem_cons_self
      simp only [isGap, Bool.or_eq_true, decide_eq_true_eq, or_assoc] at hc
      rcases hc with rfl | rfl | rfl | rfl <;> decide

/-! ## Lists -/

/-- A text that starts neither with a gap nor with a closing bracket. -/
def StartsItem (text : List Char) : Prop :=
  ∃ c more, text = c :: more ∧ isGap c = false ∧ c ≠ ']' ∧ c ≠ '}'

theorem StartsItem.append {text : List Char} (h : StartsItem text) (rest : List Char) :
    StartsItem (text ++ rest) := by
  obtain ⟨c, more, rfl, hc⟩ := h
  exact ⟨c, more ++ rest, rfl, hc⟩

theorem StartsItem.skipGap_eq {text : List Char} (h : StartsItem text) : skipGap text = text := by
  obtain ⟨c, more, rfl, hc, -, -⟩ := h
  exact skipGap_cons hc more

/-- A reader takes all of each spelling that is not too long, and nothing behind it. -/
structure ReadsBack {α : Type} (reader : Reader α) (item : α → List Char → Prop) (limit : ℕ) :
    Prop where
  startsItem : ∀ {value written}, item value written → StartsItem written
  read : ∀ {value written rest}, item value written → written.length ≤ limit →
    NumberText.EndsNumber rest → reader (written ++ rest) = some (value, rest)

/-- The form of an array or an object. -/
structure IsListForm (form : ListForm) : Prop where
  skipGap_eq : form.skipGap = some ∘ skipGap
  close_eq : form.close = ']' ∨ form.close = '}'

theorem isListForm_arrayForm : IsListForm arrayForm := ⟨rfl, .inl rfl⟩

theorem isListForm_objectForm : IsListForm objectForm := ⟨rfl, .inr rfl⟩

section

variable {α : Type} {reader : Reader α} {item : α → List Char → Prop} {limit : ℕ}
  {form : ListForm} {values : List α} {text : List Char}

namespace IsListForm

variable (hform : IsListForm form)

include hform

theorem forall_close {p : Char → Prop} (hbracket : p ']') (hbrace : p '}') : p form.close := by
  rcases hform.close_eq with hclose | hclose
  · rwa [hclose]
  · rwa [hclose]

theorem comma_ne : ',' ≠ form.close := hform.forall_close (by decide) (by decide)

theorem endsNumber_close (rest : List Char) : NumberText.EndsNumber (form.close :: rest) := by
  apply hform.forall_close (p := fun close => NumberText.EndsNumber (close :: rest))
  · rintro c ⟨⟩
    decide
  · rintro c ⟨⟩
    decide

theorem skipGap_close {gap : List Char} (hgap : IsGap gap) (rest : List Char) :
    form.skipGap (gap ++ form.close :: rest) = some (form.close :: rest) := by
  have hclose : isGap form.close = false :=
    hform.forall_close (p := fun close => isGap close = false) rfl rfl
  rw [hform.skipGap_eq, Function.comp_apply, skipGap_append hgap, skipGap_cons hclose]

theorem skipGap_item {gap : List Char} (hgap : IsGap gap) (htext : StartsItem text) :
    form.skipGap (gap ++ text) = some text := by
  rw [hform.skipGap_eq, Function.comp_apply, skipGap_append hgap, htext.skipGap_eq]

theorem head_ne {c : Char} (hbracket : c ≠ ']') (hbrace : c ≠ '}') : c ≠ form.close :=
  hform.forall_close hbracket hbrace

end IsListForm

theorem WrittenItems.startsItem (hreads : ReadsBack reader item limit) {close : Char}
    (h : WrittenItems item close values text) : StartsItem text := by
  cases h with
  | last hvalue | more hvalue => exact (hreads.startsItem hvalue).append _

theorem WrittenItems.readItems_eq (hform : IsListForm form) (hreads : ReadsBack reader item limit)
    (h : WrittenItems item form.close values text) (hlength : text.length ≤ limit)
    (isOpen : Bool) (rest : List Char) :
    readItems form reader isOpen (text ++ rest) = some (values, rest) := by
  induction h generalizing isOpen with
  | @last value written gap hvalue hgap =>
      have htext : written ++ (gap ++ [form.close]) ++ rest =
          written ++ (gap ++ form.close :: rest) := by simp
      have hends := endsNumber_gap hgap (hform.endsNumber_close rest)
      have hread := hreads.read hvalue (by simp at hlength; omega) hends
      obtain ⟨c, more, hhead, -, hbracket, hbrace⟩ := hreads.startsItem hvalue
      rw [htext]
      refine readItems_last ?_ (hform.head_ne hbracket hbrace) hread (hform.skipGap_close hgap rest)
      rw [hhead]
      rfl
  | @more value values written gap gap' text hvalue hgap hgap' hvalues ih =>
      have htext : written ++ (gap ++ ',' :: (gap' ++ text)) ++ rest =
          written ++ (gap ++ ',' :: (gap' ++ (text ++ rest))) := by simp
      have hends : NumberText.EndsNumber (gap ++ ',' :: (gap' ++ (text ++ rest))) :=
        endsNumber_gap hgap (by rintro c ⟨⟩; decide)
      have hread := hreads.read hvalue (by simp at hlength; omega) hends
      have hcomma : form.skipGap (gap ++ ',' :: (gap' ++ (text ++ rest))) =
          some (',' :: (gap' ++ (text ++ rest))) :=
        hform.skipGap_item hgap ⟨',', _, rfl, by decide⟩
      have hnext := hform.skipGap_item hgap' ((hvalues.startsItem hreads).append rest)
      have hrest := ih (by simp at hlength; omega) form.allowsLastComma
      obtain ⟨c, more, hhead, -, hbracket, hbrace⟩ := hreads.startsItem hvalue
      rw [htext, readItems_more _ (hform.head_ne hbracket hbrace) hread hcomma hform.comma_ne hnext,
        hrest]
      · rfl
      · simp
        omega
      · rw [hhead]
        rfl

theorem WrittenList.readList_eq (hform : IsListForm form) (hreads : ReadsBack reader item limit)
    (h : WrittenList item form.close values text) (hlength : text.length ≤ limit)
    (rest : List Char) : readList form reader (text ++ rest) = some (values, rest) := by
  cases h with
  | @empty gap hgap =>
      have hclose := hform.skipGap_close hgap rest
      rw [List.append_cons] at hclose
      rw [readList_of_gap hclose]
      exact readItems_closed rfl
  | @items _ gap text hgap hvalues =>
      have hitems := hform.skipGap_item hgap ((hvalues.startsItem hreads).append rest)
      have hread := hvalues.readItems_eq hform hreads (by simp at hlength; omega) true rest
      rw [List.append_assoc, readList_of_gap hitems, hread]

end

/-! ## Values -/

theorem readMember_quote (value : Reader Json) (rest : List Char) :
    readMember value ('"' :: rest) = (readString rest).bind fun (key, rest) =>
      match skipGap rest with
      | ':' :: rest => (value (skipGap rest)).bind fun (item, rest) => some ((key, item), rest)
      | _ => none := rfl

/-- Members are read back where their values are. -/
theorem ReadsBack.member {value : Reader Json} {spelling : Json → List Char → Prop} {limit : ℕ}
    (hreads : ReadsBack value spelling limit) :
    ReadsBack (readMember value) (WrittenMember spelling) limit where
  startsItem := by
    rintro _ _ ⟨⟨written, -, rfl⟩, -, -, -⟩
    exact ⟨'"', _, rfl, by decide⟩
  read := by
    rintro _ _ rest ⟨⟨text, htext, rfl⟩, hgap, hgap', hvalue⟩ hlength hrest
    rename_i key item gap gap' written
    have heq : '"' :: (text ++ ['"']) ++ (gap ++ ':' :: (gap' ++ written)) ++ rest =
        '"' :: (text ++ '"' :: (gap ++ ':' :: (gap' ++ (written ++ rest)))) := by simp
    have hitem := hreads.read hvalue (by simp at hlength; omega) hrest
    have hcolon : skipGap (gap ++ ':' :: (gap' ++ (written ++ rest))) =
        ':' :: (gap' ++ (written ++ rest)) :=
      (skipGap_append hgap _).trans (skipGap_cons (by decide) _)
    have hstart : skipGap (gap' ++ (written ++ rest)) = written ++ rest := by
      rw [skipGap_append hgap', ((hreads.startsItem hvalue).append rest).skipGap_eq]
    rw [heq, readMember_quote, htext.readString_eq, Option.bind_some]
    dsimp only
    simp only [hcolon, hstart, hitem, Option.bind_some]

theorem isGap_of_isDigit {c : Char} (hc : c.isDigit = true) : isGap c = false := by
  by_contra hgap
  simp only [isGap, Bool.not_eq_false, Bool.or_eq_true, decide_eq_true_eq, or_assoc] at hgap
  rcases hgap with rfl | rfl | rfl | rfl
  all_goals contradiction

theorem exists_head_number (n : NumberText) :
    ∃ c more, n.text = c :: more ∧ (c = '-' ∨ c.isDigit = true) := by
  unfold NumberText.text NumberText.sign
  split
  next => exact ⟨'-', _, rfl, .inl rfl⟩
  next =>
    obtain ⟨c, digits, hwhole, hc⟩ := n.exists_first_digit
    rw [hwhole]
    exact ⟨c, _, rfl, .inr hc⟩

theorem startsItem_number (n : NumberText) : StartsItem n.text := by
  obtain ⟨c, more, htext, rfl | hc⟩ := exists_head_number n
  · exact ⟨'-', more, htext, by decide⟩
  · exact ⟨c, more, htext, isGap_of_isDigit hc, Text.ne_of_class hc rfl, Text.ne_of_class hc rfl⟩

theorem Written.startsItem {depth : ℕ} {value : Json} {text : List Char}
    (h : Written depth value text) : StartsItem text := by
  cases value with
  | null =>
      simp only [Written] at h
      exact ⟨'n', _, h, by decide⟩
  | bool value =>
      simp only [Written] at h
      cases value with
      | false => exact ⟨'f', _, h, by decide⟩
      | true => exact ⟨'t', _, h, by decide⟩
  | number literal =>
      simp only [Written] at h
      obtain ⟨-, n, rfl⟩ := h
      exact startsItem_number n
  | string content =>
      simp only [Written] at h
      obtain ⟨s, -, written, -, rfl⟩ := h
      exact ⟨'"', _, rfl, by decide⟩
  | array items =>
      cases depth with
      | zero => contradiction
      | succ depth =>
          obtain ⟨written, rfl, -⟩ := h
          exact ⟨'[', _, rfl, by decide⟩
  | object members =>
      cases depth with
      | zero => contradiction
      | succ depth =>
          obtain ⟨written, rfl, -⟩ := h
          exact ⟨'{', _, rfl, by decide⟩

theorem readValue_number (limit : ℕ) (n : NumberText) {rest : List Char}
    (hrest : NumberText.EndsNumber rest) :
    readValue limit (n.text ++ rest) = some (.number (String.ofList n.text), rest) := by
  have hread := n.readNumber_text hrest
  obtain ⟨c, more, htext, hc⟩ := exists_head_number n
  have hne {d : Char} (hminus : d ≠ '-') (hdigit : d.isDigit = false) : c ≠ d := by
    rcases hc with rfl | hc
    · exact hminus.symm
    · exact Text.ne_of_class hc hdigit
  have hn : c ≠ 'n' := hne (by decide) rfl
  have ht : c ≠ 't' := hne (by decide) rfl
  have hf : c ≠ 'f' := hne (by decide) rfl
  have hquote : c ≠ '"' := hne (by decide) rfl
  have hbracket : c ≠ '[' := hne (by decide) rfl
  have hbrace : c ≠ '{' := hne (by decide) rfl
  rw [htext, List.cons_append] at hread ⊢
  simp [readValue, hn, ht, hf, hquote, hbracket, hbrace, hread]

theorem readValue_string (limit : ℕ) {s : String} {text : List Char} (h : WrittenString s text)
    (rest : List Char) : readValue limit (text ++ rest) = some (.string (some s), rest) := by
  obtain ⟨written, htext, rfl⟩ := h
  have hread := htext.readString_eq rest
  simp [readValue, hread]

theorem readValue_array (limit : ℕ) (rest : List Char) :
    readValue (limit + 1) ('[' :: rest) =
      (readList arrayForm (readValue limit) rest).map fun (items, left) =>
        (.array items, left) := by
  rw [readValue]

theorem readValue_object (limit : ℕ) (rest : List Char) :
    readValue (limit + 1) ('{' :: rest) =
      (readList objectForm (readMember (readValue limit)) rest).map fun (members, left) =>
        (.object members, left) := by
  rw [readValue]

/-- A value is read back where its items and members are. -/
theorem Written.readValue_eq {depth limit : ℕ}
    (hinner : ∀ inner, depth = inner + 1 → ∀ limit,
      ReadsBack (readValue limit) (Written inner) limit)
    {value : Json} {text : List Char} (h : Written depth value text) (hlength : text.length ≤ limit)
    {rest : List Char} (hrest : NumberText.EndsNumber rest) :
    readValue limit (text ++ rest) = some (value, rest) := by
  cases value with
  | null =>
      simp only [Written] at h
      simp [h, readValue]
  | bool value =>
      simp only [Written] at h
      cases value with
      | false => simp [h, readValue]
      | true => simp [h, readValue]
  | number literal =>
      simp only [Written] at h
      obtain ⟨hliteral, n, rfl⟩ := h
      rw [readValue_number limit n hrest, hliteral, String.ofList_toList]
  | string content =>
      simp only [Written] at h
      obtain ⟨s, rfl, htext⟩ := h
      exact readValue_string limit htext rest
  | array items =>
      cases depth with
      | zero => contradiction
      | succ depth =>
          obtain ⟨written, rfl, hitems⟩ := h
          rw [List.length_cons] at hlength
          obtain ⟨inner, rfl⟩ := Nat.exists_eq_add_one_of_ne_zero (Nat.ne_zero_of_lt hlength)
          have hlist := hitems.readList_eq isListForm_arrayForm (hinner depth rfl inner)
            (Nat.le_of_succ_le_succ hlength) rest
          rw [List.cons_append, readValue_array, hlist]
          rfl
  | object members =>
      cases depth with
      | zero => contradiction
      | succ depth =>
          obtain ⟨written, rfl, hmembers⟩ := h
          rw [List.length_cons] at hlength
          obtain ⟨inner, rfl⟩ := Nat.exists_eq_add_one_of_ne_zero (Nat.ne_zero_of_lt hlength)
          have hlist := hmembers.readList_eq isListForm_objectForm (hinner depth rfl inner).member
            (Nat.le_of_succ_le_succ hlength) rest
          rw [List.cons_append, readValue_object, hlist]
          rfl

theorem readsBack_readValue (depth limit : ℕ) :
    ReadsBack (readValue limit) (Written depth) limit := by
  induction depth generalizing limit with
  | zero =>
      refine ⟨Written.startsItem, fun h hlength hrest => h.readValue_eq ?_ hlength hrest⟩
      intro inner heq
      contradiction
  | succ depth ih =>
      refine ⟨Written.startsItem, fun h hlength hrest => h.readValue_eq ?_ hlength hrest⟩
      intro inner heq
      obtain rfl := Nat.succ.inj heq
      exact ih

/-- A text that spells a value is read as the value. -/
theorem Written.read?_eq {depth : ℕ} {value : Json} {text gap gap' : List Char}
    (h : Written depth value text) (hgap : IsGap gap) (hgap' : IsGap gap') :
    read? (gap ++ (text ++ gap')) = some value := by
  have hends : NumberText.EndsNumber gap' := by
    have hends := endsNumber_gap hgap' NumberText.endsNumber_nil
    rwa [List.append_nil] at hends
  have hlength : text.length ≤ (gap ++ (text ++ gap')).length := by simp; omega
  have hstart : skipGap (gap ++ (text ++ gap')) = text ++ gap' := by
    rw [skipGap_append hgap, (h.startsItem.append gap').skipGap_eq]
  have hend : skipGap gap' = [] := by
    have hskip := skipGap_append hgap' []
    rwa [List.append_nil] at hskip
  rw [read?, hstart, (readsBack_readValue depth _).read h hlength hends]
  dsimp only
  rw [hend]
  rfl

/-! ## The writers -/

/-- A value that nests at most `depth` arrays and objects and has a text in all its parts. -/
def IsWritable : ℕ → Json → Prop
  | _, .null => True
  | _, .bool _ => True
  | _, .number literal => ∃ n : NumberText, n.text = literal.toList
  | _, .string content => content.isSome = true
  | depth + 1, .array items => ∀ item ∈ items, IsWritable depth item
  | depth + 1, .object members =>
    ∀ member ∈ members, member.1.isSome = true ∧ IsWritable depth member.2
  | 0, .array _ => False
  | 0, .object _ => False

theorem isWritable_text (depth : ℕ) (s : String) : IsWritable depth (.text s) := by
  simp [text, IsWritable]

theorem isGap_newLine (level : ℕ) : IsGap (newLine level) := by
  intro c hc
  rcases List.mem_cons.mp hc with rfl | hspace
  · rfl
  · obtain rfl := List.eq_of_mem_replicate hspace
    rfl

theorem isGap_nil : IsGap [] := nofun

section

variable {α : Type} {item : α → List Char → Prop} {close : Char} {write : α → List Char}
  {values : List α}

/-- The compact form of a list has no gaps. -/
theorem writtenItems_compact {writeAll : List α → List Char}
    (hone : ∀ a, writeAll [a] = write a)
    (hmore : ∀ a b more, writeAll (a :: b :: more) = write a ++ ',' :: writeAll (b :: more))
    (hne : values ≠ []) (hvalues : ∀ a ∈ values, item a (write a)) :
    WrittenItems item close values (writeAll values ++ [close]) := by
  induction values with
  | nil => contradiction
  | cons a values ih =>
      obtain ⟨ha, hrest⟩ := List.forall_mem_cons.mp hvalues
      cases values with
      | nil =>
          rw [hone]
          exact .last ha isGap_nil
      | cons b values =>
          have hitems :=
            WrittenItems.more ha isGap_nil isGap_nil (ih (List.cons_ne_nil b values) hrest)
          rw [hmore]
          simpa using hitems

/-- The indented form of a list has a line for each item and one for the bracket. -/
theorem writtenItems_indented (writeMore : List α → List Char) (level : ℕ)
    (hnil : writeMore [] = [])
    (hcons : ∀ a more, writeMore (a :: more) = ',' :: (newLine level ++ write a ++ writeMore more))
    {a : α} (ha : item a (write a)) (hvalues : ∀ a ∈ values, item a (write a)) (lower : ℕ) :
    WrittenItems item close (a :: values)
      (write a ++ (writeMore values ++ (newLine lower ++ [close]))) := by
  induction values generalizing a with
  | nil =>
      rw [hnil]
      exact .last ha (isGap_newLine lower)
  | cons b values ih =>
      obtain ⟨hb, hrest⟩ := List.forall_mem_cons.mp hvalues
      have hitems := WrittenItems.more ha isGap_nil (isGap_newLine level) (ih hb hrest)
      rw [hcons]
      simpa using hitems

end

theorem writtenList_nil {α : Type} (item : α → List Char → Prop) (close : Char) :
    WrittenList item close [] [close] :=
  .empty isGap_nil

theorem WrittenItems.writtenList {α : Type} {item : α → List Char → Prop} {close : Char}
    {values : List α} {text : List Char} (h : WrittenItems item close values text) :
    WrittenList item close values text :=
  WrittenList.items isGap_nil h

theorem writtenMember_of_gap {value : Json → List Char → Prop} {member : Option String × Json}
    (hkey : member.1.isSome = true) {gap written : List Char} (hgap : IsGap gap)
    (hvalue : value member.2 written) :
    WrittenMember value member (writeString member.1 ++ ':' :: (gap ++ written)) := by
  obtain ⟨key, item⟩ := member
  obtain ⟨name, rfl⟩ := Option.isSome_iff_exists.mp hkey
  exact .mk (writtenString_writeString name) isGap_nil hgap hvalue

theorem writtenList_writeItems {depth : ℕ} {items : List Json}
    (hitems : ∀ item ∈ items, Written depth item item.write) :
    WrittenList (Written depth) ']' items (writeItems items ++ [']']) := by
  cases items with
  | nil => exact writtenList_nil _ _
  | cons item items =>
      exact (writtenItems_compact (fun _ => rfl) (fun _ _ _ => rfl)
        (List.cons_ne_nil item items) hitems).writtenList

theorem writtenList_writeMembers {depth : ℕ} {members : List (Option String × Json)}
    (hmembers : ∀ member ∈ members,
      member.1.isSome = true ∧ Written depth member.2 member.2.write) :
    WrittenList (WrittenMember (Written depth)) '}' members (writeMembers members ++ ['}']) := by
  have hwritten : ∀ member ∈ members, WrittenMember (Written depth) member
      (writeString member.1 ++ ':' :: member.2.write) := fun member hmember =>
    writtenMember_of_gap (hmembers member hmember).1 isGap_nil (hmembers member hmember).2
  cases members with
  | nil => exact writtenList_nil _ _
  | cons member members =>
      exact (writtenItems_compact (fun _ => rfl) (by simp [writeMembers])
        (List.cons_ne_nil member members) hwritten).writtenList

theorem writtenList_indentedItems {depth level : ℕ} {item : Json} {items : List Json}
    (hitem : Written depth item (item.writeAt (level + 1)))
    (hitems : ∀ item ∈ items, Written depth item (item.writeAt (level + 1))) :
    WrittenList (Written depth) ']' (item :: items) (newLine (level + 1) ++
      writeAt (level + 1) item ++ writeMoreItems (level + 1) items ++ newLine level ++ [']']) := by
  have hlist : WrittenList (Written depth) ']' (item :: items) _ :=
    .items (isGap_newLine (level + 1)) (writtenItems_indented (writeMoreItems (level + 1))
      (level + 1) rfl (fun _ _ => rfl) hitem hitems level)
  simpa using hlist

theorem writtenList_indentedMembers {depth level : ℕ} {member : Option String × Json}
    {members : List (Option String × Json)}
    (hmember : member.1.isSome = true ∧ Written depth member.2 (member.2.writeAt (level + 1)))
    (hmembers : ∀ member ∈ members,
      member.1.isSome = true ∧ Written depth member.2 (member.2.writeAt (level + 1))) :
    WrittenList (WrittenMember (Written depth)) '}' (member :: members) (newLine (level + 1) ++
      writeString member.1 ++ ':' :: ' ' :: writeAt (level + 1) member.2 ++
      writeMoreMembers (level + 1) members ++ newLine level ++ ['}']) := by
  have hspace : IsGap [' '] := by
    intro c hc
    obtain rfl := List.mem_singleton.mp hc
    rfl
  have hwritten : ∀ member ∈ members, WrittenMember (Written depth) member
      (writeString member.1 ++ ':' :: ([' '] ++ member.2.writeAt (level + 1))) :=
    fun member hmember =>
      writtenMember_of_gap (hmembers member hmember).1 hspace (hmembers member hmember).2
  have hlist : WrittenList (WrittenMember (Written depth)) '}' (member :: members) _ :=
    .items (isGap_newLine (level + 1)) (writtenItems_indented (writeMoreMembers (level + 1))
      (level + 1) rfl (by simp [writeMoreMembers])
      (writtenMember_of_gap hmember.1 hspace hmember.2) hwritten level)
  simpa using hlist

/-- Both writers spell a value where they spell its items and members. -/
theorem written_writers_of {depth : ℕ}
    (hinner : ∀ inner, depth = inner + 1 → ∀ value, IsWritable inner value →
      Written inner value value.write ∧ ∀ level, Written inner value (value.writeAt level))
    {value : Json} (h : IsWritable depth value) :
    Written depth value value.write ∧ ∀ level, Written depth value (value.writeAt level) := by
  cases value with
  | null => simp [Written, write, writeAt]
  | bool value =>
      cases value with
      | false => simp [Written, write, writeAt]
      | true => simp [Written, write, writeAt]
  | number literal =>
      simp only [IsWritable] at h
      simpa [Written, write, writeAt] using h
  | string content =>
      simp only [IsWritable] at h
      obtain ⟨s, rfl⟩ := Option.isSome_iff_exists.mp h
      simpa [Written, write, writeAt] using writtenString_writeString s
  | array items =>
      cases depth with
      | zero => contradiction
      | succ depth =>
          have hitems : ∀ item ∈ items, Written depth item item.write ∧
              ∀ level, Written depth item (item.writeAt level) := fun item hitem =>
            hinner depth rfl item (h item hitem)
          refine ⟨⟨_, rfl, writtenList_writeItems fun item hitem => (hitems item hitem).1⟩,
            fun level => ?_⟩
          cases items with
          | nil => exact ⟨[']'], rfl, writtenList_nil _ _⟩
          | cons item items =>
              obtain ⟨hitem, hrest⟩ := List.forall_mem_cons.mp hitems
              exact ⟨_, rfl, writtenList_indentedItems (hitem.2 _) fun item hitem =>
                (hrest item hitem).2 _⟩
  | object members =>
      cases depth with
      | zero => contradiction
      | succ depth =>
          have hmembers : ∀ member ∈ members, member.1.isSome = true ∧
              Written depth member.2 member.2.write ∧
                ∀ level, Written depth member.2 (member.2.writeAt level) := fun member hmember =>
            (h member hmember).imp_right (hinner depth rfl member.2)
          refine ⟨⟨_, rfl, writtenList_writeMembers fun member hmember =>
            (hmembers member hmember).imp_right And.left⟩, fun level => ?_⟩
          cases members with
          | nil => exact ⟨['}'], rfl, writtenList_nil _ _⟩
          | cons member members =>
              obtain ⟨hmember, hrest⟩ := List.forall_mem_cons.mp hmembers
              exact ⟨_, rfl, writtenList_indentedMembers (hmember.imp_right fun h => h.2 _)
                fun member hmember => (hrest member hmember).imp_right fun h => h.2 _⟩

theorem written_writers {depth : ℕ} {value : Json} (h : IsWritable depth value) :
    Written depth value value.write ∧ ∀ level, Written depth value (value.writeAt level) := by
  induction depth generalizing value with
  | zero =>
      refine written_writers_of ?_ h
      intro inner heq
      contradiction
  | succ depth ih =>
      refine written_writers_of ?_ h
      intro inner heq value hvalue
      obtain rfl := Nat.succ.inj heq
      exact ih hvalue

theorem read?_compact {depth : ℕ} {value : Json} (h : IsWritable depth value) :
    read? value.compact.toList = some value := by
  have hread := (written_writers h).1.read?_eq isGap_nil isGap_nil
  rwa [List.nil_append, List.append_nil, ← String.toList_ofList (l := value.write)] at hread

theorem read?_indented {depth : ℕ} {value : Json} (h : IsWritable depth value) :
    read? value.indented.toList = some value := by
  have hread := ((written_writers h).2 0).read?_eq isGap_nil isGap_nil
  rwa [List.nil_append, List.append_nil, ← String.toList_ofList (l := value.writeAt 0)] at hread

end ThroughputPlot.Json
