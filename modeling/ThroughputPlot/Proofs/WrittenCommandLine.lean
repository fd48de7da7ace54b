import ThroughputPlot.CommandLine.Reader
import ThroughputPlot.Proofs.Numerals
import ThroughputPlot.Text.Cut
import Mathlib.Data.List.TakeWhile

/-!
# Written command lines

A command line is written as two integers and an argument for each option that is given.  The
options may stand anywhere, before, between and behind the integers.  Between two arguments the
reader waits for no value, and at most one operand is pending, which is known to be an integer.  So
what an argument does to the reading does not depend on where it stands, and the line is read back
from its arguments in any order.
-/

namespace ThroughputPlot

/-! ## Writing -/

/-- An option that is given, with the text of its value if it takes one. -/
inductive Given where
  | value (option : ValueOption) (text : String)
  | switch (option : Switch)
deriving DecidableEq

def Given.argument : Given → String
  | .value option text => String.ofList ('-' :: '-' :: (option.name ++ '=' :: text.toList))
  | .switch option => String.ofList ('-' :: '-' :: option.name)

namespace Options

def text? (options : Options) : ValueOption → Option String
  | .inputDir => options.inputDir
  | .outputDir => options.outputDir
  | .config => options.config
  | .width => options.width.map fun n => toString n.toNat
  | .height => options.height.map fun n => toString n.toNat

/-- What is given, in a fixed order. -/
def given (options : Options) : List Given :=
  (OptionName.valueOptions.filterMap fun option => (options.text? option).map (.value option)) ++
    (OptionName.switches.filter options.isSet).map .switch

end Options

/-- The third list holds what is in the first and in the second, each in its order. -/
inductive Interleaved {α : Type} : List α → List α → List α → Prop
  | nil : Interleaved [] [] []
  | left {x : α} {xs ys zs : List α} (h : Interleaved xs ys zs) :
      Interleaved (x :: xs) ys (x :: zs)
  | right {y : α} {xs ys zs : List α} (h : Interleaved xs ys zs) :
      Interleaved xs (y :: ys) (y :: zs)

theorem Interleaved.nil_left {α : Type} (ys : List α) : Interleaved [] ys ys := by
  induction ys with
  | nil => exact .nil
  | cons y ys ih => exact .right ih

/-- The arguments are the two integers, in this order, and all that is given, in any order. -/
def CommandLine.Written (line : CommandLine) (arguments : List String) : Prop :=
  ∃ given : List Given, given.Perm line.options.given ∧
    Interleaved [decimalText line.labels.numKeys, decimalText line.labels.numChurnOps]
      (given.map Given.argument) arguments

/-! ## What is given -/

namespace Options

variable {options final : Options} {option : ValueOption} {switch : Switch} {text : String}

theorem toString_side_injective : Function.Injective fun n : UInt32 => toString n.toNat := by
  intro m n heq
  have htext : (toString m.toNat).toList = (toString n.toNat).toList := congrArg String.toList heq
  rw [Nat.toString_eq_repr, Nat.toString_eq_repr, Nat.toList_repr, Nat.toList_repr] at htext
  exact UInt32.toNat_inj.mp (Text.toDigits_injective htext)

/-- Options are known from the texts of their values and from their switches. -/
theorem ext_text? (htexts : ∀ option, options.text? option = final.text? option)
    (hswitches : ∀ switch, options.isSet switch = final.isSet switch) : options = final := by
  have hside := Option.map_injective toString_side_injective
  have hwidth : options.width = final.width := hside (htexts .width)
  have hheight : options.height = final.height := hside (htexts .height)
  obtain ⟨inputDir, outputDir, config, width, height, allSeries, dryRun, monitor, logJson,
    verbose⟩ := options
  obtain rfl : inputDir = final.inputDir := htexts .inputDir
  obtain rfl : outputDir = final.outputDir := htexts .outputDir
  obtain rfl : config = final.config := htexts .config
  obtain rfl : allSeries = final.allSeries := hswitches .allSeries
  obtain rfl : dryRun = final.dryRun := hswitches .dryRun
  obtain rfl : monitor = final.monitor := hswitches .monitor
  obtain rfl : logJson = final.logJson := hswitches .logJson
  obtain rfl : verbose = final.verbose := hswitches .verbose
  obtain rfl : width = final.width := hwidth
  obtain rfl : height = final.height := hheight
  rfl

theorem has_eq : options.has option = (options.text? option).isSome := by
  cases option <;> simp [has, text?]

theorem value_mem_given :
    .value option text ∈ options.given ↔ options.text? option = some text := by
  have hlisted : option ∈ OptionName.valueOptions := by cases option <;> decide
  simp [given, hlisted]

theorem switch_mem_given : .switch switch ∈ options.given ↔ options.isSet switch = true := by
  have hlisted : switch ∈ OptionName.switches := by cases switch <;> decide
  simp [given, hlisted]

theorem nodup_given : options.given.Nodup := by
  unfold given
  refine List.Nodup.append ?_ ?_ ?_
  · refine List.Nodup.filterMap ?_ (by decide)
    intro option other x hoption hother
    obtain ⟨text, -, rfl⟩ := Option.map_eq_some_iff.mp hoption
    obtain ⟨text', -, heq⟩ := Option.map_eq_some_iff.mp hother
    exact (Given.value.inj heq).1.symm
  · refine List.Nodup.map (fun switch other heq => Given.switch.inj heq) ?_
    exact List.Nodup.filter _ (by decide)
  · intro x hvalue hswitch
    obtain ⟨switch, -, rfl⟩ := List.mem_map.mp hswitch
    simp at hvalue

theorem eq_of_perm_given (h : options.given.Perm final.given) : options = final := by
  apply ext_text?
  · intro option
    apply Option.ext
    intro text
    rw [← value_mem_given, ← value_mem_given, h.mem_iff]
  · intro switch
    rw [Bool.eq_iff_iff, ← switch_mem_given, ← switch_mem_given, h.mem_iff]

/-- An option that is still to come has not been given. -/
theorem text?_eq_none {rest : List Given}
    (h : (.value option text :: rest ++ options.given).Perm final.given) :
    options.text? option = none := by
  have hfinal : final.text? option = some text :=
    value_mem_given.mp (h.mem_iff.mp List.mem_cons_self)
  have hnodup := h.symm.nodup nodup_given
  rw [List.cons_append, List.nodup_cons, List.mem_append, not_or] at hnodup
  rw [Option.eq_none_iff_forall_not_mem]
  intro other hother
  have hmem : .value option other ∈ options.given := value_mem_given.mpr hother
  have hsame : final.text? option = some other :=
    value_mem_given.mp (h.mem_iff.mp (List.mem_append_right _ hmem))
  obtain rfl : text = other := Option.some.inj (hfinal.symm.trans hsame)
  exact hnodup.1.2 hmem

theorem isSet_eq_false {rest : List Given}
    (h : (.switch switch :: rest ++ options.given).Perm final.given) :
    options.isSet switch = false := by
  have hnodup := h.symm.nodup nodup_given
  rw [List.cons_append, List.nodup_cons, List.mem_append, not_or, switch_mem_given,
    Bool.not_eq_true] at hnodup
  exact hnodup.1.2

/-! ## Giving an option -/

theorem readSide?_toString (n : UInt32) : readSide? (toString n.toNat) = some n := by
  have hlt : n.toNat < 4294967296 := n.toNat_lt
  have hdigits := Text.isNumeral_toDigits n.toNat
  have hvalue : Binary64.withSign false n.toNat = (Int64.ofInt n.toNat).toInt := by
    rw [Int64.toInt_ofInt_of_le]
    · rfl
    · omega
    · omega
  have hread : Text.int64? (Nat.toDigits 10 n.toNat) = some (Int64.ofInt n.toNat) :=
    Text.int64?_of_numeral (Text.takeSign_of_isDigit hdigits.isDigit) hdigits hvalue
  rw [readSide?, Nat.toString_eq_repr, Nat.toList_repr, hread, Option.bind_some, ← hvalue]
  simp [Binary64.withSign, UInt32.size, hlt]

/-- A value that other options have can be given. -/
theorem exists_give? (hfinal : final.text? option = some text) :
    ∃ options', options.give? option text = some options' ∧
      (∀ o, options'.text? o = if o = option then some text else options.text? o) ∧
      ∀ s, options'.isSet s = options.isSet s := by
  cases option with
  | inputDir =>
      refine ⟨_, rfl, fun o => ?_, fun s => by cases s <;> rfl⟩
      cases o <;> rfl
  | outputDir =>
      refine ⟨_, rfl, fun o => ?_, fun s => by cases s <;> rfl⟩
      cases o <;> rfl
  | config =>
      refine ⟨_, rfl, fun o => ?_, fun s => by cases s <;> rfl⟩
      cases o <;> rfl
  | width =>
      obtain ⟨n, -, rfl⟩ := Option.map_eq_some_iff.mp hfinal
      refine ⟨{ options with width := some n }, ?_, fun o => ?_, fun s => by cases s <;> rfl⟩
      · rw [give?, readSide?_toString, Option.map_some]
      · cases o <;> rfl
  | height =>
      obtain ⟨n, -, rfl⟩ := Option.map_eq_some_iff.mp hfinal
      refine ⟨{ options with height := some n }, ?_, fun o => ?_, fun s => by cases s <;> rfl⟩
      · rw [give?, readSide?_toString, Option.map_some]
      · cases o <;> rfl

theorem text?_set (o : ValueOption) : (options.set switch).text? o = options.text? o := by
  cases switch <;> cases o <;> rfl

theorem isSet_set (s : Switch) :
    (options.set switch).isSet s = (decide (s = switch) || options.isSet s) := by
  cases switch <;> cases s <;> rfl

/-- What is new in the options is one of the things that were still to come. -/
theorem perm_given_of_cons {x : Given} {rest : List Given} {options' : Options}
    (h : (x :: rest ++ options.given).Perm final.given)
    (hnew : ∀ y, y ∈ options'.given ↔ y = x ∨ y ∈ options.given) :
    (rest ++ options'.given).Perm final.given := by
  have hnodup := h.symm.nodup nodup_given
  rw [List.cons_append, List.nodup_cons, List.mem_append, not_or] at hnodup
  have hgiven : options'.given.Perm (x :: options.given) := by
    rw [List.perm_ext_iff_of_nodup nodup_given (List.nodup_cons.mpr ⟨hnodup.1.2, nodup_given⟩)]
    intro y
    rw [hnew, List.mem_cons]
  exact ((hgiven.append_left rest).trans List.perm_middle).trans h

theorem mem_given_of_value {options' : Options} (hnone : options.text? option = none)
    (htext : ∀ o, options'.text? o = if o = option then some text else options.text? o)
    (hset : ∀ s, options'.isSet s = options.isSet s) (y : Given) :
    y ∈ options'.given ↔ y = .value option text ∨ y ∈ options.given := by
  cases y with
  | value o t =>
      rw [value_mem_given, value_mem_given, htext, Given.value.injEq]
      by_cases ho : o = option
      · subst ho
        simp [hnone, eq_comm]
      · simp [ho]
  | switch s => simp [switch_mem_given, hset]

theorem mem_given_set (y : Given) :
    y ∈ (options.set switch).given ↔ y = .switch switch ∨ y ∈ options.given := by
  cases y with
  | value o t => simp [value_mem_given, text?_set]
  | switch s => simp [switch_mem_given, isSet_set]

end Options

/-! ## One argument -/

namespace Progress

open Options

variable {options final : Options} {operands : List Int64} {p : Progress}

/-- Between two arguments no option waits for its value, and the last operand may be pending. -/
inductive Standing (options : Options) : List Int64 → Progress → Prop
  | settled (operands : List Int64) :
      Standing options operands ⟨options, operands, .nothing, false⟩
  | pending (operands : List Int64) (n : Int64) :
      Standing options (operands ++ [n]) ⟨options, operands, .operand (decimalText n), false⟩

namespace Standing

theorem isClosed_eq (h : Standing options operands p) : p.isClosed = false := by
  cases h <;> rfl

theorem missing_eq (h : Standing options operands p) : p.missing = 2 - operands.length := by
  cases h with
  | settled => rfl
  | pending operands n =>
      rw [List.length_append, List.length_singleton, ← Nat.sub_sub]
      rfl

theorem settle_eq (h : Standing options operands p) :
    p.settle = .ok ⟨options, operands, .nothing, false⟩ := by
  cases h with
  | settled => rfl
  | pending operands n =>
      unfold settle
      dsimp only
      rw [Text.int64?_decimalText]

theorem plain_eq (h : Standing options operands p) (text : String) :
    p.plain text = p.operand text := by
  cases h <;> rfl

theorem turnOn_eq (h : Standing options operands p) {switch : Switch}
    (hunset : options.isSet switch = false) :
    p.turnOn switch = .ok ⟨options.set switch, operands, .nothing, false⟩ := by
  unfold turnOn
  rw [h.settle_eq]
  change (if options.isSet switch = true then _ else _) = _
  rw [hunset]
  rfl

theorem begin_eq (h : Standing options operands p) {option : ValueOption} {text : String}
    {options' : Options} (hnone : options.text? option = none)
    (hgive : options.give? option text = some options') :
    p.begin option (some text) = .ok ⟨options', operands, .nothing, false⟩ := by
  have hhas : options.has option = false := by
    rw [Options.has_eq, hnone, Option.isSome_none]
  unfold begin
  rw [h.settle_eq]
  change give _ option text = _
  unfold give
  dsimp only
  rw [hhas, hgive]
  rfl

theorem operand_eq (h : Standing options operands p) (hmissing : operands.length < 2)
    (n : Int64) :
    ∃ p', p.operand (decimalText n) = .ok p' ∧ Standing options (operands ++ [n]) p' := by
  refine ⟨_, ?_, .pending operands n⟩
  unfold operand
  rw [if_neg (by rw [h.missing_eq]; omega), h.settle_eq]
  rfl

end Standing

theorem step_long (hopen : p.isClosed = false) {text : List Char} (hne : text ≠ []) :
    p.step (String.ofList ('-' :: '-' :: text)) = p.long text := by
  obtain ⟨c, rest, rfl⟩ := List.exists_cons_of_ne_nil hne
  unfold step
  rw [hopen, String.toList_ofList]
  rfl

theorem long_switch (switch : Switch) : p.long switch.name = p.turnOn switch := by
  cases switch <;> rfl

theorem long_value (option : ValueOption) (text : List Char) :
    p.long (option.name ++ '=' :: text) = p.begin option (some (String.ofList text)) := by
  have hmark : '=' ∉ option.name := by cases option <;> decide
  have hname : OptionName.ofLong? option.name = some (.value option) := by
    cases option <;> decide
  unfold long
  rw [Text.takeWhile_ne_append hmark, Text.dropWhile_ne_append hmark]
  dsimp only
  rw [hname]

theorem step_value (hopen : p.isClosed = false) (option : ValueOption) (text : String) :
    p.step (Given.value option text).argument = p.begin option (some text) := by
  have hne : option.name ++ '=' :: text.toList ≠ [] := by simp
  rw [Given.argument, step_long hopen hne, long_value, String.ofList_toList]

theorem step_switch (hopen : p.isClosed = false) (switch : Switch) :
    p.step (Given.switch switch).argument = p.turnOn switch := by
  have hne : switch.name ≠ [] := by cases switch <;> decide
  rw [Given.argument, step_long hopen hne, long_switch]

/-- What is given is one of the things that were still to come. -/
theorem Standing.step_given (h : Standing options operands p) {x : Given} {rest : List Given}
    (hperm : (x :: rest ++ options.given).Perm final.given) :
    ∃ p' options', p.step x.argument = .ok p' ∧ Standing options' operands p' ∧
      (rest ++ options'.given).Perm final.given := by
  cases x with
  | value option text =>
      have hfinal : final.text? option = some text :=
        value_mem_given.mp (hperm.mem_iff.mp List.mem_cons_self)
      have hnone := text?_eq_none hperm
      obtain ⟨options', hgive, htext, hset⟩ := @exists_give? options final option text hfinal
      refine ⟨_, options', ?_, .settled operands, ?_⟩
      · rw [step_value h.isClosed_eq, h.begin_eq hnone hgive]
      · exact perm_given_of_cons hperm (mem_given_of_value hnone htext hset)
  | switch switch =>
      refine ⟨_, options.set switch, ?_, .settled operands, ?_⟩
      · rw [step_switch h.isClosed_eq, h.turnOn_eq (isSet_eq_false hperm)]
      · exact perm_given_of_cons hperm mem_given_set

theorem looksLikeNumber_of_isDigit {digits : List Char}
    (hdigits : ∀ c ∈ digits, c.isDigit = true) : looksLikeNumber digits = true := by
  have hmark : ∀ c ∈ digits, (!(decide (c = 'e') || decide (c = 'E'))) = true := by
    intro c hc
    have hsmall : c ≠ 'e' := Text.ne_of_class (hdigits c hc) rfl
    have hcapital : c ≠ 'E' := Text.ne_of_class (hdigits c hc) rfl
    simp [hsmall, hcapital]
  have hpoint : ∀ c ∈ digits, decide (c ≠ '.') = true := by
    intro c hc
    exact decide_eq_true (Text.ne_of_class (hdigits c hc) rfl)
  unfold looksLikeNumber
  dsimp only
  rw [List.takeWhile_eq_self_iff.mpr hmark, List.dropWhile_eq_nil_iff.mpr hmark,
    List.dropWhile_eq_nil_iff.mpr hpoint]
  exact List.all_eq_true.mpr hdigits

theorem step_of_head_ne (hopen : p.isClosed = false) {argument : String} {c : Char}
    {rest : List Char} (htext : argument.toList = c :: rest) (hc : c ≠ '-') :
    p.step argument = p.plain argument := by
  unfold step
  rw [hopen, htext, if_neg Bool.false_ne_true]
  split
  next heq => exact absurd (List.cons.inj heq).1 hc
  next heq => exact absurd (List.cons.inj heq).1 hc
  next => rfl
  next heq => exact absurd (List.cons.inj heq).1 hc
  next => rfl

theorem step_negative (hopen : p.isClosed = false) {argument : String} {c : Char}
    {rest : List Char} (htext : argument.toList = '-' :: c :: rest) (hc : c ≠ '-')
    (hmissing : 0 < p.missing) (hnumber : looksLikeNumber (c :: rest) = true) :
    p.step argument = p.plain argument := by
  unfold step
  rw [hopen, htext, if_neg Bool.false_ne_true]
  split
  next heq => exact absurd (List.cons.inj (List.cons.inj heq).2).1 hc
  next heq => exact absurd (List.cons.inj (List.cons.inj heq).2).1 hc
  next => rfl
  next heq =>
    rw [← (List.cons.inj heq).2, hnumber, Bool.and_true, if_pos (decide_eq_true hmissing)]
  next => rfl

/-- A number is an operand as long as one is missing, also behind a minus sign. -/
theorem Standing.step_decimalText (h : Standing options operands p)
    (hmissing : operands.length < 2) (n : Int64) :
    p.step (decimalText n) = p.operand (decimalText n) := by
  have hp : 0 < p.missing := by
    rw [h.missing_eq]
    omega
  have htext := Text.toList_decimalText n
  have hnumber : ∀ c ∈ Nat.toDigits 10 n.toInt.natAbs, c.isDigit = true :=
    fun c hc => Text.isDigit_of_mem_toDigits hc
  obtain ⟨c, rest, hdigits⟩ := List.exists_cons_of_ne_nil (Text.isNumeral_toDigits _).ne_nil
  rw [hdigits] at htext hnumber
  have hc : c ≠ '-' := Text.ne_of_class (hnumber c List.mem_cons_self) rfl
  rw [← h.plain_eq]
  by_cases hneg : n.toInt < 0
  · rw [if_pos hneg] at htext
    exact step_negative h.isClosed_eq htext hc hp (looksLikeNumber_of_isDigit hnumber)
  · rw [if_neg hneg] at htext
    exact step_of_head_ne h.isClosed_eq htext hc

/-! ## The whole line -/

theorem Standing.foldlM_step {rest : List Given} {numbers : List Int64} {arguments : List String}
    (hwritten : Interleaved (numbers.map decimalText) (rest.map Given.argument) arguments)
    (h : Standing options operands p) (hlength : operands.length + numbers.length ≤ 2)
    (hperm : (rest ++ options.given).Perm final.given) :
    ∃ p', arguments.foldlM step p = .ok p' ∧ Standing final (operands ++ numbers) p' := by
  -- The numbers and the options that are left become shorter one at a time, whichever comes first.
  generalize hnumbers : numbers.map decimalText = written at hwritten
  generalize hrest : rest.map Given.argument = flags at hwritten
  induction hwritten generalizing rest numbers options operands p with
  | nil =>
      obtain rfl := List.map_eq_nil_iff.mp hnumbers
      obtain rfl := List.map_eq_nil_iff.mp hrest
      obtain rfl := eq_of_perm_given hperm
      refine ⟨p, rfl, ?_⟩
      rwa [List.append_nil]
  | left _ ih =>
      obtain ⟨n, numbers, rfl, rfl, rfl⟩ := List.map_eq_cons_iff.mp hnumbers
      rw [List.length_cons] at hlength
      have hmissing : operands.length < 2 := by omega
      obtain ⟨p₁, hoperand, h₁⟩ := h.operand_eq hmissing n
      have hlength₁ : (operands ++ [n]).length + numbers.length ≤ 2 := by
        rw [List.length_append, List.length_singleton]
        omega
      obtain ⟨p', hrun, h'⟩ := ih h₁ hlength₁ hperm rfl hrest
      refine ⟨p', ?_, ?_⟩
      · rw [List.foldlM_cons, h.step_decimalText hmissing, hoperand]
        exact hrun
      · rwa [List.append_assoc] at h'
  | right _ ih =>
      obtain ⟨x, rest, rfl, rfl, rfl⟩ := List.map_eq_cons_iff.mp hrest
      obtain ⟨p₁, options₁, hstep, h₁, hperm₁⟩ := h.step_given hperm
      obtain ⟨p', hrun, h'⟩ := ih h₁ hlength hperm₁ hnumbers rfl
      refine ⟨p', ?_, h'⟩
      rw [List.foldlM_cons, hstep]
      exact hrun

theorem Standing.finish_eq {numKeys numChurnOps : Int64}
    (h : Standing options [numKeys, numChurnOps] p) :
    p.finish = .ok ⟨⟨numKeys, numChurnOps⟩, options⟩ := by
  unfold finish
  rw [h.settle_eq]
  rfl

end Progress

namespace CommandLine

theorem exists_written (line : CommandLine) : ∃ arguments, line.Written arguments := by
  let arguments := decimalText line.labels.numKeys :: decimalText line.labels.numChurnOps ::
    line.options.given.map Given.argument
  exact ⟨arguments, line.options.given, .refl _, .left (.left (.nil_left _))⟩

/--
Every command line can be written, and all arguments that write it are read as this line.  It
draws the default charts.
-/
theorem read_written (line : CommandLine) :
    (∃ arguments, line.Written arguments) ∧
      ∀ arguments, line.Written arguments →
        read arguments = .ok line ∧ line.settings.charts = ChartJob.defaults ∧
          ∀ arguments', line.Written arguments' → read arguments' = read arguments := by
  have hread : ∀ arguments, line.Written arguments → read arguments = .ok line := by
    intro arguments hwritten
    obtain ⟨given, hperm, hinterleaved⟩ := hwritten
    have hstart : (given ++ ({} : Options).given).Perm line.options.given := by
      rwa [show ({} : Options).given = [] from rfl, List.append_nil]
    have hnumbers : Interleaved
        ([line.labels.numKeys, line.labels.numChurnOps].map decimalText)
        (given.map Given.argument) arguments := hinterleaved
    have hnone : Progress.Standing {} [] .start := .settled []
    obtain ⟨p, hrun, hp⟩ := hnone.foldlM_step hnumbers le_rfl hstart
    unfold read
    change arguments.foldlM Progress.step .start >>= Progress.finish = _
    rw [hrun]
    exact hp.finish_eq
  refine ⟨exists_written line, fun arguments hwritten => ⟨hread arguments hwritten, rfl, ?_⟩⟩
  intro arguments' hwritten'
  rw [hread arguments hwritten, hread arguments' hwritten']

/-- Numbers with a minus sign stand between options, of whose values one is empty. -/
theorem read_written_mixed :
    let line : CommandLine :=
      { labels := ⟨Int64.minValue, -5⟩
        options := { inputDir := some "", config := some "a=-1", width := some 0,
                     verbose := true } }
    let arguments := ["--width=0", "-9223372036854775808", "--verbose", "--config=a=-1", "-5",
      "--input-dir="]
    line.Written arguments ∧ read arguments = .ok line := by
  intro line arguments
  have hwritten : line.Written arguments := by
    refine ⟨[.value .width "0", .switch .verbose, .value .config "a=-1", .value .inputDir ""],
      by decide +kernel, ?_⟩
    rw [show decimalText line.labels.numKeys = "-9223372036854775808" by decide +kernel,
      show decimalText line.labels.numChurnOps = "-5" by decide +kernel]
    exact .right (.left (.right (.right (.left (.right .nil)))))
  exact ⟨hwritten, ((read_written line).2 arguments hwritten).1⟩

end CommandLine

end ThroughputPlot
