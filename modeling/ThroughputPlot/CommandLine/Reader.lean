import ThroughputPlot.CommandLine
import ThroughputPlot.Text.Integer

/-!
# Reading a command line

Arguments are taken one after the other.  An argument that starts with two dashes names
an option, one that starts with a single dash is a cluster of short options, and any
other is an operand or the value of the option before it.  A negative number is no
cluster while an operand is still missing, and after a bare `--` every argument is an
operand.  A value is only judged when the next option or operand begins or the line
ends, so an unknown option wins over a bad value right before it.
-/

namespace ThroughputPlot

/-- Why a command line is refused; asking for help ends the reading in the same way. -/
inductive UsageError where
  | missingOperand
  | badValue
  | missingValue
  | unknownArgument
  | repeated
  | unwantedValue
  | help
deriving DecidableEq

inductive ValueOption where
  | inputDir
  | outputDir
  | config
  | width
  | height
deriving DecidableEq

/-- The options that take none. -/
inductive Switch where
  | allSeries
  | dryRun
  | monitor
  | logJson
  | verbose
deriving DecidableEq

inductive OptionName where
  | value (option : ValueOption)
  | switch (option : Switch)
  | help
deriving DecidableEq

def ValueOption.name : ValueOption → List Char
  | .inputDir => "input-dir".toList
  | .outputDir => "output-dir".toList
  | .config => "config".toList
  | .width => "width".toList
  | .height => "height".toList

/-- The name of an option that takes no value. -/
def Switch.name : Switch → List Char
  | .allSeries => "all-series".toList
  | .dryRun => "dry-run".toList
  | .monitor => "monitor".toList
  | .logJson => "log-json".toList
  | .verbose => "verbose".toList

namespace OptionName

def valueOptions : List ValueOption := [.inputDir, .outputDir, .config, .width, .height]

/-- The options that take no value. -/
def switches : List Switch := [.allSeries, .dryRun, .monitor, .logJson, .verbose]

def ofLong? (name : List Char) : Option OptionName :=
  if name = "help".toList then some .help
  else
    match valueOptions.find? (·.name = name), switches.find? (·.name = name) with
    | some option, _ => some (.value option)
    | none, some option => some (.switch option)
    | none, none => none

def ofShort? (letter : Char) : Option OptionName :=
  if letter = 'c' then some (.value .config)
  else if letter = 'v' then some (.switch .verbose)
  else if letter = 'h' then some .help
  else none

end OptionName

/-! ## Values -/

def readSide? (text : String) : Option UInt32 :=
  (Text.int64? text.toList).bind fun n =>
    if 0 ≤ n.toInt && n.toInt < UInt32.size then some (UInt32.ofNat n.toInt.toNat) else none

namespace Options

def has (options : Options) : ValueOption → Bool
  | .inputDir => options.inputDir.isSome
  | .outputDir => options.outputDir.isSome
  | .config => options.config.isSome
  | .width => options.width.isSome
  | .height => options.height.isSome

/-- Gives an option its value, unless the value cannot be read. -/
def give? (options : Options) (option : ValueOption) (text : String) : Option Options :=
  match option with
  | .inputDir => some { options with inputDir := some text }
  | .outputDir => some { options with outputDir := some text }
  | .config => some { options with config := some text }
  | .width => (readSide? text).map fun n => { options with width := some n }
  | .height => (readSide? text).map fun n => { options with height := some n }

def isSet (options : Options) : Switch → Bool
  | .allSeries => options.allSeries
  | .dryRun => options.dryRun
  | .monitor => options.monitor
  | .logJson => options.logJson
  | .verbose => options.verbose

def set (options : Options) : Switch → Options
  | .allSeries => { options with allSeries := true }
  | .dryRun => { options with dryRun := true }
  | .monitor => { options with monitor := true }
  | .logJson => { options with logJson := true }
  | .verbose => { options with verbose := true }

end Options

/-! ## The state of the reading -/

/-- A value that is not judged yet. -/
inductive Pending where
  | nothing
  /-- An option, with its value if that has come. -/
  | value (option : ValueOption) (text : Option String)
  | operand (text : String)
deriving DecidableEq

/-- What has been read so far. -/
structure Progress where
  options : Options
  /-- The operands that have been judged. -/
  operands : List Int64
  pending : Pending
  /-- Whether only operands may follow. -/
  isClosed : Bool
deriving DecidableEq

namespace Progress

def start : Progress := ⟨{}, [], .nothing, false⟩

def missing (p : Progress) : Nat :=
  2 - p.operands.length - match p.pending with
    | .operand _ => 1
    | _ => 0

/-- Gives an option its value, once. -/
def give (p : Progress) (option : ValueOption) (text : String) : Except UsageError Progress :=
  if p.options.has option then .error .repeated
  else
    match p.options.give? option text with
    | some options => .ok { p with options }
    | none => .error .badValue

/-- Judges the value that is pending. -/
def settle (p : Progress) : Except UsageError Progress :=
  let clear := { p with pending := .nothing }
  match p.pending with
  | .nothing => .ok p
  | .value _ none => .error .missingValue
  | .value option (some text) => clear.give option text
  | .operand text =>
    match Text.int64? text.toList with
    | some n => .ok { clear with operands := p.operands ++ [n] }
    | none => .error .badValue

/-- Sets a switch, once. -/
def turnOn (p : Progress) (switch : Switch) : Except UsageError Progress := do
  let p ← p.settle
  if p.options.isSet switch then .error .repeated
  else .ok { p with options := p.options.set switch }

/-- Begins an option whose value is attached or, if there is none, comes next. -/
def begin (p : Progress) (option : ValueOption) (attached : Option String) :
    Except UsageError Progress := do
  let p ← p.settle
  match attached with
  | some text => p.give option text
  | none => .ok { p with pending := .value option none }

/-- Ends the reading with help, unless the value before it is bad. -/
def askHelp (p : Progress) : Except UsageError Progress := do
  let _ ← p.settle
  .error .help

/-- Takes a long option: what follows the two dashes. -/
def long (p : Progress) (text : List Char) : Except UsageError Progress :=
  let name := text.takeWhile (· ≠ '=')
  let attached := match text.dropWhile (· ≠ '=') with
    | [] => none
    | _ :: value => some (String.ofList value)
  match OptionName.ofLong? name, attached with
  | none, _ => .error .unknownArgument
  | some (.value option), _ => p.begin option attached
  | some _, some _ => .error .unwantedValue
  | some (.switch option), none => p.turnOn option
  | some .help, none => p.askHelp

/-- Takes a cluster of short options; the rest after one that takes a value is its value. -/
def cluster (p : Progress) : List Char → Except UsageError Progress
  | [] => .ok p
  | letter :: rest =>
    match OptionName.ofShort? letter with
    | none => .error .unknownArgument
    | some (.value option) =>
      p.begin option (match rest with
        | [] => none
        | '=' :: value => some (String.ofList value)
        | value => some (String.ofList value))
    | some (.switch option) => do
      let p ← p.turnOn option
      p.cluster rest
    | some .help => p.askHelp

def operand (p : Progress) (text : String) : Except UsageError Progress :=
  if p.missing = 0 then .error .unknownArgument
  else do
    let p ← p.settle
    .ok { p with pending := .operand text }

/-- Takes an argument that is no option: the value that is waited for, or an operand. -/
def plain (p : Progress) (text : String) : Except UsageError Progress :=
  match p.pending with
  | .value option none => .ok { p with pending := .value option (some text) }
  | _ => p.operand text

end Progress

/--
Whether a text looks like a number without a sign: digits with at most one point, not
in front, and at most one exponent mark, which is neither first nor last and ends the
place for a point.
-/
def looksLikeNumber (text : List Char) : Bool :=
  let isMark := fun c : Char => c = 'e' || c = 'E'
  let whole := text.takeWhile (!isMark ·)
  let isPlain := fun cs : List Char => cs.all Char.isDigit
  let isDecimal := match whole.dropWhile (· ≠ '.') with
    | [] => isPlain whole
    | _ :: fraction => whole.head? ≠ some '.' && isPlain (whole.takeWhile (· ≠ '.')) &&
      isPlain fraction
  match text.dropWhile (!isMark ·) with
  | [] => isDecimal
  | _ :: exponent => isDecimal && !whole.isEmpty && !exponent.isEmpty && isPlain exponent

namespace Progress

def step (p : Progress) (argument : String) : Except UsageError Progress :=
  if p.isClosed then p.operand argument
  else
    match argument.toList with
    | ['-', '-'] => .ok { p with isClosed := true }
    | '-' :: '-' :: text => p.long text
    | ['-'] => p.plain argument
    | '-' :: text =>
      if 0 < p.missing && looksLikeNumber text then p.plain argument else p.cluster text
    | _ => p.plain argument

/-- What the line says when no argument is left. -/
def finish (p : Progress) : Except UsageError CommandLine := do
  let p ← p.settle
  match p.operands with
  | [numKeys, numChurnOps] => .ok ⟨⟨numKeys, numChurnOps⟩, p.options⟩
  | _ => .error .missingOperand

end Progress

def CommandLine.read (arguments : List String) : Except UsageError CommandLine := do
  let p ← arguments.foldlM Progress.step .start
  p.finish

end ThroughputPlot
