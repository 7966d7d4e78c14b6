/-
The arguments of the command line. The options in front belong to the program;
the first other argument names a command, which reads the rest. Long options may
be shortened as long as they stay unambiguous, and a value follows its option or
is attached to it by an equals sign. Options are told from other arguments before
any of them is acted on; then they are read from left to right, and a call for
help ends the reading.
-/
import Covenant.Build.Workspace
import Covenant.Number.Numeral

namespace Covenant.Command

open Covenant.Text

/-! ## Options -/

/-- The setting that an option with a value sets. -/
inductive Slot where
  | target | archives | output | contractOutput | contractName
deriving DecidableEq, Repr

/-- What an option does. -/
inductive Effect where
  | help
  | verbose
  | value (slot : Slot)
deriving DecidableEq, Repr

/-- An option under its names, the short one first. -/
structure Switch where
  names : List String
  effect : Effect
deriving DecidableEq, Repr

/-- The option as messages name it. -/
def Switch.text (o : Switch) : String :=
  "/".intercalate o.names

def helpOption : Switch := ⟨["-h", "--help"], .help⟩

def verboseOption : Switch := ⟨["-v", "--verbose"], .verbose⟩

def archivesOption : Switch := ⟨["--archives"], .value .archives⟩

/-- The options in front of the command. -/
def programOptions : List Switch := [helpOption, verboseOption]

/-- The commands. -/
inductive Verb where
  | init | check | generate
deriving DecidableEq, Repr

namespace Verb

def text : Verb → String
  | init => "init"
  | check => "check"
  | generate => "generate"

def all : List Verb := [init, check, generate]

def ofText? (s : String) : Option Verb :=
  all.find? (·.text = s)

/-- The options of a command. -/
def options : Verb → List Switch
  | init => [helpOption]
  | check => [helpOption, archivesOption]
  | generate =>
    [helpOption, ⟨["--target"], .value .target⟩, archivesOption, ⟨["--output"], .value .output⟩,
     ⟨["--contract-output"], .value .contractOutput⟩, ⟨["--contract-name"], .value .contractName⟩]

end Verb

/-! ## Errors -/

/-- Why arguments are refused. -/
inductive UsageError where
  | ambiguous (argument : String) (names : List String)
  | missingValue (option : String)
  | unexpectedValue (option value : String)
  | invalidChoice (argument value : String) (choices : List String)
  | unrecognized (arguments : List String)
deriving DecidableEq, Repr

def UsageError.message : UsageError → String
  | ambiguous argument names =>
    s!"ambiguous option: {argument} could match " ++ ", ".intercalate names
  | missingValue option => s!"argument {option}: expected one argument"
  | unexpectedValue option value =>
    s!"argument {option}: ignored explicit argument " ++ quoted value
  | invalidChoice argument value choices =>
    s!"argument {argument}: invalid choice: {quoted value} (choose from "
      ++ ", ".intercalate (choices.map quoted) ++ ")"
  | unrecognized arguments => "unrecognized arguments: " ++ " ".intercalate arguments

/-- The end of the line that reports the error. -/
def UsageError.line (e : UsageError) : String :=
  ": error: " ++ e.message ++ "\n"

/-! ## Telling options from other arguments -/

/-- What is attached to the name of an option, and whether an equals sign attaches it. -/
structure Attached where
  value : String
  byEquals : Bool
deriving DecidableEq, Repr

/-- An argument once it is known what it may be. -/
inductive Argument where
  | positional (text : String)
  /-- The mark after which nothing is an option. -/
  | separator
  | option (option : Switch) (name : String) (attached? : Option Attached)
  /-- Something that looks like an option and is none. -/
  | unknown (text : String)
deriving DecidableEq, Repr

def separatorText : String := "--"

/-- The argument as it was written, as far as it is not an option. -/
def Argument.text : Argument → String
  | positional text | unknown text => text
  | separator => separatorText
  | option _ name _ => name

/-- All names of options, with what they name. -/
def namesOf (options : List Switch) : List (String × Switch) :=
  options.flatMap fun o => o.names.map fun name => (name, o)

/-- A text without the line end at its end. -/
def withoutLineEnd (cs : List Char) : List Char :=
  if cs.getLast? = some '\n' then cs.dropLast else cs

/-- Whether a text is a negative number, which is no option. -/
def isNegativeNumber (cs : List Char) : Bool :=
  match withoutLineEnd cs with
  | '-' :: digits =>
    let whole := digits.takeWhile Number.isDecimal
    match digits.dropWhile Number.isDecimal with
    | [] => !whole.isEmpty
    | '.' :: fraction => !fraction.isEmpty && fraction.all Number.isDecimal
    | _ => false
  | _ => false

/-- What the first equals sign attaches. -/
def attached? (argument : String) : Option Attached :=
  if argument.toList.contains '=' then some ⟨afterFirst '=' argument, true⟩ else none

/-- The options that an argument starting with two dashes shortens. -/
def longMatches (options : List Switch) (argument : String) : List Argument :=
  let start := beforeFirst '=' argument
  ((namesOf options).filter fun (name, _) => name.startsWith start).map fun (name, o) =>
    .option o name (attached? argument)

/-- The short options that an argument starting with one dash starts with. -/
def shortMatches (options : List Switch) (argument : String) : List Argument :=
  let short := String.ofList (argument.toList.take 2)
  ((namesOf options).filter fun (name, _) => name = short).map fun (name, o) =>
    .option o name (some ⟨String.ofList (argument.toList.drop 2), false⟩)

/-- What an argument may be that is no name of an option, with or without a value attached. -/
def classifyInexact (options : List Switch) (argument : String) : Except UsageError Argument :=
  let cs := argument.toList
  let found :=
    if separatorText.toList.isPrefixOf cs then longMatches options argument
    else shortMatches options argument
  match found with
  | [] =>
    if isNegativeNumber cs || cs.contains ' ' then .ok (.positional argument)
    else .ok (.unknown argument)
  | [one] => .ok one
  | several => .error (.ambiguous argument (several.map (·.text)))

/-- What an argument in front of a separator may be. -/
def classify (options : List Switch) (argument : String) : Except UsageError Argument :=
  if !argument.startsWith "-" then .ok (.positional argument)
  else
    match (namesOf options).lookup argument with
    | some o => .ok (.option o argument none)
    | none =>
      if argument = "-" then .ok (.positional argument)
      else
        match (namesOf options).lookup (beforeFirst '=' argument) with
        | some o => .ok (.option o (beforeFirst '=' argument) (attached? argument))
        | none => classifyInexact options argument

/-- What each argument may be; behind a separator there are no options. -/
def classifyAll (options : List Switch) : List String → Except UsageError (List Argument)
  | [] => .ok []
  | argument :: rest =>
    if argument = separatorText then .ok (.separator :: rest.map .positional)
    else do
      let first ← classify options argument
      return first :: (← classifyAll options rest)

/-! ## Options without a value -/

/-- The options without a value that an argument stands for, and what is left of it. -/
structure Flags where
  options : List Switch
  left? : Option String := none
deriving DecidableEq, Repr

/-- Whether a call for help is among the options. -/
def Flags.callHelp (flags : Flags) : Bool :=
  flags.options.any (·.effect = .help)

/-- The options that the letters behind a short option stand for; what follows them from the first
letter on that is none is left. -/
def clustered (options : List Switch) (current : Switch) : List Char → Except UsageError Flags
  | [] => .ok ⟨[], none⟩
  | c :: cs =>
    if c = '-' then .error (.unexpectedValue current.text (String.ofList (c :: cs)))
    else
      match (namesOf options).lookup (String.ofList ['-', c]) with
      | none => .ok ⟨[], some (String.ofList ('-' :: c :: cs))⟩
      | some next =>
        if cs.head? = some '=' then
          .error (.unexpectedValue next.text (String.ofList (cs.drop 1)))
        else do
          let flags ← clustered options next cs
          return { flags with options := next :: flags.options }

/-- The options without a value that an argument stands for. -/
def flagged (options : List Switch) (o : Switch) (name : String) (attached? : Option Attached) :
    Except UsageError Flags :=
  match attached? with
  | none => .ok ⟨[o], none⟩
  | some attached =>
    if attached.value.isEmpty || attached.byEquals || name.startsWith separatorText then
      .error (.unexpectedValue o.text attached.value)
    else do
      let flags ← clustered options o attached.value.toList
      return { flags with options := o :: flags.options }

/-! ## Commands -/

/-- What the arguments of a command say. -/
structure Given where
  directory? : Option String := none
  target : BuildTarget := .all
  archives? : Option String := none
  output? : Option String := none
  contractOutput? : Option String := none
  contractName? : Option String := none
  /-- The arguments that the command has no use for. -/
  extras : List String := []
deriving DecidableEq, Repr

def targetChoices : List String := [BuildTarget.models, .contract, .all].map (·.text)

/-- Sets what an option with a value sets. -/
def Given.set (given : Given) (o : Switch) (slot : Slot) (value : String) :
    Except UsageError Given :=
  match slot with
  | .target =>
    match BuildTarget.ofText? value with
    | some target => .ok { given with target }
    | none => .error (.invalidChoice o.text value targetChoices)
  | .archives => .ok { given with archives? := some value }
  | .output => .ok { given with output? := some value }
  | .contractOutput => .ok { given with contractOutput? := some value }
  | .contractName => .ok { given with contractName? := some value }

/-- Reads the arguments of a command; none if they call for help. The first argument that is no
option is the directory, and the separator next to it is dropped. -/
def readGiven (options : List Switch) (given : Given) :
    List Argument → Except UsageError (Option Given)
  | [] => .ok (some given)
  | .positional text :: .separator :: rest =>
    if given.directory?.isNone then readGiven options { given with directory? := some text } rest
    else
      readGiven options { given with extras := given.extras ++ [text, separatorText] } rest
  | .positional text :: rest =>
    if given.directory?.isNone then readGiven options { given with directory? := some text } rest
    else readGiven options { given with extras := given.extras ++ [text] } rest
  | .separator :: rest =>
    if given.directory?.isNone then readGiven options given rest
    else readGiven options { given with extras := given.extras ++ [separatorText] } rest
  | .unknown text :: rest =>
    readGiven options { given with extras := given.extras ++ [text] } rest
  | .option o name attached? :: rest =>
    match o.effect, attached?, rest with
    | .value slot, some attached, rest => do
      readGiven options (← given.set o slot attached.value) rest
    | .value slot, none, .positional value :: rest => do
      readGiven options (← given.set o slot value) rest
    | .value _, none, _ => .error (.missingValue o.text)
    | _, _, rest => do
      let flags ← flagged options o name attached?
      if flags.callHelp then .ok none
      else readGiven options { given with extras := given.extras ++ flags.left?.toList } rest

/-! ## The program -/

/-- What is asked of the program. -/
inductive Request where
  /-- The help of a command or, without one, of the program. -/
  | help (verb? : Option Verb)
  | run (isVerbose : Bool) (verb : Verb) (given : Given)
deriving DecidableEq, Repr

/-- What the arguments in front of the command say. -/
structure Front where
  isVerbose : Bool := false
  extras : List String := []
deriving DecidableEq, Repr

/-- Refuses arguments that nothing has use for. -/
def refuseExtras (extras : List String) (request : Request) : Except UsageError Request :=
  if extras.isEmpty then .ok request else .error (.unrecognized extras)

/-- Reads a command and its arguments. -/
def readCommand (front : Front) (name : String) (arguments : List String) :
    Except UsageError Request := do
  match Verb.ofText? name with
  | none => .error (.invalidChoice "COMMAND" name (Verb.all.map (·.text)))
  | some verb =>
    match ← readGiven verb.options {} (← classifyAll verb.options arguments) with
    | none => return .help (some verb)
    | some given => refuseExtras (front.extras ++ given.extras) (.run front.isVerbose verb given)

/-- Reads the arguments from the front up to the command; `written` are the arguments as they were
written. -/
def readFront (front : Front) : List Argument → List String → Except UsageError Request
  | .positional name :: _, _ :: written => readCommand front name written
  | .separator :: _, [_] => refuseExtras (front.extras ++ [separatorText]) (.help none)
  | .separator :: _, _ :: written => readCommand front separatorText written
  | .unknown text :: rest, _ :: written =>
    readFront { front with extras := front.extras ++ [text] } rest written
  | .option o name attached? :: rest, _ :: written => do
    let flags ← flagged programOptions o name attached?
    if flags.callHelp then return .help none
    else readFront ⟨true, front.extras ++ flags.left?.toList⟩ rest written
  | [], _ | _, [] => refuseExtras front.extras (.help none)

/-- Reads the arguments of the program. -/
def Request.ofArguments (arguments : List String) : Except UsageError Request := do
  readFront {} (← classifyAll programOptions arguments) arguments

end Covenant.Command
