import ScopeMachine.Text

/-! # Commands

What the command line can be asked to do, and how arguments are read. Options may stand before and
after the name of a command; after a lone `--` every argument is taken as it is. An argument that
starts with a dash is otherwise an option, except that some places also take negative numbers.
Arguments are judged from left to right, so that a request for help stands only if nothing before it
is wrong.

* `Request.parse?` reads a list of arguments; there is no request in arguments that do not follow
  the rules. -/

namespace ScopeMachine

/-! ### Requests -/

/-- A command with its arguments. -/
inductive Command where
  /-- Compute a factorial. -/
  | factorial (n : Int64)
  /-- Sort words. -/
  | sort (words : List Int64)
  /-- Verify a module. -/
  | check (target : String)
  /-- Summarise a module, as text or as JSON. -/
  | inspect (target : String) (json : Bool)
  /-- List a module. -/
  | disassemble (target : String)
  /-- Write a sample to a file. -/
  | exportSample (sample file : String)
  /-- Run a procedure of a module in a file, on words. -/
  | run (file : String) (proc : UInt32) (words : List Int64)
deriving DecidableEq

/-- What is asked for. -/
inductive Request where
  /-- The version. -/
  | version
  /-- An explanation of the commands. -/
  | help
  /-- A command, with the largest number of nested calls if one is given, and whether events are to
  be shown. -/
  | ofCommand (command : Command) (maxCallDepth : Option Nat) (verbose : Bool)
deriving DecidableEq

namespace Request

/-! ### Values -/

/-- An unsigned 32-bit number. It may have a sign, so that `-0` is one. -/
def index? (text : String) : Option UInt32 :=
  (Text.word? text.toList).bind fun word =>
    if 0 ≤ word.toInt ∧ word.toInt < UInt32.size then some (UInt32.ofNat word.toInt.toNat)
    else none

/-! ### Forms of arguments -/

/-- The form of one argument. -/
inductive Form where
  /-- A lone `--`. -/
  | escape
  /-- An option by its name, perhaps with a value behind an equals sign. -/
  | long (name : String) (value : Option String)
  /-- A row of options by their letters. -/
  | short (letters : List Char)
  /-- A plain argument. -/
  | plain

/-- The part before the first equals sign, and the part after it. -/
def splitValue (text : List Char) : String × Option String :=
  let name := text.takeWhile (· ≠ '=')
  match text.dropWhile (· ≠ '=') with
  | [] => (String.ofList name, none)
  | _ :: value => (String.ofList name, some (String.ofList value))

/-- The form of an argument. -/
def formOf (argument : String) : Form :=
  match argument.toList with
  | ['-', '-'] => .escape
  | '-' :: '-' :: rest =>
      let (name, value) := splitValue rest
      .long name value
  | '-' :: letter :: letters => .short (letter :: letters)
  | _ => .plain

/-- Whether an argument is a dash and digits. -/
def isNegativeNumber (argument : String) : Bool :=
  match argument.toList with
  | '-' :: digit :: digits => (digit :: digits).all Char.isDigit
  | _ => false

/-- Whether an argument can be the value of the option before it. -/
def isValue (negatives : Bool) (argument : String) : Bool :=
  match formOf argument with
  | .plain => true
  | _ => negatives && isNegativeNumber argument

/-! ### Options -/

/-- The options given so far. -/
structure Options where
  /-- Whether events are to be shown. -/
  verbose : Bool
  /-- The largest number of nested calls. -/
  maxCallDepth : Option Nat
  /-- Whether JSON is asked for. -/
  json : Bool
  /-- The procedure to run. -/
  proc : Option UInt32
  /-- The words to run it on, the latest first. -/
  words : List Int64

/-- No options. -/
def Options.none : Options := ⟨false, Option.none, false, Option.none, []⟩

/-- What an option does. -/
inductive OptionRule where
  /-- It asks for a request of its own. -/
  | ask (request : Request)
  /-- It is a switch, which can be given once. -/
  | switch (set : Options → Option Options)
  /-- It takes a value, which may be a negative number. -/
  | value (negatives : Bool) (set : String → Options → Option Options)

/-- Show events. -/
def verboseRule : OptionRule :=
  .switch fun options =>
    if options.verbose then Option.none else some { options with verbose := true }

/-- The options that every command has. -/
def commonRule? (name : String) : Option OptionRule :=
  if name = "verbose" then some verboseRule
  else if name = "max-call-depth" then
    some (.value false fun text options =>
      if options.maxCallDepth.isSome then none
      else (Text.naturalBelow? UInt64.size text.toList).map fun depth =>
        { options with maxCallDepth := some depth })
  else if name = "help" then some (.ask .help)
  else none

/-- The options before the command. -/
def rootRule? (name : String) : Option OptionRule :=
  if name = "version" then some (.ask .version) else commonRule? name

/-- The options of a command. -/
def commandRule? (command name : String) : Option OptionRule :=
  if command = "inspect" && name = "json" then
    some (.switch fun options => if options.json then none else some { options with json := true })
  else if command = "run" && name = "proc" then
    some (.value false fun text options =>
      if options.proc.isSome then none
      else (index? text).map fun proc => { options with proc := some proc })
  else if command = "run" && name = "word" then
    some (.value true fun text options =>
      (Text.word? text.toList).map fun word => { options with words := word :: options.words })
  else commonRule? name

/-- The names that the letters stand for. -/
def letterName? (letter : Char) : Option String :=
  [('v', "verbose"), ('V', "version"), ('h', "help")].lookup letter

/-- What reading options leads to. -/
inductive Progress where
  /-- A request of its own. -/
  | asked (request : Request)
  /-- The options so far, and the arguments that are left. There are no options if the last one has
  a value of its own that it does not take. -/
  | more (options : Option Options) (rest : List String)

/-- Read an option by its name, with a value where it takes one. A value behind an equals sign has
to be right at once. -/
def readLong? (rule? : String → Option OptionRule) (name : String) (value : Option String)
    (options : Options) (rest : List String) : Option Progress := do
  match ← rule? name, value, rest with
  | .ask request, none, _ => return .asked request
  | .switch set, none, rest => return .more (some (← set options)) rest
  | .value _ set, some text, rest => return .more (some (← set text options)) rest
  | .value negatives set, none, text :: rest =>
      if isValue negatives text then return .more (set text options) rest
      none
  | _, _, _ => none

/-- Read a row of options by their letters. None of them takes a value. -/
def readShort? (rule? : String → Option OptionRule) :
    List Char → Options → List String → Option Progress
  | [], options, rest => some (.more (some options) rest)
  | letter :: letters, options, rest => do
      match ← rule? (← letterName? letter) with
      | .ask request => return .asked request
      | .switch set => readShort? rule? letters (← set options) rest
      | .value .. => none

/-! ### Commands -/

/-- Whether a command takes one more plain argument after those that it has. -/
def takesPlain (command : String) (plain : List String) (argument : String) : Bool :=
  match command with
  | "factorial" => plain.isEmpty && (Text.word? argument.toList).isSome
  | "sort" => (Text.word? argument.toList).isSome
  | "export" => plain.length < 2
  | _ => plain.isEmpty

/-- The command with a given name, from its plain arguments and options. -/
def assemble? (name : String) (plain : List String) (options : Options) : Option Command :=
  match name, plain with
  | "factorial", [n] => (Text.word? n.toList).map .factorial
  | "sort", word :: words => ((word :: words).mapM fun word => Text.word? word.toList).map .sort
  | "check", [target] => some (.check target)
  | "inspect", [target] => some (.inspect target options.json)
  | "disassemble", [target] => some (.disassemble target)
  | "export", [sample, file] => some (.exportSample sample file)
  | "run", [file] => some (.run file (options.proc.getD 0) options.words.reverse)
  | _, _ => none

/-- The names of the commands. -/
def commandNames : List String :=
  ["factorial", "sort", "check", "inspect", "disassemble", "export", "run"]

/-- A command with the common options before and after its name; those after it win. -/
def ofOptions (outer inner : Options) (command : Command) : Request :=
  .ofCommand command (inner.maxCallDepth <|> outer.maxCallDepth) (outer.verbose || inner.verbose)

/-- Read the arguments after the name of a command; `plain` holds the plain ones already read, the
latest first. An argument that is not taken makes no request, whatever comes after it; a request for
help, on the other hand, stands whatever comes after it. `outer` are the options before the name,
which are needed only for the command itself. -/
def readCommand? (name : String) (outer : Option Options) :
    (fuel : Nat) → Options → (plain : List String) → List String → Option Request
  | 0, _, _, _ => none
  | _ + 1, options, plain, [] => do
      return ofOptions (← outer) options (← assemble? name plain.reverse options)
  | fuel + 1, options, plain, argument :: rest =>
      let takePlain :=
        if takesPlain name plain argument then
          readCommand? name outer fuel options (argument :: plain) rest
        else none
      let proceed : Progress → Option Request
        | .asked request => some request
        | .more options rest =>
            options.bind fun options => readCommand? name outer fuel options plain rest
      match formOf argument with
      | .plain => takePlain
      | .escape => do
          return ofOptions (← outer) options (← assemble? name (plain.reverse ++ rest) options)
      | .long option value => readLong? (commandRule? name) option value options rest >>= proceed
      | .short letters =>
          if name = "sort" && isNegativeNumber argument then takePlain
          else readShort? (commandRule? name) letters options rest >>= proceed

/-- The request to explain all commands, or one of them. -/
def helpOn? : List String → Option Request
  | [] => some .help
  | [name] => if name = "help" || commandNames.contains name then some .help else none
  | _ => none

/-- Read the arguments before the name of a command. A value that the last option does not take
counts only after the arguments of the command have been read. -/
def readRoot? : (fuel : Nat) → Option Options → List String → Option Request
  | 0, _, _ => none
  | _ + 1, _, [] => none
  | fuel + 1, options, argument :: rest =>
      let proceed : Progress → Option Request
        | .asked request => some request
        | .more options rest => readRoot? fuel options rest
      match formOf argument with
      | .plain =>
          if argument = "help" then helpOn? rest
          else if commandNames.contains argument then
            readCommand? argument options (rest.length + 1) Options.none [] rest
          else none
      | .escape => none
      | .long option value =>
          options.bind fun options => readLong? rootRule? option value options rest >>= proceed
      | .short letters =>
          options.bind fun options => readShort? rootRule? letters options rest >>= proceed

/-- The request that a list of arguments makes. -/
def parse? (arguments : List String) : Option Request :=
  readRoot? (arguments.length + 1) (some Options.none) arguments

end Request

end ScopeMachine
