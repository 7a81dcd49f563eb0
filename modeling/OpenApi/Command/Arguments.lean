-- SUMMARY: Reading a command from the arguments of a program.
import OpenApi.Command

/-!
# Arguments

A command is a word and options behind it. An option is written with its long name
or its letter; its value is the next argument, or stands behind `=`, or directly
behind the letter. An option that takes several values takes all arguments up to
the next option. Values are taken into account when the next option comes or the
arguments end, and what is wrong first is reported.
-/

namespace OpenApi.Command

/-- Why arguments are no command. -/
inductive Usage where
  /-- Help was asked for. -/
  | help
  /-- There were no arguments. -/
  | helpForNothing
  | unknownArgument | invalidSubcommand | invalidValue | argumentConflict
  | missingArgument | tooManyValues
deriving DecidableEq, Repr

/-- How many values an option takes at a time. -/
inductive Arity where
  | none | one | many
deriving DecidableEq, Repr

/-- An option of a command. -/
structure Flag where
  long : String
  letter : Option Char := none
  arity : Arity := .one
  required : Bool := false
  /-- Whether its values must not be empty, as for paths. -/
  isPath : Bool := false
deriving DecidableEq, Repr

/-- The option that asks for help. -/
def helpFlag : Flag := { long := "help", letter := some 'h', arity := .none }

/-- The option that names the schema document. -/
def schemaFlag : Flag := { long := "schema", letter := some 's', required := true, isPath := true }

/-- The options of `inspect`. -/
def inspectFlags : List Flag :=
  [schemaFlag, { long := "out", letter := some 'o', isPath := true }, helpFlag]

/-- The options of `validate`. -/
def validateFlags : List Flag :=
  [schemaFlag, { long := "ndjson", arity := .none }, { long := "json-pointer" },
   { long := "input", letter := some 'i', arity := .many, required := true },
   { long := "root", required := true }, helpFlag]

/-! ## Options -/

/-- The values that options have been given, and the option whose values are being collected. -/
structure Given where
  values : Keyed (List String) := []
  pending : Option (Flag × List String) := none

namespace Given

/-- Take an option with its values into account. -/
def accept (given : Given) (flag : Flag) (values : List String) : Except Usage Given :=
  if flag = helpFlag then .error .help
  else if flag.arity ≠ .none && values.isEmpty then .error .invalidValue
  else if flag.arity ≠ .many && given.values.contains flag.long then .error .argumentConflict
  else if flag.isPath && values.contains "" then .error .invalidValue
  else
    let before := (given.values.get? flag.long).getD []
    .ok { given with values := given.values.insert flag.long (before ++ values) }

/-- Take the pending option into account. -/
def settle (given : Given) : Except Usage Given :=
  match given.pending with
  | none => .ok given
  | some (flag, values) => { given with pending := none }.accept flag values

/-- Meet an option, perhaps with a value attached. -/
def meet (given : Given) (flag : Flag) (attached : Option String) : Except Usage Given := do
  let given ← given.settle
  match flag.arity, attached with
  | .none, _ => given.accept flag []
  | _, some value => given.accept flag [value]
  | _, none => .ok { given with pending := some (flag, []) }

/-- Meet an argument that is no option: a value for the pending one, if it takes more. -/
def value (given : Given) (text : String) : Except Usage Given :=
  match given.pending with
  | some (flag, values) =>
    if flag.arity = .many || values.isEmpty then
      .ok { given with pending := some (flag, values ++ [text]) }
    else .error .unknownArgument
  | none => .error .unknownArgument

/-- Meet an option by its long name. -/
def long (flags : List Flag) (given : Given) (text : List Char) : Except Usage Given :=
  let name := String.ofList (text.takeWhile (· ≠ '='))
  let attached := match text.dropWhile (· ≠ '=') with
    | _ :: value => some (String.ofList value)
    | [] => none
  match flags.find? (·.long == name) with
  | none => .error .unknownArgument
  | some flag =>
    if flag.arity = .none && attached.isSome then .error .tooManyValues
    else given.meet flag attached

/-- Meet options by their letters. What stands behind the letter of an option with a value is that
value. -/
def letters (flags : List Flag) (given : Given) : List Char → Except Usage Given
  | [] => .ok given
  | c :: rest =>
    match flags.find? (·.letter == some c) with
    | none => .error .unknownArgument
    | some flag =>
      if flag.arity = .none then do letters flags (← given.meet flag none) rest
      else
        match rest with
        | [] => given.meet flag none
        | '=' :: value => given.meet flag (some (String.ofList value))
        | value => given.meet flag (some (String.ofList value))

/-- Meet arguments one after another. Behind `--` nothing but values could come, and no option
takes them. -/
def arguments (flags : List Flag) (given : Given) : List String → Except Usage Given
  | [] => given.settle
  | argument :: rest => do
    match argument.toList with
    | ['-', '-'] => if rest.isEmpty then given.settle else .error .unknownArgument
    | '-' :: '-' :: name => arguments flags (← given.long flags name) rest
    | '-' :: c :: cs => arguments flags (← given.letters flags (c :: cs)) rest
    | _ => arguments flags (← given.value argument) rest

/-- The value of an option that takes one. -/
def one? (given : Given) (name : String) : Option String :=
  (given.values.get? name).bind List.head?

end Given

/-- The values of options, all required ones being there. -/
def readFlags (flags : List Flag) (arguments : List String) : Except Usage Given := do
  let given ← Given.arguments flags {} arguments
  if flags.all fun flag => !flag.required || given.values.contains flag.long then .ok given
  else .error .missingArgument

/-! ## Commands -/

/-- Read the options of `inspect`. -/
def readInspect (arguments : List String) : Except Usage Command := do
  let given ← readFlags inspectFlags arguments
  return .inspect ((given.one? "schema").getD "") (given.one? "out")

/-- Read the options of `validate`. -/
def readValidate (arguments : List String) : Except Usage Command := do
  let given ← readFlags validateFlags arguments
  let inputs : Inputs :=
    { patterns := (given.values.get? "input").getD []
      byLine := given.values.contains "ndjson"
      pointer := given.one? "json-pointer" }
  return .validate ((given.one? "schema").getD "") inputs ((given.one? "root").getD "")

/-- The words that start commands. -/
def words : List String := ["inspect", "validate", "help"]

/-- What `help` says: it may be followed by one of the words. -/
def helpOn : List String → Usage
  | [] => .help
  | [word] => if words.contains word then .help else .invalidSubcommand
  | _ => .invalidSubcommand

/-- Read a command from the arguments of a program. -/
def read : List String → Except Usage Command
  | [] => .error .helpForNothing
  | "inspect" :: rest => readInspect rest
  | "validate" :: rest => readValidate rest
  | "help" :: rest => .error (helpOn rest)
  | ["--"] => .error .helpForNothing
  | "--" :: word :: _ =>
    .error (if words.contains word then .unknownArgument else .invalidSubcommand)
  | argument :: _ =>
    match Given.arguments [helpFlag] {} [argument] with
    | .error usage =>
      .error (if argument.startsWith "-" && argument ≠ "-" then usage else .invalidSubcommand)
    | .ok _ => .error .helpForNothing

end OpenApi.Command
