import BundleServer.Settings
import BundleServer.Text.Terminal

/-!
# Command line options

An option takes a value, behind `=` or as the next argument; a switch takes none. The value of an option is checked
when the next option or switch has been recognised, or at the end. An argument that is not recognised is reported at
once, even if the option in front of it still lacks its value.
-/

namespace BundleServer.CommandLine

/-- The options with a value. -/
inductive Setting where
  | bind
  | appsPath
  | dataPath
  | staticPath
  | walkOrder
  deriving DecidableEq, Repr

/-- The options without a value. -/
inductive Switch where
  | verbose
  | quiet
  | help
  | version
  deriving DecidableEq, Repr

namespace Setting

/-- All options with a value. -/
def all : List Setting := [.bind, .appsPath, .dataPath, .staticPath, .walkOrder]

/-- The name of an option. -/
def name : Setting → String
  | .bind => "bind"
  | .appsPath => "apps-path"
  | .dataPath => "data-path"
  | .staticPath => "static-path"
  | .walkOrder => "walk-order"

/-- What stands for the value in messages. -/
def placeholder : Setting → String
  | .bind => "BIND"
  | .appsPath => "APPS_PATH"
  | .dataPath => "DATA_PATH"
  | .staticPath => "STATIC_PATH"
  | .walkOrder => "WALK_ORDER"

/-- The option as messages show it. -/
def usage (setting : Setting) : String := s!"--{setting.name} <{setting.placeholder}>"

end Setting

namespace Switch

/-- All options without a value. -/
def all : List Switch := [.verbose, .quiet, .help, .version]

/-- The name of a switch. -/
def name : Switch → String
  | .verbose => "verbose"
  | .quiet => "quiet"
  | .help => "help"
  | .version => "version"

/-- The letter of a switch, if it has one. -/
def letter? : Switch → Option Char
  | .verbose => some 'v'
  | .quiet => none
  | .help => some 'h'
  | .version => some 'V'

/-- The switch as messages show it. -/
def usage (switch : Switch) : String := s!"--{switch.name}"

end Switch

/-- Why a command line is refused. -/
inductive Fault where
  | unexpectedArgument (shown : String)
  | unexpectedValue (value : String) (switch : Switch)
  | missingValue (setting : Setting)
  | invalidValue (value : String) (setting : Setting)
  | notUtf8
  | repeated (usage : String)
  deriving DecidableEq, Repr

/-- The wording of a fault. What is repeated of an argument loses its control sequences. -/
def Fault.message : Fault → String
  | .unexpectedArgument shown => s!"unexpected argument '{Text.Terminal.plain shown}' found"
  | .unexpectedValue value switch =>
    s!"unexpected value '{Text.Terminal.plain value}' for '{switch.usage}' found; no more were expected"
  | .missingValue setting => s!"a value is required for '{setting.usage}' but none was supplied"
  | .invalidValue value setting => s!"invalid value '{Text.Terminal.plain value}' for '{setting.usage}'"
  | .notUtf8 => "invalid UTF-8 was detected in one or more arguments"
  | .repeated usage => s!"the argument '{usage}' cannot be used multiple times"

/-- What ends the reading of a command line early. -/
inductive Stop where
  | help
  | version
  | fault (fault : Fault)
  deriving DecidableEq, Repr

/-- What a command line asks for. -/
structure Options where
  flags : Flags := {}
  verbose : Bool := false
  quiet : Bool := false
  deriving DecidableEq, Repr

/-- A command line while it is read: the options so far, and an option whose value is still to be checked or, without
a value, to come. -/
structure Reading where
  options : Options := {}
  pending? : Option (Setting × Option Bytes) := none
  deriving DecidableEq, Repr

/-- Is the option set? -/
def Flags.has (flags : Flags) : Setting → Bool
  | .bind => flags.bind?.isSome
  | .appsPath => flags.appsPath?.isSome
  | .dataPath => flags.dataPath?.isSome
  | .staticPath => flags.staticPath?.isSome
  | .walkOrder => flags.order?.isSome

/-- A path given as the value of an option. It must not be empty. -/
def readPath (setting : Setting) (value : Bytes) : Except Fault Path :=
  if value = [] then .error (.missingValue setting) else .ok ⟨value⟩

/-- An order given as the value of an option. -/
def readOrder (value : Bytes) : Except Fault OrderSetting :=
  if value = [] then .error (.missingValue .walkOrder)
  else match OrderSetting.all.find? fun order => Utf8.encode order.name = value with
    | some order => .ok order
    | none => .error (.invalidValue (Utf8.lossy value) .walkOrder)

/-- The flags with one option set. -/
def setFlag (flags : Flags) (setting : Setting) (value : Bytes) : Except Fault Flags :=
  match setting with
  | .bind => match Utf8.decode? value with
    | some text => .ok { flags with bind? := some text }
    | none => .error .notUtf8
  | .appsPath => do return { flags with appsPath? := some (← readPath setting value) }
  | .dataPath => do return { flags with dataPath? := some (← readPath setting value) }
  | .staticPath => do return { flags with staticPath? := some (← readPath setting value) }
  | .walkOrder => do return { flags with order? := some (← readOrder value) }

namespace Reading

/-- Checks the pending option and sets it. -/
def settle (reading : Reading) : Except Fault Options :=
  match reading.pending? with
  | none => .ok reading.options
  | some (setting, none) => .error (.missingValue setting)
  | some (setting, some value) =>
    if Flags.has reading.options.flags setting then .error (.repeated setting.usage)
    else do return { reading.options with flags := ← setFlag reading.options.flags setting value }

/-- Acts on a switch. -/
def throwSwitch (reading : Reading) (switch : Switch) : Except Stop Reading := do
  let options ← reading.settle.mapError Stop.fault
  match switch with
  | .help => throw .help
  | .version => throw .version
  | .verbose =>
    if options.verbose then throw (.fault (.repeated switch.usage))
    else return { options := { options with verbose := true } }
  | .quiet =>
    if options.quiet then throw (.fault (.repeated switch.usage))
    else return { options := { options with quiet := true } }

/-- Acts on switches given by their letters, in front of bytes that are not UTF-8. -/
def throwLetters (reading : Reading) (letters : List Char) (invalid : Bytes) : Except Stop Reading :=
  match letters with
  | [] => if invalid = [] then .ok reading else .error (.fault (.unexpectedArgument ("-" ++ Utf8.lossy invalid)))
  | letter :: rest => match Switch.all.find? (·.letter? = some letter) with
    | some switch => do throwLetters (← reading.throwSwitch switch) rest invalid
    | none => .error (.fault (.unexpectedArgument s!"-{letter}"))

/-- Acts on an argument that starts with two hyphens: its name, and its value if one is attached. -/
def takeNamed (reading : Reading) (name : Bytes) (attached? : Option Bytes) : Except Stop Reading :=
  match Setting.all.find? fun setting => Utf8.encode setting.name = name with
  | some setting => do
    let options ← reading.settle.mapError Stop.fault
    match attached? with
    | none => return { options, pending? := some (setting, none) }
    | some value =>
      let set : Reading := { options, pending? := some (setting, some value) }
      return { options := ← set.settle.mapError Stop.fault }
  | none => match Switch.all.find? fun switch => Utf8.encode switch.name = name with
    | some switch => match attached? with
      | some value => .error (.fault (.unexpectedValue (Utf8.lossy value) switch))
      | none => reading.throwSwitch switch
    | none => .error (.fault (.unexpectedArgument ("--" ++ Utf8.lossy name)))

/-- Acts on an argument that names no option: the value that an option waits for. -/
def takeValue (reading : Reading) (argument : Bytes) : Except Stop Reading :=
  match reading.pending? with
  | some (setting, none) => .ok { reading with pending? := some (setting, some argument) }
  | _ => .error (.fault (.unexpectedArgument (Utf8.lossy argument)))

/-- The byte `-`. -/
def hyphen : UInt8 := 0x2D

/-- The byte `=`. -/
def equals : UInt8 := 0x3D

/-- Acts on one argument. -/
def take (reading : Reading) (argument : Bytes) : Except Stop Reading :=
  match argument with
  | a :: b :: rest =>
    if a = hyphen ∧ b = hyphen then
      let name := rest.takeWhile (· ≠ equals)
      reading.takeNamed name ((rest.drop name.length).tail?)
    else if a = hyphen then
      let valid := (b :: rest).take (Utf8.validLength (b :: rest))
      reading.throwLetters ((Utf8.scan valid).filterMap id) ((b :: rest).drop valid.length)
    else reading.takeValue argument
  | _ => reading.takeValue argument

/-- Reads all arguments. Behind a bare `--` stand operands, and none is expected. -/
def takeAll (reading : Reading) : List Bytes → Except Stop Options
  | [] => reading.settle.mapError Stop.fault
  | argument :: rest =>
    if argument = [hyphen, hyphen] then
      match rest with
      | [] => reading.settle.mapError Stop.fault
      | operand :: _ => .error (.fault (.unexpectedArgument (Utf8.lossy operand)))
    else do takeAll (← reading.take argument) rest

end Reading

/-- What the arguments ask for. -/
def Options.parse (arguments : List Bytes) : Except Stop Options := Reading.takeAll {} arguments

end BundleServer.CommandLine
