import BundleServer.CommandLine.Options
import BundleServer.CommandLine.Usage
import BundleServer.Log.Filter

/-!
# Starting up

From the arguments and the environment to what a run writes and the status it ends with. A run logs its settings and
then tries to listen at the given address.
-/

namespace BundleServer.CommandLine

/-- What a run writes, and its exit status. -/
structure Outcome where
  exit : Nat
  output : String
  errors : String
  deriving DecidableEq, Repr

/-- The target of the log records of a run. -/
def logTarget : String := "apphub_server"

/-- The variable with the log specification. -/
def logVariable : String := "RUST_LOG"

/-- Which log records are shown, with complaints about the specification. Switches set the level for targets that the
specification does not name. -/
def logFilter (options : Options) (environment : Environment) : Log.Filter × List Log.Filter.Complaint :=
  let text := ((environment logVariable).bind Utf8.decode?).getD "info"
  let (filter, complaints) := Log.Filter.parse text
  let filter :=
    if options.quiet then filter.insert ⟨none, some .warn⟩
    else if options.verbose then filter.insert ⟨none, some .debug⟩
    else filter
  (filter, complaints)

/-- A text whose further lines are indented. -/
def indentLines (text : String) : String :=
  String.ofList (text.toList.flatMap fun c => if c = '\n' then ['\n', ' ', ' ', ' ', ' '] else [c])

/-- A log record as it is written, if it is shown. Control sequences are left out of the whole record. -/
def logLine (filter : Log.Filter) (level : Log.Level) (message : String) : String :=
  if filter.shows level logTarget message then
    let name := level.name ++ String.ofList (List.replicate (5 - level.name.length) ' ')
    Text.Terminal.plain s!"[{name} {logTarget}] {indentLines message}\n"
  else ""

/-- Why an address cannot be listened at. -/
inductive AddressFault where
  | noPort
  | badPort
  | unsupported
  deriving DecidableEq, Repr

/-- The wording of a fault. -/
def AddressFault.text : AddressFault → String
  | .noPort => "invalid socket address"
  | .badPort => "invalid port value"
  | .unsupported => "operation not supported on this platform"

/-- Is the text a port? A plus sign may stand in front of the digits. -/
def isPort (text : List Char) : Bool :=
  let digits := match text with
    | '+' :: rest => rest
    | digits => digits
  digits ≠ [] && digits.all Char.isDigit &&
    digits.foldl (fun value c => value * 10 + (c.toNat - 0x30)) 0 < UInt16.size

/-- What is wrong with an address. The port stands behind the last colon. -/
def addressFault (address : String) : AddressFault :=
  let backwards := address.toList.reverse
  let port := (backwards.takeWhile (· ≠ ':')).reverse
  if port.length = backwards.length then .noPort
  else if isPort port then .unsupported
  else .badPort

/-- What is logged before the address is listened at. -/
def greeting (settings : Settings) : List String :=
  program :: settings.describe.map (fun (name, value) => s!"  --{name}={value}") ++ ["serving: /apps/\x7bapp\x7d/"]

/-- Runs with settings. -/
def runSettings (settings : Settings) (filter : Log.Filter) : Outcome :=
  let log := String.join ((greeting settings).map (logLine filter .info))
  ⟨1, "", s!"{log}Error: Failed to bind {settings.bind}\n\nCaused by:\n    {(addressFault settings.bind).text}\n"⟩

/-- Runs with options. -/
def runOptions (options : Options) (environment : Environment) : Outcome :=
  let (filter, complaints) := logFilter options environment
  let warnings := String.join (complaints.map fun complaint => s!"warning: {complaint.message}, ignoring it\n")
  match Settings.ofFlags options.flags environment with
  | .error error => ⟨1, "", s!"{warnings}Error: {error.message}\n"⟩
  | .ok settings =>
    let outcome := runSettings settings filter
    { outcome with errors := warnings ++ outcome.errors }

/-- Runs the program. -/
def run (arguments : List Bytes) (environment : Environment) : Outcome :=
  match Options.parse arguments with
  | .error .help => ⟨0, helpText, ""⟩
  | .error .version => ⟨0, versionText, ""⟩
  | .error (.fault fault) => ⟨2, "", s!"error: {fault.message}\n"⟩
  | .ok options => runOptions options environment

end BundleServer.CommandLine
