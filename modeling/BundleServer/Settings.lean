import BundleServer.Layout
import BundleServer.Text.Blank
import BundleServer.Walk.Order

/-!
# Settings

A setting comes from a flag, else from an environment variable, else from a default. Flags are taken as they are. The
value of a variable is trimmed, and one that is blank or not UTF-8 counts as unset. A data path, wherever it comes
from, selects the layout with one directory for all applications.
-/

namespace BundleServer

/-- The values of environment variables. -/
abbrev Environment := String → Option Bytes

/-- The value of a variable, if it counts. -/
def Environment.value? (environment : Environment) (name : String) : Option String := do
  let text ← Utf8.decode? (← environment name)
  let trimmed := Text.trim text
  if trimmed = "" then none else some trimmed

/-- The sibling orders that can be set. -/
inductive OrderSetting where
  | lexicographic
  | filesystem
  deriving DecidableEq, Repr

namespace OrderSetting

/-- All settings of the order. -/
def all : List OrderSetting := [.lexicographic, .filesystem]

/-- The name of an order. -/
def name : OrderSetting → String
  | .lexicographic => "lexicographic"
  | .filesystem => "filesystem"

/-- The order that is set. -/
def order : OrderSetting → SiblingOrder
  | .lexicographic => .lexicographic
  | .filesystem => .filesystem

end OrderSetting

/-- Settings given as flags. -/
structure Flags where
  bind? : Option String := none
  appsPath? : Option Path := none
  dataPath? : Option Path := none
  staticPath? : Option Path := none
  order? : Option OrderSetting := none
  deriving DecidableEq, Repr

/-- The effective settings. -/
structure Settings where
  bind : String
  layout : Layout
  staticPath : Path
  order : OrderSetting
  deriving DecidableEq, Repr

/-- Why there are no settings. -/
inductive SettingsError where
  | blankBind
  deriving DecidableEq, Repr

/-- The error as people see it. -/
def SettingsError.message : SettingsError → String
  | .blankBind => "bind address must be non-empty"

namespace Settings

/-- Where to listen, unless set. -/
def defaultBind : String := "0.0.0.0:8080"

/-- The directory of the applications, unless set. -/
def defaultApps : Path := .ofString "./apps"

/-- The directory of the static files, unless set. -/
def defaultStatic : Path := .ofString "./static"

/-- A flag, else the variable of that name as a path. -/
def path? (flag? : Option Path) (environment : Environment) (name : String) : Option Path :=
  flag? <|> (environment.value? name).map Path.ofString

/-- Where fragments are kept. -/
def layoutOf (flags : Flags) (environment : Environment) : Layout :=
  match path? flags.dataPath? environment "APPHUB_DATA_PATH" with
  | some data => .single data
  | none => .multi ((path? flags.appsPath? environment "APPHUB_APPS_PATH").getD defaultApps)

/-- The effective settings. -/
def ofFlags (flags : Flags) (environment : Environment) : Except SettingsError Settings :=
  let bind := (flags.bind? <|> environment.value? "APPHUB_BIND").getD defaultBind
  if Text.trim bind = "" then .error .blankBind
  else .ok {
    bind
    layout := layoutOf flags environment
    staticPath := (path? flags.staticPath? environment "APPHUB_STATIC_PATH").getD defaultStatic
    order := flags.order?.getD .lexicographic }

/-- The settings as pairs of a flag and its value. -/
def describe (settings : Settings) : List (String × String) :=
  [("bind", settings.bind),
   match settings.layout with
   | .multi apps => ("apps-path", apps.display)
   | .single data => ("data-path", data.display),
   ("static-path", settings.staticPath.display),
   ("walk-order", settings.order.name)]

end Settings

end BundleServer
