import BundleServer.Proofs.CommandLine.Arguments
import BundleServer.Proofs.Text.Blank

/-!
# Settings given back as flags

What settings describe of themselves are flags again. Given back, they decide every setting alone: the environment is
asked only for a data path, and only if there is one directory for each application (`ofFlags_given`). So the described
flags reproduce the settings, also as arguments of a command line, and nothing is lost in between as long as the paths
are texts. Settings fail for one reason only, a bind flag of white space: a variable that counts is never blank.
-/

namespace BundleServer

namespace Environment

variable {environment : Environment} {name text : String}

/-- Does the variable count as unset? It is missing, or no text, or holds nothing but white space. -/
def Lacks (environment : Environment) (name : String) : Prop :=
  ∀ text, environment name = some (Utf8.encode text) → Text.IsBlank text

theorem value?_eq_some_iff : environment.value? name = some text ↔
    ∃ whole, environment name = some (Utf8.encode whole) ∧ text = Text.trim whole ∧ ¬ Text.IsBlank whole := by
  unfold value?
  simp only [bind, Option.bind_eq_some_iff, Utf8.decode?_eq_some_iff]
  constructor
  · rintro ⟨bytes, held, whole, rfl, trimmed⟩
    split at trimmed
    · cases trimmed
    · rename_i filled
      cases trimmed
      exact ⟨whole, held, rfl, fun blank => filled (Text.trim_eq_empty_iff.2 blank)⟩
  · rintro ⟨whole, held, rfl, filled⟩
    refine ⟨_, held, whole, rfl, ?_⟩
    rw [if_neg fun empty => filled (Text.trim_eq_empty_iff.1 empty)]

theorem not_isBlank_of_value? (set : environment.value? name = some text) : ¬ Text.IsBlank text := by
  obtain ⟨whole, -, rfl, filled⟩ := value?_eq_some_iff.1 set
  exact fun blank => filled (Text.isBlank_of_trim blank)

theorem value?_eq_none_iff : environment.value? name = none ↔ environment.Lacks name := by
  constructor
  · intro unset text held
    by_contra filled
    rw [value?_eq_some_iff.2 ⟨text, held, rfl, filled⟩] at unset
    cases unset
  · intro lacks
    refine Option.eq_none_iff_forall_ne_some.2 fun text set => ?_
    obtain ⟨whole, held, -, filled⟩ := value?_eq_some_iff.1 set
    exact filled (lacks whole held)

end Environment

/-- Is the path a text? -/
def Path.IsText (path : Path) : Prop := ∃ text, path = .ofString text

theorem Path.ofString_display {path : Path} (text : path.IsText) : .ofString path.display = path := by
  obtain ⟨own, rfl⟩ := text
  have shown : (ofString own).display = own := Utf8.lossy_encode own
  rw [shown]

/-- The path by which a layout is set. -/
def Layout.path : Layout → Path
  | .multi apps => apps
  | .single data => data

/-- The flags with one more. -/
def Flags.set? (flags : Flags) : CommandLine.Setting × String → Option Flags
  | (.bind, value) => some { flags with bind? := some value }
  | (.appsPath, value) => some { flags with appsPath? := some (.ofString value) }
  | (.dataPath, value) => some { flags with dataPath? := some (.ofString value) }
  | (.staticPath, value) => some { flags with staticPath? := some (.ofString value) }
  | (.walkOrder, value) =>
    (OrderSetting.all.find? (·.name = value)).map fun order => { flags with order? := some order }

/-- The flags with one more, which is given by its name. -/
def Flags.give? (flags : Flags) (given : String × String) : Option Flags := do
  let setting ← CommandLine.Setting.all.find? (·.name = given.1)
  flags.set? (setting, given.2)

/-- The flags that are given by their names and values. -/
def Flags.ofPairs? (pairs : List (String × String)) : Option Flags := pairs.foldlM give? {}

theorem Flags.give?_name (flags : Flags) (setting : CommandLine.Setting) (value : String) :
    flags.give? (setting.name, value) = flags.set? (setting, value) := by
  have named : CommandLine.Setting.all.find? (·.name = setting.name) = some setting := by cases setting <;> decide
  simp only [give?, named, bind, Option.bind_some]

namespace Settings

variable {settings : Settings} {flags : Flags} {environment : Environment}

/-- The settings as flags. -/
def given (settings : Settings) : Flags where
  bind? := some settings.bind
  appsPath? := match settings.layout with
    | .multi apps => some apps
    | .single _ => none
  dataPath? := match settings.layout with
    | .multi _ => none
    | .single data => some data
  staticPath? := some settings.staticPath
  order? := some settings.order

/-- The options that are described, with their values. -/
def options (settings : Settings) : List (CommandLine.Setting × String) :=
  [(.bind, settings.bind),
   match settings.layout with
   | .multi apps => (.appsPath, apps.display)
   | .single data => (.dataPath, data.display),
   (.staticPath, settings.staticPath.display),
   (.walkOrder, settings.order.name)]

theorem describe_eq (settings : Settings) :
    settings.describe = settings.options.map fun option => (option.1.name, option.2) := by
  unfold describe options
  cases settings.layout <;> rfl

/-- Are the paths texts? -/
structure HasTexts (settings : Settings) : Prop where
  layout : settings.layout.path.IsText
  static : settings.staticPath.IsText

/-- Is no path empty? -/
structure HasPaths (settings : Settings) : Prop where
  layout : settings.layout.path.bytes ≠ []
  static : settings.staticPath.bytes ≠ []

/-- What is described is read as the settings. -/
theorem ofPairs?_describe (texts : settings.HasTexts) : Flags.ofPairs? settings.describe = some settings.given := by
  have order : OrderSetting.all.find? (·.name = settings.order.name) = some settings.order := by
    cases settings.order <;> decide
  have static := Path.ofString_display texts.static
  have located := Path.ofString_display texts.layout
  rw [Flags.ofPairs?, describe_eq, List.foldlM_map]
  simp only [Flags.give?_name]
  unfold options given
  cases layout : settings.layout with
  | multi apps =>
    rw [layout] at located
    simp [Flags.set?, order, static, show Path.ofString apps.display = apps from located]
  | single data =>
    rw [layout] at located
    simp [Flags.set?, order, static, show Path.ofString data.display = data from located]

/-- The same as arguments of a command line. There a path must not be empty. -/
theorem parse_describe (texts : settings.HasTexts) (paths : settings.HasPaths) :
    CommandLine.Options.parse (settings.describe.map fun pair => CommandLine.argument pair.1 pair.2) =
      .ok { flags := settings.given } := by
  have order : CommandLine.readOrder (Utf8.encode settings.order.name) = .ok settings.order := by
    cases settings.order <;> decide
  have read {path : Path} (text : path.IsText) (filled : path.bytes ≠ []) (setting : CommandLine.Setting) :
      CommandLine.readPath setting (Utf8.encode path.display) = .ok path := by
    have written : Path.mk (Utf8.encode path.display) = path := Path.ofString_display text
    have nonempty : Utf8.encode path.display ≠ [] := fun empty => filled (written ▸ empty)
    rw [CommandLine.readPath, if_neg nonempty, written]
  have static := read texts.static paths.static .staticPath
  have located := read texts.layout paths.layout
  rw [CommandLine.Options.parse, describe_eq, List.map_map]
  refine (CommandLine.Reading.takeAll_arguments {} settings.options).trans ?_
  unfold options given
  cases layout : settings.layout with
  | multi apps =>
    rw [layout] at located
    have appsRead : CommandLine.readPath .appsPath (Utf8.encode apps.display) = .ok apps := located .appsPath
    simp only [List.foldlM_cons, List.foldlM_nil, CommandLine.give, CommandLine.setFlag, Utf8.decode?_encode, order,
      static, appsRead]
    rfl
  | single data =>
    rw [layout] at located
    have dataRead : CommandLine.readPath .dataPath (Utf8.encode data.display) = .ok data := located .dataPath
    simp only [List.foldlM_cons, List.foldlM_nil, CommandLine.give, CommandLine.setFlag, Utf8.decode?_encode, order,
      static, dataRead]
    rfl

/-- Settings given as flags are the settings again. -/
theorem ofFlags_given (filled : ¬ Text.IsBlank settings.bind) {other : Environment}
    (unset : other.Lacks "APPHUB_DATA_PATH" ∨ ∃ data, settings.layout = .single data) :
    ofFlags settings.given other = .ok settings := by
  have layout : layoutOf settings.given other = settings.layout := by
    cases layout : settings.layout with
    | multi apps =>
      have none : other.value? "APPHUB_DATA_PATH" = none := by
        refine Environment.value?_eq_none_iff.2 (unset.resolve_right ?_)
        rintro ⟨data, single⟩
        rw [layout] at single
        cases single
      simp [layoutOf, path?, given, layout, none]
    | single data => simp [layoutOf, path?, given, layout]
  have nonempty : Text.trim settings.bind ≠ "" := fun empty => filled (Text.trim_eq_empty_iff.1 empty)
  unfold ofFlags
  rw [layout]
  simp [given, path?, nonempty]

theorem not_isBlank_bind (set : ofFlags flags environment = .ok settings) : ¬ Text.IsBlank settings.bind := by
  unfold ofFlags at set
  simp only at set
  split at set
  · cases set
  · rename_i nonempty
    cases set
    exact fun blank => nonempty (Text.trim_eq_empty_iff.2 blank)

/-- Only a flag can be blank: variables that are blank do not count, and the default is not. -/
theorem exists_error_iff :
    (∃ error, ofFlags flags environment = .error error) ↔ ∃ bind, flags.bind? = some bind ∧ Text.IsBlank bind := by
  unfold ofFlags
  simp only
  split
  · rename_i empty
    have blank := Text.trim_eq_empty_iff.1 empty
    refine iff_of_true ⟨_, rfl⟩ ?_
    cases flag : flags.bind? with
    | some bind =>
      rw [flag] at blank
      exact ⟨bind, rfl, blank⟩
    | none =>
      exfalso
      rw [flag] at blank
      cases held : environment.value? "APPHUB_BIND" with
      | some bind =>
        rw [held] at blank
        exact Environment.not_isBlank_of_value? held blank
      | none =>
        rw [held] at blank
        exact absurd (Text.trim_eq_empty_iff.2 blank) (by decide)
  · rename_i nonempty
    refine iff_of_false ?_ ?_
    · rintro ⟨error, set⟩
      cases set
    · rintro ⟨bind, flag, blank⟩
      rw [flag] at nonempty
      exact nonempty (Text.trim_eq_empty_iff.2 blank)

/-- There are settings unless the bind flag is blank, whatever the environment. Those whose paths are texts are
reproduced by what they describe: its pairs are flags, also on a command line if no path is empty, and with these flags
any other environment gives the same settings, unless it has a data path and theirs is not one. -/
theorem ofFlags_describe (flags : Flags) (environment : Environment) :
    ((∃ error, ofFlags flags environment = .error error) ↔ ∃ bind, flags.bind? = some bind ∧ Text.IsBlank bind) ∧
      ∀ settings, ofFlags flags environment = .ok settings → settings.HasTexts →
        ∃ given, Flags.ofPairs? settings.describe = some given ∧
          (settings.HasPaths →
            CommandLine.Options.parse (settings.describe.map fun pair => CommandLine.argument pair.1 pair.2) =
              .ok { flags := given }) ∧
          ∀ other : Environment,
            other.Lacks "APPHUB_DATA_PATH" ∨ (∃ data, settings.layout = .single data) →
              ofFlags given other = .ok settings := by
  refine ⟨exists_error_iff, fun settings set texts => ⟨settings.given, ofPairs?_describe texts, ?_, ?_⟩⟩
  · exact parse_describe texts
  · intro other unset
    exact ofFlags_given (not_isBlank_bind set) unset

/-- Variables that are trimmed become flags. Then the bind variable and the static path no longer count, and a data path
that is no text does not count either. -/
theorem ofFlags_describe_of_variables :
    let flags : Flags := { order? := some .filesystem }
    let environment : Environment := fun name =>
      if name = "APPHUB_BIND" then some (Utf8.encode " h:1 ")
      else if name = "APPHUB_APPS_PATH" then some (Utf8.encode "\tapps ")
      else if name = "APPHUB_DATA_PATH" then some (Utf8.encode "  ")
      else none
    let other : Environment := fun name =>
      if name = "APPHUB_BIND" then some (Utf8.encode "g:2")
      else if name = "APPHUB_DATA_PATH" then some [0xFF]
      else if name = "APPHUB_STATIC_PATH" then some (Utf8.encode "public")
      else none
    let settings : Settings :=
      { bind := "h:1", layout := .multi (.ofString "apps"), staticPath := .ofString "./static", order := .filesystem }
    ofFlags flags environment = .ok settings ∧ settings.HasTexts ∧ settings.HasPaths ∧
      other.Lacks "APPHUB_DATA_PATH" ∧
        ∃ given, Flags.ofPairs? settings.describe = some given ∧
          CommandLine.Options.parse (settings.describe.map fun pair => CommandLine.argument pair.1 pair.2) =
            .ok { flags := given } ∧
          ofFlags given other = .ok settings := by
  intro flags environment other settings
  have set : ofFlags flags environment = .ok settings := by decide
  have texts : settings.HasTexts := ⟨⟨"apps", rfl⟩, ⟨"./static", rfl⟩⟩
  have paths : settings.HasPaths := ⟨by decide, by decide⟩
  have unset : other.Lacks "APPHUB_DATA_PATH" := Environment.value?_eq_none_iff.1 (by decide)
  obtain ⟨given, read, parsed, again⟩ := (ofFlags_describe flags environment).2 settings set texts
  exact ⟨set, texts, paths, unset, given, read, parsed paths, again other (.inl unset)⟩

end Settings

end BundleServer
