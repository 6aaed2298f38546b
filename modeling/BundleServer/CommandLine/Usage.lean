/-!
# Help and version

What the program says about itself.
-/

namespace BundleServer.CommandLine

/-- The name of the program. -/
def program : String := "apphub"

/-- The text that shows the version. -/
def versionText : String := "apphub 0.1.0\n"

/-- The text that explains the options. -/
def helpText : String :=
  "Serves per-app JSON, script, stylesheet and template bundles\n" ++
  "\n" ++
  "Usage: apphub [OPTIONS]\n" ++
  "\n" ++
  "Options:\n" ++
  "      --bind <BIND>                HTTP listen address (overrides APPHUB_BIND)\n" ++
  "      --apps-path <APPS_PATH>      Apps directory, one subdirectory per application" ++
  " (overrides APPHUB_APPS_PATH)\n" ++
  "      --data-path <DATA_PATH>      Serve every app from this single directory instead" ++
  " (overrides APPHUB_DATA_PATH)\n" ++
  "      --static-path <STATIC_PATH>  Path to static web UI content (overrides APPHUB_STATIC_PATH)\n" ++
  "      --walk-order <WALK_ORDER>    Sibling order used when walking fragment trees" ++
  " [default: lexicographic] [possible values: lexicographic, filesystem]\n" ++
  "  -v, --verbose                    Enable verbose logging\n" ++
  "      --quiet                      Quiet mode: log only warnings/errors\n" ++
  "  -h, --help                       Print help\n" ++
  "  -V, --version                    Print version\n"

end BundleServer.CommandLine
