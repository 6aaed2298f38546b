import BundleServer.CommandLine.Startup

/-!
# The program

Hands the arguments and the environment to `CommandLine.run` and writes what it gives.
-/

namespace BundleServer

/-- The environment variables that a run looks at. -/
def readEnvironment : IO Environment := do
  let names := [CommandLine.logVariable, "APPHUB_BIND", "APPHUB_APPS_PATH", "APPHUB_DATA_PATH", "APPHUB_STATIC_PATH"]
  let values ← names.mapM fun name => do return (name, ← IO.getEnv name)
  return fun name => ((values.find? (·.1 = name)).bind (·.2)).map Utf8.encode

end BundleServer

/-- The entry point. -/
def main (arguments : List String) : IO UInt32 := do
  let outcome :=
    BundleServer.CommandLine.run (arguments.map BundleServer.Utf8.encode) (← BundleServer.readEnvironment)
  IO.print outcome.output
  IO.eprint outcome.errors
  return outcome.exit.toUInt32
