import BundleServer.CommandLine.Options
import BundleServer.Proofs.Text.Utf8

/-!
# Options with attached values

An argument `--name=value` sets one option and leaves nothing pending, whatever the value is: the name ends at the first
equals sign, and no name holds one. So a command line of such arguments sets its options one after the other, and fails
as the first of them fails (`takeAll_arguments`).
-/

namespace BundleServer.CommandLine

/-- An option and its value as one argument. -/
def argument (name value : String) : Bytes := Utf8.encode ("--" ++ name ++ "=" ++ value)

/-- Sets an option that is not set yet. -/
def give (flags : Flags) (given : Setting × String) : Except Fault Flags :=
  if Flags.has flags given.1 then .error (.repeated given.1.usage)
  else setFlag flags given.1 (Utf8.encode given.2)

namespace Setting

theorem equals_not_mem_name (setting : Setting) :
    ∀ b ∈ Utf8.encode setting.name, decide (b ≠ Reading.equals) = true := by
  have each : (Utf8.encode setting.name).all (· ≠ Reading.equals) = true := by cases setting <;> decide
  exact List.all_eq_true.1 each

theorem find?_name (setting : Setting) :
    all.find? (fun other => Utf8.encode other.name = Utf8.encode setting.name) = some setting := by
  cases setting <;> decide

end Setting

theorem argument_eq (name value : String) : argument name value =
    Reading.hyphen :: Reading.hyphen :: (Utf8.encode name ++ Reading.equals :: Utf8.encode value) := by
  have hyphens : Utf8.encode "--" = [Reading.hyphen, Reading.hyphen] := by decide
  have equals : Utf8.encode "=" = [Reading.equals] := by decide
  simp only [argument, Utf8.encode_append, hyphens, equals, List.append_assoc, List.cons_append, List.nil_append]

namespace Reading

theorem settle_given (options : Options) (given : Setting × String) :
    settle { options, pending? := some (given.1, some (Utf8.encode given.2)) } =
      (give options.flags given).map fun flags => { options with flags } := by
  unfold settle give
  simp only
  split
  · rfl
  · cases setFlag options.flags given.1 (Utf8.encode given.2) <;> rfl

/-- An argument with an attached value sets its option, or fails as the option does. -/
theorem take_argument (options : Options) (given : Setting × String) :
    take { options } (argument given.1.name given.2) =
      ((give options.flags given).mapError Stop.fault).map fun flags => { options := { options with flags } } := by
  have name : (Utf8.encode given.1.name ++ equals :: Utf8.encode given.2).takeWhile (· ≠ equals) =
      Utf8.encode given.1.name := by
    rw [List.takeWhile_append_of_pos given.1.equals_not_mem_name, List.takeWhile_cons_of_neg (by simp),
      List.append_nil]
  have nothing : (settle { options }).mapError Stop.fault = .ok options := rfl
  rw [argument_eq, take]
  simp only [and_self, if_true, name, List.drop_left, List.tail?_cons, takeNamed, given.1.find?_name, nothing,
    bind, Except.bind, settle_given]
  cases give options.flags given <;> rfl

/-- Arguments with attached values set their options one after the other. The first that fails is the one reported. -/
theorem takeAll_arguments (options : Options) (given : List (Setting × String)) :
    takeAll { options } (given.map fun pair => argument pair.1.name pair.2) =
      ((given.foldlM give options.flags).mapError Stop.fault).map fun flags => { options with flags } := by
  induction given generalizing options with
  | nil => rfl
  | cons pair given ih =>
    have named : argument pair.1.name pair.2 ≠ [hyphen, hyphen] := by
      rw [argument_eq]
      simp
    rw [List.map_cons, takeAll.eq_def]
    simp only [if_neg named, take_argument, List.foldlM_cons]
    cases give options.flags pair with
    | error fault => rfl
    | ok flags => exact ih { options with flags }

end Reading

end BundleServer.CommandLine
