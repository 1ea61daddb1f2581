/-
  TerraformCloud/Main.lean
  ========================
  **The command-line program as an executable.**

  No network is attached here: the program runs with its peer absent, so whatever needs
  an answer ends as a lost connection.  Its arguments and its environment are those of
  the process.
-/
import TerraformCloud.CommandLine.Program
import TerraformCloud.Rehearsal

open TerraformCloud

/-- The environment variables that the program looks at. -/
def settingNames : List String := ["TFE_TOKEN", "TFE_ADDRESS", "TFE_BASE_PATH", "TFE_ORGANIZATION"]

/-- Runs the program and gives its exit code. -/
def main (words : List String) : IO UInt32 := do
  let settings ← settingNames.mapM fun name => do return (name, ← IO.getEnv name)
  let env (name : String) : Option String := (settings.lookup name).join
  let rehearsal : Rehearsal Unit := ⟨.absent, false, none⟩
  let (ending, _) := CommandLine.program rehearsal.link env words (.start ())
  IO.print ending.output
  IO.eprint ending.complaint
  return UInt32.ofNat ending.exitCode
