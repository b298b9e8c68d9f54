import SerialDispatch.Simulation.Output

/-!
# The program

Runs a simulation as its command line asks, and prints what comes of it.
-/

open SerialDispatch SerialDispatch.Simulation

def main (arguments : List String) : IO UInt32 := do
  let environment : Environment :=
    ⟨← IO.getEnv "RUST_LOG", ← IO.getEnv "KEYOPS_QUIESCENCE_MS",
      ← IO.getEnv "KEYOPS_COALESCE_PROGRESS"⟩
  let course := Course.ofArguments environment arguments
  match course with
  | .run options filter =>
    (options.report.output filter options.jsonLogs).forM fun line => IO.println line
  | .help => usage.forM fun line => IO.println line
  | .wrong => usage.forM fun line => IO.eprintln line
  | .brokenOff => IO.eprintln "The program breaks off."
  return UInt32.ofNat course.exitStatus
