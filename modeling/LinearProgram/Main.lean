import LinearProgram.Benchmark
import LinearProgram.CommandLine
import LinearProgram.Service
/-!
# The program

`generate` writes random instances, `bench` the benchmark list with the time each problem took, and
`serve` says how the service would be reached.
-/

namespace LinearProgram

/-- Write random instances to the standard output or to a file. -/
def generate (arguments : List String) : IO UInt32 := do
  match CommandLine.settings arguments with
  | .error .help =>
    IO.print CommandLine.helpText
    return 0
  | .error (.mistake mistake) =>
    IO.eprintln mistake.report
    return 2
  | .ok settings =>
    let entropy ← IO.rand 0 (2 ^ (62 : Nat))
    match settings.instances fun k => entropy + k with
    | .error fault =>
      IO.eprintln fault.message
      return 1
    | .ok (.refused issues) =>
      for issue in issues do IO.eprintln issue.cause.message
      return 1
    | .ok (.accepted instances) =>
      match settings.target with
      | .error fault =>
        IO.eprintln fault.message
        return 1
      | .ok (some path) =>
        IO.FS.writeFile path (CommandLine.payload instances)
        return 0
      | .ok none =>
        IO.println (CommandLine.payload instances)
        return 0

/-- Write the benchmark list, timing every problem. -/
def bench : IO UInt32 := do
  IO.println (",".intercalate (Benchmark.header ++ ["time_ms"]))
  for (name, problem) in Benchmark.cases do
    let start ← IO.monoNanosNow
    let solution := Benchmark.solve problem
    let fields := Benchmark.fields name solution
    let line := ",".intercalate fields
    IO.print line
    let stop ← IO.monoNanosNow
    let micros := (stop - start) / 10000
    IO.println ("," ++ placed 2 micros)
  return 0

/-- Say how the service would be reached. -/
def serve (arguments : List String) : IO UInt32 := do
  let transportSetting ← IO.getEnv "MCP_TRANSPORT"
  let portSetting ← IO.getEnv "PORT"
  match Service.transport arguments transportSetting portSetting with
  | .error fault =>
    IO.eprintln fault.message
    return 1
  | .ok .standard =>
    IO.println (Service.name ++ " on the standard channels")
    return 0
  | .ok (.network port) =>
    IO.println (Service.name ++ " on " ++ Service.host ++ ":" ++ toString port ++ Service.path)
    return 0

end LinearProgram

/-- Run one of the three commands. -/
def main (arguments : List String) : IO UInt32 :=
  match arguments with
  | "generate" :: rest => LinearProgram.generate rest
  | "bench" :: _ => LinearProgram.bench
  | "serve" :: rest => LinearProgram.serve rest
  | _ => do
    IO.eprintln "one of the commands generate, bench and serve is needed"
    return 2
