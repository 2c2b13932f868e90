import Std.Time.DateTime.Timestamp
import BridgeAudit.Auditor.Recording
import BridgeAudit.CommandLine.Audit

/-!
The command line. The replies of the auditor come as a recording from the standard input; the report
goes to the standard output, the log and what went wrong to the standard error.
-/

namespace BridgeAudit

namespace CommandLine

/-- The values of all environment variables that matter. -/
def environment : IO (List (String × String)) := do
  let found ← (Parameter.all.filterMap Parameter.environmentName).mapM fun name => do
    let value ← IO.getEnv name
    return value.map fun v => (name, v)
  return found.filterMap id

/-- The instant at the moment. -/
def now : IO Instant := do
  let t ← Std.Time.Timestamp.now
  let nanos := t.toNanosecondsSinceUnixEpoch.val
  return ⟨nanos / 1000000000, (nanos % 1000000000).toNat⟩

/-- Reports a wrong command line. -/
def refuse (e : ArgumentError) : IO UInt32 := do
  IO.eprintln ("error: " ++ e.message)
  return 2

/-- Runs an audit. -/
def audit (o : Options) : IO UInt32 := do
  let recording := Json.parse (← (← IO.getStdin).readToEnd)
  let answer (r : Request) : IO Reply := return Recording.reply recording r
  let note (l : LogLine) : IO Unit := do
    if o.shows l then IO.eprintln l.text
  let outcome ← (o.audit (← now)).run answer note
  for text in outcome.written do
    IO.println text
  match outcome.failure with
  | none => return 0
  | some f =>
      for line in f.report do
        IO.eprintln line
      return 1

/-- Does what a command line asks for. -/
def run (arguments : List String) : IO UInt32 := do
  match Invocation.read arguments with
  | .error e => refuse e
  | .ok .help =>
      for line in Options.helpText do
        IO.println line
      return 0
  | .ok .version =>
      IO.println Options.versionText
      return 0
  | .ok (.audit taken) =>
      let values ← environment
      match taken.complete (fun name => values.lookup name) Parameter.all with
      | .error e => refuse e
      | .ok o => audit o

end CommandLine

end BridgeAudit

/-- The program. -/
def main (arguments : List String) : IO UInt32 := BridgeAudit.CommandLine.run arguments
