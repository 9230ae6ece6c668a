import RespGateway.Server.Play
import RespGateway.Settings.CommandLine

/-!
# The program

Reads its settings from the command line and the environment, and serves one client on
standard input and output until the client quits or stops sending. What is not for the
client goes to standard error.
-/

namespace RespGateway.Program

/-- What the program tells of itself. -/
def usage : String :=
  "Usage: flashbridge [--host HOST] [-p|--port PORT] [--command-timeout-ms MS] " ++
    "[--unordered-replies] [--max-buffer BYTES]"

/-- The wording of a command line that yields no settings. -/
def complaint : Settings.Stop → String
  | .unknownArgument => "error: unexpected argument"
  | .invalidValue => "error: a value is missing or not allowed"
  | .valueValidation => "error: a value is not of the right kind"
  | .tooManyValues => "error: an option that takes no value has one"
  | .argumentConflict => "error: an option is given twice"
  | .help => usage
  | .version => "flashbridge 0.1.0"

/-- How the program ends when the command line yields no settings. -/
def exitCode : Settings.Stop → UInt32
  | .help => 0
  | .version => 0
  | _ => 2

/-- Lets something arrive from the only client, and sends what the server has for it. -/
def exchange (output : IO.FS.Stream) (s : Server) (a : Arrival) : IO Server := do
  let now := (s.receive 0 a).elapse 0
  let out := (now.received 0).drop (s.received 0).length
  output.write ⟨out.toArray⟩
  output.flush
  return now

/-- Serves the only client to the end. -/
partial def serve (input output : IO.FS.Stream) (s : Server) : IO Unit := do
  if s.isGone 0 then return
  let chunk ← input.read 4096
  if chunk.isEmpty then
    let _ ← exchange output s .endOfInput
  else
    serve input output (← exchange output s (.bytes chunk.toList))

/-- Runs the program with settings. -/
def run (settings : Settings) : IO UInt32 := do
  match Routes.builtIn with
  | .error clash =>
    (← IO.getStderr).putStrLn clash.message
    return 1
  | .ok routes =>
    (← IO.getStderr).putStrLn ("Serving standard input as " ++ settings.address)
    serve (← IO.getStdin) (← IO.getStdout) ((settings.server routes).accept.elapse 0)
    return 0

end RespGateway.Program

open RespGateway in
/-- Reads the settings and runs the program. -/
def main (arguments : List String) : IO UInt32 := do
  let given ← Settings.Field.all.mapM fun f => do
    return (f.environmentName, ← IO.getEnv f.environmentName)
  match Settings.ofCommandLine arguments fun name => (given.lookup name).join with
  | .ok settings => Program.run settings
  | .error stop =>
    (← IO.getStderr).putStrLn (Program.complaint stop)
    return Program.exitCode stop
