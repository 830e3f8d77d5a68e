import DecisionFlow.Service.Basic
import DecisionFlow.Service.Launch
import DecisionFlow.Text.Lines

/-!
# The command line

The program reads its settings from the environment and announces itself. Each line of its input is
the body of a request to execute a tree; the events of the run and the response, status first, go to
the output and the log to the error stream.
-/

namespace DecisionFlow

/-- The texts of the process environment. -/
def readEnvironment : IO Environment := do
  return ⟨← IO.getEnv "PORT", ← IO.getEnv "HOST", ← IO.getEnv "LOG_REQUESTS"⟩

/-- Answers the bodies on the input, one a line, until it ends. -/
partial def serve (settings : Settings) (input : IO.FS.Stream) : IO Unit := do
  let line ← input.getLine
  unless line.isEmpty do
    let body := line.dropEndWhile (· = '\n') |>.toString
    let exchange := Exchange.ofRequest .standard Depth.standard settings.logRequests
      (Action.execute Depth.standard .plain) ⟨"POST", "/execute", some body⟩
    for entry in exchange.log do IO.eprintln entry.text
    for event in exchange.trail do IO.println event.line
    IO.println (exchange.response.status.repr ++ " " ++ exchange.response.content.render)
    serve settings input

end DecisionFlow

/-- The program. -/
def main : IO Unit := do
  let env ← DecisionFlow.readEnvironment
  for notice in env.notices do IO.eprintln notice.message
  for line in (DecisionFlow.Launch.ofSettings env.settings).announcement do IO.eprintln line
  DecisionFlow.serve env.settings (← IO.getStdin)
