import DecisionFlow.Settings

/-!
# Launching the server

* `Launch` — under which name, where and how loudly the server runs;
* `Launch.ofSettings` — the launch that settings ask for;
* `Launch.announcement` — what the server says when it is up.
-/

namespace DecisionFlow

/-- The launch of a server. -/
structure Launch where
  /-- The title of the server. -/
  title : String
  /-- The version of the server. -/
  version : String
  /-- The host to listen on. -/
  host : String
  /-- The port to listen on. -/
  port : Int
  /-- The level of the server's own log. -/
  logLevel : String
deriving DecidableEq, Repr

namespace Launch

/-- The launch that the settings ask for. -/
def ofSettings (settings : Settings) : Launch where
  title := "Decision Tree Runtime"
  version := "0.1.0"
  host := settings.host
  port := settings.port
  logLevel := "info"

/-- The lines that the server prints when it is up. -/
def announcement (launch : Launch) : List String :=
  ["Decision tree server v" ++ launch.version ++ " listening on port " ++
      Numeral.render launch.port,
    "All action logs will appear below:",
    ""]

/-- The launches of a process: one where the server is the main program, none where it is only
loaded. -/
def ofProcess (isMain : Bool) (settings : Settings) : List Launch :=
  if isMain then [ofSettings settings] else []

end Launch

end DecisionFlow
