import DecisionFlow.Entries
import DecisionFlow.Text.Blank
import DecisionFlow.Text.Quoted
import DecisionFlow.Value.Basic

/-!
# Settings

The server is set up by three texts of its environment, each of which may be missing. White space
around a setting never counts. A port that is no number is replaced and noticed; nothing else can be
wrong.

* `Numeral.read?` — the integers as people write them: a sign, digits of any script, and single
  underscores between digits;
* `Environment`, `Settings` — the texts, and what they come to;
* `InvalidPort` — the notice for a port that is no number;
* `Environment.table` — the settings by name, as a process loads them when it begins.
-/

namespace DecisionFlow

namespace Numeral

/-- The digits of a numeral without its underscores, of which one may stand between two digits. -/
def digits? : List Char → Option (List Char)
  | [] => none
  | [c] => if Text.isDigit c then some [c] else none
  | c :: d :: rest =>
    if Text.isDigit c then
      (if d = '_' then digits? rest else digits? (d :: rest)).map (c :: ·)
    else none

/-- A natural number of at most as many digits as integers may have. -/
def natural? (cs : List Char) : Option Nat :=
  match digits? cs with
  | some digits => if digits.length ≤ maxDigits then some (Text.digitsValue digits) else none
  | none => none

/-- The integer that a text without white space at its ends stands for. -/
def read? (s : String) : Option Int :=
  match s.toList with
  | '-' :: cs => (natural? cs).map fun n : Nat => -(n : Int)
  | '+' :: cs => (natural? cs).map Int.ofNat
  | cs => (natural? cs).map Int.ofNat

example : read? "+1_000" = some 1000 ∧ read? "-07" = some (-7) ∧ read? "1__0" = none := by
  decide +kernel

end Numeral

/-- The texts that the settings are read from. -/
structure Environment where
  /-- The port. -/
  port : Option String
  /-- The host. -/
  host : Option String
  /-- Whether requests are logged. -/
  logRequests : Option String
deriving DecidableEq, Repr

/-- The settings of the server. -/
structure Settings where
  /-- The port to listen on. -/
  port : Int
  /-- The host to listen on. -/
  host : String
  /-- Whether requests are logged. -/
  logRequests : Bool
deriving DecidableEq, Repr

/-- A port that is no number, without the white space around it. -/
structure InvalidPort where
  /-- The text of the setting. -/
  text : String
deriving DecidableEq, Repr

namespace Settings

/-- The settings where the environment says nothing. -/
def standard : Settings where
  port := 3000
  host := "0.0.0.0"
  logRequests := true

/-- The words that switch something on, in any case. -/
def yesWords : List String := ["1", "true", "yes", "on"]

end Settings

/-- The notice for a port that is no number. -/
def InvalidPort.message (e : InvalidPort) : String :=
  "Invalid PORT=" ++ Text.quoted e.text ++ ", falling back to " ++
    Numeral.render Settings.standard.port

namespace Environment

/-- The port that the environment asks for. -/
def port? (env : Environment) : Except InvalidPort Int :=
  match env.port with
  | none => .ok Settings.standard.port
  | some text =>
    match Numeral.read? (Text.trim text) with
    | some n => .ok n
    | none => .error ⟨Text.trim text⟩

/-- The host that the environment asks for; a blank one is none. -/
def hostName (env : Environment) : String :=
  match env.host with
  | none => Settings.standard.host
  | some text => if Text.isBlankText text then Settings.standard.host else Text.trim text

/-- Whether the environment asks for requests to be logged. -/
def logsRequests (env : Environment) : Bool :=
  match env.logRequests with
  | none => Settings.standard.logRequests
  | some text => Settings.yesWords.contains ((Text.trim text).map Char.toLower)

/-- The settings that the environment asks for. -/
def settings (env : Environment) : Settings where
  port := match env.port? with
    | .ok n => n
    | .error _ => Settings.standard.port
  host := env.hostName
  logRequests := env.logsRequests

/-- The notices that reading the settings leaves. -/
def notices (env : Environment) : List InvalidPort :=
  match env.port? with
  | .ok _ => []
  | .error e => [e]

end Environment

/-! ### Settings by name -/

/-- Something read from the environment. -/
structure Reading (α : Type) where
  /-- What is read. -/
  result : α
  /-- The notices that reading it leaves. -/
  notices : List InvalidPort

/-- The port that a text asks for, or the standard one. -/
def Reading.port (text : String) : Reading Int :=
  match Numeral.read? (Text.trim text) with
  | some n => ⟨n, []⟩
  | none => ⟨Settings.standard.port, [⟨Text.trim text⟩]⟩

/-- The settings by name, as a process loads them when it begins. Where the environment says nothing,
the text of the standard setting is read. -/
def Environment.table (env : Environment) : Reading (Entries Value) :=
  let port := Reading.port (env.port.getD (Numeral.render Settings.standard.port))
  let host := Text.trim (env.host.getD Settings.standard.host)
  let logRequests := Text.trim (env.logRequests.getD "true")
  ⟨[("port", .integer port.result),
    ("host", .string (if host.isEmpty then Settings.standard.host else host)),
    ("log_requests", .boolean (Settings.yesWords.contains (logRequests.map Char.toLower)))],
    port.notices⟩

end DecisionFlow
