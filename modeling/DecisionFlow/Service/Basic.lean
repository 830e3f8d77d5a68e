import DecisionFlow.Json.Reader
import DecisionFlow.Json.Standard
import DecisionFlow.Service.Execution
import DecisionFlow.Text.Encoding

/-!
# The service

Three routes are known: the greeting, the health check and the execution of a tree. The framework under
the service finds the route of a path, and it refuses a known path with another method, an unknown path
and a body that cannot be read.

* `Request`, `Response` — what comes in and what goes out;
* `Route` — the routes, with their paths and methods;
* `Framework` — what the service leaves to the framework; `Framework.standard` is the usual one;
* `Exchange.ofRequest` — the response to a request, with the events and the log of its run.
-/

namespace DecisionFlow

/-- A request. -/
structure Request where
  /-- The method. -/
  method : String
  /-- The path. -/
  path : String
  /-- The body, if there is one, as the text whose UTF-8 form its bytes are. -/
  body : Option String
deriving DecidableEq, Repr

/-- The routes. -/
inductive Route where
  /-- The greeting. -/
  | greeting
  /-- The health check. -/
  | health
  /-- The execution of a tree. -/
  | execute
deriving DecidableEq, Repr

namespace Route

/-- The path of a route. -/
def path : Route → String
  | greeting => "/"
  | health => "/health"
  | execute => "/execute"

/-- The one method of a route. -/
def method : Route → String
  | greeting => "GET"
  | health => "GET"
  | execute => "POST"

end Route

/-- The body of a response. -/
inductive Content where
  /-- A value, sent as JSON. -/
  | json (v : Value)
  /-- A text. -/
  | text (s : String)
deriving DecidableEq, Repr

/-- The type under which a body is sent. -/
def Content.type : Content → String
  | json _ => "application/json"
  | text _ => "text/plain; charset=utf-8"

/-- The text of a body as it is sent. -/
def Content.render : Content → String
  | json v => Json.render v
  | text s => s

/-- A response. -/
structure Response where
  /-- The status. -/
  status : Nat
  /-- The body. -/
  content : Content
deriving DecidableEq, Repr

namespace Response

/-- A response that gives a reason for its status. -/
def withDetail (status : Nat) (detail : String) : Response :=
  ⟨status, .json (.object [("detail", .string detail)])⟩

/-- The greeting. -/
def greeting : Response :=
  ⟨200, .text
    "Decision Tree Processing Backend API - Use POST /execute to process decision trees"⟩

/-- The health check. -/
def healthy : Response := ⟨200, .json (.object [("status", .string "ok")])⟩

/-- The response for a completed run. The variables are sent as standard JSON. -/
def success (vars : Variables) : Response :=
  ⟨200, .json (.object [
    ("success", .boolean true),
    ("message", .string "Decision tree executed successfully"),
    ("variables", Json.standard (.object vars.toList))])⟩

/-- The response for a verdict. -/
def ofVerdict (verdict : Verdict) : Response :=
  match verdict with
  | .completed vars => success vars
  | verdict => withDetail verdict.status (verdict.detail?.getD "")

end Response

/-- What the service leaves to its framework: to find the route of a path, and to answer the requests that
reach no route or whose body cannot be read. -/
structure Framework where
  /-- The route of a path. -/
  route? : String → Option Route
  /-- The path of a route leads there. -/
  route?_path : ∀ route : Route, route? route.path = some route
  /-- The response for a body that cannot be read. -/
  unreadableBody : Option String → Response
  /-- Such a body is the fault of the request. -/
  status_unreadableBody : ∀ body, (unreadableBody body).status = 400 ∨ (unreadableBody body).status = 422
  /-- The response for a known path with another method. -/
  methodNotAllowed : Response
  /-- The response for an unknown path. -/
  notFound : Response

namespace Framework

/-- The route of a path in the usual framework. A line feed at the end of the path does not count. -/
def routeOf? (path : String) : Option Route :=
  [Route.greeting, .health, .execute].find? fun route => path = route.path || path = route.path ++ "\n"

example : routeOf? "/execute\n" = some .execute ∧ routeOf? "/execute\n\n" = none := by decide +kernel

theorem routeOf?_path (route : Route) : routeOf? route.path = some route := by
  cases route <;> decide +kernel

/-- The usual framework. -/
def standard : Framework where
  route? := routeOf?
  route?_path := routeOf?_path
  unreadableBody _ := .withDetail 400 "There was an error parsing the body"
  status_unreadableBody _ := .inl rfl
  methodNotAllowed := .withDetail 405 "Method Not Allowed"
  notFound := .withDetail 404 "Not Found"

end Framework

/-- A response with what happened on the way to it. -/
structure Exchange where
  /-- The response. -/
  response : Response
  /-- The events of the run, if there was one. -/
  trail : Array Event
  /-- The log in order. -/
  log : List LogEntry

namespace Exchange

/-- A response with nothing on the way to it. -/
def ofResponse (response : Response) : Exchange := ⟨response, #[], []⟩

/-- The response to an execution. -/
def ofExecution (execution : Execution) : Exchange :=
  ⟨.ofVerdict execution.verdict, execution.trail, execution.log⟩

/-- The value of a body; no body stands for null. -/
def payload? (depth : Nat) : Option String → Option Value
  | none => some .null
  | some stored =>
    if stored.isEmpty then some .null
    else (Text.Encoding.decode? stored).bind (Json.readWithin depth)

/-- The exchange for a request to execute the tree of a body. -/
def ofBody (framework : Framework) (depth : Nat) (logRequests : Bool)
    (perform : Action → Variables → Run) (body : Option String) : Exchange :=
  match payload? depth body with
  | some payload => ofExecution (.ofPayload depth logRequests perform payload)
  | none => ofResponse (framework.unreadableBody body)

/-- The exchange for a request. -/
def ofRequest (framework : Framework) (depth : Nat) (logRequests : Bool)
    (perform : Action → Variables → Run) (request : Request) : Exchange :=
  match framework.route? request.path with
  | none => ofResponse framework.notFound
  | some route =>
    if request.method = route.method then
      match route with
      | .greeting => ofResponse .greeting
      | .health => ofResponse .healthy
      | .execute => ofBody framework depth logRequests perform request.body
    else ofResponse framework.methodNotAllowed

end Exchange

end DecisionFlow
