import ClientRecords.Executor
import ClientRecords.Http.MediaType
import ClientRecords.Http.Target
/-!
The service that lets others carry out statements on a database: a function from requests to
responses. Requests that do not fit are answered by a status alone and change nothing. A query that
breaks off takes its request with it: there is no response, and the service goes on.
-/

namespace ClientRecords

structure Request where
  method : String
  target : String
  mediaType : Option String
  body : String

/-- A response; only a successful one has a body. -/
structure Response where
  status : Nat
  body : Option String
  deriving DecidableEq

/-- A statement that is to be carried out. -/
structure Command where
  text : String
  params : List Value
  deriving DecidableEq

namespace Command

/-- The members of an object that a command is made of. -/
def isMember (name : String) : Bool := name == "sql" || name == "params"

/-- The text and the parameters among the members of an object, each of which may be given once. -/
def ofMembers? : Option String → Option (List Value) → List (String × Json) → Option Command
  | text, params, [] => text.map fun text => ⟨text, params.getD []⟩
  | text, params, (name, j) :: ms =>
    if name = "sql" then
      match text, j with
      | none, .string s => ofMembers? (some s) params ms
      | _, _ => none
    else if name = "params" then
      match params, j with
      | none, .array items => ofMembers? text (some (items.map Value.ofJson)) ms
      | _, _ => none
    else ofMembers? text params ms

/-- The command of a body: an object, or an array of the text and the parameters. -/
def ofJson? : Json → Option Command
  | .object members => ofMembers? none none members
  | .array [.string text] => some ⟨text, []⟩
  | .array [.string text, .array items] => some ⟨text, items.map Value.ofJson⟩
  | _ => none

/-- The values in a body are settled, but its own members may not be repeated. -/
def settle : Json → Json
  | .object members => .object (Json.settleMembers members)
  | j => j.settle

/-- The command of the text of a body; members of an object that are no part of it are skipped. -/
def ofText? (s : String) : Option Command :=
  (Json.ofTextKnown? isMember s).bind fun j => ofJson? (settle j)

end Command

namespace Request

/-- What a request asks for. -/
inductive Route where
  | health
  | execute
  | tables
  | flush
  deriving DecidableEq

namespace Route

/-- The method that a route is asked for with. -/
def method : Route → String
  | .health | .tables => "GET"
  | .execute | .flush => "POST"

end Route

/-- The route of the steps of a path. An empty last step makes no difference, and below the first
step of the health route anything may follow. -/
def routeOf? (steps : List String) : Option Route :=
  if steps.head? = some "health" then some .health
  else match steps with
    | ["api", name] | ["api", name, ""] =>
      if name = "execute" then some .execute
      else if name = "tables" then some .tables
      else if name = "flush" then some .flush
      else none
    | _ => none

/-- May the body be read as JSON? A request that does not name its media type is trusted. -/
def isJson (r : Request) : Bool :=
  match r.mediaType with
  | none => true
  | some s => MediaType.ofText? s = some .json

end Request

namespace Response

/-- A response without a body. -/
def refusal (status : Nat) : Response := ⟨status, none⟩

def ok (body : String) : Response := ⟨200, some body⟩

def envelope (success : Bool) (error data : Json) : Response :=
  ok (Json.object [("success", .bool success), ("error", error), ("data", data)]).compact

/-- Reports what was asked for. -/
def data (j : Json) : Response := envelope true .null j

/-- Reports an error. -/
def error (e : StoreError) : Response := envelope false (.string ("Error: " ++ e.message)) .null

end Response

namespace Database

/-- Carries out a command. A query that breaks off leaves its request without a response. -/
def answerCommand (db : Database) (now : String) (c : Command) : Option Response × Database :=
  match db.execute now c.text c.params with
  | (.ok rows, db) => (some (.data (.array (rows.map Record.toJson))), db)
  | (.error (.refused e), db) => (some (.error e), db)
  | (.error (.brokenOff _), db) => (none, db)

/-- The tables of a document and the numbers of their rows. -/
def tablesJson (d : Document) : Json :=
  .array (d.counts.map fun (name, n) => .object [("name", .string name), ("rows", .int n)])

/-- The response to a request, and the database and the files after it. There is none where the
request is broken off. -/
def serve (db : Database) (now : String) (files : Files) (r : Request) :
    Option Response × Database × Files :=
  match Request.routeOf? (RequestTarget.steps r.target) with
  | none => (some (.refusal 404), db, files)
  | some route =>
    if r.method != route.method then (some (.refusal 405), db, files)
    else match route with
      | .health => (some (.ok "crmql server is running"), db, files)
      | .tables => (some (.data (tablesJson db.document)), db, files)
      | .flush =>
        let (done, db, files) := db.flush files
        (some (if done then .data (.string "flushed") else .error .fileAccess), db, files)
      | .execute =>
        if !r.isJson then (some (.refusal 415), db, files)
        else match Command.ofText? r.body with
          | none => (some (.refusal 400), db, files)
          | some c =>
            let (response, db) := db.answerCommand now c
            (response, db, files)

end Database
end ClientRecords
