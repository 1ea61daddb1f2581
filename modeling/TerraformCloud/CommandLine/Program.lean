/-
  TerraformCloud/CommandLine/Program.lean
  =======================================
  **The command-line program.**

  The program reads its command line, then its environment, then asks the service who
  it is, and only then does what it was asked for.  What it prints is complete or
  missing: a result is written when all of it is there.
-/
import TerraformCloud.CommandLine.Invocation
import TerraformCloud.Walk.Listing

namespace TerraformCloud.CommandLine

structure Ending where
  exitCode : Nat
  output : String
  complaint : String
deriving DecidableEq, Repr

namespace Ending

/-- The result, and nothing else. -/
def success (text : String) : Ending := ⟨0, text ++ "\n", ""⟩

/-- A crash; the place in the program where it occurred is left out. -/
def crash (e : ApiError) : Ending := ⟨101, "", "thread 'main' panicked:\n" ++ e.message ++ "\n"⟩

/-- No result, but a reason, and perhaps more lines around it. -/
def failure (before : List String) (e : ApiError) (after : List String) : Ending :=
  if e.isCrash then crash e
  else ⟨1, "", String.join ((before ++ ("Error: " ++ e.message) :: after).map (· ++ "\n"))⟩

end Ending

/-! ### Results as text -/

variable {σ : Type}

def showOne (json : Bool) (e : Entity) (r : e.Resource) : String :=
  if json then (TerraformCloud.Resource.write r).indented else e.summary r

def showList (e : Entity) (rs : List e.Resource) : String :=
  Json.Value.indented (.array (rs.map TerraformCloud.Resource.write))

/-- Resources in a table, with a remark below it. -/
def showTable (e : Entity) (rs : List e.Resource) (remark : String) : String :=
  (e.table rs).text ++ "\n\n" ++ remark

/-- One page of resources. -/
def showPage (json : Bool) (e : Entity) (p : Page e.Resource Pagination) : String :=
  if json then showList e p.items else showTable e p.items (Page.footer p.pagination)

def showAll (json : Bool) (e : Entity) (rs : List e.Resource) : String :=
  if json then showList e rs else showTable e rs (toString rs.length ++ " total items")

/-! ### Commands -/

/-- The value of an option that an entity needs. -/
def needed (option : String) (value : Option String) : Except ApiError String :=
  match value with
  | some v => .ok v
  | none => .error (.configMissing (.option option))

namespace Entity

/-- The operation that reads a resource.  A workspace goes by its name where an
    organization is known, and by its id otherwise; a variable is found in the list of
    its workspace only. -/
def reading (e : Entity) (org : Option String) (id : String) : Except ApiError Operation :=
  match e, org with
  | .organization, _ => .ok (.organizations (.read id))
  | .workspace, some org => .ok (.workspaces (.read org id []))
  | .workspace, none => .ok (.workspaces (.readById id))
  | .run, _ => .ok (.runs (.read id []))
  | .variable_, _ => .error (.rejected .invalidVariableId)

/-- The list of the resources. -/
def listing (e : Entity) (org workspaceId : Option String) (page : PageRequest) :
    Except ApiError Listing :=
  match e with
  | organization => .ok (.organizations { page })
  | workspace => (needed "org" org).map fun org => .workspaces org { page }
  | run => (needed "workspace" workspaceId).map fun id => .runs id { page }
  | variable_ => (needed "workspace" workspaceId).map fun id => .workspaceVariables id page

end Entity

/-- What is said about variables that are asked for one by one. -/
def variableHint : List String :=
  ["Error: Variables are read through their workspace",
   "Hint: Use 'tfeapi list variables --workspace <ws-id>'"]

/-- Remarks that go before the reason why a command failed. -/
def Command.remarks : Command → List String
  | .get .variable_ _ => variableHint
  | _ => []

/-- Does what a command asks for. -/
def Command.perform (link : Link σ) (c : Client) (json : Bool) (organization : Option String)
    (command : Command) (s : σ) : Result σ String :=
  match command with
  | .get e id =>
    match (e.reading organization id).bind fun op => op.request c with
    | .error err => (.error err, s)
    | .ok r =>
      let (found, s) := link.fetch c r (Answer.resource e.kind).read s
      (found.map (showOne json e), s)
  | .list e workspaceId page pageSize all =>
    match e.listing organization workspaceId ⟨page, pageSize⟩ with
    | .error err => (.error err, s)
    | .ok l =>
      if all then
        let (found, s) := l.collect link c e.kind s
        (found.map (showAll json e), s)
      else
        let (found, s) := l.fetch link c e.kind s
        (found.map (showPage json e), s)

/-! ### The program -/

def versionText : String := "tfeapi 0.1.0"

def usageText : String :=
  "\n".intercalate
    ["Usage: tfeapi [--json] [--org ORG] COMMAND", "",
     "Commands:",
     "  get ENTITY ID    one resource, by name or id",
     "  list ENTITY      resources, page by page",
     "                   [--workspace ID] [--page N] [--page-size N] [--all]", "",
     "Entities: organization, workspace, run, variable"]

/-- The end of a run whose command line is not carried out. -/
def UsageStop.ending : UsageStop → Ending
  | .help => .success usageText
  | .version => .success versionText
  | stop => ⟨stop.exitCode, "", "error: " ++ stop.message ++ "\n\n" ++ usageText ++ "\n"⟩

/-- Runs the program.  It asks the service for its version first, and does nothing more
    when that fails. -/
def program (link : Link σ) (env : Config.Environment) (words : List String) (s : σ) : Ending × σ :=
  match Invocation.ofWords (env "TFE_ORGANIZATION") words with
  | .error stop => (stop.ending, s)
  | .ok invocation =>
    match Config.ofEnvironment env with
    | .error e => (.failure [] e ["Hint: Set TFE_TOKEN environment variable"], s)
    | .ok config =>
      match Client.ofConfig config with
      | .error e => (.failure [] e [], s)
      | .ok c =>
        match link.ping c s with
        | (.error e, s) => (.failure [] e [], s)
        | (.ok _, s) =>
          match invocation.command.perform link c invocation.json invocation.organization s with
          | (.error e, s) => (.failure invocation.command.remarks e [], s)
          | (.ok text, s) => (.success text, s)

end TerraformCloud.CommandLine
