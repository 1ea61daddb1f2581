/-
  TerraformCloud/Config.lean
  ==========================
  **What a client has to be told.**
-/
import TerraformCloud.Error
import TerraformCloud.Retry
import TerraformCloud.Text.Shown

namespace TerraformCloud

structure Config where
  /-- Scheme and host of the service. -/
  address : String
  /-- Where the service's documents live below the address. -/
  basePath : String
  /-- Where the module registry lives below the address. -/
  registryBasePath : String
  /-- The secret that identifies the caller. -/
  token : String
  /-- Headers of every request. -/
  headers : Http.Headers
  retry : RetryPolicy
deriving Repr

namespace Config

/-- The public service, without a token. -/
def standard : Config :=
  { address := "https://app.terraform.io", basePath := "/api/v2/",
    registryBasePath := "/api/registry/", token := "", headers := .empty, retry := .standard }

/-- Adds a header to every request. -/
def withHeader (c : Config) (name value : String) : Except ApiError Config :=
  match Http.setHeader c.headers name value with
  | .ok headers => .ok { c with headers }
  | .error e => .error (.invalidHeader e)

/-- An environment: what each variable is set to. -/
abbrev Environment := String → Option String

/-- The value of a variable that is set to something. -/
def setting (env : Environment) (name : String) : Option String := (env name).filter (fun s => !s.isEmpty)

/-- The configuration that the environment describes; the token has to be set. -/
def ofEnvironment (env : Environment) : Except ApiError Config :=
  match env "TFE_TOKEN" with
  | none => .error (.configMissing (.environment "TFE_TOKEN"))
  | some token =>
    .ok { standard with
      token
      address := (setting env "TFE_ADDRESS").getD standard.address
      basePath := (setting env "TFE_BASE_PATH").getD standard.basePath }

def summary (c : Config) : String :=
  shownPart "Config"
    [("address", shownText c.address), ("base_path", shownText c.basePath),
     ("registry_base_path", shownText c.registryBasePath),
     ("retry_server_errors", shownFlag c.retry.retryServerErrors),
     ("retry_max", toString c.retry.maxRetries)]

end Config
end TerraformCloud
