/-
  TerraformCloud/Simulator/Scenario.lean
  ======================================
  **Example data for a simulated service.**
-/
import TerraformCloud.Simulator.Store

namespace TerraformCloud.Simulator

/-- The start of an hour, counted around the clock. -/
def onTheHour (hour : Nat) (date : Date) : Instant :=
  { date
    minute := ⟨hour % 24 * 60, by unfold minutesPerDay; omega⟩
    second := ⟨0, Nat.zero_lt_succ 60⟩
    nanos := ⟨0, Nat.zero_lt_succ 999999999⟩ }

/-- The organization that every example follows. -/
def exampleOrganization (name : String) : Resource Organization :=
  { id := name
    attributes :=
      { name
        email := some ("admin@" ++ name ++ ".test")
        externalId := none
        createdAt := (Date.of? 2024 1 15).map (onTheHour 9)
        sessionTimeout := some 20160
        sessionRemember := some 20160
        collaboratorAuthPolicy := some "password"
        costEstimationEnabled := some true
        assessmentsEnforced := none
        defaultExecutionMode := some "remote" }
    relationships := .empty }

/-- The relationship of a workspace to its organization. -/
def ownedBy (organization : String) : Relationships :=
  .ofList [(ownerName, .toOne (Attributes.type Organization) organization)]

/-- An unlocked workspace of an organization. -/
def exampleWorkspace (id organization name : String) : Resource Workspace :=
  { id
    attributes :=
      { name
        description := none
        autoApply := false
        allowDestroyPlan := false
        locked := false
        executionMode := some "remote"
        terraformVersion := some "1.7.5"
        workingDirectory := none
        queueAllRuns := false
        speculativeEnabled := true
        resourceCount := 0
        tagNames := []
        createdAt := (Date.of? 2024 2 1).map (onTheHour 12)
        updatedAt := none }
    relationships := ownedBy organization }

/-- The same workspace, locked or not. -/
def setLocked (w : Resource Workspace) (locked : Bool) : Resource Workspace :=
  { w with attributes := { w.attributes with locked } }

def exampleOrganizations : List (Resource Organization) :=
  [exampleOrganization "acme", exampleOrganization "globex"]

/-- Two workspaces of the first one, the second of which is locked. -/
def exampleWorkspaces : List (Resource Workspace) :=
  [exampleWorkspace "ws-prodnet000000001" "acme" "prod-network",
   setLocked (exampleWorkspace "ws-stageapp0000001" "acme" "staging-app") true]

def exampleStore : Store :=
  exampleWorkspaces.foldl Store.withWorkspace (exampleOrganizations.foldl Store.withOrganization .empty)

end TerraformCloud.Simulator
