import TerraformCloud.Cancellation
import TerraformCloud.CommandLine.Program
import TerraformCloud.Json.Access
import TerraformCloud.LogReader
import TerraformCloud.Main
import TerraformCloud.Rehearsal.Log
import TerraformCloud.Text.Hex
import TerraformCloud.Walk.Listing
import TerraformCloud.Proofs.Log.Framed
import TerraformCloud.Proofs.Sending.Retries
import TerraformCloud.Proofs.Sending.Cancelled
import TerraformCloud.Proofs.Url.Identifier
import TerraformCloud.Proofs.Service.Routes
import TerraformCloud.Proofs.Url.Join
import TerraformCloud.Proofs.Service.Addresses
import TerraformCloud.Proofs.Log.Pieces
import TerraformCloud.Proofs.Log.Growing
import TerraformCloud.Proofs.Log.Resumed
import TerraformCloud.Proofs.Sending.Anonymous
import TerraformCloud.Proofs.Query.Canonical
import TerraformCloud.Proofs.JsonApi.RoundTrip
import TerraformCloud.Proofs.Simulator.Locks
import TerraformCloud.Proofs.Simulator.Strangers
import TerraformCloud.Proofs.Simulator.Calls
import TerraformCloud.Proofs.Simulator.Incoming
import TerraformCloud.Proofs.Simulator.ReadBack
import TerraformCloud.Proofs.Walk.Simulated
import TerraformCloud.Proofs.Simulator.Sound
import TerraformCloud.Proofs.Simulator.Atomic
import TerraformCloud.Proofs.Walk.Fetches
import TerraformCloud.Proofs.Service.Refusals
import TerraformCloud.Proofs.Service.Renaming
import TerraformCloud.Proofs.Sending.Backoff
import TerraformCloud.Proofs.Sending.Failures
import TerraformCloud.Proofs.Log.Persistent
import TerraformCloud.Proofs.Query.Additions
import TerraformCloud.Proofs.Sending.Wakeups
import TerraformCloud.Proofs.Simulator.Seeded
import TerraformCloud.Proofs.JsonApi.Grown
import TerraformCloud.Proofs.CommandLine.AllOrNothing
import TerraformCloud.Proofs.Simulator.Names
import TerraformCloud.Proofs.Simulator.Lookups
import TerraformCloud.Proofs.Simulator.Paging
import TerraformCloud.Proofs.Log.Pacing
import TerraformCloud.Proofs.Log.HeldBack
