/-
  TerraformCloud/Rehearsal/Log.lean
  =================================
  **A log with an owner, both by a script.**

  The log answers polls line by line, and its owner answers, line by line as well,
  whether more can come.  An owner at the end of its script writes no more.
-/
import TerraformCloud.Rehearsal

namespace TerraformCloud

/-- What the owner of a log answers when asked whether it is done. -/
inductive OwnerReply where
  | answered (done : Bool)
  /-- There is no log any more. -/
  | unavailable
  /-- Not done, and the caller cancels some nanoseconds later. -/
  | cancelAfter (nanos : Nat)
deriving DecidableEq, Repr

/-- A scripted log: the answers still to come, and how often the owner was asked. -/
structure ScriptedLog where
  polls : List PeerReply
  owner : List OwnerReply
  asked : Nat := 0
deriving Repr

namespace ScriptedLog

/-- The log as a peer. -/
def peer : Peer ScriptedLog := fun req log =>
  let (reply, polls) := Peer.scripted req log.polls
  (reply, { log with polls })

/-- Asks the owner. -/
def ask (w : World ScriptedLog) : Result (World ScriptedLog) Bool :=
  let asked := { w with peer := { w.peer with owner := w.peer.owner.drop 1, asked := w.peer.asked + 1 } }
  match w.peer.owner.head? with
  | none => (.ok true, asked)
  | some (.answered done) => (.ok done, asked)
  | some .unavailable => (.error .logUrlUnavailable, asked)
  | some (.cancelAfter nanos) => (.ok false, asked.cancelAfter nanos)

end ScriptedLog
end TerraformCloud
