/-
  TerraformCloud/Rehearsal.lean
  =============================
  **Calls in a world that can be looked at.**

  A world has a clock that only waiting moves, a peer that answers requests, a moment
  at which the caller cancels (if ever), and a memory of what went on.  Calls made in
  it take no real time, reach no real network and leave nothing to chance, so what they
  do can be computed and reasoned about.  A peer is a script or a simulated service.
-/
import TerraformCloud.Client.Send
import TerraformCloud.Simulator.Serve

namespace TerraformCloud

/-! ### Peers -/

/-- What a peer does with a request. -/
inductive PeerReply where
  | response (r : Http.Response)
  /-- The peer breaks the connection off without an answer. -/
  | broken
  /-- The peer never answers, and the caller cancels instead. -/
  | silent
  /-- The peer is not there, and does not see the request. -/
  | unreachable
deriving DecidableEq, Repr

/-- How a peer with a state `π` answers. -/
abbrev Peer (π : Type) := Http.Request → π → PeerReply × π

namespace Peer

def absent {π : Type} : Peer π := fun _ p => (.unreachable, p)

/-- What a script answers when it has come to its end. -/
def teapot : Http.Response := ⟨418, [], some []⟩

/-- A peer that answers by a script, one line for each request. -/
def scripted : Peer (List PeerReply)
  | _, [] => (.response teapot, [])
  | _, reply :: rest => (reply, rest)

/-- A simulated service, at a time of day. -/
def simulated (now : Instant) : Peer Simulator.Store := fun req s =>
  let (s, r) := Simulator.handle now req s
  (.response r, s)

end Peer

/-! ### Under way -/

/-- The length of a URL, in bytes. -/
def Url.size (u : Url) : Nat := (Utf8.encode u.text).length

/-- The length of the longest URL that a request is sent to. -/
def longestUrl : Nat := 65534

/-- Whether a request can be delivered at all: only over HTTP, and only where its URL is
    not too long. -/
def Http.Request.isDeliverable (r : Http.Request) : Bool :=
  (r.url.scheme = "http" || r.url.scheme = "https") && r.url.size ≤ longestUrl

/-- Blanks around the value of a header do not travel. -/
def isHeaderBlank (c : Char) : Bool := c = ' ' || c = '\t'

/-- The value of a header without the blanks around it. -/
def arrivedValue (value : String) : String :=
  String.ofList (((value.toList.dropWhile isHeaderBlank).reverse.dropWhile isHeaderBlank).reverse)

/-- The headers of a request, as a peer sees them. -/
def arrivedHeaders (headers : Http.Headers) : Http.Headers :=
  .ofList (headers.entries.map fun (name, value) => (name, arrivedValue value))

/-- A request, as a peer sees it. -/
def arrivedRequest (r : Http.Request) : Http.Request := { r with headers := arrivedHeaders r.headers }

/-- Whether responses with a status come without a body. -/
def isBodiless (s : Http.Status) : Bool := s = 204 || s = 304

/-- A response, as a client sees it. -/
def arrivedResponse (r : Http.Response) : Http.Response :=
  { r with
    fields := r.fields.map fun (name, value) => (name, arrivedValue value)
    body := if isBodiless r.status then some [] else r.body }

/-! ### Worlds -/

/-- A world with a peer whose state is a `π`.  Moments are nanoseconds on its clock. -/
structure World (π : Type) where
  now : Nat
  /-- When the caller cancels. -/
  cancelAt : Option Nat
  peer : π
  /-- The requests that the peer has seen, and when. -/
  requests : List (Nat × Http.Request)
  /-- The retries that an observer was told of. -/
  retries : List RetryEvent
deriving Repr

namespace World

variable {π : Type}

def start (peer : π) : World π :=
  { now := 0, cancelAt := none, peer, requests := [], retries := [] }

/-- The same world with nothing behind it: its clock starts again. -/
def restart (w : World π) : World π :=
  { w with now := 0, cancelAt := w.cancelAt.map (· - w.now), requests := [], retries := [] }

def isCancelled (w : World π) : Bool := w.cancelAt.any (· ≤ w.now)

/-- The caller cancels some time from now, unless that happens earlier anyway. -/
def cancelAfter (w : World π) (nanos : Nat) : World π :=
  { w with cancelAt := some ((w.cancelAt.getD (w.now + nanos)).min (w.now + nanos)) }

/-- Waits; a wait that the caller may interrupt ends when the caller cancels, and says
    whether it did. -/
def wait (interruptible : Bool) (d : Duration) (w : World π) : Bool × World π :=
  match w.cancelAt with
  | some moment =>
    if interruptible && moment ≤ w.now + d.nanos then (true, { w with now := max w.now moment })
    else (false, { w with now := w.now + d.nanos })
  | none => (false, { w with now := w.now + d.nanos })

/-- Sends a request to the peer.  One that cannot be delivered is lost on the way. -/
def attempt (answer : Peer π) (interruptible : Bool) (r : Http.Request) (w : World π) :
    Reply × World π :=
  if !r.isDeliverable then (.lost, w)
  else
    let r := arrivedRequest r
    let (reply, peer) := answer r w.peer
    let seen := { w with peer, requests := w.requests ++ [(w.now, r)] }
    match reply with
    | .unreachable => (.lost, w)
    | .response r => (.response (arrivedResponse r), seen)
    | .broken => (.lost, seen)
    | .silent => (if interruptible then .interrupted else .lost, seen.cancelAfter 0)

end World

/-! ### Links -/

/-- How calls are rehearsed. -/
structure Rehearsal (π : Type) where
  peer : Peer π
  /-- Whether calls end when the caller cancels. -/
  interruptible : Bool
  /-- What an observer of retries does, if there is one. -/
  observer : Option (RetryEvent → World π → World π)

namespace Rehearsal

variable {π : Type}

def remember (e : RetryEvent) (w : World π) : World π := { w with retries := w.retries ++ [e] }

/-- The world of a rehearsal as a client sees it.  Any number of requests may be sent
    at once, and no wait is longer than it has to be. -/
def link (r : Rehearsal π) : Link (World π) :=
  { cancelled := fun w => r.interruptible && w.isCancelled
    slot := fun w => (false, w)
    attempt := World.attempt r.peer r.interruptible
    jitter := fun _ w => (.zero, w)
    observe := fun e w =>
      match r.observer with
      | none => w
      | some f => f e (remember e w)
    wait := World.wait r.interruptible }

end Rehearsal
end TerraformCloud
