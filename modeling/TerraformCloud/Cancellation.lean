/-
  TerraformCloud/Cancellation.lean
  ================================
  **A cancellation token, step by step.**

  Any number of callers wait for one token and any number of callers cancel it, and
  their steps mix in any order.  Cancelling takes two steps: set the flag, then wake all
  who have registered.  A waiter registers first and looks at the flag afterwards, so
  that a flag set in between cannot be missed; it parks only when the flag was down, and
  starts over when it is woken.
-/

namespace TerraformCloud.Cancellation

/-- Where a waiter stands. -/
inductive Waiter where
  /-- About to register. -/
  | starting
  /-- Registered and about to look at the flag; perhaps woken since it registered. -/
  | registered (woken : Bool)
  /-- Waiting to be woken since it registered. -/
  | parked (woken : Bool)
  /-- Told that the token is cancelled. -/
  | returned
deriving DecidableEq, Repr

/-- Where a canceller stands. -/
inductive Canceller where
  | idle
  /-- The flag is set, nobody is woken yet. -/
  | flagged
  | finished
deriving DecidableEq, Repr

/-- A token with everyone who uses it. -/
structure Token where
  flag : Bool
  waiters : List Waiter
  cancellers : List Canceller
deriving DecidableEq, Repr

namespace Waiter

/-- The next step of a waiter, if it can take one. -/
def step? (flag : Bool) : Waiter → Option Waiter
  | starting => some (registered false)
  | registered woken => some (if flag then returned else parked woken)
  | parked true => some starting
  | parked false => none
  | returned => none

/-- What waking everyone does to a waiter: those who registered will see it. -/
def wake : Waiter → Waiter
  | registered _ => registered true
  | parked _ => parked true
  | w => w

end Waiter

namespace Token

/-- A token that nobody has cancelled or begun to wait for. -/
def fresh (waiters cancellers : Nat) : Token :=
  ⟨false, List.replicate waiters .starting, List.replicate cancellers .idle⟩

/-- One step of anyone. -/
inductive Step : Token → Token → Prop where
  | waiter (t : Token) (i : Nat) (w w' : Waiter) (at_i : t.waiters[i]? = some w)
      (step : w.step? t.flag = some w') : Step t { t with waiters := t.waiters.set i w' }
  | raise (t : Token) (i : Nat) (at_i : t.cancellers[i]? = some .idle) :
      Step t { t with flag := true, cancellers := t.cancellers.set i .flagged }
  | wake (t : Token) (i : Nat) (at_i : t.cancellers[i]? = some .flagged) :
      Step t { t with waiters := t.waiters.map Waiter.wake, cancellers := t.cancellers.set i .finished }

/-- The states that any number of steps lead to. -/
inductive Reachable (waiters cancellers : Nat) : Token → Prop where
  | start : Reachable waiters cancellers (fresh waiters cancellers)
  | step {t t' : Token} (before : Reachable waiters cancellers t) (next : Step t t') :
      Reachable waiters cancellers t'

/-- Whether a caller sees the token cancelled. -/
def isCancelled (t : Token) : Bool := t.flag

end Token
end TerraformCloud.Cancellation
