/-
A bounded one-way queue between a sender and a receiver.

The sender never waits: what does not fit, or is sent after the receiver has left,
is dropped and counted. A receiver that leaves takes the queue with it. A queue
without room drops everything, since no receiver ever waits at it.
-/

namespace SceneEngine

structure Channel (α : Type) where
  capacity : Nat
  /-- Sent and not yet received, oldest first. -/
  queue : List α
  /-- Whether the receiver is still there. -/
  connected : Bool
  /-- Values that never entered the queue. -/
  dropped : Nat
deriving DecidableEq

namespace Channel

variable {α : Type}

def new (capacity : Nat) : Channel α := ⟨capacity, [], true, 0⟩

/-- Queues a value, or drops it and counts it. -/
def send (c : Channel α) (x : α) : Channel α :=
  if c.connected ∧ c.queue.length < c.capacity then { c with queue := c.queue ++ [x] }
  else { c with dropped := c.dropped + 1 }

/-- Takes the oldest value, if there is one. -/
def receive (c : Channel α) : Option α × Channel α :=
  match c.queue with
  | [] => (none, c)
  | x :: rest => (some x, { c with queue := rest })

/-- Takes everything, oldest first. -/
def drain (c : Channel α) : List α × Channel α := (c.queue, { c with queue := [] })

/-- The receiver leaves. -/
def disconnect (c : Channel α) : Channel α := { c with queue := [], connected := false }

end Channel

end SceneEngine
