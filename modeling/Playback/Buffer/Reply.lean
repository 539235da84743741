/-!
# Replies to calls that may wait

A call on a queue that cannot be answered yet has to wait. `Reply` says whether a call is answered
in the present state, and how. `Waiting` is a state together with at most one caller that waits:
after each operation on the state the waiting call is tried again, so it is answered by the first
operation that makes an answer possible.
-/

namespace Playback

/-- The reply to a call that may have to wait. -/
inductive Reply (α : Type) where
  | ready (value : α)
  /-- The queue is being shut down. -/
  | aborted
  /-- There is no answer in the present state. -/
  | wait
  deriving DecidableEq, Inhabited

namespace Reply

variable {α β : Type}

/-- Applies a function to the value of a reply. -/
def map (f : α → β) : Reply α → Reply β
  | ready a => ready (f a)
  | aborted => aborted
  | wait => wait

/-- Whether the call is answered. -/
def isAnswer : Reply α → Bool
  | wait => false
  | _ => true

end Reply

/-- A state `σ` and the call of kind `κ` that waits on it, if any. -/
structure Waiting (σ κ : Type) where
  state : σ
  pending : Option κ

/-- What a caller gets at once. -/
inductive Waiting.Outcome (ρ : Type) where
  /-- Another call is waiting; this one was not made. -/
  | busy
  /-- The call waits from now on. -/
  | blocked
  | answered (reply : Reply ρ)

namespace Waiting

variable {σ κ ρ : Type}

/-- Nobody waits. -/
def idle (state : σ) : Waiting σ κ :=
  ⟨state, none⟩

/-- Makes a call. `attempt` gives the state after a try, and the reply. -/
def call (attempt : κ → σ → σ × Reply ρ) (w : Waiting σ κ) (k : κ) :
    Waiting σ κ × Outcome ρ :=
  match w.pending with
  | some _ => (w, .busy)
  | none =>
    let (state, reply) := attempt k w.state
    if reply.isAnswer then (⟨state, none⟩, .answered reply) else (⟨state, some k⟩, .blocked)

/-- Tries the waiting call again. The reply is `wait` if it still waits or there is none. -/
def retry (attempt : κ → σ → σ × Reply ρ) (w : Waiting σ κ) : Waiting σ κ × Reply ρ :=
  match w.pending with
  | none => (w, .wait)
  | some k =>
    let (state, reply) := attempt k w.state
    if reply.isAnswer then (⟨state, none⟩, reply) else (⟨state, some k⟩, .wait)

/-- Applies an operation to the state and then tries the waiting call again. -/
def apply (attempt : κ → σ → σ × Reply ρ) (w : Waiting σ κ) (op : σ → σ) :
    Waiting σ κ × Reply ρ :=
  retry attempt { w with state := op w.state }

end Waiting

end Playback
