import StubDecl.Text.Basic

/-!
# Debouncing

Reported paths are collected until there has been no report for a while, and are then handed over in
one batch. A report arms a timer anew. When the timer fires, a delivery is on its way that can no
longer be called off: it takes everything that is pending and hands it over, unless the watcher has
been canceled by then. Reports may come while deliveries are on their way.
-/

namespace StubDecl

/-- Pending paths, the timer, deliveries that have not taken a batch yet, and batches that have been
taken and not handed over. -/
structure Debouncer where
  pending : List Text := []
  armed : Bool := false
  started : Nat := 0
  taken : List (List Text) := []
  canceled : Bool := false
  deriving DecidableEq, Repr

namespace Debouncer

/-- What can happen. -/
inductive Event where
  /-- A path is reported. -/
  | schedule (path : Text)
  /-- The timer fires. -/
  | fire
  /-- A delivery takes all pending paths. -/
  | take
  /-- The batch with an index is handed over, or dropped after cancellation. -/
  | deliver (index : Nat)
  /-- The watcher is canceled. -/
  | cancel
  /-- A canceled watcher stops its timer. -/
  | stop
  deriving DecidableEq, Repr

/-- The paths with one more, unless it is among them. -/
def insert (paths : List Text) (p : Text) : List Text :=
  if paths.contains p then paths else paths ++ [p]

/-- The state after an event, if the event can happen. -/
def step? (d : Debouncer) : Event → Option Debouncer
  | .schedule p => some { d with pending := insert d.pending p, armed := true }
  | .fire => if d.armed then some { d with armed := false, started := d.started + 1 } else none
  | .take =>
    match d.started with
    | 0 => none
    | n + 1 => some { d with started := n, taken := d.taken ++ [d.pending], pending := [] }
  | .deliver i => if i < d.taken.length then some { d with taken := d.taken.eraseIdx i } else none
  | .cancel => some { d with canceled := true }
  | .stop => if d.canceled then some { d with armed := false } else none

/-- The paths that an event takes. -/
def takenBy (d : Debouncer) : Event → List Text
  | .take => d.pending
  | _ => []

/-- The batch that an event hands over. -/
def handedOver (d : Debouncer) : Event → Option (List Text)
  | .deliver i => if d.canceled then none else d.taken[i]?
  | _ => none

/-- The state after events, if they can happen one after the other. -/
def run? (d : Debouncer) : List Event → Option Debouncer
  | [] => some d
  | e :: es => (d.step? e).bind fun d' => d'.run? es

end Debouncer

end StubDecl
