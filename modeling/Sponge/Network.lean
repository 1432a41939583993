import Sponge.TCPConnection
import Mathlib.Logic.Function.Basic

/-!
# Two endpoints and the network between them

The network keeps every segment that either side ever emitted, and may deliver any of them to the
other side, any number of times and in any order, or never. An `Endpoint` is a connection with its
history: the bytes its application wrote and read, and what it emitted. The owner of a connection
takes the segments off `segments_out()` after every call.
-/

namespace Sponge

/-- The two sides. -/
inductive Side where
  | a | b
deriving DecidableEq, Repr

def Side.other : Side → Side
  | .a => .b
  | .b => .a

@[simp] theorem Side.other_other (x : Side) : x.other.other = x := by cases x <;> rfl

@[simp] theorem Side.other_ne (x : Side) : x.other ≠ x := by cases x <;> decide

/-- Both sides, seen from `x`. -/
theorem Side.forall_iff {P : Side → Prop} (x : Side) : (∀ y, P y) ↔ P x ∧ P x.other := by
  refine ⟨fun h => ⟨h x, h x.other⟩, fun h y => ?_⟩
  cases x with
  | a =>
    cases y with
    | a => exact h.1
    | b => exact h.2
  | b =>
    cases y with
    | a => exact h.2
    | b => exact h.1

/-- A connection with its history. -/
structure Endpoint where
  conn : TCPConnection
  /-- The bytes that `write` accepted. -/
  written : List UInt8
  /-- The bytes read from the inbound stream. -/
  popped : List UInt8
  /-- The segments emitted. -/
  emitted : List TCPSegment

namespace Endpoint

def new (cfg : TCPConfig) (random : UInt32) : Endpoint := ⟨.new cfg random, [], [], []⟩

/-- One call, after which the owner takes all segments off the queue. -/
def call (e : Endpoint) (op : ConnOp) : Endpoint where
  conn := { e.conn.step op with segmentsOut := [] }
  written := e.written ++ e.conn.accepted op
  popped := e.popped ++ e.conn.taken op
  emitted := e.emitted ++ (e.conn.step op).segmentsOut

end Endpoint

/-- The calls of an application and of its clock. -/
inductive AppOp where
  | connect
  | write (data : List UInt8)
  | endInputStream
  | tick (ms : Nat)
  | read (n : Nat)
deriving DecidableEq, Repr

def AppOp.toConnOp : AppOp → ConnOp
  | .connect => .connect
  | .write data => .write data
  | .endInputStream => .endInputStream
  | .tick ms => .tick ms
  | .read n => .read n

/-- The steps of the two endpoints. -/
inductive NetOp where
  | app (x : Side) (op : AppOp)
  /-- The network delivers to `x` the `i`-th segment that the other side emitted. -/
  | deliver (x : Side) (i : Nat)
deriving DecidableEq, Repr

/-- The two endpoints. -/
abbrev Network := Side → Endpoint

namespace Network

/-- Two new connections; `random` is what each side's `random_device` returns. -/
def new (cfg : Side → TCPConfig) (random : Side → UInt32) : Network :=
  fun x => .new (cfg x) (random x)

/-- The call of a step: whose it is, and which. -/
def callOf (net : Network) : NetOp → Option (Side × ConnOp)
  | .app x op => some (x, op.toConnOp)
  | .deliver x i => (net x.other).emitted[i]?.map fun seg => (x, .segmentReceived seg)

/-- One step. -/
def step (net : Network) (op : NetOp) : Network :=
  match net.callOf op with
  | some (x, op) => Function.update net x ((net x).call op)
  | none => net

end Network

end Sponge
