import Sponge.Util.FileDescriptor

/-!
# The event loop (`libsponge/util/eventloop.hh`, `eventloop.cc`)

The callbacks of a rule act on a state `σ` that they share with their owner; what the kernel answers
to the system calls of one callback is an input `ι`. A rule holds a copy of a `FileDescriptor`,
whose wrapper is part of `σ`.
-/

namespace Sponge

/-- Interest in reading or writing a polled descriptor. -/
inductive Direction where
  | In | Out
deriving DecidableEq, Repr

/-- A condition and the callbacks for it. -/
structure Rule (ι σ : Type) where
  fd : σ → FileDescriptor
  direction : Direction
  callback : ι → σ → σ × Except Exn Unit
  interest : σ → Bool := fun _ => true
  cancel : σ → σ × Except Exn Unit := fun s => (s, .ok ())

/-- The number of times the descriptor has been read or written. -/
def Rule.serviceCount {ι σ : Type} (rule : Rule ι σ) (s : σ) : UInt32 :=
  if rule.direction = .In then (rule.fd s).readCount else (rule.fd s).writeCount

/-- The first loop of `wait_next_event` cancels the rule: there is no more reading on it, or the
descriptor is closed. -/
def Rule.Dead {ι σ : Type} (rule : Rule ι σ) (s : σ) : Prop :=
  (rule.direction = .In ∧ (rule.fd s).eof = true) ∨ (rule.fd s).closed = true

instance {ι σ : Type} (rule : Rule ι σ) (s : σ) : Decidable (rule.Dead s) :=
  inferInstanceAs (Decidable (_ ∨ _))

/-- The bits of `revents`. -/
structure Revents where
  pollin : Bool := false
  pollout : Bool := false
  pollerr : Bool := false
  pollhup : Bool := false
  pollnval : Bool := false
deriving DecidableEq, Repr

/-- `revents & events`, for a descriptor polled in this direction. -/
def Revents.has (revents : Revents) : Direction → Bool
  | .In => revents.pollin
  | .Out => revents.pollout

/-- What `poll` does: it times out, fails with `EINTR` or with another error, or reports on the
descriptors in their order; then each comes with the kernel's answers to its callback. Descriptors
past the end of the list have no events. -/
inductive Poll (ι : Type) where
  | timeout
  | interrupted
  | failed
  | ready (pollfds : List (Revents × ι))

/-- `EventLoop::Result`. -/
inductive EventLoop.Result where
  | success | timeout | exit
deriving DecidableEq, Repr

/-- The rules that have been added and not cancelled. -/
structure EventLoop (ι σ : Type) where
  rules : List (Rule ι σ) := []

namespace EventLoop

variable {ι σ : Type}

def addRule (loop : EventLoop ι σ) (rule : Rule ι σ) : EventLoop ι σ :=
  { loop with rules := loop.rules ++ [rule] }

/-- The first loop of `wait_next_event`: the rules that stay, each with whether it is interested. -/
def setUp : List (Rule ι σ) → σ → List (Rule ι σ × Bool) × σ × Except Exn Unit
  | [], s => ([], s, .ok ())
  | rule :: rules, s =>
    if rule.Dead s then
      match rule.cancel s with
      | (s, .error e) => ((rule :: rules).map fun rule => (rule, false), s, .error e)
      | (s, .ok ()) => setUp rules s
    else
      let interested := rule.interest s
      let (pollfds, s, r) := setUp rules s
      ((rule, interested) :: pollfds, s, r)

/-- The second loop of `wait_next_event`, over the results of `poll`. -/
def dispatch : List (Rule ι σ × Bool) → List (Revents × ι) → σ →
    List (Rule ι σ) × σ × Except Exn Unit
  | [], _, s => ([], s, .ok ())
  | pollfds, [], s => (pollfds.map Prod.fst, s, .ok ())
  | (rule, interested) :: pollfds, (revents, answers) :: rest, s =>
    if revents.pollerr = true ∨ revents.pollnval = true then
      (rule :: pollfds.map Prod.fst, s,
        .error (.runtimeError "EventLoop: error on polled file descriptor"))
    else
      let pollReady := interested && revents.has rule.direction
      if revents.pollhup = true ∧ interested = true ∧ pollReady = false then
        -- the only condition was a hangup: this descriptor is defunct
        match rule.cancel s with
        | (s, .error e) => (rule :: pollfds.map Prod.fst, s, .error e)
        | (s, .ok ()) => dispatch pollfds rest s
      else if pollReady = true then
        let countBefore := rule.serviceCount s
        match rule.callback answers s with
        | (s, .error e) => (rule :: pollfds.map Prod.fst, s, .error e)
        | (s, .ok ()) =>
          if countBefore = rule.serviceCount s ∧ rule.interest s = true then
            (rule :: pollfds.map Prod.fst, s, .error (.runtimeError
              "EventLoop: busy wait detected: callback did not read/write fd and is still interested"))
          else
            let (rules, s, r) := dispatch pollfds rest s
            (rule :: rules, s, r)
      else
        let (rules, s, r) := dispatch pollfds rest s
        (rule :: rules, s, r)

/-- The end of `wait_next_event`: go through the poll results. -/
def serve (pollfds : List (Rule ι σ × Bool)) (results : List (Revents × ι)) (s : σ) :
    EventLoop ι σ × σ × Except Exn Result :=
  let out := dispatch pollfds results s
  (⟨out.1⟩, out.2.1, out.2.2.map fun _ => .success)

/-- Calls `poll` and then executes the callback for each ready descriptor. -/
def waitNextEvent (loop : EventLoop ι σ) (poll : Poll ι) (s : σ) :
    EventLoop ι σ × σ × Except Exn Result :=
  match setUp loop.rules s with
  | (pollfds, s, .error e) => (⟨pollfds.map Prod.fst⟩, s, .error e)
  | (pollfds, s, .ok ()) =>
    -- quit if there is nothing left to poll
    if pollfds.any Prod.snd = false then (⟨pollfds.map Prod.fst⟩, s, .ok .exit)
    else
      match poll with
      | .timeout => (⟨pollfds.map Prod.fst⟩, s, .ok .timeout)
      | .interrupted => (⟨pollfds.map Prod.fst⟩, s, .ok .exit)
      | .failed => serve pollfds [] s
      | .ready results => serve pollfds results s

end EventLoop

end Sponge
