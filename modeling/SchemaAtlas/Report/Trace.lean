import SchemaAtlas.Report.Event

/-!
# Traces

A trace is the outcome of a computation together with the events reported on the way. The events
before a fault are kept. The outcome of a trace that is built from others is built in the same way
from their outcomes, so a statement about outcomes never needs to look at the events.
-/

namespace SchemaAtlas

/-- Events in the order of their report, and a result unless a fault ended the computation. -/
structure Trace (α : Type) where
  events : List Event
  outcome : Except Fault α
  deriving Inhabited

namespace Trace

variable {α β : Type}

def bind (x : Trace α) (f : α → Trace β) : Trace β :=
  match x.outcome with
  | .error fault => ⟨x.events, .error fault⟩
  | .ok a => ⟨x.events ++ (f a).events, (f a).outcome⟩

instance : Monad Trace where
  pure a := ⟨[], .ok a⟩
  bind := bind

def emit (event : Event) : Trace Unit := ⟨[event], .ok ()⟩

def halt (fault : Fault) : Trace α := ⟨[], .error fault⟩

@[simp] theorem outcome_pure (a : α) : (pure a : Trace α).outcome = .ok a := rfl

@[simp] theorem outcome_bind (x : Trace α) (f : α → Trace β) :
    (x >>= f).outcome = x.outcome >>= fun a => (f a).outcome := by
  show (bind x f).outcome = _
  unfold bind
  split <;> simp_all [Bind.bind, Except.bind]

@[simp] theorem outcome_emit (event : Event) : (emit event).outcome = .ok () := rfl

@[simp] theorem outcome_halt (fault : Fault) :
    (halt fault : Trace α).outcome = .error fault := rfl

end Trace
end SchemaAtlas
