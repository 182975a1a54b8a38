import QueryChain.Worker.Counters

/-!
# Meters

Events of a worker go to its counters, or to a sink that has been put in front of them for a while.

## Main definitions

* `Meter`: the counters, the sink in force and what every sink has received
* `Meter.record`: the delivery of an event
* `Meter.enter`, `Meter.leave`: the scope of a sink
-/

namespace QueryChain

/-- Tells sinks apart. -/
abbrev SinkId := Nat

/-- Where the events of a worker go. -/
structure Meter where
  counters : Counters
  /-- The sink in force; without one, events are counted. -/
  override : Option SinkId
  /-- The events that each sink has received, in order. -/
  received : SinkId → List Event

namespace Meter

/-- Nothing has happened, and no sink is in force. -/
def zero : Meter where
  counters := .zero
  override := none
  received _ := []

/-- Delivers an event to the sink in force, or counts it. -/
def record (m : Meter) (event : Event) : Meter :=
  match m.override with
  | some sink =>
    { m with received := fun s => if s = sink then m.received s ++ [event] else m.received s }
  | none => { m with counters := m.counters.record event }

/-- Delivers events in order. -/
def recordAll (m : Meter) (events : List Event) : Meter :=
  events.foldl record m

/-- Puts a sink in force. -/
def enter (m : Meter) (sink : SinkId) : Meter :=
  { m with override := some sink }

/-- Puts back what was in force before a scope. -/
def leave (m : Meter) (previous : Option SinkId) : Meter :=
  { m with override := previous }

/-- Sets the counters to zero. -/
def reset (m : Meter) : Meter :=
  { m with counters := .zero }

end Meter

end QueryChain
