import Mathlib.Algebra.Order.Ring.Nat
import Mathlib.Data.List.DropRight
import QueryChain.Proofs.Worker.Runs

/-!
# What arrives at sinks and counters

A trace says where each event goes. What a sink has received grows by the events that go to it, and
each counter by its own events among those that go to no sink, counted from the last time on that the
counters were set to zero.

## Main definitions

* `Counters.Tallies`: each counter has grown by its own events
* `Trace.sentTo`, `Trace.countFrom`: what arrives at a sink, and at the counters
* `Trace.counted`: the events that the counters show
* `Meter.Follows`: what a trace leaves of a meter

## Main results

* `Counters.Tallies.record`: one more event
* `Trace.countFrom_tallies`: the counters show the events that are counted
* `Meter.follows_applyAll`, `Meter.record_follows`: marks, and an event that is recorded, leave what
  their trace says
-/

namespace QueryChain

/-! ## Counters -/

namespace Event

/-- The number of clauses, if a compilation has ended with a model. -/
def clauses? : Event → Option Nat
  | .compileFinish clauses => some clauses
  | _ => none

/-- The class of the error, if a compilation has failed. -/
def failure? : Event → Option ErrorClass
  | .compileFailed cls => some cls
  | _ => none

/-- The number of rounds, if the passes have settled. -/
def rounds? : Event → Option Nat
  | .settled rounds => some rounds
  | _ => none

end Event

/-- **Each counter has grown by its own events**, and by no other ones. -/
structure Counters.Tallies (after : Counters) (events : List Event) (before : Counters) : Prop where
  started : after.compilesStarted = before.compilesStarted + events.count .compileStart
  finished :
    after.compilesFinished = before.compilesFinished + (events.filterMap Event.clauses?).length
  failed : after.compilesFailed = before.compilesFailed + (events.filterMap Event.failure?).length
  classes : ∀ cls, after.failures cls = before.failures cls + events.count (.compileFailed cls)
  clauses : after.clausesEmitted = before.clausesEmitted + (events.filterMap Event.clauses?).sum
  settled : after.settledRuns = before.settledRuns + (events.filterMap Event.rounds?).length
  total : after.roundsTotal = before.roundsTotal + (events.filterMap Event.rounds?).sum
  greatest : after.roundsMax = (events.filterMap Event.rounds?).foldl max before.roundsMax
  built : after.compilersBuilt = before.compilersBuilt + events.count .compilerBuilt

namespace Counters.Tallies

theorem nil (c : Counters) : c.Tallies [] c := by
  constructor <;> simp

/-- One more event. -/
theorem record {after before : Counters} {events : List Event} (h : after.Tallies events before)
    (e : Event) : (after.record e).Tallies (events ++ [e]) before where
  started := by
    cases e <;> simp [Counters.record, List.count_append, h.started, Nat.add_assoc]
  finished := by
    cases e <;> simp [Counters.record, List.filterMap_cons, Event.clauses?, h.finished, Nat.add_assoc]
  failed := by
    cases e <;> simp [Counters.record, List.filterMap_cons, Event.failure?, h.failed, Nat.add_assoc]
  classes cls := by
    cases e with
    | compileFailed k =>
      by_cases hk : cls = k
      · simp [Counters.record, List.count_append, h.classes, hk, Nat.add_assoc]
      · simp [Counters.record, List.count_append, h.classes, hk, Ne.symm hk]
    | _ => simp [Counters.record, List.count_append, h.classes]
  clauses := by
    cases e <;> simp [Counters.record, List.filterMap_cons, Event.clauses?, h.clauses, Nat.add_assoc]
  settled := by
    cases e <;> simp [Counters.record, List.filterMap_cons, Event.rounds?, h.settled, Nat.add_assoc]
  total := by
    cases e <;> simp [Counters.record, List.filterMap_cons, Event.rounds?, h.total, Nat.add_assoc]
  greatest := by
    cases e <;> simp [Counters.record, List.filterMap_cons, Event.rounds?, h.greatest]
  built := by
    cases e <;> simp [Counters.record, List.count_append, h.built, Nat.add_assoc]

end Counters.Tallies

/-! ## Arrivals -/

namespace Mark

/-- The event that arrives at the sink. -/
def eventFor (sink : SinkId) : Mark → Option Event
  | .event (some s) e => if s = sink then some e else none
  | _ => none

/-- The event that arrives at no sink. -/
def counted? : Mark → Option Event
  | .event none e => some e
  | _ => none

/-- The counters after a mark. -/
def count (c : Counters) : Mark → Counters
  | .event (some _) _ => c
  | .event none e => c.record e
  | .reset => .zero

end Mark

namespace Trace

/-- The events that arrive at the sink, in order. -/
def sentTo (t : Trace) (sink : SinkId) : List Event :=
  t.marks.filterMap (Mark.eventFor sink)

/-- The counters after the trace: events that arrive at no sink are counted. -/
def countFrom (t : Trace) (c : Counters) : Counters :=
  t.marks.foldl Mark.count c

/-- The events that arrive at no sink, from the last time on that the counters are set to zero. -/
def counted (t : Trace) : List Event :=
  (t.marks.rtakeWhile (· ≠ .reset)).filterMap Mark.counted?

/-- **The counters show the events that are counted**, on top of what they showed before if they are
not set to zero. -/
theorem countFrom_tallies (t : Trace) (c : Counters) :
    (t.countFrom c).Tallies t.counted (if .reset ∈ t.marks then .zero else c) := by
  obtain ⟨marks, interrupted⟩ := t
  unfold countFrom counted
  -- induction from the last mark backwards, since the last reset decides
  induction marks using List.reverseRecOn with
  | nil => exact .nil c
  | append_singleton marks mark ih =>
    rw [List.foldl_append, List.foldl_cons, List.foldl_nil]
    rcases mark with (_ | s) | _
    · simpa [Mark.count, Mark.counted?, List.filterMap_cons] using ih.record _
    · simpa [Mark.count, Mark.counted?, List.filterMap_cons] using ih
    · simpa [Mark.count] using Counters.Tallies.nil .zero

end Trace

namespace Meter

/-- The meter is what a trace leaves of another one: each event has arrived where it was sent and
nowhere else, and the sink in force is the same. -/
structure Follows (after : Meter) (t : Trace) (before : Meter) : Prop where
  override : after.override = before.override
  received : ∀ sink, after.received sink = before.received sink ++ t.sentTo sink
  counters : after.counters = t.countFrom before.counters
  tallies : after.counters.Tallies t.counted (if .reset ∈ t.marks then .zero else before.counters)

theorem received_applyAll (m : Meter) (marks : List Mark) (sink : SinkId) :
    (m.applyAll marks).received sink = m.received sink ++ marks.filterMap (Mark.eventFor sink) := by
  induction marks generalizing m with
  | nil => simp
  | cons mark marks ih =>
    rw [applyAll_cons, ih]
    rcases mark with (_ | s) | _
    · rfl
    · by_cases h : s = sink
      · simp [apply, Mark.eventFor, h]
      · simp [apply, Mark.eventFor, h, Ne.symm h]
    · rfl

theorem counters_applyAll (m : Meter) (marks : List Mark) :
    (m.applyAll marks).counters = marks.foldl Mark.count m.counters := by
  induction marks generalizing m with
  | nil => rfl
  | cons mark marks ih =>
    rw [applyAll_cons, ih]
    rcases mark with (_ | _) | _ <;> rfl

theorem follows_applyAll (m : Meter) (t : Trace) : (m.applyAll t.marks).Follows t m where
  override := m.override_applyAll t.marks
  received := m.received_applyAll t.marks
  counters := m.counters_applyAll t.marks
  tallies := m.counters_applyAll t.marks ▸ t.countFrom_tallies m.counters

/-- An event that is recorded arrives at the sink in force, or is counted if there is none. -/
theorem record_follows (m : Meter) (e : Event) :
    (m.record e).Follows ⟨[.event m.override e], false⟩ m := by
  rw [record_eq]
  exact m.follows_applyAll ⟨[.event m.override e], false⟩

end Meter

end QueryChain
