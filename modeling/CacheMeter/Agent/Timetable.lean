import CacheMeter.Agent.Checked

/-!
# Agents that keep time

Here time moves only while an agent sleeps, and a session keeps to a timetable: it polls and
reports at its intervals, and does everything that falls due before the agent wakes.

Main results:

- `Timetable.ticksBefore` lists what a session does before a deadline, in order.
- `TimedAgent.sleep` and `TimedAgent.stop` give the session the chances that this makes;
  `agent_sleep` and `agent_stop` say that to the agent they are nothing else.
-/

namespace CacheMeter

/-! ## Timetables -/

/-- When a session polls and reports next, in nanoseconds since the agent was made. -/
structure Timetable where
  nextPoll : Nat := 0
  nextReport : Nat := 0
deriving DecidableEq, Repr

namespace Timetable

open Duration (nanosPerMilli)

/-- The timetable of a session that begins now. -/
def beginning (settings : Settings) (now : Nat) : Timetable where
  nextPoll := now
  nextReport := now + settings.statsInterval.nanoseconds

/-- How many of the instants `first`, `first + step`, … lie before a deadline. -/
def countBefore (first step deadline : Nat) : Nat :=
  if step = 0 then 0 else (deadline - first + step - 1) / step

/-- The instants `first`, `first + step`, … before a deadline. -/
def instantsBefore (first step deadline : Nat) : List Nat :=
  (List.range (countBefore first step deadline)).map fun i => first + i * step

/-- The end of the instants that a session gets to before a deadline.  The clock wakes it at
whole milliseconds only, so what comes after the last of them waits. -/
def reach (deadline : Nat) : Nat :=
  if deadline = 0 then 0 else (deadline - 1) / nanosPerMilli * nanosPerMilli + 1

/-- Everything a session does before a deadline, in order. -/
def ticksBefore (next : Timetable) (settings : Settings) (deadline : Nat) : List Tick :=
  let reach := reach deadline
  let polls := instantsBefore next.nextPoll settings.pollInterval.nanoseconds reach
  let reports := instantsBefore next.nextReport settings.statsInterval.nanoseconds reach
  let timedPolls := polls.map fun time => (time, Tick.poll)
  let timedReports := reports.map fun time => (time, Tick.report)
  (List.merge timedPolls timedReports fun a b => a.1 ≤ b.1).map Prod.snd

/-- The timetable once everything before a deadline is done. -/
def after (next : Timetable) (settings : Settings) (deadline : Nat) : Timetable :=
  let poll := settings.pollInterval.nanoseconds
  let report := settings.statsInterval.nanoseconds
  let reach := reach deadline
  { nextPoll := next.nextPoll + countBefore next.nextPoll poll reach * poll
    nextReport := next.nextReport + countBefore next.nextReport report reach * report }

end Timetable

/-! ## Sleeping and stopping -/

/-- An agent, the reading of the machine's clock when it was made, and the nanoseconds that it
has slept since. -/
structure TimedAgent where
  agent : Agent
  made : Nat
  clock : Nat := 0
  next : Timetable := {}
deriving DecidableEq

namespace TimedAgent

/-- Let time pass.  A sleep of no length gives the session no chance to run. -/
def sleep (timed : TimedAgent) (duration : Duration) : TimedAgent × List AgentEvent :=
  let deadline := timed.clock + duration.nanoseconds
  match timed.agent.session with
  | none => ({ timed with clock := deadline }, [])
  | some session =>
    if duration.isZero then (timed, [])
    else
      let settings := timed.agent.settings
      let next :=
        if session.phase = .waiting then .beginning settings timed.clock else timed.next
      let ticks := if timed.agent.cancelled then [] else next.ticksBefore settings deadline
      let (agent, events) :=
        timed.agent.sleepChecked { reading := timed.made + timed.clock, ticks := ticks }
      ({ timed with agent := agent, clock := deadline, next := next.after settings deadline },
        events)

/-- End the session.  Nothing falls due meanwhile. -/
def stop (timed : TimedAgent) (exclusive : Bool) :
    TimedAgent × List AgentEvent × Option Agent.Fault :=
  let (agent, events, fault) :=
    timed.agent.stopChecked { reading := timed.made + timed.clock } exclusive
  ({ timed with agent := agent }, events, fault)

/-- A sleep is a chance for the session at most. -/
theorem agent_sleep (timed : TimedAgent) (duration : Duration) :
    ((timed.sleep duration).1.agent, (timed.sleep duration).2) = (timed.agent, []) ∨
      ∃ ticks, ((timed.sleep duration).1.agent, (timed.sleep duration).2) =
        timed.agent.sleepChecked { reading := timed.made + timed.clock, ticks := ticks } := by
  unfold sleep
  cases timed.agent.session with
  | none => exact .inl rfl
  | some session =>
    dsimp only
    split
    · exact .inl rfl
    · exact .inr ⟨_, rfl⟩

/-- A stop is its last chance. -/
theorem agent_stop (timed : TimedAgent) (exclusive : Bool) :
    ((timed.stop exclusive).1.agent, (timed.stop exclusive).2) =
      timed.agent.stopChecked { reading := timed.made + timed.clock } exclusive := rfl

end TimedAgent

end CacheMeter
