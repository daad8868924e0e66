import CacheMeter.Agent

/-!
# Sums that outgrow their words

The counts of a poll, the sums of a log line and the sum in a report are kept in 64-bit words,
and none of them wraps unnoticed.  One that outgrows its word breaks the session off where it
stands.  What handlers were told and what the tally counted stays.  The batch is not closed, so
nothing of it is released, and the slots held are gone with the session.

Main results:

- `checkedSum?` adds words up; `Handler.fits` is what it means for a handler.
- `Intake.breakOff?` finds the record with which a poll breaks off.
- `Agent.sleepChecked` and `Agent.stopChecked` are the steps of an agent's life with every sum
  checked; `sleepChecked_of_none` and `stopChecked_of_none` say that they are the plain ones
  unless a sum outgrows its word.
-/

namespace CacheMeter

/-! ## Sums in words -/

/-- The sum of two words, if it is one. -/
def checkedAdd? (a b : UInt64) : Option UInt64 :=
  if a.toNat + b.toNat < UInt64.size then some (a + b) else none

/-- The sum of words added up one by one, if none of the sums outgrows a word. -/
def checkedSum? (words : List UInt64) : Option UInt64 :=
  words.foldl (fun sum? word => sum?.bind fun sum => checkedAdd? sum word) (some 0)

/-- Whether the sums in the line for a slot fit their words. -/
def LogLine.fits (slot : Slot) : Bool :=
  (checkedSum? (slot.totals.values.map Counters.cycles)).isSome
    && (checkedSum? (slot.totals.values.map Counters.cacheMisses)).isSome

/-- Whether the sum of all messages in a snapshot fits its word. -/
def Tally.Snapshot.fits (snapshot : Tally.Snapshot) : Bool :=
  (checkedSum? (snapshot.messages.map Prod.snd)).isSome

namespace Handler

/-- Whether a handler gets through with a slot.  Only the log adds anything up. -/
def fits (emission : Emission) : Handler → Bool
  | .named _ => true
  | .log => LogLine.fits emission.slot

/-- The calls by which slots are handed to handlers: each slot goes to every handler in turn. -/
def calls (handlers : List Handler) (emissions : List Emission) : List (Handler × Emission) :=
  emissions.flatMap fun emission => handlers.map fun handler => (handler, emission)

/-- Whether every handler gets through with every slot. -/
def allFit (handlers : List Handler) (emissions : List Emission) : Bool :=
  (calls handlers emissions).all fun (handler, emission) => handler.fits emission

end Handler

/-- What happens until a handler does not get through. -/
def dispatchChecked (handlers : List Handler) (emissions : List Emission) : List AgentEvent :=
  ((Handler.calls handlers emissions).takeWhile fun (handler, emission) =>
    handler.fits emission).flatMap fun (handler, emission) => handler.events emission

/-! ## Polls -/

namespace Intake

/-- Whether the counts of a poll fit their words. -/
def Summary.fits (summary : Summary) : Bool :=
  summary.records < UInt64.size && summary.measurements < UInt64.size
    && summary.lostSamples < UInt64.size && summary.decodeErrors < UInt64.size
    && summary.slotsEmitted < UInt64.size

namespace Pass

/-- Whether all sums made so far fit their words. -/
def fits (handlers : List Handler) (pass : Pass) : Bool :=
  pass.summary.fits && Handler.allFit handlers pass.emitted

/-- The pass right after the first of at most `limit` records with which a sum does not fit. -/
def breakOff? (handlers : List Handler) (memory : Memory) :
    Nat → Pass → Merger → Option Pass
  | 0, _, _ => none
  | limit + 1, pass, merger =>
    if merger.isEmpty then none
    else
      match merger.current memory, merger.pop memory with
      | .ok record, .ok merger =>
        match pass.consume record with
        | .error _ => none
        | .ok pass =>
          if pass.fits handlers then breakOff? handlers memory limit pass merger else some pass
      | _, _ => none

end Pass

/-- The pass of a poll right after the record with which it breaks off, if it does. -/
def breakOff? (intake : Intake) (handlers : List Handler) (readers : Array Reader)
    (memory : Memory) : Option Pass :=
  match Merger.start { readers := readers } memory with
  | .error _ => none
  | .ok merger => Pass.breakOff? handlers memory merger.backlog { intake := intake } merger

end Intake

/-! ## Sessions -/

namespace Agent

/-- What a poll that breaks off leaves behind. -/
def pollBreak? (agent : Agent) (session : Session) : Option (Agent × List AgentEvent) :=
  let broken? := Intake.breakOff?
    { window := session.window, roster := session.roster, tally := agent.tally }
    session.handlers session.readers agent.memory
  broken?.map fun pass =>
    ({ agent with tally := pass.intake.tally }, dispatchChecked session.handlers pass.emitted)

/-- What a report that breaks off leaves behind.  By then the counts have begun anew. -/
def reportBreak? (agent : Agent) : Option (Agent × List AgentEvent) :=
  let (snapshot, tally) := agent.tally.snapshot
  if snapshot.fits then none else some ({ agent with tally := tally }, [])

/-- What one thing that falls due leaves behind if it breaks off. -/
def tickBreak? (agent : Agent) (session : Session) : Tick → Option (Agent × List AgentEvent)
  | .poll => agent.pollBreak? session
  | .report => agent.reportBreak?

/-- What doing what falls due leaves behind if it breaks off. -/
def ticksBreak? : List Tick → Agent → Session → Option (Agent × List AgentEvent)
  | [], _, _ => none
  | tick :: ticks, agent, session =>
    match agent.tickBreak? session tick with
    | some broken => some broken
    | none =>
      let (agent, session, events) := agent.runTick session tick
      (ticksBreak? ticks agent session).map fun (agent, later) => (agent, events ++ later)

/-- What handing out the slots still held leaves behind if it breaks off. -/
def flushBreak? (agent : Agent) (session : Session) : Option (Agent × List AgentEvent) :=
  let (emissions, _) := Intake.drain
    { window := session.window, roster := session.roster, tally := agent.tally }
  if Handler.allFit session.handlers emissions then none
  else some (agent, dispatchChecked session.handlers emissions)

/-- What a running session leaves behind if it breaks off in a chance. -/
def workBreak? (agent : Agent) (session : Session) (chance : Chance) :
    Option (Agent × List AgentEvent) :=
  let due := chance.due agent.cancelled
  match ticksBreak? due agent session with
  | some broken => some broken
  | none =>
    let (agent, session, events) := runTicks due agent session
    if agent.cancelled then
      (agent.flushBreak? session).map fun (agent, later) => (agent, events ++ later)
    else none

/-- What a session leaves behind if it breaks off in a chance. -/
def runBreak? (agent : Agent) (session : Session) (chance : Chance) :
    Option (Agent × List AgentEvent) :=
  let session := session.enter agent.settings chance.reading
  if session.phase = .running then agent.workBreak? session chance else none

/-! ## Sleeping and stopping -/

/-- What a sleep leaves behind if the session breaks off. -/
def sleepBreak? (agent : Agent) (chance : Chance) : Option (Agent × List AgentEvent) :=
  agent.session.bind fun session => agent.runBreak? session chance

/-- What ending the session leaves behind if it breaks off. -/
def stopBreak? (agent : Agent) (chance : Chance) : Option (Agent × List AgentEvent) :=
  agent.session.bind fun session => { agent with cancelled := true }.runBreak? session chance

/-- Sleep, and give the session a chance meanwhile.  One that breaks off has failed. -/
def sleepChecked (agent : Agent) (chance : Chance) : Agent × List AgentEvent :=
  match agent.sleepBreak? chance with
  | none => agent.sleep chance
  | some (broken, events) =>
    ({ broken with
        session := agent.session.map fun session => { session with phase := .failed } },
      events)

/-- End the session, and close the rings if no one else holds them.  A session that breaks off
is reported, and leaves the rings open. -/
def stopChecked (agent : Agent) (chance : Chance) (exclusive : Bool) :
    Agent × List AgentEvent × Option Fault :=
  match agent.stopBreak? chance with
  | none => agent.stop chance exclusive
  | some (broken, events) => ({ broken with session := none }, events, some .pollTask)

theorem sleepChecked_of_none {agent : Agent} {chance : Chance}
    (h : agent.sleepBreak? chance = none) : agent.sleepChecked chance = agent.sleep chance := by
  rw [sleepChecked, h]

theorem stopChecked_of_none {agent : Agent} {chance : Chance}
    (h : agent.stopBreak? chance = none) (exclusive : Bool) :
    agent.stopChecked chance exclusive = agent.stop chance exclusive := by
  rw [stopChecked, h]

end Agent

end CacheMeter
