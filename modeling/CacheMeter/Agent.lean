import CacheMeter.Agent.Log
import CacheMeter.Settings

/-!
# The collecting agent

The agent binds to the rings, polls them at a fixed interval, hands every completed
slot to its handlers and reports message counts.  A session runs beside its agent, and
gets its chances while the agent sleeps or stops.  What the machine's clock reads at a
chance, and what falls due in it, is up to the machine.

Main results:

- `Agent.start`, `Agent.sleep` and `Agent.stop` are the steps of an agent's life;
  `start_twice` is its first refusal.
- `Settings.canBegin` says with which intervals a session can begin, and when.
- `Agent.openKernelRings` checks settings against the kernel's limits.
-/

namespace CacheMeter

/-! ## Handlers and events -/

/-- Who is told about completed slots: a handler registered by name, or the log. -/
inductive Handler
  | named (name : String)
  | log
deriving DecidableEq, Repr

/-- What an agent does that others can see. -/
inductive AgentEvent
  | delivered (handler : String) (emission : Emission)
  | logged (line : LogLine)
deriving DecidableEq

/-- What happens when a handler is handed a slot. -/
def Handler.events (emission : Emission) : Handler → List AgentEvent
  | .named name => [.delivered name emission]
  | .log => (LogLine.ofSlot? emission).toList.map .logged

/-- What happens when slots are handed to handlers: each slot goes to every handler in
turn. -/
def dispatch (handlers : List Handler) (emissions : List Emission) : List AgentEvent :=
  emissions.flatMap fun emission => handlers.flatMap (Handler.events emission)

/-! ## Sessions -/

/-- What a session does when one of its intervals has passed. -/
inductive Tick
  | poll
  | report
deriving DecidableEq, Repr

/-- A chance for a session to run. -/
structure Chance where
  /-- What the machine's clock reads, in nanoseconds. -/
  reading : Nat
  /-- What falls due, in the order in which the session gets to it. -/
  ticks : List Tick := []
deriving DecidableEq, Repr

/-- What a session does with a chance.  Once it is to stop, it polls once more at the end. -/
def Chance.due (chance : Chance) (cancelled : Bool) : List Tick :=
  if cancelled then chance.ticks ++ [.poll] else chance.ticks

/-- Whether a session can begin: neither interval is zero, and the machine's clock, which
counts fewer than `2 ^ 63` seconds, reaches the first report. -/
def Settings.canBegin (settings : Settings) (reading : Nat) : Bool :=
  !settings.pollInterval.isZero && !settings.statsInterval.isZero
    && reading + settings.statsInterval.nanoseconds
        < UInt64.size / 2 * Duration.nanosPerSecond

/-- How far a session has come. -/
inductive Phase
  | waiting
  | running
  | finished
  | failed
deriving DecidableEq, Repr

/-- The phase of a session that gets a chance.  At its first one it begins, or fails. -/
def Phase.entered (settings : Settings) (reading : Nat) : Phase → Phase
  | .waiting => if settings.canBegin reading then .running else .failed
  | phase => phase

/-- A session: the readers of all rings, the slots being filled, and the handlers that
belong to it. -/
structure Session where
  readers : Array Reader
  window : Window
  roster : Roster := Roster.empty
  handlers : List Handler
  phase : Phase := .waiting
deriving DecidableEq

/-- The session when it gets a chance. -/
def Session.enter (session : Session) (settings : Settings) (reading : Nat) : Session :=
  { session with phase := session.phase.entered settings reading }

/-- An agent over the memory of its rings. -/
structure Agent where
  settings : Settings
  memory : Memory
  handlers : List Handler := []
  tally : Tally := Tally.zero
  /-- Set by the first stop and never taken back. -/
  cancelled : Bool := false
  session : Option Session := none
deriving DecidableEq

namespace Agent

/-- Why an agent refuses to go on. -/
inductive Fault
  | alreadyStarted
  | settings (cause : Settings.Refusal)
  | window (cause : Window.Refusal)
  | binding (cpu : Nat) (cause : Ring.Refusal)
  | cpuOutOfRange (cpu : UInt32)
  | opening (cpu : UInt32) (cause : Ring.Region.LayoutFault)
  | pollTask
deriving DecidableEq, Repr

/-- The text shown for a fault. -/
def Fault.message : Fault → String
  | .alreadyStarted => "agent already started"
  | .settings cause => cause.message
  | .window _ => "creating aggregator"
  | .binding cpu _ => "binding ring for cpu " ++ toString cpu
  | .cpuOutOfRange cpu => "cpu " ++ toString cpu.toNat ++ " out of range"
  | .opening cpu _ => "opening perf ring on cpu " ++ toString cpu.toNat
  | .pollTask => "waiting for poll task"

/-! ## Making an agent -/

/-- An agent over regions of its own memory. -/
def ofMemory (settings : Settings) (memory : Memory) : Agent where
  settings := settings
  memory := memory

/-- The largest processor number that the kernel takes. -/
def maxCpu : Nat := UInt32.size / 2 - 1

/-- The kernel's ring for one processor.  The processor number and the page count are
checked before the kernel is asked; it never grants the request itself. -/
def kernelRing (settings : Settings) (cpu : UInt32) : Except Fault Ring.Region :=
  if maxCpu < cpu.toNat then .error (.cpuOutOfRange cpu)
  else if !settings.rings.dataPages.toNat.isPowerOfTwo then
    .error (.opening cpu .pageCountNotPowerOfTwo)
  else .error (.opening cpu .kernelUnavailable)

/-- An agent over the kernel's rings for the processors listed, or for all of them, the
first of which is 0. -/
def openKernelRings (settings : Settings) : Except Fault Agent := do
  let cpus := if settings.rings.cpus.isEmpty then [0] else settings.rings.cpus
  let regions ← cpus.mapM (kernelRing settings)
  return ofMemory settings regions.toArray

/-! ## Starting -/

/-- Register a handler for the next session. -/
def onSlot (agent : Agent) (name : String) : Agent :=
  { agent with handlers := agent.handlers ++ [.named name] }

/-- Bind a reader to every region; regions are numbered like processors. -/
def bindAll (memory : Memory) : Except Fault (Array Reader) :=
  (List.range memory.size).foldlM (fun readers index =>
    match Reader.attach memory index with
    | .ok reader => .ok (readers.push reader)
    | .error cause => .error (.binding index cause)) #[]

/-- Begin a session.  It takes over the handlers registered so far, or the log if there
are none, and begins at its first chance. -/
def start (agent : Agent) : Except Fault Agent := do
  if agent.session.isSome then
    .error .alreadyStarted
  else
    let shape ← agent.settings.aggregation.shape.mapError .settings
    let window ← (Window.ofShape shape).mapError .window
    let readers ← bindAll agent.memory
    let handlers := if agent.handlers.isEmpty then [Handler.log] else agent.handlers
    return { agent with
      handlers := []
      session := some { readers := readers, window := window, handlers := handlers } }

theorem start_twice {agent : Agent} (h : agent.session.isSome = true) :
    agent.start = .error .alreadyStarted := by
  simp [start, h]

/-! ## What a session does -/

/-- Poll every ring once. -/
def pollOnce (agent : Agent) (session : Session) : Agent × Session × List AgentEvent :=
  let outcome := Intake.poll
    { window := session.window, roster := session.roster, tally := agent.tally }
    session.readers agent.memory
  let lines :=
    match outcome.result with
    | .ok summary => LogLine.ofLost summary.lostSamples
    | .error failure => [LogLine.ofFailure failure]
  ({ agent with memory := outcome.memory, tally := outcome.intake.tally },
    { session with
      readers := outcome.readers
      window := outcome.intake.window
      roster := outcome.intake.roster },
    dispatch session.handlers outcome.emitted ++ lines.map .logged)

/-- Report the message counts and start them anew. -/
def reportOnce (agent : Agent) : Agent × List AgentEvent :=
  let (snapshot, tally) := agent.tally.snapshot
  ({ agent with tally := tally },
    (LogLine.ofSnapshot snapshot agent.settings.statsInterval).map .logged)

/-- Do one thing that falls due. -/
def runTick (agent : Agent) (session : Session) : Tick → Agent × Session × List AgentEvent
  | .poll => agent.pollOnce session
  | .report =>
    let (agent, events) := agent.reportOnce
    (agent, session, events)

/-- Do what falls due. -/
def runTicks : List Tick → Agent → Session → Agent × Session × List AgentEvent
  | [], agent, session => (agent, session, [])
  | tick :: ticks, agent, session =>
    let (agent, session, events) := agent.runTick session tick
    let (agent, session, later) := runTicks ticks agent session
    (agent, session, events ++ later)

/-- Hand out the slots still held and end. -/
def flush (agent : Agent) (session : Session) : Session × List AgentEvent :=
  let (emissions, intake) := Intake.drain
    { window := session.window, roster := session.roster, tally := agent.tally }
  ({ session with window := intake.window, phase := .finished },
    dispatch session.handlers emissions ++ [.logged (LogLine.ofFlush emissions.length)])

/-- What a running session does with a chance.  It ends once it is to stop. -/
def work (agent : Agent) (session : Session) (chance : Chance) :
    Agent × Session × List AgentEvent :=
  let (agent, session, events) := runTicks (chance.due agent.cancelled) agent session
  if agent.cancelled then
    let (session, later) := agent.flush session
    (agent, session, events ++ later)
  else (agent, session, events)

/-- Give a session a chance. -/
def runSession (agent : Agent) (session : Session) (chance : Chance) :
    Agent × Session × List AgentEvent :=
  let session := session.enter agent.settings chance.reading
  if session.phase = .running then agent.work session chance else (agent, session, [])

/-! ## Sleeping and stopping -/

/-- Sleep, and give the session a chance meanwhile. -/
def sleep (agent : Agent) (chance : Chance) : Agent × List AgentEvent :=
  match agent.session with
  | none => (agent, [])
  | some session =>
    let (agent, session, events) := agent.runSession session chance
    ({ agent with session := some session }, events)

/-- Release the memory of every ring. -/
def closeAll (agent : Agent) : Agent :=
  { agent with memory := agent.memory.map Ring.Region.close }

/-- Close the rings unless others still hold them. -/
def closeUnlessShared (agent : Agent) (exclusive : Bool) : Agent :=
  if exclusive then agent.closeAll else agent

/-- End the session, and close the rings if no one else holds them.  A session that
failed is reported, and leaves the rings open. -/
def stop (agent : Agent) (chance : Chance) (exclusive : Bool) :
    Agent × List AgentEvent × Option Fault :=
  let agent := { agent with cancelled := true }
  match agent.session with
  | none => (agent.closeUnlessShared exclusive, [], none)
  | some session =>
    let (agent, session, events) := agent.runSession session chance
    let agent := { agent with session := none }
    if session.phase = .failed then (agent, events, some .pollTask)
    else (agent.closeUnlessShared exclusive, events, none)

/-- Hand over the message counts and start them anew. -/
def takeSnapshot (agent : Agent) : Tally.Snapshot × Agent :=
  let (snapshot, tally) := agent.tally.snapshot
  (snapshot, { agent with tally := tally })

end Agent

end CacheMeter
