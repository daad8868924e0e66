import Mathlib
import CacheMeter.Proofs.Agent.Site

/-!
# Sessions that break off

What rings hold can make sums outgrow their words.  A session then breaks off, asleep or when its
agent is stopped, and the stop says that it has failed.

Main results:

- Theorem `Agent.stops`: what ending a session comes to, and when it breaks off.
- Theorem `Agent.breaks_off_iff`: a session breaks off exactly with the first poll or report that
  makes a sum outgrow its word, and when it ends.
- Theorem `Agent.not_bounded_lossy`: rings with which a session does.
-/

namespace CacheMeter.Agent

variable {agent : Agent} {session : Session} {chance : Chance}

/-- The session has not ended, and goes on with a chance. -/
def IsLive (agent : Agent) (session : Session) (chance : Chance) : Prop :=
  session.phase = .running ∨
    session.phase = .waiting ∧ agent.settings.canBegin chance.reading = true

/-- What ticks leave of an agent that is to stop, and of its session. -/
def stopping (agent : Agent) (session : Session) (chance : Chance) : Agent × Session :=
  let (agent, session, _) := runTicks chance.ticks { agent with cancelled := true }
    (session.enter agent.settings chance.reading)
  (agent, session)

/-- Whether a session that is to end breaks off at what falls due before its last poll. -/
def breaksBefore (agent : Agent) (session : Session) (chance : Chance) : Bool :=
  (ticksBreak? chance.ticks { agent with cancelled := true }
    (session.enter agent.settings chance.reading)).isSome

/-- What ending a session that has not ended comes to. -/
structure Stops (agent : Agent) (session : Session) (chance : Chance) (exclusive : Bool) :
    Prop where
  /-- It breaks off at what falls due before, in the last poll, or when the slots then held are
  handed out. -/
  stopBreak?_eq_none_iff :
    let before := agent.stopping session chance
    let intake := before.1.intakeOf before.2
    agent.stopBreak? chance = none ↔
      agent.breaksBefore session chance = false ∧
        intake.breakOff? session.handlers before.2.readers before.1.memory = none ∧
        (.log ∈ session.handlers → ∀ slot ∈
          (intake.poll before.2.readers before.1.memory).intake.window.slots,
          LogLine.Bounded slot)
  succeeds : agent.stopBreak? chance = none →
    agent.stopChecked chance exclusive = agent.stop chance exclusive ∧
      (agent.stop chance exclusive).2.2 = none
  fails : agent.stopBreak? chance ≠ none →
    (agent.stopChecked chance exclusive).2.2 = some .pollTask
  /-- If it breaks off in the last poll, nothing that was read is released. -/
  unreleased :
    let before := agent.stopping session chance
    agent.breaksBefore session chance = false → ∀ pass,
      (before.1.intakeOf before.2).breakOff? session.handlers before.2.readers
          before.1.memory = some pass →
        (agent.stopChecked chance exclusive).1.memory = before.1.memory

/-- Ticks leave the handlers as they are. -/
theorem handlers_stopping (agent : Agent) (session : Session) (chance : Chance) :
    (agent.stopping session chance).2.handlers = session.handlers :=
  (frame_runTicks chance.ticks { agent with cancelled := true }
    (session.enter agent.settings chance.reading)).1.handlers_eq

/-- A session that is to end breaks off among its ticks or in the poll after them. -/
theorem ticksBreak?_stopping (hbefore : agent.breaksBefore session chance = false) :
    let before := agent.stopping session chance
    ticksBreak? (chance.ticks ++ [.poll]) { agent with cancelled := true }
        (session.enter agent.settings chance.reading) =
      (ticksBreak? [.poll] before.1 before.2).map fun (broken, later) =>
        (broken, (runTicks chance.ticks { agent with cancelled := true }
          (session.enter agent.settings chance.reading)).2.2 ++ later) := by
  have hnone := Option.not_isSome_iff_eq_none.mp (Bool.not_eq_true _ ▸ hbefore)
  rw [ticksBreak?_append]
  exact congrArg (Option.or · _) hnone

/-- A session that has not ended works when its agent is stopped. -/
theorem stopBreak?_of_live (hsession : agent.session = some session)
    (hlive : agent.IsLive session chance) :
    agent.stopBreak? chance =
      { agent with cancelled := true }.workBreak?
        (session.enter agent.settings chance.reading) chance := by
  have hrunning : (session.enter agent.settings chance.reading).phase = .running :=
    phase_enter_iff.mpr hlive
  rw [stopBreak?, hsession, Option.bind_some, runBreak?, if_pos hrunning]

/-- No fault comes of ending a session that has not ended, unless it breaks off. -/
theorem stop_of_live (hsession : agent.session = some session)
    (hlive : agent.IsLive session chance) (exclusive : Bool) :
    (agent.stop chance exclusive).2.2 = none := by
  have hrunning : (session.enter agent.settings chance.reading).phase = .running :=
    phase_enter_iff.mpr hlive
  simp only [stop, hsession, runSession, if_pos hrunning, work_of_cancelled]
  rfl

/-- All sums of a session that is to end fit exactly if it gets through what falls due before,
through its last poll, and through the slots that it hands out then. -/
theorem chanceFits_iff (agent : Agent) (session : Session) (chance : Chance) :
    let before := agent.stopping session chance
    let intake := before.1.intakeOf before.2
    { agent with cancelled := true }.ChanceFits
        (session.enter agent.settings chance.reading) chance ↔
      agent.breaksBefore session chance = false ∧
        intake.breakOff? session.handlers before.2.readers before.1.memory = none ∧
        (.log ∈ session.handlers → ∀ slot ∈
          (intake.poll before.2.readers before.1.memory).intake.window.slots,
          LogLine.Bounded slot) := by
  intro before intake
  have hticks : ticksBreak? (chance.ticks ++ [.poll]) { agent with cancelled := true }
      (session.enter agent.settings chance.reading) = none ↔
        agent.breaksBefore session chance = false ∧ before.1.pollBreak? before.2 = none := by
    rw [ticksBreak?_append, Option.or_eq_none_iff, Option.map_eq_none_iff,
      ticksBreak?_singleton, breaksBefore, Option.isSome_eq_false_iff,
      Option.isNone_iff_eq_none]
    rfl
  have hwindow : (runTicks (chance.ticks ++ [.poll]) { agent with cancelled := true }
      (session.enter agent.settings chance.reading)).2.1.window =
        (intake.poll before.2.readers before.1.memory).intake.window := by
    rw [runTicks_append]
    rfl
  rw [pollBreak?_eq, Option.map_eq_none_iff, handlers_stopping, ticksBreak?_eq_none_iff] at hticks
  constructor
  · intro hfits
    obtain ⟨hbefore, hlast⟩ := hticks.mp hfits.ticks
    exact ⟨hbefore, hlast, hwindow ▸ hfits.flushed rfl⟩
  · rintro ⟨hbefore, hlast, hslots⟩
    exact ⟨hticks.mpr ⟨hbefore, hlast⟩, fun _ => hwindow ▸ hslots⟩

/-- A session that has not ended breaks off with one of its ticks, in its last poll, or with the
slots that it hands out then, or it ends well. -/
theorem stops (hsession : agent.session = some session) (chance : Chance)
    (hlive : agent.IsLive session chance) (exclusive : Bool) :
    Stops agent session chance exclusive := by
  have hstop := stopBreak?_of_live hsession hlive
  refine ⟨?_, ?_, ?_, ?_⟩
  · rw [hstop, workBreak?_eq_none_iff]
    exact chanceFits_iff agent session chance
  · exact fun hnone => ⟨stopChecked_of_none hnone exclusive, stop_of_live hsession hlive exclusive⟩
  · intro hsome
    obtain ⟨broken, hbroken⟩ := Option.ne_none_iff_exists'.mp hsome
    rw [stopChecked, hbroken]
  · intro before hbefore pass hpass
    have hlast : ticksBreak? [.poll] before.1 before.2 =
        some ({ before.1 with tally := pass.intake.tally },
          dispatchChecked session.handlers pass.emitted) := by
      rw [ticksBreak?, tickBreak?, pollBreak?_eq, handlers_stopping, hpass, Option.map_some]
    rw [stopChecked, hstop, workBreak?, Chance.due, if_pos rfl]
    dsimp only
    rw [ticksBreak?_stopping hbefore, hlast]
    rfl

/-- What rings hold can make sums outgrow their words.  Whatever the intake and the rings of a
session, a poll breaks off exactly if a count that it would report does not fit a word or the log
is handed a slot whose sums do not.  It then does so with the first record for which that is so,
and nothing is released.  Otherwise what it reports is true.  As long as what is unread and the
window leave room for the other counts, only the samples reported lost can be too many.  The
report of the message counts breaks off exactly if their sum does not fit a word.  A session gets
through what falls due up to the first poll or report that breaks off, and ending it comes to one
more poll, with the slots handed out last. -/
theorem breaks_off_iff (agent : Agent) (session : Session) :
    (agent.intakeOf session).Sums session.handlers session.readers agent.memory ∧
      (∀ broken events, agent.pollBreak? session = some (broken, events) →
        PollBreaks agent session broken events) ∧
      (agent.reportBreak? = none ↔ agent.tally.snapshot.1.total < 2 ^ 64) ∧
      (∀ ticks, Runs agent session ticks) ∧
      (agent.session = some session → ∀ chance, agent.IsLive session chance →
        ∀ exclusive, Stops agent session chance exclusive) :=
  ⟨Intake.sums _ _ _ _, fun _ _ => pollBreaks, reportBreak?_eq_none_iff, runs agent session,
    stops⟩

/-- A ring says twice that half as many samples were lost as a word can count. -/
def lossy : Agent :=
  ((Site.idle {} [Feed.narrow]).run
    [.onSlot "slots", .start,
      .produce 0 (.write (Message.encodeLostNotice { id := 0, lost := 9223372036854775808 })
        lostRecordType),
      .produce 0 (.write (Message.encodeLostNotice { id := 0, lost := 9223372036854775808 })
        lostRecordType),
      .produce 0 .finishWrite]).agent

/-- The session of the agent that is about to lose count. -/
def lossySession : Session :=
  lossy.session.get (by decide +kernel)

/-- It breaks off in its last poll, and releases nothing. -/
theorem breaks_off_iff_lossy :
    let chance : Chance := { reading := 1000000000 }
    Intake.space lossySession.readers lossy.memory * (lossySession.window.breadth + 1) < 2 ^ 64 ∧
      lossy.session = some lossySession ∧ lossy.IsLive lossySession chance ∧
      (lossy.intakeOf lossySession).Sums lossySession.handlers lossySession.readers
        lossy.memory ∧
      lossy.stopBreak? chance ≠ none ∧ (lossy.stopChecked chance false).2.2 = some .pollTask ∧
      (lossy.stopChecked chance false).1.memory = lossy.memory := by
  intro chance
  have hroom : Intake.space lossySession.readers lossy.memory *
      (lossySession.window.breadth + 1) < 2 ^ 64 := by decide +kernel
  have hsession : lossy.session = some lossySession := (Option.some_get _).symm
  have hlive : lossy.IsLive lossySession chance := .inr (by decide +kernel)
  have hlost : ((Intake.batchOf lossySession.readers lossy.memory).map Intake.lostIn).sum =
      2 ^ 64 := by decide +kernel
  obtain ⟨hsums, -, -, -, hstops⟩ := breaks_off_iff lossy lossySession
  have hstop := hstops hsession chance hlive false
  have hbreak : (lossy.intakeOf lossySession).breakOff? lossySession.handlers
      lossySession.readers lossy.memory ≠ none := fun hnone =>
    absurd ((hsums.breakOff?_eq_none_iff_lost hroom).mp hnone).1
      (by rw [hlost]; exact lt_irrefl _)
  obtain ⟨pass, hpass⟩ := Option.ne_none_iff_exists'.mp hbreak
  have hstopBreak : lossy.stopBreak? chance ≠ none := fun hnone =>
    hbreak (hstop.stopBreak?_eq_none_iff.mp hnone).2.1
  exact ⟨hroom, hsession, hlive, hsums, hstopBreak, hstop.fails hstopBreak,
    hstop.unreleased rfl pass hpass⟩

/-- Two entities spend half of what a word can count in the same slot, and only the log is told
of it. -/
def busy : Agent :=
  ((Site.idle {} [Feed.narrow]).run
    [.start,
      .produce 0 (.write (Message.encodeMeasurement
        { entity := 1, cycles := 9223372036854775808, instructions := 1, cacheMisses := 1,
          endTime := 2500000, duration := 100000 }) sampleRecordType),
      .produce 0 (.write (Message.encodeMeasurement
        { entity := 2, cycles := 9223372036854775808, instructions := 1, cacheMisses := 2,
          endTime := 2500000, duration := 100000 }) sampleRecordType),
      .produce 0 .finishWrite]).agent

/-- The samples lost outgrow a word in the middle of a batch, which stays unreleased, and the
cycles of a slot do so after the last batch. -/
theorem not_bounded_lossy :
    let chance : Chance := { reading := 1000000000 }
    ((Intake.batchOf lossySession.readers lossy.memory).map Intake.lostIn).sum = 2 ^ 64 ∧
      (lossy.stopChecked chance false).2 = ([], some .pollTask) ∧
      ((lossy.stopChecked chance false).1.memory.region 0).tail ≠
        ((lossy.stopChecked chance false).1.memory.region 0).head ∧
      (busy.stopChecked chance false).2 = ([], some .pollTask) ∧
      ((busy.stopChecked chance false).1.memory.region 0).tail =
        ((busy.stopChecked chance false).1.memory.region 0).head := by
  decide +kernel

end CacheMeter.Agent
