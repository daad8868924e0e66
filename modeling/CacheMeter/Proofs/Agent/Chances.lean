import Mathlib
import CacheMeter.Proofs.Agent.Sums

/-!
# Chances to run

With a chance a session does what falls due, one tick after the other, and at the end of its last
one it hands out the slots still held.  It breaks off at the first tick with a sum that outgrows
its word.  Ticks before it are done and stay done.

Main results:

- Theorem `Agent.tickBreak?_eq_none_iff`: a tick gets through exactly if its sums fit.
- Theorem `Agent.tickBreaks`: where a session breaks off among its ticks.
- Theorem `Agent.reached_of_break`: the ticks that it gets through before.
- Theorem `Agent.runBreak?_eq_none_iff`: it gets through a chance exactly if all sums fit.
- Theorem `Agent.stopChecked_of_session`: a sleep and a stop are what comes of a chance.
-/

namespace CacheMeter

open Merge

namespace Agent

variable {agent : Agent} {session : Session}

/-! ## One poll -/

/-- What a session polls with. -/
def intakeOf (agent : Agent) (session : Session) : Intake where
  window := session.window
  roster := session.roster
  tally := agent.tally

/-- A poll that breaks off leaves the rings as they are, and its handlers have been told the
beginning of what there was to tell. -/
structure PollBreaks (agent : Agent) (session : Session) (broken : Agent)
    (events : List AgentEvent) : Prop where
  memory_eq : broken.memory = agent.memory
  events_begin : events <+: dispatch session.handlers
    ((agent.intakeOf session).poll session.readers agent.memory).emitted

/-- A poll breaks off where its pass does. -/
theorem pollBreak?_eq (agent : Agent) (session : Session) :
    agent.pollBreak? session =
      ((agent.intakeOf session).breakOff? session.handlers session.readers agent.memory).map
        fun pass => ({ agent with tally := pass.intake.tally },
          dispatchChecked session.handlers pass.emitted) := rfl

/-- A poll that breaks off does so in the middle of its batch. -/
theorem pollBreaks {broken : Agent} {events : List AgentEvent}
    (h : agent.pollBreak? session = some (broken, events)) :
    PollBreaks agent session broken events := by
  rw [pollBreak?_eq, Option.map_eq_some_iff] at h
  obtain ⟨pass, hpass, heq⟩ := h
  obtain ⟨rfl, rfl⟩ := Prod.mk.inj heq
  obtain ⟨more, hmore⟩ := (Intake.breaksAt_of_eq_some _ _ _ _ hpass).exists_emitted
  refine ⟨rfl, ?_⟩
  rw [Intake.emitted_poll, Intake.digested, ← Intake.batchOf, hmore]
  exact dispatchChecked_begins _ _ _

/-- All sums that a session makes in a poll fit their words: those of the report, and those of
the log for the slots that it is handed. -/
structure PollFits (agent : Agent) (session : Session) : Prop where
  report : ∀ summary,
    ((agent.intakeOf session).poll session.readers agent.memory).result = .ok summary →
      summary.fits = true
  logged : .log ∈ session.handlers → ∀ emission ∈
    ((agent.intakeOf session).poll session.readers agent.memory).emitted,
      LogLine.Bounded emission.slot

/-- A poll gets through exactly if its sums fit. -/
theorem pollBreak?_eq_none_iff : agent.pollBreak? session = none ↔ agent.PollFits session := by
  have hsums := Intake.sums (agent.intakeOf session) session.handlers session.readers agent.memory
  rw [pollBreak?_eq, Option.map_eq_none_iff, hsums.breakOff?_eq_none_iff]
  exact ⟨fun ⟨hreport, hlogged⟩ => ⟨hreport, hlogged⟩, fun h => ⟨h.report, h.logged⟩⟩

/-! ## Ticks -/

/-- A report gets through exactly if the sum of all messages counted fits a word. -/
theorem reportBreak?_eq_none_iff :
    agent.reportBreak? = none ↔ agent.tally.snapshot.1.total < 2 ^ 64 := by
  rw [← Tally.Snapshot.fits_iff, reportBreak?]
  dsimp only
  split_ifs with hfits
  · exact iff_of_true rfl hfits
  · exact iff_of_false not_false hfits

/-- What breaks off at a tick leaves the agent as it was, but for the counts. -/
theorem broken_tick_eq {tick : Tick} {broken : Agent} {events : List AgentEvent}
    (h : agent.tickBreak? session tick = some (broken, events)) :
    broken = { agent with tally := broken.tally } := by
  cases tick with
  | poll =>
    obtain ⟨pass, -, heq⟩ := Option.map_eq_some_iff.mp h
    obtain ⟨rfl, -⟩ := Prod.mk.inj heq
    rfl
  | report =>
    rw [tickBreak?, reportBreak?] at h
    dsimp only at h
    split_ifs at h
    obtain ⟨rfl, -⟩ := Prod.mk.inj (Option.some.inj h)
    rfl

/-- All sums that a session makes with a tick fit their words. -/
def TickFits (agent : Agent) (session : Session) : Tick → Prop
  | .poll => agent.PollFits session
  | .report => agent.tally.snapshot.1.total < 2 ^ 64

/-- A session gets through a tick exactly if its sums fit. -/
theorem tickBreak?_eq_none_iff {tick : Tick} :
    agent.tickBreak? session tick = none ↔ agent.TickFits session tick := by
  cases tick with
  | poll => exact pollBreak?_eq_none_iff
  | report => exact reportBreak?_eq_none_iff

/-- A session breaks off at a tick that is then due and breaks off, when nothing did before.
What handlers were told before stays told. -/
structure TickBreaks (agent : Agent) (session : Session) (ticks : List Tick) (broken : Agent)
    (events : List AgentEvent) : Prop where
  exists_tick : ∃ front tick back later, ticks = front ++ tick :: back ∧
    ticksBreak? front agent session = none ∧
    (runTicks front agent session).1.tickBreak? (runTicks front agent session).2.1 tick =
      some (broken, later) ∧
    events = (runTicks front agent session).2.2 ++ later

/-- A break may come after another tick. -/
theorem TickBreaks.cons {tick : Tick} {ticks : List Tick} {broken : Agent}
    {events : List AgentEvent} (hnone : agent.tickBreak? session tick = none)
    (h : TickBreaks (agent.runTick session tick).1 (agent.runTick session tick).2.1 ticks broken
      events) :
    TickBreaks agent session (tick :: ticks) broken
      ((agent.runTick session tick).2.2 ++ events) where
  exists_tick := by
    obtain ⟨front, last, back, later, rfl, hfront, hlast, rfl⟩ := h.exists_tick
    refine ⟨tick :: front, last, back, later, rfl, ?_, hlast, (List.append_assoc _ _ _).symm⟩
    rw [ticksBreak?, hnone]
    exact congrArg (Option.map _) hfront

/-- Where a session breaks off among its ticks. -/
theorem tickBreaks {ticks : List Tick} {broken : Agent} {events : List AgentEvent}
    (h : ticksBreak? ticks agent session = some (broken, events)) :
    TickBreaks agent session ticks broken events := by
  induction ticks generalizing agent session events with
  | nil => exact absurd h nofun
  | cons tick rest ih =>
    rw [ticksBreak?] at h
    cases htick : agent.tickBreak? session tick with
    | some first =>
      rw [htick] at h
      obtain rfl := Option.some.inj h
      exact ⟨[], tick, rest, events, rfl, rfl, htick, rfl⟩
    | none =>
      rw [htick] at h
      obtain ⟨⟨_, later⟩, hlater, heq⟩ := Option.map_eq_some_iff.mp h
      obtain ⟨rfl, rfl⟩ := Prod.mk.inj heq
      exact (ih hlater).cons htick

/-- Ticks are done one after the other. -/
theorem runTicks_append (front back : List Tick) (agent : Agent) (session : Session) :
    runTicks (front ++ back) agent session =
      let before := runTicks front agent session
      let after := runTicks back before.1 before.2.1
      (after.1, after.2.1, before.2.2 ++ after.2.2) := by
  induction front generalizing agent session with
  | nil => rfl
  | cons tick rest ih => simp only [List.cons_append, runTicks, ih, List.append_assoc]

/-- A session breaks off among the first ticks, or among those that come after them. -/
theorem ticksBreak?_append (front back : List Tick) (agent : Agent) (session : Session) :
    ticksBreak? (front ++ back) agent session =
      let before := runTicks front agent session
      (ticksBreak? front agent session).or
        ((ticksBreak? back before.1 before.2.1).map fun (broken, later) =>
          (broken, before.2.2 ++ later)) := by
  induction front generalizing agent session with
  | nil => exact Option.map_id'.symm
  | cons tick rest ih =>
    simp only [List.cons_append, ticksBreak?, ih]
    cases agent.tickBreak? session tick with
    | some broken => rfl
    | none => simp [Option.map_or, Function.comp_def, runTicks]

/-- It breaks off among one tick exactly if the tick does. -/
theorem ticksBreak?_singleton {tick : Tick} : ticksBreak? [tick] agent session = none ↔
    agent.tickBreak? session tick = none := by
  rw [ticksBreak?]
  cases agent.tickBreak? session tick <;> simp [ticksBreak?]

/-- A tick that is due and breaks off is not passed over. -/
theorem ticksBreak?_append_cons {front back : List Tick} {tick : Tick}
    (htick : (runTicks front agent session).1.tickBreak? (runTicks front agent session).2.1 tick ≠
      none) :
    ticksBreak? (front ++ tick :: back) agent session ≠ none := by
  obtain ⟨broken, hbroken⟩ := Option.ne_none_iff_exists'.mp htick
  rw [ticksBreak?_append, ne_eq, Option.or_eq_none_iff, ticksBreak?, hbroken]
  exact fun hnone => Option.some_ne_none _ (Option.map_eq_none_iff.mp hnone.2)

/-- How far a session gets with its ticks. -/
structure Runs (agent : Agent) (session : Session) (ticks : List Tick) : Prop where
  ticksBreak?_eq_none_iff : ticksBreak? ticks agent session = none ↔
    ∀ front tick back, ticks = front ++ tick :: back →
      (runTicks front agent session).1.tickBreak? (runTicks front agent session).2.1 tick = none
  tickBreaks : ∀ broken events, ticksBreak? ticks agent session = some (broken, events) →
    TickBreaks agent session ticks broken events

/-- A session gets through its ticks unless one of them breaks off. -/
theorem runs (agent : Agent) (session : Session) (ticks : List Tick) :
    Runs agent session ticks where
  ticksBreak?_eq_none_iff := by
    constructor
    · rintro hnone front tick back rfl
      by_contra htick
      exact ticksBreak?_append_cons htick hnone
    · intro hall
      by_contra hsome
      obtain ⟨⟨broken, events⟩, hbroken⟩ := Option.ne_none_iff_exists'.mp hsome
      obtain ⟨front, tick, back, later, hticks, -, hlast, -⟩ := (tickBreaks hbroken).exists_tick
      exact Option.some_ne_none _ (hlast.symm.trans (hall front tick back hticks))
  tickBreaks _ _ := tickBreaks

/-- The ticks that a session gets through: all, or those before the first that breaks off. -/
def reached : List Tick → Agent → Session → List Tick
  | [], _, _ => []
  | tick :: ticks, agent, session =>
    match agent.tickBreak? session tick with
    | some _ => []
    | none =>
      tick :: reached ticks (agent.runTick session tick).1 (agent.runTick session tick).2.1

/-- A session that gets through some ticks goes on with the next. -/
theorem reached_append {front : List Tick} (h : ticksBreak? front agent session = none)
    (back : List Tick) :
    reached (front ++ back) agent session =
      front ++ reached back (runTicks front agent session).1
        (runTicks front agent session).2.1 := by
  induction front generalizing agent session with
  | nil => rfl
  | cons tick rest ih =>
    rw [ticksBreak?] at h
    cases htick : agent.tickBreak? session tick with
    | some broken => simp [htick] at h
    | none =>
      rw [htick] at h
      rw [List.cons_append, reached, htick]
      exact congrArg _ (ih (Option.map_eq_none_iff.mp h))

/-- Without a break, a session gets through all of its ticks. -/
theorem reached_of_none {ticks : List Tick} (h : ticksBreak? ticks agent session = none) :
    reached ticks agent session = ticks := by
  have hall := reached_append h []
  rwa [List.append_nil, reached, List.append_nil] at hall

/-- If it breaks off, then at the tick after those that it gets through. -/
theorem reached_of_break {ticks : List Tick} {broken : Agent} {events : List AgentEvent}
    (h : ticksBreak? ticks agent session = some (broken, events)) :
    let before := runTicks (reached ticks agent session) agent session
    ∃ tick later, before.1.tickBreak? before.2.1 tick = some (broken, later) ∧
      events = before.2.2 ++ later := by
  obtain ⟨front, tick, back, later, rfl, hfront, hlast, rfl⟩ := (tickBreaks h).exists_tick
  have hreached : reached (front ++ tick :: back) agent session = front := by
    rw [reached_append hfront, reached, hlast, List.append_nil]
  rw [hreached]
  exact ⟨tick, later, hlast, rfl⟩

/-- All sums of some ticks fit their words, each in the state in which it finds the session. -/
def TicksFit (ticks : List Tick) (agent : Agent) (session : Session) : Prop :=
  ∀ front tick back, ticks = front ++ tick :: back →
    (runTicks front agent session).1.TickFits (runTicks front agent session).2.1 tick

/-- A session gets through its ticks exactly if all their sums fit. -/
theorem ticksBreak?_eq_none_iff {ticks : List Tick} :
    ticksBreak? ticks agent session = none ↔ TicksFit ticks agent session := by
  rw [(runs agent session ticks).ticksBreak?_eq_none_iff]
  simp only [TicksFit, tickBreak?_eq_none_iff]

/-! ## What work leaves as it is -/

/-- Work moves on the rings, the counts and the slots being filled, and nothing else of an agent. -/
structure Frame (agent : Agent) (session : Session)
    (outcome : Agent × Session × List AgentEvent) : Prop where
  agent_eq : outcome.1 = { agent with memory := outcome.1.memory, tally := outcome.1.tally }
  handlers_eq : outcome.2.1.handlers = session.handlers

section Frames

variable {outcome : Agent × Session × List AgentEvent}

/-- The settings stay. -/
theorem Frame.settings_eq (h : Frame agent session outcome) :
    outcome.1.settings = agent.settings := by
  rw [h.agent_eq]

/-- An agent that was stopped stays so. -/
theorem Frame.cancelled_eq (h : Frame agent session outcome) :
    outcome.1.cancelled = agent.cancelled := by
  rw [h.agent_eq]

/-- What one piece of work leaves as it is, and the next one, both leave. -/
theorem Frame.trans {middle later : Agent × Session × List AgentEvent}
    (h : Frame agent session middle) (h' : Frame middle.1 middle.2.1 later) :
    Frame agent session later where
  agent_eq := by
    have hlater := h'.agent_eq
    rw [h.agent_eq] at hlater
    exact hlater
  handlers_eq := h'.handlers_eq.trans h.handlers_eq

/-- A tick does not end a session, and leaves the rest as it is. -/
theorem frame_runTick (agent : Agent) (session : Session) (tick : Tick) :
    Frame agent session (agent.runTick session tick) ∧
      (agent.runTick session tick).2.1.phase = session.phase := by
  cases tick <;> exact ⟨⟨rfl, rfl⟩, rfl⟩

/-- Nor do any ticks. -/
theorem frame_runTicks (ticks : List Tick) (agent : Agent) (session : Session) :
    Frame agent session (runTicks ticks agent session) ∧
      (runTicks ticks agent session).2.1.phase = session.phase := by
  induction ticks generalizing agent session with
  | nil => exact ⟨⟨rfl, rfl⟩, rfl⟩
  | cons tick rest ih =>
    obtain ⟨hfirst, hphase⟩ := frame_runTick agent session tick
    obtain ⟨hrest, hsame⟩ := ih (agent.runTick session tick).1 (agent.runTick session tick).2.1
    have hall := hfirst.trans hrest
    exact ⟨⟨hall.agent_eq, hall.handlers_eq⟩, hsame.trans hphase⟩

end Frames

/-! ## A chance -/

/-- A session that gets a chance is running if it was, or if it can begin. -/
theorem phase_enter_iff {session : Session} {settings : Settings} {reading : Nat} :
    (session.enter settings reading).phase = .running ↔
      session.phase = .running ∨
        session.phase = .waiting ∧ settings.canBegin reading = true := by
  rw [Session.enter]
  cases session.phase with
  | waiting =>
    simp only [Phase.entered]
    split_ifs with hbegins <;> simp [hbegins]
  | running | finished | failed => simp [Phase.entered]

/-- All sums that a running session makes with a chance fit their words: those of the polls that
are due, and if it is to stop those of the log for the slots handed out last. -/
structure ChanceFits (agent : Agent) (session : Session) (chance : Chance) : Prop where
  ticks : TicksFit (chance.due agent.cancelled) agent session
  flushed : agent.cancelled = true → .log ∈ session.handlers → ∀ slot ∈
    (runTicks (chance.due agent.cancelled) agent session).2.1.window.slots, LogLine.Bounded slot

/-- Handing out the slots still held gets through exactly if the log can add them up. -/
theorem flushBreak?_eq_none_iff : agent.flushBreak? session = none ↔
    (.log ∈ session.handlers → ∀ slot ∈ session.window.slots, LogLine.Bounded slot) := by
  have hall : Handler.allFit session.handlers
      (Intake.drain { window := session.window, roster := session.roster,
                      tally := agent.tally }).1 = true ↔
        (.log ∈ session.handlers → ∀ slot ∈ session.window.slots, LogLine.Bounded slot) := by
    rw [Handler.allFit_iff, Intake.drain, List.forall_mem_map]
    rfl
  rw [← hall, flushBreak?]
  dsimp only
  split_ifs with hfits
  · exact iff_of_true rfl hfits
  · exact iff_of_false not_false hfits

/-- A running session gets through a chance exactly if all sums fit. -/
theorem workBreak?_eq_none_iff {chance : Chance} :
    agent.workBreak? session chance = none ↔ agent.ChanceFits session chance := by
  have hsplit : agent.ChanceFits session chance ↔
      TicksFit (chance.due agent.cancelled) agent session ∧
        (agent.cancelled = true → .log ∈ session.handlers → ∀ slot ∈
          (runTicks (chance.due agent.cancelled) agent session).2.1.window.slots,
          LogLine.Bounded slot) :=
    ⟨fun h => ⟨h.ticks, h.flushed⟩, fun ⟨hticks, hflushed⟩ => ⟨hticks, hflushed⟩⟩
  rw [hsplit, ← ticksBreak?_eq_none_iff, workBreak?]
  cases hticks : ticksBreak? (chance.due agent.cancelled) agent session with
  | some broken => simp
  | none =>
    let worked := runTicks (chance.due agent.cancelled) agent session
    have hflush : worked.1.flushBreak? worked.2.1 = none ↔ _ := flushBreak?_eq_none_iff
    obtain ⟨hframe, -⟩ := frame_runTicks (chance.due agent.cancelled) agent session
    rw [hframe.handlers_eq] at hflush
    dsimp only
    rw [hframe.cancelled_eq]
    by_cases hcancelled : agent.cancelled = true
    · rw [if_pos hcancelled, Option.map_eq_none_iff, hflush]
      exact ⟨fun hslots => ⟨rfl, fun _ => hslots⟩, fun ⟨_, hslots⟩ => hslots hcancelled⟩
    · rw [if_neg hcancelled]
      exact ⟨fun _ => ⟨rfl, fun hset => absurd hset hcancelled⟩, fun _ => rfl⟩

/-- A session gets through a chance exactly if it does not go on with it or all sums fit. -/
theorem runBreak?_eq_none_iff {chance : Chance} :
    agent.runBreak? session chance = none ↔
      ((session.enter agent.settings chance.reading).phase = .running →
        agent.ChanceFits (session.enter agent.settings chance.reading) chance) := by
  rw [runBreak?]
  split_ifs with hrunning
  · rw [workBreak?_eq_none_iff]
    exact ⟨fun h _ => h, fun h => h hrunning⟩
  · exact iff_of_true rfl fun h => absurd h hrunning

/-! ## What comes of a chance -/

/-- What comes of a chance.  A session that breaks off has failed. -/
def outcome (agent : Agent) (session : Session) (chance : Chance) :
    Agent × Session × List AgentEvent :=
  match agent.runBreak? session chance with
  | none => agent.runSession session chance
  | some (broken, events) => (broken, { session with phase := .failed }, events)

/-- A session that was not told to stop does what falls due. -/
theorem work_of_live (hlive : agent.cancelled = false) (chance : Chance) :
    agent.work session chance = runTicks chance.ticks agent session := by
  obtain ⟨hframe, -⟩ := frame_runTicks chance.ticks agent session
  rw [work, hlive, Chance.due, if_neg Bool.false_ne_true]
  dsimp only
  rw [hframe.cancelled_eq, hlive, if_neg Bool.false_ne_true]

/-- Otherwise it polls once more, and hands out the slots still held. -/
theorem work_of_cancelled (hcancelled : agent.cancelled = true) (chance : Chance) :
    agent.work session chance =
      let worked := runTicks (chance.ticks ++ [.poll]) agent session
      let flushed := worked.1.flush worked.2.1
      (worked.1, flushed.1, worked.2.2 ++ flushed.2) := by
  obtain ⟨hframe, -⟩ := frame_runTicks (chance.ticks ++ [.poll]) agent session
  rw [work, hcancelled, Chance.due, if_pos rfl]
  dsimp only
  rw [hframe.cancelled_eq, hcancelled, if_pos rfl]

/-- A session does not go on with a chance, gets through it, or breaks off. -/
theorem outcome_cases (agent : Agent) (session : Session) (chance : Chance) :
    let entered := session.enter agent.settings chance.reading
    (entered.phase ≠ .running ∧ agent.outcome session chance = (agent, entered, [])) ∨
      (entered.phase = .running ∧ agent.ChanceFits entered chance ∧
        agent.outcome session chance = agent.work entered chance) ∨
      (entered.phase = .running ∧ ¬ agent.ChanceFits entered chance ∧ ∃ broken events,
        agent.workBreak? entered chance = some (broken, events) ∧
          agent.outcome session chance = (broken, { session with phase := .failed }, events)) := by
  intro entered
  rw [outcome, runBreak?, runSession]
  by_cases hrunning : entered.phase = .running
  · simp only [entered, hrunning, if_true, true_and, ne_eq, not_true_eq_false, false_and, false_or]
    cases hbreak : agent.workBreak? entered chance with
    | none =>
      exact .inl ⟨workBreak?_eq_none_iff.mp hbreak, rfl⟩
    | some pair =>
      refine .inr ⟨fun hfits => ?_, pair.1, pair.2, rfl, rfl⟩
      exact Option.some_ne_none _ (hbreak.symm.trans (workBreak?_eq_none_iff.mpr hfits))
  · exact .inl ⟨hrunning, by simp only [entered, hrunning, if_false]⟩

/-- A session that breaks off leaves the agent behind as its last complete tick did, but for the
counts. -/
theorem broken_eq {chance : Chance} {broken : Agent} {events : List AgentEvent}
    (h : agent.workBreak? session chance = some (broken, events)) :
    broken =
      { (runTicks (reached (chance.due agent.cancelled) agent session) agent session).1 with
        tally := broken.tally } := by
  rw [workBreak?] at h
  cases hticks : ticksBreak? (chance.due agent.cancelled) agent session with
  | some first =>
    rw [hticks] at h
    obtain rfl := Option.some.inj h
    obtain ⟨tick, later, htick, -⟩ := reached_of_break hticks
    exact broken_tick_eq htick
  | none =>
    rw [hticks] at h
    rw [reached_of_none hticks]
    dsimp only at h
    split_ifs at h with hcancelled
    obtain ⟨pair, hflush, heq⟩ := Option.map_eq_some_iff.mp h
    rw [flushBreak?] at hflush
    dsimp only at hflush
    split_ifs at hflush
    obtain rfl := Option.some.inj hflush
    obtain ⟨rfl, -⟩ := Prod.mk.inj heq
    rfl

/-- Whatever comes of a chance leaves the rest as it is. -/
theorem frame_outcome (agent : Agent) (session : Session) (chance : Chance) :
    Frame agent session (agent.outcome session chance) := by
  obtain ⟨-, hnothing⟩ | ⟨-, -, hwork⟩ | ⟨-, -, broken, events, hbreak, hbroken⟩ :=
    agent.outcome_cases session chance
  · rw [hnothing]
    exact ⟨rfl, rfl⟩
  · obtain ⟨hframe, -⟩ := frame_runTicks (chance.due agent.cancelled) agent
      (session.enter agent.settings chance.reading)
    rw [hwork, work]
    dsimp only
    split_ifs
    · exact ⟨hframe.agent_eq, hframe.handlers_eq⟩
    · exact ⟨hframe.agent_eq, hframe.handlers_eq⟩
  · obtain ⟨hframe, -⟩ := frame_runTicks
      (reached (chance.due agent.cancelled) agent (session.enter agent.settings chance.reading))
      agent (session.enter agent.settings chance.reading)
    have hagent := broken_eq hbreak
    rw [hframe.agent_eq] at hagent
    rw [hbroken]
    refine ⟨?_, rfl⟩
    rw [hagent]

/-- Asleep, an agent gives its session a chance. -/
theorem sleepChecked_of_session (hsession : agent.session = some session) (chance : Chance) :
    agent.sleepChecked chance =
      ({ (agent.outcome session chance).1 with
          session := some (agent.outcome session chance).2.1 },
        (agent.outcome session chance).2.2) := by
  have hbreak : agent.sleepBreak? chance = agent.runBreak? session chance := by
    rw [sleepBreak?, hsession, Option.bind_some]
  rw [sleepChecked, outcome, hbreak]
  cases agent.runBreak? session chance with
  | none => simp only [sleep, hsession]
  | some broken => simp only [hsession, Option.map_some]

/-- Without a session nothing comes of it. -/
theorem sleepChecked_of_none_session (hnone : agent.session = none) (chance : Chance) :
    agent.sleepChecked chance = (agent, []) := by
  have hbreak : agent.sleepBreak? chance = none := by rw [sleepBreak?, hnone, Option.bind_none]
  rw [sleepChecked_of_none hbreak]
  simp only [sleep, hnone]

/-- A stop gives the session its last chance, and closes the rings unless it has failed. -/
theorem stopChecked_of_session (hsession : agent.session = some session) (chance : Chance)
    (exclusive : Bool) :
    agent.stopChecked chance exclusive =
      let last := { agent with cancelled := true }.outcome session chance
      if last.2.1.phase = .failed then ({ last.1 with session := none }, last.2.2, some .pollTask)
      else (closeUnlessShared { last.1 with session := none } exclusive, last.2.2, none) := by
  have hbreak : agent.stopBreak? chance =
      { agent with cancelled := true }.runBreak? session chance := by
    rw [stopBreak?, hsession, Option.bind_some]
  rw [stopChecked, outcome, hbreak]
  cases { agent with cancelled := true }.runBreak? session chance with
  | none => simp only [stop, hsession]
  | some broken => simp only [if_true]

/-- Without a session a stop closes the rings. -/
theorem stopChecked_of_none_session (hnone : agent.session = none) (chance : Chance)
    (exclusive : Bool) :
    agent.stopChecked chance exclusive =
      ({ agent with cancelled := true }.closeUnlessShared exclusive, [], none) := by
  have hbreak : agent.stopBreak? chance = none := by rw [stopBreak?, hnone, Option.bind_none]
  rw [stopChecked_of_none hbreak]
  simp only [stop, hnone]

end Agent

end CacheMeter
