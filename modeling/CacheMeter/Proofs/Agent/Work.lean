import Mathlib
import CacheMeter.Proofs.Agent.Chances
import CacheMeter.Proofs.Merge.Rebinding

/-!
# A session at work

While its session runs, all that an agent does to the rings is to poll them, and all that it
does with the slots is to hand them to the handlers of the session.  A session is therefore
followed by a network that is polled as often, and its slots by what taking in the records of
that network gives.

Main results:

- Structure `HandedOn`: what handlers are told, read off the events.
- Theorem `Shift.Tied.runTicks_induction`: what polls and reports keep, all that falls due keeps.
- Theorem `Shift.Tied.kept_chanced`: the rings after a session had a chance to run.
- Theorem `Shift.Fed.chanced`: what was handed on with a chance that it got through.
- Theorem `Shift.Fed.ended`: what was handed on with its last chance.
-/

namespace CacheMeter

open Merge

/-! ## What handlers are told -/

/-- The slots that handlers registered by a name were handed. -/
def deliveredTo (name : String) (events : List AgentEvent) : List Emission :=
  events.filterMap fun
    | .delivered handler emission => if handler = name then some emission else none
    | .logged _ => none

section Handing

variable {handlers : List Handler} {emissions more : List Emission}
  {events later : List AgentEvent}

/-- What a handler was handed first and then is what it was handed. -/
theorem deliveredTo_append (name : String) (events later : List AgentEvent) :
    deliveredTo name (events ++ later) = deliveredTo name events ++ deliveredTo name later :=
  List.filterMap_append

/-- Lines of the log hand nothing to it. -/
@[simp]
theorem deliveredTo_logged (name : String) (lines : List LogLine) :
    deliveredTo name (lines.map .logged) = [] := by
  rw [deliveredTo, List.filterMap_map]
  exact List.filterMap_eq_nil_iff.mpr fun _ _ => rfl

/-- Every handler of the name is handed the slot. -/
theorem deliveredTo_handlers (name : String) (handlers : List Handler) (emission : Emission) :
    deliveredTo name (handlers.flatMap (Handler.events emission)) =
      List.replicate (handlers.count (.named name)) emission := by
  induction handlers with
  | nil => rfl
  | cons handler rest ih =>
    rw [List.flatMap_cons, deliveredTo_append, ih]
    cases handler with
    | named other =>
      by_cases hsame : other = name
      · subst hsame
        rw [List.count_cons_self, Nat.add_comm, List.replicate_add]
        simp [deliveredTo, Handler.events]
      · rw [List.count_cons_of_ne (by simpa using hsame)]
        simp [deliveredTo, Handler.events, hsame]
    | log =>
      rw [List.count_cons_of_ne (by simp), Handler.events, deliveredTo_logged, List.nil_append]

/-- Every handler of the name is handed every slot, in order. -/
theorem deliveredTo_dispatch (name : String) (handlers : List Handler)
    (emissions : List Emission) :
    deliveredTo name (dispatch handlers emissions) =
      emissions.flatMap fun emission =>
        List.replicate (handlers.count (.named name)) emission := by
  induction emissions with
  | nil => rfl
  | cons emission rest ih =>
    rw [dispatch, List.flatMap_cons, deliveredTo_append, deliveredTo_handlers,
      List.flatMap_cons]
    exact congrArg _ ih

/-- Among the events, the slots were handed to the handlers one after the other, and no
others were. -/
structure HandedOn (handlers : List Handler) (emissions : List Emission)
    (events : List AgentEvent) : Prop where
  dispatched : (dispatch handlers emissions).Sublist events
  /-- A handler gets every slot, as often as it is registered. -/
  delivered : ∀ name, deliveredTo name events =
    emissions.flatMap fun emission => List.replicate (handlers.count (.named name)) emission

/-- Slots handed on first and then are handed on. -/
theorem HandedOn.append (h : HandedOn handlers emissions events)
    (h' : HandedOn handlers more later) :
    HandedOn handlers (emissions ++ more) (events ++ later) where
  dispatched := by
    rw [dispatch, List.flatMap_append]
    exact h.dispatched.append h'.dispatched
  delivered name := by
    rw [deliveredTo_append, h.delivered, h'.delivered, List.flatMap_append]

/-- To hand slots to handlers is to hand them on. -/
theorem handedOn_dispatch (handlers : List Handler) (emissions : List Emission) :
    HandedOn handlers emissions (dispatch handlers emissions) where
  dispatched := List.Sublist.refl _
  delivered name := deliveredTo_dispatch name handlers emissions

/-- Other lines of the log hand on nothing. -/
theorem handedOn_logged (handlers : List Handler) (lines : List LogLine) :
    HandedOn handlers [] (lines.map .logged) where
  dispatched := List.nil_sublist _
  delivered name := deliveredTo_logged name lines

/-- Lines of the log after it change nothing. -/
theorem HandedOn.append_logged (h : HandedOn handlers emissions events)
    (lines : List LogLine) : HandedOn handlers emissions (events ++ lines.map .logged) := by
  have hall := h.append (handedOn_logged handlers lines)
  rwa [List.append_nil] at hall

end Handing

/-! ## Shifts -/

/-- The measurements accepted of the records that came out of a network. -/
def Merge.Network.accepted (net : Network) : List Measurement :=
  net.merged.filterMap Intake.accepted?

/-- A poll after some ticks is one more than there are among them. -/
theorem Merge.Network.served_count_append (net : Network) (ticks : List Tick) :
    Network.served^[(ticks ++ [Tick.poll]).count .poll] net =
      (Network.served^[ticks.count .poll] net).served := by
  rw [List.count_append]
  exact Function.iterate_succ_apply' _ _ _

/-- An agent with its session at work, and the network of their rings. -/
structure Shift where
  agent : Agent
  session : Session
  net : Network

namespace Shift

/-- After the agent did something in which it polled the rings so many times. -/
def after (shift : Shift) (outcome : Agent × Session × List AgentEvent) (polls : Nat) :
    Shift where
  agent := outcome.1
  session := outcome.2.1
  net := Network.served^[polls] shift.net

/-- The rings are those of the network. -/
structure Kept (shift : Shift) : Prop where
  net : shift.net.Sound
  settled : shift.net.Settled
  memory_eq : shift.agent.memory = shift.net.memory

/-- The session reads the rings of the network. -/
structure Tied (shift : Shift) : Prop extends Kept shift where
  merger_eq : shift.net.merger = { readers := shift.session.readers }

variable {shape : Window.Shape} {shift : Shift} {events : List AgentEvent}

/-- What was handed on since the window was empty, and what the window holds, is what the
measurements accepted since then give. -/
def Fed (shape : Window.Shape) (shift : Shift) (events : List AgentEvent) : Prop :=
  ∃ emissions, HandedOn shift.session.handlers emissions events ∧
    Intake.slotsOf emissions = (Window.ingestAll { shape := shape } shift.net.accepted).1 ∧
    shift.session.window = (Window.ingestAll { shape := shape } shift.net.accepted).2

/-- What was handed on depends on the session and on what came out of the network. -/
theorem Fed.congr {other : Shift} (hfed : shift.Fed shape events)
    (hsession : other.session = shift.session)
    (haccepted : other.net.accepted = shift.net.accepted) : other.Fed shape events := by
  rw [Fed, hsession, haccepted]
  exact hfed

/-! ## Polls -/

/-- The feed that a shift amounts to, with nothing emitted yet. -/
def feed (shift : Shift) : Feed where
  net := shift.net
  intake :=
    { window := shift.session.window
      roster := shift.session.roster
      tally := shift.agent.tally }

/-- A poll by the session is a poll of its feed. -/
theorem Tied.poll_eq (h : shift.Tied) :
    shift.feed.intake.poll shift.session.readers shift.agent.memory =
      shift.feed.intake.poll shift.feed.net.merger.readers shift.feed.net.memory := by
  have hreaders : shift.net.merger.readers = shift.session.readers := by rw [h.merger_eq]
  rw [h.memory_eq, feed, hreaders]

/-- After a poll the session reads the rings of the network that was polled too. -/
theorem Tied.pollOnce (h : shift.Tied) :
    (shift.after (shift.agent.pollOnce shift.session) 1).Tied := by
  have hnet : shift.feed.polled.net = shift.net.served := Feed.net_polled h.net
  refine ⟨⟨h.net.served, h.net.settled_served, ?_⟩, ?_⟩
  · have hmemory := congrArg Network.memory hnet
    exact (congrArg Intake.Outcome.memory h.poll_eq).trans hmemory
  · have hmerger := congrArg Network.merger hnet
    rw [Feed.polled, ← h.poll_eq] at hmerger
    exact hmerger.symm

/-- The slots that leave the window in a poll are handed on. -/
theorem Fed.pollOnce (hfed : shift.Fed shape events) (h : shift.Tied) :
    (shift.after (shift.agent.pollOnce shift.session) 1).Fed shape
      (events ++ (shift.agent.pollOnce shift.session).2.2) := by
  rcases hfed with ⟨emissions, hhanded, hslots, hwindow⟩
  have hnet : shift.feed.polled.net = shift.net.served := Feed.net_polled h.net
  have hsound : shift.feed.net.Sound := h.net
  rcases Feed.follows_polled hsound with ⟨measurements, haccepted, hlater, hemitted⟩
  rw [Feed.accepted, hnet] at haccepted
  rw [Feed.polled, ← h.poll_eq] at hlater hemitted
  have haccepted' : (shift.after (shift.agent.pollOnce shift.session) 1).net.accepted =
      shift.net.accepted ++ measurements := haccepted
  have hlater' : (shift.after (shift.agent.pollOnce shift.session) 1).session.window =
      (shift.session.window.ingestAll measurements).2 := hlater
  refine ⟨emissions ++ (shift.feed.intake.poll shift.session.readers shift.agent.memory).emitted,
    ?_, ?_, ?_⟩
  · exact hhanded.append ((handedOn_dispatch _ _).append_logged _)
  · have hnew : Intake.slotsOf
        (shift.feed.intake.poll shift.session.readers shift.agent.memory).emitted =
          (shift.session.window.ingestAll measurements).1 := hemitted
    rw [haccepted', Window.ingestAll_append, Intake.slotsOf_append, hslots, hnew, hwindow]
  · rw [haccepted', Window.ingestAll_append, hlater', hwindow]

/-! ## Ticks -/

/-- After a report of the message counts. -/
def reported (shift : Shift) : Shift :=
  { shift with agent := shift.agent.reportOnce.1 }

/-- Reports leave the rings alone. -/
theorem Tied.reported (h : shift.Tied) : shift.reported.Tied where
  net := h.net
  settled := h.settled
  memory_eq := h.memory_eq
  merger_eq := h.merger_eq

/-- Reports hand on nothing. -/
theorem Fed.reported (hfed : shift.Fed shape events) :
    shift.reported.Fed shape (events ++ shift.agent.reportOnce.2) := by
  rcases hfed with ⟨emissions, hhanded, hslots, hwindow⟩
  exact ⟨emissions, hhanded.append_logged _, hslots, hwindow⟩

/-- Reports leave the rings alone, and polls are polls of the network.  What every poll and every
report keeps besides, all that falls due keeps. -/
theorem Tied.runTicks_induction {motive : Shift → List AgentEvent → Prop}
    (poll : ∀ shift events, shift.Tied → motive shift events →
      motive (shift.after (shift.agent.pollOnce shift.session) 1)
        (events ++ (shift.agent.pollOnce shift.session).2.2))
    (report : ∀ shift events, motive shift events →
      motive shift.reported (events ++ shift.agent.reportOnce.2))
    (h : shift.Tied) (ticks : List Tick) (events : List AgentEvent)
    (hbefore : motive shift events) :
    let worked := Agent.runTicks ticks shift.agent shift.session
    (shift.after worked (ticks.count .poll)).Tied ∧
      motive (shift.after worked (ticks.count .poll)) (events ++ worked.2.2) := by
  induction ticks generalizing shift events with
  | nil => exact ⟨h, (List.append_nil events).symm ▸ hbefore⟩
  | cons tick rest ih =>
    cases tick with
    | poll =>
      rw [List.count_cons_self]
      obtain ⟨htied, hkept⟩ := ih h.pollOnce _ (poll shift events h hbefore)
      rw [List.append_assoc] at hkept
      exact ⟨htied, hkept⟩
    | report =>
      rw [List.count_cons_of_ne (by decide)]
      obtain ⟨htied, hkept⟩ := ih h.reported _ (report shift events hbefore)
      rw [List.append_assoc] at hkept
      exact ⟨htied, hkept⟩

/-- However many ticks fall due, the session reads the rings of the network. -/
theorem Tied.runTicks (h : shift.Tied) (ticks : List Tick) :
    (shift.after (Agent.runTicks ticks shift.agent shift.session) (ticks.count .poll)).Tied :=
  (h.runTicks_induction (motive := fun _ _ => True) (fun _ _ _ _ => trivial)
    (fun _ _ _ => trivial) ticks [] trivial).1

/-- While a session runs, every slot that leaves its window is handed on. -/
theorem Fed.runTicks (hfed : shift.Fed shape events) (h : shift.Tied) (ticks : List Tick) :
    (shift.after (Agent.runTicks ticks shift.agent shift.session) (ticks.count .poll)).Fed shape
      (events ++ (Agent.runTicks ticks shift.agent shift.session).2.2) :=
  (h.runTicks_induction (motive := Fed shape) (fun _ _ htied hfed => hfed.pollOnce htied)
    (fun _ _ hfed => hfed.reported) ticks events hfed).2

/-! ## Ending -/

/-- Everything that was opened since the window was empty has been handed on. -/
def Ended (shape : Window.Shape) (shift : Shift) (events : List AgentEvent) : Prop :=
  ∃ emissions, HandedOn shift.session.handlers emissions events ∧
    Intake.slotsOf emissions =
      (Window.ingestAll { shape := shape } shift.net.accepted).1 ++
        (Window.ingestAll { shape := shape } shift.net.accepted).2.slots

/-- A session that hands out the slots it still holds has handed on all of them. -/
theorem Fed.flush (hfed : shift.Fed shape events) :
    Ended shape { shift with session := (shift.agent.flush shift.session).1 }
      (events ++ (shift.agent.flush shift.session).2) := by
  obtain ⟨emissions, hhanded, hslots, hwindow⟩ := hfed
  let drained := Intake.drain
    { window := shift.session.window, roster := shift.session.roster, tally := shift.agent.tally }
  refine ⟨emissions ++ drained.1, ?_, ?_⟩
  · have hall := (hhanded.append (handedOn_dispatch _ drained.1)).append_logged
      [LogLine.ofFlush drained.1.length]
    rw [List.append_assoc] at hall
    exact hall
  · have hdrained : Intake.slotsOf drained.1 = shift.session.window.slots :=
      Intake.slotsOf_map _ _
    rw [Intake.slotsOf_append, hslots, hdrained, hwindow]

/-! ## A chance to run -/

/-- The session when it gets a chance. -/
def entered (shift : Shift) (chance : Chance) : Shift :=
  { shift with session := shift.session.enter shift.agent.settings chance.reading }

/-- Whether a session that gets a chance goes on. -/
def GoesOn (shift : Shift) (chance : Chance) : Prop :=
  (shift.entered chance).session.phase = .running

/-- It does if it goes on anyway, or if it can begin. -/
theorem goesOn_iff {chance : Chance} : shift.GoesOn chance ↔
    shift.session.phase = .running ∨
      shift.session.phase = .waiting ∧ shift.agent.settings.canBegin chance.reading = true :=
  Agent.phase_enter_iff

instance (shift : Shift) (chance : Chance) : Decidable (shift.GoesOn chance) :=
  inferInstanceAs (Decidable (_ = _))

/-- How often the rings are polled in a chance: as often as polls get through. -/
def polls (shift : Shift) (chance : Chance) : Nat :=
  if shift.GoesOn chance then
    (Agent.reached (chance.due shift.agent.cancelled) shift.agent
      (shift.entered chance).session).count .poll
  else 0

/-- After the session had a chance. -/
def chanced (shift : Shift) (chance : Chance) : Shift :=
  shift.after (shift.agent.outcome shift.session chance) (shift.polls chance)

/-- What others see of the chance. -/
def seen (shift : Shift) (chance : Chance) : List AgentEvent :=
  (shift.agent.outcome shift.session chance).2.2

/-- All sums that the session makes with a chance fit their words. -/
def Fits (shift : Shift) (chance : Chance) : Prop :=
  shift.agent.ChanceFits (shift.entered chance).session chance

/-- To enter a phase is nothing that the rings notice. -/
theorem Tied.entered (h : shift.Tied) (chance : Chance) : (shift.entered chance).Tied where
  net := h.net
  settled := h.settled
  memory_eq := h.memory_eq
  merger_eq := h.merger_eq

/-- A session that does not go on does nothing. -/
theorem chanced_of_not_goesOn {chance : Chance} (hidle : ¬ shift.GoesOn chance) :
    shift.chanced chance = shift.entered chance ∧ shift.seen chance = [] := by
  obtain ⟨-, hnothing⟩ | ⟨hrunning, -⟩ | ⟨hrunning, -⟩ :=
    shift.agent.outcome_cases shift.session chance
  · rw [chanced, seen, hnothing, polls, if_neg hidle]
    exact ⟨rfl, rfl⟩
  · exact absurd hrunning hidle
  · exact absurd hrunning hidle

/-- A session that breaks off has failed. -/
theorem phase_chanced_of_not_fits {chance : Chance} (hon : shift.GoesOn chance)
    (hfits : ¬ shift.Fits chance) : (shift.chanced chance).session.phase = .failed := by
  obtain ⟨hidle, -⟩ | ⟨-, hall, -⟩ | ⟨-, -, broken, events, -, hbroken⟩ :=
    shift.agent.outcome_cases shift.session chance
  · exact absurd hon hidle
  · exact absurd hall hfits
  · rw [chanced, hbroken]
    rfl

/-- A session that has not ended fails if it cannot go on or breaks off. -/
theorem phase_chanced_of_not {chance : Chance}
    (hlive : shift.session.phase = .waiting ∨ shift.session.phase = .running)
    (hnot : ¬ (shift.GoesOn chance ∧ shift.Fits chance)) :
    (shift.chanced chance).session.phase = .failed := by
  by_cases hon : shift.GoesOn chance
  · exact phase_chanced_of_not_fits hon fun hfits => hnot ⟨hon, hfits⟩
  · rw [(chanced_of_not_goesOn hon).1]
    rw [goesOn_iff] at hon
    rcases hlive with hwaiting | hrunning
    · have hrefused : ¬ shift.agent.settings.canBegin chance.reading = true :=
        fun hbegins => hon (.inr ⟨hwaiting, hbegins⟩)
      simp only [Shift.entered, Session.enter, hwaiting, Phase.entered, if_neg hrefused]
    · exact absurd (.inl hrunning) hon

/-- What a session does with a chance that it gets through. -/
theorem chanced_of_fits {chance : Chance} (hon : shift.GoesOn chance) (hfits : shift.Fits chance) :
    shift.agent.outcome shift.session chance =
        shift.agent.work (shift.entered chance).session chance ∧
      shift.polls chance = (chance.due shift.agent.cancelled).count .poll := by
  obtain ⟨hidle, -⟩ | ⟨-, -, hwork⟩ | ⟨-, hnot, -⟩ :=
    shift.agent.outcome_cases shift.session chance
  · exact absurd hon hidle
  · refine ⟨hwork, ?_⟩
    rw [polls, if_pos hon, Agent.reached_of_none (Agent.ticksBreak?_eq_none_iff.mpr hfits.ticks)]
  · exact absurd hfits hnot

/-- If it is not to stop, it does what falls due. -/
theorem chanced_of_live {chance : Chance} (hon : shift.GoesOn chance) (hfits : shift.Fits chance)
    (hlive : shift.agent.cancelled = false) :
    let worked := Agent.runTicks chance.ticks shift.agent (shift.entered chance).session
    shift.chanced chance = (shift.entered chance).after worked (chance.ticks.count .poll) ∧
      shift.seen chance = worked.2.2 := by
  obtain ⟨hwork, hpolls⟩ := chanced_of_fits hon hfits
  rw [Agent.work_of_live hlive] at hwork
  rw [hlive, Chance.due, if_neg Bool.false_ne_true] at hpolls
  rw [chanced, seen, hwork, hpolls]
  exact ⟨rfl, rfl⟩

/-- If it is to stop, it polls once more at the end, and hands out the slots still held. -/
theorem chanced_of_cancelled {chance : Chance} (hon : shift.GoesOn chance)
    (hfits : shift.Fits chance) (hcancelled : shift.agent.cancelled = true) :
    let ticks := chance.ticks ++ [Tick.poll]
    let worked := Agent.runTicks ticks shift.agent (shift.entered chance).session
    let last := (shift.entered chance).after worked (ticks.count .poll)
    shift.chanced chance = { last with session := (last.agent.flush last.session).1 } ∧
      shift.seen chance = worked.2.2 ++ (last.agent.flush last.session).2 := by
  obtain ⟨hwork, hpolls⟩ := chanced_of_fits hon hfits
  rw [Agent.work_of_cancelled hcancelled] at hwork
  rw [hcancelled, Chance.due, if_pos rfl] at hpolls
  rw [chanced, seen, hwork, hpolls]
  exact ⟨rfl, rfl⟩

/-- Whatever a session does with a chance, to the rings it is polls that got through. -/
theorem Tied.kept_chanced (h : shift.Tied) (chance : Chance) : (shift.chanced chance).Kept := by
  have hentered := h.entered chance
  obtain ⟨hidle, hnothing⟩ | ⟨hon, hfits, hwork⟩ | ⟨hon, -, broken, events, hbreak, hbroken⟩ :=
    shift.agent.outcome_cases shift.session chance
  · rw [(chanced_of_not_goesOn hidle).1]
    exact hentered.toKept
  · cases hcancelled : shift.agent.cancelled with
    | false =>
      rw [(chanced_of_live hon hfits hcancelled).1]
      exact (hentered.runTicks chance.ticks).toKept
    | true =>
      have hlast := hentered.runTicks (chance.ticks ++ [.poll])
      rw [(chanced_of_cancelled hon hfits hcancelled).1]
      exact ⟨hlast.net, hlast.settled, hlast.memory_eq⟩
  · -- The ring is as the last poll left it that got through.
    have hlast := hentered.runTicks (Agent.reached (chance.due shift.agent.cancelled) shift.agent
      (shift.entered chance).session)
    have hmemory : broken.memory = _ := congrArg Agent.memory (Agent.broken_eq hbreak)
    have hon' : shift.GoesOn chance := hon
    rw [chanced, hbroken, polls, if_pos hon']
    exact ⟨hlast.net, hlast.settled, hmemory.trans hlast.memory_eq⟩

/-- Unless it has failed, it reads on. -/
theorem Tied.chanced (h : shift.Tied) {chance : Chance}
    (hphase : (shift.chanced chance).session.phase ≠ .failed) : (shift.chanced chance).Tied := by
  have hentered := h.entered chance
  by_cases hon : shift.GoesOn chance
  · by_cases hfits : shift.Fits chance
    · cases hcancelled : shift.agent.cancelled with
      | false =>
        rw [(chanced_of_live hon hfits hcancelled).1]
        exact hentered.runTicks chance.ticks
      | true =>
        have hlast := hentered.runTicks (chance.ticks ++ [.poll])
        rw [(chanced_of_cancelled hon hfits hcancelled).1]
        exact ⟨⟨hlast.net, hlast.settled, hlast.memory_eq⟩, hlast.merger_eq⟩
    · exact absurd (phase_chanced_of_not_fits hon hfits) hphase
  · rw [(chanced_of_not_goesOn hon).1]
    exact hentered

/-- While a session goes on, every slot that leaves its window is handed on. -/
theorem Fed.chanced (hfed : shift.Fed shape events) (h : shift.Tied) {chance : Chance}
    (hon : shift.GoesOn chance) (hfits : shift.Fits chance)
    (hlive : shift.agent.cancelled = false) :
    (shift.chanced chance).Fed shape (events ++ shift.seen chance) ∧
      (shift.chanced chance).session.phase = .running := by
  obtain ⟨hchanced, hseen⟩ := chanced_of_live hon hfits hlive
  have hfed' : (shift.entered chance).Fed shape events := hfed
  rw [hchanced, hseen]
  exact ⟨hfed'.runTicks (h.entered chance) chance.ticks,
    (Agent.frame_runTicks chance.ticks _ _).2.trans hon⟩

/-- With its last chance it hands on the slots that it still holds. -/
theorem Fed.ended (hfed : shift.Fed shape events) (h : shift.Tied) {chance : Chance}
    (hon : shift.GoesOn chance) (hfits : shift.Fits chance)
    (hcancelled : shift.agent.cancelled = true) :
    (shift.chanced chance).Ended shape (events ++ shift.seen chance) ∧
      (shift.chanced chance).session.phase = .finished ∧
      (shift.chanced chance).net =
        (Network.served^[chance.ticks.count .poll] shift.net).served := by
  obtain ⟨hchanced, hseen⟩ := chanced_of_cancelled hon hfits hcancelled
  have hfed' : (shift.entered chance).Fed shape events := hfed
  have hlast := hfed'.runTicks (h.entered chance) (chance.ticks ++ [.poll])
  rw [hchanced, hseen, ← List.append_assoc]
  exact ⟨hlast.flush, rfl, shift.net.served_count_append chance.ticks⟩

end Shift

end CacheMeter
