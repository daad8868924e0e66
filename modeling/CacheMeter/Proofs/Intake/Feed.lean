import Mathlib
import CacheMeter.Proofs.Intake.Pass

/-!
# Conservation from rings to slots

Producers write records into rings, polls consume what is published, and in the end the
slots still held are drained.  Every count that an accepted measurement reports is then in
exactly one of the slots handed on, under the entity of the measurement, however the
measurements were cut, wherever the window reached on the circle, and whatever was evicted
in between.

Main results:

- Structure `Feed` with `Feed.run`: producers and polls in any order.
- Theorem `Feed.Sound.run`: the window and what was emitted are what taking in the accepted
  measurements one by one gives.
- Theorem `Feed.run_conserves`: what the slots hold is what the measurements report.
-/

namespace CacheMeter

open Merge

/-- Rings with their producers, the intake that polls them, and what it has emitted. -/
structure Feed where
  net : Network := {}
  intake : Intake
  emitted : List Emission := []

namespace Feed

/-! ## Steps -/

/-- A ring is added, its producer takes a step, or the rings are polled. -/
inductive Action
  | attach (lane : Lane)
  | produce (ring : Nat) (action : Ring.Action)
  | poll

/-- A feed for windows of a shape, before anything happened. -/
def idle (shape : Window.Shape) : Feed where
  intake := { window := { shape := shape } }

/-- The feed after a poll.  The network records what the poll took out of it. -/
def polled (feed : Feed) : Feed :=
  let outcome := feed.intake.poll feed.net.merger.readers feed.net.memory
  { net :=
      { feed.net.polled with
        memory := outcome.memory
        merger := { readers := outcome.readers } }
    intake := outcome.intake
    emitted := feed.emitted ++ outcome.emitted }

def step (feed : Feed) : Action → Feed
  | .attach lane => { feed with net := feed.net.step (.addRing lane) }
  | .produce ring action => { feed with net := feed.net.step (.produce ring action) }
  | .poll => feed.polled

/-- Steps in any order. -/
def run (feed : Feed) (actions : List Action) : Feed :=
  actions.foldl step feed

/-- The measurements accepted so far, in the order in which they were consumed. -/
def accepted (feed : Feed) : List Measurement :=
  feed.net.merged.filterMap Intake.accepted?

/-- The slots emitted by the polls so far, and those that draining emits now. -/
def handedOn (feed : Feed) : List Slot :=
  Intake.slotsOf (feed.emitted ++ feed.intake.drain.1)

/-! ## Polls -/

variable {feed : Feed} {shape : Window.Shape}

/-- A poll without rings changes nothing but the merger. -/
theorem poll_of_isEmpty (intake : Intake) {readers : Array Reader} (memory : Memory)
    (hrings : readers = #[]) :
    (intake.poll readers memory).intake = intake ∧
      (intake.poll readers memory).readers = #[] ∧
      (intake.poll readers memory).memory = memory ∧
      (intake.poll readers memory).emitted = [] := by
  rw [hrings]
  simp [Intake.poll, Merger.start]

/-- What a poll does to the rings is what it does to the network. -/
theorem net_polled (h : feed.net.Sound) : feed.polled.net = feed.net.polled.renewed := by
  by_cases hrings : feed.net.merger.readers = #[]
  · rcases Network.polled_of_isEmpty hrings with ⟨hmemory, hmerger, -⟩
    rcases poll_of_isEmpty feed.intake feed.net.memory hrings with ⟨-, hreaders, hmemory', -⟩
    rw [polled, hreaders, hmemory', Network.renewed, hmerger, ← hmemory]
  · rcases feed.intake.poll_follows feed.net.memory hrings with ⟨pass, -, hpoll⟩
    rcases h.polled_batch hrings with ⟨hmemory, hmerger, -⟩
    rw [polled, hpoll, Network.renewed, hmerger, ← hmemory]

/-- A poll takes in the measurements of the records that it takes out of the rings. -/
theorem follows_polled (h : feed.net.Sound) :
    ∃ measurements, feed.polled.accepted = feed.accepted ++ measurements ∧
      feed.polled.intake.window = (feed.intake.window.ingestAll measurements).2 ∧
      Intake.slotsOf feed.polled.emitted =
        Intake.slotsOf feed.emitted ++ (feed.intake.window.ingestAll measurements).1 := by
  by_cases hrings : feed.net.merger.readers = #[]
  · rcases Network.polled_of_isEmpty hrings with ⟨-, -, hmerged⟩
    rcases poll_of_isEmpty feed.intake feed.net.memory hrings with ⟨hintake, -, -, hemitted⟩
    refine ⟨[], ?_, ?_, ?_⟩
    · rw [accepted, net_polled h, Network.renewed, hmerged, List.append_nil]
      rfl
    · rw [polled, hintake]
      rfl
    · rw [polled, hemitted, List.append_nil]
      exact (List.append_nil _).symm
  · rcases feed.intake.poll_follows feed.net.memory hrings with ⟨pass, hfollows, hpoll⟩
    rcases h.polled_batch hrings with ⟨-, -, hmerged⟩
    refine ⟨(Merger.batch feed.net.merger.readers feed.net.memory).records.filterMap
      Intake.accepted?, ?_, ?_, ?_⟩
    · rw [accepted, net_polled h, Network.renewed, hmerged, List.filterMap_append]
      rfl
    · rw [polled, hpoll]
      exact hfollows.window
    · rw [polled, hpoll, Intake.slotsOf_append, hfollows.emitted]
      rfl

/-! ## Any run -/

/-- The network is sound, and window and emissions are what taking in the accepted
measurements one by one gives. -/
structure Sound (shape : Window.Shape) (feed : Feed) : Prop where
  net : feed.net.Sound
  window : feed.intake.window =
    (Window.ingestAll { shape := shape } feed.accepted).2
  emitted : Intake.slotsOf feed.emitted =
    (Window.ingestAll { shape := shape } feed.accepted).1

theorem sound_idle (shape : Window.Shape) : Sound shape (idle shape) where
  net := Network.sound_empty
  window := rfl
  emitted := rfl

theorem Sound.step (h : Sound shape feed) (action : Action) :
    Sound shape (feed.step action) := by
  cases action with
  | attach lane =>
    have haccepted : (feed.step (.attach lane)).accepted = feed.accepted := by
      rw [accepted, Feed.step, Network.merged_addRing]
      rfl
    refine ⟨h.net.step (.addRing lane), ?_, ?_⟩
    · rw [haccepted]
      exact h.window
    · rw [haccepted]
      exact h.emitted
  | produce ring action =>
    have haccepted : (feed.step (.produce ring action)).accepted = feed.accepted := by
      rw [accepted, Feed.step, Network.merged_produce]
      rfl
    refine ⟨h.net.step (.produce ring action), ?_, ?_⟩
    · rw [haccepted]
      exact h.window
    · rw [haccepted]
      exact h.emitted
  | poll =>
    rcases follows_polled h.net with ⟨measurements, haccepted, hwindow, hemitted⟩
    rw [Feed.step]
    refine ⟨?_, ?_, ?_⟩
    · rw [net_polled h.net]
      exact h.net.polled.renewed
    · rw [haccepted, hwindow, h.window, Window.ingestAll_append]
    · rw [haccepted, hemitted, h.window, h.emitted, Window.ingestAll_append]

theorem Sound.run (h : Sound shape feed) (actions : List Action) :
    Sound shape (feed.run actions) := by
  induction actions generalizing feed with
  | nil => exact h
  | cons action rest ih => exact ih (h.step action)

/-! ## What follows -/

/-- Nothing is lost between the rings and the slots, and nothing is added. -/
structure Conserves (feed : Feed) : Prop where
  /-- The records consumed from a ring are the first ones published to it after it was
  added, in order and read back unaltered. -/
  delivered : ∀ ring < feed.net.merger.readers.size,
    feed.net.origins.getD ring 0 + (feed.net.mergedOf ring).length ≤
        (feed.net.channel ring).journal.published ∧
      List.Forall₂ Ring.Record.ReadsBack
        (((feed.net.channel ring).journal.written.drop (feed.net.origins.getD ring 0)).take
          (feed.net.mergedOf ring).length)
        (feed.net.mergedOf ring)
  /-- The slots handed on hold for each entity what its own measurements report. -/
  held_eq : ∀ entity quantity,
    Window.held entity quantity feed.handedOn = Window.spent entity quantity feed.accepted

/-- After a poll the records consumed from a ring are all those published to it since it
was added. -/
theorem run_poll_consumes (shape : Window.Shape) (actions : List Action) {ring : Nat}
    (hlt : ring < ((idle shape).run (actions ++ [.poll])).net.merger.readers.size) :
    ((idle shape).run (actions ++ [.poll])).net.Consumed ring := by
  have hsound := ((sound_idle shape).run actions).net
  have hrun : (idle shape).run (actions ++ [.poll]) = ((idle shape).run actions).polled := by
    rw [run, List.foldl_append]
    rfl
  rw [hrun, net_polled hsound] at hlt ⊢
  rw [Network.readers_renewed] at hlt
  exact Network.consumed_renewed.mpr (hsound.polled_consumes hlt)

/-- However producers and polls alternate, every count is conserved: the slots emitted by
the polls and those drained in the end hold for each entity what its measurements report,
provided that each measurement lies inside the window when it is consumed, is short enough
for exact doubles, and that no total outgrows a word. -/
theorem run_conserves {shape : Window.Shape} (hcheck : shape.check = .ok ())
    (hspan : shape.slotCount.toNat * shape.slotLength.toNat ≤ 2 ^ 62) (actions : List Action)
    (hadmits : Window.AdmitsAll { shape := shape } ((idle shape).run actions).accepted)
    (hfits : ∀ entity quantity,
      Window.spent entity quantity ((idle shape).run actions).accepted < UInt64.size) :
    Conserves ((idle shape).run actions) := by
  have hsound := (sound_idle shape).run actions
  generalize (idle shape).run actions = feed at *
  refine ⟨fun ring hlt => hsound.net.delivered hlt, ?_⟩
  intro entity quantity
  have hshape := Window.Shape.bounded_of_check hcheck hspan
  have hempty : Window.held entity quantity ({ shape := shape } : Window).slots = 0 := rfl
  have hall := Window.held_ingestAll (.inl rfl) hshape hadmits (by
    rw [hempty, Nat.zero_add]
    exact hfits entity quantity)
  have hdrain : Intake.slotsOf feed.intake.drain.1 = feed.intake.window.slots :=
    Intake.slotsOf_map _ _
  rw [handedOn, Intake.slotsOf_append, hdrain, hsound.emitted, hsound.window,
    Window.held_append, hall, hempty, Nat.zero_add]

/-- A ring with room for two measurements, bound and not used yet. -/
def narrow : Lane where
  region := (Ring.Region.zeroed 1200 0 4 32).store Ring.Metadata.dataOffsetOffset
    (Bytes.ofWord64 1072)
  view := { dataStart := 1072, capacity := 128, readPos := 0, writePos := 0 }
  actions := []
  attach := by decide +kernel
  idle := by decide +kernel

/-- A measurement that begins before time zero. -/
def early : Measurement where
  entity := 1
  cycles := 7
  instructions := 9
  cacheMisses := 2
  endTime := 5
  duration := 12

/-- An instant that a window of the same size cannot hold together with it. -/
def late : Measurement where
  entity := 2
  cycles := 5
  instructions := 4
  cacheMisses := 3
  endTime := 25
  duration := 0

/-- Three slots of ten nanoseconds each. -/
def decades : Window.Shape where
  slotLength := 10
  slotCount := 3
  slotOffset := 0

/-- Both measurements are written to the same ring, with a poll after each. -/
def crossing : List Action :=
  [.attach narrow,
    .produce 0 (.write (Message.encodeMeasurement early) sampleRecordType),
    .produce 0 .finishWrite,
    .poll,
    .produce 0 .startWrite,
    .produce 0 (.write (Message.encodeMeasurement late) sampleRecordType),
    .produce 0 .finishWrite,
    .poll]

/-- A measurement is cut at time zero, and a poll evicts slots before the other comes. -/
theorem run_conserves_crossing :
    decades.check = .ok () ∧
      decades.slotCount.toNat * decades.slotLength.toNat ≤ 2 ^ 62 ∧
      Window.AdmitsAll { shape := decades } ((idle decades).run crossing).accepted ∧
      (∀ entity quantity,
        Window.spent entity quantity ((idle decades).run crossing).accepted < UInt64.size) ∧
      Conserves ((idle decades).run crossing) := by
  have hcheck : decades.check = .ok () := by decide
  have hspan : decades.slotCount.toNat * decades.slotLength.toNat ≤ 2 ^ 62 := by decide
  have haccepted : ((idle decades).run crossing).accepted = [early, late] := by
    decide +kernel
  have hadmits :
      Window.AdmitsAll { shape := decades } ((idle decades).run crossing).accepted := by
    rw [haccepted]
    decide +kernel
  have hfits : ∀ entity quantity,
      Window.spent entity quantity ((idle decades).run crossing).accepted < UInt64.size := by
    intro entity quantity
    have hearly : (Counters.ofMeasurement early).amount quantity ≤ 12 := by
      cases quantity <;> decide
    have hlate : (Counters.ofMeasurement late).amount quantity ≤ 12 := by
      cases quantity <;> decide
    rw [haccepted, Window.spent_cons, Window.spent_cons, Window.spent_nil, UInt64.size]
    split_ifs <;> omega
  exact ⟨hcheck, hspan, hadmits, hfits, run_conserves hcheck hspan crossing hadmits hfits⟩

end Feed

end CacheMeter
