import Mathlib
import CacheMeter.Proofs.Merge.Session

/-!
# Polling a network

A poll opens a batch with a merger of its own, takes every record out and closes the batch
again.  In a network that is a run of calls, so whatever holds of networks after any calls
holds after polls.

Main results:

- Definition `Merger.batch`: the records of a poll.
- Theorem `Network.Sound.polled`: polling keeps heap, rings and journals in agreement.
- Theorem `Network.Sound.polled_batch`: what a poll leaves behind and takes out.
- Theorem `Network.Sound.polled_consumes`: a poll leaves nothing published behind.
- Theorem `Network.Sound.onlyRead_polled`: to the rings a poll is only read steps.
-/

namespace CacheMeter

/-- The batch of a poll: the records published to the rings, as the merger gives them. -/
def Merger.batch (readers : Array Reader) (memory : Memory) : Merge.Drained :=
  (started { readers := readers } memory).drainUpTo memory
    (started { readers := readers } memory).backlog

/-- What a poll takes out is what its loop takes out. -/
theorem Merger.batch_drainsTo (readers : Array Reader) (memory : Memory) :
    DrainsTo memory (started { readers := readers } memory) (batch readers memory) :=
  (keyed_start readers memory).drainsTo rfl le_rfl

namespace Merge.Network

open CacheMeter.Ring

variable {net : Network} {ring : Nat}

/-! ## Records consumed -/

/-- A new ring has no say in what came out of the others. -/
theorem merged_addRing (net : Network) (lane : Lane) :
    (net.step (.addRing lane)).merged = net.merged := by
  simp only [Network.step]
  cases net.merger.addRing (net.readerOf lane) <;> rfl

/-- Nor has a producer. -/
theorem merged_produce (net : Network) (ring : Nat) (action : Ring.Action) :
    (net.step (.produce ring action)).merged = net.merged := by
  simp only [Network.step]
  split_ifs <;> rfl

/-! ## A merger of its own -/

/-- The network with its rings in the hands of a new merger. -/
def renewed (net : Network) : Network :=
  { net with merger := { readers := net.merger.readers } }

/-- A new merger holds no ring at all. -/
theorem held_new (readers : Array Reader) (memory : Memory) :
    Held { readers := readers } memory where
  valid := IndexedHeap.valid_empty
  retained := by
    intro ring time hkey
    have hnone : ({ readers := readers } : Merger).heap.key? ring = none :=
      IndexedHeap.key?_empty ring
    rw [hnone] at hkey
    exact absurd hkey.symm (Option.some_ne_none time)
  keyed := fun hopen => absurd hopen Bool.false_ne_true

/-- A network stays sound when its rings pass to a new merger. -/
theorem Sound.renewed (h : Sound net) : Sound net.renewed where
  shaped :=
    { memory_size := h.shaped.memory_size
      producers_size := h.shaped.producers_size
      journals_size := h.shaped.journals_size
      origins_size := h.shaped.origins_size
      region_eq := h.shaped.region_eq }
  channels ring hlt := h.channels ring hlt
  held := held_new net.merger.readers net.memory
  logged := ⟨h.logged.ring_lt, h.logged.origin_le, h.logged.mergedOf_eq⟩

/-! ## Taking records out -/

/-- A merger that refuses a record takes out nothing. -/
theorem drainUpTo_of_refused {merger : Merger} {memory : Memory} {refusal : Merge.Refusal}
    (h : merger.current memory = .error refusal) (limit : Nat) :
    (merger.drainUpTo memory limit).merger = merger ∧
      (merger.drainUpTo memory limit).records = [] := by
  cases limit with
  | zero => exact ⟨rfl, rfl⟩
  | succ limit =>
    rw [Merger.drainUpTo]
    split_ifs
    · exact ⟨rfl, rfl⟩
    · rw [h]
      exact ⟨rfl, rfl⟩

/-- Popping is what draining does. -/
theorem Sound.run_pops (h : Sound net) (limit : Nat) :
    (net.run (List.replicate limit .pop)).memory = net.memory ∧
      (net.run (List.replicate limit .pop)).merger =
        (net.merger.drainUpTo net.memory limit).merger ∧
      (net.run (List.replicate limit .pop)).merged =
        net.merged ++ (net.merger.drainUpTo net.memory limit).records := by
  induction limit generalizing net with
  | zero => exact ⟨rfl, rfl, (List.append_nil _).symm⟩
  | succ limit ih =>
    have hrun : net.run (List.replicate (limit + 1) .pop) =
        (net.step .pop).run (List.replicate limit .pop) := rfl
    rw [hrun]
    by_cases hrefuses : ∃ refusal, net.RefusesRecord refusal
    · rcases hrefuses with ⟨refusal, hrefuses⟩
      rcases h.refused hrefuses with ⟨-, hcurrent, hpop⟩
      have hrefused : net.Refuses .pop := ⟨refusal, hpop⟩
      rcases ih h with ⟨hmemory, hmerger, hmerged⟩
      rcases drainUpTo_of_refused hcurrent limit with ⟨hsame, hnone⟩
      rcases drainUpTo_of_refused hcurrent (limit + 1) with ⟨hsame', hnone'⟩
      rw [step_of_refuses hrefused, hmemory, hmerger, hmerged, hsame, hnone, hsame', hnone']
      exact ⟨rfl, rfl, rfl⟩
    · rcases h.not_refused (not_exists.mp hrefuses) with
        ⟨hopen, entry, hfull, hhead, hcurrent, hpop⟩
      have hstep : net.step .pop =
          net.taken ((net.merger.reader entry.ring).front net.memory entry.ring)
            (net.merger.popped net.memory entry.ring) := by
        simp only [Network.step, hcurrent, hpop]
      have hsome : net.merger.isEmpty = false := by
        by_contra hempty
        have hnone := (h.held.keyed hopen).isEmpty_iff.mp (by simpa using hempty) entry.ring
        rw [hfull] at hnone
        exact Bool.false_ne_true hnone
      rcases ih (h.taken hopen hfull) with ⟨hmemory, hmerger, hmerged⟩
      rw [hstep, hmemory, hmerger, hmerged, Merger.drainUpTo, hsome, hcurrent, hpop]
      refine ⟨rfl, rfl, ?_⟩
      simp [Network.taken]

/-! ## A whole poll -/

/-- The network after a poll: a batch is opened, emptied and closed. -/
def polled (net : Network) : Network :=
  let opened := net.renewed.step .start
  (opened.run (List.replicate opened.merger.backlog .pop)).step .finish

/-- A poll leaves a sound network behind. -/
theorem Sound.polled (h : Sound net) : Sound net.polled :=
  ((h.renewed.step .start).run _).step .finish

/-- A batch of at least one ring opens. -/
theorem start_renewed (hrings : net.merger.readers ≠ #[]) :
    net.renewed.step .start =
      net.renewed.opened (net.renewed.merger.started net.memory) := by
  have hok : net.renewed.merger.start net.renewed.memory =
      .ok (net.renewed.merger.started net.memory) :=
    Merger.start_eq_started hrings rfl
  simp only [Network.step, hok]

/-- A poll takes its batch out of the rings. -/
theorem Sound.polled_batch (h : Sound net) (hrings : net.merger.readers ≠ #[]) :
    net.polled.memory =
        ((Merger.batch net.merger.readers net.memory).merger.finish net.memory).2 ∧
      net.polled.merger =
        ((Merger.batch net.merger.readers net.memory).merger.finish net.memory).1 ∧
      net.polled.merged =
        net.merged ++ (Merger.batch net.merger.readers net.memory).records := by
  have hstart := start_renewed hrings
  have hopened := h.renewed.step .start
  rw [Network.polled]
  rw [hstart] at hopened ⊢
  rcases hopened.run_pops (net.renewed.opened
    (net.renewed.merger.started net.memory)).merger.backlog with ⟨hmemory, hmerger, hmerged⟩
  simp only [Network.step, Network.closed, hmemory, hmerger, hmerged]
  exact ⟨rfl, rfl, rfl⟩

/-- Without rings a poll does nothing. -/
theorem polled_of_isEmpty (hrings : net.merger.readers = #[]) :
    net.polled.memory = net.memory ∧ net.polled.merger = {} ∧
      net.polled.merged = net.merged := by
  have hstart : net.renewed.step .start = net.renewed := by
    have herror : net.renewed.merger.start net.renewed.memory = .error .noRings := by
      rw [Merger.start_eq_error_iff]
      exact .inl ⟨by simp [Network.renewed, hrings], rfl⟩
    simp only [Network.step, herror]
  have hbacklog : net.renewed.merger.backlog = 0 := by
    simp [Network.renewed, Merger.backlog, hrings]
  rw [Network.polled, hstart, hbacklog]
  simp [Network.run, Network.step, Network.closed, Network.renewed, Merger.finish, hrings]

/-! ## Nothing is left behind -/

/-- The consumers see everything that is published. -/
def UpToDate (net : Network) : Prop :=
  ∀ ring, (net.channel ring).journal.visible = (net.channel ring).journal.published

/-- Every ring is up to date when a batch opens. -/
theorem upToDate_opened (net : Network) (merger : Merger) : (net.opened merger).UpToDate := by
  intro ring
  simp only [Network.channel, Network.opened, Array.getD_eq_getD_getElem?, Array.getElem?_map]
  cases net.journals[ring]? <;> rfl

/-- It stays so when a record is taken out. -/
theorem UpToDate.taken (h : net.UpToDate) (record : MergedRecord) (merger : Merger) :
    (net.taken record merger).UpToDate := by
  intro ring
  have hring := h ring
  simp only [Network.channel, Network.taken, Array.getD_eq_getD_getElem?,
    Array.getElem?_modify] at hring ⊢
  split_ifs
  · cases hjournal : net.journals[ring]? with
    | none => rfl
    | some journal => simpa [hjournal] using hring
  · exact hring

/-- It stays so when the batch is closed. -/
theorem UpToDate.closed (h : net.UpToDate) (merger : Merger) (memory : Memory) :
    (net.closed merger memory).UpToDate := by
  intro ring
  have hring := h ring
  simp only [Network.channel, Network.closed, Array.getD_eq_getD_getElem?,
    Array.getElem?_map] at hring ⊢
  cases hjournal : net.journals[ring]? with
  | none => rfl
  | some journal => simpa [hjournal] using hring

/-- It stays so through any number of pops. -/
theorem UpToDate.run_pops (h : net.UpToDate) (limit : Nat) :
    (net.run (List.replicate limit .pop)).UpToDate := by
  induction limit generalizing net with
  | zero => exact h
  | succ limit ih =>
    have hstep : (net.step .pop).UpToDate := by
      simp only [Network.step]
      cases net.merger.current net.memory with
      | error refusal => exact h
      | ok record =>
        cases net.merger.pop net.memory with
        | error refusal => exact h
        | ok popped => exact h.taken record popped
    exact ih hstep

/-- The records that came out of a ring are all those published to it since it was handed
over. -/
def Consumed (net : Network) (ring : Nat) : Prop :=
  net.origins.getD ring 0 + (net.mergedOf ring).length = (net.channel ring).journal.published

/-- What was consumed stays so under a new merger. -/
theorem consumed_renewed : net.renewed.Consumed ring ↔ net.Consumed ring :=
  Iff.rfl

/-- A new merger has the readers of the old one. -/
theorem readers_renewed (net : Network) : net.renewed.merger.readers = net.merger.readers :=
  rfl

/-- It leaves every channel as it is. -/
theorem channel_renewed (net : Network) (ring : Nat) :
    net.renewed.channel ring = net.channel ring :=
  rfl

/-- It leaves what came out as it is. -/
theorem merged_renewed (net : Network) : net.renewed.merged = net.merged :=
  rfl

/-- Each ring still counts from where it was handed over. -/
theorem origins_renewed (net : Network) : net.renewed.origins = net.origins :=
  rfl

/-- A poll leaves nothing published behind. -/
theorem Sound.polled_consumes (h : Sound net) (hlt : ring < net.polled.merger.readers.size) :
    net.polled.Consumed ring := by
  have hrings : net.merger.readers ≠ #[] := by
    intro hnone
    rw [(polled_of_isEmpty hnone).2.1] at hlt
    exact Nat.not_lt_zero ring hlt
  have hupToDate : net.polled.UpToDate := by
    rw [Network.polled, start_renewed hrings]
    exact ((upToDate_opened _ _).run_pops _).closed _ _
  have hempty : (net.polled.channel ring).consumer.isEmpty = true := by
    have hdrains := Merger.batch_drainsTo net.merger.readers net.memory
    have hview := hdrains.keyed.isEmpty_iff.mp hdrains.isEmpty ring
    rw [channel, (h.polled_batch hrings).2.1]
    exact hview
  rcases h.polled.channels ring hlt with ⟨view, hsound⟩
  have hpopped := hsound.isEmpty_iff.mp hempty
  have horigin := h.polled.logged.origin_le ring hlt
  have hpublished := hupToDate ring
  rw [Consumed, h.polled.logged.mergedOf_eq ring hlt, List.length_drop]
  omega

/-! ## What a poll is to each ring -/

/-- From one network to the other only consumers took steps. -/
structure OnlyRead (net net' : Network) : Prop where
  size_eq : net'.merger.readers.size = net.merger.readers.size
  origins_eq : net'.origins = net.origins
  channel : ∀ ring < net.merger.readers.size, ∃ actions : List Ring.Action,
    (∀ action ∈ actions, action.isProducer = false) ∧
      net'.channel ring = (net.channel ring).run actions

/-- To do nothing is to read nothing. -/
theorem OnlyRead.refl (net : Network) : OnlyRead net net where
  size_eq := rfl
  origins_eq := rfl
  channel _ _ := ⟨[], by simp, rfl⟩

/-- To read and then to read on is only to read. -/
theorem OnlyRead.trans {first second third : Network} (h : OnlyRead first second)
    (h' : OnlyRead second third) : OnlyRead first third where
  size_eq := h'.size_eq.trans h.size_eq
  origins_eq := h'.origins_eq.trans h.origins_eq
  channel ring hlt := by
    rcases h.channel ring hlt with ⟨actions, hreading, hchannel⟩
    rcases h'.channel ring (by rwa [h.size_eq]) with ⟨later, hreading', hchannel'⟩
    refine ⟨actions ++ later, ?_, ?_⟩
    · intro action hmem
      rcases List.mem_append.mp hmem with hmem | hmem
      · exact hreading action hmem
      · exact hreading' action hmem
    · rw [hchannel', hchannel, Channel.run, Channel.run, Channel.run, List.foldl_append]

/-- To open a batch is only to read. -/
theorem Sound.onlyRead_start (h : Sound net) : OnlyRead net (net.step .start) := by
  simp only [Network.step]
  cases hstart : net.merger.start net.memory with
  | error refusal => exact .refl net
  | ok merger =>
    rcases start_eq_ok_iff.mp hstart with ⟨-, -, rfl⟩
    refine ⟨by simp [Network.opened, Merger.started], rfl, ?_⟩
    intro ring hlt
    exact ⟨[.startRead], by simp [Ring.Action.isProducer], channel_opened h.shaped hlt⟩

/-- To take out a record is only to read. -/
theorem Sound.onlyRead_pop (h : Sound net) : OnlyRead net (net.step .pop) := by
  by_cases hrefuses : ∃ refusal, net.RefusesRecord refusal
  · rcases hrefuses with ⟨refusal, hrefuses⟩
    have hrefused : net.Refuses .pop := ⟨refusal, (h.refused hrefuses).2.2⟩
    rw [step_of_refuses hrefused]
    exact .refl net
  · rcases h.not_refused (not_exists.mp hrefuses) with ⟨-, entry, hfull, -, hcurrent, hpop⟩
    simp only [Network.step, hcurrent, hpop]
    refine ⟨by simp [Network.taken, Merger.popped], rfl, ?_⟩
    intro ring hlt
    rw [channel_taken h.shaped hfull]
    split_ifs with hsame
    · subst hsame
      exact ⟨[.pop], by simp [Ring.Action.isProducer], rfl⟩
    · exact ⟨[], by simp, rfl⟩

/-- To close the batch is only to read. -/
theorem Sound.onlyRead_finish (h : Sound net) : OnlyRead net (net.step .finish) where
  size_eq := rfl
  origins_eq := rfl
  channel _ hlt := ⟨[.finishRead], by simp [Ring.Action.isProducer], channel_closed h.shaped hlt⟩

/-- So is any number of pops. -/
theorem Sound.onlyRead_pops (h : Sound net) (limit : Nat) :
    OnlyRead net (net.run (List.replicate limit .pop)) := by
  induction limit generalizing net with
  | zero => exact .refl net
  | succ limit ih => exact h.onlyRead_pop.trans (ih (h.step .pop))

/-- To the rings a poll is a number of steps of their consumers. -/
theorem Sound.onlyRead_polled (h : Sound net) : OnlyRead net net.polled := by
  have hstarted := h.renewed.step .start
  have hpopped := hstarted.run
    (List.replicate (net.renewed.step .start).merger.backlog .pop)
  have hrenewed : OnlyRead net net.renewed := ⟨rfl, rfl, fun _ _ => ⟨[], by simp, rfl⟩⟩
  exact hrenewed.trans (h.renewed.onlyRead_start.trans
    ((hstarted.onlyRead_pops _).trans hpopped.onlyRead_finish))

end Merge.Network

end CacheMeter
