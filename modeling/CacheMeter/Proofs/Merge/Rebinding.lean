import Mathlib
import CacheMeter.Proofs.Merge.Polling
import CacheMeter.Proofs.Ring.Rounds

/-!
# Reading rings anew

Between polls everything that was read of a ring has been released, so that new readers, bound
to what the rings publish, go on where the last ones stopped.  The records that come out
from then on are listed apart from those before.

Main results:

- Definition `Network.served`: the network after a poll by a merger of its own.
- Definition `Network.rebound`: the network in the hands of new readers.
- Theorem `Network.Sound.rebound`: new readers see sound rings.
- Theorem `Network.Sound.delivered_served`: after a poll all that is published is read and
  released.
-/

namespace CacheMeter.Merge.Network

open CacheMeter.Ring

variable {net : Network} {ring : Nat}

/-! ## Nothing read is held back -/

/-- What was read of each ring has been released. -/
def Settled (net : Network) : Prop :=
  ∀ ring < net.merger.readers.size,
    (net.channel ring).journal.released = (net.channel ring).journal.popped.length

/-- Without rings everything is settled. -/
theorem settled_empty : Settled {} :=
  fun ring hlt => absurd hlt (Nat.not_lt_zero ring)

/-- A producer neither reads nor releases. -/
theorem journal_producer (channel : Channel) {action : Ring.Action}
    (hproducer : action.isProducer = true) :
    (channel.step action).journal.released = channel.journal.released ∧
      (channel.step action).journal.popped = channel.journal.popped := by
  cases action with
  | startWrite | finishWrite => exact ⟨rfl, rfl⟩
  | write payload recordType =>
    rw [Channel.step]
    split <;> exact ⟨rfl, rfl⟩
  | rebindProducer =>
    rw [Channel.step]
    split_ifs
    · split <;> exact ⟨rfl, rfl⟩
    · exact ⟨rfl, rfl⟩
  | startRead | pop | finishRead | rebindConsumer => simp [Ring.Action.isProducer] at hproducer

/-- A producer unsettles nothing. -/
theorem Settled.produce (h : net.Settled) (hsound : Sound net) (ring : Nat)
    (action : Ring.Action) : (net.step (.produce ring action)).Settled := by
  rw [Network.step]
  split_ifs with hproduce
  · rw [Bool.and_eq_true, decide_eq_true_eq] at hproduce
    rcases hproduce with ⟨hproducer, hlt⟩
    rw [hsound.shaped.memory_size] at hlt
    intro other hother
    have hother' : other < net.merger.readers.size := hother
    rw [channel_produced hsound.shaped hlt hproducer]
    split_ifs with hsame
    · subst hsame
      rcases journal_producer (net.channel ring) hproducer with ⟨hreleased, hpopped⟩
      rw [hreleased, hpopped]
      exact h ring hother'
    · exact h other hother'
  · exact h

/-- A ring that is handed over unused is one of which nothing was read. -/
theorem Settled.addRing (h : net.Settled) (hsound : Sound net)
    (hclosed : net.merger.isOpen = false) {lane : Lane} (hunused : lane.actions = []) :
    (net.step (.addRing lane)).Settled ∧ (net.step (.addRing lane)).merger.isOpen = false := by
  rw [Network.step, addRing_eq, hclosed, if_neg Bool.false_ne_true]
  refine ⟨?_, hclosed⟩
  intro ring hlt
  have hlt' : ring < net.merger.readers.size + 1 := by
    rw [← size_grown]
    exact hlt
  rw [hsound.channel_added lane hclosed]
  split_ifs with hlast
  · rw [Lane.channel, hunused]
    rfl
  · exact h ring (by omega)

/-- Unused rings are settled, one after the other. -/
theorem Settled.run_addRing (h : net.Settled) (hsound : Sound net)
    (hclosed : net.merger.isOpen = false) {lanes : List Lane}
    (hunused : ∀ lane ∈ lanes, lane.actions = []) :
    (net.run (lanes.map .addRing)).Settled ∧
      (net.run (lanes.map .addRing)).merger.readers.size =
        net.merger.readers.size + lanes.length := by
  induction lanes generalizing net with
  | nil => exact ⟨h, rfl⟩
  | cons lane rest ih =>
    rw [List.forall_mem_cons] at hunused
    rcases h.addRing hsound hclosed hunused.1 with ⟨hnext, hclosed'⟩
    have hsize : (net.step (.addRing lane)).merger.readers.size =
        net.merger.readers.size + 1 := by
      rw [Network.step, addRing_eq, hclosed, if_neg Bool.false_ne_true]
      exact size_grown net lane
    rcases ih hnext (hsound.step _) hclosed' hunused.2 with ⟨hsettled, hsize'⟩
    refine ⟨hsettled, ?_⟩
    rw [List.length_cons, Nat.add_comm rest.length, ← Nat.add_assoc, ← hsize]
    exact hsize'

/-! ## Polls -/

/-- The network after a poll, with its rings in the hands of a new merger. -/
def served (net : Network) : Network :=
  net.polled.renewed

/-- A poll by a new merger leaves the channels that the poll leaves. -/
theorem channel_served (net : Network) (ring : Nat) :
    net.served.channel ring = net.polled.channel ring :=
  channel_renewed net.polled ring

/-- It leaves a sound network behind. -/
theorem Sound.served (h : Sound net) : Sound net.served :=
  h.polled.renewed

/-- Closing a batch releases what was read. -/
theorem settled_finish (h : Shaped net) : (net.step .finish).Settled := by
  intro ring hlt
  rw [Network.step, channel_closed h hlt]
  rfl

/-- It leaves a settled network behind. -/
theorem Sound.settled_served (h : Sound net) : net.served.Settled := by
  intro ring hlt
  have hread := (h.renewed.step .start).run
    (List.replicate (net.renewed.step .start).merger.backlog .pop)
  rw [channel_served]
  exact settled_finish hread.shaped ring hlt

/-- It leaves the number of rings as it is. -/
theorem Sound.size_served (h : Sound net) :
    net.served.merger.readers.size = net.merger.readers.size :=
  h.onlyRead_polled.size_eq

/-- Polls leave a sound network behind. -/
theorem Sound.iterate_served (h : Sound net) (count : Nat) :
    Sound (Network.served^[count] net) := by
  induction count generalizing net with
  | zero => exact h
  | succ count ih =>
    rw [Function.iterate_succ_apply]
    exact ih h.served

/-- That stays so however often it is polled. -/
theorem Sound.size_iterate_served (h : Sound net) (count : Nat) :
    (Network.served^[count] net).merger.readers.size = net.merger.readers.size := by
  induction count generalizing net with
  | zero => rfl
  | succ count ih =>
    rw [Function.iterate_succ_apply]
    exact (ih h.served).trans h.size_served

/-- A consumer writes to its ring only when it releases what it has read. -/
theorem region_step_reading (channel : Channel) {action : Ring.Action}
    (h : action.isProducer = false) (hrelease : action ≠ .finishRead) :
    (channel.step action).region = channel.region := by
  cases action with
  | startWrite | write | finishWrite | rebindProducer =>
    exact absurd h (by simp [Ring.Action.isProducer])
  | finishRead => exact absurd rfl hrelease
  | startRead => simp only [Channel.step]
  | pop =>
    rw [Channel.step]
    split <;> rfl
  | rebindConsumer =>
    rw [Channel.step]
    split_ifs
    · split <;> rfl
    · rfl

/-- A consumer leaves the published write cursor alone. -/
theorem head_run_reading (channel : Channel) {actions : List Ring.Action}
    (h : ∀ action ∈ actions, action.isProducer = false) :
    (channel.run actions).region.head = channel.region.head := by
  induction actions generalizing channel with
  | nil => simp only [Channel.run_nil]
  | cons action rest ih =>
    have hstep : (channel.step action).region.head = channel.region.head := by
      by_cases hrelease : action = .finishRead
      · rw [hrelease]
        simp only [Channel.step, View.finishRead, Region.head_publishTail]
      · rw [region_step_reading channel (h action List.mem_cons_self) hrelease]
    exact (ih (channel.step action) fun later hmem => h later (List.mem_cons_of_mem _ hmem)).trans
      hstep

theorem region_channel (net : Network) (ring : Nat) :
    (net.channel ring).region = net.memory.region ring := rfl

/-- What was published to a ring of `net` has been read by the time of `later`, and released,
but nothing that was published after it. -/
structure Delivered (net later : Network) (ring : Nat) : Prop where
  /-- The records read are those published, in order and unaltered, … -/
  readsBack : List.Forall₂ Record.ReadsBack
    ((net.channel ring).journal.written.take (net.channel ring).journal.published)
    (later.channel ring).journal.popped
  /-- … and the ring is told so. -/
  tail_eq : (later.memory.region ring).tail = (net.memory.region ring).head

/-- A poll changes nothing about what was written and published. -/
theorem Sound.output_served (h : Sound net) (hlt : ring < net.merger.readers.size) :
    (net.served.channel ring).journal.written = (net.channel ring).journal.written ∧
      (net.served.channel ring).journal.published = (net.channel ring).journal.published ∧
      (net.served.memory.region ring).head = (net.memory.region ring).head := by
  obtain ⟨actions, hreading, hchannel⟩ := h.onlyRead_polled.channel ring hlt
  obtain ⟨hwritten, hpublished⟩ := (net.channel ring).written_run_reading hreading
  have hhead := head_run_reading (net.channel ring) hreading
  rw [← channel_served] at hchannel
  rw [← hchannel] at hwritten hpublished
  rw [← hchannel, region_channel, region_channel] at hhead
  exact ⟨hwritten, hpublished, hhead⟩

/-- After a poll nothing published is left unread, and nothing read unreleased. -/
theorem Sound.delivered_served (h : Sound net) (hlt : ring < net.merger.readers.size) :
    Delivered net net.served ring ∧
      (net.served.memory.region ring).head = (net.memory.region ring).head := by
  have hlt' : ring < net.served.merger.readers.size := by rwa [h.size_served]
  have hconsumed : net.served.Consumed ring := by
    rw [Network.served, consumed_renewed]
    exact h.polled_consumes (readers_renewed net.polled ▸ hlt')
  have hall : (net.served.channel ring).journal.popped.length =
      (net.served.channel ring).journal.published := by
    have horigin := h.served.logged.origin_le ring hlt'
    rw [Consumed, h.served.logged.mergedOf_eq ring hlt', List.length_drop] at hconsumed
    omega
  obtain ⟨hwritten, hpublished, hhead⟩ := h.output_served hlt
  rcases h.served.channels ring hlt' with ⟨view, hsound⟩
  have hpopped := hsound.popped
  have htail := hsound.tail
  rw [hall, hwritten, hpublished] at hpopped
  rw [h.settled_served ring hlt', hall, ← hsound.head, region_channel, hhead] at htail
  exact ⟨⟨hpopped, htail⟩, hhead⟩

/-- Nor is anything after several polls. -/
theorem Sound.delivered_iterate (h : Sound net) (hlt : ring < net.merger.readers.size)
    (count : Nat) :
    Delivered net (Network.served^[count] net).served ring ∧
      ((Network.served^[count] net).served.memory.region ring).head =
        (net.memory.region ring).head := by
  induction count generalizing net with
  | zero => exact h.delivered_served hlt
  | succ count ih =>
    obtain ⟨hdelivered, hhead⟩ := ih h.served (by rwa [h.size_served])
    obtain ⟨hwritten, hpublished, hhead'⟩ := h.output_served hlt
    have hread := hdelivered.readsBack
    rw [hwritten, hpublished] at hread
    rw [Function.iterate_succ_apply]
    exact ⟨⟨hread, hdelivered.tail_eq.trans hhead'⟩, hhead.trans hhead'⟩

/-- A producer leaves the published read cursor alone. -/
theorem tail_producer {channel : Channel} {view : View} (h : Channel.Sound view channel)
    {action : Ring.Action} (hproducer : action.isProducer = true) :
    (channel.step action).region.tail = channel.region.tail := by
  cases action with
  | startWrite => simp only [Channel.step]
  | finishWrite => simp only [Channel.step, View.finishWrite, Region.tail_publishHead]
  | write payload recordType =>
    have hle : channel.journal.released ≤ channel.journal.written.length := by
      rcases h.ordered with ⟨-, hreleased, hpopped, hvisible, hpublished, -⟩
      omega
    rw [(h.write payload recordType).tail, (journal_producer channel hproducer).1, h.tail,
      Channel.step]
    split
    · exact Channel.Sound.mark_append _ hle
    · rfl
  | rebindProducer =>
    rw [Channel.step]
    split_ifs
    · split <;> rfl
    · rfl
  | startRead | pop | finishRead | rebindConsumer => simp [Ring.Action.isProducer] at hproducer

/-- What producers do later changes nothing about what was read. -/
theorem Delivered.produce {later : Network} (h : Delivered net later ring)
    (hsound : Sound later) (hlt : ring < later.merger.readers.size) (other : Nat)
    (action : Ring.Action) : Delivered net (later.step (.produce other action)) ring := by
  rw [Network.step]
  split_ifs with hproduce
  · rw [Bool.and_eq_true, decide_eq_true_eq] at hproduce
    rcases hproduce with ⟨hproducer, hother⟩
    rw [hsound.shaped.memory_size] at hother
    have hchannel := channel_produced hsound.shaped hother hproducer ring
    split_ifs at hchannel with hsame
    · subst hsame
      rcases hsound.channels other hlt with ⟨view, hbefore⟩
      have htail := tail_producer hbefore hproducer
      rw [← hchannel, region_channel, region_channel] at htail
      refine ⟨?_, htail.trans h.tail_eq⟩
      rw [hchannel, (journal_producer (later.channel other) hproducer).2]
      exact h.readsBack
    · have hregion := congrArg Channel.region hchannel
      rw [region_channel, region_channel] at hregion
      exact ⟨hchannel ▸ h.readsBack, hregion ▸ h.tail_eq⟩
  · exact h

/-! ## New readers -/

/-- Readers bound to the regions of a memory, one each. -/
structure Bound (readers : Array Reader) (memory : Memory) : Prop where
  size_eq : readers.size = memory.size
  attach_eq : ∀ ring < memory.size,
    Reader.attach memory ring = .ok (readers.getD ring default)

/-- The network with its rings in the hands of new readers.  The records that they read are
listed anew. -/
def rebound (net : Network) (readers : Array Reader) : Network :=
  { net with
    merger := { readers := readers }
    journals := net.journals.map fun journal =>
      { journal with visible := journal.published }
    origins := net.journals.map fun journal => journal.popped.length
    merged := [] }

section Rebinding

variable {readers : Array Reader}

/-- A new reader begins where the last one has released. -/
theorem Sound.reader_of_bound (h : Sound net) (hsettled : net.Settled)
    (hbound : Bound readers net.memory) (hlt : ring < net.merger.readers.size) :
    (readers.getD ring default).region = ring ∧
      (net.channel ring).step .rebindConsumer =
        { net.channel ring with
          consumer := (readers.getD ring default).view
          journal :=
            { (net.channel ring).journal with
              visible := (net.channel ring).journal.published } } := by
  rcases h.channels ring hlt with ⟨view, hsound⟩
  have hpos : (net.channel ring).consumer.readPos = (net.channel ring).region.tail := by
    rw [hsound.consumer, hsound.tail, hsettled ring hlt]
  have hreader := hbound.attach_eq ring (by rwa [h.shaped.memory_size])
  have hattach : View.attach (net.memory.region ring) = _ := hsound.attach
  rw [Reader.attach, hattach] at hreader
  rw [← Except.ok.inj hreader, Channel.step, if_pos hpos, hsound.attach]
  exact ⟨rfl, rfl⟩

/-- To each ring, this is binding its consumer anew. -/
theorem Sound.channel_rebound (h : Sound net) (hsettled : net.Settled)
    (hbound : Bound readers net.memory) (hlt : ring < net.merger.readers.size) :
    (net.rebound readers).channel ring = (net.channel ring).step .rebindConsumer := by
  have hjournals : ring < net.journals.size := by rwa [h.shaped.journals_size]
  rw [(h.reader_of_bound hsettled hbound hlt).2, channel, Network.rebound]
  dsimp only
  rw [getD_map _ hjournals]
  rfl

/-- To bind the rings anew reads nothing. -/
theorem Sound.popped_rebound (h : Sound net) (hsettled : net.Settled)
    (hbound : Bound readers net.memory) (hlt : ring < net.merger.readers.size) :
    ((net.rebound readers).channel ring).journal.popped = (net.channel ring).journal.popped := by
  rw [h.channel_rebound hsettled hbound hlt, (h.reader_of_bound hsettled hbound hlt).2]

/-- What was read before does not count any more. -/
theorem Sound.origins_rebound (h : Sound net) (readers : Array Reader)
    (hlt : ring < net.merger.readers.size) :
    (net.rebound readers).origins.getD ring 0 = (net.channel ring).journal.popped.length := by
  have hjournals : ring < net.journals.size := by rwa [h.shaped.journals_size]
  rw [Network.rebound, channel]
  dsimp only
  rw [Array.getD_eq_getD_getElem?, Array.getD_eq_getD_getElem?, Array.getElem?_map,
    Array.getElem?_eq_getElem hjournals]
  rfl

/-- New readers see sound rings, of which nothing has come out yet. -/
theorem Sound.rebound (h : Sound net) (hsettled : net.Settled)
    (hbound : Bound readers net.memory) : Sound (net.rebound readers) := by
  have hsize : (net.rebound readers).merger.readers.size = net.merger.readers.size :=
    hbound.size_eq.trans h.shaped.memory_size
  have hjournals : (net.rebound readers).journals.size =
      (net.rebound readers).merger.readers.size := by
    rw [hsize, ← h.shaped.journals_size]
    exact Array.size_map
  refine
    { shaped :=
        { memory_size := hbound.size_eq.symm
          producers_size := h.shaped.producers_size.trans hsize.symm
          journals_size := hjournals
          origins_size := by rw [← hjournals]; simp [Network.rebound]
          region_eq := ?_ }
      channels := ?_
      held := held_new readers net.memory
      logged := ⟨fun record hmem => absurd hmem List.not_mem_nil, ?_, ?_⟩ }
  all_goals
    intro ring hlt
    rw [hsize] at hlt
  · exact (h.reader_of_bound hsettled hbound hlt).1
  · rcases h.channels ring hlt with ⟨view, hsound⟩
    rw [h.channel_rebound hsettled hbound hlt]
    exact ⟨view, hsound.rebindConsumer⟩
  · rw [h.popped_rebound hsettled hbound hlt, h.origins_rebound readers hlt]
  · rw [h.popped_rebound hsettled hbound hlt, h.origins_rebound readers hlt, List.drop_length]
    rfl

/-- A settled network stays so when its rings are bound anew. -/
theorem Settled.rebound (hsettled : net.Settled) (h : Sound net)
    (hbound : Bound readers net.memory) : (net.rebound readers).Settled := by
  intro ring hlt
  have hsize : (net.rebound readers).merger.readers.size = net.merger.readers.size :=
    hbound.size_eq.trans h.shaped.memory_size
  rw [hsize] at hlt
  rw [h.channel_rebound hsettled hbound hlt, (h.reader_of_bound hsettled hbound hlt).2]
  exact hsettled ring hlt

end Rebinding

end CacheMeter.Merge.Network
