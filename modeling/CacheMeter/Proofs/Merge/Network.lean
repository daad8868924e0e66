import Mathlib
import CacheMeter.Proofs.Merge.Batch
import CacheMeter.Proofs.Merge.Frame

/-!
# A merger among its producers

A network is a merger with the memory it reads and the producers that write there.  Its
journals are not part of the program: every ring has that of its channel, and the
records popped from the merger are listed as they came out.

Main results:

- Definition `Network.step`: one call of the merger or one step of a producer.
- Theorems `Network.channel_opened`, `channel_taken` and `channel_closed`: to each ring,
  what the merger does is a step of its consumer.
-/

namespace CacheMeter.Merge

open CacheMeter.Ring

/-! ## Arrays by number -/

section Arrays

variable {α : Type} {xs : Array α} {i j : Nat}

/-- What an array holds after one place was set. -/
theorem getD_setIfInBounds (hlt : i < xs.size) (x d : α) (j : Nat) :
    (xs.setIfInBounds i x).getD j d = if i = j then x else xs.getD j d := by
  rw [Array.getD_eq_getD_getElem?, Array.getD_eq_getD_getElem?, Array.getElem?_setIfInBounds,
    if_pos hlt]
  split_ifs <;> rfl

/-- What an array holds after one element was added. -/
theorem getD_push (xs : Array α) (x d : α) (j : Nat) :
    (xs.push x).getD j d = if j = xs.size then x else xs.getD j d := by
  rw [Array.getD_eq_getD_getElem?, Array.getD_eq_getD_getElem?, Array.getElem?_push]
  split_ifs <;> rfl

/-- What an array holds after one place was changed. -/
theorem getD_modify (f : α → α) (hlt : i < xs.size) (d : α) (j : Nat) :
    (xs.modify i f).getD j d = if i = j then f (xs.getD j d) else xs.getD j d := by
  rw [Array.getD_eq_getD_getElem?, Array.getD_eq_getD_getElem?, Array.getElem?_modify]
  split_ifs with hsame
  · rw [← hsame, Array.getElem?_eq_getElem hlt]
    rfl
  · rfl

/-- What an array holds after every place was changed. -/
theorem getD_map (f : α → α) (hlt : i < xs.size) (d : α) :
    (xs.map f).getD i d = f (xs.getD i d) := by
  rw [Array.getD_eq_getD_getElem?, Array.getD_eq_getD_getElem?, Array.getElem?_map,
    Array.getElem?_eq_getElem hlt]
  rfl

end Arrays

/-! ## Networks -/

/-- A ring that was bound while idle, and the steps its two sides have taken before the
consumer is handed to a merger. -/
structure Lane where
  region : Region
  view : View
  actions : List Ring.Action
  attach : View.attach region = .ok view
  idle : region.head = region.tail

namespace Lane

/-- The ring at the time it is handed over. -/
def channel (lane : Lane) : Channel :=
  (Channel.opened lane.region lane.view).run lane.actions

/-- The ring of a lane is sound when it is handed over. -/
theorem sound (lane : Lane) : Channel.Sound lane.view lane.channel :=
  (Channel.sound_opened lane.attach lane.idle).run lane.actions

end Lane

/-- A merger, the memory of its rings, and their producers. -/
structure Network where
  memory : Memory := #[]
  merger : Merger := {}
  producers : Array View := #[]
  journals : Array Journal := #[]
  /-- How many records of each ring had been popped when it was handed over. -/
  origins : Array Nat := #[]
  /-- The records popped from the merger, oldest first. -/
  merged : List MergedRecord := []

namespace Network

/-- A call of the merger, or a step of the producer of one ring.  The calls that only look
are none: they change nothing. -/
inductive Action
  | produce (ring : Nat) (action : Ring.Action)
  | addRing (lane : Lane)
  | start
  | pop
  | finish

/-- The ring with a given number, with both its sides. -/
def channel (net : Network) (ring : Nat) : Channel where
  region := net.memory.region ring
  producer := net.producers.getD ring default
  consumer := (net.merger.reader ring).view
  journal := net.journals.getD ring {}

/-- Regions are numbered in the order in which their rings are handed over. -/
def readerOf (net : Network) (lane : Lane) : Reader where
  region := net.memory.size
  view := lane.channel.consumer

/-- The network after a step of the producer of a ring. -/
def produced (net : Network) (ring : Nat) (action : Ring.Action) : Network :=
  let channel := (net.channel ring).step action
  { net with
    memory := net.memory.setIfInBounds ring channel.region
    producers := net.producers.setIfInBounds ring channel.producer
    journals := net.journals.setIfInBounds ring channel.journal }

/-- The network with one more ring. -/
def added (net : Network) (lane : Lane) (merger : Merger) : Network :=
  { net with
    memory := net.memory.push lane.channel.region
    merger := merger
    producers := net.producers.push lane.channel.producer
    journals := net.journals.push lane.channel.journal
    origins := net.origins.push lane.channel.journal.popped.length }

/-- The network after opening a batch. -/
def opened (net : Network) (merger : Merger) : Network :=
  { net with
    merger := merger
    journals := net.journals.map fun journal =>
      { journal with visible := journal.published } }

/-- The network after popping a record. -/
def taken (net : Network) (record : MergedRecord) (merger : Merger) : Network :=
  { net with
    merger := merger
    journals := net.journals.modify record.ring fun journal =>
      { journal with popped := journal.popped ++ [.ok (record.recordType, record.payload)] }
    merged := net.merged ++ [record] }

/-- The network after closing a batch. -/
def closed (net : Network) (merger : Merger) (memory : Memory) : Network :=
  { net with
    memory := memory
    merger := merger
    journals := net.journals.map fun journal =>
      { journal with released := journal.popped.length } }

/-- One step.  A refused call changes nothing, and so does a step that is not one of a
producer of the network. -/
def step (net : Network) : Action → Network
  | .produce ring action =>
    if action.isProducer && ring < net.memory.size then net.produced ring action else net
  | .addRing lane =>
    match net.merger.addRing (net.readerOf lane) with
    | .ok merger => net.added lane merger
    | .error _ => net
  | .start =>
    match net.merger.start net.memory with
    | .ok merger => net.opened merger
    | .error _ => net
  | .pop =>
    match net.merger.current net.memory, net.merger.pop net.memory with
    | .ok record, .ok merger => net.taken record merger
    | _, _ => net
  | .finish => net.closed (net.merger.finish net.memory).1 (net.merger.finish net.memory).2

/-- Steps in any order. -/
def run (net : Network) (actions : List Action) : Network :=
  actions.foldl step net

/-! ## Shape -/

/-- Everything is numbered alike, and each ring reads its own region. -/
structure Shaped (net : Network) : Prop where
  memory_size : net.memory.size = net.merger.readers.size
  producers_size : net.producers.size = net.merger.readers.size
  journals_size : net.journals.size = net.merger.readers.size
  origins_size : net.origins.size = net.merger.readers.size
  region_eq : ∀ ring < net.merger.readers.size, (net.merger.reader ring).region = ring

variable {net : Network} {ring : Nat}

/-- Without rings all arrays are empty. -/
theorem shaped_empty : Shaped {} where
  memory_size := rfl
  producers_size := rfl
  journals_size := rfl
  origins_size := rfl
  region_eq ring hlt := absurd hlt (Nat.not_lt_zero ring)

/-- The key of a ring is what its consumer sees. -/
theorem Shaped.headTime?_eq (h : Shaped net) (hlt : ring < net.merger.readers.size) :
    (net.merger.reader ring).headTime? net.memory =
      (net.channel ring).consumer.headTime? (net.channel ring).region := by
  rw [Reader.headTime?, h.region_eq ring hlt, channel]

/-! ## What a step does to each ring -/

/-- A producer moves its own channel. -/
theorem channel_produced (h : Shaped net) (hlt : ring < net.merger.readers.size)
    {action : Ring.Action} (hproducer : action.isProducer = true) (other : Nat) :
    (net.produced ring action).channel other =
      if ring = other then (net.channel ring).step action else net.channel other := by
  have hregion : ring < net.memory.size := by rwa [h.memory_size]
  have hproducers : ring < net.producers.size := by rwa [h.producers_size]
  have hjournals : ring < net.journals.size := by rwa [h.journals_size]
  have hconsumer : ((net.channel ring).step action).consumer = (net.merger.reader ring).view :=
    Channel.Sound.consumer_producer (net.channel ring) hproducer
  rw [channel, produced]
  dsimp only
  rw [Memory.region, getD_setIfInBounds hregion, getD_setIfInBounds hproducers,
    getD_setIfInBounds hjournals]
  split_ifs with hsame
  · subst hsame
    rw [← hconsumer]
  · rfl

/-- A ring that is added brings its channel. -/
theorem channel_added (h : Shaped net) (lane : Lane) {merger : Merger}
    (hadd : net.merger.addRing (net.readerOf lane) = .ok merger) (other : Nat) :
    (net.added lane merger).channel other =
      if other = net.merger.readers.size then lane.channel else net.channel other := by
  have hmerger : merger =
      { net.merger with readers := net.merger.readers.push (net.readerOf lane) } := by
    unfold Merger.addRing at hadd
    split_ifs at hadd
    exact (Except.ok.inj hadd).symm
  rw [channel, added, hmerger, Memory.region, Merger.reader]
  dsimp only
  rw [getD_push, getD_push, getD_push, getD_push, h.memory_size, h.producers_size,
    h.journals_size]
  split_ifs with hsame
  · rw [readerOf]
  · rfl

/-- To open a batch is a look of every consumer. -/
theorem channel_opened (h : Shaped net) (hlt : ring < net.merger.readers.size) :
    (net.opened (net.merger.started net.memory)).channel ring =
      (net.channel ring).step .startRead := by
  have hjournals : ring < net.journals.size := by rwa [h.journals_size]
  rw [channel, opened]
  dsimp only
  rw [getD_map _ hjournals, Merger.reader_started _ _ hlt]
  simp only [Channel.step, channel, Reader.startRead, h.region_eq ring hlt]

/-- The consumer of a ring reads what the merger reads there. -/
theorem record?_channel (h : Shaped net)
    (hfull : (net.merger.reader ring).view.isEmpty = false) :
    (net.channel ring).consumer.record? (net.channel ring).region =
      .ok (((net.merger.reader ring).front net.memory ring).recordType,
        ((net.merger.reader ring).front net.memory ring).payload) := by
  have hregion := h.region_eq ring (Merger.lt_size_of_full hfull)
  rw [← Reader.record?_of_full hfull ring, Reader.record?, hregion, channel]

/-- To the ring whose record is taken, this is a pop; the others are left alone. -/
theorem channel_taken (h : Shaped net) (hfull : (net.merger.reader ring).view.isEmpty = false)
    (other : Nat) :
    (net.taken ((net.merger.reader ring).front net.memory ring)
        (net.merger.popped net.memory ring)).channel other =
      if ring = other then (net.channel ring).step .pop else net.channel other := by
  have hlt := Merger.lt_size_of_full hfull
  have hjournals : ring < net.journals.size := by rwa [h.journals_size]
  have hregion := h.region_eq ring hlt
  rw [channel, taken]
  dsimp only
  rw [Reader.ring_front, getD_modify _ hjournals, Merger.reader_popped hlt]
  split_ifs with hsame
  · subst hsame
    have hpop : (net.channel ring).consumer.pop (net.channel ring).region =
        .ok ((net.channel ring).consumer.popped (net.channel ring).region) :=
      View.pop_eq_popped hfull
    simp only [Channel.step, hpop, record?_channel h hfull]
    simp only [channel, Reader.popped, hregion]
  · rfl

/-! ### Closing a batch -/

/-- Every listed reader releases its own region. -/
theorem region_foldl_finishRead (readers : List Reader) (first : Nat) (memory : Memory)
    (hregion : ∀ i reader, readers[i]? = some reader → reader.region = first + i)
    (hsize : first + readers.length ≤ memory.size) :
    (readers.foldl (fun memory reader => reader.finishRead memory) memory).size =
        memory.size ∧
      ∀ ring, Memory.region
          (readers.foldl (fun memory reader => reader.finishRead memory) memory) ring =
        if first ≤ ring then
          match readers[ring - first]? with
          | some reader => reader.view.finishRead (memory.region ring)
          | none => memory.region ring
        else memory.region ring := by
  induction readers generalizing first memory with
  | nil =>
    refine ⟨rfl, ?_⟩
    intro ring
    simp
  | cons reader rest ih =>
    have hfirst : reader.region = first := hregion 0 reader rfl
    have hlt : first < memory.size := by
      rw [List.length_cons] at hsize
      omega
    have hmodify : (reader.finishRead memory).size = memory.size := by
      simp [Reader.finishRead]
    have hregion' (ring : Nat) : (reader.finishRead memory).region ring =
        if first = ring then reader.view.finishRead (memory.region ring)
        else memory.region ring := by
      rw [Reader.finishRead, hfirst, Memory.region, getD_modify _ hlt, Memory.region]
    obtain ⟨hsize', hrest⟩ := ih (first + 1) (reader.finishRead memory)
      (fun i other hother => by
        rw [hregion (i + 1) other (by simpa using hother)]
        omega)
      (by
        rw [List.length_cons] at hsize
        omega)
    refine ⟨hsize'.trans hmodify, ?_⟩
    intro ring
    rw [List.foldl_cons, hrest, hregion']
    rcases Nat.lt_trichotomy first ring with hbelow | rfl | habove
    · have hindex : ring - first = (ring - (first + 1)) + 1 := by omega
      rw [if_neg hbelow.ne, if_pos (Nat.succ_le_of_lt hbelow), if_pos hbelow.le, hindex,
        List.getElem?_cons_succ]
    · rw [if_pos rfl, if_neg (by omega), if_pos le_rfl, Nat.sub_self,
        List.getElem?_cons_zero]
    · rw [if_neg habove.ne', if_neg (by omega), if_neg (by omega)]

/-- To close a batch is to release what every reader has read. -/
theorem finish_regions (h : Shaped net) :
    (net.merger.finish net.memory).2.size = net.memory.size ∧
      ∀ ring < net.merger.readers.size,
        Memory.region (net.merger.finish net.memory).2 ring =
          (net.merger.reader ring).view.finishRead (net.memory.region ring) := by
  have hfold := region_foldl_finishRead net.merger.readers.toList 0 net.memory
    (fun i reader hreader => by
      rcases List.getElem?_eq_some_iff.mp hreader with ⟨hlt, hget⟩
      have hlt' : i < net.merger.readers.size := by simpa using hlt
      have hregion := h.region_eq i hlt'
      rw [Merger.reader_of_lt hlt'] at hregion
      rw [← hget, Nat.zero_add]
      simpa using hregion)
    (by
      rw [Nat.zero_add, Array.length_toList, h.memory_size])
  rw [Array.foldl_toList] at hfold
  refine ⟨hfold.1, ?_⟩
  intro ring hlt
  apply (hfold.2 ring).trans
  rw [if_pos (Nat.zero_le ring), Merger.reader_of_lt hlt]
  simp [hlt]

/-- To close a batch is the release of every consumer. -/
theorem channel_closed (h : Shaped net) (hlt : ring < net.merger.readers.size) :
    (net.closed (net.merger.finish net.memory).1 (net.merger.finish net.memory).2).channel ring =
      (net.channel ring).step .finishRead := by
  have hjournals : ring < net.journals.size := by rwa [h.journals_size]
  have hreader : (net.merger.finish net.memory).1.reader ring = net.merger.reader ring := rfl
  rw [channel, closed]
  dsimp only
  rw [getD_map _ hjournals, (finish_regions h).2 ring hlt, hreader]
  simp only [Channel.step, channel]

end Network

end CacheMeter.Merge
