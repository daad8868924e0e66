import Mathlib
import CacheMeter.Proofs.Merge.Network

/-!
# Batch after batch

Closing a batch leaves the heap as it is, so the next one starts from entries that an
earlier batch left behind.  They are still right: in between, the record that an entry
stands for is neither read nor overwritten.

Main results:

- Structure `Network.Sound`: heap, rings and journals agree, in a batch and between two.
- Theorem `Network.Sound.step`: every call and every step of a producer keeps them so.
- Theorem `Network.run_consistent`: what follows for calls, keys and records after any
  steps.
-/

namespace CacheMeter.Merge.Network

open CacheMeter.Ring

variable {net : Network} {ring : Nat}

/-! ## Agreement -/

/-- No ring is held under a wrong key, and while a batch is open none is missing. -/
structure Held (merger : Merger) (memory : Memory) : Prop where
  valid : merger.heap.Valid
  retained : ∀ ring time, merger.heap.key? ring = some time →
    (merger.reader ring).headTime? memory = some time
  keyed : merger.isOpen = true → Merger.Keyed merger memory

/-- What came out of the merger for a ring, as the journal of the ring has it. -/
def mergedOf (net : Network) (ring : Nat) : List (Except Ring.Refusal (UInt32 × Bytes)) :=
  (net.merged.filter fun record => record.ring = ring).map fun record =>
    .ok (record.recordType, record.payload)

/-- What came out of the merger is what was popped of each ring since it was handed
over. -/
structure Logged (net : Network) : Prop where
  ring_lt : ∀ record ∈ net.merged, record.ring < net.merger.readers.size
  origin_le : ∀ ring < net.merger.readers.size,
    net.origins.getD ring 0 ≤ (net.channel ring).journal.popped.length
  mergedOf_eq : ∀ ring < net.merger.readers.size,
    net.mergedOf ring = (net.channel ring).journal.popped.drop (net.origins.getD ring 0)

/-- Heap, rings and journals agree. -/
structure Sound (net : Network) : Prop where
  shaped : Shaped net
  channels : ∀ ring < net.merger.readers.size, ∃ view, Channel.Sound view (net.channel ring)
  held : Held net.merger net.memory
  logged : Logged net

/-- Without rings there is nothing to go wrong. -/
theorem sound_empty : Sound {} where
  shaped := shaped_empty
  channels ring hlt := absurd hlt (Nat.not_lt_zero ring)
  held :=
    { valid := IndexedHeap.valid_empty
      retained := by
        intro ring time hkey
        have hnone : ({} : Merger).heap.key? ring = none := IndexedHeap.key?_empty ring
        rw [hnone] at hkey
        exact absurd hkey.symm (Option.some_ne_none time)
      keyed := fun hopen => absurd hopen Bool.false_ne_true }
  logged :=
    { ring_lt := fun record hmem => absurd hmem List.not_mem_nil
      origin_le := fun ring hlt => absurd hlt (Nat.not_lt_zero ring)
      mergedOf_eq := fun ring hlt => absurd hlt (Nat.not_lt_zero ring) }

/-- A ring that there is not has no next record. -/
theorem headTime?_of_ge {merger : Merger} (h : merger.readers.size ≤ ring) (memory : Memory) :
    (merger.reader ring).headTime? memory = none := by
  rw [Merger.reader_of_ge h]
  rfl

/-- Heap and rings still agree if the heap is the same and so is every key. -/
theorem Held.congr {merger merger' : Merger} {memory memory' : Memory}
    (h : Held merger memory) (hheap : merger'.heap = merger.heap)
    (hopen : merger'.isOpen = true → merger.isOpen = true)
    (hkeys : ∀ ring, (merger'.reader ring).headTime? memory' =
      (merger.reader ring).headTime? memory) : Held merger' memory' where
  valid := by
    rw [hheap]
    exact h.valid
  retained ring time hkey := by
    rw [hheap] at hkey
    rw [hkeys]
    exact h.retained ring time hkey
  keyed hisOpen :=
    { valid := by
        rw [hheap]
        exact h.valid
      key?_eq := by
        intro ring
        rw [hheap, hkeys]
        exact (h.keyed (hopen hisOpen)).key?_eq ring }

/-! ## Steps of a producer -/

/-- A producer adds no ring. -/
theorem Shaped.produced (h : Shaped net) (ring : Nat) (action : Ring.Action) :
    Shaped (net.produced ring action) where
  memory_size := by simpa [Network.produced] using h.memory_size
  producers_size := by simpa [Network.produced] using h.producers_size
  journals_size := by simpa [Network.produced] using h.journals_size
  origins_size := h.origins_size
  region_eq := h.region_eq

/-- What comes next in a ring stays there whatever a producer does. -/
theorem Sound.headTime?_produced (h : Sound net) (hlt : ring < net.merger.readers.size)
    {action : Ring.Action} (hproducer : action.isProducer = true) (other : Nat) :
    (net.merger.reader other).headTime? (net.produced ring action).memory =
      (net.merger.reader other).headTime? net.memory := by
  rcases Nat.lt_or_ge other net.merger.readers.size with hother | hother
  · have hnew := (h.shaped.produced ring action).headTime?_eq hother
    apply hnew.trans
    rw [h.shaped.headTime?_eq hother, channel_produced h.shaped hlt hproducer]
    split_ifs with hsame
    · subst hsame
      rcases h.channels ring hlt with ⟨view, hsound⟩
      rw [Channel.Sound.consumer_producer _ hproducer, hsound.headTime?_producer hproducer]
    · rfl
  · rw [headTime?_of_ge hother, headTime?_of_ge hother]

/-- The log says the same if no ring has moved on and nothing came out. -/
theorem Logged.congr {net' : Network} (h : Logged net)
    (hsize : net'.merger.readers.size = net.merger.readers.size)
    (hmerged : net'.merged = net.merged) (horigins : net'.origins = net.origins)
    (hpopped : ∀ ring < net.merger.readers.size,
      (net'.channel ring).journal.popped = (net.channel ring).journal.popped) :
    Logged net' where
  ring_lt record hmem := by
    rw [hmerged] at hmem
    rw [hsize]
    exact h.ring_lt record hmem
  origin_le ring hlt := by
    rw [hsize] at hlt
    rw [horigins, hpopped ring hlt]
    exact h.origin_le ring hlt
  mergedOf_eq ring hlt := by
    rw [hsize] at hlt
    rw [mergedOf, hmerged, horigins, hpopped ring hlt]
    exact h.mergedOf_eq ring hlt

/-- A network stays sound when a producer takes a step. -/
theorem Sound.produced (h : Sound net) (hlt : ring < net.merger.readers.size)
    {action : Ring.Action} (hproducer : action.isProducer = true) :
    Sound (net.produced ring action) where
  shaped := h.shaped.produced ring action
  channels other hother := by
    rw [channel_produced h.shaped hlt hproducer]
    split_ifs
    · rcases h.channels ring hlt with ⟨view, hsound⟩
      exact ⟨view, hsound.step action⟩
    · exact h.channels other hother
  held := h.held.congr rfl id (h.headTime?_produced hlt hproducer)
  logged := h.logged.congr rfl rfl rfl (by
    intro other hother
    rw [channel_produced h.shaped hlt hproducer]
    split_ifs with hsame
    · subst hsame
      refine Channel.Sound.popped_step _ ?_
      rintro rfl
      exact absurd hproducer Bool.false_ne_true
    · rfl)

/-! ## Handing over a ring -/

/-- The merger with one more ring. -/
def grown (net : Network) (lane : Lane) : Merger :=
  { net.merger with readers := net.merger.readers.push (net.readerOf lane) }

/-- A ring can be added unless a batch is open. -/
theorem addRing_eq (net : Network) (lane : Lane) :
    net.merger.addRing (net.readerOf lane) =
      if net.merger.isOpen then .error .alreadyOpen else .ok (net.grown lane) :=
  rfl

/-- Then there is one ring more. -/
theorem size_grown (net : Network) (lane : Lane) :
    (net.grown lane).readers.size = net.merger.readers.size + 1 :=
  Array.size_push ..

/-- The new ring is the last one. -/
theorem reader_grown (net : Network) (lane : Lane) (ring : Nat) :
    (net.grown lane).reader ring =
      if ring = net.merger.readers.size then net.readerOf lane else net.merger.reader ring :=
  getD_push net.merger.readers (net.readerOf lane) default ring

/-- All that belongs to it is added with it. -/
theorem Shaped.added (h : Shaped net) (lane : Lane) :
    Shaped (net.added lane (net.grown lane)) where
  memory_size := by simpa [Network.added, size_grown] using h.memory_size
  producers_size := by simpa [Network.added, size_grown] using h.producers_size
  journals_size := by simpa [Network.added, size_grown] using h.journals_size
  origins_size := by simpa [Network.added, size_grown] using h.origins_size
  region_eq ring hlt := by
    have hlt' : ring < net.merger.readers.size + 1 := by
      rwa [← size_grown net lane]
    change ((net.grown lane).reader ring).region = ring
    rw [reader_grown]
    split_ifs with hsame
    · rw [hsame, readerOf]
      exact h.memory_size
    · exact h.region_eq ring (by omega)

/-- It brings its own channel and leaves the others. -/
theorem Sound.channel_added (h : Sound net) (lane : Lane) (hclosed : net.merger.isOpen = false)
    (ring : Nat) :
    (net.added lane (net.grown lane)).channel ring =
      if ring = net.merger.readers.size then lane.channel else net.channel ring :=
  Network.channel_added h.shaped lane (by rw [addRing_eq, hclosed, if_neg Bool.false_ne_true])
    ring

/-- A ring that is handed over was not held. -/
theorem Held.key?_of_ge {merger : Merger} {memory : Memory} (h : Held merger memory)
    (hge : merger.readers.size ≤ ring) : merger.heap.key? ring = none := by
  rw [Option.eq_none_iff_forall_ne_some]
  intro time hkey
  have hhead := h.retained _ time hkey
  rw [headTime?_of_ge hge] at hhead
  exact Option.some_ne_none time hhead.symm

/-- Its reader holds the region that was handed over. -/
theorem Sound.held_added (h : Sound net) (lane : Lane) (hclosed : net.merger.isOpen = false) :
    Held (net.grown lane) (net.added lane (net.grown lane)).memory where
  valid := h.held.valid
  retained ring time hkey := by
    have hkey' : net.merger.heap.key? ring = some time := hkey
    have hlt : ring < net.merger.readers.size := by
      by_contra hge
      rw [h.held.key?_of_ge (Nat.le_of_not_lt hge)] at hkey'
      exact Option.some_ne_none time hkey'.symm
    have hlt' : ring < (net.added lane (net.grown lane)).merger.readers.size := by
      change ring < (net.grown lane).readers.size
      rw [size_grown]
      omega
    refine ((h.shaped.added lane).headTime?_eq hlt').trans ?_
    rw [h.channel_added lane hclosed, if_neg hlt.ne, ← h.shaped.headTime?_eq hlt]
    exact h.held.retained ring time hkey'
  keyed hopen := absurd (hclosed.symm.trans hopen) Bool.false_ne_true

/-- Nothing has come out of it yet. -/
theorem Sound.logged_added (h : Sound net) (lane : Lane) (hclosed : net.merger.isOpen = false) :
    Logged (net.added lane (net.grown lane)) where
  ring_lt record hmem := by
    have hlt := h.logged.ring_lt record hmem
    change record.ring < (net.grown lane).readers.size
    rw [size_grown]
    omega
  origin_le ring hlt := by
    have hlt' : ring < net.merger.readers.size + 1 := by rwa [← size_grown net lane]
    have horigin : (net.added lane (net.grown lane)).origins.getD ring 0 =
        if ring = net.origins.size then lane.channel.journal.popped.length
        else net.origins.getD ring 0 :=
      getD_push net.origins _ 0 ring
    rw [h.channel_added lane hclosed, horigin, h.shaped.origins_size]
    split_ifs with hsame
    · exact le_rfl
    · exact h.logged.origin_le ring (by omega)
  mergedOf_eq ring hlt := by
    have hlt' : ring < net.merger.readers.size + 1 := by rwa [← size_grown net lane]
    have horigin : (net.added lane (net.grown lane)).origins.getD ring 0 =
        if ring = net.origins.size then lane.channel.journal.popped.length
        else net.origins.getD ring 0 :=
      getD_push net.origins _ 0 ring
    rw [h.channel_added lane hclosed, horigin, h.shaped.origins_size]
    split_ifs with hsame
    · -- Nothing has come out of the merger for the new ring.
      have hnone : net.merged.filter (fun record => record.ring = ring) = [] := by
        rw [List.filter_eq_nil_iff]
        intro record hmem
        have hold := h.logged.ring_lt record hmem
        simp only [decide_eq_true_eq]
        omega
      rw [List.drop_length, mergedOf, Network.added]
      dsimp only
      rw [hnone, List.map_nil]
    · exact h.logged.mergedOf_eq ring (by omega)

/-- A network stays sound when a ring is added. -/
theorem Sound.added (h : Sound net) (lane : Lane) (hclosed : net.merger.isOpen = false) :
    Sound (net.added lane (net.grown lane)) where
  shaped := h.shaped.added lane
  channels ring hlt := by
    have hlt' : ring < net.merger.readers.size + 1 := by rwa [← size_grown net lane]
    rw [h.channel_added lane hclosed]
    split_ifs with hsame
    · exact ⟨lane.view, lane.sound⟩
    · exact h.channels ring (by omega)
  held := h.held_added lane hclosed
  logged := h.logged_added lane hclosed

/-! ## Opening a batch -/

/-- To open a batch adds no ring. -/
theorem Shaped.opened (h : Shaped net) :
    Shaped (net.opened (net.merger.started net.memory)) where
  memory_size := by simpa [Network.opened, Merger.started] using h.memory_size
  producers_size := by simpa [Network.opened, Merger.started] using h.producers_size
  journals_size := by simpa [Network.opened, Merger.started] using h.journals_size
  origins_size := by simpa [Network.opened, Merger.started] using h.origins_size
  region_eq ring hlt := by
    have hlt' : ring < net.merger.readers.size := by
      simpa [Network.opened, Merger.started] using hlt
    change ((net.merger.started net.memory).reader ring).region = ring
    rw [Merger.reader_started _ _ hlt', Reader.startRead]
    exact h.region_eq ring hlt'

/-- A ring that is held from an earlier batch keeps its key when the next one opens. -/
theorem Sound.headTime?_opened (h : Sound net) {time : UInt64}
    (hkey : (net.merger.reader ring).headTime? net.memory = some time) :
    ((net.merger.started net.memory).reader ring).headTime? net.memory = some time := by
  have hlt : ring < net.merger.readers.size := by
    by_contra hge
    rw [headTime?_of_ge (Nat.le_of_not_lt hge)] at hkey
    exact Option.some_ne_none time hkey.symm
  have hfull : (net.channel ring).consumer.isEmpty = false := by
    by_contra hempty
    rw [Reader.headTime?_eq_none_iff.mpr (by simpa [channel] using hempty)] at hkey
    exact Option.some_ne_none time hkey.symm
  rcases h.channels ring hlt with ⟨view, hsound⟩
  have hlt' : ring < (net.opened (net.merger.started net.memory)).merger.readers.size := by
    simpa [Network.opened, Merger.started] using hlt
  have hnew := h.shaped.opened.headTime?_eq hlt'
  apply hnew.trans
  rw [channel_opened h.shaped hlt]
  simp only [Channel.step]
  rw [hsound.headTime?_startRead hfull, ← h.shaped.headTime?_eq hlt, hkey]

/-- When a batch opens, the heap has the next record of every ring. -/
theorem Sound.keyed_opened (h : Sound net) :
    Merger.Keyed (net.merger.started net.memory) net.memory where
  valid := Merger.valid_started h.held.valid
  key?_eq ring := by
    rw [Merger.key?_started h.held.valid]
    cases hkey : net.merger.heap.key? ring with
    | none => rw [Option.none_or]
    | some time =>
      rw [Option.some_or, h.headTime?_opened (h.held.retained ring time hkey)]

/-- A merger in agreement holds no ring under a wrong key. -/
theorem held_of_keyed {merger : Merger} {memory : Memory} (h : Merger.Keyed merger memory) :
    Held merger memory where
  valid := h.valid
  retained ring time hkey := by rw [← h.key?_eq, hkey]
  keyed _ := h

/-- A network stays sound when a batch opens. -/
theorem Sound.opened (h : Sound net) : Sound (net.opened (net.merger.started net.memory)) where
  shaped := h.shaped.opened
  channels ring hlt := by
    have hlt' : ring < net.merger.readers.size := by
      simpa [Network.opened, Merger.started] using hlt
    rcases h.channels ring hlt' with ⟨view, hsound⟩
    rw [channel_opened h.shaped hlt']
    exact ⟨view, hsound.startRead⟩
  held := held_of_keyed h.keyed_opened
  logged := h.logged.congr (by simp [Network.opened, Merger.started]) rfl rfl (by
    intro ring hlt
    rw [channel_opened h.shaped hlt]
    exact Channel.Sound.popped_step _ (by simp))

/-! ## Taking a record -/

/-- To take out a record adds no ring. -/
theorem Shaped.taken (h : Shaped net) (hlt : ring < net.merger.readers.size)
    (record : MergedRecord) :
    Shaped (net.taken record (net.merger.popped net.memory ring)) where
  memory_size := by simpa [Network.taken, Merger.popped] using h.memory_size
  producers_size := by simpa [Network.taken, Merger.popped] using h.producers_size
  journals_size := by simpa [Network.taken, Merger.popped] using h.journals_size
  origins_size := by simpa [Network.taken, Merger.popped] using h.origins_size
  region_eq other hother := by
    have hother' : other < net.merger.readers.size := by
      simpa [Network.taken, Merger.popped] using hother
    change ((net.merger.popped net.memory ring).reader other).region = other
    rw [Merger.reader_popped hlt]
    split_ifs with hsame
    · subst hsame
      exact h.region_eq ring hlt
    · exact h.region_eq other hother'

/-- What came out, after one more record has. -/
theorem mergedOf_taken (net : Network) (record : MergedRecord) (merger : Merger)
    (other : Nat) :
    (net.taken record merger).mergedOf other =
      if record.ring = other then
        net.mergedOf other ++ [.ok (record.recordType, record.payload)]
      else net.mergedOf other := by
  rw [mergedOf, taken, List.filter_append, List.filter_singleton, List.map_append, mergedOf]
  by_cases hsame : record.ring = other
  · simp [hsame]
  · simp [hsame]

/-- The journal of the ring gets the record that came out. -/
theorem popped_taken (h : Shaped net) (hfull : (net.merger.reader ring).view.isEmpty = false) :
    ((net.channel ring).step .pop).journal.popped =
      (net.channel ring).journal.popped ++
        [.ok (((net.merger.reader ring).front net.memory ring).recordType,
          ((net.merger.reader ring).front net.memory ring).payload)] := by
  have hpop : (net.channel ring).consumer.pop (net.channel ring).region =
      .ok ((net.channel ring).consumer.popped (net.channel ring).region) :=
    View.pop_eq_popped hfull
  simp only [Channel.step, hpop, record?_channel h hfull]

/-- The record taken out is what its ring had to give next. -/
theorem Sound.logged_taken (h : Sound net)
    (hfull : (net.merger.reader ring).view.isEmpty = false) :
    Logged (net.taken ((net.merger.reader ring).front net.memory ring)
      (net.merger.popped net.memory ring)) := by
  have hlt := Merger.lt_size_of_full hfull
  have hring := (net.merger.reader ring).ring_front net.memory ring
  have hpopped := popped_taken h.shaped hfull
  have hsize : (net.merger.popped net.memory ring).readers.size =
      net.merger.readers.size := by
    simp [Merger.popped]
  generalize hrecord : (net.merger.reader ring).front net.memory ring = record at *
  have hchannel (other : Nat) :
      ((net.taken record (net.merger.popped net.memory ring)).channel other).journal.popped =
        if ring = other then (net.channel other).journal.popped ++
          [.ok (record.recordType, record.payload)]
        else (net.channel other).journal.popped := by
    rw [← hrecord, channel_taken h.shaped hfull, hrecord]
    split_ifs with hsame
    · subst hsame
      exact hpopped
    · rfl
  refine ⟨?_, ?_, ?_⟩
  · intro other hmem
    change other.ring < (net.merger.popped net.memory ring).readers.size
    rw [hsize]
    rcases List.mem_append.mp hmem with hold | hnew
    · exact h.logged.ring_lt other hold
    · rw [List.mem_singleton.mp hnew, hring]
      exact hlt
  · intro other hother
    change other < (net.merger.popped net.memory ring).readers.size at hother
    rw [hsize] at hother
    have hle := h.logged.origin_le other hother
    rw [hchannel]
    split_ifs
    · rw [List.length_append]
      exact hle.trans (Nat.le_add_right _ _)
    · exact hle
  · intro other hother
    change other < (net.merger.popped net.memory ring).readers.size at hother
    rw [hsize] at hother
    have hmerged := h.logged.mergedOf_eq other hother
    rw [mergedOf_taken, hchannel, hring, hmerged]
    split_ifs
    · exact (List.drop_append_of_le_length (h.logged.origin_le other hother)).symm
    · rfl

/-- A network stays sound when a record is taken out. -/
theorem Sound.taken (h : Sound net) (hopen : net.merger.isOpen = true)
    (hfull : (net.merger.reader ring).view.isEmpty = false) :
    Sound (net.taken ((net.merger.reader ring).front net.memory ring)
      (net.merger.popped net.memory ring)) where
  shaped := h.shaped.taken (Merger.lt_size_of_full hfull) _
  channels other hother := by
    have hother' : other < net.merger.readers.size := by
      simpa [Network.taken, Merger.popped] using hother
    rw [channel_taken h.shaped hfull]
    split_ifs
    · rcases h.channels ring (Merger.lt_size_of_full hfull) with ⟨view, hsound⟩
      exact ⟨view, hsound.pop⟩
    · exact h.channels other hother'
  held := held_of_keyed ((h.held.keyed hopen).popped (Merger.lt_size_of_full hfull))
  logged := h.logged_taken hfull

/-! ## Closing a batch -/

/-- To close a batch adds no ring. -/
theorem Shaped.closed (h : Shaped net) :
    Shaped (net.closed (net.merger.finish net.memory).1 (net.merger.finish net.memory).2) where
  memory_size := (finish_regions h).1.trans h.memory_size
  producers_size := h.producers_size
  journals_size := by simpa [Network.closed, Merger.finish] using h.journals_size
  origins_size := h.origins_size
  region_eq := h.region_eq

/-- Releasing changes no key. -/
theorem Sound.headTime?_closed (h : Sound net) (ring : Nat) :
    ((net.merger.finish net.memory).1.reader ring).headTime? (net.merger.finish net.memory).2 =
      (net.merger.reader ring).headTime? net.memory := by
  rcases Nat.lt_or_ge ring net.merger.readers.size with hlt | hge
  · rcases h.channels ring hlt with ⟨view, hsound⟩
    have hlt' : ring < (net.merger.finish net.memory).1.readers.size := hlt
    refine (h.shaped.closed.headTime?_eq hlt').trans ?_
    rw [channel_closed h.shaped hlt, h.shaped.headTime?_eq hlt]
    simp only [Channel.step]
    exact hsound.headTime?_finishRead
  · have hge' : (net.merger.finish net.memory).1.readers.size ≤ ring := hge
    rw [headTime?_of_ge hge', headTime?_of_ge hge]

/-- A network stays sound when a batch is closed. -/
theorem Sound.closed (h : Sound net) :
    Sound (net.closed (net.merger.finish net.memory).1 (net.merger.finish net.memory).2) where
  shaped := h.shaped.closed
  channels ring hlt := by
    have hlt' : ring < net.merger.readers.size := hlt
    rcases h.channels ring hlt' with ⟨view, hsound⟩
    rw [channel_closed h.shaped hlt']
    exact ⟨view, hsound.finishRead⟩
  held := h.held.congr rfl (fun hopen => absurd hopen Bool.false_ne_true) h.headTime?_closed
  logged := h.logged.congr rfl rfl rfl (by
    intro ring hlt
    rw [channel_closed h.shaped hlt]
    exact Channel.Sound.popped_step _ (by simp))

/-! ## Any step -/

/-- A batch can be opened exactly if there are rings and none is open. -/
theorem start_eq_ok_iff {merger merger' : Merger} {memory : Memory} :
    merger.start memory = .ok merger' ↔
      merger.readers ≠ #[] ∧ merger.isOpen = false ∧ merger' = merger.started memory := by
  constructor
  · intro hstart
    unfold Merger.start at hstart
    split_ifs at hstart with hnone hopen
    refine ⟨?_, by simpa using hopen, (Except.ok.inj hstart).symm⟩
    intro hrings
    exact hnone (by rw [hrings]; rfl)
  · rintro ⟨hrings, hclosed, rfl⟩
    exact Merger.start_eq_started hrings hclosed

/-- A call that takes a record, or looks at it, is refused with `refusal`: no batch is
open, or no record is left. -/
def RefusesRecord (net : Network) (refusal : Merge.Refusal) : Prop :=
  (net.merger.isOpen = false ∧ refusal = .notOpen) ∨
    (net.merger.isOpen = true ∧ (∀ ring, (net.merger.reader ring).view.isEmpty = true) ∧
      refusal = .noRecords)

/-- A merger that has no record to give refuses it in every way. -/
theorem Sound.refused (h : Sound net) {refusal : Merge.Refusal}
    (hrefuses : net.RefusesRecord refusal) :
    net.merger.head = .error refusal ∧ net.merger.current net.memory = .error refusal ∧
      net.merger.pop net.memory = .error refusal := by
  have hhead : net.merger.head = .error refusal := by
    rcases hrefuses with ⟨hclosed, rfl⟩ | ⟨hopen, hempty, rfl⟩
    · simp [Merger.head, hclosed]
    · have hnone := (h.held.keyed hopen).isEmpty_iff.mpr hempty
      rw [Merger.isEmpty, IndexedHeap.Valid.isEmpty_iff_peek?] at hnone
      simp [Merger.head, hopen, hnone]
  refine ⟨hhead, ?_, ?_⟩
  · rw [Merger.current, hhead]
    rfl
  · rw [Merger.pop, hhead]
    rfl

/-- A call that is not refused takes the record of a ring that has one. -/
theorem Sound.not_refused (h : Sound net) (htakes : ∀ refusal, ¬ net.RefusesRecord refusal) :
    net.merger.isOpen = true ∧ ∃ entry : Entry,
      (net.merger.reader entry.ring).view.isEmpty = false ∧
        net.merger.head = .ok entry ∧
        net.merger.current net.memory =
          .ok ((net.merger.reader entry.ring).front net.memory entry.ring) ∧
        net.merger.pop net.memory = .ok (net.merger.popped net.memory entry.ring) := by
  have hopen : net.merger.isOpen = true := by
    by_contra hclosed
    exact htakes .notOpen (.inl ⟨by simpa using hclosed, rfl⟩)
  have hkeyed := h.held.keyed hopen
  refine ⟨hopen, ?_⟩
  cases hpeek : net.merger.heap.peek? with
  | none =>
    have hempty := hkeyed.isEmpty_iff.mp (IndexedHeap.Valid.isEmpty_iff_peek?.mpr hpeek)
    exact absurd (.inr ⟨hopen, hempty, rfl⟩) (htakes .noRecords)
  | some entry =>
    have hhead : net.merger.head = .ok entry := by simp [Merger.head, hopen, hpeek]
    exact ⟨entry, (hkeyed.of_peek? hpeek).1, hhead, hkeyed.current_eq_front hopen hpeek,
      hkeyed.pop_eq_popped hopen hpeek⟩

/-- Every call and every step of a producer keeps heap, rings and journals in agreement. -/
theorem Sound.step (h : Sound net) (action : Action) : Sound (net.step action) := by
  cases action with
  | produce ring action =>
    simp only [Network.step]
    split_ifs with hvalid
    · rw [Bool.and_eq_true, decide_eq_true_eq, h.shaped.memory_size] at hvalid
      exact h.produced hvalid.2 hvalid.1
    · exact h
  | addRing lane =>
    simp only [Network.step, addRing_eq]
    cases hopen : net.merger.isOpen with
    | true => exact h
    | false => exact h.added lane hopen
  | start =>
    simp only [Network.step]
    cases hstart : net.merger.start net.memory with
    | error refusal => exact h
    | ok merger =>
      rcases start_eq_ok_iff.mp hstart with ⟨-, -, rfl⟩
      exact h.opened
  | pop =>
    simp only [Network.step]
    by_cases hrefuses : ∃ refusal, net.RefusesRecord refusal
    · rcases hrefuses with ⟨refusal, hrefuses⟩
      rcases h.refused hrefuses with ⟨-, hcurrent, hpop⟩
      rw [hcurrent, hpop]
      exact h
    · rcases h.not_refused (not_exists.mp hrefuses) with ⟨hopen, entry, hfull, -, hcurrent, hpop⟩
      rw [hcurrent, hpop]
      exact h.taken hopen hfull
  | finish => exact h.closed

/-- A network stays sound whatever is done to it. -/
theorem Sound.run (h : Sound net) (actions : List Action) : Sound (net.run actions) := by
  induction actions generalizing net with
  | nil => exact h
  | cons action rest ih => exact ih (h.step action)

/-! ## What follows -/

/-- The call is refused. -/
def Refuses (net : Network) : Action → Prop
  | .addRing lane => ∃ refusal, net.merger.addRing (net.readerOf lane) = .error refusal
  | .start => ∃ refusal, net.merger.start net.memory = .error refusal
  | .pop => ∃ refusal, net.merger.pop net.memory = .error refusal
  | .produce _ _ | .finish => False

/-- What is refused changes nothing. -/
theorem step_of_refuses {action : Action} (h : net.Refuses action) : net.step action = net := by
  cases action with
  | addRing lane =>
    rcases h with ⟨refusal, hrefusal⟩
    simp only [step, hrefusal]
  | start =>
    rcases h with ⟨refusal, hrefusal⟩
    simp only [step, hrefusal]
  | pop =>
    rcases h with ⟨refusal, hrefusal⟩
    simp only [step, hrefusal]
    cases net.merger.current net.memory <;> rfl
  | produce | finish => exact h.elim

/-- What holds of heap, calls and records at any time. -/
structure Consistent (net : Network) : Prop where
  /-- In a batch the heap holds exactly the rings with an unread record, … -/
  contains_iff : net.merger.isOpen = true → ∀ ring,
    net.merger.heap.contains ring = true ↔ (net.merger.reader ring).view.isEmpty = false
  /-- … each under the key of its current record. -/
  key?_eq : net.merger.isOpen = true → ∀ ring,
    net.merger.heap.key? ring = (net.merger.reader ring).headTime? net.memory
  /-- Between batches, too, no ring is held under another key. -/
  retained : ∀ ring, net.merger.heap.contains ring = true →
    net.merger.heap.key? ring = (net.merger.reader ring).headTime? net.memory
  addRing_refusal : ∀ lane refusal,
    net.merger.addRing (net.readerOf lane) = .error refusal ↔
      net.merger.isOpen = true ∧ refusal = .alreadyOpen
  start_refusal : ∀ refusal, net.merger.start net.memory = .error refusal ↔
    (net.merger.readers.isEmpty = true ∧ refusal = .noRings) ∨
      (net.merger.readers.isEmpty = false ∧ net.merger.isOpen = true ∧ refusal = .alreadyOpen)
  /-- No call is refused because of a ring. -/
  head_refusal : ∀ refusal, net.merger.head = .error refusal ↔ net.RefusesRecord refusal
  current_refusal : ∀ refusal,
    net.merger.current net.memory = .error refusal ↔ net.RefusesRecord refusal
  pop_refusal : ∀ refusal,
    net.merger.pop net.memory = .error refusal ↔ net.RefusesRecord refusal
  /-- A refused call leaves merger and rings as they are. -/
  refused : ∀ action, net.Refuses action → net.step action = net
  /-- The records popped from a ring are the first ones published to it after the consumer's
  position at the time it was handed over, in order and read back unaltered. -/
  delivered : ∀ ring < net.merger.readers.size,
    net.origins.getD ring 0 + (net.mergedOf ring).length ≤
        (net.channel ring).journal.published ∧
      List.Forall₂ Record.ReadsBack
        (((net.channel ring).journal.written.drop (net.origins.getD ring 0)).take
          (net.mergedOf ring).length)
        (net.mergedOf ring)

/-- What came out of a ring are records published to it, in order and unaltered. -/
theorem Sound.delivered (h : Sound net) (hlt : ring < net.merger.readers.size) :
    net.origins.getD ring 0 + (net.mergedOf ring).length ≤
        (net.channel ring).journal.published ∧
      List.Forall₂ Record.ReadsBack
        (((net.channel ring).journal.written.drop (net.origins.getD ring 0)).take
          (net.mergedOf ring).length)
        (net.mergedOf ring) := by
  rcases h.channels ring hlt with ⟨view, hsound⟩
  have horigin := h.logged.origin_le ring hlt
  have hpopped := hsound.ordered.popped_le.trans hsound.ordered.visible_le
  have hlength : (net.mergedOf ring).length =
      (net.channel ring).journal.popped.length - net.origins.getD ring 0 := by
    rw [h.logged.mergedOf_eq ring hlt, List.length_drop]
  refine ⟨by omega, ?_⟩
  rw [hlength, h.logged.mergedOf_eq ring hlt, ← List.drop_take]
  exact List.forall₂_drop _ hsound.popped

/-- A call fails exactly as said if it does so whenever that is said, and succeeds when
nothing is. -/
theorem error_iff_refusesRecord {α : Type} {outcome : Except Merge.Refusal α}
    (hrefused : ∀ refusal, net.RefusesRecord refusal → outcome = .error refusal)
    (htakes : (∀ refusal, ¬ net.RefusesRecord refusal) → ∃ value, outcome = .ok value)
    (refusal : Merge.Refusal) : outcome = .error refusal ↔ net.RefusesRecord refusal := by
  constructor
  · intro herror
    by_cases hrefuses : ∃ refusal, net.RefusesRecord refusal
    · rcases hrefuses with ⟨other, hother⟩
      rw [hrefused other hother, Except.error.injEq] at herror
      rwa [← herror]
    · rcases htakes (not_exists.mp hrefuses) with ⟨value, hvalue⟩
      rw [hvalue] at herror
      simp at herror
  · exact hrefused refusal

/-- A sound network keeps all that is asked of a merger. -/
theorem Sound.consistent (h : Sound net) : Consistent net where
  contains_iff hopen ring := by
    have hkeyed := h.held.keyed hopen
    rw [hkeyed.valid.indexed.contains_eq_isSome, hkeyed.key?_eq, Option.isSome_iff_ne_none,
      ne_eq, Reader.headTime?_eq_none_iff, Bool.not_eq_true]
  key?_eq hopen := (h.held.keyed hopen).key?_eq
  retained ring hcontains := by
    rw [h.held.valid.indexed.contains_eq_isSome, Option.isSome_iff_exists] at hcontains
    rcases hcontains with ⟨time, hkey⟩
    rw [hkey, h.held.retained ring time hkey]
  addRing_refusal lane refusal := by
    rw [addRing_eq]
    cases net.merger.isOpen <;> simp [eq_comm]
  start_refusal refusal := Merger.start_eq_error_iff
  head_refusal := by
    refine error_iff_refusesRecord (fun _ hrefuses => (h.refused hrefuses).1) ?_
    intro htakes
    rcases h.not_refused htakes with ⟨-, entry, -, hhead, -⟩
    exact ⟨entry, hhead⟩
  current_refusal := by
    refine error_iff_refusesRecord (fun _ hrefuses => (h.refused hrefuses).2.1) ?_
    intro htakes
    rcases h.not_refused htakes with ⟨-, entry, -, -, hcurrent, -⟩
    exact ⟨_, hcurrent⟩
  pop_refusal := by
    refine error_iff_refusesRecord (fun _ hrefuses => (h.refused hrefuses).2.2) ?_
    intro htakes
    rcases h.not_refused htakes with ⟨-, entry, -, -, -, hpop⟩
    exact ⟨_, hpop⟩
  refused action := step_of_refuses
  delivered ring hlt := h.delivered hlt

/-- A merger, its rings and their producers are consistent after any calls and steps, in
any order. -/
theorem run_consistent (actions : List Action) : Consistent (run {} actions) :=
  (sound_empty.run actions).consistent

end CacheMeter.Merge.Network
