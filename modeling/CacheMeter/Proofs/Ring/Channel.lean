import Mathlib
import CacheMeter.Proofs.Ring.Spans

/-!
# A ring with both its sides

A channel is a region with one producer view and one consumer view.  Its journal
is not part of the program: it lists the records written and what was read of the
records popped, and counts how far each cursor had come when it was last set.  On
the unwrapped timeline every one of the six cursors is then the position of a
record, whatever the order in which the two sides take their steps.

Main results:

- Definition `Channel.step`: one step of either side, `Channel.run` any sequence.
- Structure `Channel.Sound`: the cursors are in order, and the records between the
  two that bound the free space are intact in memory.
- Theorem `Channel.Sound.step`: every step of either side keeps a channel sound.
- Theorem `Channel.Sound.reads`: a sound consumer reads the record that is next.
-/

namespace CacheMeter.Ring

/-! ## Positions of records -/

/-- Bytes that records take up in a ring. -/
def extent : List (UInt32 × Bytes) → Nat
  | [] => 0
  | record :: rest => Record.size record.1 record.2 + extent rest

theorem extent_append (first second : List (UInt32 × Bytes)) :
    extent (first ++ second) = extent first + extent second := by
  induction first with
  | nil => simp [extent]
  | cons record rest ih => simp [extent, ih, Nat.add_assoc]

/-- Where the record with a given number begins on the unwrapped timeline, if records
are written one after the other from `origin` on. -/
def position (written : List (UInt32 × Bytes)) (origin count : Nat) : Nat :=
  origin + extent (written.take count)

theorem position_zero (written : List (UInt32 × Bytes)) (origin : Nat) :
    position written origin 0 = origin := by
  simp [position, extent]

section Position

variable {written : List (UInt32 × Bytes)} {origin m n : Nat} {record : UInt32 × Bytes}

/-- The next record begins where this one ends. -/
theorem position_succ (h : written[n]? = some record) :
    position written origin (n + 1) =
      position written origin n + Record.size record.1 record.2 := by
  rcases List.getElem?_eq_some_iff.mp h with ⟨hlt, hget⟩
  rw [position, List.take_succ_eq_append_getElem hlt, hget, extent_append]
  simp [position, extent, Nat.add_assoc]

/-- Later records do not begin earlier. -/
theorem position_mono (written : List (UInt32 × Bytes)) (origin : Nat) (hmn : m ≤ n) :
    position written origin m ≤ position written origin n := by
  have htake := List.take_append_drop m (written.take n)
  rw [List.take_take, Nat.min_eq_left hmn] at htake
  rw [position, position, ← htake, extent_append]
  omega

/-- Later records do not move the earlier ones. -/
theorem position_append (more : List (UInt32 × Bytes)) (h : n ≤ written.length) :
    position (written ++ more) origin n = position written origin n := by
  simp [position, List.take_append_of_le_length h]

/-- A record lies wholly before the ones after it. -/
theorem position_add_size_le (origin : Nat) (h : written[m]? = some record) (hmn : m < n) :
    position written origin m + Record.size record.1 record.2 ≤ position written origin n := by
  rw [← position_succ h]
  exact position_mono written origin hmn

/-- They begin later, as no record is empty. -/
theorem position_lt_position (origin : Nat) (hmn : m < n) (hn : n ≤ written.length) :
    position written origin m < position written origin n := by
  have hlt : m < written.length := by omega
  have hle := position_add_size_le origin (List.getElem?_eq_getElem hlt) hmn
  have hmin := Record.headerSize_le_size written[m].1 written[m].2
  unfold headerSize at hmin
  omega

end Position

/-! ## Channels -/

/-- What has happened in a channel.  The counts say how many records the cursor in
question had passed when it was last set. -/
structure Journal where
  /-- The records whose write succeeded, oldest first. -/
  written : List (UInt32 × Bytes) := []
  /-- What the consumer read of each record it popped, oldest first. -/
  popped : List (Except Refusal (UInt32 × Bytes)) := []
  /-- Records below the published write cursor. -/
  published : Nat := 0
  /-- Records below the consumer's copy of the write cursor. -/
  visible : Nat := 0
  /-- Records below the published read cursor. -/
  released : Nat := 0
  /-- Records below the producer's copy of the read cursor. -/
  acknowledged : Nat := 0

/-- A ring with its producer, its consumer and their journal. -/
structure Channel where
  region : Region
  producer : View
  consumer : View
  journal : Journal := {}

/-- A step of the producer or of the consumer.  Peeking is none: it changes nothing. -/
inductive Action
  | startWrite
  | write (payload : Bytes) (recordType : UInt32)
  | finishWrite
  | rebindProducer
  | startRead
  | pop
  | finishRead
  | rebindConsumer
deriving DecidableEq, Repr

/-- Whether the step is one of the producer. -/
def Action.isProducer : Action → Bool
  | .startWrite | .write _ _ | .finishWrite | .rebindProducer => true
  | _ => false

/-- Whether the step is one by which the consumer looks at what is published. -/
def Action.isLook : Action → Bool
  | .startRead | .rebindConsumer => true
  | _ => false

namespace Channel

/-- Both sides bound to a region. -/
def opened (region : Region) (view : View) : Channel where
  region := region
  producer := view
  consumer := view

/-- One step.  A refused call changes nothing.  A side is bound anew only when it has
no progress that it did not publish. -/
def step (channel : Channel) : Action → Channel
  | .startWrite =>
    { channel with
      producer := channel.producer.startWrite channel.region
      journal := { channel.journal with acknowledged := channel.journal.released } }
  | .write payload recordType =>
    match channel.producer.write channel.region payload recordType with
    | .ok (_, producer, region) =>
      { channel with
        region := region
        producer := producer
        journal :=
          { channel.journal with
            written := channel.journal.written ++ [(recordType, payload)] } }
    | .error _ => channel
  | .finishWrite =>
    { channel with
      region := channel.producer.finishWrite channel.region
      journal := { channel.journal with published := channel.journal.written.length } }
  | .rebindProducer =>
    if channel.producer.writePos = channel.region.head then
      match View.attach channel.region with
      | .ok producer =>
        { channel with
          producer := producer
          journal := { channel.journal with acknowledged := channel.journal.released } }
      | .error _ => channel
    else channel
  | .startRead =>
    { channel with
      consumer := channel.consumer.startRead channel.region
      journal := { channel.journal with visible := channel.journal.published } }
  | .pop =>
    match channel.consumer.pop channel.region with
    | .ok consumer =>
      { channel with
        consumer := consumer
        journal :=
          { channel.journal with
            popped := channel.journal.popped ++ [channel.consumer.record? channel.region] } }
    | .error _ => channel
  | .finishRead =>
    { channel with
      region := channel.consumer.finishRead channel.region
      journal := { channel.journal with released := channel.journal.popped.length } }
  | .rebindConsumer =>
    if channel.consumer.readPos = channel.region.tail then
      match View.attach channel.region with
      | .ok consumer =>
        { channel with
          consumer := consumer
          journal := { channel.journal with visible := channel.journal.published } }
      | .error _ => channel
    else channel

/-- Steps of both sides in any order. -/
def run (channel : Channel) (actions : List Action) : Channel :=
  actions.foldl step channel

@[simp]
theorem run_nil (channel : Channel) : channel.run [] = channel := rfl

/-- The last action is done last. -/
theorem run_concat (channel : Channel) (actions : List Action) (action : Action) :
    channel.run (actions ++ [action]) = (channel.run actions).step action := by
  simp [run]

/-! ## Soundness -/

/-- The six cursors are those of records in order, and the producer is never more than
a capacity ahead of what it knows to be released. -/
structure Ordered (view : View) (journal : Journal) : Prop where
  acknowledged_le : journal.acknowledged ≤ journal.released
  released_le : journal.released ≤ journal.popped.length
  popped_le : journal.popped.length ≤ journal.visible
  visible_le : journal.visible ≤ journal.published
  published_le : journal.published ≤ journal.written.length
  room : position journal.written view.readPos.toNat journal.written.length ≤
    position journal.written view.readPos.toNat journal.acknowledged + view.capacity

/-- The word at which the record with a given number begins in a ring bound as `view`. -/
def mark (view : View) (written : List (UInt32 × Bytes)) (count : Nat) : UInt64 :=
  UInt64.ofNat (position written view.readPos.toNat count)

/-- A channel whose sides were bound as `view`, after any steps: what is in memory and
in the two views follows from the journal. -/
structure Sound (view : View) (channel : Channel) : Prop where
  ordered : Ordered view channel.journal
  tail : channel.region.tail = mark view channel.journal.written channel.journal.released
  head : channel.region.head = mark view channel.journal.written channel.journal.published
  producer : channel.producer =
    { view with
      readPos := mark view channel.journal.written channel.journal.acknowledged
      writePos := mark view channel.journal.written channel.journal.written.length }
  consumer : channel.consumer =
    { view with
      readPos := mark view channel.journal.written channel.journal.popped.length
      writePos := mark view channel.journal.written channel.journal.visible }
  attach : View.attach channel.region =
    .ok { view with readPos := channel.region.tail, writePos := channel.region.head }
  fits : ∀ record ∈ channel.journal.written, Record.size record.1 record.2 < UInt16.size
  stored : ∀ count record, channel.journal.acknowledged ≤ count →
    channel.journal.written[count]? = some record →
      view.span channel.region (position channel.journal.written view.readPos.toNat count)
        (Record.bytes record.1 record.2).length = Record.bytes record.1 record.2
  popped : List.Forall₂ Record.ReadsBack
    (channel.journal.written.take channel.journal.popped.length) channel.journal.popped

variable {view : View} {channel : Channel}

namespace Sound

theorem capacity_dvd (h : Sound view channel) : view.capacity ∣ UInt64.size := by
  rcases View.attach_eq_ok_iff.mp h.attach with ⟨-, ⟨hpow, -, hle⟩, -⟩
  exact dvd_size_of_isPowerOfTwo hpow hle

/-- The capacity fits a word. -/
theorem capacity_lt (h : Sound view channel) : view.capacity < UInt64.size := by
  rcases View.attach_eq_ok_iff.mp h.attach with ⟨-, ⟨-, -, hle⟩, -⟩
  simp only [maxWord, UInt64.size] at *
  omega

/-- The data region begins past the metadata block. -/
theorem metadata_le (h : Sound view channel) : Metadata.size ≤ view.dataStart := by
  rcases View.attach_eq_ok_iff.mp h.attach with ⟨-, -, ⟨-, hle, -⟩, -⟩
  exact hle

/-- The wrapped distance of two cursors is their distance on the timeline. -/
theorem toNat_mark_sub (h : Sound view channel) {m n : Nat} (hmn : m ≤ n)
    (hm : channel.journal.acknowledged ≤ m) (hn : n ≤ channel.journal.written.length) :
    (mark view channel.journal.written n - mark view channel.journal.written m).toNat =
      position channel.journal.written view.readPos.toNat n -
        position channel.journal.written view.readPos.toNat m := by
  have hfirst := position_mono channel.journal.written view.readPos.toNat hm
  have hlast := position_mono channel.journal.written view.readPos.toNat hn
  have hroom := h.ordered.room
  have hlt := h.capacity_lt
  exact toNat_ofNat_sub_ofNat (position_mono _ _ hmn) (by omega)

/-- Marks within the room of a ring are the same only for the same record. -/
theorem mark_eq_mark_iff (h : Sound view channel) {m n : Nat} (hmn : m ≤ n)
    (hm : channel.journal.acknowledged ≤ m) (hn : n ≤ channel.journal.written.length) :
    mark view channel.journal.written m = mark view channel.journal.written n ↔ m = n := by
  constructor
  · intro heq
    have hsub := h.toNat_mark_sub hmn hm hn
    rw [heq, UInt64.sub_self] at hsub
    by_contra hne
    have hlt := position_lt_position view.readPos.toNat (Nat.lt_of_le_of_ne hmn hne) hn
    simp at hsub
    omega
  · rintro rfl
    rfl

/-- The consumer is empty exactly if it has popped all it can see. -/
theorem isEmpty_iff (h : Sound view channel) :
    channel.consumer.isEmpty = true ↔
      channel.journal.popped.length = channel.journal.visible := by
  rcases h.ordered with ⟨hack, hrel, hpop, hvis, hpub, -⟩
  rw [h.consumer, View.isEmpty, decide_eq_true_eq]
  exact h.mark_eq_mark_iff hpop (by omega) (by omega)

/-- Whatever is visible and not yet popped has been written. -/
theorem next_eq_some (h : Sound view channel)
    (hlt : channel.journal.popped.length < channel.journal.visible) :
    ∃ record, channel.journal.written[channel.journal.popped.length]? = some record := by
  rcases h.ordered with ⟨-, -, -, hvis, hpub, -⟩
  exact ⟨_, List.getElem?_eq_getElem (by omega)⟩

/-- No more records are popped than were written. -/
theorem popped_le_written (h : Sound view channel) :
    channel.journal.popped.length ≤ channel.journal.written.length :=
  h.ordered.popped_le.trans (h.ordered.visible_le.trans h.ordered.published_le)

/-- What the consumer takes for unread are the records it can see and has not popped. -/
theorem used_consumer (h : Sound view channel) :
    channel.consumer.used =
      position channel.journal.written view.readPos.toNat channel.journal.visible -
        position channel.journal.written view.readPos.toNat channel.journal.popped.length := by
  rcases h.ordered with ⟨hack, hrel, hpop, hvis, hpub, -⟩
  rw [h.consumer, View.used]
  exact h.toNat_mark_sub hpop (by omega) (by omega)

/-- The record that comes next lies between the consumer's cursors. -/
theorem size_le_used (h : Sound view channel) {record : UInt32 × Bytes}
    (hlt : channel.journal.popped.length < channel.journal.visible)
    (hnext : channel.journal.written[channel.journal.popped.length]? = some record) :
    Record.size record.1 record.2 ≤ channel.consumer.used := by
  have hsize := position_add_size_le view.readPos.toNat hnext hlt
  rw [h.used_consumer]
  omega

/-- The consumer reads the record that comes next. -/
theorem reads (h : Sound view channel) {record : UInt32 × Bytes}
    (hlt : channel.journal.popped.length < channel.journal.visible)
    (hnext : channel.journal.written[channel.journal.popped.length]? = some record) :
    channel.consumer.Reads channel.region record := by
  rcases h.ordered with ⟨hack, hrel, hpop, hvis, hpub, -⟩
  have hfull : channel.consumer.isEmpty = false := by
    rw [Bool.eq_false_iff, ne_eq, h.isEmpty_iff]
    omega
  have hused := h.size_le_used hlt hnext
  have hspan := h.stored _ record (by omega) hnext
  rw [h.consumer] at hfull hused ⊢
  exact View.reads_of_span h.capacity_dvd rfl hfull
    (h.fits record (List.mem_of_getElem? hnext)) hused hspan

/-- While the consumer is not empty, its header is that of the next record, which lies between its
cursors. -/
theorem unread (h : Sound view channel) (hfull : channel.consumer.isEmpty = false) :
    ∃ record, channel.journal.written[channel.journal.popped.length]? = some record ∧
      headerSize + channel.consumer.announced channel.region = Record.size record.1 record.2 ∧
      Record.size record.1 record.2 ≤ channel.consumer.used := by
  have hlt : channel.journal.popped.length < channel.journal.visible := by
    refine Nat.lt_of_le_of_ne h.ordered.popped_le fun hall => ?_
    rw [h.isEmpty_iff.mpr hall] at hfull
    exact absurd hfull (by decide)
  rcases h.next_eq_some hlt with ⟨record, hnext⟩
  have hsize := (h.reads hlt hnext).payloadSize
  have hmin := Record.headerSize_le_size record.1 record.2
  rw [View.payloadSize_of_full hfull, Except.ok.injEq] at hsize
  exact ⟨record, hnext, by omega, h.size_le_used hlt hnext⟩

/-! ### What a publication leaves alone -/

/-- Spans past the metadata block survive a publication. -/
theorem span_publishHead (h : Sound view channel) (cursor : UInt64) (start count : Nat) :
    view.span (channel.region.publishHead cursor) start count =
      view.span channel.region start count := by
  have hle := h.metadata_le
  apply View.span_congr
  intro i _
  exact channel.region.get_cells_publishHead cursor (by omega)

/-- To publish a read cursor leaves the data region alone. -/
theorem span_publishTail (h : Sound view channel) (cursor : UInt64) (start count : Nat) :
    view.span (channel.region.publishTail cursor) start count =
      view.span channel.region start count := by
  have hle := h.metadata_le
  apply View.span_congr
  intro i _
  exact channel.region.get_cells_publishTail cursor (by omega)

/-! ### Steps of the producer -/

/-- The producer may forget older news of what is released for newer. -/
theorem room_released (h : Sound view channel) :
    position channel.journal.written view.readPos.toNat channel.journal.written.length ≤
      position channel.journal.written view.readPos.toNat channel.journal.released +
        view.capacity := by
  have hmono := position_mono channel.journal.written view.readPos.toNat
    h.ordered.acknowledged_le
  have hroom := h.ordered.room
  omega

/-- A channel stays sound when its producer looks for released space. -/
theorem startWrite (h : Sound view channel) : Sound view (channel.step .startWrite) := by
  simp only [Channel.step]
  exact
    { ordered := { h.ordered with acknowledged_le := le_rfl, room := h.room_released }
      tail := h.tail
      head := h.head
      producer := by simp only [View.startWrite, h.producer, h.tail]
      consumer := h.consumer
      attach := h.attach
      fits := h.fits
      stored := fun count record hle =>
        h.stored count record (h.ordered.acknowledged_le.trans hle)
      popped := h.popped }

/-- It stays sound when its producer is bound anew. -/
theorem rebindProducer (h : Sound view channel) :
    Sound view (channel.step .rebindProducer) := by
  simp only [Channel.step, h.attach]
  split_ifs with hsame
  · exact
      { ordered := { h.ordered with acknowledged_le := le_rfl, room := h.room_released }
        tail := h.tail
        head := h.head
        producer := by rw [← hsame, h.producer, h.tail]
        consumer := h.consumer
        attach := h.attach
        fits := h.fits
        stored := fun count record hle =>
          h.stored count record (h.ordered.acknowledged_le.trans hle)
        popped := h.popped }
  · exact h

/-- It stays sound when its producer publishes. -/
theorem finishWrite (h : Sound view channel) : Sound view (channel.step .finishWrite) := by
  simp only [Channel.step, View.finishWrite]
  exact
    { ordered :=
        { h.ordered with
          visible_le := h.ordered.visible_le.trans h.ordered.published_le
          published_le := le_rfl }
      tail := by rw [Region.tail_publishHead, h.tail]
      head := by rw [Region.head_publishHead, h.producer]
      producer := h.producer
      consumer := h.consumer
      attach := View.attach_congr (Region.sameGeometry_publishHead _ _) h.attach
      fits := h.fits
      stored := fun count record hle hnext => by
        rw [h.span_publishHead]
        exact h.stored count record hle hnext
      popped := h.popped }

/-! ### Writing a record -/

section Write

variable {payload : Bytes} {recordType : UInt32}

/-- Marks of records that were there before do not move. -/
theorem mark_append (more : List (UInt32 × Bytes)) {count : Nat}
    (h : count ≤ channel.journal.written.length) :
    mark view (channel.journal.written ++ more) count =
      mark view channel.journal.written count := by
  rw [mark, mark, position_append more h]

/-- The write cursor moves over the record that is written. -/
theorem position_length_append :
    position (channel.journal.written ++ [(recordType, payload)]) view.readPos.toNat
        (channel.journal.written ++ [(recordType, payload)]).length =
      position channel.journal.written view.readPos.toNat channel.journal.written.length +
        Record.size recordType payload := by
  have hlast : (channel.journal.written ++ [(recordType, payload)])[
      channel.journal.written.length]? = some (recordType, payload) := by simp
  rw [List.length_append, List.length_singleton, position_succ hlast, position_append _ le_rfl]

/-- What the producer takes for used is used on the timeline. -/
theorem used_producer (h : Sound view channel) :
    channel.producer.used =
      position channel.journal.written view.readPos.toNat channel.journal.written.length -
        position channel.journal.written view.readPos.toNat channel.journal.acknowledged := by
  rcases h.ordered with ⟨hack, hrel, hpop, hvis, hpub, -⟩
  rw [h.producer, View.used]
  exact h.toNat_mark_sub (by omega) le_rfl le_rfl

/-- The producer goes on behind what was written. -/
theorem place_producer (h : Sound view channel) :
    channel.producer.place channel.producer.writePos =
      view.place (UInt64.ofNat (position channel.journal.written view.readPos.toNat
        channel.journal.written.length)) := by
  rw [h.producer]
  rfl

/-- A record that the producer finds room for has room on the timeline. -/
theorem room_of_used_le (h : Sound view channel)
    (hroom : channel.producer.used + Record.size recordType payload ≤
      channel.producer.capacity) :
    position channel.journal.written view.readPos.toNat channel.journal.written.length +
        Record.size recordType payload ≤
      position channel.journal.written view.readPos.toNat channel.journal.acknowledged +
        view.capacity := by
  have hcapacity : channel.producer.capacity = view.capacity := by rw [h.producer]
  rw [h.used_producer, hcapacity] at hroom
  omega

/-- A write touches no cell of the metadata block. -/
theorem get_scatter_metadata (h : Sound view channel) (bytes : Bytes) :
    ∀ address < Metadata.size,
      (scatter (channel.producer.place channel.producer.writePos) 0 bytes
        channel.region.cells).get address = channel.region.cells.get address := by
  intro address haddress
  have hstart := h.metadata_le
  apply get_scatter_of_ne
  intro k _
  rw [h.place_producer, View.place]
  omega

/-- A write leaves the unreleased records alone, padding included. -/
theorem span_write (h : Sound view channel)
    (hroom : channel.producer.used + Record.size recordType payload ≤
      channel.producer.capacity)
    {count length : Nat} {record : UInt32 × Bytes} (hle : channel.journal.acknowledged ≤ count)
    (hheld : channel.journal.written[count]? = some record)
    (hlength : length ≤ Record.size record.1 record.2) :
    view.span
        { channel.region with
          cells := scatter (channel.producer.place channel.producer.writePos) 0
            (Record.bytes recordType payload) channel.region.cells }
        (position channel.journal.written view.readPos.toNat count) length =
      view.span channel.region (position channel.journal.written view.readPos.toNat count)
        length := by
  rcases List.getElem?_eq_some_iff.mp hheld with ⟨hold, -⟩
  have hbytes := Record.length_bytes_le recordType payload
  have hfree := h.room_of_used_le hroom
  have hend := position_add_size_le view.readPos.toNat hheld hold
  have hfirst := position_mono channel.journal.written view.readPos.toNat hle
  rw [h.place_producer]
  exact View.span_scatter_of_held h.capacity_dvd (by omega) (by omega)

/-- A write stores the record behind the unreleased ones, which stay as they are. -/
theorem stored_write (h : Sound view channel)
    (hroom : channel.producer.used + Record.size recordType payload ≤
      channel.producer.capacity)
    {count : Nat} {record : UInt32 × Bytes} (hle : channel.journal.acknowledged ≤ count)
    (hnext : (channel.journal.written ++ [(recordType, payload)])[count]? = some record) :
    view.span
        { channel.region with
          cells := scatter (channel.producer.place channel.producer.writePos) 0
            (Record.bytes recordType payload) channel.region.cells }
        (position (channel.journal.written ++ [(recordType, payload)]) view.readPos.toNat
          count)
        (Record.bytes record.1 record.2).length = Record.bytes record.1 record.2 := by
  rcases Nat.lt_or_ge count channel.journal.written.length with hold | hnew
  · rw [List.getElem?_append_left hold] at hnext
    rw [position_append _ hold.le,
      h.span_write hroom hle hnext (Record.length_bytes_le record.1 record.2)]
    exact h.stored count record hle hnext
  · have hbytes := Record.length_bytes_le recordType payload
    have hfree := h.room_of_used_le hroom
    rw [List.getElem?_append_right hnew, List.getElem?_singleton] at hnext
    split_ifs at hnext with hcount
    simp only [Option.some.injEq] at hnext
    obtain rfl : count = channel.journal.written.length := by omega
    have hlast := position_mono channel.journal.written view.readPos.toNat hle
    rw [← hnext, position_append _ le_rfl, h.place_producer,
      View.span_scatter_self h.capacity_dvd (by omega)]

/-- The marks stay in order when a record is written. -/
theorem ordered_write (h : Sound view channel)
    (hroom : channel.producer.used + Record.size recordType payload ≤
      channel.producer.capacity) :
    Ordered view
      { channel.journal with
        written := channel.journal.written ++ [(recordType, payload)] } := by
  rcases h.ordered with ⟨hack, hrel, hpop, hvis, hpub, -⟩
  refine ⟨hack, hrel, hpop, hvis, ?_, ?_⟩
  · rw [List.length_append]
    exact hpub.trans (Nat.le_add_right _ _)
  · rw [position_length_append, position_append _ (by dsimp only; omega)]
    exact h.room_of_used_le hroom

/-- A record that is written leaves the unreleased ones alone and is stored behind
them. -/
theorem write (h : Sound view channel) (payload : Bytes) (recordType : UInt32) :
    Sound view (channel.step (.write payload recordType)) := by
  simp only [Channel.step]
  cases hwrite : channel.producer.write channel.region payload recordType with
  | error refusal => exact h
  | ok result =>
    rcases result with ⟨offset, producer, region⟩
    rcases View.write_eq_ok_iff.mp hwrite with ⟨⟨-, -, hsize, hroom⟩, -, rfl, rfl⟩
    have hpub := h.ordered.published_le
    have hvis := h.ordered.visible_le.trans hpub
    have hpop := h.ordered.popped_le.trans hvis
    have hrel := h.ordered.released_le.trans hpop
    have hack := h.ordered.acknowledged_le.trans hrel
    have hcells := h.get_scatter_metadata (Record.bytes recordType payload)
    have htail := Region.tail_of_cells hcells
    have hhead := Region.head_of_cells hcells
    dsimp only
    exact
      { ordered := h.ordered_write hroom
        tail := by rw [htail, mark_append _ hrel, h.tail]
        head := by rw [hhead, mark_append _ hpub, h.head]
        producer := by
          rw [mark_append _ hack, mark, mark, position_length_append, UInt64.ofNat_add,
            h.producer]
          rfl
        consumer := by rw [mark_append _ hpop, mark_append _ hvis, h.consumer]
        attach := View.attach_congr (Region.sameGeometry_of_cells hcells) h.attach
        fits := by
          intro record hmem
          rcases List.mem_append.mp hmem with hmem | hmem
          · exact h.fits record hmem
          · rw [List.mem_singleton] at hmem
            rw [hmem]
            exact hsize
        stored := fun count record hle hnext => h.stored_write hroom hle hnext
        popped := by
          rw [List.take_append_of_le_length hpop]
          exact h.popped }

end Write

/-! ### Steps of the consumer -/

/-- A channel stays sound when its consumer looks. -/
theorem startRead (h : Sound view channel) : Sound view (channel.step .startRead) := by
  simp only [Channel.step]
  exact
    { ordered :=
        { h.ordered with
          popped_le := h.ordered.popped_le.trans h.ordered.visible_le
          visible_le := le_rfl }
      tail := h.tail
      head := h.head
      producer := h.producer
      consumer := by simp only [View.startRead, h.consumer, h.head]
      attach := h.attach
      fits := h.fits
      stored := h.stored
      popped := h.popped }

/-- It stays sound when its consumer is bound anew. -/
theorem rebindConsumer (h : Sound view channel) :
    Sound view (channel.step .rebindConsumer) := by
  simp only [Channel.step, h.attach]
  split_ifs with hsame
  · exact
      { ordered :=
          { h.ordered with
            popped_le := h.ordered.popped_le.trans h.ordered.visible_le
            visible_le := le_rfl }
        tail := h.tail
        head := h.head
        producer := h.producer
        consumer := by rw [← hsame, h.consumer, h.head]
        attach := h.attach
        fits := h.fits
        stored := h.stored
        popped := h.popped }
  · exact h

/-- It stays sound when its consumer releases what it read. -/
theorem finishRead (h : Sound view channel) : Sound view (channel.step .finishRead) := by
  simp only [Channel.step, View.finishRead]
  exact
    { ordered :=
        { h.ordered with
          acknowledged_le := h.ordered.acknowledged_le.trans h.ordered.released_le
          released_le := le_rfl }
      tail := by rw [Region.tail_publishTail, h.consumer]
      head := by rw [Region.head_publishTail, h.head]
      producer := h.producer
      consumer := h.consumer
      attach := View.attach_congr (Region.sameGeometry_publishTail _ _) h.attach
      fits := h.fits
      stored := fun count record hle hnext => by
        rw [h.span_publishTail]
        exact h.stored count record hle hnext
      popped := h.popped }

/-- A record that is popped is the next one, read back as it was written. -/
theorem pop (h : Sound view channel) : Sound view (channel.step .pop) := by
  rcases Nat.lt_or_ge channel.journal.popped.length channel.journal.visible with hlt | hge
  · rcases h.next_eq_some hlt with ⟨record, hnext⟩
    have hreads := h.reads hlt hnext
    simp only [Channel.step, hreads.pop]
    exact
      { ordered :=
          { h.ordered with
            released_le := by
              rw [List.length_append]
              exact h.ordered.released_le.trans (Nat.le_add_right _ _)
            popped_le := by
              rw [List.length_append]
              exact hlt }
        tail := h.tail
        head := h.head
        producer := h.producer
        consumer := by
          rw [List.length_append, List.length_singleton, h.consumer]
          simp only [mark, position_succ hnext, UInt64.ofNat_add]
        attach := h.attach
        fits := h.fits
        stored := h.stored
        popped := by
          rcases List.getElem?_eq_some_iff.mp hnext with ⟨hlength, hget⟩
          rw [List.length_append, List.length_singleton,
            List.take_succ_eq_append_getElem hlength, hget]
          exact List.rel_append h.popped (List.Forall₂.cons hreads.readsBack .nil) }
  · have hempty : channel.consumer.isEmpty = true :=
      h.isEmpty_iff.mpr (Nat.le_antisymm h.ordered.popped_le hge)
    simp only [Channel.step, View.pop_isEmpty hempty]
    exact h

/-! ### Any step -/

/-- Every step of either side keeps a channel sound. -/
theorem step (h : Sound view channel) (action : Action) : Sound view (channel.step action) := by
  cases action with
  | startWrite => exact h.startWrite
  | write payload recordType => exact h.write payload recordType
  | finishWrite => exact h.finishWrite
  | rebindProducer => exact h.rebindProducer
  | startRead => exact h.startRead
  | pop => exact h.pop
  | finishRead => exact h.finishRead
  | rebindConsumer => exact h.rebindConsumer

/-- A channel stays sound whatever its two sides do. -/
theorem run (h : Sound view channel) (actions : List Action) :
    Sound view (channel.run actions) := by
  induction actions generalizing channel with
  | nil => exact h
  | cons action rest ih => exact ih (h.step action)

end Sound

/-- A ring that is bound while idle is sound. -/
theorem sound_opened {region : Region} (hbind : View.attach region = .ok view)
    (hidle : region.head = region.tail) : Sound view (opened region view) := by
  rcases View.attach_eq_ok_iff.mp hbind with ⟨-, -, -, hview⟩
  have hread : view.readPos = region.tail := by rw [hview]
  have hwrite : view.writePos = region.head := by rw [hview]
  have hmark : mark view [] 0 = view.readPos := by simp [mark, position_zero]
  have hsame : view.writePos = view.readPos := by rw [hread, hwrite, hidle]
  have hboth : view =
      { view with readPos := mark view [] 0, writePos := mark view [] 0 } := by
    rw [hmark]
    cases view
    exact congrArg _ hsame
  exact
    { ordered :=
        { acknowledged_le := le_rfl
          released_le := le_rfl
          popped_le := le_rfl
          visible_le := le_rfl
          published_le := le_rfl
          room := Nat.le_add_right _ _ }
      tail := (hmark.trans hread).symm
      head := (hmark.trans (hread.trans hidle.symm)).symm
      producer := hboth
      consumer := hboth
      attach := by
        show View.attach region =
          .ok { view with readPos := region.tail, writePos := region.head }
        rw [hbind, ← hread, ← hwrite]
      fits := by simp [opened]
      stored := by simp [opened]
      popped := List.Forall₂.nil }

end Channel

end CacheMeter.Ring
