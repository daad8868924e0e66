import Mathlib
import CacheMeter.Proofs.Ring.Delivery

/-!
# Rounds of writing and reading

A producer that publishes after every few records and waits for the consumer, and one that
publishes everything at once, leave the same bytes for the consumer to read, down to the
padding: a byte of padding is whatever was written at its place before, and both write the
same bytes at the same places.

Main results:

- Definition `Channel.seen`: what the consumer reads of a record, or would read of it now.
- Theorem `Channel.Sound.alike_step`: only writes change what the consumer gets to read.
- Theorem `Channel.Alike.step_write`: a write shows the same record to both consumers.
- Theorem `Channel.Sound.popped_rounds`: how the records are cut into rounds does not matter.
-/

namespace CacheMeter.Ring

namespace View

/-- The end of a span is a span. -/
theorem span_drop (view : View) (region : Region) (position m n : Nat) :
    (view.span region position (m + n)).drop m = view.span region (position + m) n := by
  rw [span_add, List.drop_left' (length_span view region position m)]

/-- Cells that agree in the data region still do after the same write to both. -/
theorem get_scatter_congr {place : Nat → Nat} {bound i : Nat} {bytes : Bytes}
    {cells cells' : Cells}
    (h : ∀ address, bound ≤ address → cells.get address = cells'.get address) :
    ∀ address, bound ≤ address →
      (scatter place i bytes cells).get address = (scatter place i bytes cells').get address := by
  induction bytes generalizing i cells cells' with
  | nil => exact h
  | cons byte rest ih =>
    apply ih
    intro address hle
    rw [Cells.get_set, Cells.get_set, h address hle]

end View

namespace Channel

variable {view : View} {channel other : Channel}

/-! ## What a consumer gets to read -/

/-- The record with a given number as it now lies in memory. -/
def inMemory (view : View) (channel : Channel) (number : Nat) :
    Except Refusal (UInt32 × Bytes) :=
  match channel.journal.written[number]? with
  | some record =>
    .ok (record.1,
      (view.span channel.region (position channel.journal.written view.readPos.toNat number)
        (Record.size record.1 record.2)).drop headerSize)
  | none => .error .empty

/-- What the consumer has read of the record with a given number, or would read now. -/
def seen (view : View) (channel : Channel) (number : Nat) : Except Refusal (UInt32 × Bytes) :=
  channel.journal.popped.getD number (inMemory view channel number)

/-- A record that was popped is seen as it was read then. -/
theorem seen_of_lt {number : Nat} (h : number < channel.journal.popped.length) :
    seen view channel number = channel.journal.popped[number] := by
  rw [seen, List.getD_eq_getElem _ _ h]

/-- One that was not is seen as it lies in memory. -/
theorem seen_of_ge {number : Nat} (h : channel.journal.popped.length ≤ number) :
    seen view channel number = inMemory view channel number := by
  rw [seen, List.getD_eq_default _ _ h]

/-- Two channels with the same records written, whose data regions agree and whose
consumers get to read the same. -/
structure Alike (view : View) (channel other : Channel) : Prop where
  written : channel.journal.written = other.journal.written
  seen : ∀ number < channel.journal.written.length,
    seen view channel number = seen view other number
  cells : ∀ address, view.dataStart ≤ address →
    channel.region.cells.get address = other.region.cells.get address

/-- A channel is like itself. -/
theorem Alike.refl (view : View) (channel : Channel) : Alike view channel channel :=
  ⟨rfl, fun _ _ => rfl, fun _ _ => rfl⟩

/-- Likeness goes both ways. -/
theorem Alike.symm (h : Alike view channel other) : Alike view other channel where
  written := h.written.symm
  seen number hlt := (h.seen number (by rwa [h.written])).symm
  cells address hle := (h.cells address hle).symm

/-- Channels like a third are alike. -/
theorem Alike.trans {third : Channel} (h : Alike view channel other)
    (h' : Alike view other third) : Alike view channel third where
  written := h.written.trans h'.written
  seen number hlt := (h.seen number hlt).trans (h'.seen number (by rwa [← h.written]))
  cells address hle := (h.cells address hle).trans (h'.cells address hle)

/-- What lies in memory depends on the data region and on what was written. -/
theorem inMemory_congr (hwritten : channel.journal.written = other.journal.written)
    (hcells : ∀ address, view.dataStart ≤ address →
      channel.region.cells.get address = other.region.cells.get address) (number : Nat) :
    inMemory view channel number = inMemory view other number := by
  have hspan (start count : Nat) :
      view.span channel.region start count = view.span other.region start count :=
    View.span_congr fun i _ => hcells _ (Nat.le_add_right _ _)
  simp only [inMemory, hwritten, hspan]

/-- Channels are alike if the same was written and popped and their data regions agree. -/
theorem alike_of_cells (hwritten : channel.journal.written = other.journal.written)
    (hpopped : channel.journal.popped = other.journal.popped)
    (hcells : ∀ address, view.dataStart ≤ address →
      channel.region.cells.get address = other.region.cells.get address) :
    Alike view channel other where
  written := hwritten
  seen number _ := by rw [Channel.seen, Channel.seen, hpopped, inMemory_congr hwritten hcells]
  cells := hcells

/-! ## Steps other than writes -/

/-- Whether a step writes no record. -/
def Quiet (action : Action) : Prop :=
  ∀ payload recordType, action ≠ .write payload recordType

/-- A consumer does not write. -/
theorem quiet_of_not_isProducer {action : Action} (h : action.isProducer = false) :
    Quiet action := by
  rintro payload recordType rfl
  exact absurd h (by simp [Action.isProducer])

/-- To look for released space is not to write. -/
theorem quiet_startWrite : Quiet .startWrite := by
  intro payload recordType
  simp

/-- To publish is not to write either. -/
theorem quiet_finishWrite : Quiet .finishWrite := by
  intro payload recordType
  simp

namespace Sound

/-- To publish a write cursor leaves the data region alone. -/
theorem get_publishHead (h : Sound view channel) (cursor : UInt64) :
    ∀ address, view.dataStart ≤ address →
      (channel.region.publishHead cursor).cells.get address =
        channel.region.cells.get address :=
  fun _ hle => channel.region.get_cells_publishHead cursor (h.metadata_le.trans hle)

/-- To publish a read cursor leaves it alone as well. -/
theorem get_publishTail (h : Sound view channel) (cursor : UInt64) :
    ∀ address, view.dataStart ≤ address →
      (channel.region.publishTail cursor).cells.get address =
        channel.region.cells.get address :=
  fun _ hle => channel.region.get_cells_publishTail cursor (h.metadata_le.trans hle)

/-- What a consumer reads is what lies in memory. -/
theorem record?_eq_inMemory (h : Sound view channel)
    (hlt : channel.journal.popped.length < channel.journal.visible) :
    channel.consumer.record? channel.region =
      inMemory view channel channel.journal.popped.length := by
  rcases h.next_eq_some hlt with ⟨record, hnext⟩
  have hreads := h.reads hlt hnext
  have hfull : channel.consumer.isEmpty = false := by
    rw [Bool.eq_false_iff, ne_eq, h.isEmpty_iff]
    omega
  have hannounced : channel.consumer.announced channel.region =
      Record.size record.1 record.2 - headerSize := by
    have hsize := hreads.payloadSize
    rw [View.payloadSize_of_full hfull] at hsize
    exact Except.ok.inj hsize
  have hmin := Record.headerSize_le_size record.1 record.2
  have hsplit : Record.size record.1 record.2 =
      headerSize + (Record.size record.1 record.2 - headerSize) := by omega
  have hread : channel.consumer.readPos = UInt64.ofNat
      (position channel.journal.written view.readPos.toNat channel.journal.popped.length) := by
    rw [h.consumer]
    rfl
  have hdvd : channel.consumer.capacity ∣ UInt64.size := by
    rw [h.consumer]
    exact h.capacity_dvd
  have hspan : channel.consumer.span channel.region = view.span channel.region := by
    rw [h.consumer]
    rfl
  rw [View.record?_of_full hfull, hreads.recordType, hannounced,
    View.copyOut_eq_span hdvd hread, hspan, inMemory, hnext]
  dsimp only
  conv_rhs => rw [hsplit, View.span_drop]

/-- A pop turns what would be read into what was read. -/
theorem alike_pop (h : Sound view channel) : Alike view channel (channel.step .pop) := by
  rcases Nat.lt_or_ge channel.journal.popped.length channel.journal.visible with hlt | hge
  · rcases h.next_eq_some hlt with ⟨record, hnext⟩
    have hpop := (h.reads hlt hnext).pop
    have hrecord := h.record?_eq_inMemory hlt
    simp only [Channel.step, hpop]
    refine ⟨rfl, ?_, fun _ _ => rfl⟩
    intro number _
    rcases Nat.lt_trichotomy number channel.journal.popped.length with hbelow | rfl | habove
    · rw [seen_of_lt hbelow, seen_of_lt (by rw [List.length_append]; omega),
        List.getElem_append_left hbelow]
    · rw [seen_of_ge le_rfl, seen_of_lt (by rw [List.length_append]; simp),
        List.getElem_append_right le_rfl, ← hrecord]
      simp
    · rw [seen_of_ge habove.le, seen_of_ge (by rw [List.length_append]; exact habove)]
      rfl
  · have hempty : channel.consumer.isEmpty = true :=
      h.isEmpty_iff.mpr (Nat.le_antisymm h.ordered.popped_le hge)
    simp only [Channel.step, View.pop_isEmpty hempty]
    exact .refl view channel

/-- Only writes change what the consumer gets to read. -/
theorem alike_step (h : Sound view channel) {action : Action} (hquiet : Quiet action) :
    Alike view channel (channel.step action) := by
  cases action with
  | write payload recordType => exact absurd rfl (hquiet payload recordType)
  | pop => exact h.alike_pop
  | startWrite | startRead => exact alike_of_cells rfl rfl fun _ _ => rfl
  | finishWrite =>
    exact alike_of_cells rfl rfl fun address hle => (h.get_publishHead _ address hle).symm
  | finishRead =>
    exact alike_of_cells rfl rfl fun address hle => (h.get_publishTail _ address hle).symm
  | rebindProducer | rebindConsumer =>
    simp only [Channel.step, h.attach]
    split_ifs
    · exact alike_of_cells rfl rfl fun _ _ => rfl
    · exact .refl view channel

/-- Without writes a channel stays as it looks. -/
theorem alike_run (h : Sound view channel) {actions : List Action}
    (hquiet : ∀ action ∈ actions, Quiet action) : Alike view channel (channel.run actions) := by
  induction actions generalizing channel with
  | nil => exact .refl view channel
  | cons action rest ih =>
    exact (h.alike_step (hquiet action List.mem_cons_self)).trans
      (ih (h.step action) fun later hmem => hquiet later (List.mem_cons_of_mem _ hmem))

/-- Space that is released stays released. -/
theorem released_le_step (h : Sound view channel) (action : Action) :
    channel.journal.released ≤ (channel.step action).journal.released := by
  cases action with
  | startWrite | finishWrite | startRead => exact le_rfl
  | finishRead => exact h.ordered.released_le
  | write payload recordType =>
    simp only [Channel.step]
    cases channel.producer.write channel.region payload recordType <;> exact le_rfl
  | pop =>
    simp only [Channel.step]
    cases channel.consumer.pop channel.region <;> exact le_rfl
  | rebindProducer | rebindConsumer =>
    simp only [Channel.step, h.attach]
    split_ifs <;> exact le_rfl

/-- What is released stays released. -/
theorem released_le_run (h : Sound view channel) (actions : List Action) :
    channel.journal.released ≤ (channel.run actions).journal.released := by
  induction actions generalizing channel with
  | nil => exact le_rfl
  | cons action rest ih => exact (h.released_le_step action).trans (ih (h.step action))

end Sound

/-- A step of the consumer neither writes nor publishes. -/
theorem written_step_reading (channel : Channel) {action : Action}
    (h : action.isProducer = false) :
    (channel.step action).journal.written = channel.journal.written ∧
      (channel.step action).journal.published = channel.journal.published := by
  refine ⟨?_, ?_⟩
  · cases action with
    | startWrite | write | finishWrite | rebindProducer =>
      exact absurd h (by simp [Action.isProducer])
    | startRead | finishRead => rfl
    | pop =>
      simp only [Channel.step]
      cases channel.consumer.pop channel.region <;> rfl
    | rebindConsumer =>
      simp only [Channel.step]
      cases View.attach channel.region <;> split_ifs <;> rfl
  · rw [published_step, if_neg]
    rintro rfl
    exact absurd h (by simp [Action.isProducer])

/-- A consumer changes nothing about what was written and published. -/
theorem written_run_reading (channel : Channel) {actions : List Action}
    (h : ∀ action ∈ actions, action.isProducer = false) :
    (channel.run actions).journal.written = channel.journal.written ∧
      (channel.run actions).journal.published = channel.journal.published := by
  induction actions generalizing channel with
  | nil => exact ⟨rfl, rfl⟩
  | cons action rest ih =>
    rcases channel.written_step_reading (h action List.mem_cons_self) with ⟨hwritten, hpublished⟩
    rcases ih (channel.step action) fun later hmem => h later (List.mem_cons_of_mem _ hmem) with
      ⟨hwritten', hpublished'⟩
    exact ⟨hwritten'.trans hwritten, hpublished'.trans hpublished⟩

/-! ## Writes -/

section Writes

variable {payload : Bytes} {recordType : UInt32} {records : List (UInt32 × Bytes)}

/-- Whether the producer would write a record now. -/
def Fits (channel : Channel) (recordType : UInt32) (payload : Bytes) : Prop :=
  payload ≠ [] ∧ Record.size recordType payload ≤ channel.producer.capacity ∧
    Record.size recordType payload < UInt16.size ∧
    channel.producer.used + Record.size recordType payload ≤ channel.producer.capacity

/-- A record that fits is written. -/
theorem step_write_of_fits (h : channel.Fits recordType payload) :
    channel.step (.write payload recordType) =
      { channel with
        region :=
          { channel.region with
            cells := scatter (channel.producer.place channel.producer.writePos) 0
              (Record.bytes recordType payload) channel.region.cells }
        producer :=
          { channel.producer with
            writePos := channel.producer.writePos +
              UInt64.ofNat (Record.size recordType payload) }
        journal :=
          { channel.journal with
            written := channel.journal.written ++ [(recordType, payload)] } } := by
  have hwrite : channel.producer.write channel.region payload recordType = .ok _ :=
    View.write_eq_ok_iff.mpr ⟨h, rfl, rfl, rfl⟩
  simp only [Channel.step, hwrite]

/-- A record that does not fit changes nothing. -/
theorem step_write_of_not_fits (h : ¬ channel.Fits recordType payload) :
    channel.step (.write payload recordType) = channel := by
  simp only [Channel.step]
  cases hwrite : channel.producer.write channel.region payload recordType with
  | error refusal => rfl
  | ok result => exact absurd (View.write_eq_ok_iff.mp hwrite).1 h

/-- More space is never in the way. -/
theorem Fits.of_acknowledged_le (h : other.Fits recordType payload)
    (hchannel : Sound view channel) (hother : Sound view other)
    (hwritten : channel.journal.written = other.journal.written)
    (hack : other.journal.acknowledged ≤ channel.journal.acknowledged) :
    channel.Fits recordType payload := by
  have hcapacity : channel.producer.capacity = other.producer.capacity := by
    rw [hchannel.producer, hother.producer]
  have hused : channel.producer.used ≤ other.producer.used := by
    rw [hchannel.used_producer, hother.used_producer, hwritten]
    exact Nat.sub_le_sub_left (position_mono _ _ hack) _
  rcases h with ⟨hnil, hfit, hsize, hroom⟩
  rw [Fits, hcapacity]
  exact ⟨hnil, hfit, hsize, by omega⟩

/-- A write does not touch what the consumer still has to read. -/
theorem Sound.seen_write (h : Sound view channel) (hfits : channel.Fits recordType payload)
    {number : Nat} (hlt : number < channel.journal.written.length) :
    seen view (channel.step (.write payload recordType)) number = seen view channel number := by
  rw [step_write_of_fits hfits]
  rcases Nat.lt_or_ge number channel.journal.popped.length with hbelow | hge
  · rw [seen_of_lt hbelow, seen_of_lt (by exact hbelow)]
  · have hack : channel.journal.acknowledged ≤ number :=
      (h.ordered.acknowledged_le.trans h.ordered.released_le).trans hge
    have hheld := List.getElem?_eq_getElem hlt
    have hspan := h.span_write hfits.2.2.2 hack hheld le_rfl
    rw [seen_of_ge hge, seen_of_ge (by exact hge), inMemory, inMemory]
    dsimp only
    rw [List.getElem?_append_left hlt, hheld, position_append _ hlt.le]
    dsimp only
    rw [hspan]

/-- A write shows the same record to both consumers. -/
theorem Alike.step_write (h : Alike view channel other) (hchannel : Sound view channel)
    (hother : Sound view other) (hfits : channel.Fits recordType payload)
    (hfits' : other.Fits recordType payload) :
    Alike view (channel.step (.write payload recordType))
      (other.step (.write payload recordType)) := by
  have hwritten : (channel.step (.write payload recordType)).journal.written =
      (other.step (.write payload recordType)).journal.written := by
    rw [step_write_of_fits hfits, step_write_of_fits hfits', h.written]
  have hcells : ∀ address, view.dataStart ≤ address →
      (channel.step (.write payload recordType)).region.cells.get address =
        (other.step (.write payload recordType)).region.cells.get address := by
    rw [step_write_of_fits hfits, step_write_of_fits hfits']
    dsimp only
    rw [hchannel.place_producer, hother.place_producer, h.written]
    exact View.get_scatter_congr h.cells
  refine ⟨hwritten, ?_, hcells⟩
  intro number hlt
  rcases Nat.lt_or_ge number channel.journal.written.length with hold | hnew
  · rw [hchannel.seen_write hfits hold, h.seen number hold,
      hother.seen_write hfits' (by rwa [← h.written])]
  · -- Neither consumer can have popped the record that was just written.
    have hpopped := hchannel.popped_le_written
    have hpopped' := hother.popped_le_written
    rw [← h.written] at hpopped'
    rw [seen_of_ge, seen_of_ge, inMemory_congr hwritten hcells]
    · rw [step_write_of_fits hfits']
      exact hpopped'.trans hnew
    · rw [step_write_of_fits hfits]
      exact hpopped.trans hnew

/-- Writes of records, one after the other. -/
def writes (records : List (UInt32 × Bytes)) : List Action :=
  records.map fun record => .write record.2 record.1

/-- Actions are done one list after the other. -/
theorem run_append (channel : Channel) (first second : List Action) :
    channel.run (first ++ second) = (channel.run first).run second :=
  List.foldl_append

/-- Records are written one list after the other. -/
theorem run_writes_append (channel : Channel) (first second : List (UInt32 × Bytes)) :
    channel.run (writes (first ++ second)) = (channel.run (writes first)).run (writes second) := by
  rw [writes, List.map_append, run_append]
  rfl

/-- A producer that writes does not look for released space. -/
theorem acknowledged_writes (channel : Channel) (records : List (UInt32 × Bytes)) :
    (channel.run (writes records)).journal.acknowledged = channel.journal.acknowledged := by
  induction records generalizing channel with
  | nil => rfl
  | cons record rest ih =>
    apply (ih (channel.step (.write record.2 record.1))).trans
    by_cases hfits : channel.Fits record.1 record.2
    · rw [step_write_of_fits hfits]
    · rw [step_write_of_not_fits hfits]

/-- Of several records those are written for which there is room. -/
theorem written_writes (channel : Channel) (records : List (UInt32 × Bytes)) :
    ∃ accepted, accepted.Sublist records ∧
      (channel.run (writes records)).journal.written = channel.journal.written ++ accepted := by
  induction records generalizing channel with
  | nil => exact ⟨[], .slnil, (List.append_nil _).symm⟩
  | cons record rest ih =>
    have hrun : channel.run (writes (record :: rest)) =
        (channel.step (.write record.2 record.1)).run (writes rest) := rfl
    rcases ih (channel.step (.write record.2 record.1)) with ⟨accepted, hsub, hwritten⟩
    rw [hrun, hwritten]
    by_cases hfits : channel.Fits record.1 record.2
    · rw [step_write_of_fits hfits]
      exact ⟨record :: accepted, hsub.cons_cons record, by simp⟩
    · rw [step_write_of_not_fits hfits]
      exact ⟨accepted, hsub.cons record, rfl⟩

/-- If all records of a sequence are written, so are those of both its parts. -/
theorem written_writes_append {first second : List (UInt32 × Bytes)}
    (h : (channel.run (writes (first ++ second))).journal.written =
      channel.journal.written ++ (first ++ second)) :
    (channel.run (writes first)).journal.written = channel.journal.written ++ first ∧
      ((channel.run (writes first)).run (writes second)).journal.written =
        (channel.run (writes first)).journal.written ++ second := by
  rcases channel.written_writes first with ⟨accepted, hsub, hwritten⟩
  rcases (channel.run (writes first)).written_writes second with ⟨later, hsub', hwritten'⟩
  rw [run_writes_append, hwritten', hwritten, List.append_assoc] at h
  have hparts := List.append_cancel_left h
  have hlength := congrArg List.length hparts
  rw [List.length_append, List.length_append] at hlength
  have hle := hsub.length_le
  have hle' := hsub'.length_le
  obtain rfl := hsub.eq_of_length (by omega)
  obtain rfl := hsub'.eq_of_length (by omega)
  exact ⟨hwritten, hwritten'⟩

/-- Where one producer has room for all records, one with as much space writes the same. -/
theorem Alike.run_writes (h : Alike view channel other) (hchannel : Sound view channel)
    (hother : Sound view other)
    (hack : other.journal.acknowledged ≤ channel.journal.acknowledged)
    (hall : (other.run (writes records)).journal.written = other.journal.written ++ records) :
    Alike view (channel.run (writes records)) (other.run (writes records)) := by
  induction records generalizing channel other with
  | nil => exact h
  | cons record rest ih =>
    rw [← List.singleton_append] at hall
    rcases written_writes_append hall with ⟨hfirst, hrest⟩
    have hfits' : other.Fits record.1 record.2 := by
      by_contra hnot
      have hsame : other.run (writes [record]) = other := step_write_of_not_fits hnot
      rw [hsame] at hfirst
      exact absurd hfirst (by simp)
    have hfits := hfits'.of_acknowledged_le hchannel hother h.written hack
    refine ih (h.step_write hchannel hother hfits hfits') (hchannel.step _) (hother.step _) ?_ hrest
    rw [step_write_of_fits hfits, step_write_of_fits hfits']
    exact hack

end Writes

/-! ## Rounds -/

/-- The producer looks for space, writes records and publishes them; then come steps of the
consumer. -/
def round (records : List (UInt32 × Bytes)) (reading : List Action) : List Action :=
  .startWrite :: (writes records ++ .finishWrite :: reading)

/-- A round is to look for space, write, publish and read. -/
theorem run_round (channel : Channel) (records : List (UInt32 × Bytes)) (reading : List Action) :
    channel.run (round records reading) =
      ((channel.step .startWrite).run (writes records)).run (.finishWrite :: reading) := by
  rw [round, run, List.foldl_cons, ← run, run_append]

/-- What comes after the writes of a round writes nothing. -/
theorem quiet_publishing {reading : List Action}
    (h : ∀ action ∈ reading, action.isProducer = false) :
    ∀ action ∈ Action.finishWrite :: reading, Quiet action := by
  intro action hmem
  rcases List.mem_cons.mp hmem with rfl | hmem
  · exact quiet_finishWrite
  · exact quiet_of_not_isProducer (h action hmem)

/-- Rounds of writing and reading show the consumer what writing alone shows. -/
theorem Alike.run_rounds (h : Alike view channel other) (hchannel : Sound view channel)
    (hother : Sound view other)
    (hack : other.journal.acknowledged ≤ channel.journal.released)
    {rounds : List (List (UInt32 × Bytes) × List Action)}
    (hreading : ∀ round ∈ rounds, ∀ action ∈ round.2, action.isProducer = false)
    (hall : (other.run (writes (rounds.flatMap Prod.fst))).journal.written =
      other.journal.written ++ rounds.flatMap Prod.fst) :
    Alike view (channel.run (rounds.flatMap fun r => round r.1 r.2))
      (other.run (writes (rounds.flatMap Prod.fst))) := by
  induction rounds generalizing channel other with
  | nil => exact h
  | cons first rest ih =>
    rcases first with ⟨records, reading⟩
    rw [List.flatMap_cons] at hall ⊢
    rw [List.flatMap_cons, run_append, run_writes_append, run_round]
    rcases written_writes_append hall with ⟨hfirst, hrest⟩
    have hstart := hchannel.alike_step quiet_startWrite
    have hstarted := hchannel.startWrite
    -- The other producer never looks for space again, so whatever it has room for fits here.
    have hwrites := (hstart.symm.trans h).run_writes hstarted hother hack hfirst
    have hwritten := hstarted.run (writes records)
    have hread := hwritten.alike_run
      (quiet_publishing (hreading _ List.mem_cons_self))
    refine ih (hread.symm.trans hwrites) (hwritten.run _) (hother.run _) ?_ ?_ hrest
    · rw [acknowledged_writes]
      exact hack.trans ((hstarted.released_le_run (writes records)).trans
        (hwritten.released_le_run _))
    · exact fun round hmem => hreading round (List.mem_cons_of_mem _ hmem)

/-- Where everything was popped, consumers that got to read the same have read the same. -/
theorem Alike.popped_eq (h : Alike view channel other)
    (hall : channel.journal.popped.length = channel.journal.written.length)
    (hall' : other.journal.popped.length = other.journal.written.length) :
    channel.journal.popped = other.journal.popped := by
  apply List.ext_getElem (by rw [hall, hall', h.written])
  intro number hlt hlt'
  have hseen := h.seen number (by rwa [← hall])
  rwa [seen_of_lt hlt, seen_of_lt hlt'] at hseen

/-- However the records of a producer are cut into rounds, what has been popped when nothing
is left is what is popped after writing them all at once. -/
theorem Sound.popped_rounds (h : Sound view channel)
    {rounds : List (List (UInt32 × Bytes) × List Action)} {finale : List Action}
    (hreading : ∀ round ∈ rounds, ∀ action ∈ round.2, action.isProducer = false)
    (hfinale : ∀ action ∈ finale, action.isProducer = false)
    (hall : ((channel.step .startWrite).run
        (writes (rounds.flatMap Prod.fst))).journal.written =
      channel.journal.written ++ rounds.flatMap Prod.fst)
    (hpopped : (channel.run (rounds.flatMap fun r => round r.1 r.2)).journal.popped.length =
      (channel.run (rounds.flatMap fun r => round r.1 r.2)).journal.written.length)
    (hpopped' : (channel.run (round (rounds.flatMap Prod.fst) finale)).journal.popped.length =
      (channel.run (round (rounds.flatMap Prod.fst) finale)).journal.written.length) :
    (channel.run (rounds.flatMap fun r => round r.1 r.2)).journal.popped =
      (channel.run (round (rounds.flatMap Prod.fst) finale)).journal.popped := by
  have hstart := h.alike_step quiet_startWrite
  have hrounds := hstart.run_rounds h h.startWrite le_rfl hreading hall
  have hfinal := (h.startWrite.run (writes (rounds.flatMap Prod.fst))).alike_run
    (quiet_publishing hfinale)
  rw [← run_round] at hfinal
  exact (hrounds.trans hfinal).popped_eq hpopped hpopped'

end Channel

end CacheMeter.Ring
