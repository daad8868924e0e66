import Mathlib
import CacheMeter.Proofs.Ring.Channel

/-!
# Delivery

What a consumer gets out of a ring, whatever the order in which the two sides take
their steps: the records written, in order and unaltered, each of them once and none
before it is published and looked for.

Main results:

- Theorem `Channel.announced_of_lt_visible`: a record that is visible was written, then
  published, and then looked for.
- Theorem `Channel.Sound.recovers`: nothing is lost, as publishing, looking and popping
  brings out whatever is left.
- Theorem `Channel.run_delivers`: all this holds after any steps of both sides.
-/

namespace CacheMeter.Ring.Channel

/-! ## How a record becomes visible -/

/-- Only the end of a write batch publishes, and it publishes everything written. -/
theorem published_step (channel : Channel) (action : Action) :
    (channel.step action).journal.published =
      if action = .finishWrite then channel.journal.written.length
      else channel.journal.published := by
  cases action with
  | finishWrite => rfl
  | startWrite | startRead | finishRead => rfl
  | write payload recordType =>
    simp only [step, reduceCtorEq, if_false]
    cases channel.producer.write channel.region payload recordType <;> rfl
  | pop =>
    simp only [step, reduceCtorEq, if_false]
    cases channel.consumer.pop channel.region <;> rfl
  | rebindProducer | rebindConsumer =>
    simp only [step, reduceCtorEq, if_false]
    cases View.attach channel.region <;> split_ifs <;> rfl

/-- Only a look makes records visible, and never more than are published. -/
theorem visible_step (channel : Channel) (action : Action) :
    (channel.step action).journal.visible = channel.journal.visible ∨
      (action.isLook = true ∧
        (channel.step action).journal.visible = channel.journal.published) := by
  cases action with
  | startRead => exact .inr ⟨rfl, rfl⟩
  | startWrite | finishWrite | finishRead => exact .inl rfl
  | write payload recordType =>
    left
    simp only [step]
    cases channel.producer.write channel.region payload recordType <;> rfl
  | pop =>
    left
    simp only [step]
    cases channel.consumer.pop channel.region <;> rfl
  | rebindProducer =>
    left
    simp only [step]
    cases View.attach channel.region <;> split_ifs <;> rfl
  | rebindConsumer =>
    simp only [step]
    split_ifs with hsame
    · cases View.attach channel.region with
      | ok consumer => exact .inr ⟨rfl, rfl⟩
      | error refusal => exact .inl rfl
    · exact .inl rfl

/-- The record with a given number had been written when a write batch was finished. -/
def Published (channel : Channel) (actions : List Action) (number : Nat) : Prop :=
  ∃ before after, actions = before ++ .finishWrite :: after ∧
    number < (channel.run before).journal.written.length

/-- The record with a given number had been published when the consumer looked. -/
def Announced (channel : Channel) (actions : List Action) (number : Nat) : Prop :=
  ∃ before look after, actions = before ++ look :: after ∧ look.isLook = true ∧
    channel.Published before number

section Announcement

variable {channel : Channel} {actions : List Action} {number : Nat}

/-- What was published stays so. -/
theorem Published.concat (h : channel.Published actions number) (action : Action) :
    channel.Published (actions ++ [action]) number := by
  rcases h with ⟨before, after, rfl, hlt⟩
  exact ⟨before, after ++ [action], by simp, hlt⟩

/-- What was announced stays so. -/
theorem Announced.concat (h : channel.Announced actions number) (action : Action) :
    channel.Announced (actions ++ [action]) number := by
  rcases h with ⟨before, look, after, rfl, hlook, hpublished⟩
  exact ⟨before, look, after ++ [action], by simp, hlook, hpublished⟩

/-- What is counted as published was published by one of the actions. -/
theorem published_of_lt_published (hnone : channel.journal.published = 0)
    (hlt : number < (channel.run actions).journal.published) :
    channel.Published actions number := by
  induction actions using List.reverseRecOn with
  | nil =>
    rw [run_nil, hnone] at hlt
    omega
  | append_singleton actions action ih =>
    rw [run_concat, published_step] at hlt
    split_ifs at hlt with hfinish
    · exact ⟨actions, [], by rw [hfinish], hlt⟩
    · exact (ih hlt).concat action

/-- A record that is visible was written, then published, and then looked for. -/
theorem announced_of_lt_visible (hnone : channel.journal.published = 0)
    (hblind : channel.journal.visible = 0)
    (hlt : number < (channel.run actions).journal.visible) :
    channel.Announced actions number := by
  induction actions using List.reverseRecOn with
  | nil =>
    rw [run_nil, hblind] at hlt
    omega
  | append_singleton actions action ih =>
    rw [run_concat] at hlt
    rcases visible_step (channel.run actions) action with hkept | ⟨hlook, hseen⟩
    · rw [hkept] at hlt
      exact (ih hlt).concat action
    · rw [hseen] at hlt
      exact ⟨actions, action, [], rfl, hlook, published_of_lt_published hnone hlt⟩

end Announcement

/-! ## Reading everything out -/

section Recovery

variable {view : View} {channel : Channel}

/-- Popping what is visible pops one record after the other and leaves the rest of the
journal alone. -/
theorem Sound.run_pops (h : Sound view channel) (count : Nat)
    (hle : channel.journal.popped.length + count ≤ channel.journal.visible) :
    (channel.run (List.replicate count .pop)).journal.popped.length =
        channel.journal.popped.length + count ∧
      (channel.run (List.replicate count .pop)).journal.written =
        channel.journal.written := by
  induction count generalizing channel with
  | zero => exact ⟨rfl, rfl⟩
  | succ count ih =>
    have hlt : channel.journal.popped.length < channel.journal.visible := by omega
    rcases h.next_eq_some hlt with ⟨record, hnext⟩
    have hpop := (h.reads hlt hnext).pop
    have hstep : (channel.step .pop).journal =
        { channel.journal with
          popped := channel.journal.popped ++ [channel.consumer.record? channel.region] } := by
      simp only [Channel.step, hpop]
    have hlength : (channel.step .pop).journal.popped.length =
        channel.journal.popped.length + 1 := by
      rw [hstep, List.length_append, List.length_singleton]
    have hvisible : (channel.step .pop).journal.visible = channel.journal.visible := by
      rw [hstep]
    have hwritten : (channel.step .pop).journal.written = channel.journal.written := by
      rw [hstep]
    rcases ih h.pop (by omega) with ⟨hcount, hrest⟩
    refine ⟨?_, hrest.trans hwritten⟩
    exact hcount.trans (by omega)

/-- Steps that bring out whatever is left: publish, look, and pop it. -/
def salvage (channel : Channel) : List Action :=
  .finishWrite :: .startRead ::
    List.replicate (channel.journal.written.length - channel.journal.popped.length) .pop

/-- To salvage is to publish, to look, and to pop all that is left. -/
theorem run_salvage (channel : Channel) :
    channel.run channel.salvage =
      ((channel.step .finishWrite).step .startRead).run
        (List.replicate (channel.journal.written.length - channel.journal.popped.length)
          .pop) := by
  rw [salvage, run, List.foldl_cons, List.foldl_cons, run]

/-- Nothing is lost: after publishing and looking, every record written can be popped. -/
theorem Sound.recovers (h : Sound view channel) :
    List.Forall₂ Record.ReadsBack channel.journal.written
      (channel.run channel.salvage).journal.popped := by
  have hle := h.popped_le_written
  have hlooked := h.finishWrite.startRead
  have hread := (h.run channel.salvage).popped
  rw [run_salvage] at hread ⊢
  generalize hrest :
    channel.journal.written.length - channel.journal.popped.length = rest at hread ⊢
  generalize hafter : (channel.step .finishWrite).step .startRead = looked at hlooked hread ⊢
  have hpopped : looked.journal.popped = channel.journal.popped := by
    rw [← hafter]
    rfl
  have hvisible : looked.journal.visible = channel.journal.written.length := by
    rw [← hafter]
    rfl
  have hwritten : looked.journal.written = channel.journal.written := by
    rw [← hafter]
    rfl
  have hcount : looked.journal.popped.length + rest = channel.journal.written.length := by
    rw [hpopped]
    omega
  rcases hlooked.run_pops rest (by rw [hvisible, hcount]) with ⟨hall, hkept⟩
  rw [hkept, hwritten, hall, hcount, List.take_length] at hread
  exact hread

end Recovery

/-! ## Delivery -/

/-- The six cursors are where the timeline has them, in order, and the producer is at
most a capacity ahead of the space it knows to be released. -/
structure Timeline (view : View) (channel : Channel) : Prop where
  acknowledged : channel.producer.readPos =
    mark view channel.journal.written channel.journal.acknowledged
  tail : channel.region.tail = mark view channel.journal.written channel.journal.released
  read : channel.consumer.readPos =
    mark view channel.journal.written channel.journal.popped.length
  seen : channel.consumer.writePos =
    mark view channel.journal.written channel.journal.visible
  head : channel.region.head = mark view channel.journal.written channel.journal.published
  write : channel.producer.writePos =
    mark view channel.journal.written channel.journal.written.length
  acknowledged_le_tail :
    position channel.journal.written view.readPos.toNat channel.journal.acknowledged ≤
      position channel.journal.written view.readPos.toNat channel.journal.released
  tail_le_read :
    position channel.journal.written view.readPos.toNat channel.journal.released ≤
      position channel.journal.written view.readPos.toNat channel.journal.popped.length
  read_le_seen :
    position channel.journal.written view.readPos.toNat channel.journal.popped.length ≤
      position channel.journal.written view.readPos.toNat channel.journal.visible
  seen_le_head :
    position channel.journal.written view.readPos.toNat channel.journal.visible ≤
      position channel.journal.written view.readPos.toNat channel.journal.published
  head_le_write :
    position channel.journal.written view.readPos.toNat channel.journal.published ≤
      position channel.journal.written view.readPos.toNat channel.journal.written.length
  write_le :
    position channel.journal.written view.readPos.toNat channel.journal.written.length ≤
      position channel.journal.written view.readPos.toNat channel.journal.acknowledged +
        view.capacity

theorem Sound.timeline {view : View} {channel : Channel} (h : Sound view channel) :
    Timeline view channel where
  acknowledged := by rw [h.producer]
  tail := h.tail
  read := by rw [h.consumer]
  seen := by rw [h.consumer]
  head := h.head
  write := by rw [h.producer]
  acknowledged_le_tail := position_mono _ _ h.ordered.acknowledged_le
  tail_le_read := position_mono _ _ h.ordered.released_le
  read_le_seen := position_mono _ _ h.ordered.popped_le
  seen_le_head := position_mono _ _ h.ordered.visible_le
  head_le_write := position_mono _ _ h.ordered.published_le
  write_le := h.ordered.room

/-- What a channel has delivered, and what it would deliver next. -/
structure Delivers (view : View) (channel : Channel) : Prop where
  /-- The records popped are the first ones written, in order and read back unaltered. -/
  inOrder : List.Forall₂ Record.ReadsBack
    (channel.journal.written.take channel.journal.popped.length) channel.journal.popped
  popped_le : channel.journal.popped.length ≤ channel.journal.visible
  /-- While a visible record is left, the consumer reads the one that comes next. -/
  next : channel.journal.popped.length < channel.journal.visible →
    ∃ record, channel.journal.written[channel.journal.popped.length]? = some record ∧
      channel.consumer.Reads channel.region record
  /-- When none is left, every call that reads is refused. -/
  finished : channel.journal.popped.length = channel.journal.visible →
    channel.consumer.isEmpty = true ∧
      channel.consumer.header? channel.region = .error .empty ∧
      channel.consumer.payloadSize channel.region = .error .empty ∧
      channel.consumer.record? channel.region = .error .empty ∧
      channel.consumer.pop channel.region = .error .empty
  /-- Every record written comes out once it is published and looked for. -/
  complete : List.Forall₂ Record.ReadsBack channel.journal.written
    (channel.run channel.salvage).journal.popped
  timeline : Timeline view channel

theorem Sound.delivers {view : View} {channel : Channel} (h : Sound view channel) :
    Delivers view channel where
  inOrder := h.popped
  popped_le := h.ordered.popped_le
  next := by
    intro hlt
    rcases h.next_eq_some hlt with ⟨record, hnext⟩
    exact ⟨record, hnext, h.reads hlt hnext⟩
  finished := by
    intro hall
    have hempty := h.isEmpty_iff.mpr hall
    exact ⟨hempty, by simp [View.header?, hempty], View.payloadSize_of_isEmpty hempty,
      View.record?_of_isEmpty hempty, View.pop_isEmpty hempty⟩
  complete := h.recovers
  timeline := h.timeline

/-- A ring that is idle when it is bound delivers after any steps of both sides, wherever
its cursors start and whatever its data region holds, and it delivers only what was
published and then looked for. -/
theorem run_delivers {region : Region} {view : View} (hbind : View.attach region = .ok view)
    (hidle : region.head = region.tail) (actions : List Action) :
    Delivers view ((opened region view).run actions) ∧
      ∀ number < ((opened region view).run actions).journal.visible,
        (opened region view).Announced actions number := by
  have hsound := (sound_opened hbind hidle).run actions
  refine ⟨hsound.delivers, ?_⟩
  intro number hlt
  exact announced_of_lt_visible rfl rfl hlt

/-- A region of four data pages whose cursors are about to wrap. -/
def wrapping : Region :=
  (((Region.zeroed 1104 0 4 8).store Metadata.dataOffsetOffset (Bytes.ofWord64 1072)).publishHead
    18446744073709551608).publishTail 18446744073709551608

/-- Two records are delivered across the wrap of the cursors and of the data region. -/
theorem run_delivers_wrapping :
    View.attach wrapping = .ok
        { dataStart := 1072
          capacity := 32
          readPos := 18446744073709551608
          writePos := 18446744073709551608 } ∧
      wrapping.head = wrapping.tail ∧
      Delivers
        { dataStart := 1072
          capacity := 32
          readPos := 18446744073709551608
          writePos := 18446744073709551608 }
        ((opened wrapping
          { dataStart := 1072
            capacity := 32
            readPos := 18446744073709551608
            writePos := 18446744073709551608 }).run
          [.write [1, 2, 3] 9, .write [4] 1, .finishWrite, .startRead, .pop, .pop]) := by
  have hbind : View.attach wrapping = .ok
      { dataStart := 1072
        capacity := 32
        readPos := 18446744073709551608
        writePos := 18446744073709551608 } := by decide +kernel
  have hidle : wrapping.head = wrapping.tail := by decide +kernel
  exact ⟨hbind, hidle, (run_delivers hbind hidle _).1⟩

end CacheMeter.Ring.Channel
