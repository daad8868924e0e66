import Mathlib
import CacheMeter.Proofs.Merge.Reader
import CacheMeter.Proofs.Ring.Channel

/-!
# Keys that stay

The key of an unread record may depend on padding, which is never written.  It stays as
it is all the same: whatever the producer does, and whenever the consumer looks for more
or releases what it has read, the bytes of an unread record are left alone.

Main results:

- Theorem `View.headTime?_congr`: the key depends on the record's own bytes only.
- Theorem `Channel.Sound.headTime?_producer`: no step of the producer changes a key.
- Theorems `Channel.Sound.headTime?_startRead` and `headTime?_finishRead`: neither does
  looking for more, nor releasing.
-/

namespace CacheMeter.Ring

/-! ## What a key depends on -/

/-- The key depends on the bytes from the read cursor up to the end that the header
announces. -/
theorem View.headTime?_congr {view view' : View} {region region' : Region}
    (hfull : view.isEmpty = false) (hfull' : view'.isEmpty = false)
    (hsame : ∀ offset count,
      offset + count ≤ max headerSize (view.rawHeader region).size.toNat →
        view'.copyOut region' offset count = view.copyOut region offset count) :
    view'.headTime? region' = view.headTime? region := by
  have hheader : view'.rawHeader region' = view.rawHeader region := by
    rw [View.rawHeader, View.rawHeader, hsame 0 headerSize (by omega)]
  have htype : view'.recordType region' = view.recordType region := by
    rw [View.recordType, View.recordType, hheader]
  have hannounced : view'.announced region' = view.announced region := by
    rw [View.announced, View.announced, hheader]
  have hpayload : view'.payload region' = view.payload region := by
    rw [View.payload, View.payload, hannounced]
    refine hsame headerSize _ ?_
    unfold View.announced
    omega
  rw [View.headTime?_of_full hfull', View.headTime?_of_full hfull, htype, hpayload]

namespace Channel.Sound

variable {view : View} {channel : Channel}

/-- What the consumer copies out is a span at its place on the timeline. -/
theorem copyOut_consumer (h : Sound view channel) (region : Region) (offset count : Nat) :
    channel.consumer.copyOut region offset count =
      view.span region
        (position channel.journal.written view.readPos.toNat channel.journal.popped.length +
          offset) count := by
  have hdvd : channel.consumer.capacity ∣ UInt64.size := by
    rw [h.consumer]
    exact h.capacity_dvd
  have hread : channel.consumer.readPos = UInt64.ofNat
      (position channel.journal.written view.readPos.toNat channel.journal.popped.length) := by
    rw [h.consumer, mark]
  rw [View.copyOut_eq_span hdvd hread, View.span, View.span, h.consumer]

/-! ## Steps of the producer -/

/-- A step of the producer leaves the bytes of an unread record alone, padding included. -/
theorem copyOut_producer (h : Sound view channel) {action : Action}
    (hproducer : action.isProducer = true) {record : UInt32 × Bytes}
    (hnext : channel.journal.written[channel.journal.popped.length]? = some record)
    {offset count : Nat} (hle : offset + count ≤ Record.size record.1 record.2) :
    channel.consumer.copyOut (channel.step action).region offset count =
      channel.consumer.copyOut channel.region offset count := by
  cases action with
  | startWrite => simp only [Channel.step]
  | rebindProducer =>
    simp only [Channel.step, h.attach]
    split_ifs <;> rfl
  | finishWrite =>
    simp only [Channel.step, View.finishWrite]
    rw [h.copyOut_consumer, h.copyOut_consumer, h.span_publishHead]
  | write payload recordType =>
    simp only [Channel.step]
    cases hwrite : channel.producer.write channel.region payload recordType with
    | error refusal => rfl
    | ok result =>
      rcases result with ⟨place, producer, region⟩
      rcases View.write_eq_ok_iff.mp hwrite with ⟨⟨-, -, -, hroom⟩, -, rfl, rfl⟩
      have hheld := h.ordered.acknowledged_le.trans h.ordered.released_le
      -- The bytes are part of the whole record, which the write does not touch.
      have hwhole := h.span_write hroom hheld hnext le_rfl
      rw [← Nat.zero_add offset, View.copyOut_slice _ _ hle, View.copyOut_slice _ _ hle,
        h.copyOut_consumer, h.copyOut_consumer, Nat.add_zero, hwhole]
  | startRead | pop | finishRead | rebindConsumer => exact absurd hproducer Bool.false_ne_true

theorem consumer_producer (channel : Channel) {action : Action}
    (hproducer : action.isProducer = true) :
    (channel.step action).consumer = channel.consumer := by
  cases action with
  | startWrite | finishWrite => simp only [Channel.step]
  | rebindProducer =>
    simp only [Channel.step]
    cases View.attach channel.region <;> split_ifs <;> rfl
  | write payload recordType =>
    simp only [Channel.step]
    cases channel.producer.write channel.region payload recordType <;> rfl
  | startRead | pop | finishRead | rebindConsumer => exact absurd hproducer Bool.false_ne_true

/-- Only a pop adds to what was popped. -/
theorem popped_step (channel : Channel) {action : Action} (hne : action ≠ .pop) :
    (channel.step action).journal.popped = channel.journal.popped := by
  cases action with
  | startWrite | finishWrite | startRead | finishRead => simp only [Channel.step]
  | rebindProducer | rebindConsumer =>
    simp only [Channel.step]
    cases View.attach channel.region <;> split_ifs <;> rfl
  | write payload recordType =>
    simp only [Channel.step]
    cases channel.producer.write channel.region payload recordType <;> rfl
  | pop => exact absurd rfl hne

/-- No step of the producer changes a key. -/
theorem headTime?_producer (h : Sound view channel) {action : Action}
    (hproducer : action.isProducer = true) :
    channel.consumer.headTime? (channel.step action).region =
      channel.consumer.headTime? channel.region := by
  cases hfull : channel.consumer.isEmpty with
  | true => rw [View.headTime?_of_isEmpty hfull, View.headTime?_of_isEmpty hfull]
  | false =>
    rcases h.unread hfull with ⟨record, hnext, hsize, -⟩
    rw [View.announced] at hsize
    refine View.headTime?_congr hfull hfull ?_
    intro offset count hle
    exact h.copyOut_producer hproducer hnext (by omega)

/-! ## Steps of the consumer -/

/-- Looking for more does not change the key of a record that is there already. -/
theorem headTime?_startRead (h : Sound view channel)
    (hfull : channel.consumer.isEmpty = false) :
    (channel.consumer.startRead channel.region).headTime? channel.region =
      channel.consumer.headTime? channel.region := by
  have hnot : channel.journal.popped.length ≠ channel.journal.visible := by
    rw [ne_eq, ← h.isEmpty_iff, hfull]
    exact Bool.false_ne_true
  have hconsumer : (channel.step .startRead).consumer =
      channel.consumer.startRead channel.region := by
    simp only [Channel.step]
  have hjournal : (channel.step .startRead).journal =
      { channel.journal with visible := channel.journal.published } := by
    simp only [Channel.step]
  have hstarted : (channel.consumer.startRead channel.region).isEmpty = false := by
    have hpopped := h.ordered.popped_le
    have hvisible := h.ordered.visible_le
    rw [← hconsumer, Bool.eq_false_iff, ne_eq, h.startRead.isEmpty_iff, hjournal]
    dsimp only
    omega
  refine View.headTime?_congr hfull hstarted ?_
  intro offset count _
  simp only [View.copyOut, View.place, View.startRead]

/-- Releasing does not change a key. -/
theorem headTime?_finishRead (h : Sound view channel) :
    channel.consumer.headTime? (channel.consumer.finishRead channel.region) =
      channel.consumer.headTime? channel.region := by
  cases hfull : channel.consumer.isEmpty with
  | true => rw [View.headTime?_of_isEmpty hfull, View.headTime?_of_isEmpty hfull]
  | false =>
    refine View.headTime?_congr hfull hfull ?_
    intro offset count _
    rw [View.finishRead, h.copyOut_consumer, h.copyOut_consumer, h.span_publishTail]

end Channel.Sound

end CacheMeter.Ring
