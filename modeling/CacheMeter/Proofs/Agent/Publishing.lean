import Mathlib
import CacheMeter.Proofs.Agent.Early

/-!
# What producers publish under an agent

Whether a record is written is up to the producer and to the space it knows of.  As long as it
does not look for released space again, nothing that its consumer does changes what it writes
and publishes.

Main results:

- Theorem `Channel.SameOutput.step`: producers that stand alike write and publish the same.
- Theorem `Site.Sound.output_run`: what is published stays published.
- Theorem `Site.Sound.sameOutput_run`: under an agent at work, a ring comes to hold what the
  steps of its producer alone would write and publish.
-/

namespace CacheMeter

/-- Whether it is a step by which the producer looks at what is released. -/
def Ring.Action.isReclaim : Ring.Action → Bool
  | .startWrite | .rebindProducer => true
  | _ => false

namespace Ring.Channel

/-- Two channels whose producers stand alike, with the same records written and published. -/
structure SameOutput (first second : Channel) : Prop where
  producer : second.producer = first.producer
  written : second.journal.written = first.journal.written
  published : second.journal.published = first.journal.published

variable {first second : Channel} {action : Action}

/-- A channel stands like itself. -/
theorem SameOutput.refl (channel : Channel) : SameOutput channel channel := ⟨rfl, rfl, rfl⟩

/-- Channels that stand like a third stand alike. -/
theorem SameOutput.trans {third : Channel} (h : SameOutput first second)
    (h' : SameOutput second third) : SameOutput first third where
  producer := h'.producer.trans h.producer
  written := h'.written.trans h.written
  published := h'.published.trans h.published

/-- The producer does not move when its consumer does. -/
theorem producer_step_reading (channel : Channel) (hreading : action.isProducer = false) :
    (channel.step action).producer = channel.producer := by
  cases action with
  | startWrite | write | finishWrite | rebindProducer =>
    exact absurd hreading (by simp [Action.isProducer])
  | startRead | finishRead => simp only [Channel.step]
  | pop =>
    simp only [Channel.step]
    cases channel.consumer.pop channel.region <;> rfl
  | rebindConsumer =>
    simp only [Channel.step]
    cases View.attach channel.region <;> split_ifs <;> rfl

/-- However much is read of a channel, its producer stands as before. -/
theorem sameOutput_reading (channel : Channel) {actions : List Action}
    (hreading : ∀ action ∈ actions, action.isProducer = false) :
    SameOutput channel (channel.run actions) := by
  induction actions generalizing channel with
  | nil => exact .refl channel
  | cons action rest ih =>
    rw [List.forall_mem_cons] at hreading
    obtain ⟨hwritten, hpublished⟩ := channel.written_step_reading hreading.1
    have hstep : SameOutput channel (channel.step action) :=
      ⟨channel.producer_step_reading hreading.1, hwritten, hpublished⟩
    exact hstep.trans (ih _ hreading.2)

/-- Whether a record is written does not depend on what the ring holds. -/
theorem SameOutput.step (h : SameOutput first second) (hproducer : action.isProducer = true)
    (hblind : action.isReclaim = false) : SameOutput (first.step action) (second.step action) := by
  cases action with
  | startWrite | rebindProducer => exact absurd hblind (by simp [Action.isReclaim])
  | startRead | pop | finishRead | rebindConsumer =>
    exact absurd hproducer (by simp [Action.isProducer])
  | finishWrite => exact ⟨h.producer, h.written, congrArg List.length h.written⟩
  | write payload recordType =>
    have hfits : second.Fits recordType payload ↔ first.Fits recordType payload := by
      rw [Fits, Fits, h.producer]
    by_cases hfit : first.Fits recordType payload
    · rw [step_write_of_fits hfit, step_write_of_fits (hfits.mpr hfit), h.producer, h.written]
      exact ⟨rfl, rfl, h.published⟩
    · rw [step_write_of_not_fits hfit, step_write_of_not_fits (hfits.not.mpr hfit)]
      exact h

/-- Whatever producers that stand alike do, they stand alike after it. -/
theorem SameOutput.run (h : SameOutput first second) {actions : List Action}
    (hproducer : ∀ action ∈ actions, action.isProducer = true)
    (hblind : ∀ action ∈ actions, action.isReclaim = false) :
    SameOutput (first.run actions) (second.run actions) := by
  induction actions generalizing first second with
  | nil => exact h
  | cons action rest ih =>
    rw [List.forall_mem_cons] at hproducer hblind
    exact ih (h.step hproducer.1 hblind.1) hproducer.2 hblind.2

end Ring.Channel

/-! ## What is published -/

namespace Ring

/-- The records published, in order. -/
def Journal.output (journal : Journal) : List (UInt32 × Bytes) :=
  journal.written.take journal.published

namespace Channel

variable {view : View} {channel : Channel}

/-- What is published stays published. -/
theorem Sound.output_step (h : Sound view channel) (action : Action) :
    channel.journal.output <+: (channel.step action).journal.output := by
  cases hproducer : action.isProducer with
  | false =>
    obtain ⟨hwritten, hpublished⟩ := channel.written_step_reading hproducer
    rw [Journal.output, Journal.output, hwritten, hpublished]
  | true =>
    cases action with
    | startRead | pop | finishRead | rebindConsumer =>
      exact absurd hproducer (by simp [Action.isProducer])
    | startWrite => simp only [Channel.step, Journal.output, List.prefix_rfl]
    | rebindProducer =>
      simp only [Channel.step]
      split_ifs
      · split <;> simp only [Journal.output, List.prefix_rfl]
      · exact List.prefix_rfl
    | finishWrite =>
      simp only [Channel.step, Journal.output, List.take_length]
      exact List.take_prefix _ _
    | write payload recordType =>
      by_cases hfits : channel.Fits recordType payload
      · rw [step_write_of_fits hfits, Journal.output, Journal.output]
        dsimp only
        rw [List.take_append_of_le_length h.ordered.published_le]
      · rw [step_write_of_not_fits hfits]

/-- And so it does whatever both sides do. -/
theorem Sound.output_run (h : Sound view channel) (actions : List Action) :
    channel.journal.output <+: (channel.run actions).journal.output := by
  induction actions generalizing channel with
  | nil => exact List.prefix_rfl
  | cons action rest ih => exact (h.output_step action).trans (ih (h.step action))

end Channel

end Ring

/-! ## Under an agent -/

open Ring.Channel (SameOutput)

/-- What a command is to the producer of a ring is a step of a producer. -/
theorem Command.isProducer_of_mem_produced {ring : Nat} {command : Command}
    {action : Ring.Action} (hmem : action ∈ command.produced ring) :
    action.isProducer = true := by
  cases command with
  | produce other produced =>
    rw [Command.produced] at hmem
    split_ifs at hmem with hboth
    · rw [List.mem_singleton.mp hmem]
      exact hboth.2
    · exact absurd hmem List.not_mem_nil
  | onSlot | start | stop | sleep => exact absurd hmem List.not_mem_nil

namespace Site

variable {site : Site} {ring : Nat} {channel : Ring.Channel}

/-- Only a stop closes the rings. -/
theorem closed_step {command : Command} (hstop : command.isStop = false) :
    (site.step command).closed = site.closed := by
  cases command with
  | onSlot => rfl
  | sleep chance? => cases chance? <;> rfl
  | start =>
    rw [step]
    cases site.agent.start <;> rfl
  | stop => exact absurd hstop Bool.noConfusion
  | produce =>
    rw [step]
    split_ifs <;> rfl

/-- A command to an agent is to its producers what they do themselves. -/
theorem Sound.sameOutput_step (h : site.Sound) (hlt : ring < site.net.merger.readers.size)
    (hopen : site.closed = false) {command : Command}
    (hblind : ∀ action ∈ command.produced ring, action.isReclaim = false)
    (hsame : SameOutput channel (site.net.channel ring)) :
    SameOutput (channel.run (command.produced ring)) ((site.step command).net.channel ring) := by
  obtain ⟨reading, hreading, hchannel⟩ := h.channel_step hlt command
  rw [hchannel, hopen, if_neg Bool.false_ne_true, Ring.Channel.run_append]
  exact (hsame.trans (Ring.Channel.sameOutput_reading _ hreading)).run
    (fun _ hmem => Command.isProducer_of_mem_produced hmem) hblind

/-- Until the agent is stopped, its rings come to hold what their producers alone would write
and publish. -/
theorem Sound.sameOutput_run (h : site.Sound) (hlt : ring < site.net.merger.readers.size)
    (hopen : site.closed = false) {commands : List Command}
    (hstop : ∀ command ∈ commands, command.isStop = false)
    (hblind : ∀ action ∈ commands.flatMap (Command.produced ring), action.isReclaim = false)
    (hsame : SameOutput channel (site.net.channel ring)) :
    SameOutput (channel.run (commands.flatMap (Command.produced ring)))
      ((site.run commands).net.channel ring) := by
  induction commands generalizing site channel with
  | nil => exact hsame
  | cons command rest ih =>
    rw [List.forall_mem_cons] at hstop
    rw [List.flatMap_cons, List.forall_mem_append] at hblind
    rw [List.flatMap_cons, Ring.Channel.run_append]
    exact ih (h.step command) (by rwa [h.size_step]) ((closed_step hstop.1).trans hopen) hstop.2
      hblind.2 (h.sameOutput_step hlt hopen hblind.1 hsame)

/-- Under an agent, too, what is published stays published. -/
theorem Sound.output_run (h : site.Sound) (hlt : ring < site.net.merger.readers.size)
    (commands : List Command) :
    (site.net.channel ring).journal.output <+:
      ((site.run commands).net.channel ring).journal.output := by
  obtain ⟨view, hring⟩ := h.net.channels ring hlt
  obtain ⟨actions, hrun⟩ := h.channel_run hlt commands
  rw [hrun]
  exact hring.output_run actions

end Site

end CacheMeter
