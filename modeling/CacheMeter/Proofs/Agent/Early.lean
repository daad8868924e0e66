import Mathlib
import CacheMeter.Proofs.Agent.Delivery
import CacheMeter.Proofs.Settings.Acceptance

/-!
# An agent before its first stop

An agent whose settings are accepted starts, and nothing has been read of its rings before.  So
all that is read of them until it is stopped comes out in its first session.

Main results:

- Theorem `Agent.start_succeeds`: settings that are accepted let an agent start.
- Theorem `Site.Sound.channel_run`: to each ring, commands are steps of its two sides.
- Theorem `Site.Early.run`: an agent that was neither started nor stopped has read nothing.
- Theorem `Site.Early.origins_start`: its first session reads every record.
-/

namespace CacheMeter

open Merge

/-! ## Starting -/

namespace Settings

variable {settings : Settings}

/-- What accepted settings are like.  That the pages are a power of two is left out. -/
structure Accepted (settings : Settings) (shape : Window.Shape) : Prop where
  length_ne : settings.aggregation.slotLength.nanoseconds ≠ 0
  count_ne : settings.aggregation.slotCount ≠ 0
  offset_lt : settings.aggregation.slotOffset.nanoseconds <
    settings.aggregation.slotLength.nanoseconds
  shape_eq : settings.aggregation.shape = .ok shape
  poll_ne : settings.pollInterval.isZero = false
  report_ne : settings.statsInterval.isZero = false

/-- Settings that pass the check are accepted. -/
theorem accepted_of_check (h : settings.check = .ok ()) :
    ∃ shape, settings.Accepted shape := by
  obtain ⟨-, hpoll, hreport, shape, window, hshape, hwindow⟩ := check_eq_ok_iff.mp h
  obtain ⟨hlength, hcount, hoffset⟩ := Aggregation.shape_eq_ok_iff.mp hshape
  obtain ⟨hpos, hsome, hphase⟩ :=
    Window.Shape.check_eq_ok_iff.mp (Window.ofShape_eq_ok_iff.mp hwindow).1
  rw [UInt64.lt_iff_toNat_lt] at hpos hphase
  exact ⟨shape,
    { length_ne := hlength ▸ hpos.ne'
      count_ne := hcount ▸ UInt32.pos_iff_ne_zero.mp hsome
      offset_lt := hlength ▸ hoffset ▸ hphase
      shape_eq := hshape
      poll_ne := by simpa [Duration.isZero] using hpoll.ne'
      report_ne := by simpa [Duration.isZero] using hreport.ne' }⟩

/-- They ask for a window that is accepted. -/
theorem Accepted.check_shape {shape : Window.Shape} (h : settings.Accepted shape) :
    shape.check = .ok () := by
  obtain ⟨hlength, hcount, hoffset⟩ := Aggregation.shape_eq_ok_iff.mp h.shape_eq
  rw [Window.Shape.check_eq_ok_iff, UInt64.lt_iff_toNat_lt, UInt64.lt_iff_toNat_lt, ← hlength,
    ← hcount, ← hoffset]
  exact ⟨Nat.pos_of_ne_zero h.length_ne, UInt32.pos_iff_ne_zero.mpr h.count_ne, h.offset_lt⟩

/-- And for intervals with which a session can begin, as long as the machine's clock reaches the
first report. -/
theorem Accepted.canBegin {shape : Window.Shape} (h : settings.Accepted shape) {reading : Nat}
    (hclock : reading + settings.statsInterval.nanoseconds <
      UInt64.size / 2 * Duration.nanosPerSecond) : settings.canBegin reading = true := by
  simp only [Settings.canBegin, h.poll_ne, h.report_ne, hclock, Bool.not_false, Bool.and_self,
    decide_true]

end Settings

namespace Agent

/-- Readers can be bound to regions that can be attached, one by one. -/
theorem foldlM_bindNext_of_attach {memory : Memory} (count : Nat)
    (h : ∀ ring < count, ∃ reader, Reader.attach memory ring = .ok reader) :
    ∃ readers, (List.range count).foldlM (bindNext memory) #[] = .ok readers := by
  induction count with
  | zero => exact ⟨#[], rfl⟩
  | succ count ih =>
    obtain ⟨readers, hreaders⟩ := ih fun ring hlt => h ring (Nat.lt_succ_of_lt hlt)
    obtain ⟨reader, hattach⟩ := h count (Nat.lt_succ_self count)
    refine ⟨readers.push reader, ?_⟩
    rw [List.range_succ, List.foldlM_append, hreaders]
    simp [bind, Except.bind, pure, Except.pure, bindNext, hattach]

/-- Accepted settings let an agent start, if its rings can be bound. -/
theorem start_succeeds {agent : Agent} (hvalid : agent.settings.check = .ok ())
    (hnone : agent.session = none)
    (hattach : ∀ ring < agent.memory.size, ∃ reader,
      Reader.attach agent.memory ring = .ok reader) :
    ∃ started, agent.start = .ok started := by
  obtain ⟨shape, haccepted⟩ := Settings.accepted_of_check hvalid
  obtain ⟨readers, hreaders⟩ := foldlM_bindNext_of_attach agent.memory.size hattach
  have hbound : bindAll agent.memory = .ok readers := hreaders
  have hwindow := Window.ofShape_eq_ok_iff.mpr ⟨haccepted.check_shape, rfl⟩
  have hstart : agent.start =
      .ok
        { agent with
          handlers := []
          session := some
            { readers := readers
              window := { shape := shape }
              handlers := if agent.handlers.isEmpty then [.log] else agent.handlers } } := by
    unfold start
    simp only [hnone, Option.isSome_none, Bool.false_eq_true, if_false, haccepted.shape_eq,
      hwindow, hbound, Except.mapError, bind, Except.bind, pure, Except.pure]
  exact ⟨_, hstart⟩

end Agent

/-- The name by which a command registers a handler, if it does. -/
def Command.registered? : Command → Option String
  | .onSlot name => some name
  | _ => none

/-- What a command is to the producer of a ring. -/
def Command.produced (ring : Nat) : Command → List Ring.Action
  | .produce other action => if other = ring ∧ action.isProducer then [action] else []
  | _ => []

/-! ## Rings under an agent -/

/-- A poll only reads. -/
theorem Merge.Network.Sound.onlyRead_served {net : Network} (h : net.Sound) :
    Network.OnlyRead net net.served where
  size_eq := h.size_served
  origins_eq := h.onlyRead_polled.origins_eq
  channel ring hlt := by
    rw [Network.channel_served]
    exact h.onlyRead_polled.channel ring hlt

/-- So do several. -/
theorem Merge.Network.Sound.onlyRead_iterate_served {net : Network} (h : net.Sound)
    (count : Nat) : Network.OnlyRead net (Network.served^[count] net) := by
  induction count generalizing net with
  | zero => exact .refl net
  | succ count ih =>
    rw [Function.iterate_succ_apply]
    exact h.onlyRead_served.trans (ih h.served)

namespace Site

variable {site : Site} {ring : Nat} {command : Command}

/-- A producer moves its own ring. -/
theorem channel_produce {net : Network} (h : net.Sound) (hlt : ring < net.merger.readers.size)
    (other : Nat) (action : Ring.Action) :
    (net.step (.produce other action)).channel ring =
      (net.channel ring).run (Command.produced ring (.produce other action)) := by
  simp only [Network.step, Command.produced, h.shaped.memory_size, Bool.and_eq_true,
    decide_eq_true_eq]
  by_cases hproducer : action.isProducer = true ∧ other < net.merger.readers.size
  · rw [if_pos hproducer, Network.channel_produced h.shaped hproducer.2 hproducer.1]
    split_ifs with hsame hboth hboth
    · rw [hsame]
      rfl
    · exact absurd ⟨hsame, hproducer.1⟩ hboth
    · exact absurd hboth.1 hsame
    · rfl
  · have hneither : ¬ (other = ring ∧ action.isProducer = true) :=
      fun hboth => hproducer ⟨hboth.2, hboth.1 ▸ hlt⟩
    rw [if_neg hproducer, if_neg hneither]
    rfl

/-- To each ring a command is a number of steps of its consumer, and then what it is to the
producer, unless the rings are closed. -/
theorem Sound.channel_step (h : site.Sound) (hlt : ring < site.net.merger.readers.size)
    (command : Command) :
    ∃ reading : List Ring.Action, (∀ action ∈ reading, action.isProducer = false) ∧
      (site.step command).net.channel ring =
        (site.net.channel ring).run
          (reading ++ if site.closed then [] else command.produced ring) := by
  have honly : ∀ reading : List Ring.Action, command.produced ring = [] →
      (reading ++ if site.closed then [] else command.produced ring) = reading := by
    intro reading hnone
    rw [hnone, ite_self, List.append_nil]
  cases command with
  | onSlot name => exact ⟨[], by simp, by rw [honly [] rfl]; rfl⟩
  | start =>
    rw [Site.step]
    cases hstart : site.agent.start with
    | error fault => exact ⟨[], by simp, by rw [honly [] rfl]; rfl⟩
    | ok started =>
      obtain ⟨-, shape, readers, -, -, hbound, rfl⟩ := Agent.start_eq_ok hstart
      refine ⟨[.rebindConsumer], by simp [Ring.Action.isProducer], ?_⟩
      rw [honly _ rfl]
      exact h.net.channel_rebound h.settled (h.bound_of_start hbound).2 hlt
  | stop chance exclusive =>
    obtain ⟨reading, hreading, hchannel⟩ :=
      (h.net.onlyRead_iterate_served (site.cancelled.polls chance)).channel ring hlt
    exact ⟨reading, hreading, by rw [honly _ rfl]; exact hchannel⟩
  | sleep chance? =>
    cases chance? with
    | none => exact ⟨[], by simp, by rw [honly [] rfl]; rfl⟩
    | some chance =>
      obtain ⟨reading, hreading, hchannel⟩ :=
        (h.net.onlyRead_iterate_served (site.polls chance)).channel ring hlt
      exact ⟨reading, hreading, by rw [honly _ rfl]; exact hchannel⟩
  | produce other action =>
    refine ⟨[], by simp, ?_⟩
    rw [Site.step, List.nil_append]
    split_ifs
    · rfl
    · exact channel_produce h.net hlt other action

/-- To each ring, commands are steps of its two sides. -/
theorem Sound.channel_run (h : site.Sound) (hlt : ring < site.net.merger.readers.size)
    (commands : List Command) :
    ∃ actions, (site.run commands).net.channel ring = (site.net.channel ring).run actions := by
  induction commands generalizing site with
  | nil => exact ⟨[], rfl⟩
  | cons command rest ih =>
    obtain ⟨reading, -, hchannel⟩ := h.channel_step hlt command
    obtain ⟨later, hlater⟩ := ih (h.step command) (by rwa [h.size_step])
    have hrest : ((site.step command).run rest).net.channel ring = _ := hlater
    rw [hchannel, ← Ring.Channel.run_append] at hrest
    exact ⟨_, hrest⟩

/-! ## Before the start -/

/-- An agent that was neither started nor stopped yet: nothing was read of its rings. -/
structure Early (site : Site) : Prop where
  sound : site.Sound
  session_eq : site.agent.session = none
  open_eq : site.closed = false
  never_stopped : site.agent.cancelled = false
  uncounted : site.agent.tally = .zero
  unread : ∀ ring < site.net.merger.readers.size, (site.net.channel ring).journal.popped = []

/-- An agent that is neither started nor stopped reads nothing. -/
theorem Early.step (h : Early site) (hstart : command ≠ .start)
    (hstop : command.isStop = false) : Early (site.step command) := by
  have hsound := h.sound.step command
  cases command with
  | onSlot name =>
    exact ⟨hsound, h.session_eq, h.open_eq, h.never_stopped, h.uncounted, h.unread⟩
  | start => exact absurd rfl hstart
  | stop chance exclusive => exact absurd hstop Bool.noConfusion
  | sleep chance? =>
    rcases site.step_sleep_cases chance? with hstep | ⟨-, session, -, hsession⟩
    · rwa [hstep]
    · rw [h.session_eq] at hsession
      cases hsession
  | produce ring action =>
    have hsize := h.sound.size_step (.produce ring action)
    refine ⟨hsound, ?_, ?_, ?_, ?_, fun other hother => ?_⟩
    · rw [Site.step]
      split_ifs <;> exact h.session_eq
    · rw [Site.step]
      split_ifs <;> exact h.open_eq
    · rw [(site.settings_step _).2, h.never_stopped]
      rfl
    · rw [Site.step]
      split_ifs <;> exact h.uncounted
    · rw [hsize] at hother
      rw [Site.step, if_neg (by simp [h.open_eq]), Network.step]
      dsimp only
      split_ifs with hproduce
      · rw [Bool.and_eq_true, decide_eq_true_eq, h.sound.net.shaped.memory_size] at hproduce
        rw [Network.channel_produced h.sound.net.shaped hproduce.2 hproduce.1]
        split_ifs with hsame
        · rw [(Network.journal_producer _ hproduce.1).2, hsame]
          exact h.unread other hother
        · exact h.unread other hother
      · exact h.unread other hother

/-- And so it stays until it is. -/
theorem Early.run (h : Early site) {commands : List Command}
    (hquiet : ∀ command ∈ commands, command ≠ .start ∧ command.isStop = false) :
    Early (site.run commands) := by
  induction commands generalizing site with
  | nil => exact h
  | cons command rest ih =>
    rw [List.forall_mem_cons] at hquiet
    exact ih (h.step hquiet.1.1 hquiet.1.2) hquiet.2

/-- Before the start nothing but registering a handler makes it one of the session. -/
theorem Early.handlers_step (h : Early site) (hstart : command ≠ .start)
    (hstop : command.isStop = false) :
    (site.step command).agent.handlers =
      site.agent.handlers ++ command.registered?.toList.map .named := by
  cases command with
  | onSlot name => rfl
  | start => exact absurd rfl hstart
  | stop chance exclusive => exact absurd hstop Bool.noConfusion
  | sleep chance? =>
    rcases site.step_sleep_cases chance? with hstep | ⟨-, session, -, hsession⟩
    · rw [hstep]
      exact (List.append_nil _).symm
    · rw [h.session_eq] at hsession
      cases hsession
  | produce ring action =>
    rw [Site.step]
    split_ifs <;> exact (List.append_nil _).symm

/-- Its handlers are those that were registered, in order. -/
theorem Early.handlers_run (h : Early site) {commands : List Command}
    (hquiet : ∀ command ∈ commands, command ≠ .start ∧ command.isStop = false) :
    (site.run commands).agent.handlers =
      site.agent.handlers ++ (commands.filterMap Command.registered?).map .named := by
  induction commands generalizing site with
  | nil => exact (List.append_nil _).symm
  | cons command rest ih =>
    rw [List.forall_mem_cons] at hquiet
    have hrest := ih (h.step hquiet.1.1 hquiet.1.2) hquiet.2
    rw [h.handlers_step hquiet.1.1 hquiet.1.2, List.append_assoc, ← List.map_append] at hrest
    refine hrest.trans ?_
    cases hname : command.registered? <;> simp [hname]

/-- An agent over rings that publish sound cursors starts if its settings are accepted. -/
theorem Early.start_succeeds (h : Early site) (hvalid : site.agent.settings.check = .ok ()) :
    ∃ started, site.agent.start = .ok started := by
  refine Agent.start_succeeds hvalid h.session_eq fun ring hlt => ?_
  rw [h.sound.memory_of_open h.open_eq] at hlt ⊢
  rw [h.sound.net.shaped.memory_size] at hlt
  obtain ⟨view, hsound⟩ := h.sound.net.channels ring hlt
  have hattach : Ring.View.attach (site.net.memory.region ring) = _ := hsound.attach
  rw [Reader.attach, hattach]
  exact ⟨_, rfl⟩

/-- In the session that begins, all that is read of a ring comes out. -/
theorem Early.origins_start (h : Early site) {started : Agent}
    (hstart : site.agent.start = .ok started) (hlt : ring < site.net.merger.readers.size) :
    (site.step .start).net.origins.getD ring 0 = 0 := by
  rw [Site.step, hstart]
  dsimp only
  rw [h.sound.net.origins_rebound _ hlt, h.unread ring hlt]
  rfl

/-- And so it stays until the next session. -/
theorem Sound.origins_step (h : site.Sound) {session : Session}
    (hsession : site.agent.session = some session) (command : Command) :
    (site.step command).net.origins = site.net.origins := by
  cases command with
  | onSlot name => rfl
  | start => rw [step_start_of_session hsession]
  | stop chance exclusive =>
    exact (h.net.onlyRead_iterate_served (site.cancelled.polls chance)).origins_eq
  | sleep chance? =>
    cases chance? with
    | none => rfl
    | some chance => exact (h.net.onlyRead_iterate_served (site.polls chance)).origins_eq
  | produce other action =>
    rw [Site.step]
    split_ifs
    · rfl
    · dsimp only
      rw [Network.step]
      split_ifs <;> rfl

end Site

end CacheMeter
