import Mathlib
import CacheMeter.Proofs.Agent.Work

/-!
# An agent among its producers

A site is an agent with the producers of its rings.  Its network is not part of the program:
it has the journals of all rings, and it is polled whenever a poll by the session of the agent
gets through.  Whatever commands an agent is given, whatever chances its session gets, and
whatever its producers do in between, the rings that it reads are those of the network, until it
closes them.  That goes for a session that breaks off as well: it leaves the rings as its last
poll did.

Main results:

- Definition `Site.step`: one command to the agent, or one step of a producer.
- Theorem `Agent.start_eq_ok`: what a start that is not refused leads to.
- Theorem `Site.Sound.run`: the agent reads the rings of its network.
-/

namespace CacheMeter

open Merge

/-! ## Starting -/

namespace Agent

section Outcomes

variable {ε ε' α β : Type}

/-- Both parts of a success succeed. -/
theorem of_bind_eq_ok {outcome : Except ε α} {next : α → Except ε β} {result : β}
    (h : (outcome >>= next) = .ok result) :
    ∃ value, outcome = .ok value ∧ next value = .ok result := by
  cases outcome with
  | ok value => exact ⟨value, rfl, h⟩
  | error cause => exact absurd h (by simp [bind, Except.bind])

/-- A success does not depend on how failures are called. -/
theorem of_mapError_eq_ok {outcome : Except ε α} {rename : ε → ε'} {value : α}
    (h : outcome.mapError rename = .ok value) : outcome = .ok value := by
  cases outcome with
  | ok other => exact congrArg _ (Except.ok.inj h)
  | error cause => exact absurd h (by simp [Except.mapError])

end Outcomes

/-- Bind one more reader, as `bindAll` does. -/
def bindNext (memory : Memory) (readers : Array Reader) (index : Nat) :
    Except Fault (Array Reader) :=
  match Reader.attach memory index with
  | .ok reader => .ok (readers.push reader)
  | .error cause => .error (.binding index cause)

/-- Binding one more reader adds it at the end. -/
theorem bindNext_eq_ok {memory : Memory} {readers bound : Array Reader} {index : Nat}
    (h : bindNext memory readers index = .ok bound) :
    ∃ reader, Reader.attach memory index = .ok reader ∧ bound = readers.push reader := by
  unfold bindNext at h
  cases hattach : Reader.attach memory index with
  | ok reader =>
    rw [hattach] at h
    exact ⟨reader, rfl, (Except.ok.inj h).symm⟩
  | error cause =>
    rw [hattach] at h
    exact absurd h (by simp)

/-- Readers are bound one by one, each to the region with its number. -/
theorem foldlM_bindNext {memory : Memory} (count : Nat) {readers : Array Reader}
    (h : (List.range count).foldlM (bindNext memory) #[] = .ok readers) :
    readers.size = count ∧
      ∀ ring < count, Reader.attach memory ring = .ok (readers.getD ring default) := by
  induction count generalizing readers with
  | zero =>
    obtain rfl : #[] = readers := by simpa [pure, Except.pure] using h
    exact ⟨rfl, fun ring hlt => absurd hlt (Nat.not_lt_zero ring)⟩
  | succ count ih =>
    rw [List.range_succ, List.foldlM_append] at h
    obtain ⟨before, hbefore, hlast⟩ := of_bind_eq_ok h
    obtain ⟨bound, hnext, hbound⟩ := of_bind_eq_ok hlast
    obtain ⟨reader, hattach, rfl⟩ := bindNext_eq_ok hnext
    obtain rfl := Except.ok.inj hbound
    obtain ⟨hsize, hall⟩ := ih hbefore
    refine ⟨by rw [Array.size_push, hsize], ?_⟩
    intro ring hlt
    rw [getD_push, hsize]
    split_ifs with hlast
    · rw [hlast, hattach]
    · exact hall ring (by omega)

/-- Readers that could all be bound are bound to all regions. -/
theorem bound_of_bindAll {memory : Memory} {readers : Array Reader}
    (h : bindAll memory = .ok readers) : Network.Bound readers memory :=
  let bound := foldlM_bindNext memory.size h
  ⟨bound.1, bound.2⟩

/-- What a start that is not refused leads to. -/
theorem start_eq_ok {agent started : Agent} (h : agent.start = .ok started) :
    agent.session = none ∧ ∃ shape readers,
      agent.settings.aggregation.shape = .ok shape ∧ shape.check = .ok () ∧
        Network.Bound readers agent.memory ∧
        started =
          { agent with
            handlers := []
            session := some
              { readers := readers
                window := { shape := shape }
                handlers := if agent.handlers.isEmpty then [.log] else agent.handlers } } := by
  by_cases hsession : agent.session.isSome = true
  · rw [start_twice hsession] at h
    exact absurd h (by simp)
  refine ⟨by simpa using hsession, ?_⟩
  rw [start, if_neg hsession] at h
  obtain ⟨shape, hshape, h⟩ := of_bind_eq_ok h
  obtain ⟨window, hwindow, h⟩ := of_bind_eq_ok h
  obtain ⟨readers, hreaders, h⟩ := of_bind_eq_ok h
  have hwindow := of_mapError_eq_ok hwindow
  rw [Window.ofShape] at hwindow
  cases hcheck : shape.check with
  | error cause =>
    rw [hcheck] at hwindow
    exact absurd hwindow (by simp [Except.map])
  | ok checked =>
    rw [hcheck] at hwindow
    obtain rfl := Except.ok.inj hwindow
    exact ⟨shape, readers, of_mapError_eq_ok hshape, hcheck, bound_of_bindAll hreaders,
      (Except.ok.inj h).symm⟩

end Agent

/-- A region that was closed cannot be bound. -/
theorem Ring.View.attach_close (region : Ring.Region) :
    attach region.close = .error .noMemory := by
  simp [attach, bind, Ring.Region.close]

/-! ## Sites -/

/-- An agent with the network of its rings, what was seen of it since its last session began,
and whether it has closed its rings.  Without rings there is nothing to close. -/
structure Site where
  agent : Agent
  net : Network
  events : List AgentEvent := []
  closed : Bool := false

/-- What can be done to an agent, or by a producer of one of its rings.  While the agent sleeps,
its session gets a chance to run, or it does not. -/
inductive Command
  | onSlot (name : String)
  | start
  | stop (chance : Chance) (exclusive : Bool)
  | sleep (chance? : Option Chance)
  | produce (ring : Nat) (action : Ring.Action)
deriving DecidableEq, Repr

namespace Command

/-- Whether a command ends the session. -/
def isStop : Command → Bool
  | .stop _ _ => true
  | _ => false

/-- The chance that a command gives to the session, if it does. -/
def chance? : Command → Option Chance
  | .stop chance _ => some chance
  | .sleep chance? => chance?
  | _ => none

/-- Short of a stop, it is sleeping that gives the session a chance. -/
theorem eq_sleep_of_chance {command : Command} {chance : Chance} (hquiet : command.isStop = false)
    (hchance : command.chance? = some chance) : command = .sleep (some chance) := by
  cases command with
  | sleep => exact congrArg Command.sleep hchance
  | onSlot | start | produce => exact absurd hchance (Option.some_ne_none chance).symm
  | stop => exact absurd hquiet Bool.noConfusion

end Command

namespace Site

/-- The session of a site at work. -/
def shift (site : Site) (session : Session) : Shift where
  agent := site.agent
  session := session
  net := site.net

/-- An agent over rings that were bound while idle, before anything happened. -/
def idle (settings : Settings) (lanes : List Lane) : Site :=
  let net := Network.run {} (lanes.map .addRing)
  { agent := Agent.ofMemory settings net.memory
    net := net }

/-- How often the rings are polled when the session gets a chance. -/
def polls (site : Site) (chance : Chance) : Nat :=
  match site.agent.session with
  | none => 0
  | some session => (site.shift session).polls chance

/-- The site, once the agent knows that it is to stop. -/
def cancelled (site : Site) : Site :=
  { site with agent := { site.agent with cancelled := true } }

/-- The readers of an agent's session. -/
def readersOf (agent : Agent) : Array Reader :=
  (agent.session.map Session.readers).getD #[]

/-- One command.  A start that is refused changes nothing, and producers have nothing to
write to once the rings are closed. -/
def step (site : Site) : Command → Site
  | .onSlot name => { site with agent := site.agent.onSlot name }
  | .start =>
    match site.agent.start with
    | .ok agent =>
      { site with
        agent := agent
        net := site.net.rebound (readersOf agent)
        events := [] }
    | .error _ => site
  | .stop chance exclusive =>
    let (agent, events, fault) := site.agent.stopChecked chance exclusive
    let net := Network.served^[site.cancelled.polls chance] site.net
    { agent := agent
      net := net
      events := site.events ++ events
      closed := site.closed || (exclusive && fault.isNone && !net.memory.isEmpty) }
  | .sleep none => site
  | .sleep (some chance) =>
    { site with
      agent := (site.agent.sleepChecked chance).1
      net := Network.served^[site.polls chance] site.net
      events := site.events ++ (site.agent.sleepChecked chance).2 }
  | .produce ring action =>
    if site.closed then site
    else
      let net := site.net.step (.produce ring action)
      { site with
        agent := { site.agent with memory := net.memory }
        net := net }

/-- Commands one after the other. -/
def run (site : Site) (commands : List Command) : Site :=
  commands.foldl step site

/-! ## Soundness -/

/-- The agent reads the rings of the network until it closes them.  A session that has failed
reads nothing more. -/
structure Sound (site : Site) : Prop where
  net : site.net.Sound
  settled : site.net.Settled
  memory_eq : site.agent.memory =
    if site.closed then site.net.memory.map Ring.Region.close else site.net.memory
  merger_eq : ∀ session ∈ site.agent.session, session.phase ≠ .failed →
    site.net.merger = { readers := session.readers }
  /-- Only an agent with rings closes them, and only when its session is over. -/
  closed_idle : site.closed = true → site.agent.session = none ∧ 0 < site.net.memory.size

variable {site : Site}

/-- As long as they are not closed, the agent has the rings of the network. -/
theorem Sound.memory_of_open (h : site.Sound) (hopen : site.closed = false) :
    site.agent.memory = site.net.memory := by
  have hmemory := h.memory_eq
  rwa [hopen, if_neg Bool.false_ne_true] at hmemory

/-- Under a session nothing is closed. -/
theorem Sound.open_of_session (h : site.Sound) {session : Session}
    (hsession : site.agent.session = some session) : site.closed = false := by
  by_contra hclosed
  have hnone := (h.closed_idle (by simpa using hclosed)).1
  rw [hsession] at hnone
  exact absurd hnone (Option.some_ne_none session)

/-- A session at work reads the rings of the network. -/
theorem Sound.tied (h : site.Sound) {session : Session}
    (hsession : site.agent.session = some session) (hphase : session.phase ≠ .failed) :
    (site.shift session).Tied where
  net := h.net
  settled := h.settled
  memory_eq := h.memory_of_open (h.open_of_session hsession)
  merger_eq := h.merger_eq session hsession hphase

/-- An agent that is told to stop has the same rings. -/
theorem Sound.cancelled (h : site.Sound) : site.cancelled.Sound where
  net := h.net
  settled := h.settled
  memory_eq := h.memory_eq
  merger_eq := h.merger_eq
  closed_idle := h.closed_idle

/-- Registering a handler is nothing that the rings notice. -/
theorem Sound.onSlot (h : site.Sound) (name : String) : (site.step (.onSlot name)).Sound where
  net := h.net
  settled := h.settled
  memory_eq := h.memory_eq
  merger_eq := h.merger_eq
  closed_idle := h.closed_idle

/-- An agent that has closed its rings is refused when it is started again. -/
theorem Sound.bound_of_start (h : site.Sound) {readers : Array Reader}
    (hbound : Network.Bound readers site.agent.memory) :
    site.closed = false ∧ Network.Bound readers site.net.memory := by
  cases hclosed : site.closed with
  | false => exact ⟨rfl, h.memory_of_open hclosed ▸ hbound⟩
  | true =>
    have hpos := (h.closed_idle hclosed).2
    have hmemory := h.memory_eq
    rw [hclosed, if_pos rfl] at hmemory
    have hattach := hbound.attach_eq 0 (by rwa [hmemory, Array.size_map])
    rw [hmemory, Reader.attach, Memory.region, getD_map _ hpos, Ring.View.attach_close] at hattach
    exact absurd hattach (by simp [Except.map])

/-- A session begins with readers of its own. -/
theorem Sound.start (h : site.Sound) : (site.step .start).Sound := by
  rw [step]
  cases hstart : site.agent.start with
  | error fault => exact h
  | ok started =>
    obtain ⟨hnone, shape, readers, -, -, hbound, rfl⟩ := Agent.start_eq_ok hstart
    obtain ⟨hopen, hbound'⟩ := h.bound_of_start hbound
    refine ⟨h.net.rebound h.settled hbound', h.settled.rebound h.net hbound', ?_, ?_, ?_⟩
    · simpa [hopen, Network.rebound] using h.memory_of_open hopen
    · rintro session hsession -
      obtain rfl := Option.some.inj hsession
      rfl
    · intro hclosed
      exact absurd (hopen.symm.trans hclosed) Bool.false_ne_true

/-- A producer leaves the readers alone. -/
theorem merger_produce (net : Network) (ring : Nat) (action : Ring.Action) :
    (net.step (.produce ring action)).merger = net.merger := by
  rw [Network.step]
  split_ifs <;> rfl

/-- Whatever a producer does, the agent has the same rings. -/
theorem Sound.produce (h : site.Sound) (ring : Nat) (action : Ring.Action) :
    (site.step (.produce ring action)).Sound := by
  rw [Site.step]
  split_ifs with hclosed
  · exact h
  · have hopen : site.closed = false := by simpa using hclosed
    exact
      { net := h.net.step (.produce ring action)
        settled := h.settled.produce h.net ring action
        memory_eq := by rw [hopen, if_neg Bool.false_ne_true]
        merger_eq := fun session hsession hphase =>
          (merger_produce _ _ _).trans (h.merger_eq session hsession hphase)
        closed_idle := fun hclosed' => absurd hclosed' hclosed }

/-! ### Chances -/

/-- What comes of the chance that a session gets while the agent sleeps. -/
theorem step_sleep_of_session {session : Session} (hsession : site.agent.session = some session)
    (chance : Chance) :
    site.step (.sleep (some chance)) =
      let after := (site.shift session).chanced chance
      { site with
        agent := { after.agent with session := some after.session }
        net := after.net
        events := site.events ++ (site.shift session).seen chance } := by
  simp only [Site.step, Agent.sleepChecked_of_session hsession, polls, hsession]
  rfl

/-- Without a chance or a session, nothing happens. -/
theorem step_sleep_cases (site : Site) (chance? : Option Chance) :
    site.step (.sleep chance?) = site ∨
      ∃ chance session, chance? = some chance ∧ site.agent.session = some session := by
  cases chance? with
  | none => exact .inl rfl
  | some chance =>
    cases hsession : site.agent.session with
    | some session => exact .inr ⟨chance, session, rfl, rfl⟩
    | none =>
      refine .inl ?_
      simp only [Site.step, Agent.sleepChecked_of_none_session hsession, polls, hsession,
        List.append_nil]
      rfl

/-- Whatever comes of a chance, the agent has the rings of a network that was polled as often, and
reads them unless its session has failed. -/
theorem Sound.chanced (h : site.Sound) {session : Session}
    (hsession : site.agent.session = some session) (chance : Chance) :
    ((site.shift session).chanced chance).Kept ∧
      (((site.shift session).chanced chance).session.phase ≠ .failed →
        ((site.shift session).chanced chance).Tied) := by
  by_cases hfailed : session.phase = .failed
  · have hidle : ¬ (site.shift session).GoesOn chance := by
      rw [Shift.goesOn_iff]
      simp [shift, hfailed]
    have hentered : ((site.shift session).entered chance).session.phase = .failed := by
      simp [shift, Shift.entered, Session.enter, hfailed, Phase.entered]
    rw [(Shift.chanced_of_not_goesOn hidle).1]
    exact ⟨⟨h.net, h.settled, h.memory_of_open (h.open_of_session hsession)⟩,
      fun hphase => absurd hentered hphase⟩
  · have htied := h.tied hsession hfailed
    exact ⟨htied.kept_chanced chance, htied.chanced⟩

/-- A sleep leaves the agent with its rings. -/
theorem Sound.sleep (h : site.Sound) (chance? : Option Chance) :
    (site.step (.sleep chance?)).Sound := by
  rcases site.step_sleep_cases chance? with hstep | ⟨chance, session, rfl, hsession⟩
  · rw [hstep]
    exact h
  · obtain ⟨hkept, htied⟩ := h.chanced hsession chance
    rw [step_sleep_of_session hsession]
    simp only [h.open_of_session hsession]
    exact
      { net := hkept.net
        settled := hkept.settled
        memory_eq := hkept.memory_eq
        merger_eq := by
          rintro last hlast hphase
          obtain rfl := Option.some.inj hlast
          exact (htied hphase).merger_eq
        closed_idle := fun hclosed => absurd hclosed Bool.false_ne_true }

/-- When its session has failed, a stop says so, and leaves the rings open. -/
theorem step_stop_of_failed {session : Session} (hsession : site.agent.session = some session)
    {chance : Chance} (exclusive : Bool)
    (hfailed : ((site.cancelled.shift session).chanced chance).session.phase = .failed) :
    (site.agent.stopChecked chance exclusive).2.2 = some .pollTask ∧
      site.step (.stop chance exclusive) =
        let last := (site.cancelled.shift session).chanced chance
        { agent := { last.agent with session := none }
          net := last.net
          events := site.events ++ (site.cancelled.shift session).seen chance
          closed := site.closed } := by
  have hcancelled : site.cancelled.agent.session = some session := hsession
  have hstop : site.agent.stopChecked chance exclusive =
      ({ ((site.cancelled.shift session).chanced chance).agent with session := none },
        (site.cancelled.shift session).seen chance, some .pollTask) :=
    (Agent.stopChecked_of_session hsession chance exclusive).trans (if_pos hfailed)
  refine ⟨by rw [hstop], ?_⟩
  simp only [Site.step, hstop, polls, hcancelled, Option.isNone_some, Bool.and_false,
    Bool.false_and, Bool.or_false]
  rfl

/-- Otherwise it succeeds, and closes the rings unless they are shared. -/
theorem step_stop_of_not_failed {session : Session}
    (hsession : site.agent.session = some session) {chance : Chance} (exclusive : Bool)
    (hphase : ((site.cancelled.shift session).chanced chance).session.phase ≠ .failed) :
    (site.agent.stopChecked chance exclusive).2.2 = none ∧
      site.step (.stop chance exclusive) =
        let last := (site.cancelled.shift session).chanced chance
        { agent := Agent.closeUnlessShared { last.agent with session := none } exclusive
          net := last.net
          events := site.events ++ (site.cancelled.shift session).seen chance
          closed := site.closed || (exclusive && !last.net.memory.isEmpty) } := by
  have hcancelled : site.cancelled.agent.session = some session := hsession
  have hstop : site.agent.stopChecked chance exclusive =
      (Agent.closeUnlessShared
          { ((site.cancelled.shift session).chanced chance).agent with session := none } exclusive,
        (site.cancelled.shift session).seen chance, none) :=
    (Agent.stopChecked_of_session hsession chance exclusive).trans (if_neg hphase)
  refine ⟨by rw [hstop], ?_⟩
  simp only [Site.step, hstop, polls, hcancelled, Option.isNone_none, Bool.and_true]
  rfl

/-- Closing the rings changes nothing but the memory. -/
theorem closeUnlessShared_eq (agent : Agent) (exclusive : Bool) :
    agent.closeUnlessShared exclusive =
      { agent with
        memory := if exclusive then agent.memory.map Ring.Region.close else agent.memory } := by
  unfold Agent.closeUnlessShared Agent.closeAll
  split_ifs <;> rfl

/-- Closing rings once more, or none at all, changes nothing. -/
theorem closed_memory (memory : Memory) (closed exclusive : Bool) :
    (if exclusive then
        (if closed then memory.map Ring.Region.close else memory).map Ring.Region.close
      else if closed then memory.map Ring.Region.close else memory) =
      if closed || (exclusive && !memory.isEmpty) then memory.map Ring.Region.close
      else memory := by
  have htwice : (memory.map Ring.Region.close).map Ring.Region.close =
      memory.map Ring.Region.close := Array.map_map
  cases closed with
  | true => cases exclusive <;> simp [htwice]
  | false =>
    cases exclusive with
    | false => rfl
    | true =>
      by_cases hempty : memory = #[] <;> simp [hempty]

/-- An agent whose session is over leaves a sound site behind, whether it closes its rings or
not. -/
theorem Sound.ended (h : site.Sound) (hsession : site.agent.session = none)
    (exclusive : Bool) (events : List AgentEvent) :
    Sound
      { agent := site.agent.closeUnlessShared exclusive
        net := site.net
        events := events
        closed := site.closed || (exclusive && !site.net.memory.isEmpty) } where
  net := h.net
  settled := h.settled
  memory_eq := by
    rw [closeUnlessShared_eq, h.memory_eq]
    exact closed_memory site.net.memory site.closed exclusive
  merger_eq session hmem := by
    rw [closeUnlessShared_eq, hsession] at hmem
    exact absurd hmem (Option.not_mem_none session)
  closed_idle hclosed := by
    refine ⟨by rw [closeUnlessShared_eq, hsession], ?_⟩
    rcases Bool.or_eq_true_iff.mp hclosed with hbefore | hnow
    · exact (h.closed_idle hbefore).2
    · simpa [Array.size_pos_iff] using (Bool.and_eq_true_iff.mp hnow).2

/-- A stop leaves the agent without a session, and with its rings unless it has closed them. -/
theorem Sound.stop (h : site.Sound) (chance : Chance) (exclusive : Bool) :
    (site.step (.stop chance exclusive)).Sound := by
  cases hsession : site.agent.session with
  | none =>
    have hcancelled : site.cancelled.agent.session = none := hsession
    have hended := h.cancelled.ended hcancelled exclusive (site.events ++ [])
    simp only [Site.step, Agent.stopChecked_of_none_session hsession, polls, hcancelled,
      Option.isNone_none, Bool.and_true]
    exact hended
  | some session =>
    obtain ⟨hkept, -⟩ := h.cancelled.chanced hsession chance
    have hended : Sound
        { agent := { ((site.cancelled.shift session).chanced chance).agent with session := none }
          net := ((site.cancelled.shift session).chanced chance).net } :=
      { net := hkept.net
        settled := hkept.settled
        memory_eq := hkept.memory_eq
        merger_eq := fun session hmem => absurd hmem (Option.not_mem_none session)
        closed_idle := fun hclosed => absurd hclosed Bool.false_ne_true }
    by_cases hfailed : ((site.cancelled.shift session).chanced chance).session.phase = .failed
    · rw [(step_stop_of_failed hsession exclusive hfailed).2, h.open_of_session hsession]
      exact ⟨hended.net, hended.settled, hended.memory_eq, hended.merger_eq, hended.closed_idle⟩
    · rw [(step_stop_of_not_failed hsession exclusive hfailed).2, h.open_of_session hsession]
      exact hended.ended rfl exclusive _

/-- Whatever is done, the agent has the rings of its network. -/
theorem Sound.step (h : site.Sound) (command : Command) : (site.step command).Sound := by
  cases command with
  | onSlot name => exact h.onSlot name
  | start => exact h.start
  | stop chance exclusive => exact h.stop chance exclusive
  | sleep chance? => exact h.sleep chance?
  | produce ring action => exact h.produce ring action

/-! ## What commands leave as it is -/

/-- No command changes the settings, and a stop cancels the agent for good. -/
theorem settings_step (site : Site) (command : Command) :
    (site.step command).agent.settings = site.agent.settings ∧
      (site.step command).agent.cancelled = (site.agent.cancelled || command.isStop) := by
  cases command with
  | onSlot name => exact ⟨rfl, (Bool.or_false _).symm⟩
  | start =>
    simp only [Site.step, Command.isStop, Bool.or_false]
    cases hstart : site.agent.start with
    | error fault => exact ⟨rfl, rfl⟩
    | ok started =>
      obtain ⟨-, shape, readers, -, -, -, rfl⟩ := Agent.start_eq_ok hstart
      exact ⟨rfl, rfl⟩
  | stop chance exclusive =>
    simp only [Command.isStop, Bool.or_true]
    cases hsession : site.agent.session with
    | none =>
      simp only [Site.step, Agent.stopChecked_of_none_session hsession, closeUnlessShared_eq,
        and_self]
    | some session =>
      have hframe := site.cancelled.agent.frame_outcome session chance
      have hsettings : ((site.cancelled.shift session).chanced chance).agent.settings =
        site.agent.settings := hframe.settings_eq
      have hcancelled : ((site.cancelled.shift session).chanced chance).agent.cancelled = true :=
        hframe.cancelled_eq
      by_cases hfailed : ((site.cancelled.shift session).chanced chance).session.phase = .failed
      · rw [(step_stop_of_failed hsession exclusive hfailed).2]
        exact ⟨hsettings, hcancelled⟩
      · rw [(step_stop_of_not_failed hsession exclusive hfailed).2]
        simp only [closeUnlessShared_eq]
        exact ⟨hsettings, hcancelled⟩
  | sleep chance? =>
    simp only [Command.isStop, Bool.or_false]
    rcases site.step_sleep_cases chance? with hstep | ⟨chance, session, rfl, hsession⟩
    · rw [hstep]
      exact ⟨rfl, rfl⟩
    · have hframe := site.agent.frame_outcome session chance
      rw [step_sleep_of_session hsession]
      exact ⟨hframe.settings_eq, hframe.cancelled_eq⟩
  | produce ring action =>
    simp only [Site.step, Command.isStop, Bool.or_false]
    split_ifs <;> exact ⟨rfl, rfl⟩

/-- No command adds or removes a ring. -/
theorem Sound.size_step (h : site.Sound) (command : Command) :
    (site.step command).net.merger.readers.size = site.net.merger.readers.size := by
  cases command with
  | onSlot name => rfl
  | start =>
    rw [Site.step]
    cases hstart : site.agent.start with
    | error fault => rfl
    | ok started =>
      obtain ⟨-, shape, readers, -, -, hbound, rfl⟩ := Agent.start_eq_ok hstart
      exact (h.bound_of_start hbound).2.size_eq.trans h.net.shaped.memory_size
  | stop chance exclusive => exact h.net.size_iterate_served _
  | sleep chance? =>
    cases chance? with
    | none => rfl
    | some chance => exact h.net.size_iterate_served _
  | produce ring action =>
    rw [Site.step]
    split_ifs
    · rfl
    · exact congrArg (fun merger => merger.readers.size) (merger_produce _ _ _)

/-! ## Any commands -/

/-- An agent over unused rings reads those of its network. -/
theorem sound_idle (settings : Settings) {lanes : List Lane}
    (hunused : ∀ lane ∈ lanes, lane.actions = []) : (idle settings lanes).Sound where
  net := Network.sound_empty.run _
  settled := (Network.settled_empty.run_addRing Network.sound_empty rfl hunused).1
  memory_eq := rfl
  merger_eq session hmem := absurd hmem (Option.not_mem_none session)
  closed_idle hclosed := absurd hclosed Bool.false_ne_true

/-- An agent has one ring for each lane. -/
theorem size_idle (settings : Settings) {lanes : List Lane}
    (hunused : ∀ lane ∈ lanes, lane.actions = []) :
    (idle settings lanes).net.merger.readers.size = lanes.length :=
  (Network.settled_empty.run_addRing Network.sound_empty rfl hunused).2.trans (Nat.zero_add _)

/-- Whatever is done to an agent, it reads the rings of its network, under its settings. -/
theorem Sound.run (h : site.Sound) (commands : List Command) :
    (site.run commands).Sound ∧ (site.run commands).agent.settings = site.agent.settings ∧
      (site.run commands).net.merger.readers.size = site.net.merger.readers.size := by
  induction commands generalizing site with
  | nil => exact ⟨h, rfl, rfl⟩
  | cons command rest ih =>
    rcases ih (h.step command) with ⟨hsound, hsettings, hsize⟩
    exact ⟨hsound, hsettings.trans (site.settings_step command).1,
      hsize.trans (h.size_step command)⟩

/-- An agent is cancelled once it was stopped. -/
theorem cancelled_run (site : Site) (commands : List Command) :
    (site.run commands).agent.cancelled =
      (site.agent.cancelled || commands.any Command.isStop) := by
  induction commands generalizing site with
  | nil => exact (Bool.or_false _).symm
  | cons command rest ih =>
    rw [List.any_cons, ← Bool.or_assoc, ← (site.settings_step command).2]
    exact ih (site.step command)

end Site

end CacheMeter
