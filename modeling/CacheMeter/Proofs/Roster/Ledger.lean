import Mathlib
import CacheMeter.Proofs.Roster.Queue

/-!
# The roster as news applied in time order

What a roster is told it tells later, in the order of time.  A ledger keeps the news that wait
in the order of their arrival, and those in effect in the order in which they took effect; to
move on, it sorts what is now past.  The roster agrees with it whatever it is told and however
often it moves on, as long as all timestamps lie in one half of the circle.  News that arrive
late, after the roster has moved past them, take effect with the next move.

Main results:

- Definition `Ledger.step`: news wait, and take effect in time order.
- Theorem `Describes.snoc`: what the last news about an identifier does to its label.
- Theorem `Agrees.call`: a roster and its ledger stay in agreement.
- Theorem `timely_after`: what a roster knows and does after any calls.
-/

namespace CacheMeter.Roster

open Timeline

/-! ## News -/

/-- What a roster is told about an identifier. -/
inductive News
  | alloc (update : RmidAlloc)
  | free (update : RmidFree)
deriving DecidableEq, Repr

namespace News

/-- When the news is dated. -/
def timestamp : News → UInt64
  | .alloc update => update.timestamp
  | .free update => update.timestamp

/-- The queued form of the news. -/
def pending : News → Pending
  | .alloc update =>
    { timestamp := update.timestamp
      update := .bind update.rmid
        { command := update.command.text
          processGroup := update.processGroup
          valid := true } }
  | .free update => { timestamp := update.timestamp, update := .release update.rmid }

/-- In the queue news keeps its date. -/
@[simp]
theorem timestamp_pending (news : News) : news.pending.timestamp = news.timestamp := by
  cases news <;> rfl

end News

/-! ## Calls -/

/-- A roster is told news, moves on or is reset. -/
inductive Call
  | hear (news : News)
  | advance (timestamp : UInt64)
  | reset
deriving DecidableEq, Repr

/-- The timestamp that a call brings along. -/
def Call.timestamp? : Call → Option UInt64
  | .hear news => some news.timestamp
  | .advance timestamp => some timestamp
  | .reset => none

/-- Hear of something: it waits in the queue. -/
def hear (roster : Roster) : News → Roster
  | .alloc update => roster.alloc update
  | .free update => roster.free update

/-- One call. -/
def call (roster : Roster) : Call → Roster
  | .hear news => roster.hear news
  | .advance timestamp => (roster.advance timestamp).2
  | .reset => roster.reset

/-- The roster after calls, one after the other. -/
def after (roster : Roster) (calls : List Call) : Roster :=
  calls.foldl call roster

/-- What is heard goes to the queue and nowhere else. -/
theorem hear_eq (roster : Roster) (news : News) :
    roster.hear news = { roster with queue := enqueue news.pending roster.queue } := by
  cases news <;> rfl

/-! ## Ledgers -/

/-- The news that wait, in the order of arrival, and those that took effect since the last
reset, in the order in which they did. -/
structure Ledger where
  waiting : List News := []
  applied : List News := []

/-- News in the order of time, as seen from the base; those of the same time stay in order. -/
def timely (base : UInt64) (news : List News) : List News :=
  news.mergeSort fun a b => offset base a.timestamp ≤ offset base b.timestamp

/-- Whether news lie before a timestamp, as seen from the base. -/
def News.isBefore (base timestamp : UInt64) (news : News) : Bool :=
  offset base news.timestamp < offset base timestamp

namespace Ledger

def step (base : UInt64) (ledger : Ledger) : Call → Ledger
  | .hear news => { ledger with waiting := ledger.waiting ++ [news] }
  | .advance timestamp =>
    { waiting := ledger.waiting.filter fun news => !news.isBefore base timestamp
      applied := ledger.applied ++
        timely base (ledger.waiting.filter (News.isBefore base timestamp)) }
  | .reset => {}

/-- The ledger after calls, one after the other. -/
def run (base : UInt64) (ledger : Ledger) (calls : List Call) : Ledger :=
  calls.foldl (step base) ledger

end Ledger

/-! ## News in time order -/

section Order

variable {base : UInt64} {news : List News}

/-- News in order of time is the same news. -/
theorem perm_timely (base : UInt64) (news : List News) : (timely base news).Perm news :=
  List.mergeSort_perm ..

/-- It is in order, seen from the base. -/
theorem pairwise_timely (base : UInt64) (news : List News) :
    (timely base news).Pairwise fun a b =>
      offset base a.timestamp ≤ offset base b.timestamp := by
  refine (List.pairwise_mergeSort (fun a b c hab hbc => ?_) (fun a b => ?_) news).imp fun h =>
    of_decide_eq_true h
  · simp only [decide_eq_true_eq] at hab hbc ⊢
    exact hab.trans hbc
  · simpa using le_total _ _

/-- A queue made of it is in order too. -/
theorem inTimeOrder_timely (base : UInt64) (news : List News) :
    InTimeOrder base ((timely base news).map News.pending) :=
  List.pairwise_map.mpr <| (pairwise_timely base news).imp fun h => by simpa using h

/-- News of the same time stay in order. -/
theorem filter_timely (base : UInt64) (news : List News) (timestamp : UInt64) :
    (timely base news).filter (fun news => news.timestamp = timestamp) =
      news.filter fun news => news.timestamp = timestamp := by
  have hequal : (news.filter fun news => news.timestamp = timestamp).Pairwise fun a b =>
      decide (offset base a.timestamp ≤ offset base b.timestamp) = true := by
    rw [List.pairwise_filter]
    refine List.pairwise_of_forall fun a b ha hb => ?_
    simp only [decide_eq_true_eq] at ha hb ⊢
    rw [ha, hb]
  have hsub : (news.filter fun news => news.timestamp = timestamp).Sublist (timely base news) := by
    refine List.sublist_mergeSort (fun a b c hab hbc => ?_) (fun a b => ?_) hequal
      List.filter_sublist
    · simp only [decide_eq_true_eq] at hab hbc ⊢
      exact hab.trans hbc
    · simpa using le_total _ _
  have hfilter := hsub.filter fun news => news.timestamp = timestamp
  rw [List.filter_filter] at hfilter
  simp only [Bool.and_self] at hfilter
  exact (hfilter.eq_of_length ((perm_timely base news).filter _).length_eq.symm).symm

/-- In the queue the news of one date stays together. -/
theorem filter_pending (news : List News) (timestamp : UInt64) :
    (news.map News.pending).filter (fun item => item.timestamp = timestamp) =
      (news.filter fun news => news.timestamp = timestamp).map News.pending := by
  rw [List.filter_map]
  congr 2
  funext news
  simp

/-- A queue in time order that holds the news, those of the same time in order, is the news
in time order. -/
theorem InTimeOrder.eq_timely {queue : List Pending} (h : InTimeOrder base queue)
    (hsame : ∀ timestamp, queue.filter (fun item => item.timestamp = timestamp) =
      (news.filter fun news => news.timestamp = timestamp).map News.pending) :
    queue = (timely base news).map News.pending := by
  refine eq_of_inTimeOrder h (inTimeOrder_timely base news) fun timestamp => ?_
  rw [hsame, filter_pending, filter_timely]

end Order

/-! ## Labels -/

/-- What is known of an identifier once news took effect one after the other: the last
binding names the process, and it is valid as long as no release came after it. -/
def Describes (applied : List News) (rmid : UInt32) : Option Label → Prop
  | none => ∀ update : RmidAlloc, News.alloc update ∈ applied → update.rmid ≠ rmid
  | some label => ∃ earlier update later,
    applied = earlier ++ News.alloc update :: later ∧ update.rmid = rmid ∧
      (∀ other : RmidAlloc, News.alloc other ∈ later → other.rmid ≠ rmid) ∧
      label.command = update.command.text ∧ label.processGroup = update.processGroup ∧
      (label.valid = true ↔ ∀ release : RmidFree, News.free release ∈ later → release.rmid ≠ rmid)

variable {applied : List News} {labels : Table Label} {rmid : UInt32}

/-- News about other identifiers do not matter. -/
theorem Describes.snoc_other {label? : Option Label} (h : Describes applied rmid label?)
    {news : News} (halloc : ∀ update, news = .alloc update → update.rmid ≠ rmid)
    (hfree : ∀ release, news = .free release → release.rmid ≠ rmid) :
    Describes (applied ++ [news]) rmid label? := by
  cases label? with
  | none =>
    intro update hmem
    rcases List.mem_append.mp hmem with hmem | hmem
    · exact h update hmem
    · exact halloc update (List.mem_singleton.mp hmem).symm
  | some label =>
    obtain ⟨earlier, update, later, rfl, hrmid, hlast, hcommand, hgroup, hvalid⟩ := h
    refine ⟨earlier, update, later ++ [news], by simp, hrmid, ?_, hcommand, hgroup, ?_⟩
    · intro other hmem
      rcases List.mem_append.mp hmem with hmem | hmem
      · exact hlast other hmem
      · exact halloc other (List.mem_singleton.mp hmem).symm
    · rw [hvalid]
      constructor
      · intro hnone release hmem
        rcases List.mem_append.mp hmem with hmem | hmem
        · exact hnone release hmem
        · exact hfree release (List.mem_singleton.mp hmem).symm
      · intro hnone release hmem
        exact hnone release (List.mem_append_left _ hmem)

/-- A binding replaces what was known, and a release ends its validity. -/
theorem Describes.snoc (h : Describes applied rmid (labels.get? rmid)) (news : News) :
    Describes (applied ++ [news]) rmid ((news.pending.update.apply labels).get? rmid) := by
  cases news with
  | alloc update =>
    simp only [News.pending, Update.apply, Table.get?_put]
    by_cases hrmid : update.rmid = rmid
    · rw [if_pos hrmid]
      exact ⟨applied, update, [], rfl, hrmid, by simp, rfl, rfl, by simp⟩
    · rw [if_neg hrmid]
      exact h.snoc_other (fun other hother => by simpa [← News.alloc.inj hother] using hrmid)
        (by simp)
  | free release =>
    simp only [News.pending, Update.apply]
    by_cases hrmid : release.rmid = rmid
    · subst hrmid
      cases hlabel : labels.get? release.rmid with
      | none =>
        rw [hlabel] at h
        dsimp only
        rw [hlabel]
        intro update hmem
        exact h update (by simpa using hmem)
      | some label =>
        rw [hlabel] at h
        obtain ⟨earlier, update, later, rfl, hsame, hlast, hcommand, hgroup, -⟩ := h
        dsimp only
        rw [Table.get?_put, if_pos rfl]
        refine ⟨earlier, update, later ++ [.free release], by simp, hsame, ?_, hcommand, hgroup, ?_⟩
        · intro other hmem
          exact hlast other (by simpa using hmem)
        · simp only [Bool.false_eq_true, false_iff, not_forall]
          exact ⟨release, by simp, by simp⟩
    · have hsame : ∀ table : Table Label, table.get? rmid = labels.get? rmid →
          Describes (applied ++ [.free release]) rmid (table.get? rmid) := by
        intro table htable
        rw [htable]
        exact h.snoc_other (by simp) fun other hother => by
          simpa [← News.free.inj hother] using hrmid
      cases hlabel : labels.get? release.rmid with
      | none => exact hsame labels rfl
      | some label =>
        apply hsame
        rw [Table.get?_put, if_neg hrmid]

/-- A label that describes what was applied does so after more is applied. -/
theorem Describes.append (h : Describes applied rmid (labels.get? rmid)) (news : List News) :
    Describes (applied ++ news) rmid
      (((news.map News.pending).foldl (fun labels item => item.update.apply labels)
        labels).get? rmid) := by
  induction news generalizing applied labels with
  | nil => simpa using h
  | cons first rest ih =>
    rw [List.append_cons, List.map_cons, List.foldl_cons]
    exact ih (h.snoc first)

/-! ## Agreement -/

/-- The roster holds the waiting news in time order, and knows what those in effect say. -/
structure Agrees (base : UInt64) (roster : Roster) (ledger : Ledger) : Prop where
  queue_eq : roster.queue = (timely base ledger.waiting).map News.pending
  describes : ∀ rmid, Describes ledger.applied rmid (roster.get? rmid)
  half : ∀ news ∈ ledger.waiting, offset base news.timestamp < halfTurn

section Agreement

variable {base : UInt64} {roster : Roster} {ledger : Ledger}

/-- The empty roster has heard nothing. -/
theorem agrees_empty (base : UInt64) : Agrees base Roster.empty {} where
  queue_eq := by simp [timely, Roster.empty]
  describes rmid := by
    intro update hmem
    exact absurd hmem List.not_mem_nil
  half := by simp

namespace Agrees

/-- The queue is in order of time. -/
theorem inTimeOrder (h : Agrees base roster ledger) : InTimeOrder base roster.queue := by
  rw [h.queue_eq]
  exact inTimeOrder_timely base ledger.waiting

/-- Of one date, the queue holds what waits, in the order in which it was heard. -/
theorem filter_queue (h : Agrees base roster ledger) (timestamp : UInt64) :
    roster.queue.filter (fun item => item.timestamp = timestamp) =
      (ledger.waiting.filter fun news => news.timestamp = timestamp).map News.pending := by
  rw [h.queue_eq, filter_pending, filter_timely]

/-- What waits lies within half a turn of the base. -/
theorem half_queue (h : Agrees base roster ledger) :
    ∀ item ∈ roster.queue, offset base item.timestamp < halfTurn := by
  intro item hmem
  rw [h.queue_eq] at hmem
  obtain ⟨news, hnews, rfl⟩ := List.mem_map.mp hmem
  rw [News.timestamp_pending]
  exact h.half news ((perm_timely base _).mem_iff.mp hnews)

/-- A roster agrees with its ledger after it hears something. -/
theorem hear (h : Agrees base roster ledger) {news : News}
    (hnews : offset base news.timestamp < halfTurn) :
    Agrees base (roster.hear news) (ledger.step base (.hear news)) where
  queue_eq := by
    rw [hear_eq]
    have hitem : offset base news.pending.timestamp < halfTurn := by
      rwa [News.timestamp_pending]
    have horder := h.inTimeOrder.enqueue h.half_queue hitem
    refine horder.eq_timely fun timestamp => ?_
    rw [filter_enqueue, h.filter_queue, ← List.map_singleton, filter_pending, ← List.map_append,
      ← List.filter_append]
    rfl
  describes rmid := by
    rw [hear_eq]
    exact h.describes rmid
  half := by
    intro other hmem
    rcases List.mem_append.mp hmem with hmem | hmem
    · exact h.half other hmem
    · rwa [List.mem_singleton.mp hmem]

/-- The updates that are due are the waiting news before the timestamp, in time order. -/
theorem filter_before (h : Agrees base roster ledger) (p : News → Bool) (p' : Pending → Bool)
    (hsame : ∀ news : News, p' news.pending = p news) :
    roster.queue.filter p' = (timely base (ledger.waiting.filter p)).map News.pending := by
  refine (h.inTimeOrder.filter p').eq_timely fun timestamp => ?_
  have hcomm : ∀ (news : List News),
      (news.map News.pending).filter p' = (news.filter p).map News.pending := by
    intro news
    rw [List.filter_map]
    congr 2
    funext first
    exact hsame first
  rw [List.filter_comm, h.filter_queue, hcomm, List.filter_comm]

/-- It does after it advances. -/
theorem advance (h : Agrees base roster ledger) {timestamp : UInt64}
    (htime : offset base timestamp < halfTurn) :
    Agrees base (roster.advance timestamp).2 (ledger.step base (.advance timestamp)) := by
  obtain ⟨htake, hdrop⟩ := h.inTimeOrder.due_eq h.half_queue htime
  have hbefore : ∀ news : News,
      news.pending.isBefore base timestamp = news.isBefore base timestamp := by
    intro news
    simp [Pending.isBefore, News.isBefore]
  exact
    { queue_eq := by
        rw [Roster.advance, hdrop]
        exact h.filter_before _ _ fun news => by rw [hbefore]
      describes := by
        intro rmid
        rw [Roster.advance, due, htake, h.filter_before _ _ hbefore]
        exact (h.describes rmid).append _
      half := fun news hmem => h.half news (List.mem_of_mem_filter hmem) }

/-- It does after any call. -/
theorem call (h : Agrees base roster ledger) {c : Call}
    (hhalf : ∀ timestamp ∈ c.timestamp?, offset base timestamp < halfTurn) :
    Agrees base (roster.call c) (ledger.step base c) := by
  cases c with
  | hear news => exact h.hear (hhalf _ rfl)
  | advance timestamp => exact h.advance (hhalf _ rfl)
  | reset => exact agrees_empty base

/-- It does after any calls. -/
theorem after (h : Agrees base roster ledger) {calls : List Call}
    (hhalf : ∀ c ∈ calls, ∀ timestamp ∈ c.timestamp?, offset base timestamp < halfTurn) :
    Agrees base (roster.after calls) (ledger.run base calls) := by
  induction calls generalizing roster ledger with
  | nil => exact h
  | cons c rest ih =>
    exact ih (h.call (hhalf c List.mem_cons_self))
      fun other hmem => hhalf other (List.mem_cons_of_mem _ hmem)

end Agrees

end Agreement

/-! ## Any calls -/

/-- The roster after news, one after the other. -/
def hearAll (roster : Roster) (news : List News) : Roster :=
  news.foldl hear roster

/-- What is known of a roster whose ledger is given, at any moment. -/
structure Timely (base : UInt64) (roster : Roster) (ledger : Ledger) : Prop where
  /-- The queue holds the waiting news in the order of time, … -/
  queue_eq : roster.queue = (timely base ledger.waiting).map News.pending
  inTimeOrder : InTimeOrder base roster.queue
  /-- … those of the same time in the order of arrival. -/
  filter_queue : ∀ timestamp, roster.queue.filter (fun item => item.timestamp = timestamp) =
    (ledger.waiting.filter fun news => news.timestamp = timestamp).map News.pending
  /-- What is known of an identifier is what the news in effect say. -/
  describes : ∀ rmid, Describes ledger.applied rmid (roster.get? rmid)
  /-- Moving on applies exactly the updates before the timestamp, in order, counts them, and
  leaves the others. -/
  advance_eq : ∀ timestamp, offset base timestamp < 2 ^ 63 →
    let before := roster.queue.filter (Pending.isBefore base timestamp)
    roster.advance timestamp =
      (before.length,
        { labels := before.foldl (fun labels item => item.update.apply labels) roster.labels
          queue := roster.queue.filter fun item => !item.isBefore base timestamp })
  /-- Moving on in two steps is moving on in one. -/
  advance_advance : ∀ first second, offset base first ≤ offset base second →
    offset base second < 2 ^ 63 →
      ((roster.advance first).2.advance second).2 = (roster.advance second).2
  /-- In which order news arrive matters only among those of the same time. -/
  hearAll_eq : ∀ news others : List News,
    (∀ first ∈ news, offset base first.timestamp < 2 ^ 63) →
      (∀ timestamp, news.filter (fun first => first.timestamp = timestamp) =
        others.filter fun first => first.timestamp = timestamp) →
      roster.hearAll news = roster.hearAll others

section Calls

variable {base : UInt64} {roster : Roster} {ledger : Ledger}

namespace Agrees

/-- An advance applies what is dated before, in order, and leaves the rest. -/
theorem advance_eq (h : Agrees base roster ledger) {timestamp : UInt64}
    (htime : offset base timestamp < halfTurn) :
    roster.advance timestamp =
      ((roster.queue.filter (Pending.isBefore base timestamp)).length,
        { labels := (roster.queue.filter (Pending.isBefore base timestamp)).foldl
            (fun labels item => item.update.apply labels) roster.labels
          queue := roster.queue.filter fun item => !item.isBefore base timestamp }) := by
  obtain ⟨htake, hdrop⟩ := h.inTimeOrder.due_eq h.half_queue htime
  rw [Roster.advance, due, htake, hdrop]

/-- To advance in two steps is to advance at once. -/
theorem advance_advance (h : Agrees base roster ledger) {first second : UInt64}
    (hle : offset base first ≤ offset base second) (hsecond : offset base second < halfTurn) :
    ((roster.advance first).2.advance second).2 = (roster.advance second).2 := by
  have hthrough : ∀ item ∈ roster.queue, item.isDue first = true → item.isDue second = true := by
    intro item hmem hdue
    have hitem := h.half_queue item hmem
    rw [isDue_eq_isBefore hitem (hle.trans_lt hsecond)] at hdue
    rw [isDue_eq_isBefore hitem hsecond]
    simp only [Pending.isBefore, decide_eq_true_eq] at hdue ⊢
    exact hdue.trans_le hle
  obtain ⟨htake, hdrop⟩ := takeWhile_through hthrough
  simp only [Roster.advance, due]
  rw [htake, hdrop, List.foldl_append]

/-- To hear several news one after the other is to let all of them wait. -/
theorem hearAll (h : Agrees base roster ledger) {news : List News}
    (hnews : ∀ first ∈ news, offset base first.timestamp < halfTurn) :
    Agrees base (roster.hearAll news)
      { ledger with waiting := ledger.waiting ++ news } := by
  induction news generalizing roster ledger with
  | nil => simpa [Roster.hearAll] using h
  | cons first rest ih =>
    have hrest := ih (h.hear (hnews first List.mem_cons_self))
      fun other hmem => hnews other (List.mem_cons_of_mem _ hmem)
    simpa [Ledger.step, Roster.hearAll] using hrest

/-- Until the roster advances, nothing is applied. -/
theorem labels_hearAll (roster : Roster) (news : List News) :
    (roster.hearAll news).labels = roster.labels := by
  induction news generalizing roster with
  | nil => rfl
  | cons first rest ih => exact (ih (roster.hear first)).trans (by rw [hear_eq])

/-- News of different dates may be heard in any order. -/
theorem hearAll_eq (h : Agrees base roster ledger) {news others : List News}
    (hnews : ∀ first ∈ news, offset base first.timestamp < halfTurn)
    (hsame : ∀ timestamp, news.filter (fun first => first.timestamp = timestamp) =
      others.filter fun first => first.timestamp = timestamp) :
    roster.hearAll news = roster.hearAll others := by
  have hothers : ∀ first ∈ others, offset base first.timestamp < halfTurn := by
    intro first hmem
    have hin : first ∈ others.filter fun other => other.timestamp = first.timestamp := by
      simpa using hmem
    rw [← hsame] at hin
    exact hnews first (List.mem_filter.mp hin).1
  have hqueue : (roster.hearAll news).queue = (roster.hearAll others).queue := by
    refine eq_of_inTimeOrder (h.hearAll hnews).inTimeOrder (h.hearAll hothers).inTimeOrder
      fun timestamp => ?_
    rw [(h.hearAll hnews).filter_queue, (h.hearAll hothers).filter_queue, List.filter_append,
      List.filter_append, hsame]
  have hlabels : (roster.hearAll news).labels = (roster.hearAll others).labels := by
    rw [labels_hearAll, labels_hearAll]
  cases hfirst : roster.hearAll news
  cases hsecond : roster.hearAll others
  simp_all

/-- A roster that agrees with its ledger keeps to the order of time. -/
theorem timely (h : Agrees base roster ledger) : Timely base roster ledger where
  queue_eq := h.queue_eq
  inTimeOrder := h.inTimeOrder
  filter_queue := h.filter_queue
  describes := h.describes
  advance_eq _ htime := h.advance_eq htime
  advance_advance _ _ hle hsecond := h.advance_advance hle hsecond
  hearAll_eq _ _ hnews hsame := h.hearAll_eq hnews hsame

end Agrees

end Calls

/-- As long as all timestamps lie in one half of the circle, a roster applies what it was told
in the order of time, whatever the order in which it was told and however often it moved on in
between. -/
theorem timely_after (base : UInt64) (calls : List Call)
    (hhalf : ∀ c ∈ calls, ∀ timestamp ∈ c.timestamp?, (timestamp - base).toNat < 2 ^ 63) :
    Timely base (Roster.empty.after calls) (Ledger.run base {} calls) :=
  ((agrees_empty base).after hhalf).timely

/-- Two processes hold an identifier one after the other, and the news come in late, out of
order and round the end of the timeline. -/
def gossip : List Call :=
  [.hear (.free { timestamp := 5, rmid := 7 }),
    .hear (.alloc
      { timestamp := 18446744073709551610, rmid := 7, command := CommandName.ofBytes [97],
        processGroup := 1 }),
    .hear (.alloc
      { timestamp := 5, rmid := 7, command := CommandName.ofBytes [98], processGroup := 2 }),
    .advance 18446744073709551612,
    .hear (.free { timestamp := 18446744073709551611, rmid := 7 }),
    .advance 5,
    .advance 6]

/-- News heard out of order is applied in order. -/
theorem timely_after_gossip :
    (∀ c ∈ gossip, ∀ timestamp ∈ c.timestamp?,
        (timestamp - 18446744073709551600).toNat < 2 ^ 63) ∧
      Timely 18446744073709551600 (Roster.empty.after gossip)
        (Ledger.run 18446744073709551600 {} gossip) := by
  have hhalf : ∀ c ∈ gossip, ∀ timestamp ∈ c.timestamp?,
      (timestamp - 18446744073709551600).toNat < 2 ^ 63 := by
    simp [gossip, Call.timestamp?, News.timestamp]
  exact ⟨hhalf, timely_after _ _ hhalf⟩

end CacheMeter.Roster
