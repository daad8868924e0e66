import Mathlib
import CacheMeter.Roster
import CacheMeter.Proofs.Timeline.Offsets

/-!
# The queue of updates

Comparing by the short way round is no order on the whole circle, so the queue is sorted only
while all timestamps lie in one half of it; which half does not matter.  Then an update goes
behind all that are not later, and those that are due stand in front of those that are not.
Updates with equal timestamps keep the order of their arrival in any case.

Main results:

- Theorem `eq_of_inTimeOrder`: a queue in time order is fixed by the order of the updates
  within each timestamp.
- Theorem `InTimeOrder.enqueue`: queueing keeps time order.
- Theorem `filter_enqueue`: an update comes last among those with its timestamp.
- Theorem `InTimeOrder.due_eq`: exactly the updates before a timestamp are due.
-/

namespace CacheMeter.Roster

open Timeline

/-! ## Lists by their front -/

section Fronts

variable {α : Type} {p q : α → Bool} {l : List α}

/-- In a list whose elements with a property stand in front, they are its front. -/
theorem takeWhile_eq_filter (h : l.Pairwise fun a b => p b = true → p a = true) :
    l.takeWhile p = l.filter p ∧ l.dropWhile p = l.filter fun a => !p a := by
  induction l with
  | nil => exact ⟨rfl, rfl⟩
  | cons a l ih =>
    obtain ⟨hfront, hrest⟩ := List.pairwise_cons.mp h
    cases hp : p a with
    | true =>
      obtain ⟨htake, hdrop⟩ := ih hrest
      simp [hp, htake, hdrop]
    | false =>
      have hnone : ∀ b ∈ l, p b = false := by
        intro b hmem
        by_contra hb
        rw [hfront b hmem (by simpa using hb)] at hp
        exact Bool.noConfusion hp
      have hnil : l.filter p = [] := List.filter_eq_nil_iff.mpr fun b hmem => by simp [hnone b hmem]
      have hself : (l.filter fun a => !p a) = l :=
        List.filter_eq_self.mpr fun b hmem => by simp [hnone b hmem]
      simp [hp, hnil, hself]

/-- Taking the front by a weaker property goes through that by a stronger one. -/
theorem takeWhile_through (h : ∀ a ∈ l, p a = true → q a = true) :
    l.takeWhile q = l.takeWhile p ++ (l.dropWhile p).takeWhile q ∧
      l.dropWhile q = (l.dropWhile p).dropWhile q := by
  induction l with
  | nil => exact ⟨rfl, rfl⟩
  | cons a l ih =>
    cases hp : p a with
    | true =>
      have hq := h a List.mem_cons_self hp
      obtain ⟨htake, hdrop⟩ := ih fun b hmem => h b (List.mem_cons_of_mem _ hmem)
      simp [hp, hq, htake, hdrop]
    | false => simp [hp]

end Fronts

/-! ## Time order -/

/-- Seen from the base, no update stands before an earlier one. -/
def InTimeOrder (base : UInt64) (queue : List Pending) : Prop :=
  queue.Pairwise fun a b => offset base a.timestamp ≤ offset base b.timestamp

variable {base : UInt64} {queue others : List Pending} {item : Pending}

/-- A queue in time order is fixed by the order of the updates within each timestamp. -/
theorem eq_of_inTimeOrder (h : InTimeOrder base queue) (h' : InTimeOrder base others)
    (hsame : ∀ timestamp, queue.filter (fun item => item.timestamp = timestamp) =
      others.filter fun item => item.timestamp = timestamp) : queue = others := by
  induction queue generalizing others with
  | nil =>
    cases others with
    | nil => rfl
    | cons other rest => simpa using hsame other.timestamp
  | cons first queue ih =>
    cases others with
    | nil => simpa using hsame first.timestamp
    | cons other rest =>
      obtain ⟨hfirst, hqueue⟩ := List.pairwise_cons.mp h
      obtain ⟨hother, hrest⟩ := List.pairwise_cons.mp h'
      have hmem : other ∈ first :: queue := by
        have hin : other ∈ (other :: rest).filter fun item => item.timestamp = other.timestamp :=
          by simp
        rw [← hsame] at hin
        exact (List.mem_filter.mp hin).1
      have hmem' : first ∈ other :: rest := by
        have hin : first ∈ (first :: queue).filter fun item => item.timestamp = first.timestamp :=
          by simp
        rw [hsame] at hin
        exact (List.mem_filter.mp hin).1
      -- Both stand in front of a queue in time order, so neither is later than the other.
      have hle : offset base first.timestamp ≤ offset base other.timestamp := by
        rcases List.mem_cons.mp hmem with rfl | hmem
        · exact le_rfl
        · exact hfirst other hmem
      have hge : offset base other.timestamp ≤ offset base first.timestamp := by
        rcases List.mem_cons.mp hmem' with rfl | hmem'
        · exact le_rfl
        · exact hother first hmem'
      have htime := offset_injective base (le_antisymm hle hge)
      have hhead := hsame first.timestamp
      rw [List.filter_cons_of_pos (by simp), List.filter_cons_of_pos (by simp [htime]),
        List.cons.injEq] at hhead
      obtain ⟨rfl, -⟩ := hhead
      rw [ih hqueue hrest]
      intro timestamp
      have hall := hsame timestamp
      rw [List.filter_cons, List.filter_cons] at hall
      split_ifs at hall with htimestamp
      · exact (List.cons.inj hall).2
      · exact hall

/-! ## Queueing -/

/-- A queued update stands between updates that are later and one that is not. -/
theorem enqueue_split (item : Pending) (queue : List Pending) :
    ∃ front back, queue = front ++ back ∧ enqueue item queue = front ++ item :: back ∧
      (∀ later ∈ back, 0 < displacement later.timestamp item.timestamp) ∧
      ∀ last ∈ front.getLast?, displacement last.timestamp item.timestamp ≤ 0 := by
  have hnewest : ∀ reversed : List Pending, ∃ newer older,
      reversed = newer ++ older ∧ insertNewest item reversed = newer ++ item :: older ∧
        (∀ later ∈ newer, 0 < displacement later.timestamp item.timestamp) ∧
        ∀ last ∈ older.head?, displacement last.timestamp item.timestamp ≤ 0 := by
    intro reversed
    induction reversed with
    | nil => exact ⟨[], [], rfl, rfl, by simp, by simp⟩
    | cons newest older ih =>
      unfold insertNewest
      split_ifs with hlate
      · exact ⟨[], newest :: older, rfl, rfl, by simp, by simpa using hlate⟩
      · obtain ⟨newer, rest, hsplit, hinsert, hlater, hlast⟩ := ih
        refine ⟨newest :: newer, rest, by rw [hsplit]; rfl, by rw [hinsert]; rfl, ?_, hlast⟩
        intro later hmem
        rcases List.mem_cons.mp hmem with rfl | hmem
        · omega
        · exact hlater later hmem
  obtain ⟨newer, older, hsplit, hinsert, hlater, hlast⟩ := hnewest queue.reverse
  refine ⟨older.reverse, newer.reverse, ?_, ?_, ?_, ?_⟩
  · rw [← List.reverse_append, ← hsplit, List.reverse_reverse]
  · rw [enqueue, hinsert]
    simp
  · simpa using hlater
  · simpa using hlast

/-- An update comes last among those with its timestamp, and disturbs no others. -/
theorem filter_enqueue (item : Pending) (queue : List Pending) (timestamp : UInt64) :
    (enqueue item queue).filter (fun item => item.timestamp = timestamp) =
      queue.filter (fun item => item.timestamp = timestamp) ++
        [item].filter fun item => item.timestamp = timestamp := by
  obtain ⟨front, back, hsplit, henqueue, hlater, -⟩ := enqueue_split item queue
  rw [henqueue, hsplit, ← List.singleton_append]
  simp only [List.filter_append]
  by_cases htime : item.timestamp = timestamp
  · -- What stands behind the update is later, so it has another timestamp.
    have hback : back.filter (fun item => item.timestamp = timestamp) = [] := by
      rw [List.filter_eq_nil_iff]
      intro later hmem
      have hpos := hlater later hmem
      rw [← htime, decide_eq_true_eq]
      intro hsame
      rw [hsame, displacement_self] at hpos
      exact lt_irrefl _ hpos
    rw [hback, List.append_nil, List.append_nil]
  · have hitem : [item].filter (fun item => item.timestamp = timestamp) = [] := by
      simp [htime]
    rw [hitem, List.append_nil, List.nil_append]

/-- Queueing keeps time order as long as everything lies in one half of the circle. -/
theorem InTimeOrder.enqueue (h : InTimeOrder base queue)
    (hqueue : ∀ other ∈ queue, offset base other.timestamp < halfTurn)
    (hitem : offset base item.timestamp < halfTurn) :
    InTimeOrder base (Roster.enqueue item queue) := by
  obtain ⟨front, back, rfl, henqueue, hlater, hlast⟩ := enqueue_split item queue
  obtain ⟨hfront, hback, hacross⟩ := List.pairwise_append.mp h
  have hway : ∀ other ∈ front ++ back, displacement other.timestamp item.timestamp =
      (offset base other.timestamp : Int) - offset base item.timestamp :=
    fun other hmem => displacement_eq_offset_of_lt (hqueue other hmem) hitem
  have hnotLater : ∀ other ∈ front, offset base other.timestamp ≤ offset base item.timestamp := by
    intro other hmem
    obtain ⟨last, hgetLast⟩ := List.getLast?_isSome.mpr (List.ne_nil_of_mem hmem) |>
      Option.isSome_iff_exists.mp
    have hend := hlast last hgetLast
    rw [hway last (List.mem_append_left _ (List.mem_of_getLast? hgetLast))] at hend
    have hupto : offset base other.timestamp ≤ offset base last.timestamp := by
      obtain ⟨init, rfl⟩ := List.getLast?_eq_some_iff.mp hgetLast
      rcases List.mem_append.mp hmem with hinit | hin
      · exact (List.pairwise_append.mp hfront).2.2 other hinit last (by simp)
      · rw [List.mem_singleton.mp hin]
    omega
  rw [henqueue]
  refine List.pairwise_append.mpr ⟨hfront, List.pairwise_cons.mpr ⟨?_, hback⟩, ?_⟩
  · intro later hmem
    have hpos := hlater later hmem
    rw [hway later (List.mem_append_right _ hmem)] at hpos
    omega
  · intro other hmem behind hbehind
    rcases List.mem_cons.mp hbehind with rfl | hbehind
    · exact hnotLater other hmem
    · exact hacross other hmem behind hbehind

/-! ## Updates that are due -/

/-- Whether an update lies before a timestamp, seen from the base. -/
def Pending.isBefore (base timestamp : UInt64) (item : Pending) : Bool :=
  offset base item.timestamp < offset base timestamp

theorem isDue_eq_isBefore {timestamp : UInt64} (hitem : offset base item.timestamp < halfTurn)
    (htime : offset base timestamp < halfTurn) :
    item.isDue timestamp = item.isBefore base timestamp := by
  rw [Pending.isDue, Pending.isBefore, displacement_eq_offset_of_lt hitem htime]
  exact decide_eq_decide.mpr (by omega)

/-- Exactly the updates before a timestamp are due, and the others stay. -/
theorem InTimeOrder.due_eq (h : InTimeOrder base queue)
    (hqueue : ∀ item ∈ queue, offset base item.timestamp < halfTurn) {timestamp : UInt64}
    (htime : offset base timestamp < halfTurn) :
    queue.takeWhile (Pending.isDue timestamp) =
        queue.filter (Pending.isBefore base timestamp) ∧
      queue.dropWhile (Pending.isDue timestamp) =
        queue.filter fun item => !item.isBefore base timestamp := by
  have hdue : ∀ item ∈ queue, item.isDue timestamp = item.isBefore base timestamp :=
    fun item hmem => isDue_eq_isBefore (hqueue item hmem) htime
  have hfront : queue.Pairwise fun a b =>
      a ∈ queue ∧ b ∈ queue ∧ offset base a.timestamp ≤ offset base b.timestamp := by
    rw [List.pairwise_iff_forall_sublist]
    intro a b hsub
    have hin : ∀ item ∈ [a, b], item ∈ queue := fun item hmem => hsub.subset hmem
    exact ⟨hin a (by simp), hin b (by simp), List.pairwise_iff_forall_sublist.mp h hsub⟩
  obtain ⟨htake, hdrop⟩ := takeWhile_eq_filter (p := Pending.isDue timestamp) <|
    hfront.imp fun {a b} ⟨ha, hb, hle⟩ => by
      rw [hdue a ha, hdue b hb]
      simp only [Pending.isBefore, decide_eq_true_eq]
      omega
  refine ⟨htake.trans (List.filter_congr hdue), hdrop.trans (List.filter_congr ?_)⟩
  intro item hmem
  rw [hdue item hmem]

theorem InTimeOrder.filter (h : InTimeOrder base queue) (p : Pending → Bool) :
    InTimeOrder base (queue.filter p) :=
  List.Pairwise.filter p h

end CacheMeter.Roster
