import Mathlib.Data.Nat.Notation
import Mathlib.Data.List.Basic
import Mathlib.Data.List.Perm.Basic
import Mathlib.Combinatorics.Enumerative.DoubleCounting

/-!
# A queue whose deliveries are acknowledged

A broker keeps each message until it is settled: a message is ready, or held by
the consumer to which it was delivered under some tag, or delayed in a queue that
dead-letters into this one.  Deliveries that are not settled can be taken back.

The queue also records what was ever published, settled or lost, and
`Accounted` balances these records with what it still holds.
-/

namespace Amq.Broker

universe u v

structure WorkQueue (τ : Type u) (μ : Type v) where
  /-- Messages that will be dead-lettered into the queue. -/
  delayed : List μ
  ready : List μ
  /-- Deliveries that are not settled. -/
  unacknowledged : List (τ × μ)
  /-- Everything that was ever published, the latest first. -/
  published : List μ
  /-- Settled deliveries, the latest first. -/
  settled : List (τ × μ)
  /-- Messages that have expired or whose delay queue was deleted, the latest
  first. -/
  lost : List μ

inductive WorkQueueEvent (τ : Type u) (μ : Type v) where
  | publish (message : μ)
  | publishDelayed (message : μ)
  /-- A delayed message becomes ready. -/
  | deadLetter (message : μ)
  /-- The queue of a delayed message is deleted with the message. -/
  | lose (message : μ)
  /-- The time to live of a ready message has run out. -/
  | expire (message : μ)
  | deliver (tag : τ) (message : μ)
  | settle (tag : τ)
  /-- The deliveries with these tags are taken back. -/
  | requeue (tags : τ → Bool)

/-- The messages that an event publishes. -/
def WorkQueueEvent.publishes {τ : Type u} {μ : Type v} :
    WorkQueueEvent τ μ → List μ
  | .publish message => [message]
  | .publishDelayed message => [message]
  | _ => []

/-- The messages that an event removes for good. -/
def WorkQueueEvent.loses {τ : Type u} {μ : Type v} :
    WorkQueueEvent τ μ → List μ
  | .lose message => [message]
  | .expire message => [message]
  | _ => []

namespace WorkQueue

variable {τ : Type u} {μ : Type v} [DecidableEq τ] [DecidableEq μ]

def empty : WorkQueue τ μ where
  delayed := []
  ready := []
  unacknowledged := []
  published := []
  settled := []
  lost := []

/-- The messages that the broker still has. -/
def held (queue : WorkQueue τ μ) : List μ :=
  queue.delayed ++ queue.ready ++ queue.unacknowledged.map Prod.snd

/-- The tags that are in use or have been settled. -/
def tags (queue : WorkQueue τ μ) : List τ :=
  queue.unacknowledged.map Prod.fst ++ queue.settled.map Prod.fst

def step (queue : WorkQueue τ μ) : WorkQueueEvent τ μ → Option (WorkQueue τ μ)
  | .publish message =>
      some
        { queue with
          ready := queue.ready ++ [message]
          published := message :: queue.published }
  | .publishDelayed message =>
      some
        { queue with
          delayed := queue.delayed ++ [message]
          published := message :: queue.published }
  | .deadLetter message =>
      if message ∈ queue.delayed then
        some
          { queue with
            delayed := queue.delayed.erase message
            ready := queue.ready ++ [message] }
      else
        none
  | .lose message =>
      if message ∈ queue.delayed then
        some
          { queue with
            delayed := queue.delayed.erase message
            lost := message :: queue.lost }
      else
        none
  | .expire message =>
      if message ∈ queue.ready then
        some
          { queue with
            ready := queue.ready.erase message
            lost := message :: queue.lost }
      else
        none
  | .deliver tag message =>
      if message ∈ queue.ready ∧ tag ∉ queue.tags then
        some
          { queue with
            ready := queue.ready.erase message
            unacknowledged := (tag, message) :: queue.unacknowledged }
      else
        none
  | .settle tag =>
      match queue.unacknowledged.find? fun entry => entry.1 = tag with
      | some entry =>
          some
            { queue with
              unacknowledged := queue.unacknowledged.erase entry
              settled := entry :: queue.settled }
      | none => none
  | .requeue taken =>
      some
        { queue with
          ready :=
            queue.ready ++
              (queue.unacknowledged.filter fun entry => taken entry.1).map
                Prod.snd
          unacknowledged :=
            queue.unacknowledged.filter fun entry => !taken entry.1 }

/-! ## Every message is accounted for -/

/-- What was published is held, settled or lost, and no tag is settled twice. -/
structure Accounted (queue : WorkQueue τ μ) : Prop where
  conserved :
    (queue.held ++ queue.settled.map Prod.snd ++ queue.lost).Perm
      queue.published
  distinct : queue.tags.Nodup

omit [DecidableEq τ] [DecidableEq μ] in
theorem accounted_empty : (empty : WorkQueue τ μ).Accounted :=
  ⟨.refl [], List.nodup_nil⟩

omit [DecidableEq τ] in
theorem conserved_iff_count (queue : WorkQueue τ μ) :
    (queue.held ++ queue.settled.map Prod.snd ++ queue.lost).Perm
        queue.published ↔
      ∀ message,
        queue.delayed.count message + queue.ready.count message +
            (queue.unacknowledged.map Prod.snd).count message +
            (queue.settled.map Prod.snd).count message +
            queue.lost.count message =
          queue.published.count message := by
  simp only [List.perm_iff_count, held, List.count_append]

theorem count_messages_erase
    {entries : List (τ × μ)} {entry : τ × μ} (member : entry ∈ entries)
    (message : μ) :
    (entries.map Prod.snd).count message =
      (entry.2 :: (entries.erase entry).map Prod.snd).count message :=
  ((List.perm_cons_erase member).map Prod.snd).count_eq message

omit [DecidableEq τ] in
theorem count_messages_filter
    (entries : List (τ × μ)) (taken : τ → Bool) (message : μ) :
    (entries.map Prod.snd).count message =
      ((entries.filter fun entry => taken entry.1).map Prod.snd).count message +
        ((entries.filter fun entry => !taken entry.1).map Prod.snd).count
          message := by
  have split :=
    (List.filter_append_perm (fun entry : τ × μ => taken entry.1) entries).map
      Prod.snd
  rw [List.map_append] at split
  rw [← split.count_eq message, List.count_append]

omit [DecidableEq μ] in
theorem find_tag
    {entries : List (τ × μ)} {tag : τ} {entry : τ × μ}
    (found : (entries.find? fun entry => entry.1 = tag) = some entry) :
    entry ∈ entries ∧ entry.1 = tag := by
  refine ⟨List.mem_of_find?_eq_some found, ?_⟩
  have chosen := List.find?_some found
  exact of_decide_eq_true chosen

/-- The first entry of a kind is the one that is found. -/
theorem erase_of_find {α : Type u} [BEq α] [LawfulBEq α]
    {entries : List α} {isWanted : α → Bool} {entry : α}
    (found : entries.find? isWanted = some entry) :
    entries.erase entry = entries.eraseP isWanted := by
  induction entries with
  | nil => cases found
  | cons head rest inductionHypothesis =>
      cases wanted : isWanted head with
      | true =>
          rw [List.find?_cons_of_pos wanted, Option.some.injEq] at found
          rw [found, List.erase_cons_head, ← found,
            List.eraseP_cons_of_pos wanted]
      | false =>
          have unwanted : ¬ isWanted head = true := by simp [wanted]
          rw [List.find?_cons_of_neg unwanted] at found
          have different : head ≠ entry := by
            intro same
            rw [same, List.find?_some found] at wanted
            cases wanted
          rw [List.erase_cons_tail (by simpa using different),
            List.eraseP_cons_of_neg unwanted, inductionHypothesis found]

theorem settle_of_find
    {queue : WorkQueue τ μ} {tag : τ} {entry : τ × μ}
    (found :
      (queue.unacknowledged.find? fun entry => entry.1 = tag) = some entry) :
    queue.step (.settle tag) =
      some
        { queue with
          unacknowledged :=
            queue.unacknowledged.eraseP fun entry => entry.1 = tag
          settled := entry :: queue.settled } := by
  rw [← erase_of_find found]
  simp only [step, found]

theorem settle_eq_none_iff {queue : WorkQueue τ μ} {tag : τ} :
    queue.step (.settle tag) = none ↔
      (queue.unacknowledged.find? fun entry => entry.1 = tag) = none := by
  simp only [step]
  cases queue.unacknowledged.find? fun entry => entry.1 = tag with
  | none => simp
  | some entry => simp

theorem Accounted.conserved_step
    {queue next : WorkQueue τ μ} {event : WorkQueueEvent τ μ}
    (accounted : queue.Accounted) (stepped : queue.step event = some next) :
    (next.held ++ next.settled.map Prod.snd ++ next.lost).Perm
      next.published := by
  have balance := queue.conserved_iff_count.mp accounted.conserved
  apply next.conserved_iff_count.mpr
  intro message
  have now := balance message
  cases event with
  | publish new =>
      cases stepped
      simp only [List.count_append, List.count_cons, List.count_nil]
      omega
  | publishDelayed new =>
      cases stepped
      simp only [List.count_append, List.count_cons, List.count_nil]
      omega
  | deadLetter moved =>
      simp only [step] at stepped
      split at stepped
      · rename_i member
        cases stepped
        have removed := (List.perm_cons_erase member).count_eq message
        simp only [List.count_append, List.count_cons, List.count_nil] at removed ⊢
        omega
      · cases stepped
  | lose moved =>
      simp only [step] at stepped
      split at stepped
      · rename_i member
        cases stepped
        have removed := (List.perm_cons_erase member).count_eq message
        simp only [List.count_cons] at removed ⊢
        omega
      · cases stepped
  | expire moved =>
      simp only [step] at stepped
      split at stepped
      · rename_i member
        cases stepped
        have removed := (List.perm_cons_erase member).count_eq message
        simp only [List.count_cons] at removed ⊢
        omega
      · cases stepped
  | deliver tag moved =>
      simp only [step] at stepped
      split at stepped
      · rename_i deliverable
        cases stepped
        have removed := (List.perm_cons_erase deliverable.1).count_eq message
        simp only [List.map_cons, List.count_cons] at removed ⊢
        omega
      · cases stepped
  | settle tag =>
      simp only [step] at stepped
      split at stepped
      · rename_i entry found
        cases stepped
        have removed := count_messages_erase (find_tag found).1 message
        simp only [List.map_cons, List.count_cons] at removed ⊢
        omega
      · cases stepped
  | requeue taken =>
      cases stepped
      have divided :=
        count_messages_filter queue.unacknowledged taken message
      simp only [List.count_append]
      omega

theorem Accounted.distinct_step
    {queue next : WorkQueue τ μ} {event : WorkQueueEvent τ μ}
    (accounted : queue.Accounted) (stepped : queue.step event = some next) :
    next.tags.Nodup := by
  cases event with
  | publish new =>
      cases stepped
      exact accounted.distinct
  | publishDelayed new =>
      cases stepped
      exact accounted.distinct
  | deadLetter moved =>
      simp only [step] at stepped
      split at stepped
      · cases stepped
        exact accounted.distinct
      · cases stepped
  | lose moved =>
      simp only [step] at stepped
      split at stepped
      · cases stepped
        exact accounted.distinct
      · cases stepped
  | expire moved =>
      simp only [step] at stepped
      split at stepped
      · cases stepped
        exact accounted.distinct
      · cases stepped
  | deliver tag moved =>
      simp only [step] at stepped
      split at stepped
      · rename_i deliverable
        cases stepped
        exact List.nodup_cons.mpr ⟨deliverable.2, accounted.distinct⟩
      · cases stepped
  | settle tag =>
      simp only [step] at stepped
      split at stepped
      · rename_i entry found
        cases stepped
        have removed := List.perm_cons_erase (find_tag found).1
        have moved :
            queue.tags.Perm
              ((queue.unacknowledged.erase entry).map Prod.fst ++
                (entry :: queue.settled).map Prod.fst) := by
          refine ((removed.map Prod.fst).append_right _).trans ?_
          simp only [List.map_cons, List.cons_append]
          exact List.perm_middle.symm
        exact moved.nodup_iff.mp accounted.distinct
      · cases stepped
  | requeue taken =>
      cases stepped
      have kept :
          ((queue.unacknowledged.filter fun entry => !taken entry.1).map Prod.fst ++
              queue.settled.map Prod.fst).Sublist queue.tags :=
        (List.filter_sublist.map Prod.fst).append_right _
      exact accounted.distinct.sublist kept

/-- Every step keeps the accounts. -/
theorem Accounted.step
    {queue next : WorkQueue τ μ} {event : WorkQueueEvent τ μ}
    (accounted : queue.Accounted) (stepped : queue.step event = some next) :
    next.Accounted :=
  ⟨accounted.conserved_step stepped, accounted.distinct_step stepped⟩

omit [DecidableEq τ] [DecidableEq μ] in
/-- The balance for the messages of one kind. -/
theorem Accounted.countP
    {queue : WorkQueue τ μ} (accounted : queue.Accounted) (kind : μ → Bool) :
    queue.held.countP kind + (queue.settled.map Prod.snd).countP kind +
        queue.lost.countP kind =
      queue.published.countP kind := by
  rw [← accounted.conserved.countP_eq kind, List.countP_append,
    List.countP_append]

/-! ## What one step does to the records -/

/-- A delivery that is pending or settled was so before, or is new. -/
theorem entries_step
    {queue next : WorkQueue τ μ} {event : WorkQueueEvent τ μ}
    (stepped : queue.step event = some next) {entry : τ × μ}
    (member : entry ∈ next.unacknowledged ++ next.settled) :
    entry ∈ queue.unacknowledged ++ queue.settled ∨
      event = .deliver entry.1 entry.2 := by
  cases event with
  | publish message =>
      cases stepped
      exact Or.inl member
  | publishDelayed message =>
      cases stepped
      exact Or.inl member
  | deadLetter message =>
      simp only [step] at stepped
      split at stepped
      · cases stepped
        exact Or.inl member
      · cases stepped
  | lose message =>
      simp only [step] at stepped
      split at stepped
      · cases stepped
        exact Or.inl member
      · cases stepped
  | expire message =>
      simp only [step] at stepped
      split at stepped
      · cases stepped
        exact Or.inl member
      · cases stepped
  | deliver tag message =>
      simp only [step] at stepped
      split at stepped
      · cases stepped
        rcases List.mem_cons.mp member with new | old
        · subst new
          exact Or.inr rfl
        · exact Or.inl old
      · cases stepped
  | settle tag =>
      simp only [step] at stepped
      split at stepped
      · rename_i moved found
        cases stepped
        rcases List.mem_append.mp member with pending | settled
        · exact Or.inl (List.mem_append_left _ (List.mem_of_mem_erase pending))
        · rcases List.mem_cons.mp settled with same | old
          · subst same
            exact Or.inl (List.mem_append_left _ (find_tag found).1)
          · exact Or.inl (List.mem_append_right _ old)
      · cases stepped
  | requeue taken =>
      cases stepped
      rcases List.mem_append.mp member with pending | settled
      · exact Or.inl (List.mem_append_left _ (List.mem_of_mem_filter pending))
      · exact Or.inl (List.mem_append_right _ settled)

/-- A delivery is settled under its own tag. -/
theorem settled_step
    {queue next : WorkQueue τ μ} {event : WorkQueueEvent τ μ}
    (stepped : queue.step event = some next) {entry : τ × μ}
    (member : entry ∈ next.settled) :
    entry ∈ queue.settled ∨ event = .settle entry.1 := by
  cases event with
  | settle tag =>
      simp only [step] at stepped
      split at stepped
      · rename_i moved found
        cases stepped
        rcases List.mem_cons.mp member with same | old
        · subst same
          rw [(find_tag found).2]
          exact Or.inr rfl
        · exact Or.inl old
      · cases stepped
  | publish message =>
      cases stepped
      exact Or.inl member
  | publishDelayed message =>
      cases stepped
      exact Or.inl member
  | requeue taken =>
      cases stepped
      exact Or.inl member
  | _ =>
      simp only [step] at stepped
      split at stepped
      · cases stepped
        exact Or.inl member
      · cases stepped

theorem published_step
    {queue next : WorkQueue τ μ} {event : WorkQueueEvent τ μ}
    (stepped : queue.step event = some next) :
    next.published = event.publishes ++ queue.published := by
  cases event with
  | publish message =>
      cases stepped
      rfl
  | publishDelayed message =>
      cases stepped
      rfl
  | requeue taken =>
      cases stepped
      rfl
  | _ =>
      simp only [step] at stepped
      split at stepped
      · cases stepped
        rfl
      · cases stepped

theorem lost_step
    {queue next : WorkQueue τ μ} {event : WorkQueueEvent τ μ}
    (stepped : queue.step event = some next) :
    next.lost = event.loses ++ queue.lost := by
  cases event with
  | publish message =>
      cases stepped
      rfl
  | publishDelayed message =>
      cases stepped
      rfl
  | requeue taken =>
      cases stepped
      rfl
  | _ =>
      simp only [step] at stepped
      split at stepped
      · cases stepped
        rfl
      · cases stepped

/-- If each settled delivery has a partner which it shares with no other, there
are at least as many partners. -/
theorem length_le_of_partners
    {α : Type u} {β : Type v} {first : List α} {second : List β}
    (partner : α → β → Prop) (distinct : first.Nodup)
    (exists_partner : ∀ element ∈ first, ∃ other ∈ second, partner element other)
    (unshared :
      ∀ one ∈ first, ∀ two ∈ first, ∀ other ∈ second,
        partner one other → partner two other → one = two) :
    first.length ≤ second.length := by
  classical
  rw [← List.toFinset_card_of_nodup distinct]
  refine Nat.le_trans ?_ second.toFinset_card_le
  refine Finset.card_le_card_of_forall_subsingleton partner ?_ ?_
  · intro element member
    obtain ⟨other, known, partnered⟩ :=
      exists_partner element (List.mem_toFinset.mp member)
    exact ⟨other, List.mem_toFinset.mpr known, partnered⟩
  · intro other member one firstly two secondly
    exact unshared one (List.mem_toFinset.mp firstly.1) two
      (List.mem_toFinset.mp secondly.1) other (List.mem_toFinset.mp member)
      firstly.2 secondly.2

end WorkQueue

end Amq.Broker
