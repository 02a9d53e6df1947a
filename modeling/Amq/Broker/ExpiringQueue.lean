import Mathlib.Data.Nat.Notation
import Mathlib.Order.Basic

/-!
# A queue that expires unless it is declared again

Time is counted in ticks.  A declaration creates the queue or renews its lease;
`expires` ticks after its last declaration the queue is deleted with its
messages.  A message whose time to live has run out is dead-lettered if its
queue is still there.  At each instant the deletions and dead letters of the
tick come first, then the declarations and then the messages sent.

`mem_deadLettered_iff` says which messages of a run are dead-lettered, in terms
of the declaration times alone, and `leased_iff` turns the condition into one
about at most two declarations.
-/

namespace Amq.Broker

universe u v

structure Lease (δ : Type v) where
  renewed : ℕ
  expires : ℕ
  /-- Where dead letters of the queue are routed to. -/
  deadLetter : δ

/-- A queue without a lease does not exist. -/
structure ExpiringQueue (μ : Type u) (δ : Type v) where
  lease : Option (Lease δ)
  /-- Messages with the time at which their time to live has run out. -/
  messages : List (μ × ℕ)
  deadLettered : List (μ × δ)

/-- What reaches the queue at one instant. -/
structure Instant (μ : Type u) (δ : Type v) where
  declarations : List (ℕ × δ)
  /-- Messages with their times to live. -/
  sends : List (μ × ℕ)

namespace ExpiringQueue

variable {μ : Type u} {δ : Type v}

def empty : ExpiringQueue μ δ :=
  ⟨none, [], []⟩

def declare
    (now : ℕ) (queue : ExpiringQueue μ δ) (declaration : ℕ × δ) :
    ExpiringQueue μ δ :=
  match queue.lease with
  | some lease => { queue with lease := some { lease with renewed := now } }
  | none =>
      { queue with lease := some ⟨now, declaration.1, declaration.2⟩ }

/-- A message sent to a queue that does not exist is dropped. -/
def send
    (now : ℕ) (queue : ExpiringQueue μ δ) (message : μ × ℕ) :
    ExpiringQueue μ δ :=
  match queue.lease with
  | some _ =>
      { queue with
        messages := (message.1, now + message.2) :: queue.messages }
  | none => queue

/-- The clock reaches `now`. -/
def tick (now : ℕ) (queue : ExpiringQueue μ δ) : ExpiringQueue μ δ :=
  match queue.lease with
  | none => queue
  | some lease =>
      if lease.renewed + lease.expires ≤ now then
        { queue with lease := none, messages := [] }
      else
        { queue with
          messages := queue.messages.filter fun message => now < message.2
          deadLettered :=
            ((queue.messages.filter fun message => message.2 ≤ now).map
                fun message => (message.1, lease.deadLetter)) ++
              queue.deadLettered }

def takeInstant
    (now : ℕ) (queue : ExpiringQueue μ δ) (instant : Instant μ δ) :
    ExpiringQueue μ δ :=
  instant.sends.foldl (send now) (instant.declarations.foldl (declare now) queue)

/-- The queue after everything that happens at the given time. -/
def after (trace : ℕ → Instant μ δ) : ℕ → ExpiringQueue μ δ
  | 0 => takeInstant 0 empty (trace 0)
  | now + 1 =>
      takeInstant (now + 1) (tick (now + 1) (after trace now)) (trace (now + 1))

/-! ## Leases in terms of declarations -/

/-- A queue declared at these times exists once the instant is over. -/
def ExistsAt (declared : ℕ → Prop) (expires now : ℕ) : Prop :=
  ∃ time, declared time ∧ time ≤ now ∧ now < time + expires

/-- The tick into `now` does not delete the queue. -/
def Survives (declared : ℕ → Prop) (expires now : ℕ) : Prop :=
  ∃ time, declared time ∧ time < now ∧ now < time + expires

/-- The queue exists after `first` and is not deleted up to `last`. -/
def Held (declared : ℕ → Prop) (expires first last : ℕ) : Prop :=
  ExistsAt declared expires first ∧
    ∀ now, first < now → now ≤ last → Survives declared expires now

/-- A condition on at most two declarations that keeps a message with the given
time to live: one in the `slack` ticks before it was sent, or one that still
holds when the next one renews it. -/
def Leased (declared : ℕ → Prop) (slack ttl sent : ℕ) : Prop :=
  (∃ time, declared time ∧ time ≤ sent ∧ sent < time + slack) ∨
    ∃ time renewal, declared time ∧ declared renewal ∧
      time ≤ sent ∧ sent < renewal ∧ renewal < time + (slack + ttl)

theorem exists_latest
    (declared : ℕ → Prop) (now : ℕ)
    (earlier : ∃ time, declared time ∧ time ≤ now) :
    ∃ latest, declared latest ∧ latest ≤ now ∧
      ∀ time, declared time → time ≤ now → time ≤ latest := by
  induction now with
  | zero =>
      obtain ⟨time, itsDeclared, atZero⟩ := earlier
      exact ⟨time, itsDeclared, atZero, fun other _ otherZero => by omega⟩
  | succ now inductionHypothesis =>
      by_cases declaredNow : declared (now + 1)
      · exact ⟨now + 1, declaredNow, Nat.le_refl _, fun _ _ inTime => inTime⟩
      · have notNow : ∀ time, declared time → time ≤ now + 1 → time ≤ now := by
          intro time itsDeclared inTime
          have different : time ≠ now + 1 := by
            rintro rfl
            exact declaredNow itsDeclared
          omega
        obtain ⟨time, itsDeclared, inTime⟩ := earlier
        obtain ⟨latest, latestDeclared, early, last⟩ :=
          inductionHypothesis ⟨time, itsDeclared, notNow time itsDeclared inTime⟩
        refine ⟨latest, latestDeclared, by omega, ?_⟩
        exact fun other otherDeclared otherInTime =>
          last other otherDeclared (notNow other otherDeclared otherInTime)

theorem leased_iff
    (declared : ℕ → Prop) (slack ttl sent : ℕ) :
    Held declared (slack + ttl) sent (sent + ttl) ↔
      Leased declared slack ttl sent := by
  constructor
  · rintro ⟨⟨some, someDeclared, someBefore, existing⟩, survives⟩
    -- The last declaration before the message was sent decides.
    obtain ⟨time, itsDeclared, before, last⟩ :=
      exists_latest declared sent ⟨some, someDeclared, someBefore⟩
    have notEarlier : some ≤ time := last some someDeclared someBefore
    by_cases recent : sent < time + slack
    · exact Or.inl ⟨time, itsDeclared, before, recent⟩
    · have ends : sent < time + (slack + ttl) := by omega
      obtain ⟨renewal, renewed, early, covers⟩ :=
        survives (time + (slack + ttl)) ends (by omega)
      have later : sent < renewal := by
        by_contra notLater
        have := last renewal renewed (by omega)
        omega
      exact Or.inr ⟨time, renewal, itsDeclared, renewed, before, later, early⟩
  · rintro (⟨time, itsDeclared, before, recent⟩ |
      ⟨time, renewal, itsDeclared, renewed, before, later, holds⟩)
    · refine ⟨⟨time, itsDeclared, before, by omega⟩, ?_⟩
      intro now afterwards inTime
      exact ⟨time, itsDeclared, by omega, by omega⟩
    · refine ⟨⟨time, itsDeclared, before, by omega⟩, ?_⟩
      intro now afterwards inTime
      by_cases beforeRenewal : now ≤ renewal
      · exact ⟨time, itsDeclared, by omega, by omega⟩
      · exact ⟨renewal, renewed, by omega, by omega⟩

theorem held_self (declared : ℕ → Prop) (expires now : ℕ) :
    Held declared expires now now ↔ ExistsAt declared expires now := by
  constructor
  · exact And.left
  · exact fun existing => ⟨existing, fun later after before => by omega⟩

theorem held_succ
    (declared : ℕ → Prop) (expires : ℕ) {first last : ℕ}
    (ordered : first ≤ last) :
    Held declared expires first (last + 1) ↔
      Held declared expires first last ∧ Survives declared expires (last + 1) := by
  constructor
  · rintro ⟨existing, survives⟩
    refine ⟨⟨existing, ?_⟩, survives (last + 1) (by omega) (Nat.le_refl _)⟩
    exact fun now after before => survives now after (by omega)
  · rintro ⟨⟨existing, survives⟩, survivesLast⟩
    refine ⟨existing, ?_⟩
    intro now after before
    by_cases early : now ≤ last
    · exact survives now after early
    · have same : now = last + 1 := by omega
      rw [same]
      exact survivesLast

/-! ## One instant -/

/-- All declarations of the queue agree. -/
def Uniform (expires : ℕ) (deadLetter : δ) (queue : ExpiringQueue μ δ) : Prop :=
  ∀ lease ∈ queue.lease, lease.expires = expires ∧ lease.deadLetter = deadLetter

theorem foldl_declare_messages
    (now : ℕ) (declarations : List (ℕ × δ)) (queue : ExpiringQueue μ δ) :
    (declarations.foldl (declare now) queue).messages = queue.messages ∧
      (declarations.foldl (declare now) queue).deadLettered =
        queue.deadLettered := by
  induction declarations generalizing queue with
  | nil => exact ⟨rfl, rfl⟩
  | cons declaration rest inductionHypothesis =>
      rw [List.foldl_cons]
      obtain ⟨messages, deadLettered⟩ :=
        inductionHypothesis (declare now queue declaration)
      rw [messages, deadLettered]
      unfold declare
      cases queue.lease with
      | none => exact ⟨rfl, rfl⟩
      | some lease => exact ⟨rfl, rfl⟩

theorem foldl_declare_lease
    {now expires : ℕ} {deadLetter : δ} {declarations : List (ℕ × δ)}
    {queue : ExpiringQueue μ δ} (uniform : Uniform expires deadLetter queue)
    (agree :
      ∀ declaration ∈ declarations, declaration = (expires, deadLetter))
    (some : declarations ≠ []) :
    (declarations.foldl (declare now) queue).lease =
      Option.some ⟨now, expires, deadLetter⟩ := by
  have declared :
      ∀ current : ExpiringQueue μ δ, Uniform expires deadLetter current →
        (declare now current (expires, deadLetter)).lease =
          Option.some ⟨now, expires, deadLetter⟩ := by
    intro current currentUniform
    unfold declare
    cases itsLease : current.lease with
    | none => rfl
    | some lease =>
        obtain ⟨sameExpires, sameDeadLetter⟩ := currentUniform lease itsLease
        simp [← sameExpires, ← sameDeadLetter]
  induction declarations generalizing queue with
  | nil => exact absurd rfl some
  | cons declaration rest inductionHypothesis =>
      have same := agree declaration List.mem_cons_self
      subst same
      rw [List.foldl_cons]
      have next := declared queue uniform
      by_cases last : rest = []
      · rw [last]
        exact next
      · refine inductionHypothesis ?_ ?_ last
        · intro lease itsLease
          rw [next] at itsLease
          cases itsLease
          exact ⟨rfl, rfl⟩
        · exact fun other member => agree other (List.mem_cons_of_mem _ member)

theorem foldl_send
    (now : ℕ) (sends : List (μ × ℕ)) (queue : ExpiringQueue μ δ) :
    (sends.foldl (send now) queue).lease = queue.lease ∧
      (sends.foldl (send now) queue).deadLettered = queue.deadLettered ∧
      ∀ message due,
        (message, due) ∈ (sends.foldl (send now) queue).messages ↔
          (message, due) ∈ queue.messages ∨
            queue.lease.isSome ∧
              ∃ ttl, (message, ttl) ∈ sends ∧ due = now + ttl := by
  induction sends generalizing queue with
  | nil => simp
  | cons first rest inductionHypothesis =>
      rw [List.foldl_cons]
      obtain ⟨sameLease, sameDeadLettered, messages⟩ :=
        inductionHypothesis (send now queue first)
      cases itsLease : queue.lease with
      | none =>
          have same : send now queue first = queue := by
            unfold send
            rw [itsLease]
          rw [same] at sameLease sameDeadLettered messages ⊢
          refine ⟨sameLease.trans itsLease, sameDeadLettered, ?_⟩
          intro message due
          rw [messages, itsLease]
          simp
      | some lease =>
          have next :
              send now queue first =
                { queue with
                  messages := (first.1, now + first.2) :: queue.messages } := by
            unfold send
            rw [itsLease]
          rw [next] at sameLease sameDeadLettered messages ⊢
          refine ⟨sameLease.trans itsLease, sameDeadLettered, ?_⟩
          intro message due
          rw [messages]
          simp only [itsLease, Option.isSome_some, true_and, List.mem_cons]
          constructor
          · rintro ((new | earlier) | ⟨ttl, member, itsDue⟩)
            · cases new
              exact Or.inr ⟨first.2, Or.inl rfl, rfl⟩
            · exact Or.inl earlier
            · exact Or.inr ⟨ttl, Or.inr member, itsDue⟩
          · rintro (earlier | ⟨ttl, new | member, itsDue⟩)
            · exact Or.inl (Or.inr earlier)
            · cases new
              exact Or.inl (Or.inl (by rw [itsDue]))
            · exact Or.inr ⟨ttl, member, itsDue⟩

/-! ## Whole runs -/

/-- The lease of a queue tells the last declaration seen so far. -/
structure LeaseRecord
    (seen : ℕ → Prop) (expires : ℕ) (deadLetter : δ) (now : ℕ)
    (queue : ExpiringQueue μ δ) : Prop where
  uniform : Uniform expires deadLetter queue
  renewed :
    ∀ lease ∈ queue.lease, seen lease.renewed ∧ now < lease.renewed + expires ∧
      ∀ time, seen time → time ≤ lease.renewed
  expired : queue.lease = none → ∀ time, seen time → time + expires ≤ now

theorem LeaseRecord.isSome_iff
    {seen : ℕ → Prop} {expires now : ℕ} {deadLetter : δ}
    {queue : ExpiringQueue μ δ}
    (record : LeaseRecord seen expires deadLetter now queue) :
    queue.lease.isSome = true ↔ ∃ time, seen time ∧ now < time + expires := by
  cases itsLease : queue.lease with
  | none =>
      simp only [Option.isSome_none, Bool.false_eq_true, false_iff]
      rintro ⟨time, itsSeen, covers⟩
      have ended := record.expired itsLease time itsSeen
      omega
  | some lease =>
      obtain ⟨itsSeen, covers, _⟩ := record.renewed lease itsLease
      exact ⟨fun _ => ⟨lease.renewed, itsSeen, covers⟩, fun _ => rfl⟩

theorem leaseRecord_tick
    {seen : ℕ → Prop} {expires now : ℕ} {deadLetter : δ}
    {queue : ExpiringQueue μ δ}
    (record : LeaseRecord seen expires deadLetter now queue) :
    LeaseRecord seen expires deadLetter (now + 1) (tick (now + 1) queue) := by
  unfold tick
  cases itsLease : queue.lease with
  | none =>
      refine ⟨record.uniform, ?_, ?_⟩
      · intro lease present
        rw [itsLease] at present
        cases present
      · intro _ time itsSeen
        have ended := record.expired itsLease time itsSeen
        omega
  | some lease =>
      obtain ⟨itsSeen, covers, last⟩ := record.renewed lease itsLease
      obtain ⟨sameExpires, sameDeadLetter⟩ := record.uniform lease itsLease
      dsimp only
      rw [sameExpires]
      by_cases ends : lease.renewed + expires ≤ now + 1
      · rw [if_pos ends]
        refine ⟨nofun, nofun, ?_⟩
        intro _ time timeSeen
        have early := last time timeSeen
        omega
      · rw [if_neg ends]
        refine ⟨?_, ?_, ?_⟩
        · exact fun other present => record.uniform other (itsLease ▸ present)
        · intro other present
          cases present
          exact ⟨itsSeen, by omega, last⟩
        · exact nofun

theorem leaseRecord_takeInstant
    {declared : ℕ → Prop} {expires now : ℕ} {deadLetter : δ}
    {queue : ExpiringQueue μ δ} {instant : Instant μ δ}
    (positive : 0 < expires)
    (declaredNow : declared now ↔ instant.declarations ≠ [])
    (agree :
      ∀ declaration ∈ instant.declarations, declaration = (expires, deadLetter))
    (record :
      LeaseRecord (fun time => declared time ∧ time < now) expires deadLetter now
        queue) :
    LeaseRecord (fun time => declared time ∧ time ≤ now) expires deadLetter now
      (takeInstant now queue instant) := by
  have sameLease :
      (takeInstant now queue instant).lease =
        (instant.declarations.foldl (declare now) queue).lease :=
    (foldl_send now instant.sends _).1
  by_cases silent : instant.declarations = []
  · have notNow : ¬ declared now := fun declares => declaredNow.mp declares silent
    have seenBefore :
        ∀ time, declared time ∧ time ≤ now → declared time ∧ time < now := by
      rintro time ⟨itsDeclared, inTime⟩
      refine ⟨itsDeclared, ?_⟩
      have different : time ≠ now := by
        rintro rfl
        exact notNow itsDeclared
      omega
    rw [silent, List.foldl_nil] at sameLease
    refine ⟨?_, ?_, ?_⟩
    · unfold Uniform
      rw [sameLease]
      exact record.uniform
    · rw [sameLease]
      intro lease present
      obtain ⟨⟨itsDeclared, early⟩, covers, last⟩ := record.renewed lease present
      exact ⟨⟨itsDeclared, by omega⟩, covers,
        fun time seen => last time (seenBefore time seen)⟩
    · rw [sameLease]
      exact fun absent time seen =>
        record.expired absent time (seenBefore time seen)
  · rw [foldl_declare_lease record.uniform agree silent] at sameLease
    refine ⟨?_, ?_, ?_⟩
    · unfold Uniform
      rw [sameLease]
      intro lease present
      cases present
      exact ⟨rfl, rfl⟩
    · rw [sameLease]
      intro lease present
      cases present
      exact ⟨⟨declaredNow.mpr silent, Nat.le_refl _⟩,
        Nat.lt_add_of_pos_right positive, fun time seen => seen.2⟩
    · rw [sameLease]
      exact nofun

section Runs

variable {trace : ℕ → Instant μ δ} {expires : ℕ} {deadLetter : δ}

/-- The times at which the queue is declared. -/
def DeclaredIn (trace : ℕ → Instant μ δ) (time : ℕ) : Prop :=
  (trace time).declarations ≠ []

theorem leaseRecord_empty (declared : ℕ → Prop) :
    LeaseRecord (fun time => declared time ∧ time < 0) expires deadLetter 0
      (empty : ExpiringQueue μ δ) := by
  refine ⟨nofun, nofun, ?_⟩
  rintro _ time ⟨_, negative⟩
  cases negative

theorem leaseRecord_after
    (positive : 0 < expires)
    (agree :
      ∀ time, ∀ declaration ∈ (trace time).declarations,
        declaration = (expires, deadLetter))
    (now : ℕ) :
    LeaseRecord (fun time => DeclaredIn trace time ∧ time ≤ now) expires
      deadLetter now (after trace now) := by
  induction now with
  | zero =>
      exact leaseRecord_takeInstant positive Iff.rfl (agree 0)
        (leaseRecord_empty (DeclaredIn trace))
  | succ now inductionHypothesis =>
      refine leaseRecord_takeInstant positive Iff.rfl (agree (now + 1)) ?_
      have ticked := leaseRecord_tick inductionHypothesis
      simpa only [Nat.lt_succ_iff] using ticked

/-- The messages in the queue and its dead letters are those of a run in which
the queue was held for as long as they have been there. -/
structure MessageRecord
    (trace : ℕ → Instant μ δ) (expires : ℕ) (deadLetter : δ) (now : ℕ)
    (queue : ExpiringQueue μ δ) : Prop where
  waiting :
    ∀ message due, (message, due) ∈ queue.messages ↔
      ∃ sent ttl, (message, ttl) ∈ (trace sent).sends ∧ due = sent + ttl ∧
        sent ≤ now ∧ now < due ∧ Held (DeclaredIn trace) expires sent now
  deadLetters :
    ∀ message target, (message, target) ∈ queue.deadLettered ↔
      target = deadLetter ∧
        ∃ sent ttl, (message, ttl) ∈ (trace sent).sends ∧ sent + ttl ≤ now ∧
          Held (DeclaredIn trace) expires sent (sent + ttl)

/-- The same before anything is declared or sent at this time. -/
structure TickRecord
    (trace : ℕ → Instant μ δ) (expires : ℕ) (deadLetter : δ) (now : ℕ)
    (queue : ExpiringQueue μ δ) : Prop where
  waiting :
    ∀ message due, (message, due) ∈ queue.messages ↔
      ∃ sent ttl, (message, ttl) ∈ (trace sent).sends ∧ due = sent + ttl ∧
        sent < now ∧ now < due ∧ Held (DeclaredIn trace) expires sent now
  deadLetters :
    ∀ message target, (message, target) ∈ queue.deadLettered ↔
      target = deadLetter ∧
        ∃ sent ttl, (message, ttl) ∈ (trace sent).sends ∧ sent + ttl ≤ now ∧
          Held (DeclaredIn trace) expires sent (sent + ttl)

theorem existsAt_of_held
    {declared : ℕ → Prop} {expires first last : ℕ} (ordered : first ≤ last)
    (held : Held declared expires first last) :
    ExistsAt declared expires last := by
  by_cases same : first = last
  · rw [← same]
    exact held.1
  · obtain ⟨time, itsDeclared, early, covers⟩ :=
      held.2 last (by omega) (Nat.le_refl _)
    exact ⟨time, itsDeclared, by omega, covers⟩

theorem not_survives_of_none
    {declared : ℕ → Prop} {now : ℕ} {queue : ExpiringQueue μ δ}
    (record :
      LeaseRecord (fun time => declared time ∧ time ≤ now) expires deadLetter now
        queue)
    (absent : queue.lease = none) :
    ¬ Survives declared expires (now + 1) := by
  rintro ⟨time, itsDeclared, early, covers⟩
  have ended := record.expired absent time ⟨itsDeclared, by omega⟩
  omega

theorem survives_iff_of_some
    {declared : ℕ → Prop} {now : ℕ} {queue : ExpiringQueue μ δ} {lease : Lease δ}
    (record :
      LeaseRecord (fun time => declared time ∧ time ≤ now) expires deadLetter now
        queue)
    (present : queue.lease = some lease) :
    Survives declared expires (now + 1) ↔ now + 1 < lease.renewed + expires := by
  obtain ⟨⟨itsDeclared, early⟩, _, last⟩ := record.renewed lease present
  constructor
  · rintro ⟨time, timeDeclared, timeEarly, covers⟩
    have notLater := last time ⟨timeDeclared, by omega⟩
    omega
  · exact fun covers => ⟨lease.renewed, itsDeclared, by omega, covers⟩

theorem not_held_of_not_survives
    {declared : ℕ → Prop} {expires now first last : ℕ}
    (gone : ¬ Survives declared expires (now + 1))
    (early : first ≤ now) (late : now + 1 ≤ last) :
    ¬ Held declared expires first last :=
  fun held => gone (held.2 (now + 1) (by omega) late)

/-- A queue without a lease holds nothing. -/
theorem messages_of_none
    {now : ℕ} {queue : ExpiringQueue μ δ}
    (leaseRecord :
      LeaseRecord (fun time => DeclaredIn trace time ∧ time ≤ now) expires
        deadLetter now queue)
    (record : MessageRecord trace expires deadLetter now queue)
    (absent : queue.lease = none) (entry : μ × ℕ) :
    entry ∉ queue.messages := by
  intro member
  obtain ⟨sent, ttl, _, _, early, _, held⟩ :=
    (record.waiting entry.1 entry.2).mp member
  obtain ⟨time, itsDeclared, inTime, covers⟩ := existsAt_of_held early held
  have isSome :=
    leaseRecord.isSome_iff.mpr ⟨time, ⟨itsDeclared, inTime⟩, covers⟩
  rw [absent] at isSome
  cases isSome

/-- The queue is deleted in this tick, or has been deleted before. -/
theorem tickRecord_of_not_survives
    (ttlPositive :
      ∀ time message ttl, (message, ttl) ∈ (trace time).sends → 0 < ttl)
    {now : ℕ} {queue next : ExpiringQueue μ δ}
    (record : MessageRecord trace expires deadLetter now queue)
    (gone : ¬ Survives (DeclaredIn trace) expires (now + 1))
    (messages : ∀ entry, entry ∉ next.messages)
    (deadLettered : next.deadLettered = queue.deadLettered) :
    TickRecord trace expires deadLetter (now + 1) next := by
  constructor
  · intro message due
    refine iff_of_false (messages _) ?_
    rintro ⟨sent, ttl, _, _, early, _, held⟩
    exact not_held_of_not_survives gone (Nat.lt_succ_iff.mp early)
      (Nat.le_refl _) held
  · intro message target
    rw [deadLettered, record.deadLetters]
    refine and_congr Iff.rfl ?_
    constructor
    · rintro ⟨sent, ttl, member, inTime, held⟩
      exact ⟨sent, ttl, member, by omega, held⟩
    · rintro ⟨sent, ttl, member, inTime, held⟩
      refine ⟨sent, ttl, member, ?_, held⟩
      have positive := ttlPositive sent message ttl member
      by_contra late
      exact not_held_of_not_survives gone (by omega) (by omega) held

/-- The queue survives the tick, which moves the messages that are due. -/
theorem tickRecord_of_survives
    (ttlPositive :
      ∀ time message ttl, (message, ttl) ∈ (trace time).sends → 0 < ttl)
    {now : ℕ} {queue next : ExpiringQueue μ δ}
    (record : MessageRecord trace expires deadLetter now queue)
    (alive : Survives (DeclaredIn trace) expires (now + 1))
    (messages :
      next.messages = queue.messages.filter fun message => now + 1 < message.2)
    (deadLettered :
      next.deadLettered =
        ((queue.messages.filter fun message => message.2 ≤ now + 1).map
            fun message => (message.1, deadLetter)) ++
          queue.deadLettered) :
    TickRecord trace expires deadLetter (now + 1) next := by
  constructor
  · intro message due
    simp only [messages, List.mem_filter, decide_eq_true_eq, record.waiting]
    constructor
    · rintro ⟨⟨sent, ttl, member, itsDue, early, _, held⟩, later⟩
      exact ⟨sent, ttl, member, itsDue, Nat.lt_succ_iff.mpr early, later,
        (held_succ _ _ early).mpr ⟨held, alive⟩⟩
    · rintro ⟨sent, ttl, member, itsDue, early, later, held⟩
      have inTime := Nat.lt_succ_iff.mp early
      exact ⟨⟨sent, ttl, member, itsDue, inTime, by omega,
        ((held_succ _ _ inTime).mp held).1⟩, later⟩
  · intro message target
    simp only [deadLettered, List.mem_append, List.mem_map, List.mem_filter,
      decide_eq_true_eq, Prod.mk.injEq, record.deadLetters]
    constructor
    · rintro (⟨⟨other, due⟩, ⟨waiting, inTime⟩, rfl, rfl⟩ |
        ⟨rfl, sent, ttl, member, inTime, held⟩)
      · obtain ⟨sent, ttl, member, itsDue, early, later, held⟩ :=
          (record.waiting other due).mp waiting
        dsimp only at inTime
        have last : sent + ttl = now + 1 := by omega
        refine ⟨rfl, sent, ttl, member, by omega, ?_⟩
        rw [last]
        exact (held_succ _ _ early).mpr ⟨held, alive⟩
      · exact ⟨rfl, sent, ttl, member, by omega, held⟩
    · rintro ⟨rfl, sent, ttl, member, inTime, held⟩
      have positive := ttlPositive sent message ttl member
      by_cases early : sent + ttl ≤ now
      · exact Or.inr ⟨rfl, sent, ttl, member, early, held⟩
      · have last : sent + ttl = now + 1 := by omega
        refine Or.inl ⟨(message, sent + ttl), ⟨?_, by omega⟩, rfl, rfl⟩
        rw [last] at held
        have before := ((held_succ _ _ (by omega)).mp held).1
        exact (record.waiting message (sent + ttl)).mpr
          ⟨sent, ttl, member, rfl, by omega, by omega, before⟩

/-- What the tick leaves of the messages. -/
theorem messageRecord_tick
    (ttlPositive :
      ∀ time message ttl, (message, ttl) ∈ (trace time).sends → 0 < ttl)
    {now : ℕ} {queue : ExpiringQueue μ δ}
    (leaseRecord :
      LeaseRecord (fun time => DeclaredIn trace time ∧ time ≤ now) expires
        deadLetter now queue)
    (record : MessageRecord trace expires deadLetter now queue) :
    TickRecord trace expires deadLetter (now + 1) (tick (now + 1) queue) := by
  unfold tick
  cases itsLease : queue.lease with
  | none =>
      exact tickRecord_of_not_survives ttlPositive record
        (not_survives_of_none leaseRecord itsLease)
        (messages_of_none leaseRecord record itsLease) rfl
  | some lease =>
      have survives := survives_iff_of_some leaseRecord itsLease
      obtain ⟨sameExpires, sameDeadLetter⟩ := leaseRecord.uniform lease itsLease
      dsimp only
      rw [sameExpires, sameDeadLetter]
      by_cases ends : lease.renewed + expires ≤ now + 1
      · have gone : ¬ Survives (DeclaredIn trace) expires (now + 1) := by
          rw [survives]
          omega
        rw [if_pos ends]
        exact tickRecord_of_not_survives ttlPositive record gone
          (fun _ => List.not_mem_nil) rfl
      · have alive : Survives (DeclaredIn trace) expires (now + 1) := by
          rw [survives]
          omega
        rw [if_neg ends]
        exact tickRecord_of_survives ttlPositive record alive rfl rfl

theorem messageRecord_takeInstant
    (ttlPositive :
      ∀ time message ttl, (message, ttl) ∈ (trace time).sends → 0 < ttl)
    {now : ℕ} {queue : ExpiringQueue μ δ}
    (leaseRecord :
      LeaseRecord (fun time => DeclaredIn trace time ∧ time ≤ now) expires
        deadLetter now (takeInstant now queue (trace now)))
    (record : TickRecord trace expires deadLetter now queue) :
    MessageRecord trace expires deadLetter now
      (takeInstant now queue (trace now)) := by
  obtain ⟨sameMessages, sameDeadLettered⟩ :=
    foldl_declare_messages now (trace now).declarations queue
  obtain ⟨sameLease, keptDeadLettered, messages⟩ :=
    foldl_send now (trace now).sends
      ((trace now).declarations.foldl (declare now) queue)
  have existsNow :
      ((trace now).declarations.foldl (declare now) queue).lease.isSome = true ↔
        Held (DeclaredIn trace) expires now now := by
    rw [held_self, ← sameLease]
    refine leaseRecord.isSome_iff.trans ?_
    simp only [ExistsAt, and_assoc]
  constructor
  · intro message due
    unfold takeInstant
    rw [messages, sameMessages, record.waiting, existsNow]
    constructor
    · rintro (⟨sent, ttl, member, itsDue, early, later, held⟩ |
        ⟨held, ttl, member, itsDue⟩)
      · exact ⟨sent, ttl, member, itsDue, by omega, later, held⟩
      · have positive := ttlPositive now message ttl member
        exact ⟨now, ttl, member, itsDue, Nat.le_refl _, by omega, held⟩
    · rintro ⟨sent, ttl, member, itsDue, inTime, later, held⟩
      by_cases early : sent < now
      · exact Or.inl ⟨sent, ttl, member, itsDue, early, later, held⟩
      · have same : sent = now := by omega
        subst same
        exact Or.inr ⟨held, ttl, member, itsDue⟩
  · intro message target
    unfold takeInstant
    rw [keptDeadLettered, sameDeadLettered]
    exact record.deadLetters message target

theorem tickRecord_empty
    (ttlPositive :
      ∀ time message ttl, (message, ttl) ∈ (trace time).sends → 0 < ttl) :
    TickRecord trace expires deadLetter 0 empty := by
  constructor
  · intro message due
    refine iff_of_false List.not_mem_nil ?_
    rintro ⟨sent, _, _, _, negative, _⟩
    cases negative
  · intro message target
    refine iff_of_false List.not_mem_nil ?_
    rintro ⟨_, sent, ttl, member, atZero, _⟩
    have ttlIsPositive := ttlPositive sent message ttl member
    omega

theorem messageRecord_after
    (positive : 0 < expires)
    (agree :
      ∀ time, ∀ declaration ∈ (trace time).declarations,
        declaration = (expires, deadLetter))
    (ttlPositive :
      ∀ time message ttl, (message, ttl) ∈ (trace time).sends → 0 < ttl)
    (now : ℕ) :
    MessageRecord trace expires deadLetter now (after trace now) := by
  induction now with
  | zero =>
      exact messageRecord_takeInstant ttlPositive
        (leaseRecord_after positive agree 0) (tickRecord_empty ttlPositive)
  | succ now inductionHypothesis =>
      exact messageRecord_takeInstant ttlPositive
        (leaseRecord_after positive agree (now + 1))
        (messageRecord_tick ttlPositive (leaseRecord_after positive agree now)
          inductionHypothesis)

/-- The dead letters of a run are the messages whose times to live have passed
and whose queue was held by its declarations all the while. -/
theorem mem_deadLettered_iff
    (positive : 0 < expires)
    (agree :
      ∀ time, ∀ declaration ∈ (trace time).declarations,
        declaration = (expires, deadLetter))
    (ttlPositive :
      ∀ time message ttl, (message, ttl) ∈ (trace time).sends → 0 < ttl)
    (now : ℕ) (message : μ) :
    (message, deadLetter) ∈ (after trace now).deadLettered ↔
      ∃ sent ttl, (message, ttl) ∈ (trace sent).sends ∧ sent + ttl ≤ now ∧
        Held (DeclaredIn trace) expires sent (sent + ttl) := by
  rw [(messageRecord_after positive agree ttlPositive now).deadLetters]
  exact and_iff_right rfl

end Runs

end ExpiringQueue

end Amq.Broker
