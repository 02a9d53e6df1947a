import Amq.PubSub.PubSub
import Amq.Transition.Monitor

/-!
# The registry of consumers

The sets in the map are compared with the consumers that are still there.  While
`unsubscribe` goes through the set of a topic, the map has lost the topic after
the first consumer; it is right again once the last one has been cancelled, if
nothing else has happened to the topic.
-/

namespace Amq.PubSub

open Amq.Transition
open Function

/-- `consumeQueue` has returned this tag for the topic. -/
def Known (pubSub : PubSub) (topic consumerTag : String) : Prop :=
  ∃ consumer ∈ pubSub.consumers,
    consumer.topic = topic ∧ consumer.consumerTag = consumerTag

/-- ... and its cancellation has not succeeded. -/
def Alive (pubSub : PubSub) (topic consumerTag : String) : Prop :=
  ∃ consumer ∈ pubSub.consumers,
    consumer.topic = topic ∧ consumer.consumerTag = consumerTag ∧
      consumer.isCancelled = false

/-- The map has exactly the live consumers of the topic. -/
def RegistryMatches (pubSub : PubSub) (topic : String) : Prop :=
  ∀ consumerTag,
    consumerTag ∈ pubSub.registered topic ↔ pubSub.Alive topic consumerTag

def Quiescent (pubSub : PubSub) : Prop :=
  ∀ call ∈ pubSub.calls, call.inProgress = false

instance (pubSub : PubSub) : Decidable pubSub.Quiescent :=
  inferInstanceAs (Decidable (∀ call ∈ pubSub.calls, call.inProgress = false))

/-- The call is in the loop of `unsubscribe` for the topic, and each of these
consumers is still to be cancelled by it. -/
def Reaches
    (pubSub : PubSub) (topic : String) (call : Call) (tags : String → Prop) :
    Prop :=
  ∃ current consumerTags position,
    call = .cancellingAll topic current consumerTags position ∧
      ∀ tag, tags tag →
        tag = current ∨ tag ∈ (pubSub.tagsOf consumerTags).ahead position

/-- The live consumers of a topic other than this one. -/
def AliveBut
    (pubSub : PubSub) (topic spared consumerTag : String) : Prop :=
  pubSub.Alive topic consumerTag ∧ consumerTag ≠ spared

/-- Some call will have cancelled these consumers, if it does not fail. -/
def WillCancel
    (pubSub : PubSub) (topic : String) (tags : String → Prop) : Prop :=
  ∃ call ∈ pubSub.calls, pubSub.Reaches topic call tags

/-- ... and it is not this one. -/
def OtherWillCancel
    (pubSub : PubSub) (index : ℕ) (topic : String) (tags : String → Prop) :
    Prop :=
  ∃ place call, place ≠ index ∧ pubSub.calls[place]? = some call ∧
    pubSub.Reaches topic call tags

/-- The map is right about the topic, or a call will have cancelled all its
consumers. -/
def Accounted (pubSub : PubSub) (topic : String) : Prop :=
  pubSub.RegistryMatches topic ∨ pubSub.WillCancel topic (pubSub.Alive topic)

/-- The set that has been read before the cancellation is right about the other
consumers of the topic, or they are being cancelled; and a consumer of another
topic is cancelled only while the others of that topic are. -/
def KeepsAccountOfOne
    (pubSub : PubSub) (topic tag : String) (consumerTags : ℕ) : Prop :=
  ((∀ other, other ≠ tag →
        (other ∈ pubSub.tagsOf consumerTags ↔ pubSub.Alive topic other)) ∨
      pubSub.WillCancel topic (pubSub.AliveBut topic tag)) ∧
    ∀ elsewhere, elsewhere ≠ topic → pubSub.Alive elsewhere tag →
      pubSub.WillCancel elsewhere (pubSub.AliveBut elsewhere tag)

/-- The registry is right about the topic, or the consumer is added to a set
which a call goes through that will have cancelled the others. -/
def KeepsAccountOfNew (pubSub : PubSub) (topic : String) : Prop :=
  pubSub.RegistryMatches topic ∨
    ∃ current consumerTags position,
      .cancellingAll topic current consumerTags position ∈ pubSub.calls ∧
        pubSub.topicToConsumerTags topic = some consumerTags ∧
        ∀ tag, pubSub.Alive topic tag →
          tag = current ∨ tag ∈ (pubSub.tagsOf consumerTags).ahead position

/-- The step leaves no consumer behind. -/
def KeepsAccount (pubSub : PubSub) : Event → Prop
  | .consumed index _ =>
      ∀ topic options queueName,
        pubSub.calls[index]? = some (.consuming topic options queueName) →
          pubSub.KeepsAccountOfNew topic
  | .settled index .fulfilled =>
      (∀ topic tag consumerTags,
        pubSub.calls[index]? = some (.cancelling topic tag consumerTags) →
          pubSub.KeepsAccountOfOne topic tag consumerTags) ∧
        ∀ topic tag consumerTags position,
          pubSub.calls[index]? =
              some (.cancellingAll topic tag consumerTags position) →
            pubSub.WillCancel topic (pubSub.AliveBut topic tag)
  | .settled index .rejected =>
      ∀ topic tag consumerTags position,
        pubSub.calls[index]? =
            some (.cancellingAll topic tag consumerTags position) →
          pubSub.RegistryMatches topic ∨
            pubSub.OtherWillCancel index topic (pubSub.Alive topic)
  | _ => True

/-! ## Live consumers -/

/-- The consumers of the topic whose cancellation has not succeeded. -/
def liveConsumers (pubSub : PubSub) (topic : String) : List Consumer :=
  pubSub.consumers.filter fun consumer =>
    consumer.isCancelled = false ∧ consumer.topic = topic

theorem mem_liveConsumers
    {pubSub : PubSub} {topic : String} {consumer : Consumer} :
    consumer ∈ pubSub.liveConsumers topic ↔
      consumer ∈ pubSub.consumers ∧ consumer.isCancelled = false ∧
        consumer.topic = topic := by
  unfold liveConsumers
  rw [List.mem_filter, decide_eq_true_iff]

theorem alive_iff
    {pubSub : PubSub} {topic tag : String} :
    pubSub.Alive topic tag ↔
      tag ∈ (pubSub.liveConsumers topic).map Consumer.consumerTag := by
  rw [List.mem_map]
  constructor
  · rintro ⟨consumer, member, itsTopic, itsTag, isLive⟩
    exact ⟨consumer, mem_liveConsumers.mpr ⟨member, isLive, itsTopic⟩, itsTag⟩
  · rintro ⟨consumer, member, itsTag⟩
    obtain ⟨present, isLive, itsTopic⟩ := mem_liveConsumers.mp member
    exact ⟨consumer, present, itsTopic, itsTag, isLive⟩

theorem registryMatches_iff
    {pubSub : PubSub} {topic : String} :
    pubSub.RegistryMatches topic ↔
      (pubSub.registered topic).values ⊆
          (pubSub.liveConsumers topic).map Consumer.consumerTag ∧
        (pubSub.liveConsumers topic).map Consumer.consumerTag ⊆
          (pubSub.registered topic).values := by
  unfold RegistryMatches
  simp only [alive_iff]
  constructor
  · intro same
    exact ⟨fun tag => (same tag).mp, fun tag => (same tag).mpr⟩
  · rintro ⟨registered, alive⟩ tag
    exact ⟨fun member => registered member, fun member => alive member⟩

instance (pubSub : PubSub) (topic : String) :
    Decidable (pubSub.RegistryMatches topic) :=
  decidable_of_iff
    ((pubSub.registered topic).values ⊆
        (pubSub.liveConsumers topic).map Consumer.consumerTag ∧
      (pubSub.liveConsumers topic).map Consumer.consumerTag ⊆
        (pubSub.registered topic).values)
    registryMatches_iff.symm

/-- A consumer of the topic is cancelled by its tag while the map is right. -/
theorem KeepsAccountOfOne.of_matches
    {pubSub : PubSub} {topic tag : String} {consumerTags : ℕ}
    (read : pubSub.topicToConsumerTags topic = some consumerTags)
    (matching : pubSub.RegistryMatches topic)
    (itsTopic :
      ∀ consumer ∈ pubSub.consumers, consumer.consumerTag = tag →
        consumer.topic = topic) :
    pubSub.KeepsAccountOfOne topic tag consumerTags := by
  refine ⟨Or.inl ?_, ?_⟩
  · intro other _
    have matches_ := matching other
    unfold registered at matches_
    rw [read] at matches_
    exact matches_
  · rintro elsewhere different ⟨consumer, member, rfl, itsTag, _⟩
    exact absurd (itsTopic consumer member itsTag) different

/-! ## Sets and their topics -/

/-- The set has been made for the topic. -/
def OwnedBy (pubSub : PubSub) (consumerTags : ℕ) (topic : String) : Prop :=
  (pubSub.consumerTagSets[consumerTags]?).map ConsumerTags.topic = some topic

/-- The set that the call has read has been made for its topic, and so has the
consumer that the call waits for. -/
def CallOwned (pubSub : PubSub) : Call → Prop
  | .cancelling topic _ consumerTags => pubSub.OwnedBy consumerTags topic
  | .cancellingAll topic tag consumerTags position =>
      pubSub.OwnedBy consumerTags topic ∧
        position ≤ (pubSub.tagsOf consumerTags).entries.length ∧
        pubSub.Known topic tag
  | _ => True

/-- Sets keep to their topics, and tags to the topics of their consumers. -/
structure KeepsTopics (pubSub : PubSub) : Prop where
  map :
    ∀ topic consumerTags,
      pubSub.topicToConsumerTags topic = some consumerTags →
        pubSub.OwnedBy consumerTags topic
  calls : ∀ call ∈ pubSub.calls, pubSub.CallOwned call
  known :
    ∀ topic tag consumerTags, pubSub.OwnedBy consumerTags topic →
      tag ∈ pubSub.tagsOf consumerTags → pubSub.Known topic tag
  unique : (pubSub.consumers.map Consumer.consumerTag).Nodup

theorem OwnedBy.unique
    {pubSub : PubSub} {consumerTags : ℕ} {topic other : String}
    (owned : pubSub.OwnedBy consumerTags topic)
    (too : pubSub.OwnedBy consumerTags other) : topic = other :=
  Option.some.inj (owned.symm.trans too)

theorem OwnedBy.lt_length
    {pubSub : PubSub} {consumerTags : ℕ} {topic : String}
    (owned : pubSub.OwnedBy consumerTags topic) :
    consumerTags < pubSub.consumerTagSets.length := by
  obtain ⟨_, found, _⟩ := Option.map_eq_some_iff.mp owned
  exact (List.getElem?_eq_some_iff.mp found).1

theorem Alive.known
    {pubSub : PubSub} {topic tag : String} (alive : pubSub.Alive topic tag) :
    pubSub.Known topic tag := by
  obtain ⟨consumer, member, itsTopic, itsTag, _⟩ := alive
  exact ⟨consumer, member, itsTopic, itsTag⟩

/-- A tag belongs to one topic. -/
theorem KeepsTopics.topic_unique
    {pubSub : PubSub} (keeps : pubSub.KeepsTopics) {topic other tag : String}
    (known : pubSub.Known topic tag) (too : pubSub.Known other tag) :
    topic = other := by
  obtain ⟨left, leftMember, itsTopic, itsTag⟩ := known
  obtain ⟨right, rightMember, otherTopic, otherTag⟩ := too
  have same : left = right :=
    List.inj_on_of_nodup_map keeps.unique leftMember rightMember
      (itsTag.trans otherTag.symm)
  rw [← itsTopic, same, otherTopic]

/-! ## Reading and changing sets -/

theorem ownedBy_append
    {pubSub : PubSub} {consumerTags : ℕ} {topic : String}
    (owned : pubSub.OwnedBy consumerTags topic) (added : List ConsumerTags) :
    OwnedBy
      { pubSub with consumerTagSets := pubSub.consumerTagSets ++ added }
      consumerTags topic := by
  unfold OwnedBy
  dsimp only
  rw [List.getElem?_append_left owned.lt_length]
  exact owned

theorem KeepsTopics.found
    {pubSub : PubSub} (keeps : pubSub.KeepsTopics) (topic : String) :
    (pubSub.getConsumerTags topic).1.OwnedBy (pubSub.getConsumerTags topic).2
      topic := by
  rcases pubSub.getConsumerTags_cases topic with
    ⟨consumerTags, itself, found⟩ | ⟨_, found⟩
  · rw [found]
    exact keeps.map topic consumerTags itself
  · rw [found]
    unfold OwnedBy
    simp

theorem tagsOf_modify
    (pubSub : PubSub) (place : ℕ) (change : JsSet String → JsSet String)
    (inside : place < pubSub.consumerTagSets.length) (consumerTags : ℕ) :
    tagsOf
        { pubSub with
          consumerTagSets :=
            pubSub.consumerTagSets.modify place fun itself =>
              { itself with tags := change itself.tags } }
        consumerTags =
      if place = consumerTags then
        change (pubSub.tagsOf consumerTags)
      else
        pubSub.tagsOf consumerTags := by
  unfold tagsOf
  dsimp only
  rw [List.getElem?_modify]
  by_cases same : place = consumerTags
  · subst same
    rw [List.getElem?_eq_getElem inside, if_pos rfl]
    simp
  · rw [if_neg same]
    simp [same]

theorem ownedBy_modify
    (pubSub : PubSub) (place : ℕ) (change : JsSet String → JsSet String)
    (consumerTags : ℕ) (topic : String) :
    OwnedBy
        { pubSub with
          consumerTagSets :=
            pubSub.consumerTagSets.modify place fun itself =>
              { itself with tags := change itself.tags } }
        consumerTags topic ↔
      pubSub.OwnedBy consumerTags topic := by
  unfold OwnedBy
  dsimp only
  rw [List.getElem?_modify]
  cases pubSub.consumerTagSets[consumerTags]? with
  | none => rfl
  | some itself =>
      by_cases same : place = consumerTags <;> simp [same]

/-! ## Topics are kept -/

theorem update_cases
    {map : String → Option ℕ} {topic other : String} {value : Option ℕ}
    {consumerTags : ℕ}
    (present : update map topic value other = some consumerTags) :
    map other = some consumerTags ∨
      other = topic ∧ value = some consumerTags := by
  by_cases same : other = topic
  · subst same
    rw [update_self] at present
    exact Or.inr ⟨rfl, present⟩
  · rw [update_of_ne same] at present
    exact Or.inl present

/-- What a step has to show for sets and tags to keep to their topics. -/
theorem KeepsTopics.transfer
    {pubSub next : PubSub} (keeps : pubSub.KeepsTopics)
    (owned :
      ∀ consumerTags topic, pubSub.OwnedBy consumerTags topic →
        next.OwnedBy consumerTags topic)
    (map :
      ∀ topic consumerTags,
        next.topicToConsumerTags topic = some consumerTags →
          pubSub.topicToConsumerTags topic = some consumerTags ∨
            next.OwnedBy consumerTags topic)
    (calls : ∀ call ∈ next.calls, call ∈ pubSub.calls ∨ next.CallOwned call)
    (grown :
      ∀ consumerTags,
        (pubSub.tagsOf consumerTags).entries.length ≤
          (next.tagsOf consumerTags).entries.length)
    (consumers :
      ∀ topic tag, pubSub.Known topic tag → next.Known topic tag)
    (known :
      ∀ topic tag consumerTags, next.OwnedBy consumerTags topic →
        tag ∈ next.tagsOf consumerTags →
          pubSub.OwnedBy consumerTags topic ∧
              tag ∈ pubSub.tagsOf consumerTags ∨
            next.Known topic tag)
    (unique : (next.consumers.map Consumer.consumerTag).Nodup) :
    next.KeepsTopics where
  map := by
    intro topic consumerTags present
    rcases map topic consumerTags present with earlier | new
    · exact owned consumerTags topic (keeps.map topic consumerTags earlier)
    · exact new
  calls := by
    intro call member
    rcases calls call member with earlier | new
    · have itself := keeps.calls call earlier
      cases call with
      | cancelling topic tag consumerTags => exact owned consumerTags topic itself
      | cancellingAll topic tag consumerTags position =>
          exact ⟨owned consumerTags topic itself.1,
            Nat.le_trans itself.2.1 (grown consumerTags),
            consumers topic tag itself.2.2⟩
      | _ => trivial
    · exact new
  known := by
    intro topic tag consumerTags itsOwned member
    rcases known topic tag consumerTags itsOwned member with
      ⟨before, present⟩ | new
    · exact consumers topic tag (keeps.known topic tag consumerTags before present)
    · exact new
  unique := unique

theorem KeepsTopics.withCalls
    {pubSub : PubSub} (keeps : pubSub.KeepsTopics) (calls : List Call)
    (new : ∀ call ∈ calls, call ∈ pubSub.calls ∨ pubSub.CallOwned call) :
    KeepsTopics { pubSub with calls := calls } :=
  keeps.transfer (fun _ _ => id) (fun _ _ => Or.inl) new
    (fun _ => Nat.le_refl _) (fun _ _ => id)
    (fun _ _ _ owned member => Or.inl ⟨owned, member⟩) keeps.unique

theorem KeepsTopics.setCall
    {pubSub : PubSub} (keeps : pubSub.KeepsTopics) (index : ℕ) {call : Call}
    (new : pubSub.CallOwned call) : (pubSub.setCall index call).KeepsTopics := by
  refine keeps.withCalls _ ?_
  intro other member
  rcases List.mem_or_eq_of_mem_set member with earlier | same
  · exact Or.inl earlier
  · rw [same]
    exact Or.inr new

theorem KeepsTopics.appendCall
    {pubSub : PubSub} (keeps : pubSub.KeepsTopics) {call : Call}
    (new : pubSub.CallOwned call) :
    KeepsTopics { pubSub with calls := pubSub.calls ++ [call] } := by
  refine keeps.withCalls _ ?_
  intro other member
  rcases List.mem_append.mp member with earlier | same
  · exact Or.inl earlier
  · rw [List.mem_singleton.mp same]
    exact Or.inr new

theorem KeepsTopics.getConsumerTags
    {pubSub : PubSub} (keeps : pubSub.KeepsTopics) (topic : String) :
    (pubSub.getConsumerTags topic).1.KeepsTopics := by
  rcases pubSub.getConsumerTags_cases topic with ⟨_, _, found⟩ | ⟨_, found⟩
  · rw [found]
    exact keeps
  · rw [found]
    refine keeps.transfer (fun _ _ owned => ownedBy_append owned _)
      (fun _ _ => Or.inl) (fun _ => Or.inl) ?_ (fun _ _ => id) ?_ keeps.unique
    · intro consumerTags
      rw [tagsOf_append_empty]
    · intro itsTopic tag consumerTags owned member
      rw [tagsOf_append_empty] at member
      by_cases inside : consumerTags < pubSub.consumerTagSets.length
      · unfold OwnedBy at owned
        dsimp only at owned
        rw [List.getElem?_append_left inside] at owned
        exact Or.inl ⟨owned, member⟩
      · unfold tagsOf at member
        rw [List.getElem?_eq_none (Nat.not_lt.mp inside)] at member
        exact absurd member (JsSet.not_mem_empty tag)

theorem KeepsTopics.deleteTopic
    {pubSub : PubSub} (keeps : pubSub.KeepsTopics) (topic : String) :
    (pubSub.deleteTopic topic).KeepsTopics := by
  refine keeps.transfer (fun _ _ => id) ?_ (fun _ => Or.inl)
    (fun _ => Nat.le_refl _) (fun _ _ => id)
    (fun _ _ _ owned member => Or.inl ⟨owned, member⟩) keeps.unique
  intro other consumerTags present
  rcases update_cases present with earlier | ⟨_, deleted⟩
  · exact Or.inl earlier
  · cases deleted

/-! ## Consumers are cancelled -/

theorem known_cancelConsumer_iff
    (pubSub : PubSub) (cancelled topic tag : String) :
    (pubSub.cancelConsumer cancelled).Known topic tag ↔
      pubSub.Known topic tag := by
  unfold Known PubSub.cancelConsumer
  simp only [List.mem_map]
  constructor
  · rintro ⟨_, ⟨consumer, member, same⟩, itsTopic, itsTag⟩
    subst same
    refine ⟨consumer, member, ?_, ?_⟩
    · split at itsTopic <;> exact itsTopic
    · split at itsTag <;> exact itsTag
  · rintro ⟨consumer, member, itsTopic, itsTag⟩
    refine ⟨_, ⟨consumer, member, rfl⟩, ?_, ?_⟩
    · split <;> exact itsTopic
    · split <;> exact itsTag

/-- The consumers that are left. -/
theorem alive_cancelConsumer_iff
    (pubSub : PubSub) (cancelled topic tag : String) :
    (pubSub.cancelConsumer cancelled).Alive topic tag ↔
      pubSub.AliveBut topic cancelled tag := by
  unfold AliveBut Alive PubSub.cancelConsumer
  simp only [List.mem_map]
  constructor
  · rintro ⟨_, ⟨consumer, member, same⟩, itsTopic, itsTag, live⟩
    subst same
    split at live
    · cases live
    · rename_i different
      rw [if_neg different] at itsTopic itsTag
      refine ⟨⟨consumer, member, itsTopic, itsTag, live⟩, ?_⟩
      rw [← itsTag]
      exact different
  · rintro ⟨⟨consumer, member, itsTopic, itsTag, live⟩, different⟩
    rw [← itsTag] at different
    refine ⟨consumer, ⟨consumer, member, if_neg different⟩, itsTopic, itsTag,
      live⟩

theorem KeepsTopics.cancelConsumer
    {pubSub : PubSub} (keeps : pubSub.KeepsTopics) (cancelled : String) :
    (pubSub.cancelConsumer cancelled).KeepsTopics := by
  refine keeps.transfer (fun _ _ => id) (fun _ _ => Or.inl) (fun _ => Or.inl)
    (fun _ => Nat.le_refl _) ?_
    (fun _ _ _ owned member => Or.inl ⟨owned, member⟩) ?_
  · intro topic tag known
    exact (known_cancelConsumer_iff pubSub cancelled topic tag).mpr known
  · have same :
        (pubSub.cancelConsumer cancelled).consumers.map Consumer.consumerTag =
          pubSub.consumers.map Consumer.consumerTag := by
      unfold PubSub.cancelConsumer
      rw [List.map_map]
      refine List.map_congr_left ?_
      intro consumer _
      simp only [comp_apply]
      split <;> rfl
    rw [same]
    exact keeps.unique

/-! ## Sets are changed -/

theorem tagsOf_deregisterConsumer
    {pubSub : PubSub} {place : ℕ} {topic : String}
    (owned : pubSub.OwnedBy place topic) (tag : String) (consumerTags : ℕ) :
    (pubSub.deregisterConsumer topic tag place).tagsOf consumerTags =
      if place = consumerTags then
        (pubSub.tagsOf consumerTags).delete tag
      else
        pubSub.tagsOf consumerTags :=
  tagsOf_modify pubSub place (fun tags => tags.delete tag) owned.lt_length
    consumerTags

theorem KeepsTopics.deregisterConsumer
    {pubSub : PubSub} (keeps : pubSub.KeepsTopics) {place : ℕ} {topic : String}
    (owned : pubSub.OwnedBy place topic) (tag : String) :
    (pubSub.deregisterConsumer topic tag place).KeepsTopics := by
  have sameOwners (consumerTags : ℕ) (itsTopic : String) :
      (pubSub.deregisterConsumer topic tag place).OwnedBy consumerTags itsTopic ↔
        pubSub.OwnedBy consumerTags itsTopic :=
    ownedBy_modify pubSub place (fun tags => tags.delete tag) consumerTags
      itsTopic
  refine keeps.transfer (fun _ _ => (sameOwners _ _).mpr) ?_ (fun _ => Or.inl)
    ?_ (fun _ _ => id) ?_ keeps.unique
  · intro other consumerTags present
    rcases update_cases present with earlier | ⟨itself, replaced⟩
    · exact Or.inl earlier
    · cases replaced
      rw [itself]
      exact Or.inr ((sameOwners _ _).mpr owned)
  · intro consumerTags
    rw [tagsOf_deregisterConsumer owned]
    split
    · rw [JsSet.length_entries_delete]
    · exact Nat.le_refl _
  · intro itsTopic other consumerTags itsOwned member
    rw [tagsOf_deregisterConsumer owned] at member
    refine Or.inl ⟨(sameOwners _ _).mp itsOwned, ?_⟩
    split at member
    · exact (JsSet.mem_delete_iff.mp member).1
    · exact member

theorem tagsOf_registerConsumer
    {pubSub : PubSub} (keeps : pubSub.KeepsTopics) (topic tag : String)
    (consumerTags : ℕ) :
    (pubSub.registerConsumer topic tag).tagsOf consumerTags =
      if (pubSub.getConsumerTags topic).2 = consumerTags then
        (pubSub.tagsOf consumerTags).add tag
      else
        pubSub.tagsOf consumerTags := by
  have changed :=
    tagsOf_modify (pubSub.getConsumerTags topic).1
      (pubSub.getConsumerTags topic).2 (fun tags => tags.add tag)
      (keeps.found topic).lt_length consumerTags
  rw [tagsOf_getConsumerTags] at changed
  exact changed

theorem KeepsTopics.registerConsumer
    {pubSub : PubSub} (keeps : pubSub.KeepsTopics) {topic tag : String}
    (known : pubSub.Known topic tag) :
    (pubSub.registerConsumer topic tag).KeepsTopics := by
  have found := keeps.getConsumerTags topic
  have sameOwners (consumerTags : ℕ) (itsTopic : String) :
      (pubSub.registerConsumer topic tag).OwnedBy consumerTags itsTopic ↔
        (pubSub.getConsumerTags topic).1.OwnedBy consumerTags itsTopic :=
    ownedBy_modify _ _ (fun tags => tags.add tag) consumerTags itsTopic
  have sameKnown (itsTopic other : String) :
      (pubSub.registerConsumer topic tag).Known itsTopic other ↔
        pubSub.Known itsTopic other := by
    unfold Known
    rw [consumers_registerConsumer]
  refine found.transfer (fun _ _ => (sameOwners _ _).mpr) ?_ (fun _ => Or.inl)
    ?_ ?_ ?_ found.unique
  · intro other consumerTags present
    rcases update_cases present with earlier | ⟨itself, replaced⟩
    · exact Or.inl earlier
    · cases replaced
      rw [itself]
      exact Or.inr ((sameOwners _ _).mpr (keeps.found topic))
  · intro consumerTags
    rw [tagsOf_registerConsumer keeps, tagsOf_getConsumerTags]
    split
    · exact JsSet.length_entries_add _ _
    · exact Nat.le_refl _
  · intro itsTopic other before
    refine (sameKnown itsTopic other).mpr ?_
    unfold Known at before ⊢
    rw [consumers_getConsumerTags] at before
    exact before
  · intro itsTopic other consumerTags owned member
    rw [tagsOf_registerConsumer keeps] at member
    rw [tagsOf_getConsumerTags]
    have before := (sameOwners _ _).mp owned
    split at member
    · rename_i same
      subst same
      rcases JsSet.mem_add_iff.mp member with new | earlier
      · have itself := before.unique (keeps.found topic)
        rw [new, itself]
        exact Or.inr ((sameKnown topic tag).mpr known)
      · exact Or.inl ⟨before, earlier⟩
    · exact Or.inl ⟨before, member⟩

theorem callOwned_cancelFrom
    {pubSub : PubSub} (keeps : pubSub.KeepsTopics) {topic : String}
    {consumerTags : ℕ} (owned : pubSub.OwnedBy consumerTags topic)
    (position : ℕ) :
    pubSub.CallOwned (pubSub.cancelFrom topic consumerTags position) := by
  unfold cancelFrom
  split
  · rename_i tag following found
    obtain ⟨values, within⟩ := JsSet.ahead_of_next found
    have ahead : tag ∈ (pubSub.tagsOf consumerTags).ahead position := by
      rw [values]
      exact List.mem_cons_self
    exact ⟨owned, within,
      keeps.known topic tag consumerTags owned (JsSet.mem_of_mem_ahead ahead)⟩
  · trivial

/-- The consumer that `consumeQueue` returns is listed. -/
def addConsumer (pubSub : PubSub) (consumer : Consumer) : PubSub :=
  { pubSub with consumers := consumer :: pubSub.consumers }

theorem registerConsumer_addConsumer
    (pubSub : PubSub) (consumer : Consumer) (topic tag : String) :
    (pubSub.addConsumer consumer).registerConsumer topic tag =
      { pubSub.registerConsumer topic tag with
        consumers := consumer :: pubSub.consumers } := by
  rcases pubSub.getConsumerTags_cases topic with
    ⟨consumerTags, itself, _⟩ | ⟨absent, _⟩
  · simp only [registerConsumer, getConsumerTags, addConsumer, itself]
  · simp only [registerConsumer, getConsumerTags, addConsumer, absent]

theorem known_addConsumer_iff
    (pubSub : PubSub) (consumer : Consumer) (topic tag : String) :
    (pubSub.addConsumer consumer).Known topic tag ↔
      consumer.topic = topic ∧ consumer.consumerTag = tag ∨
        pubSub.Known topic tag := by
  unfold Known addConsumer
  simp only [List.mem_cons, exists_eq_or_imp]

theorem KeepsTopics.addConsumer
    {pubSub : PubSub} (keeps : pubSub.KeepsTopics) {consumer : Consumer}
    (fresh :
      ∀ other ∈ pubSub.consumers, other.consumerTag ≠ consumer.consumerTag) :
    (pubSub.addConsumer consumer).KeepsTopics := by
  refine keeps.transfer (fun _ _ => id) (fun _ _ => Or.inl) (fun _ => Or.inl)
    (fun _ => Nat.le_refl _) ?_
    (fun _ _ _ owned member => Or.inl ⟨owned, member⟩) ?_
  · intro topic tag known
    exact (known_addConsumer_iff pubSub consumer topic tag).mpr (Or.inr known)
  · refine List.nodup_cons.mpr ⟨?_, keeps.unique⟩
    intro member
    obtain ⟨other, present, same⟩ := List.mem_map.mp member
    exact fresh other present same

/-- Every step keeps sets and tags to their topics. -/
theorem keepsTopics_steps
    {queueNamePattern : String} {pubSub next : PubSub} {event : Event}
    (keeps : pubSub.KeepsTopics)
    (stepped : Steps queueNamePattern pubSub event next) :
    next.KeepsTopics := by
  cases stepped with
  | subscribing topic options => exact keeps.appendCall trivial
  | unsubscribing topic consumerTag =>
      have found := keeps.getConsumerTags topic
      refine found.appendCall ?_
      split
      · exact keeps.found topic
      · exact callOwned_cancelFrom found (keeps.found topic) 0
  | exchangeAsserted index topic options waiting => exact keeps.setCall index trivial
  | queueAsserted index topic queueName options waiting =>
      exact keeps.setCall index trivial
  | queueBound index topic queueName options waiting =>
      exact keeps.setCall index trivial
  | consumed index topic queueName consumerTag options waiting fresh =>
      have added :
          (pubSub.addConsumer
            ⟨index, topic, queueName, consumerTag, false⟩).KeepsTopics :=
        keeps.addConsumer fresh
      have known :
          (pubSub.addConsumer
            ⟨index, topic, queueName, consumerTag, false⟩).Known topic
            consumerTag :=
        (known_addConsumer_iff _ _ _ _).mpr (Or.inl ⟨rfl, rfl⟩)
      have registered := added.registerConsumer known
      rw [registerConsumer_addConsumer] at registered
      exact registered.setCall index trivial
  | cancelled index topic consumerTag consumerTags waiting =>
      have owned : pubSub.OwnedBy consumerTags topic :=
        keeps.calls _ (List.mem_of_getElem? waiting)
      exact ((keeps.cancelConsumer consumerTag).deregisterConsumer owned
        consumerTag).setCall index trivial
  | cancelledOne index topic consumerTag consumerTags position waiting =>
      have owned := keeps.calls _ (List.mem_of_getElem? waiting)
      have deleted := (keeps.cancelConsumer consumerTag).deleteTopic topic
      exact deleted.setCall index (callOwned_cancelFrom deleted owned.1 position)
  | failed index call waiting inProgress => exact keeps.setCall index trivial

theorem keepsTopics_create : create.KeepsTopics where
  map := by
    intro topic consumerTags present
    cases present
  calls := by
    intro call member
    cases member
  known := by
    intro topic tag consumerTags owned
    cases owned
  unique := List.nodup_nil

/-! ## What is accounted for -/

/-- In the loop of `unsubscribe` over a set. -/
def Call.isCancellingAll : Call → Bool
  | .cancellingAll _ _ _ _ => true
  | _ => false

/-- In `unsubscribe` with a consumer tag. -/
def Call.isCancelling : Call → Bool
  | .cancelling _ _ _ => true
  | _ => false

theorem not_reaches
    {pubSub : PubSub} {topic : String} {call : Call} {tags : String → Prop}
    (outside : call.isCancellingAll = false) :
    ¬ pubSub.Reaches topic call tags := by
  rintro ⟨current, consumerTags, position, same, _⟩
  rw [same] at outside
  cases outside

/-- Which call will cancel the consumers, seen from one of them. -/
theorem willCancel_iff
    {pubSub : PubSub} {index : ℕ} {call : Call}
    (waiting : pubSub.calls[index]? = some call) (topic : String)
    (tags : String → Prop) :
    pubSub.WillCancel topic tags ↔
      pubSub.Reaches topic call tags ∨ pubSub.OtherWillCancel index topic tags := by
  constructor
  · rintro ⟨other, member, reaches⟩
    obtain ⟨place, present⟩ := List.mem_iff_getElem?.mp member
    by_cases same : place = index
    · subst same
      cases waiting.symm.trans present
      exact Or.inl reaches
    · exact Or.inr ⟨place, other, same, present, reaches⟩
  · intro either
    rcases either with own | ⟨place, other, _, present, reaches⟩
    · exact ⟨call, List.mem_of_getElem? waiting, own⟩
    · exact ⟨other, List.mem_of_getElem? present, reaches⟩

theorem willCancel_setCall_iff
    {pubSub : PubSub} {index : ℕ} {call : Call}
    (waiting : pubSub.calls[index]? = some call) (new : Call) (topic : String)
    (tags : String → Prop) :
    (pubSub.setCall index new).WillCancel topic tags ↔
      pubSub.Reaches topic new tags ∨ pubSub.OtherWillCancel index topic tags := by
  have inside := (List.getElem?_eq_some_iff.mp waiting).1
  have placed : (pubSub.setCall index new).calls[index]? = some new :=
    List.getElem?_set_self inside
  rw [willCancel_iff placed topic tags]
  refine or_congr Iff.rfl ?_
  constructor
  · rintro ⟨place, other, different, present, reaches⟩
    have kept : (pubSub.calls.set index new)[place]? = pubSub.calls[place]? :=
      List.getElem?_set_ne (Ne.symm different)
    exact ⟨place, other, different, kept.symm.trans present, reaches⟩
  · rintro ⟨place, other, different, present, reaches⟩
    have kept : (pubSub.calls.set index new)[place]? = pubSub.calls[place]? :=
      List.getElem?_set_ne (Ne.symm different)
    exact ⟨place, other, different, kept.trans present, reaches⟩

/-- A topic stays accounted for if nothing happens to it. -/
theorem Accounted.mono
    {pubSub next : PubSub} {topic : String} (accounted : pubSub.Accounted topic)
    (registered : next.registered topic = pubSub.registered topic)
    (alive : ∀ tag, next.Alive topic tag ↔ pubSub.Alive topic tag)
    (calls :
      ∀ tags, pubSub.WillCancel topic tags → next.WillCancel topic tags) :
    next.Accounted topic := by
  have same : next.Alive topic = pubSub.Alive topic :=
    funext fun tag => propext (alive tag)
  unfold Accounted RegistryMatches
  rw [registered, same]
  exact accounted.imp_right (calls _)

/-- A call moves on that is not in the loop of `unsubscribe`. -/
theorem Accounted.setCall
    {pubSub : PubSub} {topic : String} (accounted : pubSub.Accounted topic)
    {index : ℕ} {call : Call} (waiting : pubSub.calls[index]? = some call)
    (outside : call.isCancellingAll = false) (new : Call) :
    (pubSub.setCall index new).Accounted topic := by
  refine accounted.mono rfl (fun _ => Iff.rfl) ?_
  intro tags willCancel
  rw [willCancel_iff waiting] at willCancel
  rw [willCancel_setCall_iff waiting]
  exact Or.inr (willCancel.resolve_left (not_reaches outside))

/-- A call begins. -/
theorem Accounted.appendCall
    {pubSub next : PubSub} {topic : String} (accounted : pubSub.Accounted topic)
    (map : next.topicToConsumerTags = pubSub.topicToConsumerTags)
    (tagsOf : next.tagsOf = pubSub.tagsOf)
    (consumers : next.consumers = pubSub.consumers)
    (calls : pubSub.calls ⊆ next.calls) : next.Accounted topic := by
  refine accounted.mono ?_ ?_ ?_
  · unfold registered
    rw [map, tagsOf]
  · intro tag
    unfold Alive
    rw [consumers]
  · intro tags ⟨call, member, reaches⟩
    refine ⟨call, calls member, ?_⟩
    unfold Reaches at reaches ⊢
    rw [tagsOf]
    exact reaches

theorem accounted_failed_iff
    {pubSub : PubSub} {index : ℕ} {call : Call}
    (waiting : pubSub.calls[index]? = some call)
    (accounted : ∀ topic, pubSub.Accounted topic) :
    (∀ topic, (pubSub.setCall index .rejected).Accounted topic) ↔
      pubSub.KeepsAccount (.settled index .rejected) := by
  have afterwards (topic : String) :
      (pubSub.setCall index .rejected).Accounted topic ↔
        pubSub.RegistryMatches topic ∨
          pubSub.OtherWillCancel index topic (pubSub.Alive topic) := by
    refine or_congr Iff.rfl ?_
    refine (willCancel_setCall_iff waiting .rejected topic _).trans ?_
    exact or_iff_right (not_reaches rfl)
  constructor
  · intro kept topic tag consumerTags position _
    exact (afterwards topic).mp (kept topic)
  · intro keeps topic
    refine (afterwards topic).mpr ?_
    rcases accounted topic with ok | willCancel
    · exact Or.inl ok
    · rcases (willCancel_iff waiting topic _).mp willCancel with own | other
      · obtain ⟨tag, consumerTags, position, same, _⟩ := own
        rw [same] at waiting
        exact keeps topic tag consumerTags position waiting
      · exact Or.inr other

/-! ## A consumer is cancelled in the loop -/

theorem aliveBut_iff
    {pubSub : PubSub} (keeps : pubSub.KeepsTopics) {topic elsewhere tag : String}
    (known : pubSub.Known topic tag) (different : elsewhere ≠ topic) :
    pubSub.AliveBut elsewhere tag = pubSub.Alive elsewhere := by
  funext other
  refine propext (and_iff_left_of_imp ?_)
  intro alive same
  subst same
  exact different (keeps.topic_unique alive.known known)

theorem aliveBut_of_not_alive
    {pubSub : PubSub} {topic tag : String} (gone : ¬ pubSub.Alive topic tag) :
    pubSub.AliveBut topic tag = pubSub.Alive topic := by
  funext other
  refine propext (and_iff_left_of_imp ?_)
  intro live same
  exact gone (same ▸ live)

/-- The loop goes on with the consumers that are ahead of the cancelled one. -/
theorem reaches_of_cancelled_iff
    {pubSub : PubSub} {topic tag : String} {consumerTags position : ℕ}
    {tags : String → Prop} (cancelled : ¬ tags tag) :
    pubSub.Reaches topic (.cancellingAll topic tag consumerTags position) tags ↔
      ∀ other, tags other →
        other ∈ (pubSub.tagsOf consumerTags).ahead position := by
  constructor
  · rintro ⟨_, _, _, same, reaches⟩ other asked
    cases same
    rcases reaches other asked with current | ahead
    · rw [current] at asked
      exact absurd asked cancelled
    · exact ahead
  · intro reaches
    exact ⟨tag, consumerTags, position, rfl,
      fun other asked => Or.inr (reaches other asked)⟩

/-- The rest of the loop has the same consumers to cancel. -/
theorem reaches_cancelFrom_iff
    {pubSub : PubSub} {topic tag : String} {consumerTags position : ℕ}
    {tags : String → Prop} (cancelled : ¬ tags tag) :
    pubSub.Reaches topic (.cancellingAll topic tag consumerTags position) tags ↔
      (∀ other, ¬ tags other) ∨
        pubSub.Reaches topic (pubSub.cancelFrom topic consumerTags position)
          tags := by
  rw [reaches_of_cancelled_iff cancelled]
  unfold cancelFrom
  cases found : (pubSub.tagsOf consumerTags).next position with
  | none =>
      have nothing := JsSet.next_eq_none_iff.mp found
      have ended : ¬ pubSub.Reaches topic (.resolved none) tags :=
        not_reaches rfl
      rw [nothing]
      refine Iff.trans ?_ (or_iff_left ended).symm
      simp only [List.not_mem_nil, imp_false]
  | some reply =>
      obtain ⟨current, following⟩ := reply
      rw [(JsSet.ahead_of_next found).1]
      constructor
      · intro reaches
        refine Or.inr ⟨current, consumerTags, following, rfl, ?_⟩
        intro other asked
        exact List.mem_cons.mp (reaches other asked)
      · intro either other asked
        rcases either with nothing | ⟨_, _, _, same, reaches⟩
        · exact absurd asked (nothing other)
        · cases same
          exact List.mem_cons.mpr (reaches other asked)

theorem registered_deleteTopic
    (pubSub : PubSub) (topic elsewhere : String) :
    (pubSub.deleteTopic topic).registered elsewhere =
      if elsewhere = topic then .empty else pubSub.registered elsewhere := by
  unfold registered PubSub.deleteTopic
  by_cases same : elsewhere = topic
  · subst same
    rw [if_pos rfl]
    dsimp only
    rw [update_self]
    rfl
  · rw [if_neg same]
    dsimp only
    rw [update_of_ne same]
    rfl

theorem alive_cancelConsumer
    (pubSub : PubSub) (cancelled topic : String) :
    (pubSub.cancelConsumer cancelled).Alive topic =
      pubSub.AliveBut topic cancelled :=
  funext fun tag => propext (alive_cancelConsumer_iff pubSub cancelled topic tag)

section CancelledOne

variable {pubSub : PubSub} {index : ℕ} {topic tag : String}
variable {consumerTags position : ℕ}

/-- The topic has left the map: it is accounted for if the rest of the loop or
another call cancels the others. -/
theorem accounted_cancelFrom_iff
    (waiting :
      pubSub.calls[index]? =
        some (.cancellingAll topic tag consumerTags position)) :
    (((pubSub.cancelConsumer tag).deleteTopic topic).setCall index
        (((pubSub.cancelConsumer tag).deleteTopic topic).cancelFrom topic
          consumerTags position)).Accounted topic ↔
      pubSub.WillCancel topic (pubSub.AliveBut topic tag) := by
  generalize deleted : (pubSub.cancelConsumer tag).deleteTopic topic = next
  have alive : next.Alive topic = pubSub.AliveBut topic tag := by
    rw [← deleted]
    exact alive_cancelConsumer pubSub tag topic
  have unregistered : next.registered topic = .empty := by
    rw [← deleted, registered_deleteTopic]
    exact if_pos rfl
  have matching :
      (next.setCall index
          (next.cancelFrom topic consumerTags position)).RegistryMatches topic ↔
        ∀ other, ¬ pubSub.AliveBut topic tag other := by
    change (∀ other, other ∈ next.registered topic ↔ next.Alive topic other) ↔ _
    rw [unregistered, alive]
    simp only [JsSet.not_mem_empty, false_iff]
  have itself :
      next.calls[index]? =
        some (.cancellingAll topic tag consumerTags position) := by
    rw [← deleted]
    exact waiting
  have goesOn :
      next.WillCancel topic (pubSub.AliveBut topic tag) ↔
        (∀ other, ¬ pubSub.AliveBut topic tag other) ∨
          (next.setCall index
              (next.cancelFrom topic consumerTags position)).WillCancel topic
            (pubSub.AliveBut topic tag) := by
    rw [willCancel_iff itself, willCancel_setCall_iff itself,
      reaches_cancelFrom_iff fun spared => spared.2 rfl, or_assoc]
  have before :
      next.WillCancel topic (pubSub.AliveBut topic tag) ↔
        pubSub.WillCancel topic (pubSub.AliveBut topic tag) := by
    rw [← deleted]
    exact Iff.rfl
  rw [← before, goesOn]
  refine or_congr matching ?_
  rw [← alive]
  exact Iff.rfl

theorem Accounted.cancelFrom_elsewhere
    {elsewhere : String} (accounted : pubSub.Accounted elsewhere)
    (keeps : pubSub.KeepsTopics) (different : elsewhere ≠ topic)
    (waiting :
      pubSub.calls[index]? =
        some (.cancellingAll topic tag consumerTags position)) :
    (((pubSub.cancelConsumer tag).deleteTopic topic).setCall index
        (((pubSub.cancelConsumer tag).deleteTopic topic).cancelFrom topic
          consumerTags position)).Accounted elsewhere := by
  have known : pubSub.Known topic tag :=
    (keeps.calls _ (List.mem_of_getElem? waiting)).2.2
  generalize deleted : (pubSub.cancelConsumer tag).deleteTopic topic = next
  have alive : next.Alive elsewhere = pubSub.Alive elsewhere := by
    rw [← aliveBut_iff keeps known different, ← deleted]
    exact alive_cancelConsumer pubSub tag elsewhere
  have registered : next.registered elsewhere = pubSub.registered elsewhere := by
    rw [← deleted, registered_deleteTopic, if_neg different]
    rfl
  have itself :
      next.calls[index]? =
        some (.cancellingAll topic tag consumerTags position) := by
    rw [← deleted]
    exact waiting
  have before (tags : String → Prop) :
      next.WillCancel elsewhere tags ↔ pubSub.WillCancel elsewhere tags := by
    rw [← deleted]
    exact Iff.rfl
  refine accounted.mono registered (fun other => ?_) ?_
  · change next.Alive elsewhere other ↔ _
    rw [alive]
  · intro tags willCancel
    rw [← before, willCancel_iff itself] at willCancel
    rw [willCancel_setCall_iff itself]
    refine Or.inr (willCancel.resolve_left ?_)
    rintro ⟨_, _, _, same, _⟩
    cases same
    exact different rfl

theorem keepsAccount_cancelledOne_iff
    (waiting :
      pubSub.calls[index]? =
        some (.cancellingAll topic tag consumerTags position)) :
    pubSub.KeepsAccount (.settled index .fulfilled) ↔
      pubSub.WillCancel topic (pubSub.AliveBut topic tag) := by
  constructor
  · intro keepsAccount
    exact keepsAccount.2 topic tag consumerTags position waiting
  · intro willCancel
    refine ⟨?_, ?_⟩
    · intro _ _ _ other
      cases waiting.symm.trans other
    · intro _ _ _ _ same
      cases waiting.symm.trans same
      exact willCancel

theorem accounted_cancelledOne_iff
    (keeps : pubSub.KeepsTopics)
    (waiting :
      pubSub.calls[index]? =
        some (.cancellingAll topic tag consumerTags position))
    (accounted : ∀ topic, pubSub.Accounted topic) :
    (∀ itsTopic,
        (((pubSub.cancelConsumer tag).deleteTopic topic).setCall index
          (((pubSub.cancelConsumer tag).deleteTopic topic).cancelFrom topic
            consumerTags position)).Accounted itsTopic) ↔
      pubSub.KeepsAccount (.settled index .fulfilled) := by
  rw [keepsAccount_cancelledOne_iff waiting]
  constructor
  · intro kept
    exact (accounted_cancelFrom_iff waiting).mp (kept topic)
  · intro willCancel itsTopic
    by_cases same : itsTopic = topic
    · subst same
      exact (accounted_cancelFrom_iff waiting).mpr willCancel
    · exact (accounted itsTopic).cancelFrom_elsewhere keeps same waiting

end CancelledOne

/-! ## A consumer is cancelled by its tag -/

section Cancelled

variable {pubSub : PubSub} {index : ℕ} {topic tag : String} {consumerTags : ℕ}

/-- The state after `unsubscribe` with a consumer tag. -/
def deregistered
    (pubSub : PubSub) (topic tag : String) (consumerTags : ℕ) : PubSub :=
  (pubSub.cancelConsumer tag).deregisterConsumer topic tag consumerTags

theorem tagsOf_deregistered
    (owned : pubSub.OwnedBy consumerTags topic) (tag : String) (place : ℕ) :
    (pubSub.deregistered topic tag consumerTags).tagsOf place =
      if consumerTags = place then
        (pubSub.tagsOf place).delete tag
      else
        pubSub.tagsOf place := by
  have cancelledOwned :
      (pubSub.cancelConsumer tag).OwnedBy consumerTags topic := owned
  exact tagsOf_deregisterConsumer cancelledOwned tag place

theorem alive_deregistered
    (pubSub : PubSub) (topic tag : String) (consumerTags : ℕ)
    (itsTopic : String) :
    (pubSub.deregistered topic tag consumerTags).Alive itsTopic =
      pubSub.AliveBut itsTopic tag :=
  alive_cancelConsumer pubSub tag itsTopic

theorem registered_deregistered
    (owned : pubSub.OwnedBy consumerTags topic) (tag : String) :
    (pubSub.deregistered topic tag consumerTags).registered topic =
      (pubSub.tagsOf consumerTags).delete tag := by
  have mapped :
      (pubSub.deregistered topic tag consumerTags).topicToConsumerTags topic =
        some consumerTags :=
    update_self _ _ _
  unfold registered
  rw [mapped, Option.elim_some, tagsOf_deregistered owned, if_pos rfl]

theorem registered_deregistered_elsewhere
    (keeps : pubSub.KeepsTopics) (owned : pubSub.OwnedBy consumerTags topic)
    (tag : String) {elsewhere : String} (different : elsewhere ≠ topic) :
    (pubSub.deregistered topic tag consumerTags).registered elsewhere =
      pubSub.registered elsewhere := by
  have mapped :
      (pubSub.deregistered topic tag consumerTags).topicToConsumerTags
          elsewhere =
        pubSub.topicToConsumerTags elsewhere :=
    update_of_ne different _ _
  unfold registered
  rw [mapped]
  cases present : pubSub.topicToConsumerTags elsewhere with
  | none => rfl
  | some place =>
      have apart : consumerTags ≠ place := by
        intro same
        have itsOwned := keeps.map elsewhere place present
        rw [← same] at itsOwned
        exact different (itsOwned.unique owned)
      rw [Option.elim_some, Option.elim_some, tagsOf_deregistered owned,
        if_neg apart]

/-- A call of the loop has the same others to cancel. -/
theorem reaches_deregistered_iff
    (owned : pubSub.OwnedBy consumerTags topic) (itsTopic : String)
    (call : Call) :
    (pubSub.deregistered topic tag consumerTags).Reaches itsTopic call
        (pubSub.AliveBut itsTopic tag) ↔
      pubSub.Reaches itsTopic call (pubSub.AliveBut itsTopic tag) := by
  have ahead (place position : ℕ) (other : String) (different : other ≠ tag) :
      other ∈ ((pubSub.deregistered topic tag consumerTags).tagsOf
          place).ahead position ↔
        other ∈ (pubSub.tagsOf place).ahead position := by
    rw [tagsOf_deregistered owned]
    split
    · rw [JsSet.mem_ahead_delete_iff]
      exact and_iff_left different
    · exact Iff.rfl
  constructor
  · rintro ⟨current, place, position, same, reaches⟩
    refine ⟨current, place, position, same, ?_⟩
    intro other asked
    exact (reaches other asked).imp_right
      (ahead place position other asked.2).mp
  · rintro ⟨current, place, position, same, reaches⟩
    refine ⟨current, place, position, same, ?_⟩
    intro other asked
    exact (reaches other asked).imp_right
      (ahead place position other asked.2).mpr

/-- What is accounted for after the cancellation. -/
theorem accounted_deregistered_iff
    (owned : pubSub.OwnedBy consumerTags topic)
    (waiting :
      pubSub.calls[index]? = some (.cancelling topic tag consumerTags))
    (itsTopic : String) :
    ((pubSub.deregistered topic tag consumerTags).setCall index
        (.resolved none)).Accounted itsTopic ↔
      (∀ other,
          other ∈ (pubSub.deregistered topic tag consumerTags).registered
              itsTopic ↔
            pubSub.AliveBut itsTopic tag other) ∨
        pubSub.WillCancel itsTopic (pubSub.AliveBut itsTopic tag) := by
  have itself :
      (pubSub.deregistered topic tag consumerTags).calls[index]? =
        some (.cancelling topic tag consumerTags) :=
    waiting
  have matching :
      ((pubSub.deregistered topic tag consumerTags).setCall index
          (.resolved none)).RegistryMatches itsTopic ↔
        ∀ other,
          other ∈ (pubSub.deregistered topic tag consumerTags).registered
              itsTopic ↔
            pubSub.AliveBut itsTopic tag other := by
    rw [← alive_deregistered pubSub topic tag consumerTags]
    exact Iff.rfl
  have willCancel :
      ((pubSub.deregistered topic tag consumerTags).setCall index
          (.resolved none)).WillCancel itsTopic (pubSub.AliveBut itsTopic tag) ↔
        pubSub.WillCancel itsTopic (pubSub.AliveBut itsTopic tag) := by
    rw [willCancel_setCall_iff itself, willCancel_iff waiting]
    refine or_congr (iff_of_false (not_reaches rfl) (not_reaches rfl)) ?_
    unfold OtherWillCancel
    simp only [reaches_deregistered_iff owned]
    exact Iff.rfl
  refine or_congr matching (Iff.trans ?_ willCancel)
  rw [← alive_deregistered pubSub topic tag consumerTags]
  exact Iff.rfl

theorem accounted_deregistered_topic_iff
    (owned : pubSub.OwnedBy consumerTags topic)
    (waiting :
      pubSub.calls[index]? = some (.cancelling topic tag consumerTags)) :
    ((pubSub.deregistered topic tag consumerTags).setCall index
        (.resolved none)).Accounted topic ↔
      (∀ other, other ≠ tag →
          (other ∈ pubSub.tagsOf consumerTags ↔ pubSub.Alive topic other)) ∨
        pubSub.WillCancel topic (pubSub.AliveBut topic tag) := by
  rw [accounted_deregistered_iff owned waiting, registered_deregistered owned]
  simp only [JsSet.mem_delete_iff, AliveBut, and_congr_left_iff]

theorem accounted_deregistered_elsewhere_iff
    (keeps : pubSub.KeepsTopics) (owned : pubSub.OwnedBy consumerTags topic)
    (waiting :
      pubSub.calls[index]? = some (.cancelling topic tag consumerTags))
    {elsewhere : String} (different : elsewhere ≠ topic)
    (accounted : pubSub.Accounted elsewhere) :
    ((pubSub.deregistered topic tag consumerTags).setCall index
        (.resolved none)).Accounted elsewhere ↔
      (pubSub.Alive elsewhere tag →
        pubSub.WillCancel elsewhere (pubSub.AliveBut elsewhere tag)) := by
  rw [accounted_deregistered_iff owned waiting,
    registered_deregistered_elsewhere keeps owned tag different]
  by_cases its : pubSub.Alive elsewhere tag
  · refine Iff.trans ?_ (imp_iff_right its).symm
    refine or_iff_right_of_imp ?_
    intro matching
    rcases accounted with registry | ⟨call, member, reaches⟩
    · exact absurd rfl ((matching tag).mp ((registry tag).mpr its)).2
    · obtain ⟨current, place, position, same, all⟩ := reaches
      exact ⟨call, member, current, place, position, same,
        fun other asked => all other asked.1⟩
  · rw [aliveBut_of_not_alive its]
    exact iff_of_true accounted fun live => absurd live its

theorem keepsAccount_cancelled_iff
    (waiting :
      pubSub.calls[index]? = some (.cancelling topic tag consumerTags)) :
    pubSub.KeepsAccount (.settled index .fulfilled) ↔
      pubSub.KeepsAccountOfOne topic tag consumerTags := by
  constructor
  · intro keepsAccount
    exact keepsAccount.1 topic tag consumerTags waiting
  · intro ofOne
    refine ⟨?_, ?_⟩
    · intro _ _ _ same
      cases waiting.symm.trans same
      exact ofOne
    · intro _ _ _ _ other
      cases waiting.symm.trans other

theorem accounted_cancelled_iff
    (keeps : pubSub.KeepsTopics)
    (waiting :
      pubSub.calls[index]? = some (.cancelling topic tag consumerTags))
    (accounted : ∀ topic, pubSub.Accounted topic) :
    (∀ itsTopic,
        (((pubSub.cancelConsumer tag).deregisterConsumer topic tag
          consumerTags).setCall index (.resolved none)).Accounted itsTopic) ↔
      pubSub.KeepsAccount (.settled index .fulfilled) := by
  have owned : pubSub.OwnedBy consumerTags topic :=
    keeps.calls _ (List.mem_of_getElem? waiting)
  rw [keepsAccount_cancelled_iff waiting]
  constructor
  · intro kept
    refine ⟨(accounted_deregistered_topic_iff owned waiting).mp (kept topic), ?_⟩
    intro elsewhere different
    exact (accounted_deregistered_elsewhere_iff keeps owned waiting different
      (accounted elsewhere)).mp (kept elsewhere)
  · intro ofOne itsTopic
    by_cases same : itsTopic = topic
    · subst same
      exact (accounted_deregistered_topic_iff owned waiting).mpr ofOne.1
    · exact (accounted_deregistered_elsewhere_iff keeps owned waiting same
        (accounted itsTopic)).mpr (ofOne.2 itsTopic same)

end Cancelled

/-! ## A consumer is added -/

theorem alive_addConsumer_iff
    (pubSub : PubSub) (index : ℕ) (itsTopic queue itsTag topic tag : String) :
    (pubSub.addConsumer ⟨index, itsTopic, queue, itsTag, false⟩).Alive topic
        tag ↔
      itsTopic = topic ∧ itsTag = tag ∨ pubSub.Alive topic tag := by
  unfold Alive addConsumer
  simp only [List.mem_cons, exists_eq_or_imp, and_true]

section Consumed

variable {pubSub : PubSub} {topic consumerTag : String}

theorem not_known_of_fresh
    (fresh : ∀ consumer ∈ pubSub.consumers, consumer.consumerTag ≠ consumerTag)
    (topic : String) : ¬ pubSub.Known topic consumerTag := by
  rintro ⟨consumer, member, _, itsTag⟩
  exact fresh consumer member itsTag

/-- A new tag is in no set of the topic. -/
theorem KeepsTopics.not_mem_of_fresh
    (keeps : pubSub.KeepsTopics) {place : ℕ}
    (owned : pubSub.OwnedBy place topic)
    (unknown : ¬ pubSub.Known topic consumerTag) :
    consumerTag ∉ pubSub.tagsOf place :=
  fun member => unknown (keeps.known topic consumerTag place owned member)

theorem KeepsTopics.not_mem_registered_of_fresh
    (keeps : pubSub.KeepsTopics) (unknown : ¬ pubSub.Known topic consumerTag) :
    consumerTag ∉ pubSub.registered topic := by
  unfold registered
  cases present : pubSub.topicToConsumerTags topic with
  | none => exact JsSet.not_mem_empty consumerTag
  | some place =>
      exact keeps.not_mem_of_fresh (keeps.map topic place present) unknown

/-- A set that some call has read for the topic is the one in the map, if it is
the one that the tag is added to. -/
theorem map_of_found
    {place : ℕ} (owned : pubSub.OwnedBy place topic)
    (found : (pubSub.getConsumerTags topic).2 = place) :
    pubSub.topicToConsumerTags topic = some place := by
  rcases pubSub.getConsumerTags_cases topic with
    ⟨itsPlace, mappedTo, looked⟩ | ⟨_, looked⟩
  · rw [looked] at found
    exact mappedTo.trans (congrArg some found)
  · rw [looked] at found
    exact absurd owned.lt_length (Nat.not_lt.mpr (Nat.le_of_eq found))

theorem found_of_map
    {place : ℕ} (mapped : pubSub.topicToConsumerTags topic = some place) :
    (pubSub.getConsumerTags topic).2 = place := by
  unfold getConsumerTags
  rw [mapped]

variable {index : ℕ} {queueName : String}

/-- The state after `consumeQueue` has returned. -/
def registeredConsumer
    (pubSub : PubSub) (index : ℕ) (topic queueName consumerTag : String) :
    PubSub :=
  { pubSub.registerConsumer topic consumerTag with
    consumers :=
      ⟨index, topic, queueName, consumerTag, false⟩ :: pubSub.consumers }

theorem calls_registeredConsumer :
    (pubSub.registeredConsumer index topic queueName consumerTag).calls =
      pubSub.calls :=
  calls_getConsumerTags pubSub topic

theorem tagsOf_registeredConsumer
    (keeps : pubSub.KeepsTopics) (place : ℕ) :
    (pubSub.registeredConsumer index topic queueName consumerTag).tagsOf
        place =
      if (pubSub.getConsumerTags topic).2 = place then
        (pubSub.tagsOf place).add consumerTag
      else
        pubSub.tagsOf place :=
  tagsOf_registerConsumer keeps topic consumerTag place

theorem alive_registeredConsumer_iff (itsTopic other : String) :
    (pubSub.registeredConsumer index topic queueName consumerTag).Alive itsTopic
        other ↔
      topic = itsTopic ∧ consumerTag = other ∨ pubSub.Alive itsTopic other :=
  alive_addConsumer_iff pubSub index topic queueName consumerTag itsTopic other

theorem map_registeredConsumer (itsTopic : String) :
    (pubSub.registeredConsumer index topic queueName
        consumerTag).topicToConsumerTags itsTopic =
      update pubSub.topicToConsumerTags topic
        (some (pubSub.getConsumerTags topic).2) itsTopic := by
  rw [← map_getConsumerTags pubSub topic]
  rfl

theorem registered_registeredConsumer (keeps : pubSub.KeepsTopics) :
    (pubSub.registeredConsumer index topic queueName consumerTag).registered
        topic =
      (pubSub.registered topic).add consumerTag := by
  unfold registered
  rw [map_registeredConsumer, update_self, Option.elim_some,
    tagsOf_registeredConsumer keeps, if_pos rfl, tagsOf_found]
  rfl

theorem tagsOf_registeredConsumer_elsewhere
    (keeps : pubSub.KeepsTopics) {elsewhere : String}
    (different : elsewhere ≠ topic) {place : ℕ}
    (owned : pubSub.OwnedBy place elsewhere) :
    (pubSub.registeredConsumer index topic queueName consumerTag).tagsOf
        place =
      pubSub.tagsOf place := by
  rw [tagsOf_registeredConsumer keeps, if_neg]
  intro same
  have foundOwned := keeps.found topic
  rw [same] at foundOwned
  rcases pubSub.getConsumerTags_cases topic with ⟨_, _, found⟩ | ⟨_, found⟩
  · rw [found] at foundOwned
    exact different (owned.unique foundOwned)
  · rw [found] at same
    exact absurd owned.lt_length (Nat.not_lt.mpr (Nat.le_of_eq same))

theorem registered_registeredConsumer_elsewhere
    (keeps : pubSub.KeepsTopics) {elsewhere : String}
    (different : elsewhere ≠ topic) :
    (pubSub.registeredConsumer index topic queueName consumerTag).registered
        elsewhere =
      pubSub.registered elsewhere := by
  unfold registered
  rw [map_registeredConsumer, update_of_ne different]
  cases present : pubSub.topicToConsumerTags elsewhere with
  | none => rfl
  | some place =>
      exact tagsOf_registeredConsumer_elsewhere keeps different
        (keeps.map elsewhere place present)

theorem Accounted.registeredConsumer_elsewhere
    {options : SubscribeOptions} {elsewhere : String}
    (accounted : pubSub.Accounted elsewhere) (keeps : pubSub.KeepsTopics)
    (different : elsewhere ≠ topic)
    (waiting :
      pubSub.calls[index]? = some (.consuming topic options queueName)) :
    ((pubSub.registeredConsumer index topic queueName consumerTag).setCall index
      (.resolved (some consumerTag))).Accounted elsewhere := by
  have unchanged :
      (pubSub.registeredConsumer index topic queueName consumerTag).registered
          elsewhere =
        pubSub.registered elsewhere :=
    registered_registeredConsumer_elsewhere keeps different
  refine accounted.mono unchanged ?_ ?_
  · intro other
    refine (alive_registeredConsumer_iff elsewhere other).trans
      (or_iff_right ?_)
    exact fun new => different new.1.symm
  · intro asked willCancel
    rw [willCancel_setCall_iff (calls_registeredConsumer ▸ waiting)]
    obtain ⟨place, call, apartFrom, present, reaches⟩ :=
      ((willCancel_iff waiting elsewhere asked).mp willCancel).resolve_left
        (not_reaches rfl)
    obtain ⟨current, itsTags, position, same, all⟩ := reaches
    have itself := present
    rw [← calls_registeredConsumer] at itself
    refine Or.inr ⟨place, call, apartFrom, itself, current, itsTags, position,
      same, ?_⟩
    rw [same] at present
    have owned := keeps.calls _ (List.mem_of_getElem? present)
    rw [tagsOf_registeredConsumer_elsewhere keeps different owned.1]
    exact all

theorem registryMatches_registeredConsumer_iff
    (keeps : pubSub.KeepsTopics) (unknown : ¬ pubSub.Known topic consumerTag) :
    (pubSub.registeredConsumer index topic queueName
        consumerTag).RegistryMatches topic ↔
      pubSub.RegistryMatches topic := by
  have entry (other : String) :
      (other ∈ (pubSub.registeredConsumer index topic queueName
            consumerTag).registered topic ↔
          (pubSub.registeredConsumer index topic queueName consumerTag).Alive
            topic other) ↔
        (other ∈ pubSub.registered topic ↔ pubSub.Alive topic other) := by
    rw [registered_registeredConsumer keeps, JsSet.mem_add_iff,
      alive_registeredConsumer_iff]
    by_cases same : other = consumerTag
    · subst same
      refine iff_of_true (iff_of_true (Or.inl rfl) (Or.inl ⟨rfl, rfl⟩)) ?_
      exact iff_of_false (keeps.not_mem_registered_of_fresh unknown)
        fun live => unknown live.known
    · rw [or_iff_right same, or_iff_right fun new => same new.2.symm]
  exact forall_congr' entry

/-- A call of the loop cancels the new consumer too exactly if its set is the one
in the map. -/
theorem ahead_registeredConsumer_iff
    (keeps : pubSub.KeepsTopics) (unknown : ¬ pubSub.Known topic consumerTag)
    {current : String} {itsTags position : ℕ}
    (member :
      .cancellingAll topic current itsTags position ∈ pubSub.calls) :
    (∀ other,
        (pubSub.registeredConsumer index topic queueName consumerTag).Alive
            topic other →
          other = current ∨
            other ∈ ((pubSub.registeredConsumer index topic queueName
              consumerTag).tagsOf itsTags).ahead position) ↔
      pubSub.topicToConsumerTags topic = some itsTags ∧
        ∀ other, pubSub.Alive topic other →
          other = current ∨
            other ∈ (pubSub.tagsOf itsTags).ahead position := by
  obtain ⟨owned, within, known⟩ := keeps.calls _ member
  have notAdded := keeps.not_mem_of_fresh owned unknown
  constructor
  · intro all
    have ahead :
        consumerTag ∈ ((pubSub.registeredConsumer index topic queueName
          consumerTag).tagsOf itsTags).ahead position := by
      have either :=
        all consumerTag
          ((alive_registeredConsumer_iff topic consumerTag).mpr
            (Or.inl ⟨rfl, rfl⟩))
      refine either.resolve_left ?_
      intro sameTag
      exact unknown (sameTag ▸ known)
    have found : (pubSub.getConsumerTags topic).2 = itsTags := by
      by_contra other
      rw [tagsOf_registeredConsumer keeps, if_neg other] at ahead
      exact notAdded (JsSet.mem_of_mem_ahead ahead)
    refine ⟨map_of_found owned found, ?_⟩
    intro other live
    have either :=
      all other ((alive_registeredConsumer_iff topic other).mpr (Or.inr live))
    refine either.imp_right ?_
    rw [tagsOf_registeredConsumer keeps, if_pos found,
      JsSet.ahead_add notAdded within]
    intro appended
    rcases List.mem_append.mp appended with earlier | new
    · exact earlier
    · rw [List.mem_singleton.mp new] at live
      exact absurd live.known unknown
  · rintro ⟨mapped, all⟩ other live
    rw [tagsOf_registeredConsumer keeps, if_pos (found_of_map mapped),
      JsSet.ahead_add notAdded within]
    rcases (alive_registeredConsumer_iff topic other).mp live with
      ⟨_, new⟩ | earlier
    · rw [← new]
      exact Or.inr (List.mem_append_right _ List.mem_cons_self)
    · exact (all other earlier).imp_right (List.mem_append_left _)

theorem willCancel_registeredConsumer_iff
    {options : SubscribeOptions} (keeps : pubSub.KeepsTopics)
    (unknown : ¬ pubSub.Known topic consumerTag)
    (waiting :
      pubSub.calls[index]? = some (.consuming topic options queueName)) :
    ((pubSub.registeredConsumer index topic queueName consumerTag).setCall index
          (.resolved (some consumerTag))).WillCancel topic
        ((pubSub.registeredConsumer index topic queueName consumerTag).Alive
          topic) ↔
      ∃ current consumerTags position,
        .cancellingAll topic current consumerTags position ∈ pubSub.calls ∧
          pubSub.topicToConsumerTags topic = some consumerTags ∧
          ∀ tag, pubSub.Alive topic tag →
            tag = current ∨
              tag ∈ (pubSub.tagsOf consumerTags).ahead position := by
  rw [willCancel_setCall_iff (calls_registeredConsumer ▸ waiting),
    or_iff_right (not_reaches rfl)]
  constructor
  · rintro ⟨place, call, _, present, current, itsTags, position, same, all⟩
    subst same
    rw [calls_registeredConsumer] at present
    have member := List.mem_of_getElem? present
    exact ⟨current, itsTags, position, member,
      (ahead_registeredConsumer_iff keeps unknown member).mp all⟩
  · rintro ⟨current, itsTags, position, member, ahead⟩
    obtain ⟨place, present⟩ := List.mem_iff_getElem?.mp member
    refine ⟨place, _, ?_, ?_, current, itsTags, position, rfl, ?_⟩
    · intro same
      rw [same, waiting] at present
      cases present
    · rw [calls_registeredConsumer]
      exact present
    · exact (ahead_registeredConsumer_iff keeps unknown member).mpr ahead

theorem keepsAccount_consumed_iff
    {options : SubscribeOptions}
    (waiting :
      pubSub.calls[index]? = some (.consuming topic options queueName)) :
    pubSub.KeepsAccount (.consumed index consumerTag) ↔
      pubSub.KeepsAccountOfNew topic := by
  constructor
  · intro keepsAccount
    exact keepsAccount topic options queueName waiting
  · intro ofNew _ _ _ same
    cases waiting.symm.trans same
    exact ofNew

theorem accounted_consumed_iff
    {options : SubscribeOptions} (keeps : pubSub.KeepsTopics)
    (waiting :
      pubSub.calls[index]? = some (.consuming topic options queueName))
    (fresh : ∀ consumer ∈ pubSub.consumers, consumer.consumerTag ≠ consumerTag)
    (accounted : ∀ topic, pubSub.Accounted topic) :
    (∀ itsTopic,
        ((pubSub.registeredConsumer index topic queueName consumerTag).setCall
          index (.resolved (some consumerTag))).Accounted itsTopic) ↔
      pubSub.KeepsAccount (.consumed index consumerTag) := by
  have unknown := not_known_of_fresh fresh topic
  have ofTopic :
      ((pubSub.registeredConsumer index topic queueName consumerTag).setCall
          index (.resolved (some consumerTag))).Accounted topic ↔
        pubSub.KeepsAccountOfNew topic :=
    or_congr (registryMatches_registeredConsumer_iff keeps unknown)
      (willCancel_registeredConsumer_iff keeps unknown waiting)
  rw [keepsAccount_consumed_iff waiting]
  constructor
  · intro kept
    exact ofTopic.mp (kept topic)
  · intro ofNew itsTopic
    by_cases same : itsTopic = topic
    · subst same
      exact ofTopic.mpr ofNew
    · exact (accounted itsTopic).registeredConsumer_elsewhere keeps same waiting

end Consumed

/-! ## Runs -/

/-- The steps of `subscribe` before its consumer cancel nothing. -/
theorem keepsAccount_of_outside
    {pubSub : PubSub} {index : ℕ} {call : Call}
    (waiting : pubSub.calls[index]? = some call)
    (outsideOne : call.isCancelling = false)
    (outsideAll : call.isCancellingAll = false) :
    pubSub.KeepsAccount (.settled index .fulfilled) := by
  refine ⟨?_, ?_⟩
  · intro _ _ _ other
    cases waiting.symm.trans other
    cases outsideOne
  · intro _ _ _ _ other
    cases waiting.symm.trans other
    cases outsideAll

/-- A step keeps every topic accounted for exactly if it leaves no consumer
behind. -/
theorem accounted_step_iff
    {queueNamePattern : String} {pubSub next : PubSub} {event : Event}
    (keeps : pubSub.KeepsTopics) (accounted : ∀ topic, pubSub.Accounted topic)
    (stepped : Steps queueNamePattern pubSub event next) :
    (∀ topic, next.Accounted topic) ↔ pubSub.KeepsAccount event := by
  cases stepped with
  | subscribing topic options =>
      refine iff_of_true ?_ trivial
      exact fun itsTopic =>
        (accounted itsTopic).appendCall rfl rfl rfl (List.subset_append_left _ _)
  | unsubscribing topic consumerTag =>
      refine iff_of_true ?_ trivial
      intro itsTopic
      refine (accounted itsTopic).appendCall (map_getConsumerTags pubSub topic)
        (funext (tagsOf_getConsumerTags pubSub topic))
        (consumers_getConsumerTags pubSub topic) ?_
      have kept := calls_getConsumerTags pubSub topic
      intro call member
      refine List.mem_append_left _ ?_
      rw [kept]
      exact member
  | exchangeAsserted index topic options waiting =>
      exact iff_of_true
        (fun itsTopic => (accounted itsTopic).setCall waiting rfl _)
        (keepsAccount_of_outside waiting rfl rfl)
  | queueAsserted index topic queueName options waiting =>
      exact iff_of_true
        (fun itsTopic => (accounted itsTopic).setCall waiting rfl _)
        (keepsAccount_of_outside waiting rfl rfl)
  | queueBound index topic queueName options waiting =>
      exact iff_of_true
        (fun itsTopic => (accounted itsTopic).setCall waiting rfl _)
        (keepsAccount_of_outside waiting rfl rfl)
  | consumed index topic queueName consumerTag options waiting fresh =>
      exact accounted_consumed_iff keeps waiting fresh accounted
  | cancelled index topic consumerTag consumerTags waiting =>
      exact accounted_cancelled_iff keeps waiting accounted
  | cancelledOne index topic consumerTag consumerTags position waiting =>
      exact accounted_cancelledOne_iff keeps waiting accounted
  | failed index call waiting inProgress =>
      exact accounted_failed_iff waiting accounted

theorem accounted_create (topic : String) : create.Accounted topic := by
  refine Or.inl fun tag => iff_of_false (JsSet.not_mem_empty tag) ?_
  rintro ⟨consumer, member, _⟩
  cases member

theorem accounted_preserved (queueNamePattern : String) :
    (machine queueNamePattern).PreservedUnder KeepsAccount fun pubSub =>
      pubSub.KeepsTopics ∧ ∀ topic, pubSub.Accounted topic := by
  rintro pubSub event next ⟨keeps, accounted⟩ allowed stepped
  have steps := steps_of_step stepped
  exact ⟨keepsTopics_steps keeps steps,
    (accounted_step_iff keeps accounted steps).mpr allowed⟩

/-- Once every call is over, the map is right about what is accounted for. -/
theorem Accounted.registryMatches
    {pubSub : PubSub} {topic : String} (accounted : pubSub.Accounted topic)
    (quiescent : pubSub.Quiescent) : pubSub.RegistryMatches topic := by
  rcases accounted with ok | ⟨call, member, _, _, _, same, _⟩
  · exact ok
  · have ended := quiescent call member
    rw [same] at ended
    cases ended

/-- `unsubscribe` comes to every consumer that is in the map. -/
theorem willCancel_unsubscribe
    {pubSub : PubSub} {topic tag : String}
    (member : tag ∈ pubSub.registered topic) :
    (pubSub.unsubscribe topic none).WillCancel topic fun other => other = tag := by
  refine ⟨_, List.mem_append_right _ List.mem_cons_self, ?_⟩
  have itsTags :
      (pubSub.getConsumerTags topic).1.tagsOf (pubSub.getConsumerTags topic).2 =
        pubSub.registered topic :=
    (tagsOf_getConsumerTags pubSub topic _).trans (tagsOf_found pubSub topic)
  have ahead : tag ∈ (pubSub.registered topic).ahead 0 := member
  simp only [Option.filter_none]
  unfold cancelFrom
  rw [itsTags]
  cases found : (pubSub.registered topic).next 0 with
  | none =>
      rw [JsSet.next_eq_none_iff.mp found] at ahead
      cases ahead
  | some reply =>
      obtain ⟨current, following⟩ := reply
      rw [(JsSet.ahead_of_next found).1] at ahead
      refine ⟨current, _, following, rfl, ?_⟩
      intro other same
      rw [same]
      change _ ∨ tag ∈ ((pubSub.getConsumerTags topic).1.tagsOf _).ahead following
      rw [itsTags]
      exact List.mem_cons.mp ahead

/-- The commands that are waited for can all be rejected, and the map is left as
it is. -/
theorem exists_rejections (queueNamePattern : String) (pubSub : PubSub) :
    ∃ rejections final,
      (∀ event ∈ rejections, ∃ call, event = .settled call .rejected) ∧
        (machine queueNamePattern).run pubSub rejections = some final ∧
        final.Quiescent ∧
        ∀ topic, final.RegistryMatches topic ↔ pubSub.RegistryMatches topic := by
  induction waiting : pubSub.calls.countP Call.inProgress generalizing pubSub with
  | zero =>
      refine ⟨[], pubSub, List.forall_mem_nil _, rfl, ?_, fun _ => Iff.rfl⟩
      intro call member
      exact Bool.eq_false_iff.mpr (List.countP_eq_zero.mp waiting call member)
  | succ count inductionHypothesis =>
      have some_waiting : 0 < pubSub.calls.countP Call.inProgress := by omega
      obtain ⟨call, member, inProgress⟩ := List.countP_pos_iff.mp some_waiting
      obtain ⟨index, present⟩ := List.mem_iff_getElem?.mp member
      obtain ⟨inside, itself⟩ := List.getElem?_eq_some_iff.mp present
      have fewer :
          (pubSub.setCall index .rejected).calls.countP Call.inProgress =
            count := by
        change (pubSub.calls.set index .rejected).countP Call.inProgress = count
        rw [List.countP_set inside, itself, inProgress, waiting]
        rfl
      obtain ⟨rejections, final, rejects, reached, quiescent, same⟩ :=
        inductionHypothesis (pubSub.setCall index .rejected) fewer
      have stepped :
          (machine queueNamePattern).step pubSub (.settled index .rejected) =
            some (pubSub.setCall index .rejected) := by
        simp only [machine, step, settle, present, inProgress, if_true]
      refine ⟨.settled index .rejected :: rejections, final, ?_, ?_, quiescent,
        same⟩
      · intro event either
        rcases List.mem_cons.mp either with first | later
        · exact ⟨index, first⟩
        · exact rejects event later
      · exact Machine.run_cons_iff.mpr ⟨_, stepped, reached⟩

/-- Once every call is over, the map has exactly the live consumers of each
topic, and `unsubscribe` comes to all of them, if no step has left a consumer
behind.  A run with a step that has left one behind is wrong about some topic as
soon as the commands that are then waited for are rejected. -/
theorem registry_matches_consumers
    (queueNamePattern : String) (schedule : List Event) (pubSub : PubSub)
    (execution :
      (machine queueNamePattern).run (machine queueNamePattern).initial
          schedule = some pubSub) :
    ((machine queueNamePattern).Throughout KeepsAccount
          (machine queueNamePattern).initial schedule →
        pubSub.Quiescent →
          ∀ topic, pubSub.RegistryMatches topic ∧
            ∀ tag, pubSub.Alive topic tag →
              (pubSub.unsubscribe topic none).WillCancel topic
                fun other => other = tag) ∧
      (¬ (machine queueNamePattern).Throughout KeepsAccount
          (machine queueNamePattern).initial schedule →
        ∃ first rest rejections final,
          schedule = first ++ rest ∧
            (∀ event ∈ rejections, ∃ call, event = .settled call .rejected) ∧
            (machine queueNamePattern).run (machine queueNamePattern).initial
                (first ++ rejections) = some final ∧
            final.Quiescent ∧ ¬ ∀ topic, final.RegistryMatches topic) := by
  have preserved := accounted_preserved queueNamePattern
  have initially : create.KeepsTopics ∧ ∀ topic, create.Accounted topic :=
    ⟨keepsTopics_create, accounted_create⟩
  refine ⟨?_, ?_⟩
  · intro allowed quiescent topic
    have kept :=
      Machine.run_invariant_under preserved initially allowed execution
    have matching := (kept.2 topic).registryMatches quiescent
    exact ⟨matching,
      fun tag live => willCancel_unsubscribe ((matching tag).mpr live)⟩
  · intro broken
    obtain ⟨first, event, rest, current, next, same, reached, kept, stepped,
      breaks⟩ := Machine.exists_breaking_step execution broken
    obtain ⟨keeps, accounted⟩ :=
      Machine.run_invariant_under preserved initially kept reached
    have lost : ¬ ∀ topic, next.RegistryMatches topic := by
      intro matching
      exact breaks
        ((accounted_step_iff keeps accounted (steps_of_step stepped)).mp
          fun topic => Or.inl (matching topic))
    obtain ⟨rejections, final, rejects, rejected, quiescent, left⟩ :=
      exists_rejections queueNamePattern next
    refine ⟨first ++ [event], rest, rejections, final, ?_, rejects, ?_,
      quiescent, ?_⟩
    · rw [same, List.append_assoc]
      rfl
    · rw [List.append_assoc, Machine.run_append, reached, Option.bind_some]
      exact Machine.run_cons_iff.mpr ⟨next, stepped, rejected⟩
    · intro matching
      exact lost fun topic => (left topic).mp (matching topic)

/-! ## Concrete runs -/

def newsOptions : SubscribeOptions where
  queueName := some "news"
  exchangeType := none
  routingKey := none
  singleActiveConsumer := none
  autoDeleteQueue := none

/-- A call of `subscribe` with these options, up to the consumer tag. -/
def newsSubscription (call : ℕ) (consumerTag : String) : List Event :=
  [.subscribe "news" newsOptions, .settled call .fulfilled,
    .settled call .fulfilled, .settled call .fulfilled,
    .consumed call consumerTag]

/-- One of two consumers is cancelled by its tag. -/
def firstCancelled : List Event :=
  newsSubscription 0 "a" ++ newsSubscription 1 "b" ++
    [.unsubscribe "news" (some "a"), .settled 2 .fulfilled]

theorem registry_matches_consumers_firstCancelled :
    ∃ pubSub : PubSub,
      (machine "{topic}").run (machine "{topic}").initial firstCancelled =
          some pubSub ∧
        (pubSub.liveConsumers "news").map Consumer.consumerTag = ["b"] ∧
        pubSub.RegistryMatches "news" := by
  refine ⟨_, rfl, rfl, ?_⟩
  refine ((registry_matches_consumers "{topic}" firstCancelled _ rfl).1 ?_ ?_
    "news").1
  · refine Machine.throughout_cons trivial rfl ?_
    refine Machine.throughout_cons (keepsAccount_of_outside rfl rfl rfl) rfl ?_
    refine Machine.throughout_cons (keepsAccount_of_outside rfl rfl rfl) rfl ?_
    refine Machine.throughout_cons (keepsAccount_of_outside rfl rfl rfl) rfl ?_
    refine Machine.throughout_cons ?_ rfl ?_
    · intro topic options queueName waiting
      cases waiting
      exact Or.inl (by decide)
    refine Machine.throughout_cons trivial rfl ?_
    refine Machine.throughout_cons (keepsAccount_of_outside rfl rfl rfl) rfl ?_
    refine Machine.throughout_cons (keepsAccount_of_outside rfl rfl rfl) rfl ?_
    refine Machine.throughout_cons (keepsAccount_of_outside rfl rfl rfl) rfl ?_
    refine Machine.throughout_cons ?_ rfl ?_
    · intro topic options queueName waiting
      cases waiting
      exact Or.inl (by decide)
    refine Machine.throughout_cons trivial rfl ?_
    refine Machine.throughout_cons ?_ rfl trivial
    refine ⟨?_, fun topic tag consumerTags position waiting => by cases waiting⟩
    intro topic tag consumerTags waiting
    cases waiting
    exact .of_matches rfl (by decide) (by decide)
  · decide

/-- `unsubscribe` cancels one of two consumers, and the connection rejects the
cancellation of the other one. -/
def rejectedCancellation : List Event :=
  newsSubscription 0 "a" ++ newsSubscription 1 "b" ++
    [.unsubscribe "news" none, .settled 2 .fulfilled, .settled 2 .rejected]

theorem rejectedCancellation_leaves_consumer :
    ¬ ∀ (queueNamePattern : String) (schedule : List Event) (pubSub : PubSub),
      (machine queueNamePattern).run (machine queueNamePattern).initial
          schedule = some pubSub →
        pubSub.Quiescent → ∀ topic, pubSub.RegistryMatches topic := by
  intro matches_
  have matching :=
    matches_ "{topic}" rejectedCancellation _ rfl (by decide) "news" "b"
  have present := matching.mpr ⟨_, .head _, rfl, rfl, rfl⟩
  exact absurd present (JsSet.not_mem_empty "b")

end Amq.PubSub
