import Amq.PubSub.ConsumerRegistry

/-!
# The names of default queues

A queue name that is generated ends with the size of the set of its topic, plus
one, and the number can be read off the name, whatever the topic looks like.
Where the map is right, the number counts the live consumers.  Queues of one
topic therefore keep apart if subscriptions do not overlap and consumers leave
in the reverse order of their names.
-/

namespace Amq.PubSub

open Amq.Transition
open Function

def defaultPattern : String :=
  "{topic}:{consumerNumber}"

/-- The name that is generated while the set of the topic has this size. -/
def numberedName (topic : String) (size : ℕ) : String :=
  StringUtil.substitute defaultPattern
    [("topic", topic), ("consumerNumber", toString (size + 1))]

theorem generateQueueName_eq (pubSub : PubSub) (topic : String) :
    pubSub.generateQueueName defaultPattern topic =
      numberedName topic (pubSub.registered topic).size := by
  unfold generateQueueName numberedName
  dsimp only
  rw [tagsOf_getConsumerTags, tagsOf_found]

/-- The topic is substituted before the number. -/
theorem replaceAll_topic (topic : List Char) :
    StringUtil.replaceAll "topic".toList topic defaultPattern.toList =
      StringUtil.getSubstitution [] "{topic}".toList
          ":{consumerNumber}".toList topic ++
        ':' :: "{consumerNumber}".toList :=
  rfl

/-- The number can be read off the name. -/
theorem numberedName_injective
    {topic : String} {left right : ℕ}
    (same : numberedName topic left = numberedName topic right) :
    left = right := by
  have number_absent : ':' ∉ "consumerNumber".toList := by decide
  have open_number :
      StringUtil.openPlaces "consumerNumber".toList 0
        "{consumerNumber}".toList = [none] := by decide
  have replaced :=
    congrArg String.toList same
  simp only [numberedName, StringUtil.substitute, List.foldl_cons,
    List.foldl_nil, String.toList_ofList, replaceAll_topic] at replaced
  unfold StringUtil.replaceAll at replaced
  rw [StringUtil.replaceFrom_eq_fill _ (StringUtil.dollar_not_mem_toString _),
    StringUtil.replaceFrom_eq_fill _ (StringUtil.dollar_not_mem_toString _)]
    at replaced
  obtain ⟨places, itself⟩ :=
    StringUtil.openPlaces_separated number_absent
      (StringUtil.getSubstitution [] "{topic}".toList ":{consumerNumber}".toList
        topic.toList)
      "{consumerNumber}".toList 0 (Nat.zero_le _)
  rw [itself, open_number] at replaced
  have digits := StringUtil.fill_injective (by simp) replaced
  exact Nat.succ.inj (StringUtil.toString_nat_injective digits)

/-! ## Live consumers -/

/-- `subscribe` generates the name of the queue. -/
def SubscribeOptions.usesDefaultQueue (options : SubscribeOptions) : Bool :=
  options.queueName.getD "" = ""

def Event.usesDefaultQueue : Event → Bool
  | .subscribe _ options => options.usesDefaultQueue
  | _ => true

/-- For each call of `subscribe`, the calls whose consumers were live when the
name of its queue was generated. -/
def recordLive
    (live : ℕ → List ℕ) (pubSub : PubSub) : Event → ℕ → List ℕ
  | .settled index .fulfilled =>
      match pubSub.calls[index]? with
      | some (.assertingExchange topic _) =>
          update live index ((pubSub.liveConsumers topic).map Consumer.call)
      | _ => live
  | _ => live

/-- The instance and the consumers that each queue was named beside. -/
def recordedMachine : Machine (PubSub × (ℕ → List ℕ)) Event :=
  (machine defaultPattern).watched recordLive fun _ => []

/-- Live consumers of one topic have queues of their own. -/
def QueuesDistinct (pubSub : PubSub) : Prop :=
  ∀ left ∈ pubSub.consumers, ∀ right ∈ pubSub.consumers,
    left.isCancelled = false → right.isCancelled = false →
      left.topic = right.topic → left.consumerTag ≠ right.consumerTag →
        left.queue ≠ right.queue

/-- The topic of a call whose queue is about to be named. -/
def Call.namedTopic : Call → Option String
  | .assertingExchange topic _ => some topic
  | _ => none

/-- The topic of a call that waits for its consumer. -/
def Call.consumedTopic : Call → Option String
  | .consuming topic _ _ => some topic
  | _ => none

/-- The step keeps to the order of subscriptions: the map is right about the
topic when a queue is named, and when `consumeQueue` returns for a call, each
live consumer of the topic was there before the queue of this call was named,
and so were all those beside which the queue of that consumer was named. -/
def InTurn (state : PubSub × (ℕ → List ℕ)) : Event → Prop
  | .settled index .fulfilled =>
      ∀ topic ∈ state.1.calls[index]?.bind Call.namedTopic,
        state.1.RegistryMatches topic
  | .consumed index _ =>
      ∀ topic ∈ state.1.calls[index]?.bind Call.consumedTopic,
        ∀ consumer ∈ state.1.liveConsumers topic,
          consumer.call :: state.2 consumer.call ⊆ state.2 index
  | _ => True

instance (state : PubSub × (ℕ → List ℕ)) : DecidablePred (InTurn state)
  | .settled index .fulfilled =>
      inferInstanceAs
        (Decidable
          (∀ topic ∈ state.1.calls[index]?.bind Call.namedTopic,
            state.1.RegistryMatches topic))
  | .settled _ .rejected => isTrue trivial
  | .consumed index _ =>
      inferInstanceAs
        (Decidable
          (∀ topic ∈ state.1.calls[index]?.bind Call.consumedTopic,
            ∀ consumer ∈ state.1.liveConsumers topic,
              consumer.call :: state.2 consumer.call ⊆ state.2 index))
  | .subscribe _ _ => isTrue trivial
  | .unsubscribe _ _ => isTrue trivial

/-- The name of the queue counts the consumers that were live. -/
def CallNamed (live : ℕ → List ℕ) (index : ℕ) : Call → Prop
  | .assertingExchange _ options => options.usesDefaultQueue = true
  | .assertingQueue topic _ queueName =>
      queueName = numberedName topic (live index).length
  | .bindingQueue topic _ queueName =>
      queueName = numberedName topic (live index).length
  | .consuming topic _ queueName =>
      queueName = numberedName topic (live index).length
  | _ => True

/-- The names of the queues of calls and consumers count consumers that were
live, none of which is that of the call itself. -/
structure Named (pubSub : PubSub) (live : ℕ → List ℕ) : Prop where
  calls :
    ∀ (index : ℕ) (call : Call), pubSub.calls[index]? = some call →
      CallNamed live index call
  consumers :
    ∀ consumer ∈ pubSub.consumers,
      consumer.queue = numberedName consumer.topic (live consumer.call).length
  resolved :
    ∀ consumer ∈ pubSub.consumers,
      ∃ consumerTag,
        pubSub.calls[consumer.call]? = some (.resolved consumerTag)
  distinct : (pubSub.consumers.map Consumer.call).Nodup
  apart : ∀ index, (index :: live index).Nodup

/-- The call of a consumer is over. -/
theorem Named.call_ne
    {pubSub : PubSub} {live : ℕ → List ℕ} (named : Named pubSub live)
    {index : ℕ} {call : Call} (waiting : pubSub.calls[index]? = some call)
    (inProgress : call.inProgress = true) {consumer : Consumer}
    (member : consumer ∈ pubSub.consumers) : consumer.call ≠ index := by
  intro same
  obtain ⟨tag, present⟩ := named.resolved consumer member
  rw [same, waiting] at present
  cases present
  cases inProgress

theorem Named.of_eq
    {pubSub next : PubSub} {live : ℕ → List ℕ} (named : Named pubSub live)
    (calls : next.calls = pubSub.calls)
    (consumers : next.consumers = pubSub.consumers) : Named next live where
  calls := by
    rw [calls]
    exact named.calls
  consumers := by
    rw [consumers]
    exact named.consumers
  resolved := by
    rw [calls, consumers]
    exact named.resolved
  distinct := by
    rw [consumers]
    exact named.distinct
  apart := named.apart

/-- A call moves on. -/
theorem Named.setCall
    {pubSub : PubSub} {live : ℕ → List ℕ} (named : Named pubSub live)
    {index : ℕ} {call new : Call} (waiting : pubSub.calls[index]? = some call)
    (inProgress : call.inProgress = true) (itsName : CallNamed live index new) :
    Named (pubSub.setCall index new) live where
  calls := by
    intro place other present
    change (pubSub.calls.set index new)[place]? = some other at present
    rcases set_cases present with ⟨same, itself⟩ | ⟨_, earlier⟩
    · subst same itself
      exact itsName
    · exact named.calls place other earlier
  consumers := named.consumers
  resolved := by
    intro consumer member
    have different := named.call_ne waiting inProgress member
    obtain ⟨tag, present⟩ := named.resolved consumer member
    refine ⟨tag, ?_⟩
    change (pubSub.calls.set index new)[consumer.call]? = _
    rw [List.getElem?_set_ne (Ne.symm different)]
    exact present
  distinct := named.distinct
  apart := named.apart

theorem Named.appendCall
    {pubSub : PubSub} {live : ℕ → List ℕ} (named : Named pubSub live)
    {call : Call} (itsName : ∀ index, CallNamed live index call) :
    Named { pubSub with calls := pubSub.calls ++ [call] } live where
  calls := by
    intro index other present
    rw [List.getElem?_append] at present
    split at present
    · exact named.calls index other present
    · rw [List.mem_singleton.mp (List.mem_of_getElem? present)]
      exact itsName index
  consumers := named.consumers
  resolved := by
    intro consumer member
    obtain ⟨tag, present⟩ := named.resolved consumer member
    have inside := (List.getElem?_eq_some_iff.mp present).1
    refine ⟨tag, ?_⟩
    rw [List.getElem?_append_left inside]
    exact present
  distinct := named.distinct
  apart := named.apart

theorem mem_cancelConsumer
    {pubSub : PubSub} {cancelled : String} {consumer : Consumer}
    (member : consumer ∈ (pubSub.cancelConsumer cancelled).consumers) :
    ∃ earlier ∈ pubSub.consumers,
      consumer = earlier ∨ consumer = { earlier with isCancelled := true } := by
  obtain ⟨earlier, present, same⟩ := List.mem_map.mp member
  refine ⟨earlier, present, ?_⟩
  split at same
  · exact Or.inr same.symm
  · exact Or.inl same.symm

theorem Named.cancelConsumer
    {pubSub : PubSub} {live : ℕ → List ℕ} (named : Named pubSub live)
    (cancelled : String) : Named (pubSub.cancelConsumer cancelled) live where
  calls := named.calls
  consumers := by
    intro consumer member
    obtain ⟨earlier, present, either⟩ := mem_cancelConsumer member
    rcases either with same | same <;> rw [same] <;>
      exact named.consumers earlier present
  resolved := by
    intro consumer member
    obtain ⟨earlier, present, either⟩ := mem_cancelConsumer member
    rcases either with same | same <;> rw [same] <;>
      exact named.resolved earlier present
  distinct := by
    have sameCalls :
        (pubSub.cancelConsumer cancelled).consumers.map Consumer.call =
          pubSub.consumers.map Consumer.call := by
      simp only [PubSub.cancelConsumer, List.map_map, List.map_inj_left,
        comp_apply]
      intro consumer _
      split <;> rfl
    rw [sameCalls]
    exact named.distinct
  apart := named.apart

/-- Where the map is right, the size of the set is the number of the live
consumers. -/
theorem size_registered
    {pubSub : PubSub} {topic : String}
    (unique : (pubSub.consumers.map Consumer.consumerTag).Nodup)
    (right_ : pubSub.RegistryMatches topic) :
    (pubSub.registered topic).size = (pubSub.liveConsumers topic).length := by
  have tags :
      ((pubSub.liveConsumers topic).map Consumer.consumerTag).Nodup :=
    unique.sublist (List.filter_sublist.map Consumer.consumerTag)
  have same :
      (pubSub.registered topic).values.Perm
        ((pubSub.liveConsumers topic).map Consumer.consumerTag) := by
    refine (List.perm_ext_iff_of_nodup (pubSub.registered topic).nodup tags).mpr ?_
    intro tag
    exact (right_ tag).trans alive_iff
  have lengths := same.length_eq
  rw [List.length_map] at lengths
  exact lengths

/-- The consumers that are recorded are not those of calls in progress. -/
theorem Named.nodup_live
    {pubSub : PubSub} {live : ℕ → List ℕ} (named : Named pubSub live)
    {index : ℕ} {call : Call} (waiting : pubSub.calls[index]? = some call)
    (inProgress : call.inProgress = true) (topic : String) :
    (index :: (pubSub.liveConsumers topic).map Consumer.call).Nodup := by
  refine List.nodup_cons.mpr ⟨?_, ?_⟩
  · intro itself
    obtain ⟨consumer, member, same⟩ := List.mem_map.mp itself
    have present := (List.mem_filter.mp member).1
    exact named.call_ne waiting inProgress present same
  · exact named.distinct.sublist (List.filter_sublist.map Consumer.call)

/-- The name of a queue is generated. -/
theorem Named.generate
    {pubSub : PubSub} {live : ℕ → List ℕ} (named : Named pubSub live)
    (unique : (pubSub.consumers.map Consumer.consumerTag).Nodup)
    {index : ℕ} {topic : String} {options : SubscribeOptions}
    (waiting : pubSub.calls[index]? = some (.assertingExchange topic options))
    (right_ : pubSub.RegistryMatches topic) :
    Named
      (pubSub.setCall index
        (.assertingQueue topic options
          (pubSub.chooseQueueName defaultPattern topic options)))
      (update live index
        ((pubSub.liveConsumers topic).map Consumer.call)) := by
  have isDefault : options.usesDefaultQueue = true :=
    named.calls index _ waiting
  have itsName :
      pubSub.chooseQueueName defaultPattern topic options =
        numberedName topic
          ((pubSub.liveConsumers topic).map Consumer.call).length := by
    unfold chooseQueueName
    unfold SubscribeOptions.usesDefaultQueue at isDefault
    rw [List.length_map, ← size_registered unique right_,
      ← generateQueueName_eq]
    split
    · rename_i queueName given
      rw [given] at isDefault
      exact if_pos (of_decide_eq_true isDefault)
    · rfl
  have recorded :
      Named pubSub
        (update live index
          ((pubSub.liveConsumers topic).map Consumer.call)) := by
    refine ⟨?_, ?_, named.resolved, named.distinct, ?_⟩
    · intro place call present
      by_cases same : place = index
      · subst same
        cases waiting.symm.trans present
        exact isDefault
      · have itsOwn := named.calls place call present
        cases call with
        | assertingQueue => simpa only [CallNamed, update_of_ne same] using itsOwn
        | bindingQueue => simpa only [CallNamed, update_of_ne same] using itsOwn
        | consuming => simpa only [CallNamed, update_of_ne same] using itsOwn
        | _ => exact itsOwn
    · intro consumer member
      rw [update_of_ne (named.call_ne waiting rfl member)]
      exact named.consumers consumer member
    · intro place
      by_cases same : place = index
      · rw [same, update_self]
        exact named.nodup_live waiting rfl topic
      · rw [update_of_ne same]
        exact named.apart place
  refine recorded.setCall waiting rfl ?_
  change _ = numberedName topic (update live index _ index).length
  rw [update_self]
  exact itsName

/-- A consumer is added under the name that its call has been given. -/
theorem Named.consume
    {pubSub : PubSub} {live : ℕ → List ℕ} (named : Named pubSub live)
    {index : ℕ} {topic queueName : String} {options : SubscribeOptions}
    (waiting :
      pubSub.calls[index]? = some (.consuming topic options queueName))
    (consumerTag : String) :
    Named
      ({ pubSub.registerConsumer topic consumerTag with
          consumers :=
            ⟨index, topic, queueName, consumerTag, false⟩ ::
              pubSub.consumers }.setCall index
        (.resolved (some consumerTag)))
      live := by
  have sameCalls :
      (pubSub.registerConsumer topic consumerTag).calls = pubSub.calls :=
    calls_getConsumerTags pubSub topic
  have settled :
      Named (pubSub.setCall index (.resolved (some consumerTag))) live :=
    named.setCall waiting rfl trivial
  refine ⟨?_, ?_, ?_, ?_, named.apart⟩
  · change ∀ place call,
      ((pubSub.registerConsumer topic consumerTag).calls.set index
        (.resolved (some consumerTag)))[place]? = some call → _
    rw [sameCalls]
    exact settled.calls
  · intro consumer member
    rcases List.mem_cons.mp member with new | earlier
    · rw [new]
      exact named.calls index _ waiting
    · exact named.consumers consumer earlier
  · intro consumer member
    change ∃ tag,
      ((pubSub.registerConsumer topic consumerTag).calls.set index
        (.resolved (some consumerTag)))[consumer.call]? = some (.resolved tag)
    rw [sameCalls]
    rcases List.mem_cons.mp member with new | earlier
    · rw [new]
      exact ⟨some consumerTag,
        List.getElem?_set_self (List.getElem?_eq_some_iff.mp waiting).1⟩
    · exact settled.resolved consumer earlier
  · refine List.nodup_cons.mpr ⟨?_, named.distinct⟩
    intro itself
    obtain ⟨consumer, member, same⟩ := List.mem_map.mp itself
    exact named.call_ne waiting rfl member same

theorem callNamed_cancelFrom
    (live : ℕ → List ℕ) (index : ℕ) (pubSub : PubSub) (topic : String)
    (consumerTags position : ℕ) :
    CallNamed live index (pubSub.cancelFrom topic consumerTags position) := by
  unfold cancelFrom
  split <;> trivial

/-- Without names of its users every queue has the name of a number of live
consumers. -/
theorem named_steps
    {pubSub next : PubSub} {live : ℕ → List ℕ} {event : Event}
    (named : Named pubSub live) (keeps : pubSub.KeepsTopics)
    (isDefault : event.usesDefaultQueue = true)
    (inTurn : InTurn (pubSub, live) event)
    (stepped : Steps defaultPattern pubSub event next) :
    Named next (recordLive live pubSub event) := by
  cases stepped with
  | subscribing topic options => exact named.appendCall fun _ => isDefault
  | unsubscribing topic consumerTag =>
      have found : Named (pubSub.getConsumerTags topic).1 live :=
        named.of_eq (calls_getConsumerTags pubSub topic)
          (consumers_getConsumerTags pubSub topic)
      refine found.appendCall fun index => ?_
      split
      · trivial
      · exact callNamed_cancelFrom live index _ topic _ 0
  | exchangeAsserted index topic options waiting =>
      have matching : pubSub.RegistryMatches topic := by
        refine inTurn topic ?_
        rw [waiting]
        rfl
      simp only [recordLive, waiting]
      exact named.generate keeps.unique waiting matching
  | queueAsserted index topic queueName options waiting =>
      have itsName :=
        named.calls index (.assertingQueue topic options queueName) waiting
      simp only [recordLive, waiting]
      exact named.setCall waiting rfl itsName
  | queueBound index topic queueName options waiting =>
      have itsName :=
        named.calls index (.bindingQueue topic options queueName) waiting
      simp only [recordLive, waiting]
      exact named.setCall waiting rfl itsName
  | consumed index topic queueName consumerTag options waiting fresh =>
      exact named.consume waiting consumerTag
  | cancelled index topic consumerTag consumerTags waiting =>
      simp only [recordLive, waiting]
      have deregistered :
          Named
            ((pubSub.cancelConsumer consumerTag).deregisterConsumer topic
              consumerTag consumerTags) live :=
        (named.cancelConsumer consumerTag).of_eq rfl rfl
      exact deregistered.setCall waiting rfl trivial
  | cancelledOne index topic consumerTag consumerTags position waiting =>
      simp only [recordLive, waiting]
      have deleted :
          Named ((pubSub.cancelConsumer consumerTag).deleteTopic topic) live :=
        (named.cancelConsumer consumerTag).of_eq rfl rfl
      exact deleted.setCall waiting rfl
        (callNamed_cancelFrom live index _ topic consumerTags position)
  | failed index call waiting inProgress =>
      exact named.setCall waiting inProgress trivial

theorem named_create : Named create fun _ => [] where
  calls := by
    intro index call present
    cases present
  consumers := by
    intro consumer member
    cases member
  resolved := by
    intro consumer member
    cases member
  distinct := List.nodup_nil
  apart := List.nodup_singleton

/-! ## Queues of live consumers -/

/-- A step that adds no live consumer. -/
theorem QueuesDistinct.mono
    {pubSub next : PubSub} (distinct : pubSub.QueuesDistinct)
    (consumers :
      ∀ consumer ∈ next.consumers, consumer.isCancelled = false →
        consumer ∈ pubSub.consumers) :
    next.QueuesDistinct := by
  intro left leftMember right rightMember leftLive rightLive
  exact distinct left (consumers left leftMember leftLive) right
    (consumers right rightMember rightLive) leftLive rightLive

theorem QueuesDistinct.cancelConsumer
    {pubSub : PubSub} (distinct : pubSub.QueuesDistinct) (cancelled : String) :
    (pubSub.cancelConsumer cancelled).QueuesDistinct := by
  refine distinct.mono ?_
  intro consumer member live
  obtain ⟨earlier, present, either⟩ := mem_cancelConsumer member
  rcases either with same | same
  · rw [same]
    exact present
  · rw [same] at live
    cases live

/-- A consumer is added. -/
theorem QueuesDistinct.consume
    {pubSub next : PubSub} {consumer : Consumer}
    (distinct : pubSub.QueuesDistinct)
    (consumers : next.consumers = consumer :: pubSub.consumers)
    (apart :
      ∀ other ∈ pubSub.consumers, other.isCancelled = false →
        other.topic = consumer.topic → other.queue ≠ consumer.queue) :
    next.QueuesDistinct := by
  unfold QueuesDistinct
  rw [consumers]
  intro left leftMember right rightMember leftLive rightLive sameTopic different
  rcases List.mem_cons.mp leftMember with leftNew | leftOld
  · rcases List.mem_cons.mp rightMember with rightNew | rightOld
    · rw [leftNew, rightNew] at different
      exact absurd rfl different
    · rw [leftNew] at sameTopic ⊢
      exact Ne.symm (apart right rightOld rightLive sameTopic.symm)
  · rcases List.mem_cons.mp rightMember with rightNew | rightOld
    · rw [rightNew] at sameTopic ⊢
      exact apart left leftOld leftLive sameTopic
    · exact distinct left leftOld right rightOld leftLive rightLive sameTopic
        different

/-- A queue that is named beside a consumer, and beside all that the queue of
the consumer was named beside, gets a higher number. -/
theorem Named.queue_ne
    {pubSub : PubSub} {live : ℕ → List ℕ} (named : Named pubSub live)
    {index : ℕ} {topic queueName : String} {options : SubscribeOptions}
    (waiting :
      pubSub.calls[index]? = some (.consuming topic options queueName))
    {consumer : Consumer} (member : consumer ∈ pubSub.consumers)
    (sameTopic : consumer.topic = topic)
    (inTurn : consumer.call :: live consumer.call ⊆ live index) :
    consumer.queue ≠ queueName := by
  have itsName :=
    named.calls index (.consuming topic options queueName) waiting
  have otherName := named.consumers consumer member
  have more := (named.apart consumer.call).length_le_of_subset inTurn
  rw [List.length_cons] at more
  intro same
  rw [otherName, itsName, sameTopic] at same
  exact absurd (numberedName_injective same) (Nat.ne_of_lt more)

theorem queuesDistinct_steps
    {pubSub next : PubSub} {live : ℕ → List ℕ} {event : Event}
    (named : Named pubSub live) (distinct : pubSub.QueuesDistinct)
    (inTurn : InTurn (pubSub, live) event)
    (stepped : Steps defaultPattern pubSub event next) :
    next.QueuesDistinct := by
  cases stepped with
  | consumed index topic queueName consumerTag options waiting fresh =>
      have itsTopic :
          topic ∈ pubSub.calls[index]?.bind Call.consumedTopic := by
        rw [waiting]
        rfl
      refine distinct.consume rfl ?_
      intro consumer member isLive sameTopic
      have counted : consumer ∈ pubSub.liveConsumers topic :=
        mem_liveConsumers.mpr ⟨member, isLive, sameTopic⟩
      exact named.queue_ne waiting member sameTopic
        (inTurn topic itsTopic consumer counted)
  | unsubscribing topic consumerTag =>
      refine distinct.mono ?_
      intro consumer member _
      have same := consumers_getConsumerTags pubSub topic
      exact same ▸ member
  | cancelled index topic consumerTag consumerTags waiting =>
      exact distinct.cancelConsumer consumerTag
  | cancelledOne index topic consumerTag consumerTags position waiting =>
      exact distinct.cancelConsumer consumerTag
  | _ => exact distinct.mono fun _ member _ => member

/-- Live consumers of one topic have queues of their own as long as the steps
keep to the order of subscriptions. -/
theorem default_queues_distinct
    (schedule : List Event) (pubSub : PubSub)
    (defaults : ∀ event ∈ schedule, event.usesDefaultQueue = true)
    (inTurn :
      recordedMachine.Throughout InTurn recordedMachine.initial schedule)
    (execution :
      (machine defaultPattern).run (machine defaultPattern).initial schedule =
        some pubSub) :
    pubSub.QueuesDistinct := by
  obtain ⟨live, recordedRun⟩ :=
    Machine.exists_run_watched recordLive (fun _ => []) execution fun _ => []
  have isDefault :
      recordedMachine.Throughout (fun _ event => event.usesDefaultQueue = true)
        recordedMachine.initial schedule :=
    (Machine.throughout_events_iff recordedRun).mpr defaults
  have preserved :
      recordedMachine.PreservedUnder
        (fun state event =>
          event.usesDefaultQueue = true ∧ InTurn state event)
        fun state =>
          state.1.KeepsTopics ∧ Named state.1 state.2 ∧
            state.1.QueuesDistinct := by
    rintro state event next ⟨keeps, named, distinct⟩ ⟨itsDefault, itsTurn⟩ taken
    obtain ⟨taken, recorded⟩ := Machine.watched_step_iff.mp taken
    have stepped := steps_of_step taken
    refine ⟨keepsTopics_steps keeps stepped, ?_,
      queuesDistinct_steps named distinct itsTurn stepped⟩
    rw [recorded]
    exact named_steps named keeps itsDefault itsTurn stepped
  have distinct : create.QueuesDistinct := by
    intro left member
    cases member
  exact (Machine.run_invariant_under preserved
    ⟨keepsTopics_create, named_create, distinct⟩
    (isDefault.and inTurn) recordedRun).2.2

/-! ## Concrete runs -/

def defaultOptions : SubscribeOptions where
  queueName := none
  exchangeType := none
  routingKey := none
  singleActiveConsumer := none
  autoDeleteQueue := none

/-- A call of `subscribe` without options, up to the consumer tag. -/
def defaultSubscription (call : ℕ) (consumerTag : String) : List Event :=
  [.subscribe "news" defaultOptions, .settled call .fulfilled,
    .settled call .fulfilled, .settled call .fulfilled,
    .consumed call consumerTag]

/-- The second of two consumers is cancelled and a third one is added. -/
def reusedLast : List Event :=
  defaultSubscription 0 "a" ++ defaultSubscription 1 "b" ++
    [.unsubscribe "news" (some "b"), .settled 2 .fulfilled] ++
    defaultSubscription 3 "c"

theorem default_queues_distinct_reusedLast :
    ∃ pubSub : PubSub,
      (machine defaultPattern).run (machine defaultPattern).initial reusedLast =
        some pubSub ∧
      pubSub.consumers.map Consumer.queue = ["news:2", "news:2", "news:1"] ∧
      (pubSub.liveConsumers "news").map Consumer.consumerTag = ["c", "a"] ∧
      pubSub.QueuesDistinct :=
  ⟨_, rfl, rfl, rfl,
    default_queues_distinct reusedLast _ (by decide) (by decide) rfl⟩

/-- The first of two consumers is cancelled and a third one is added. -/
def reusedNumber : List Event :=
  defaultSubscription 0 "a" ++ defaultSubscription 1 "b" ++
    [.unsubscribe "news" (some "a"), .settled 2 .fulfilled] ++
    defaultSubscription 3 "c"

theorem reusedNumber_shares_queue :
    ¬ ∀ (schedule : List Event) (pubSub : PubSub),
      (∀ event ∈ schedule, event.usesDefaultQueue = true) →
        (machine defaultPattern).run (machine defaultPattern).initial schedule =
            some pubSub →
          pubSub.QueuesDistinct := by
  intro distinct
  have apart := distinct reusedNumber _ (by decide) rfl
  exact apart _ (.head _) _ (.tail _ (.head _)) rfl rfl rfl (by decide) rfl

end Amq.PubSub
