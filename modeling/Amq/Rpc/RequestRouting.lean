import Amq.Rpc.RpcClient
import Mathlib.Data.List.Nodup

/-!
# Requests and their senders

There is one sender for each queue, its calls are the requests for its queue in
their order, and what it sends belongs to different ones of them.  Once the
client is disposed of, nothing is sent any longer and every call ends.
-/


namespace Amq.Rpc.RpcClient

open Amq.Transition Function

variable {κ Buffer V : Type} [DecidableEq κ]
variable {config : RpcClientConfig κ Buffer V}
variable {client next : RpcClient κ Buffer V}

/-! ## What a step does to the senders -/

/-- A sender takes one step at most, which is no request. -/
def SenderStep
    (config : RpcClientConfig κ Buffer V) (place : ℕ)
    (entry : String × CommandSender κ Buffer V)
    (sender : CommandSender κ Buffer V) : Prop :=
  sender = entry.2 ∨
    ∃ event, CommandSender.requestsOf event = [] ∧
      entry.2.step (config.commandSender place entry.1) event = some sender

/-- Every sender keeps its place and its queue. -/
structure SendersStep
    (config : RpcClientConfig κ Buffer V) (client next : RpcClient κ Buffer V) :
    Prop where
  length : next.commandSenders.length = client.commandSenders.length
  senders :
    ∀ (place : ℕ) (entry : String × CommandSender κ Buffer V),
      client.commandSenders[place]? = some entry →
        ∃ sender, next.commandSenders[place]? = some (entry.1, sender) ∧
          SenderStep config place entry sender

theorem sendersStep_of_same
    (same : next.commandSenders = client.commandSenders) :
    SendersStep config client next := by
  refine ⟨congrArg List.length same, ?_⟩
  intro place entry present
  exact ⟨entry.2, same ▸ present, Or.inl rfl⟩

theorem sendersStep_emitted
    {listener : CommandSender κ Buffer V → CommandSender κ Buffer V}
    (event : CommandSenderEvent κ Buffer V)
    (silent : CommandSender.requestsOf event = [])
    (listens :
      ∀ (config : CommandSenderConfig κ Buffer V)
        (sender : CommandSender κ Buffer V),
        sender.step config event = some (listener sender)) :
    SendersStep config client (client.emitted listener) := by
  refine ⟨List.length_map _, ?_⟩
  intro place entry present
  refine ⟨listener entry.2, ?_, Or.inr ⟨event, silent, listens _ _⟩⟩
  simp [emitted, present]

theorem sendersStep_disposeAll :
    SendersStep config client
      ({ client with isDisposed := true } : RpcClient κ Buffer V).disposeAll := by
  refine ⟨List.length_mapIdx, ?_⟩
  intro place entry present
  by_cases known :
      (entry.1, place) ∈ client.commandSenderManager.commandSenders
  · refine ⟨entry.2.dispose, ?_, Or.inr ⟨.dispose, rfl, rfl⟩⟩
    simp [disposeAll, present, known]
  · refine ⟨entry.2, ?_, Or.inl rfl⟩
    simp [disposeAll, present, known]

omit [DecidableEq κ] in
theorem requestsOf_own
    {event : CommandSenderEvent κ Buffer V} (own : event.isOwn = true) :
    CommandSender.requestsOf event = [] := by
  cases event with
  | sendCommand commandName args => cases own
  | _ => rfl

theorem sendersStep_set
    {place : ℕ} {queue : String} {sender following : CommandSender κ Buffer V}
    (present : client.commandSenders[place]? = some (queue, sender))
    (stepped : SenderStep config place (queue, sender) following) :
    SendersStep config client
      { client with
        commandSenders := client.commandSenders.set place (queue, following) } := by
  refine ⟨List.length_set, ?_⟩
  intro other entry placed
  by_cases same : other = place
  · subst same
    have itself : entry = (queue, sender) :=
      Option.some.inj (placed.symm.trans present)
    subst itself
    have inside := (List.getElem?_eq_some_iff.mp present).1
    exact ⟨following, List.getElem?_set_self inside, stepped⟩
  · refine ⟨entry.2, ?_, Or.inl rfl⟩
    rw [List.getElem?_set_ne (Ne.symm same)]
    exact placed

/-- What a step of the client does. -/
inductive Moves
    (config : RpcClientConfig κ Buffer V) (client : RpcClient κ Buffer V) :
    RpcClientEvent κ Buffer V → RpcClient κ Buffer V → Prop
  | refuses (queue commandName : StringArgument) (args : V) (message : String)
      (disposed :
        client.isDisposed = true → message = disposedMessage commandName) :
      Moves config client (.executeRemoteCommand queue commandName args)
        { client with refusals := client.refusals ++ [message] }
  | passes (queue commandName : String) (args : V)
      (active : client.isDisposed = false) :
      Moves config client
        (.executeRemoteCommand (.string queue) (.string commandName) args)
        ((client.commandSenderFor config queue).1.sendCommand
          (client.commandSenderFor config queue).2 commandName args)
  | disposes (active : client.isDisposed = false) :
      Moves config client .dispose { client with isDisposed := true }.disposeAll
  | senders {event : RpcClientEvent κ Buffer V} {next : RpcClient κ Buffer V}
      (isDisposed : next.isDisposed = client.isDisposed)
      (commandSenderManager :
        next.commandSenderManager = client.commandSenderManager)
      (requests : next.requests = client.requests)
      (refusals : next.refusals = client.refusals)
      (noRequest : ∀ queue commandName args,
        event ≠ .executeRemoteCommand queue commandName args)
      (stepped : SendersStep config client next) :
      Moves config client event next

theorem nonEmpty_eq_some
    {argument : StringArgument} {value : String}
    (checked : argument.nonEmpty? = some value) : argument = .string value := by
  cases argument with
  | string own =>
      simp only [StringArgument.nonEmpty?] at checked
      split at checked
      · cases checked
      · rw [Option.some.inj checked]
  | other asString => cases checked

theorem moves_of_executeRemoteCommand
    {queue commandName : StringArgument} {args : V}
    (stepped :
      client.step config (.executeRemoteCommand queue commandName args) =
        some next) :
    Moves config client (.executeRemoteCommand queue commandName args) next := by
  simp only [step, executeRemoteCommand] at stepped
  by_cases disposed : client.isDisposed = true
  · rw [if_pos disposed] at stepped
    cases stepped
    exact .refuses queue commandName args _ fun _ => rfl
  · rw [if_neg disposed] at stepped
    cases itsQueue : queue.nonEmpty? with
    | none =>
        rw [itsQueue] at stepped
        cases stepped
        exact .refuses queue commandName args _ fun still => absurd still disposed
    | some ownQueue =>
        rw [itsQueue] at stepped
        cases itsName : commandName.nonEmpty? with
        | none =>
            rw [itsName] at stepped
            cases stepped
            exact .refuses queue commandName args _
              fun still => absurd still disposed
        | some ownName =>
            rw [itsName] at stepped
            cases stepped
            rw [nonEmpty_eq_some itsQueue, nonEmpty_eq_some itsName]
            exact .passes ownQueue ownName args
              (Bool.eq_false_of_not_eq_true disposed)

theorem moves_of_step
    {event : RpcClientEvent κ Buffer V}
    (stepped : client.step config event = some next) :
    Moves config client event next := by
  cases event with
  | executeRemoteCommand queue commandName args =>
      exact moves_of_executeRemoteCommand stepped
  | dispose =>
      cases stepped
      by_cases disposed : client.isDisposed = true
      · rw [dispose, if_pos disposed]
        exact .senders rfl rfl rfl rfl (by simp) (sendersStep_of_same rfl)
      · rw [dispose, if_neg disposed]
        exact .disposes (Bool.eq_false_of_not_eq_true disposed)
  | commandSender place event =>
      simp only [step, stepSender] at stepped
      split at stepped
      · cases stepped
      · rename_i queue sender present
        split at stepped
        · rename_i own
          obtain ⟨following, taken, rfl⟩ := Option.map_eq_some_iff.mp stepped
          exact .senders rfl rfl rfl rfl (by simp)
            (sendersStep_set present
              (Or.inr ⟨event, requestsOf_own own, taken⟩))
        · cases stepped
  | amqpReconnected =>
      cases stepped
      exact .senders rfl rfl rfl rfl (by simp)
        (sendersStep_emitted .amqpReconnected rfl fun _ _ => rfl)
  | amqpChannelRecreated =>
      cases stepped
      exact .senders rfl rfl rfl rfl (by simp)
        (sendersStep_emitted .amqpChannelRecreated rfl fun _ _ => rfl)
  | commandMessageReturn correlationId =>
      cases stepped
      exact .senders rfl rfl rfl rfl (by simp)
        (sendersStep_emitted (.commandMessageReturn correlationId) rfl
          fun _ _ => rfl)

/-! ## What every sender keeps -/

/-- `property` holds of every sender, at its place and for its queue. -/
def AllSenders
    (property : ℕ → String → CommandSender κ Buffer V → Prop)
    (client : RpcClient κ Buffer V) : Prop :=
  ∀ (place : ℕ) (entry : String × CommandSender κ Buffer V),
    client.commandSenders[place]? = some entry →
      property place entry.1 entry.2

section AllSenders

variable {property : ℕ → String → CommandSender κ Buffer V → Prop}

theorem AllSenders.sendersStep
    (all : client.AllSenders property)
    (kept :
      ∀ place queue sender following event,
        property place queue sender →
          CommandSender.step (config.commandSender place queue) sender event =
              some following →
            property place queue following)
    (stepped : SendersStep config client next) : next.AllSenders property := by
  intro place entry present
  have inside : place < client.commandSenders.length := by
    rw [← stepped.length]
    exact (List.getElem?_eq_some_iff.mp present).1
  obtain ⟨sender, placed, moved⟩ :=
    stepped.senders place _ (List.getElem?_eq_getElem inside)
  have itself := Option.some.inj (present.symm.trans placed)
  subst itself
  have before := all place _ (List.getElem?_eq_getElem inside)
  rcases moved with same | ⟨event, _, taken⟩
  · exact same ▸ before
  · exact kept place _ _ _ event before taken

omit [DecidableEq κ] in
theorem AllSenders.commandSenderFor
    (all : client.AllSenders property)
    (created :
      ∀ place queue,
        property place queue (.create (config.commandSender place queue)))
    (queue : String) :
    (client.commandSenderFor config queue).1.AllSenders property := by
  unfold RpcClient.commandSenderFor
  split
  · exact all
  · exact forall_concat
      (fun place (entry : String × CommandSender κ Buffer V) =>
        property place entry.1 entry.2)
      all (created _ _)

theorem AllSenders.sendCommand
    (all : client.AllSenders property)
    (kept :
      ∀ place queue sender following event,
        property place queue sender →
          CommandSender.step (config.commandSender place queue) sender event =
              some following →
            property place queue following)
    (place : ℕ) (commandName : String) (args : V) :
    (client.sendCommand place commandName args).AllSenders property := by
  unfold RpcClient.sendCommand
  split
  · exact all
  · rename_i queue sender present
    refine forall_set
      (fun place (entry : String × CommandSender κ Buffer V) =>
        property place entry.1 entry.2)
      all ?_
    exact kept place queue sender _ (.sendCommand commandName args)
      (all place _ present) rfl

/-- What a new sender meets and each of its steps keeps holds of every sender. -/
theorem allSenders_run
    (created :
      ∀ place queue,
        property place queue (.create (config.commandSender place queue)))
    (kept :
      ∀ place queue sender following event,
        property place queue sender →
          CommandSender.step (config.commandSender place queue) sender event =
              some following →
            property place queue following)
    {schedule : List (RpcClientEvent κ Buffer V)}
    (execution : (machine config).run create schedule = some client) :
    client.AllSenders property := by
  have preserved : (machine config).Preserved (AllSenders property) := by
    intro state event following all stepped
    cases moves_of_step stepped with
    | refuses queue commandName args message disposed => exact all
    | passes queue commandName args active =>
        exact (all.commandSenderFor created queue).sendCommand kept _ _ _
    | disposes active =>
        exact all.sendersStep kept sendersStep_disposeAll
    | senders _ _ _ _ _ stepped => exact all.sendersStep kept stepped
  have initially : (create : RpcClient κ Buffer V).AllSenders property := by
    intro place entry present
    cases present
  exact Machine.run_invariant preserved initially execution

end AllSenders

/-! ## One sender for each queue -/

/-- The requests for a queue that have been passed on, in their order. -/
def requestsTo (client : RpcClient κ Buffer V) (queue : String) :
    List (String × V) :=
  (client.requests.filter (·.queue = queue)).map fun request =>
    (request.commandName, request.args)

/-- The queues of the senders. -/
def queues (client : RpcClient κ Buffer V) : List String :=
  client.commandSenders.map Prod.fst

structure Routed (client : RpcClient κ Buffer V) : Prop where
  distinct : client.queues.Nodup
  known :
    ∀ entry ∈ client.commandSenderManager.commandSenders,
      ∃ sender, client.commandSenders[entry.2]? = some (entry.1, sender)
  complete :
    client.isDisposed = false →
      ∀ (place : ℕ) (entry : String × CommandSender κ Buffer V),
        client.commandSenders[place]? = some entry →
          (entry.1, place) ∈ client.commandSenderManager.commandSenders
  requests :
    ∀ (place : ℕ) (entry : String × CommandSender κ Buffer V),
      client.commandSenders[place]? = some entry →
        entry.2.calls.map SendCall.request = client.requestsTo entry.1
  covered : ∀ request ∈ client.requests, request.queue ∈ client.queues
  disposed :
    client.isDisposed = true →
      ∀ (place : ℕ) (entry : String × CommandSender κ Buffer V),
        client.commandSenders[place]? = some entry → entry.2.isDisposed = true

omit [DecidableEq κ] in
theorem routed_create : (create : RpcClient κ Buffer V).Routed where
  distinct := List.nodup_nil
  known entry member := by cases member
  complete _ place entry present := by cases present
  requests place entry present := by cases present
  covered request member := by cases member
  disposed stopped := by cases stopped

theorem queues_of_sendersStep (stepped : SendersStep config client next) :
    next.queues = client.queues := by
  apply List.ext_getElem?
  intro place
  simp only [queues, List.getElem?_map]
  cases present : client.commandSenders[place]? with
  | none =>
      have outside := List.getElem?_eq_none_iff.mp present
      rw [← stepped.length] at outside
      rw [List.getElem?_eq_none_iff.mpr outside]
  | some entry =>
      obtain ⟨sender, placed, _⟩ := stepped.senders place entry present
      rw [placed]
      rfl

theorem SenderStep.requests
    {place : ℕ} {entry : String × CommandSender κ Buffer V}
    {sender : CommandSender κ Buffer V}
    (moved : SenderStep config place entry sender) :
    sender.calls.map SendCall.request =
      entry.2.calls.map SendCall.request := by
  rcases moved with rfl | ⟨event, silent, taken⟩
  · rfl
  · rw [CommandSender.requests_of_step taken, silent, List.append_nil]

/-- Nothing revives a sender. -/
theorem isDisposed_of_step
    {config : CommandSenderConfig κ Buffer V}
    {sender following : CommandSender κ Buffer V}
    {event : CommandSenderEvent κ Buffer V}
    (disposed : sender.isDisposed = true)
    (stepped : sender.step config event = some following) :
    following.isDisposed = true := by
  cases CommandSender.effect_of_step stepped with
  | quiet same _ _ _ => exact same.trans disposed
  | consumes same _ _ _ => exact same.trans disposed
  | consumerStep moved => exact disposed
  | sends _ _ _ _ same _ _ => exact same.trans disposed
  | disposes stopped _ _ => exact stopped

theorem SenderStep.isDisposed
    {place : ℕ} {entry : String × CommandSender κ Buffer V}
    {sender : CommandSender κ Buffer V} (disposed : entry.2.isDisposed = true)
    (moved : SenderStep config place entry sender) :
    sender.isDisposed = true := by
  rcases moved with rfl | ⟨event, _, taken⟩
  · exact disposed
  · exact isDisposed_of_step disposed taken

/-- The entry before a step of the senders. -/
theorem SendersStep.before
    (stepped : SendersStep config client next)
    {place : ℕ} {entry : String × CommandSender κ Buffer V}
    (present : next.commandSenders[place]? = some entry) :
    ∃ earlier, client.commandSenders[place]? = some earlier ∧
      earlier.1 = entry.1 ∧ SenderStep config place earlier entry.2 := by
  have inside : place < client.commandSenders.length := by
    rw [← stepped.length]
    exact (List.getElem?_eq_some_iff.mp present).1
  obtain ⟨sender, placed, moved⟩ :=
    stepped.senders place _ (List.getElem?_eq_getElem inside)
  have itself := Option.some.inj (present.symm.trans placed)
  subst itself
  exact ⟨_, List.getElem?_eq_getElem inside, rfl, moved⟩

theorem Routed.sendersStep
    (routed : client.Routed)
    (isDisposed : next.isDisposed = client.isDisposed)
    (commandSenderManager :
      next.commandSenderManager = client.commandSenderManager)
    (requests : next.requests = client.requests)
    (stepped : SendersStep config client next) : next.Routed := by
  have sameQueues := queues_of_sendersStep stepped
  refine ⟨?_, ?_, ?_, ?_, ?_, ?_⟩
  · rw [sameQueues]
    exact routed.distinct
  · intro entry member
    rw [commandSenderManager] at member
    obtain ⟨sender, present⟩ := routed.known entry member
    obtain ⟨following, placed, _⟩ := stepped.senders _ _ present
    exact ⟨following, placed⟩
  · intro active place entry present
    obtain ⟨earlier, placed, sameQueue, _⟩ := stepped.before present
    rw [commandSenderManager, ← sameQueue]
    exact routed.complete (isDisposed ▸ active) place earlier placed
  · intro place entry present
    obtain ⟨earlier, placed, sameQueue, moved⟩ := stepped.before present
    have itsRequests := routed.requests place earlier placed
    rw [moved.requests, itsRequests, sameQueue]
    simp only [requestsTo, requests]
  · rw [sameQueues, requests]
    exact routed.covered
  · intro stopped place entry present
    obtain ⟨earlier, placed, _, moved⟩ := stepped.before present
    exact moved.isDisposed
      (routed.disposed (isDisposed ▸ stopped) place earlier placed)

theorem Routed.disposeAll
    (routed : client.Routed) (active : client.isDisposed = false)
    (config : RpcClientConfig κ Buffer V) :
    ({ client with isDisposed := true } : RpcClient κ Buffer V).disposeAll.Routed
      := by
  have stepped :
      SendersStep config client
        ({ client with isDisposed := true }
          : RpcClient κ Buffer V).disposeAll :=
    sendersStep_disposeAll
  have sameQueues := queues_of_sendersStep stepped
  refine ⟨?_, ?_, ?_, ?_, ?_, ?_⟩
  · rw [sameQueues]
    exact routed.distinct
  · intro entry member
    cases member
  · intro still
    cases still
  · intro place entry present
    obtain ⟨earlier, placed, sameQueue, moved⟩ := stepped.before present
    rw [moved.requests, routed.requests place earlier placed, sameQueue]
    rfl
  · rw [sameQueues]
    exact routed.covered
  · intro _ place entry present
    obtain ⟨earlier, placed, _, _⟩ := stepped.before present
    have known := routed.complete active place earlier placed
    have itself : entry = (earlier.1, earlier.2.dispose) := by
      simp only [RpcClient.disposeAll, List.getElem?_mapIdx, placed,
        Option.map_some, if_pos known] at present
      exact (Option.some.inj present).symm
    rw [itself]
    unfold CommandSender.dispose
    split
    · assumption
    · rfl

section

omit [DecidableEq κ]

/-- The sender of a queue, which may have just been created. -/
theorem Routed.commandSenderFor
    (routed : client.Routed) (active : client.isDisposed = false)
    (config : RpcClientConfig κ Buffer V) (queue : String) :
    (client.commandSenderFor config queue).1.Routed ∧
      (client.commandSenderFor config queue).1.isDisposed = false ∧
      ∃ sender,
        (client.commandSenderFor config queue).1.commandSenders[
            (client.commandSenderFor config queue).2]? =
          some (queue, sender) := by
  cases found : client.commandSenderManager.get queue with
  | some place =>
      have same : client.commandSenderFor config queue = (client, place) := by
        unfold RpcClient.commandSenderFor
        rw [found]
      rw [same]
      exact ⟨routed, active,
        routed.known _ (CommandSenderManager.mem_of_get found)⟩
  | none =>
      have unknown : queue ∉ client.queues := by
        intro member
        obtain ⟨place, present⟩ := List.mem_iff_getElem?.mp member
        simp only [queues, List.getElem?_map, Option.map_eq_some_iff] at present
        obtain ⟨entry, placed, rfl⟩ := present
        exact CommandSenderManager.not_mem_of_get found place
          (routed.complete active place entry placed)
      have placedIn :=
        CommandSenderManager.set_of_get client.commandSenders.length found
      unfold RpcClient.commandSenderFor
      rw [found]
      refine ⟨⟨?_, ?_, ?_, ?_, ?_, ?_⟩, active, ?_⟩
      · simp only [queues, List.map_append, List.map_singleton]
        refine List.nodup_append.mpr
          ⟨routed.distinct, List.nodup_singleton _, ?_⟩
        intro earlier known new itself same
        rw [List.mem_singleton.mp itself] at same
        exact unknown (same ▸ known)
      · intro entry member
        dsimp only at member ⊢
        rw [placedIn] at member
        rcases List.mem_append.mp member with earlier | new
        · obtain ⟨sender, present⟩ := routed.known entry earlier
          refine ⟨sender, ?_⟩
          exact (List.getElem?_append_left
            (List.getElem?_eq_some_iff.mp present).1).trans present
        · rw [List.mem_singleton.mp new]
          exact ⟨_, List.getElem?_concat_length⟩
      · intro _ place entry present
        dsimp only at present ⊢
        rw [placedIn]
        rcases concat_cases present with earlier | ⟨last, itself⟩
        · exact List.mem_append_left _
            (routed.complete active place entry earlier)
        · rw [last, itself]
          exact List.mem_append_right _ List.mem_cons_self
      · have unrequested : client.requestsTo queue = [] := by
          have none :
              client.requests.filter (·.queue = queue) = [] := by
            apply List.filter_eq_nil_iff.mpr
            intro request member same
            have itsQueue : request.queue = queue := by simpa using same
            exact unknown (itsQueue ▸ routed.covered request member)
          rw [requestsTo, none]
          rfl
        refine forall_concat
          (fun _ (entry : String × CommandSender κ Buffer V) =>
            entry.2.calls.map SendCall.request = client.requestsTo entry.1)
          routed.requests ?_
        rw [unrequested]
        rfl
      · intro request member
        simp only [queues, List.map_append]
        exact List.mem_append_left _ (routed.covered request member)
      · intro stopped
        rw [active] at stopped
        cases stopped
      · exact ⟨_, List.getElem?_concat_length⟩

theorem requestsTo_concat
    (client : RpcClient κ Buffer V) (request : RpcRequest V)
    (senders : List (String × CommandSender κ Buffer V)) (queue : String) :
    ({ client with
        commandSenders := senders
        requests := client.requests ++ [request] }
      : RpcClient κ Buffer V).requestsTo queue =
      client.requestsTo queue ++
        if request.queue = queue then [(request.commandName, request.args)]
        else [] := by
  by_cases same : request.queue = queue
  · simp [requestsTo, List.filter_append, same]
  · simp [requestsTo, List.filter_append, same]

theorem Routed.place_unique
    (routed : client.Routed)
    {first second : ℕ} {entry other : String × CommandSender κ Buffer V}
    (firstly : client.commandSenders[first]? = some entry)
    (secondly : client.commandSenders[second]? = some other)
    (same : entry.1 = other.1) : first = second := by
  have inside : first < client.queues.length := by
    rw [queues, List.length_map]
    exact (List.getElem?_eq_some_iff.mp firstly).1
  apply (List.getElem?_inj inside routed.distinct).mp
  simp only [queues, List.getElem?_map, firstly, secondly, Option.map_some, same]

theorem Routed.sendCommand
    (routed : client.Routed) (active : client.isDisposed = false)
    {place : ℕ} {queue : String} {sender : CommandSender κ Buffer V}
    (present : client.commandSenders[place]? = some (queue, sender))
    (commandName : String) (args : V) :
    (client.sendCommand place commandName args).Routed := by
  have following :
      client.sendCommand place commandName args =
        { client with
          commandSenders :=
            client.commandSenders.set place
              (queue, sender.sendCommand commandName args)
          requests := client.requests ++ [⟨queue, commandName, args⟩] } := by
    unfold RpcClient.sendCommand
    rw [present]
  have sameQueues :
      (client.sendCommand place commandName args).queues = client.queues := by
    obtain ⟨inside, found⟩ := List.getElem?_eq_some_iff.mp present
    rw [following]
    simp only [queues, List.map_set]
    have itself : client.commandSenders.set place (queue, sender) =
        client.commandSenders := by
      rw [← found]
      exact List.set_getElem_self inside
    exact (List.map_set ..).symm.trans (congrArg (List.map Prod.fst) itself)
  refine ⟨?_, ?_, ?_, ?_, ?_, ?_⟩
  · rw [sameQueues]
    exact routed.distinct
  · intro entry member
    rw [following] at member ⊢
    obtain ⟨earlier, placed⟩ := routed.known entry member
    by_cases same : entry.2 = place
    · have itself : (entry.1, earlier) = (queue, sender) := by
        rw [same] at placed
        exact Option.some.inj (placed.symm.trans present)
      refine ⟨sender.sendCommand commandName args, ?_⟩
      rw [same, (Prod.mk.inj itself).1]
      exact List.getElem?_set_self (List.getElem?_eq_some_iff.mp present).1
    · refine ⟨earlier, ?_⟩
      rw [List.getElem?_set_ne (Ne.symm same)]
      exact placed
  · intro _ other entry placed
    rw [following] at placed ⊢
    rcases set_cases placed with ⟨same, itself⟩ | ⟨_, earlier⟩
    · rw [same, itself]
      exact routed.complete active place (queue, sender) present
    · exact routed.complete active other entry earlier
  · intro other entry placed
    rw [following] at placed ⊢
    rw [requestsTo_concat]
    rcases set_cases placed with ⟨same, itself⟩ | ⟨different, earlier⟩
    · rw [itself, if_pos rfl]
      have itsRequests := routed.requests place _ present
      rw [← itsRequests]
      simp [CommandSender.sendCommand, SendCall.request]
    · have otherQueue : queue ≠ entry.1 :=
        fun same => different (routed.place_unique earlier present same.symm)
      rw [if_neg otherQueue, List.append_nil]
      exact routed.requests other entry earlier
  · intro request member
    rw [sameQueues]
    rw [following] at member
    rcases List.mem_append.mp member with earlier | new
    · exact routed.covered request earlier
    · rw [List.mem_singleton.mp new]
      exact List.mem_map.mpr ⟨_, List.mem_of_getElem? present, rfl⟩
  · intro stopped
    rw [following, active] at stopped
    cases stopped

end

theorem routed_preserved (config : RpcClientConfig κ Buffer V) :
    (machine config).Preserved Routed := by
  intro state event following routed stepped
  cases moves_of_step stepped with
  | refuses queue commandName args message disposed =>
      exact
        ⟨routed.distinct, routed.known, routed.complete, routed.requests,
          routed.covered, routed.disposed⟩
  | passes queue commandName args active =>
      obtain ⟨found, stillActive, sender, present⟩ :=
        routed.commandSenderFor active config queue
      exact found.sendCommand stillActive present commandName args
  | disposes active => exact routed.disposeAll active config
  | senders isDisposed commandSenderManager requests _ _ stepped =>
      exact routed.sendersStep isDisposed commandSenderManager requests stepped

theorem routed_run
    {schedule : List (RpcClientEvent κ Buffer V)}
    (execution : (machine config).run create schedule = some client) :
    client.Routed :=
  Machine.run_invariant (routed_preserved config) routed_create execution

theorem positive_eq_some
    {option : NumberOption} {value : JsNumber}
    (accepted : option.positive? = some value) :
    option = .number value ∧ value.lessThan (.ofNat 1) = false := by
  cases option with
  | number own =>
      simp only [NumberOption.positive?] at accepted
      split at accepted
      · cases accepted
      · rename_i large
        rw [← Option.some.inj accepted]
        exact ⟨rfl, Bool.eq_false_of_not_eq_true large⟩
  | other => cases accepted

omit [DecidableEq κ] in
/-- A client that has been constructed has the time limit of its options. -/
theorem timeout_of_construct
    {options : RpcClientOptions} {dependencies : RpcClientDependencies κ Buffer V}
    (constructed : RpcClientConfig.construct options dependencies = .ok config) :
    options.commandTimeoutMs = .number config.commandTimeoutMs ∧
      config.commandTimeoutMs.lessThan (.ofNat 1) = false := by
  unfold RpcClientConfig.construct at constructed
  split at constructed
  · cases constructed
  · rename_i commandTimeoutMs accepted
    split at constructed
    · cases constructed
    · split at constructed
      · cases constructed
      · split at constructed
        · cases constructed
          exact positive_eq_some accepted
        · cases constructed

/-- There is one sender for each queue.  Its calls are the requests for its
queue, and its commands, all addressed to this queue and expiring with the time
limit of the options, belong to different ones of them. -/
theorem requests_sent_once
    (options : RpcClientOptions) (dependencies : RpcClientDependencies κ Buffer V)
    (config : RpcClientConfig κ Buffer V)
    (constructed : RpcClientConfig.construct options dependencies = .ok config)
    (schedule : List (RpcClientEvent κ Buffer V)) (client : RpcClient κ Buffer V)
    (execution : (machine config).run create schedule = some client) :
    client.queues.Nodup ∧
      (∀ request ∈ client.requests, request.queue ∈ client.queues) ∧
      ∀ (place : ℕ) (queue : String) (sender : CommandSender κ Buffer V),
        client.commandSenders[place]? = some (queue, sender) →
          sender.calls.map SendCall.request = client.requestsTo queue ∧
            (sender.sentCommands.map SentCommand.content).Subperm
              ((client.requestsTo queue).filterMap
                (CommandSender.contentOf (config.commandSender place queue))) ∧
            ∀ command ∈ sender.sentCommands,
              command.queue = queue ∧
                command.replyQueue =
                  queue ++ ":replies:" ++ config.dependencies.replyQueueId place ∧
                command.mandatory = true ∧
                options.commandTimeoutMs = .number command.expireMs ∧
                command.expireMs.lessThan (.ofNat 1) = false := by
  have routed := routed_run execution
  have routes :=
    allSenders_run
      (fun place queue =>
        CommandSender.routes_create (config.commandSender place queue))
      (fun place queue sender following event routes stepped =>
        routes.step stepped)
      execution
  obtain ⟨itsTimeout, positive⟩ := timeout_of_construct constructed
  refine ⟨routed.distinct, routed.covered, ?_⟩
  intro place queue sender present
  have itsRequests := routed.requests place (queue, sender) present
  have itsRoutes := routes place (queue, sender) present
  refine ⟨itsRequests, ?_, ?_⟩
  · rw [← itsRequests]
    exact itsRoutes.contents.trans
      (CommandSender.sendable_sublist _ sender.calls).subperm
  · intro command member
    have addressed := itsRoutes.addressed command member
    refine ⟨addressed.queue, addressed.replyQueue, addressed.mandatory, ?_⟩
    rw [addressed.expireMs]
    exact ⟨itsTimeout, positive⟩

def unitOptions : RpcClientOptions where
  commandTimeoutMs := .number (.ofNat 30000)
  replyQueueDisuseExpireMs := .number (.ofNat 60000)
  staleCommandDurationMs := .number (.ofNat 5000)

def unitDependencies : RpcClientDependencies ℕ String Unit where
  hasAmqpConnection := true
  replyQueueId := fun _ => "id"
  generateId := fun _ => id
  text := fun _ => ()
  serialize := fun _ => some "content"
  readReply := fun _ => .ok none

def unitConfig : RpcClientConfig ℕ String Unit where
  commandTimeoutMs := .ofNat 30000
  replyQueueDisuseExpireMs := .ofNat 60000
  staleCommandDurationMs := .ofNat 5000
  dependencies := unitDependencies

/-- Two requests for one queue and one for another; the first one is sent. -/
def threeRequests : List (RpcClientEvent ℕ String Unit) :=
  [.executeRemoteCommand (.string "first") (.string "command") (),
    .executeRemoteCommand (.string "first") (.string "command") (),
    .executeRemoteCommand (.string "second") (.string "command") (),
    .commandSender 0 (.consumeRun 0 (.queueAsserted .fulfilled)),
    .commandSender 0 (.consumeRun 0 (.queueConsumed 7)),
    .commandSender 0 (.initialized 0),
    .commandSender 0 (.sendSettled 0 .fulfilled)]

/-- Of the two requests for the first queue one has led to a command by now. -/
theorem requests_sent_once_threeRequests :
    ∃ (client : RpcClient ℕ String Unit) (sender : CommandSender ℕ String Unit),
      (client.queues.Nodup ∧
        ∀ request ∈ client.requests, request.queue ∈ client.queues) ∧
      client.commandSenders[0]? = some ("first", sender) ∧
      client.requestsTo "first" = [("command", ()), ("command", ())] ∧
      sender.sentCommands.map SentCommand.content = ["content"] ∧
      (sender.sentCommands.map SentCommand.content).Subperm
        ((client.requestsTo "first").filterMap
          (CommandSender.contentOf (unitConfig.commandSender 0 "first"))) ∧
      ∀ command ∈ sender.sentCommands,
        command.queue = "first" ∧ command.replyQueue = "first:replies:id" ∧
          command.mandatory = true := by
  have constructed :
      RpcClientConfig.construct unitOptions unitDependencies = .ok unitConfig := by
    rfl
  obtain ⟨distinct, covered, sent⟩ :=
    requests_sent_once unitOptions unitDependencies unitConfig constructed
      threeRequests _ rfl
  obtain ⟨-, contents, addressed⟩ := sent 0 "first" _ rfl
  refine ⟨_, _, ⟨distinct, covered⟩, rfl, rfl, rfl, contents, ?_⟩
  intro command member
  obtain ⟨queue, replyQueue, mandatory, -⟩ := addressed command member
  exact ⟨queue, replyQueue, mandatory⟩

/-! ## After `dispose` -/

/-- The error with which a disposed client refuses a request. -/
def refusal? : RpcClientEvent κ Buffer V → Option String
  | .executeRemoteCommand _ commandName _ => some (disposedMessage commandName)
  | _ => none

/-- A sender that is disposed of, compared with itself earlier. -/
structure SenderEnded
    (config : CommandSenderConfig κ Buffer V)
    (earlier sender : CommandSender κ Buffer V) : Prop where
  isDisposed : sender.isDisposed = true
  sentCommands : sender.sentCommands = earlier.sentCommands
  length : sender.calls.length = earlier.calls.length
  calls : CommandSender.AllEnd config earlier sender

theorem SenderEnded.step
    {place : ℕ} {earlier sender following : CommandSender κ Buffer V}
    {queue : String}
    (ended : SenderEnded (config.commandSender place queue) earlier sender)
    (moved : SenderStep config place (queue, sender) following) :
    SenderEnded (config.commandSender place queue) earlier following := by
  have disposed := moved.isDisposed ended.isDisposed
  rcases moved with rfl | ⟨event, silent, taken⟩
  · exact ended
  · refine ⟨disposed, ?_, ?_, ?_⟩
    · exact (CommandSender.sentCommands_of_disposed ended.isDisposed taken).trans
        ended.sentCommands
    · exact (CommandSender.length_calls_of_step silent taken).trans ended.length
    · exact ended.calls.trans
        (CommandSender.allEnd_of_step ended.isDisposed taken)

/-- A client that is disposed of, compared with itself earlier. -/
structure Ended
    (config : RpcClientConfig κ Buffer V) (earlier client : RpcClient κ Buffer V) :
    Prop where
  isDisposed : client.isDisposed = true
  requests : client.requests = earlier.requests
  length : client.commandSenders.length = earlier.commandSenders.length
  senders :
    ∀ (place : ℕ) (queue : String) (sender : CommandSender κ Buffer V),
      earlier.commandSenders[place]? = some (queue, sender) →
        ∃ sender', client.commandSenders[place]? = some (queue, sender') ∧
          SenderEnded (config.commandSender place queue) sender sender'

theorem Ended.step
    {earlier : RpcClient κ Buffer V} {event : RpcClientEvent κ Buffer V}
    (ended : Ended config earlier client)
    (stepped : client.step config event = some next) :
    Ended config earlier next ∧
      next.refusals = client.refusals ++ (refusal? event).toList := by
  cases moves_of_step stepped with
  | refuses queue commandName args message disposed =>
      refine ⟨⟨ended.isDisposed, ended.requests, ended.length, ended.senders⟩, ?_⟩
      rw [disposed ended.isDisposed]
      rfl
  | passes queue commandName args active =>
      rw [ended.isDisposed] at active
      cases active
  | disposes active =>
      rw [ended.isDisposed] at active
      cases active
  | senders isDisposed _ requests refusals noRequest stepped =>
      refine ⟨⟨isDisposed.trans ended.isDisposed, requests.trans ended.requests,
        stepped.length.trans ended.length, ?_⟩, ?_⟩
      · intro place queue sender present
        obtain ⟨middle, placed, itsEnd⟩ := ended.senders place queue sender present
        obtain ⟨following, finally_, moved⟩ := stepped.senders place _ placed
        exact ⟨following, finally_, itsEnd.step moved⟩
      · cases event with
        | executeRemoteCommand queue commandName args =>
            exact absurd rfl (noRequest queue commandName args)
        | _ => simp [refusal?, refusals]

theorem Ended.run
    {earlier final : RpcClient κ Buffer V}
    {schedule : List (RpcClientEvent κ Buffer V)}
    (ended : Ended config earlier client)
    (execution : (machine config).run client schedule = some final) :
    Ended config earlier final ∧
      final.refusals = client.refusals ++ schedule.filterMap refusal? := by
  induction schedule generalizing client with
  | nil =>
      cases execution
      exact ⟨ended, (List.append_nil _).symm⟩
  | cons event rest inductionHypothesis =>
      obtain ⟨middle, stepped, remaining⟩ := Machine.run_cons_iff.mp execution
      obtain ⟨still, refused⟩ := ended.step stepped
      obtain ⟨finally_, refusedLater⟩ := inductionHypothesis still remaining
      refine ⟨finally_, ?_⟩
      rw [refusedLater, refused, List.append_assoc]
      cases refusal : refusal? event with
      | none => rw [List.filterMap_cons_none refusal, Option.toList_none,
          List.nil_append]
      | some message =>
          rw [List.filterMap_cons_some refusal]
          rfl

omit [DecidableEq κ] in
theorem Routed.ended (routed : client.Routed) (disposed : client.isDisposed = true) :
    Ended config client client := by
  refine ⟨disposed, rfl, rfl, ?_⟩
  intro place queue sender present
  refine ⟨sender, present, ?_⟩
  exact ⟨routed.disposed disposed place _ present, rfl, rfl, .of_same rfl⟩

/-- After `dispose` every request is refused with the error that names its
command, no command is sent and no call begins.  A call that has not settled yet
is interrupted, unless the `consume` or the `sendToQueue` for which it has been
waiting is rejected.  Where a call waits for a command, the command has been
settled, and the call can take its result. -/
theorem dispose_ends_calls
    (config : RpcClientConfig κ Buffer V)
    (distinct : ∀ place, Injective (config.dependencies.generateId place))
    (earlier later : List (RpcClientEvent κ Buffer V))
    (client final : RpcClient κ Buffer V)
    (before : (machine config).run create earlier = some client)
    (disposed : client.isDisposed = true)
    (execution : (machine config).run client later = some final) :
    final.requests = client.requests ∧
      final.refusals = client.refusals ++ later.filterMap refusal? ∧
      final.commandSenders.length = client.commandSenders.length ∧
      ∀ (place : ℕ) (queue : String) (sender : CommandSender κ Buffer V),
        client.commandSenders[place]? = some (queue, sender) →
          ∃ sender', final.commandSenders[place]? = some (queue, sender') ∧
            sender'.sentCommands = sender.sentCommands ∧
            sender'.calls.length = sender.calls.length ∧
            CommandSender.AllEnd (config.commandSender place queue) sender
              sender' ∧
            ∀ (index command : ℕ) (call : SendCall κ V) (correlationId : κ)
              (isSettled : Bool), sender'.calls[index]? = some call →
              call.phase = .waiting correlationId command isSettled →
                ∃ answered,
                  sender'.step (config.commandSender place queue)
                    (.answered index) = some answered := by
  have routed := routed_run before
  obtain ⟨ended, refused⟩ := (routed.ended disposed).run execution
  have throughout :
      (machine config).run create (earlier ++ later) = some final := by
    rw [Machine.run_append, before]
    exact execution
  have kept :
      ∀ place queue (sender following : CommandSender κ Buffer V) event,
        Ledger.Correlated (config.commandSender place queue) sender.ledger →
          sender.step (config.commandSender place queue) event =
              some following →
            Ledger.Correlated (config.commandSender place queue)
              following.ledger := by
    intro place queue sender following event known stepped
    have unique :
        Injective (config.commandSender place queue).generateId := distinct place
    exact CommandSender.correlated_preserved unique sender event following known
      stepped
  have correlated :=
    allSenders_run
      (fun place queue =>
        CommandSender.correlated_create (config.commandSender place queue))
      kept throughout
  refine ⟨ended.requests, refused, ended.length, ?_⟩
  intro place queue sender present
  obtain ⟨sender', placed, itsEnd⟩ := ended.senders place queue sender present
  refine
    ⟨sender', placed, itsEnd.sentCommands, itsEnd.length, itsEnd.calls, ?_⟩
  intro index command call correlationId isSettled itsCall waiting
  exact CommandSender.exists_answered (correlated place _ placed)
    itsEnd.isDisposed itsCall waiting

/-- A request of a disposed client, and the end of the call that waits. -/
def afterDispose : List (RpcClientEvent ℕ String Unit) :=
  [.executeRemoteCommand (.string "first") (.string "late") (),
    .commandSender 0 (.answered 0)]

theorem dispose_ends_calls_afterDispose :
    ∃ client final : RpcClient ℕ String Unit,
      client.requests.length = 3 ∧ final.requests = client.requests ∧
        final.refusals =
          ["Cannot send \"late\" command, because RPC client is disposed"] := by
  have ended :=
    dispose_ends_calls unitConfig (fun _ _ _ same => same)
      (threeRequests ++ [.dispose]) afterDispose _ _ rfl rfl rfl
  exact ⟨_, _, rfl, ended.1, ended.2.1⟩

end Amq.Rpc.RpcClient
