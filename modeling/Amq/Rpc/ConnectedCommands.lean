import Amq.ConnectedServers
import Amq.Rpc.RpcSystem

/-!
# RPC servers on their connections

The command queue with its senders and servers, each server on a connection
wrapper whose connections and channels are lost and replaced at any time.  As with
the job servers, acknowledgements arrive on the channels of their deliveries
because the server forgets its tags and the executors keep to their channel.
-/


namespace Amq.Rpc

open Function Amq.Core Amq.Transition Amq.Broker

namespace RpcServer

variable {κ Buffer V : Type} [DecidableEq κ] [DecidableEq V]
variable {config : RpcServerConfig Buffer V} {server next : RpcServer κ Buffer V}

def deliveredTag : RpcServerEvent κ Buffer V → Option DeliveryTag
  | .commandMessage _ tag => some tag
  | _ => none

/-- `unlockAll` of the relevancy checker is called. -/
def isNotice : RpcServerEvent κ Buffer V → Bool
  | .amqpReconnected => true
  | .amqpChannelRecreated => true
  | _ => false

omit [DecidableEq κ] [DecidableEq V] in
theorem deliveredTag_of_lockEvents
    {event : RpcServerEvent κ Buffer V} {key : κ} {label : Option Unit}
    {tag : DeliveryTag}
    (member : .deliver key label tag ∈ lockEvents config server event) :
    deliveredTag event = some tag := by
  cases event with
  | commandMessage message own =>
      rcases List.mem_cons.mp member with same | moved
      · injection same with _ _ sameTag
        rw [sameTag]
        rfl
      · split at moved
        · exact absurd moved (KeyedLock.deliver_not_mem_events _ _ _ _ _)
        · cases moved
  | command index event =>
      simp only [lockEvents] at member
      split at member
      · split at member
        · exact absurd member (KeyedLock.deliver_not_mem_events _ _ _ _ _)
        · cases member
      · cases member
  | amqpReconnected =>
      simp only [lockEvents] at member
      split at member
      · simp at member
      · cases member
  | amqpChannelRecreated =>
      simp only [lockEvents] at member
      split at member
      · simp at member
      · cases member
  | listen => cases member
  | dispose => cases member
  | setCommandHandler commandName handler => cases member

/-- Only `listen` and `dispose` change the state of a server. -/
theorem state_of_step
    {event : RpcServerEvent κ Buffer V}
    (stepped : server.step config event = some next) :
    next.state = server.state ∨
      (event = .listen ∧ server.state = .ready ∧ next.state = .listening) ∨
      (event = .dispose ∧ server.state = .listening ∧
        next.state = .disposed) := by
  cases event with
  | listen =>
      cases stepped
      unfold listen
      split
      · rename_i ready
        exact Or.inr (Or.inl ⟨rfl, ready, rfl⟩)
      · exact Or.inl rfl
  | dispose =>
      cases stepped
      unfold dispose
      split
      · rename_i listening
        exact Or.inr (Or.inr ⟨rfl, listening, rfl⟩)
      · exact Or.inl rfl
  | setCommandHandler commandName handler =>
      cases stepped
      unfold setCommandHandler
      split <;> exact Or.inl rfl
  | amqpReconnected =>
      cases stepped
      unfold unlockAll
      split <;> exact Or.inl rfl
  | amqpChannelRecreated =>
      cases stepped
      unfold unlockAll
      split <;> exact Or.inl rfl
  | commandMessage message tag =>
      simp only [step] at stepped
      split at stepped
      · cases stepped
        exact Or.inl rfl
      · cases stepped
  | command index event =>
      simp only [step, stepCommand] at stepped
      split at stepped
      · split at stepped
        · rename_i effects _
          cases stepped
          exact Or.inl (effects_runs _ effects).2.2
        · cases stepped
      · cases stepped

theorem ready_of_step
    {event : RpcServerEvent κ Buffer V}
    (stepped : server.step config event = some next)
    (ready : next.state = .ready) :
    server.state = .ready ∧ deliveredTag event = none := by
  have wasReady : server.state = .ready := by
    rcases state_of_step stepped with same | ⟨_, _, listening⟩ | ⟨_, _, disposed⟩
    · rw [← same]
      exact ready
    · rw [listening] at ready
      cases ready
    · rw [disposed] at ready
      cases ready
  refine ⟨wasReady, ?_⟩
  cases event with
  | commandMessage message tag =>
      simp only [step, Option.ite_none_right_eq_some] at stepped
      have listening := stepped.1.1
      rw [wasReady] at listening
      cases listening
  | _ => rfl

/-- A disposed server acknowledges nothing. -/
theorem silent_of_step
    {event : RpcServerEvent κ Buffer V}
    (stepped : server.step config event = some next)
    (disposed : server.state = .disposed) :
    next.state = .disposed ∧ next.acknowledged = server.acknowledged := by
  have still : next.state = .disposed := by
    rcases state_of_step stepped with same | ⟨_, ready, _⟩ | ⟨_, _, after⟩
    · exact same.trans disposed
    · rw [disposed] at ready
      cases ready
    · exact after
  refine ⟨still, ?_⟩
  cases moves_of_step stepped with
  | administers undisturbed locks => exact undisturbed.acknowledged
  | delivers message tag listening => rfl
  | steps index event present taken =>
      cases taken with
      | proceedAcknowledging tag answered live actual =>
          rw [surroundings, disposed] at live
          cases live
      | _ => rfl

omit [DecidableEq κ] [DecidableEq V] in
theorem forgets_of_unlockAll (server : RpcServer κ Buffer V) :
    server.unlockAll.acknowledged = server.acknowledged ∧
      (server.unlockAll.state = .ready ∨ server.unlockAll.state = .disposed ∨
        ∀ key, server.unlockAll.messageRelevancyChecker.correlationIds key =
          none) := by
  unfold unlockAll
  split
  · exact ⟨rfl, Or.inr (Or.inr fun key => rfl)⟩
  · rename_i notListening
    refine ⟨rfl, ?_⟩
    cases state : server.state with
    | ready => exact Or.inl rfl
    | listening => exact absurd state notListening
    | disposed => exact Or.inr (Or.inl rfl)

def locked (config : RpcServerConfig Buffer V) :
    LockedServer (RpcServer κ Buffer V) (RpcServerEvent κ Buffer V) κ Unit where
  machine := machine config
  refinement := lockRefinement config
  isReady server := decide (server.state = .ready)
  isDisposed server := decide (server.state = .disposed)
  delivered := deliveredTag
  isNotice := isNotice
  delivers server event key label tag member := deliveredTag_of_lockEvents member
  ready_of_step server event next stepped ready := by
    obtain ⟨wasReady, undelivered⟩ :=
      ready_of_step stepped (of_decide_eq_true ready)
    exact ⟨decide_eq_true wasReady, undelivered⟩
  silent server event next stepped disposed := by
    obtain ⟨still, same⟩ := silent_of_step stepped (of_decide_eq_true disposed)
    exact ⟨decide_eq_true still, same⟩
  forgets server event next stepped notice := by
    simp only [decide_eq_true_eq]
    cases event with
    | amqpReconnected =>
        cases stepped
        exact forgets_of_unlockAll server
    | amqpChannelRecreated =>
        cases stepped
        exact forgets_of_unlockAll server
    | _ => cases notice

end RpcServer

namespace RpcSystem

variable {ι σ κ Buffer V W : Type}
variable [DecidableEq ι] [DecidableEq σ] [DecidableEq κ] [DecidableEq Buffer]
variable [DecidableEq W]
variable {config : RpcSystemConfig ι σ κ Buffer V W}
variable {system next : RpcSystem ι σ κ Buffer V W}

def deliveredTo : RpcSystemEvent ι σ κ Buffer V W → Option (σ × DeliveryTag)
  | .commandDelivered server _ tag => some (server, tag)
  | _ => none

def arrivedFrom : RpcSystemEvent ι σ κ Buffer V W → Option (σ × DeliveryTag)
  | .acknowledgementArrived server arrived => some (server, arrived)
  | _ => none

def heard (server : σ) : ConnectionNotice → RpcSystemEvent ι σ κ Buffer V W
  | .reconnected => .served server .amqpReconnected
  | .channelRecreated => .served server .amqpChannelRecreated

def isNotice : RpcSystemEvent ι σ κ Buffer V W → Bool
  | .served _ event => RpcServer.isNotice event
  | _ => false

omit [DecidableEq ι] [DecidableEq Buffer] in
theorem step_of_serve
    {server : σ} {event : RpcServerEvent κ Buffer W}
    (served : system.serve config server event = some next) :
    (system.servers server).step (config.server server) event =
      some (next.servers server) := by
  obtain ⟨after, stepped, rfl⟩ := Option.map_eq_some_iff.mp served
  dsimp only
  rw [update_self]
  exact stepped

omit [DecidableEq ι] [DecidableEq Buffer] in
theorem exists_run_of_serve
    {server : σ} {event : RpcServerEvent κ Buffer W}
    (served : system.serve config server event = some next) (place : σ) :
    ∃ events,
      (RpcServer.machine (config.server place)).run (system.servers place)
          events = some (next.servers place) ∧
        ∀ own ∈ events, own = event ∧ place = server := by
  obtain ⟨after, stepped, rfl⟩ := Option.map_eq_some_iff.mp served
  exact
    Machine.exists_run_update
      (fun other => RpcServer.machine (config.server other)) stepped place

omit [DecidableEq ι] [DecidableEq W] in
theorem servers_stepQueue
    {event : WorkQueueEvent (σ × DeliveryTag) (CommandMessage κ Buffer)}
    (stepped : system.stepQueue event = some next) :
    next.servers = system.servers := by
  obtain ⟨queue, _, rfl⟩ := Option.map_eq_some_iff.mp stepped
  rfl

omit [DecidableEq σ] [DecidableEq Buffer] [DecidableEq W] in
theorem servers_send
    {sender : ι} {event : CommandSenderEvent κ Buffer V}
    (sent : system.send config sender event = some next) :
    next.servers = system.servers := by
  obtain ⟨after, _, rfl⟩ := Option.map_eq_some_iff.mp sent
  rfl

/-- In each step every server takes some steps, which are deliveries only if the
step is. -/
theorem exists_run_of_step
    {event : RpcSystemEvent ι σ κ Buffer V W}
    (stepped : system.step config event = some next) (place : σ) :
    ∃ events,
      (RpcServer.machine (config.server place)).run (system.servers place)
          events = some (next.servers place) ∧
        ∀ own ∈ events, ∀ tag, RpcServer.deliveredTag own = some tag →
          deliveredTo event = some (place, tag) := by
  have resting :
      next.servers = system.servers →
        ∃ events,
          (RpcServer.machine (config.server place)).run (system.servers place)
              events = some (next.servers place) ∧
            ∀ own ∈ events, ∀ tag, RpcServer.deliveredTag own = some tag →
              deliveredTo event = some (place, tag) := by
    intro same
    refine ⟨[], ?_, List.forall_mem_nil _⟩
    rw [same]
    rfl
  cases event with
  | commandAccepted sender command =>
      simp only [step, Option.ite_none_right_eq_some] at stepped
      exact resting (servers_stepQueue stepped.2)
  | commandReturned sender author command =>
      simp only [step, Option.ite_none_right_eq_some] at stepped
      exact resting (servers_send stepped.2)
  | commandExpired message => exact resting (servers_stepQueue stepped)
  | commandDelivered server message tag =>
      simp only [step] at stepped
      obtain ⟨handled, first, last⟩ := Option.bind_eq_some_iff.mp stepped
      obtain ⟨events, execution, only⟩ := exists_run_of_serve first place
      refine ⟨events, ?_, ?_⟩
      · rw [servers_stepQueue last]
        exact execution
      · intro own member itsTag delivers
        obtain ⟨rfl, rfl⟩ := only own member
        cases delivers
        rfl
  | acknowledgementArrived server arrived =>
      simp only [step, Option.ite_none_right_eq_some] at stepped
      obtain ⟨_, stepped⟩ := stepped
      split at stepped
      · rename_i settled taken
        cases stepped
        exact resting (servers_stepQueue taken)
      · exact resting (servers_stepQueue stepped)
  | channelClosed server channel => exact resting (servers_stepQueue stepped)
  | replyAccepted server reply =>
      simp only [step, Option.ite_none_right_eq_some] at stepped
      cases stepped.2
      exact resting rfl
  | replyDelivered sender content correlationId deliveryTag =>
      simp only [step, Option.ite_none_right_eq_some] at stepped
      exact resting (servers_send stepped.2)
  | sent sender event =>
      simp only [step, Option.ite_none_right_eq_some] at stepped
      exact resting (servers_send stepped.2)
  | served server event =>
      simp only [step, Option.ite_none_right_eq_some] at stepped
      obtain ⟨possible, served⟩ := stepped
      obtain ⟨events, execution, only⟩ := exists_run_of_serve served place
      refine ⟨events, execution, ?_⟩
      intro own member tag delivers
      rw [(only own member).1] at delivers
      cases event with
      | commandMessage message itsTag => cases possible
      | _ => cases delivers

/-- What the connections of the servers have to do with the system. -/
def tagSystem (config : RpcSystemConfig ι σ κ Buffer V W) :
    TagSystem (RpcSystem ι σ κ Buffer V W) (RpcSystemEvent ι σ κ Buffer V W) σ
      (RpcServer κ Buffer W) (RpcServerEvent κ Buffer W) κ Unit where
  machine := machine config
  server place := RpcServer.locked (config.server place)
  servers := servers
  delivered := deliveredTo
  arrived := arrivedFrom
  heard := heard
  isNotice := isNotice
  created place := rfl
  served system event next stepped place := exists_run_of_step stepped place
  told system place notice next stepped := by
    cases notice with
    | reconnected =>
        have served : system.serve config place .amqpReconnected = some next :=
          stepped
        exact ⟨.amqpReconnected, rfl, step_of_serve served⟩
    | channelRecreated =>
        have served :
            system.serve config place .amqpChannelRecreated = some next :=
          stepped
        exact ⟨.amqpChannelRecreated, rfl, step_of_serve served⟩
  undelivered place notice := by cases notice <;> rfl
  unarrived place notice := by cases notice <;> rfl

theorem orderly_of_inPlace
    {event : RpcSystemEvent ι σ κ Buffer V W}
    (inPlace :
      Connected.InPlace (tagSystem config) (fun _ _ => True) system event) :
    system.Orderly event := by
  cases event with
  | acknowledgementArrived server arrived => exact inPlace.2 server arrived rfl
  | _ => trivial

/-- What channels have carried out belongs to deliveries on these channels whose
commands have been answered or have timed out, and a command that has reached the
queue is with the broker until it expires, or until its reply has reached the
broker or its handler has timed out: in every run on connections that come and go,
in which no waiting call is handed another channel. -/
theorem connected_commands_held_or_answered
    (config : RpcSystemConfig ι σ κ Buffer V W) (distinct : DistinctIds config)
    (place : ConfirmChannel → ℕ) (commandTimeoutMs : σ → JsNumber)
    (schedule : List (ConnectedEvent (RpcSystemEvent ι σ κ Buffer V W) σ))
    (state : Connected (RpcSystem ι σ κ Buffer V W) σ)
    (keeps :
      (Connected.machine (tagSystem config) place commandTimeoutMs).Throughout
        Connected.KeepsChannel
        (Connected.machine (tagSystem config) place commandTimeoutMs).initial
        schedule)
    (execution :
      (Connected.machine (tagSystem config) place commandTimeoutMs).run
        (Connected.machine (tagSystem config) place commandTimeoutMs).initial
        schedule = some state) :
    (∀ server arrived,
      (state.connections server).hasIssued place arrived = true →
        ∃ delivery ∈ (state.system.servers server).deliveries,
          delivery.tag = arrived ∧
            ∃ run ∈ (state.system.servers server).runs,
              run.correlationId = delivery.message.correlationId ∧
                (.replyAccepted ∈ run.history ∨ .timedOut ∈ run.history)) ∧
      ∀ message ∈ state.system.queue.published,
        message ∈ state.system.queue.held ∨ message ∈ state.system.queue.lost ∨
          (∃ content,
            (message.replyQueue, content, message.correlationId) ∈
              state.system.replies) ∨
          ∃ server, ∃ run ∈ (state.system.servers server).runs,
            run.correlationId = message.correlationId ∧
              .timedOut ∈ run.history := by
  have meets :
      (Connected.machine (tagSystem config) place commandTimeoutMs).Throughout
        (Connected.Meeting fun _ _ => True)
        (Connected.machine (tagSystem config) place commandTimeoutMs).initial
        schedule :=
    Connected.throughout_meeting fun _ _ _ => trivial
  obtain ⟨schedule', execution', inPlace, sound⟩ :=
    Connected.exists_run (fun _ _ _ => trivial) keeps meets execution
  have orderly :
      (machine config).Throughout Orderly (create config) schedule' :=
    Machine.throughout_mono (fun _ _ => orderly_of_inPlace) inPlace
  have consistent : state.system.Consistent config :=
    Machine.run_invariant (consistent_preserved config distinct)
      (consistent_create config) execution'
  constructor
  · intro server arrived issued
    have acknowledged : arrived ∈ (state.system.servers server).acknowledged :=
      (sound.servers server).owns.mem_of_hasIssued issued
    obtain ⟨index, run, present, answered, delivery, known, itsTag, itsId⟩ :=
      (consistent.byRuns server).acknowledged arrived acknowledged
    exact ⟨delivery, known, itsTag, run, List.mem_of_getElem? present, itsId.symm,
      answered⟩
  · intro message published
    exact consistent.held_or_answered distinct
      (settledByServers_run orderly execution') published

/-- The channel is lost while a command is handled, its message is delivered
again on the next channel, and the answer goes out on that channel. -/
def redeliveredCommand :
    List (ConnectedEvent (RpcSystemEvent Unit Unit ℕ ℤ ℤ ℤ) Unit) :=
  [.connection () (.channelCreated ⟨0, 0⟩), .connection () (.connected 0),
    .system (.served () .listen),
    .system (.served () (.setCommandHandler 7 .function)),
    .system (.sent () (.sendCommand "answer" 0)),
    .system (.sent () (.consumeRun 0 (.queueAsserted .fulfilled))),
    .system (.sent () (.consumeRun 0 (.queueConsumed 7))),
    .system (.sent () (.initialized 0)),
    .system (.commandAccepted ()
      ⟨"commands", 7, 0, "commands:replies:id", true, .ofNat 30000⟩),
    .system (.commandDelivered () ⟨0, "commands:replies:id", 7⟩ ⟨0, 1⟩),
    .connection () .channelLost, .system (.channelClosed () 0),
    .connection () (.channelRecreated ⟨0, 1⟩),
    .system (.commandDelivered () ⟨0, "commands:replies:id", 7⟩ ⟨1, 1⟩),
    .system (.served () (.command 0 (.handlerSettled (.resolved (some 42))))),
    .system (.served () (.command 0 .proceed)),
    .system (.replyAccepted () ("commands:replies:id", 42, 0)),
    .system (.served () (.command 0 (.replySettled .fulfilled))),
    .system (.served () (.command 0 .proceed)),
    .connection () (.outer 0 .continued), .connection () (.inner 0 .continued),
    .system (.acknowledgementArrived () ⟨1, 1⟩)]

theorem connected_commands_held_or_answered_redelivered :
    ∃ state : Connected (RpcSystem Unit Unit ℕ ℤ ℤ ℤ) Unit,
      (Connected.machine (tagSystem integerConfig) ConfirmChannel.number
          fun _ => .ofNat 60000).run
          (Connected.machine (tagSystem integerConfig) ConfirmChannel.number
            fun _ => .ofNat 60000).initial
          redeliveredCommand = some state ∧
        (∃ delivery ∈ (state.system.servers ()).deliveries,
          delivery.tag = ⟨1, 1⟩ ∧
            ∃ run ∈ (state.system.servers ()).runs,
              run.correlationId = delivery.message.correlationId ∧
                (.replyAccepted ∈ run.history ∨ .timedOut ∈ run.history)) ∧
        (⟨0, "commands:replies:id", 7⟩ ∈ state.system.queue.held ∨
          ⟨0, "commands:replies:id", 7⟩ ∈ state.system.queue.lost ∨
          (∃ content,
            ("commands:replies:id", content, (0 : ℕ)) ∈
              state.system.replies) ∨
          ∃ server, ∃ run ∈ (state.system.servers server).runs,
            run.correlationId = 0 ∧ .timedOut ∈ run.history) := by
  have results :=
    connected_commands_held_or_answered integerConfig
      integerConfig_distinctIds ConfirmChannel.number (fun _ => .ofNat 60000)
      redeliveredCommand _ (by decide) rfl
  exact ⟨_, rfl, results.1 () ⟨1, 1⟩ rfl,
    results.2 ⟨0, "commands:replies:id", 7⟩ List.mem_cons_self⟩

end RpcSystem

end Amq.Rpc
