import Amq.ConnectedServers
import Amq.Jobs.JobSystem
import Amq.LockRelease

/-!
# Job servers on their connections

The shared queue with its servers, each on a connection wrapper whose connections
and channels are lost and replaced at any time.  That acknowledgements arrive on
the channels of their deliveries is no assumption here but follows from what the
server, the relevancy checker and the executors do.
-/


namespace Amq.Jobs

open Function Amq.Core Amq.Transition Amq.Broker

namespace JobServer

variable {κ Buffer V : Type} [DecidableEq κ] [DecidableEq Buffer] [DecidableEq V]
variable {config : JobServerConfig Buffer V} {server next : JobServer κ Buffer V}

def deliveredTag : JobServerEvent κ Buffer V → Option DeliveryTag
  | .jobMessage _ tag => some tag
  | _ => none

/-- `unlockAll` of the relevancy checker is called. -/
def isNotice : JobServerEvent κ Buffer V → Bool
  | .amqpReconnected => true
  | .amqpChannelRecreated => true
  | _ => false

omit [DecidableEq κ] [DecidableEq Buffer] [DecidableEq V] in
theorem deliveredTag_of_lockEvents
    {event : JobServerEvent κ Buffer V} {key : κ} {label : Option V}
    {tag : DeliveryTag}
    (member : .deliver key label tag ∈ lockEvents config server event) :
    deliveredTag event = some tag := by
  cases event with
  | jobMessage message own =>
      rcases List.mem_cons.mp member with same | moved
      · injection same with _ _ sameTag
        rw [sameTag]
        rfl
      · split at moved
        · exact absurd moved (KeyedLock.deliver_not_mem_events _ _ _ _ _)
        · cases moved
  | attempt index event =>
      simp only [lockEvents] at member
      split at member
      · split at member
        · exact absurd member (KeyedLock.deliver_not_mem_events _ _ _ _ _)
        · cases member
      · cases member
  | amqpReconnected =>
      simp only [lockEvents] at member
      split at member
      · simp at member
      · cases member
  | amqpChannelRecreated =>
      simp only [lockEvents] at member
      split at member
      · simp at member
      · cases member
  | listen => cases member
  | dispose => cases member
  | setJobHandler job handler => cases member
  | messagePublished message => cases member

/-- Only `listen` and `dispose` change the state of a server. -/
theorem state_of_step
    {event : JobServerEvent κ Buffer V}
    (stepped : server.step config event = some next) :
    next.state = server.state ∨
      (event = .listen ∧ server.state = .ready ∧ next.state = .listening) ∨
      (event = .dispose ∧ server.state = .listening ∧
        next.state = .disposed) := by
  cases event with
  | listen =>
      cases stepped
      unfold listen
      split
      · rename_i ready
        exact Or.inr (Or.inl ⟨rfl, ready, rfl⟩)
      · exact Or.inl rfl
  | dispose =>
      cases stepped
      unfold dispose
      split
      · rename_i listening
        exact Or.inr (Or.inr ⟨rfl, listening, rfl⟩)
      · exact Or.inl rfl
  | setJobHandler job handler =>
      cases stepped
      unfold setJobHandler
      split <;> exact Or.inl rfl
  | amqpReconnected =>
      cases stepped
      unfold unlockAll
      split <;> exact Or.inl rfl
  | amqpChannelRecreated =>
      cases stepped
      unfold unlockAll
      split <;> exact Or.inl rfl
  | messagePublished message =>
      cases stepped
      exact Or.inl rfl
  | jobMessage message tag =>
      simp only [step] at stepped
      split at stepped
      · cases stepped
        exact Or.inl rfl
      · cases stepped
  | attempt index event =>
      obtain ⟨run, following, effects, _, _, rfl⟩ := stepAttempt_cases stepped
      exact Or.inl (effects_state _ effects)

theorem ready_of_step
    {event : JobServerEvent κ Buffer V}
    (stepped : server.step config event = some next)
    (ready : next.state = .ready) :
    server.state = .ready ∧ deliveredTag event = none := by
  have wasReady : server.state = .ready := by
    rcases state_of_step stepped with same | ⟨_, _, listening⟩ | ⟨_, _, disposed⟩
    · rw [← same]
      exact ready
    · rw [listening] at ready
      cases ready
    · rw [disposed] at ready
      cases ready
  refine ⟨wasReady, ?_⟩
  cases event with
  | jobMessage message tag =>
      simp only [step, Option.ite_none_right_eq_some] at stepped
      have listening := stepped.1.1
      rw [wasReady] at listening
      cases listening
  | _ => rfl

/-- A disposed server acknowledges nothing. -/
theorem silent_of_step
    {event : JobServerEvent κ Buffer V}
    (stepped : server.step config event = some next)
    (disposed : server.state = .disposed) :
    next.state = .disposed ∧ next.acknowledged = server.acknowledged := by
  have still : next.state = .disposed := by
    rcases state_of_step stepped with same | ⟨_, ready, _⟩ | ⟨_, _, after⟩
    · exact same.trans disposed
    · rw [disposed] at ready
      cases ready
    · exact after
  refine ⟨still, ?_⟩
  cases moves_of_step stepped with
  | administers undisturbed => exact undisturbed.acknowledged
  | delivers message tag => rfl
  | steps index event present taken =>
      cases taken with
      | proceedAcknowledging tag processed live actual =>
          rw [surroundings, disposed] at live
          cases live
      | _ => exact acknowledged_effects _ _ (by simp)

omit [DecidableEq κ] [DecidableEq Buffer] [DecidableEq V] in
theorem forgets_of_unlockAll (server : JobServer κ Buffer V) :
    server.unlockAll.acknowledged = server.acknowledged ∧
      (server.unlockAll.state = .ready ∨ server.unlockAll.state = .disposed ∨
        ∀ key, server.unlockAll.messageRelevancyChecker.correlationIds key =
          none) := by
  unfold unlockAll
  split
  · exact ⟨rfl, Or.inr (Or.inr fun key => rfl)⟩
  · rename_i notListening
    refine ⟨rfl, ?_⟩
    cases state : server.state with
    | ready => exact Or.inl rfl
    | listening => exact absurd state notListening
    | disposed => exact Or.inr (Or.inl rfl)

def locked (config : JobServerConfig Buffer V) :
    LockedServer (JobServer κ Buffer V) (JobServerEvent κ Buffer V) κ V where
  machine := machine config
  refinement := lockRefinement config
  isReady server := decide (server.state = .ready)
  isDisposed server := decide (server.state = .disposed)
  delivered := deliveredTag
  isNotice := isNotice
  delivers server event key label tag member := deliveredTag_of_lockEvents member
  ready_of_step server event next stepped ready := by
    obtain ⟨wasReady, undelivered⟩ :=
      ready_of_step stepped (of_decide_eq_true ready)
    exact ⟨decide_eq_true wasReady, undelivered⟩
  silent server event next stepped disposed := by
    obtain ⟨still, same⟩ := silent_of_step stepped (of_decide_eq_true disposed)
    exact ⟨decide_eq_true still, same⟩
  forgets server event next stepped notice := by
    simp only [decide_eq_true_eq]
    cases event with
    | amqpReconnected =>
        cases stepped
        exact forgets_of_unlockAll server
    | amqpChannelRecreated =>
        cases stepped
        exact forgets_of_unlockAll server
    | _ => cases notice

end JobServer

namespace JobSystem

variable {ι κ Buffer V : Type}
variable [DecidableEq ι] [DecidableEq κ] [DecidableEq Buffer] [DecidableEq V]
variable {config : ι → JobServerConfig Buffer V}
variable {system next : JobSystem ι κ Buffer V}

def deliveredTo : JobSystemEvent ι κ Buffer V → Option (ι × DeliveryTag)
  | .delivered server _ tag => some (server, tag)
  | _ => none

def arrivedFrom : JobSystemEvent ι κ Buffer V → Option (ι × DeliveryTag)
  | .acknowledgementArrived server arrived => some (server, arrived)
  | _ => none

def heard (server : ι) : ConnectionNotice → JobSystemEvent ι κ Buffer V
  | .reconnected => .served server .amqpReconnected
  | .channelRecreated => .served server .amqpChannelRecreated

def isNotice : JobSystemEvent ι κ Buffer V → Bool
  | .served _ event => JobServer.isNotice event
  | _ => false

theorem exists_run_of_serve
    {server : ι} {event : JobServerEvent κ Buffer V}
    (served : system.serve config server event = some next) (place : ι) :
    ∃ events,
      (JobServer.machine (config place)).run (system.servers place) events =
          some (next.servers place) ∧
        ∀ own ∈ events, own = event ∧ place = server := by
  obtain ⟨after, stepped, rfl⟩ := serve_cases served
  exact
    Machine.exists_run_update (fun other => JobServer.machine (config other))
      stepped place

theorem step_of_serve
    {server : ι} {event : JobServerEvent κ Buffer V}
    (served : system.serve config server event = some next) :
    (system.servers server).step (config server) event =
      some (next.servers server) := by
  obtain ⟨after, stepped, rfl⟩ := serve_cases served
  dsimp only
  rw [update_self]
  exact stepped

omit [DecidableEq V] in
theorem servers_stepQueue
    {event : WorkQueueEvent (ι × DeliveryTag) (Message κ Buffer)}
    (stepped : system.stepQueue event = some next) :
    next.servers = system.servers := by
  obtain ⟨queue, _, rfl⟩ := Option.map_eq_some_iff.mp stepped
  rfl

/-- In each step every server takes some steps, which are deliveries only if the
step is. -/
theorem exists_run_of_step
    {event : JobSystemEvent ι κ Buffer V}
    (stepped : system.step config event = some next) (place : ι) :
    ∃ events,
      (JobServer.machine (config place)).run (system.servers place) events =
          some (next.servers place) ∧
        ∀ own ∈ events, ∀ tag, JobServer.deliveredTag own = some tag →
          deliveredTo event = some (place, tag) := by
  have resting :
      next.servers = system.servers →
        ∃ events,
          (JobServer.machine (config place)).run (system.servers place)
              events = some (next.servers place) ∧
            ∀ own ∈ events, ∀ tag, JobServer.deliveredTag own = some tag →
              deliveredTo event = some (place, tag) := by
    intro same
    refine ⟨[], ?_, List.forall_mem_nil _⟩
    rw [same]
    rfl
  cases event with
  | enqueued message expires =>
      cases stepped
      exact resting rfl
  | jobExpired message =>
      simp only [step, Option.ite_none_right_eq_some] at stepped
      obtain ⟨queue, _, rfl⟩ := Option.map_eq_some_iff.mp stepped.2
      exact resting rfl
  | delivered server message tag =>
      simp only [step] at stepped
      obtain ⟨known, first, rest⟩ := Option.bind_eq_some_iff.mp stepped
      obtain ⟨handled, second, last⟩ := Option.bind_eq_some_iff.mp rest
      obtain ⟨told, toldRun, toldOnly⟩ := exists_run_of_serve first place
      obtain ⟨took, tookRun, tookOnly⟩ := exists_run_of_serve second place
      refine ⟨told ++ took, ?_, ?_⟩
      · rw [Machine.run_append, toldRun, servers_stepQueue last]
        exact tookRun
      · intro own member itsTag delivers
        rcases List.mem_append.mp member with published | itself
        · rw [(toldOnly own published).1] at delivers
          cases delivers
        · obtain ⟨rfl, rfl⟩ := tookOnly own itself
          cases delivers
          rfl
  | retryAccepted retry =>
      simp only [step, Option.ite_none_right_eq_some] at stepped
      obtain ⟨queue, _, rfl⟩ := Option.map_eq_some_iff.mp stepped.2
      exact resting rfl
  | retryDeadLettered message => exact resting (servers_stepQueue stepped)
  | retryLost message => exact resting (servers_stepQueue stepped)
  | acknowledgementArrived server arrived =>
      simp only [step, Option.ite_none_right_eq_some] at stepped
      obtain ⟨_, stepped⟩ := stepped
      split at stepped
      · rename_i settled taken
        cases stepped
        exact resting (servers_stepQueue taken)
      · exact resting (servers_stepQueue stepped)
  | channelClosed server channel => exact resting (servers_stepQueue stepped)
  | served server event =>
      simp only [step, Option.ite_none_right_eq_some] at stepped
      obtain ⟨possible, served⟩ := stepped
      obtain ⟨events, execution, only⟩ := exists_run_of_serve served place
      refine ⟨events, execution, ?_⟩
      intro own member tag delivers
      rw [(only own member).1] at delivers
      cases event with
      | jobMessage message itsTag => cases possible
      | _ => cases delivers

/-- What the connections of the servers have to do with the system. -/
def tagSystem (config : ι → JobServerConfig Buffer V) :
    TagSystem (JobSystem ι κ Buffer V) (JobSystemEvent ι κ Buffer V) ι
      (JobServer κ Buffer V) (JobServerEvent κ Buffer V) κ V where
  machine := machine config
  server place := JobServer.locked (config place)
  servers := servers
  delivered := deliveredTo
  arrived := arrivedFrom
  heard := heard
  isNotice := isNotice
  created place := rfl
  served system event next stepped place := exists_run_of_step stepped place
  told system place notice next stepped := by
    cases notice with
    | reconnected =>
        have served : system.serve config place .amqpReconnected = some next :=
          stepped
        exact ⟨.amqpReconnected, rfl, step_of_serve served⟩
    | channelRecreated =>
        have served :
            system.serve config place .amqpChannelRecreated = some next :=
          stepped
        exact ⟨.amqpChannelRecreated, rfl, step_of_serve served⟩
  undelivered place notice := by cases notice <;> rfl
  unarrived place notice := by cases notice <;> rfl

/-- No retry queue is deleted with its messages. -/
def KeepsRetries : JobSystemEvent ι κ Buffer V → Prop
  | .retryLost _ => False
  | _ => True

theorem orderly_of_inPlace
    {event : JobSystemEvent ι κ Buffer V}
    (inPlace :
      Connected.InPlace (tagSystem config) (fun _ event => KeepsRetries event)
        system event) :
    system.Orderly event := by
  cases event with
  | retryLost message => exact inPlace.1
  | acknowledgementArrived server arrived => exact inPlace.2 server arrived rfl
  | _ => trivial

/-- What channels have carried out belongs to deliveries on these channels, and a
job that has reached the queue is with the broker until it expires or one of its
runs has finished: in every run on connections that come and go, in which no
waiting call is handed another channel and no retry queue is deleted with its
messages. -/
theorem connected_jobs_held_or_finished
    (config : ι → JobServerConfig Buffer V) (place : ConfirmChannel → ℕ)
    (commandTimeoutMs : ι → JsNumber)
    (schedule : List (ConnectedEvent (JobSystemEvent ι κ Buffer V) ι))
    (state : Connected (JobSystem ι κ Buffer V) ι)
    (keeps :
      (Connected.machine (tagSystem config) place commandTimeoutMs).Throughout
        Connected.KeepsChannel
        (Connected.machine (tagSystem config) place commandTimeoutMs).initial
        schedule)
    (retriesKept : ∀ message, .system (.retryLost message) ∉ schedule)
    (execution :
      (Connected.machine (tagSystem config) place commandTimeoutMs).run
        (Connected.machine (tagSystem config) place commandTimeoutMs).initial
        schedule = some state) :
    (∀ server arrived,
      (state.connections server).hasIssued place arrived = true →
        ∃ delivery ∈ (state.system.servers server).deliveries,
          delivery.tag = arrived) ∧
      ∀ message ∈ state.system.enqueued,
        (∃ copy ∈ state.system.queue.held,
            copy.correlationId = message.correlationId) ∨
          state.system.HasExpired message.correlationId ∨
            state.system.HasFinished config message.correlationId := by
  have meets :
      (Connected.machine (tagSystem config) place commandTimeoutMs).Throughout
        (Connected.Meeting fun _ event => KeepsRetries event)
        (Connected.machine (tagSystem config) place commandTimeoutMs).initial
        schedule := by
    apply Connected.throughout_meeting
    intro event member _
    cases event with
    | retryLost message => exact absurd member (retriesKept message)
    | _ => trivial
  have unconditional :
      ∀ (system : JobSystem ι κ Buffer V) server notice,
        KeepsRetries
          (heard server notice : JobSystemEvent ι κ Buffer V) := by
    intro _ server notice
    cases notice <;> trivial
  obtain ⟨schedule', execution', inPlace, sound⟩ :=
    Connected.exists_run unconditional keeps meets execution
  have orderly :
      (machine config).Throughout Orderly (create config) schedule' :=
    Machine.throughout_mono (fun _ _ => orderly_of_inPlace) inPlace
  have consistent : state.system.Consistent config :=
    consistent_run orderly execution'
  constructor
  · intro server arrived issued
    have acknowledged : arrived ∈ (state.system.servers server).acknowledged :=
      (sound.servers server).owns.mem_of_hasIssued issued
    obtain ⟨serverSchedule, served⟩ := consistent.reachable server
    obtain ⟨_, byRuns⟩ := JobServer.acknowledgedByRuns_run served
    obtain ⟨_, _, _, _, delivery, known, itsTag, _⟩ :=
      byRuns arrived acknowledged
    exact ⟨delivery, known, itsTag⟩
  · intro message enqueued
    exact consistent.held_or_finished enqueued

/-- The channel is lost while a job is handled, and its message is delivered
again on the next channel. -/
def redeliveredJob :
    List (ConnectedEvent (JobSystemEvent Unit ℕ (SerializedContext ℤ) ℤ) Unit) :=
  [.connection () (.channelCreated ⟨0, 0⟩), .connection () (.connected 0),
    .system (.served () .listen),
    .system (.served () (.setJobHandler 7 .function)),
    .system (.enqueued (JobServer.integerMessage 1) false),
    .system (.delivered () (JobServer.integerMessage 1) ⟨0, 1⟩),
    .connection () .channelLost, .system (.channelClosed () 0),
    .connection () (.channelRecreated ⟨0, 1⟩),
    .system (.delivered () (JobServer.integerMessage 1) ⟨1, 1⟩),
    .system (.served () (.attempt 0 (.handlerSettled .fulfilled))),
    .system (.served () (.attempt 0 .proceed)),
    .connection () (.outer 0 .continued), .connection () (.inner 0 .continued),
    .system (.acknowledgementArrived () ⟨1, 1⟩)]

theorem connected_jobs_held_or_finished_redelivered :
    ∃ state : Connected (JobSystem Unit ℕ (SerializedContext ℤ) ℤ) Unit,
      (Connected.machine (tagSystem fun _ => JobServer.integerConfig)
          ConfirmChannel.number fun _ => .ofNat 60000).run
          (Connected.machine (tagSystem fun _ => JobServer.integerConfig)
            ConfirmChannel.number fun _ => .ofNat 60000).initial
          redeliveredJob = some state ∧
        (∃ delivery ∈ (state.system.servers ()).deliveries,
          delivery.tag = ⟨1, 1⟩) ∧
        ((∃ copy ∈ state.system.queue.held, copy.correlationId = 1) ∨
          state.system.HasExpired 1 ∨
            state.system.HasFinished (fun _ => JobServer.integerConfig) 1) := by
  have results :=
    connected_jobs_held_or_finished (fun _ => JobServer.integerConfig)
      ConfirmChannel.number (fun _ => .ofNat 60000) redeliveredJob _ (by decide)
      (by simp [redeliveredJob]) rfl
  exact ⟨_, rfl, results.1 () ⟨1, 1⟩ rfl,
    results.2 (JobServer.integerMessage 1) List.mem_cons_self⟩

end JobSystem

end Amq.Jobs
