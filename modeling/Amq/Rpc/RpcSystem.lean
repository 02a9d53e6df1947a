import Amq.Broker.WorkQueue
import Amq.Rpc.CallOutcomes
import Amq.Rpc.RepliedRuns

/-!
# Command senders and RPC servers at one queue

Any number of senders and servers, with the broker between them, make up one
system.  A command waits in the queue until it expires or a server acknowledges
it, a reply goes to the reply queue which its command has named, and a message
which no queue takes is returned to its sender.  Each party goes its own way, and
the broker delivers in any order.
-/


namespace Amq.Rpc

open Function Amq.Transition Amq.Broker

/-- The parties, by their names, and the command queue. -/
structure RpcSystemConfig (ι σ κ Buffer V W : Type) where
  queue : String
  sender : ι → CommandSenderConfig κ Buffer V
  server : σ → RpcServerConfig Buffer W

structure RpcSystem (ι σ κ Buffer V W : Type) where
  senders : ι → CommandSender κ Buffer V
  servers : σ → RpcServer κ Buffer W
  queue : WorkQueue (σ × DeliveryTag) (CommandMessage κ Buffer)
  /-- The replies that have reached the broker: reply queue, content and
  correlation id. -/
  replies : List (String × Buffer × κ)

inductive RpcSystemEvent (ι σ κ Buffer V W : Type) where
  | commandAccepted (sender : ι) (command : SentCommand κ Buffer)
  /-- The senders of one connection hear of each other's returned commands. -/
  | commandReturned (sender author : ι) (command : SentCommand κ Buffer)
  | commandExpired (message : CommandMessage κ Buffer)
  | commandDelivered
      (server : σ) (message : CommandMessage κ Buffer) (tag : DeliveryTag)
  | acknowledgementArrived (server : σ) (arrived : DeliveryTag)
  | channelClosed (server : σ) (channel : ℕ)
  | replyAccepted (server : σ) (reply : String × Buffer × κ)
  | replyDelivered
      (sender : ι) (content : Buffer) (correlationId : κ) (deliveryTag : ℕ)
  /-- Anything else that happens to a sender or to a server. -/
  | sent (sender : ι) (event : CommandSenderEvent κ Buffer V)
  | served (server : σ) (event : RpcServerEvent κ Buffer W)

namespace RpcSystem

variable {ι σ κ Buffer V W : Type}
variable [DecidableEq ι] [DecidableEq σ] [DecidableEq κ] [DecidableEq Buffer]
variable [DecidableEq W]

def create
    (config : RpcSystemConfig ι σ κ Buffer V W) :
    RpcSystem ι σ κ Buffer V W where
  senders sender := .create (config.sender sender)
  servers _ := .create
  queue := .empty
  replies := []

/-- The message that a sent command becomes. -/
def messageOf (command : SentCommand κ Buffer) : CommandMessage κ Buffer where
  correlationId := command.correlationId
  replyQueue := command.replyQueue
  content := command.content

/-- What has been sent has reached the broker. -/
def hasReached
    (config : RpcSystemConfig ι σ κ Buffer V W)
    (system : RpcSystem ι σ κ Buffer V W) (server : σ) (run : CommandRun κ W) :
    Bool :=
  run.history.any fun
    | .replySent replyQueue reply =>
        ((config.server server).serialize reply).any fun content =>
          decide ((replyQueue, content, run.correlationId) ∈ system.replies)
    | _ => false

/-- Replies and returned commands come from the broker only. -/
def isSenderEvent : CommandSenderEvent κ Buffer V → Bool
  | .replyQueueMessage _ _ _ => false
  | .commandMessageReturn _ => false
  | _ => true

/-- The sending of a reply is confirmed only once the reply has reached the
broker, and commands come from the queue only. -/
def isPossible
    (config : RpcSystemConfig ι σ κ Buffer V W)
    (system : RpcSystem ι σ κ Buffer V W) (server : σ) :
    RpcServerEvent κ Buffer W → Bool
  | .commandMessage _ _ => false
  | .command index (.replySettled .fulfilled) =>
      ((system.servers server).runs[index]?).any
        (system.hasReached config server)
  | _ => true

def send
    (config : RpcSystemConfig ι σ κ Buffer V W)
    (system : RpcSystem ι σ κ Buffer V W) (sender : ι)
    (event : CommandSenderEvent κ Buffer V) :
    Option (RpcSystem ι σ κ Buffer V W) :=
  ((system.senders sender).step (config.sender sender) event).map fun next =>
    { system with senders := update system.senders sender next }

def serve
    (config : RpcSystemConfig ι σ κ Buffer V W)
    (system : RpcSystem ι σ κ Buffer V W) (server : σ)
    (event : RpcServerEvent κ Buffer W) :
    Option (RpcSystem ι σ κ Buffer V W) :=
  ((system.servers server).step (config.server server) event).map fun next =>
    { system with servers := update system.servers server next }

def stepQueue
    (system : RpcSystem ι σ κ Buffer V W)
    (event : WorkQueueEvent (σ × DeliveryTag) (CommandMessage κ Buffer)) :
    Option (RpcSystem ι σ κ Buffer V W) :=
  (system.queue.step event).map fun next => { system with queue := next }

/-- The deliveries to the server on the channel. -/
def deliveredOn (server : σ) (channel : ℕ) (tag : σ × DeliveryTag) : Bool :=
  decide (tag.1 = server ∧ tag.2.channel = channel)

def step
    (config : RpcSystemConfig ι σ κ Buffer V W)
    (system : RpcSystem ι σ κ Buffer V W) :
    RpcSystemEvent ι σ κ Buffer V W → Option (RpcSystem ι σ κ Buffer V W)
  | .commandAccepted sender command =>
      if
        .sent command ∈ (system.senders sender).history ∧
          command.queue = config.queue
      then
        system.stepQueue (.publish (messageOf command))
      else
        none
  | .commandReturned sender author command =>
      if
        .sent command ∈ (system.senders author).history ∧
          command.mandatory = true
      then
        system.send config sender (.commandMessageReturn command.correlationId)
      else
        none
  | .commandExpired message => system.stepQueue (.expire message)
  | .commandDelivered server message tag =>
      (system.serve config server (.commandMessage message tag)).bind
        fun handled => handled.stepQueue (.deliver (server, tag) message)
  | .acknowledgementArrived server arrived =>
      if
        (system.servers server).acknowledged.any fun tag =>
          tag.deliveryTag = arrived.deliveryTag
      then
        match system.stepQueue (.settle (server, arrived)) with
        | some next => some next
        -- An unknown delivery tag is a channel exception.
        | none =>
            system.stepQueue (.requeue (deliveredOn server arrived.channel))
      else
        none
  | .channelClosed server channel =>
      system.stepQueue (.requeue (deliveredOn server channel))
  | .replyAccepted server reply =>
      if reply ∈ (system.servers server).replies then
        some { system with replies := reply :: system.replies }
      else
        none
  | .replyDelivered sender content correlationId deliveryTag =>
      if
        ((system.senders sender).replyQueueConsumer.replyQueue, content,
            correlationId) ∈ system.replies
      then
        system.send config sender
          (.replyQueueMessage content correlationId deliveryTag)
      else
        none
  | .sent sender event =>
      if isSenderEvent event then system.send config sender event else none
  | .served server event =>
      if system.isPossible config server event then
        system.serve config server event
      else
        none

def machine (config : RpcSystemConfig ι σ κ Buffer V W) :
    Machine (RpcSystem ι σ κ Buffer V W) (RpcSystemEvent ι σ κ Buffer V W) where
  initial := create config
  step := step config

/-- No correlation id is generated twice, by whichever sender. -/
def DistinctIds (config : RpcSystemConfig ι σ κ Buffer V W) : Prop :=
  Injective fun place : ι × ℕ => (config.sender place.1).generateId place.2

/-- An acknowledgement arrives on the channel of its delivery. -/
def Orderly
    (system : RpcSystem ι σ κ Buffer V W) :
    RpcSystemEvent ι σ κ Buffer V W → Prop
  | .acknowledgementArrived server arrived =>
      arrived ∈ (system.servers server).acknowledged
  | _ => True

instance decidableOrderly
    (system : RpcSystem ι σ κ Buffer V W) :
    ∀ event, Decidable (system.Orderly event)
  | .acknowledgementArrived server arrived =>
      inferInstanceAs (Decidable (arrived ∈ (system.servers server).acknowledged))
  | .commandAccepted _ _ => isTrue trivial
  | .commandReturned _ _ _ => isTrue trivial
  | .commandExpired _ => isTrue trivial
  | .commandDelivered _ _ _ => isTrue trivial
  | .channelClosed _ _ => isTrue trivial
  | .replyAccepted _ _ => isTrue trivial
  | .replyDelivered _ _ _ _ => isTrue trivial
  | .sent _ _ => isTrue trivial
  | .served _ _ => isTrue trivial

/-! ## What holds in every run -/

/-- The replies for a sender that have reached the broker. -/
def hasArrived
    (config : RpcSystemConfig ι σ κ Buffer V W)
    (system : RpcSystem ι σ κ Buffer V W) (sender : ι)
    (correlationId : κ) (content : Buffer) : Prop :=
  (CommandSender.replyQueueOf (config.sender sender), content, correlationId) ∈
    system.replies

structure Consistent
    (config : RpcSystemConfig ι σ κ Buffer V W)
    (system : RpcSystem ι σ κ Buffer V W) : Prop where
  answered :
    ∀ sender,
      CommandSender.Answered (config.sender sender)
        (system.hasArrived config sender) (system.senders sender)
  byRuns :
    ∀ server,
      RpcServer.ByRuns (config.server server) (system.servers server)
  accounted : system.queue.Accounted
  published :
    ∀ message ∈ system.queue.published,
      ∃ sender command, .sent command ∈ (system.senders sender).history ∧
        message = messageOf command
  delivered :
    ∀ server, ∀ delivery ∈ (system.servers server).deliveries,
      delivery.message ∈ system.queue.published
  entries :
    ∀ entry ∈ system.queue.unacknowledged ++ system.queue.settled,
      ∃ delivery ∈ (system.servers entry.1.1).deliveries,
        delivery.tag = entry.1.2 ∧ delivery.message = entry.2
  replies :
    ∀ reply ∈ system.replies,
      ∃ server, ∃ run ∈ (system.servers server).runs,
        RpcServer.HasReplied (config.server server) run reply
  accepted :
    ∀ server, ∀ run ∈ (system.servers server).runs,
      .replyAccepted ∈ run.history →
        system.hasReached config server run = true

variable {config : RpcSystemConfig ι σ κ Buffer V W}
variable {system next : RpcSystem ι σ κ Buffer V W}

omit [DecidableEq ι] [DecidableEq σ] [DecidableEq W] in
theorem consistent_create (config : RpcSystemConfig ι σ κ Buffer V W) :
    (create config).Consistent config where
  answered sender := CommandSender.answered_create _ _
  byRuns server := RpcServer.byRuns_create _
  accounted := WorkQueue.accounted_empty
  published message member := by cases member
  delivered server delivery member := by cases member
  entries entry member := by cases member
  replies reply member := by cases member
  accepted server run member := by cases member

omit [DecidableEq ι] [DecidableEq σ] [DecidableEq κ] [DecidableEq Buffer]
  [DecidableEq W] in
theorem unique_sender (distinct : DistinctIds config) (sender : ι) :
    Injective (config.sender sender).generateId := by
  intro first second same
  have places : (sender, first) = (sender, second) := distinct same
  exact congrArg Prod.snd places

omit [DecidableEq σ] [DecidableEq W] in
/-- A sender may take any step, if the replies that it gets have reached the
broker. -/
theorem Consistent.send
    (consistent : system.Consistent config) (distinct : DistinctIds config)
    {sender : ι} {event : CommandSenderEvent κ Buffer V}
    (sent : system.send config sender event = some next)
    (arrives :
      ∀ content correlationId deliveryTag,
        event = .replyQueueMessage content correlationId deliveryTag →
          system.hasArrived config sender correlationId content) :
    next.Consistent config := by
  obtain ⟨after, stepped, rfl⟩ := Option.map_eq_some_iff.mp sent
  obtain ⟨added, grown⟩ :=
    CommandSender.history_grows (CommandSender.effect_of_step stepped)
  refine
    { answered := ?_
      byRuns := consistent.byRuns
      accounted := consistent.accounted
      published := ?_
      delivered := consistent.delivered
      entries := consistent.entries
      replies := consistent.replies
      accepted := consistent.accepted }
  · intro other
    by_cases same : other = sender
    · subst same
      dsimp only
      rw [update_self]
      exact (consistent.answered other).step (unique_sender distinct other)
        arrives stepped
    · dsimp only
      rw [update_of_ne same]
      exact consistent.answered other
  · intro message member
    obtain ⟨author, command, itsCommand, itself⟩ :=
      consistent.published message member
    refine ⟨author, command, ?_, itself⟩
    by_cases same : author = sender
    · subst same
      dsimp only
      rw [update_self, grown]
      exact List.mem_append_right _ itsCommand
    · dsimp only
      rw [update_of_ne same]
      exact itsCommand

omit [DecidableEq ι] [DecidableEq σ] [DecidableEq W] in
theorem hasReached_mono
    {other : RpcSystem ι σ κ Buffer V W} {server : σ} {run run' : CommandRun κ W}
    (reached : system.hasReached config server run = true)
    (replies : ∀ reply ∈ system.replies, reply ∈ other.replies)
    (sameId : run'.correlationId = run.correlationId)
    (history : ∀ entry ∈ run.history, entry ∈ run'.history) :
    other.hasReached config server run' = true := by
  obtain ⟨entry, observed, itsReply⟩ := List.any_eq_true.mp reached
  refine List.any_eq_true.mpr ⟨entry, history entry observed, ?_⟩
  cases entry with
  | replySent replyQueue reply =>
      dsimp only at itsReply ⊢
      obtain ⟨content, serialized, known⟩ :=
        (Option.any_eq_true _ _).mp itsReply
      refine (Option.any_eq_true _ _).mpr ⟨content, serialized, ?_⟩
      rw [sameId]
      exact decide_eq_true (replies _ (of_decide_eq_true known))
  | _ => cases itsReply

omit [DecidableEq ι] in
/-- A server may take any step, if the commands that it gets are in the queue and
confirmed replies have reached the broker. -/
theorem Consistent.serve
    (consistent : system.Consistent config)
    {server : σ} {event : RpcServerEvent κ Buffer W}
    (served : system.serve config server event = some next)
    (arrives :
      ∀ message tag, event = .commandMessage message tag →
        message ∈ system.queue.published)
    (possible :
      ∀ index, event = .command index (.replySettled .fulfilled) →
        ∀ run, (system.servers server).runs[index]? = some run →
          system.hasReached config server run = true) :
    next.Consistent config := by
  obtain ⟨after, stepped, rfl⟩ := Option.map_eq_some_iff.mp served
  have moves := RpcServer.moves_of_step stepped
  have deliveries :
      ∀ delivery ∈ after.deliveries,
        delivery ∈ (system.servers server).deliveries ∨
          delivery.message ∈ system.queue.published := by
    intro delivery member
    cases moves with
    | administers undisturbed locks =>
        rw [undisturbed.deliveries] at member
        exact Or.inl member
    | delivers message tag listening =>
        rcases List.mem_cons.mp member with rfl | old
        · exact Or.inr (arrives message tag rfl)
        · exact Or.inl old
    | steps index event present taken =>
        rw [(RpcServer.effects_runs _ _).2.1] at member
        exact Or.inl member
  refine
    { answered := consistent.answered
      byRuns := ?_
      accounted := consistent.accounted
      published := consistent.published
      delivered := ?_
      entries := ?_
      replies := ?_
      accepted := ?_ }
  · intro other
    by_cases same : other = server
    · subst same
      dsimp only
      rw [update_self]
      exact (consistent.byRuns other).moves stepped
    · dsimp only
      rw [update_of_ne same]
      exact consistent.byRuns other
  · intro other delivery member
    by_cases same : other = server
    · subst same
      dsimp only at member
      rw [update_self] at member
      rcases deliveries delivery member with old | new
      · exact consistent.delivered other delivery old
      · exact new
    · dsimp only at member
      rw [update_of_ne same] at member
      exact consistent.delivered other delivery member
  · intro entry member
    obtain ⟨delivery, known, itself⟩ := consistent.entries entry member
    refine ⟨delivery, ?_, itself⟩
    by_cases same : entry.1.1 = server
    · dsimp only
      rw [same] at known ⊢
      rw [update_self]
      exact moves.delivered known
    · dsimp only
      rw [update_of_ne same]
      exact known
  · intro reply member
    obtain ⟨author, run, itsRun, replied⟩ := consistent.replies reply member
    by_cases same : author = server
    · subst same
      obtain ⟨index, present⟩ := List.mem_iff_getElem?.mp itsRun
      obtain ⟨run', present', sameId, sameQueue, added, history, _⟩ :=
        moves.run present
      refine ⟨author, run', ?_, replied.grow sameId sameQueue history⟩
      dsimp only
      rw [update_self]
      exact List.mem_of_getElem? present'
    · refine ⟨author, run, ?_, replied⟩
      dsimp only
      rw [update_of_ne same]
      exact itsRun
  · intro other run' member accepted
    by_cases same : other = server
    · subst same
      dsimp only at member
      rw [update_self] at member
      obtain ⟨index, present'⟩ := List.mem_iff_getElem?.mp member
      rcases moves.origin present' with ⟨run, present⟩ | silent
      · obtain ⟨found, place, sameId, _, added, history, accepts⟩ :=
          moves.run present
        cases place.symm.trans present'
        have reached : system.hasReached config other run = true := by
          rw [history] at accepted
          rcases List.mem_append.mp accepted with new | old
          · exact possible index (accepts new) run present
          · exact consistent.accepted other run (List.mem_of_getElem? present) old
        refine hasReached_mono reached (fun _ known => known) sameId ?_
        intro entry observed
        rw [history]
        exact List.mem_append_right _ observed
      · rw [silent] at accepted
        cases accepted
    · dsimp only at member
      rw [update_of_ne same] at member
      exact hasReached_mono (consistent.accepted other run' member accepted)
        (fun _ known => known) rfl fun _ observed => observed

omit [DecidableEq ι] [DecidableEq W] in
/-- The queue may take any step, if what it publishes was sent and what it
delivers is known to its server. -/
theorem Consistent.stepQueue
    {event : WorkQueueEvent (σ × DeliveryTag) (CommandMessage κ Buffer)}
    (consistent : system.Consistent config)
    (stepped : system.stepQueue event = some next)
    (publishes :
      ∀ message ∈ event.publishes,
        ∃ sender command, .sent command ∈ (system.senders sender).history ∧
          message = messageOf command)
    (delivers :
      ∀ tag message, event = .deliver tag message →
        ∃ delivery ∈ (system.servers tag.1).deliveries,
          delivery.tag = tag.2 ∧ delivery.message = message) :
    next.Consistent config := by
  obtain ⟨queue, taken, rfl⟩ := Option.map_eq_some_iff.mp stepped
  refine
    { answered := consistent.answered
      byRuns := consistent.byRuns
      accounted := consistent.accounted.step taken
      published := ?_
      delivered := ?_
      entries := ?_
      replies := consistent.replies
      accepted := consistent.accepted }
  · intro message member
    dsimp only at member
    rw [WorkQueue.published_step taken] at member
    rcases List.mem_append.mp member with new | old
    · exact publishes message new
    · exact consistent.published message old
  · intro server delivery member
    dsimp only
    rw [WorkQueue.published_step taken]
    exact List.mem_append_right _ (consistent.delivered server delivery member)
  · intro entry member
    rcases WorkQueue.entries_step taken member with old | new
    · exact consistent.entries entry old
    · exact delivers entry.1 entry.2 new

omit [DecidableEq ι] [DecidableEq W] in
/-- What can be delivered has been published. -/
theorem mem_published_of_deliver
    {tag : σ × DeliveryTag} {message : CommandMessage κ Buffer}
    (accounted : system.queue.Accounted)
    (stepped : system.stepQueue (.deliver tag message) = some next) :
    message ∈ system.queue.published := by
  obtain ⟨queue, taken, _⟩ := Option.map_eq_some_iff.mp stepped
  simp only [WorkQueue.step] at taken
  split at taken
  · rename_i deliverable
    refine accounted.conserved.mem_iff.mp ?_
    refine List.mem_append_left _ (List.mem_append_left _ ?_)
    exact List.mem_append_left _ (List.mem_append_right _ deliverable.1)
  · cases taken

omit [DecidableEq Buffer] in
theorem mem_deliveries_commandMessage
    {serverConfig : RpcServerConfig Buffer W} {before after : RpcServer κ Buffer W}
    {message : CommandMessage κ Buffer} {tag : DeliveryTag}
    (stepped :
      before.step serverConfig (.commandMessage message tag) = some after) :
    ⟨tag, message⟩ ∈ after.deliveries := by
  simp only [RpcServer.step] at stepped
  split at stepped
  · cases stepped
    exact List.mem_cons_self
  · cases stepped

omit [DecidableEq ι] [DecidableEq σ] [DecidableEq W] in
theorem Consistent.acceptReply
    (consistent : system.Consistent config)
    {server : σ} {reply : String × Buffer × κ}
    (sent : reply ∈ (system.servers server).replies) :
    { system with replies := reply :: system.replies }.Consistent config where
  answered sender :=
    (consistent.answered sender).mono fun _ _ arrived =>
      List.mem_cons_of_mem _ arrived
  byRuns := consistent.byRuns
  accounted := consistent.accounted
  published := consistent.published
  delivered := consistent.delivered
  entries := consistent.entries
  replies other member := by
    rcases List.mem_cons.mp member with rfl | old
    · obtain ⟨index, run, present, replied⟩ :=
        (consistent.byRuns server).replies other sent
      exact ⟨server, run, List.mem_of_getElem? present, replied⟩
    · exact consistent.replies other old
  accepted other run member accepted :=
    hasReached_mono (consistent.accepted other run member accepted)
      (fun _ known => List.mem_cons_of_mem _ known) rfl fun _ observed => observed

theorem consistent_preserved
    (config : RpcSystemConfig ι σ κ Buffer V W) (distinct : DistinctIds config) :
    (machine config).Preserved (Consistent config) := by
  intro system event next consistent stepped
  cases event with
  | commandAccepted sender command =>
      simp only [machine, step] at stepped
      split at stepped
      · rename_i sent
        refine consistent.stepQueue stepped ?_ nofun
        intro message member
        cases List.mem_singleton.mp member
        exact ⟨sender, command, sent.1, rfl⟩
      · cases stepped
  | commandReturned sender author command =>
      simp only [machine, step] at stepped
      split at stepped
      · exact consistent.send distinct stepped nofun
      · cases stepped
  | commandExpired message =>
      simp only [machine, step] at stepped
      exact consistent.stepQueue stepped nofun nofun
  | commandDelivered server message tag =>
      simp only [machine, step] at stepped
      obtain ⟨handled, first, last⟩ := Option.bind_eq_some_iff.mp stepped
      obtain ⟨after, taken, same⟩ := Option.map_eq_some_iff.mp first
      have known : message ∈ system.queue.published := by
        have member :=
          mem_published_of_deliver
            (show handled.queue.Accounted by
              rw [← same]
              exact consistent.accounted)
            last
        rw [← same] at member
        exact member
      have took : handled.Consistent config := by
        refine consistent.serve first ?_ nofun
        intro other otherTag itself
        cases itself
        exact known
      refine took.stepQueue last nofun ?_
      intro itsTag itsMessage itself
      cases itself
      refine ⟨⟨tag, message⟩, ?_, rfl, rfl⟩
      rw [← same]
      dsimp only
      rw [update_self]
      exact mem_deliveries_commandMessage taken
  | acknowledgementArrived server arrived =>
      simp only [machine, step] at stepped
      split at stepped
      · split at stepped
        · rename_i settled taken
          cases stepped
          exact consistent.stepQueue taken nofun nofun
        · exact consistent.stepQueue stepped nofun nofun
      · cases stepped
  | channelClosed server channel =>
      simp only [machine, step] at stepped
      exact consistent.stepQueue stepped nofun nofun
  | replyAccepted server reply =>
      simp only [machine, step] at stepped
      split at stepped
      · rename_i sent
        cases stepped
        exact consistent.acceptReply sent
      · cases stepped
  | replyDelivered sender content correlationId deliveryTag =>
      simp only [machine, step] at stepped
      split at stepped
      · rename_i arrived
        refine consistent.send distinct stepped ?_
        intro other id tag itself
        cases itself
        rw [(consistent.answered sender).sent.replyQueue] at arrived
        exact arrived
      · cases stepped
  | sent sender event =>
      simp only [machine, step] at stepped
      split at stepped
      · rename_i own
        refine consistent.send distinct stepped ?_
        intro content correlationId deliveryTag itself
        subst itself
        cases own
      · cases stepped
  | served server event =>
      simp only [machine, step] at stepped
      split at stepped
      · rename_i possible
        refine consistent.serve stepped ?_ ?_
        · intro message tag itself
          subst itself
          cases possible
        · intro index itself run present
          subst itself
          obtain ⟨found, held, reached⟩ := (Option.any_eq_true _ _).mp possible
          cases held.symm.trans present
          exact reached
      · cases stepped

/-! ## Responses come from handlers -/

/-- What happens to a sender in a step of the system. -/
def senderEvents (sender : ι) :
    RpcSystemEvent ι σ κ Buffer V W → List (CommandSenderEvent κ Buffer V)
  | .commandReturned other _ command =>
      if other = sender then [.commandMessageReturn command.correlationId] else []
  | .replyDelivered other content correlationId deliveryTag =>
      if other = sender then
        [.replyQueueMessage content correlationId deliveryTag]
      else
        []
  | .sent other event => if other = sender then [event] else []
  | _ => []

/-- What happens to a sender in a run of the system. -/
def senderSchedule
    (sender : ι) (schedule : List (RpcSystemEvent ι σ κ Buffer V W)) :
    List (CommandSenderEvent κ Buffer V) :=
  schedule.flatMap (senderEvents sender)

/-- In the run of the schedule the call of the sender sends the command. -/
def HasSent
    (config : RpcSystemConfig ι σ κ Buffer V W)
    (schedule : List (RpcSystemEvent ι σ κ Buffer V W)) (sender : ι) (index : ℕ)
    (command : SentCommand κ Buffer) : Prop :=
  CommandSender.HasSent (config.sender sender) (senderSchedule sender schedule)
    index command

/-- Every settled delivery was acknowledged by its server. -/
def SettledByServers (system : RpcSystem ι σ κ Buffer V W) : Prop :=
  ∀ entry ∈ system.queue.settled,
    entry.1.2 ∈ (system.servers entry.1.1).acknowledged

omit [DecidableEq ι] [DecidableEq Buffer] in
theorem SettledByServers.serve
    (settled : system.SettledByServers) {server : σ}
    {event : RpcServerEvent κ Buffer W}
    (served : system.serve config server event = some next) :
    next.SettledByServers := by
  obtain ⟨after, stepped, rfl⟩ := Option.map_eq_some_iff.mp served
  have moves := RpcServer.moves_of_step stepped
  intro entry member
  have before := settled entry member
  by_cases same : entry.1.1 = server
  · dsimp only
    rw [same] at before ⊢
    rw [update_self]
    exact moves.acknowledged before
  · dsimp only
    rw [update_of_ne same]
    exact before

omit [DecidableEq ι] [DecidableEq W] in
theorem SettledByServers.stepQueue
    {event : WorkQueueEvent (σ × DeliveryTag) (CommandMessage κ Buffer)}
    (settled : system.SettledByServers)
    (stepped : system.stepQueue event = some next)
    (settles :
      ∀ tag, event = .settle tag →
        tag.2 ∈ (system.servers tag.1).acknowledged) :
    next.SettledByServers := by
  obtain ⟨queue, taken, rfl⟩ := Option.map_eq_some_iff.mp stepped
  intro entry member
  rcases WorkQueue.settled_step taken member with old | new
  · exact settled entry old
  · exact settles entry.1 new

theorem settledByServers_preserved
    (config : RpcSystemConfig ι σ κ Buffer V W) :
    (machine config).PreservedUnder Orderly SettledByServers := by
  intro system event next settled orderly stepped
  cases event with
  | commandAccepted sender command =>
      simp only [machine, step] at stepped
      split at stepped
      · exact settled.stepQueue stepped nofun
      · cases stepped
  | commandReturned sender author command =>
      simp only [machine, step] at stepped
      split at stepped
      · obtain ⟨after, _, rfl⟩ := Option.map_eq_some_iff.mp stepped
        exact settled
      · cases stepped
  | commandExpired message =>
      simp only [machine, step] at stepped
      exact settled.stepQueue stepped nofun
  | commandDelivered server message tag =>
      simp only [machine, step] at stepped
      obtain ⟨handled, first, last⟩ := Option.bind_eq_some_iff.mp stepped
      exact (settled.serve first).stepQueue last nofun
  | acknowledgementArrived server arrived =>
      simp only [machine, step] at stepped
      split at stepped
      · split at stepped
        · rename_i following taken
          cases stepped
          refine settled.stepQueue taken ?_
          intro tag same
          cases same
          exact orderly
        · exact settled.stepQueue stepped nofun
      · cases stepped
  | channelClosed server channel =>
      simp only [machine, step] at stepped
      exact settled.stepQueue stepped nofun
  | replyAccepted server reply =>
      simp only [machine, step] at stepped
      split at stepped
      · cases stepped
        exact settled
      · cases stepped
  | replyDelivered sender content correlationId deliveryTag =>
      simp only [machine, step] at stepped
      split at stepped
      · obtain ⟨after, _, rfl⟩ := Option.map_eq_some_iff.mp stepped
        exact settled
      · cases stepped
  | sent sender event =>
      simp only [machine, step] at stepped
      split at stepped
      · obtain ⟨after, _, rfl⟩ := Option.map_eq_some_iff.mp stepped
        exact settled
      · cases stepped
  | served server event =>
      simp only [machine, step] at stepped
      split at stepped
      · exact settled.serve stepped
      · cases stepped

omit [DecidableEq ι] [DecidableEq σ] [DecidableEq W] in
/-- Messages that share a correlation id are the same command's. -/
theorem Consistent.replyQueue_eq
    (consistent : system.Consistent config) (distinct : DistinctIds config)
    {first second : CommandMessage κ Buffer}
    (firstly : first ∈ system.queue.published)
    (secondly : second ∈ system.queue.published)
    (sameId : first.correlationId = second.correlationId) :
    first.replyQueue = second.replyQueue := by
  obtain ⟨one, oneCommand, oneSent, rfl⟩ := consistent.published first firstly
  obtain ⟨two, twoCommand, twoSent, rfl⟩ := consistent.published second secondly
  obtain ⟨onePlace, _, _, _, oneId, oneQueue, _⟩ :=
    (consistent.answered one).sent.sent oneCommand oneSent
  obtain ⟨twoPlace, _, _, _, twoId, twoQueue, _⟩ :=
    (consistent.answered two).sent.sent twoCommand twoSent
  have same :
      (config.sender one).generateId onePlace =
        (config.sender two).generateId twoPlace :=
    oneId.symm.trans (Eq.trans sameId twoId)
  have places : (one, onePlace) = (two, twoPlace) := distinct same
  cases places
  exact Eq.trans oneQueue twoQueue.symm

omit [DecidableEq ι] [DecidableEq σ] [DecidableEq W] in
theorem Consistent.held_or_answered
    (consistent : system.Consistent config) (distinct : DistinctIds config)
    (settledByServers : system.SettledByServers)
    {message : CommandMessage κ Buffer}
    (published : message ∈ system.queue.published) :
    message ∈ system.queue.held ∨ message ∈ system.queue.lost ∨
      (∃ content,
        (message.replyQueue, content, message.correlationId) ∈
          system.replies) ∨
      ∃ server, ∃ run ∈ (system.servers server).runs,
        run.correlationId = message.correlationId ∧ .timedOut ∈ run.history := by
  rcases List.mem_append.mp (consistent.accounted.conserved.mem_iff.mpr published)
    with present | lost
  · rcases List.mem_append.mp present with held | settled
    · exact Or.inl held
    · obtain ⟨entry, itsEntry, rfl⟩ := List.mem_map.mp settled
      obtain ⟨own, ownKnown, ownTag, ownMessage⟩ :=
        consistent.entries entry (List.mem_append_right _ itsEntry)
      have byRuns := consistent.byRuns entry.1.1
      obtain ⟨index, run, present, answered, delivery, known, itsTag, itsId⟩ :=
        byRuns.acknowledged _ (settledByServers entry itsEntry)
      have sameDelivery :=
        byRuns.delivered.delivered_once _ (List.mem_map_of_mem known) _
          (List.mem_map_of_mem ownKnown) (itsTag.trans ownTag.symm)
      have sameKey :
          delivery.message.correlationId = own.message.correlationId :=
        congrArg KeyedLock.Delivery.key sameDelivery
      have runId : run.correlationId = entry.2.correlationId := by
        rw [← itsId, sameKey, ownMessage]
      have itsRun := List.mem_of_getElem? present
      rcases answered with accepted | timedOut
      · refine Or.inr (Or.inr (Or.inl ?_))
        have record := byRuns.provenance.runs run itsRun
        obtain ⟨observed, itself, reached⟩ :=
          List.any_eq_true.mp (consistent.accepted _ run itsRun accepted)
        cases observed with
        | replySent replyQueue reply =>
            obtain ⟨content, _, arrived⟩ := (Option.any_eq_true _ _).mp reached
            obtain ⟨origin, originKnown, originId, originQueue⟩ :=
              record.delivered
            have sameQueue :=
              consistent.replyQueue_eq distinct
                (consistent.delivered _ origin originKnown) published
                (originId.trans runId)
            refine ⟨content, ?_⟩
            rw [← sameQueue, originQueue, ← record.history.sent itself, ← runId]
            exact of_decide_eq_true arrived
        | _ => cases reached
      · exact Or.inr (Or.inr (Or.inr ⟨_, run, itsRun, runId, timedOut⟩))
  · exact Or.inr (Or.inl lost)

/-- What acknowledgements on their channels come to. -/
theorem settledByServers_run
    {schedule : List (RpcSystemEvent ι σ κ Buffer V W)}
    (orderly : (machine config).Throughout Orderly (create config) schedule)
    (execution : (machine config).run (create config) schedule = some system) :
    system.SettledByServers :=
  Machine.run_invariant_under (settledByServers_preserved config)
    (fun entry member => by cases member) orderly execution

/-- A command that has reached the queue is with the broker until it expires, or
until its reply has reached the broker or its handler has timed out: in every run
in which acknowledgements arrive on the channels of their deliveries. -/
theorem commands_held_or_answered
    (config : RpcSystemConfig ι σ κ Buffer V W)
    (distinct : DistinctIds config)
    (schedule : List (RpcSystemEvent ι σ κ Buffer V W))
    (system : RpcSystem ι σ κ Buffer V W)
    (orderly : (machine config).Throughout Orderly (create config) schedule)
    (execution : (machine config).run (create config) schedule = some system) :
    ∀ message ∈ system.queue.published,
      message ∈ system.queue.held ∨ message ∈ system.queue.lost ∨
        (∃ content,
          (message.replyQueue, content, message.correlationId) ∈
            system.replies) ∨
        ∃ server, ∃ run ∈ (system.servers server).runs,
          run.correlationId = message.correlationId ∧ .timedOut ∈ run.history := by
  have consistent : system.Consistent config :=
    Machine.run_invariant (consistent_preserved config distinct)
      (consistent_create config) execution
  intro message published
  exact consistent.held_or_answered distinct
    (settledByServers_run orderly execution) published

/-! ## One sender and one server -/

/-- Both parties exchange integers; the command has the name 7. -/
def integerConfig : RpcSystemConfig Unit Unit ℕ ℤ ℤ ℤ where
  queue := "commands"
  sender _ :=
    { queue := "commands"
      timeoutMs := .ofNat 30000
      replyQueueDisuseExpireMs := .ofNat 60000
      replyQueueId := "id"
      generateId := id
      text := fun _ => 7
      serialize := fun content => some content.command
      readReply := fun content => .ok (some content) }
  server _ := RpcServer.integerConfig

theorem integerConfig_distinctIds : DistinctIds integerConfig := by
  intro first second same
  exact Prod.ext rfl same

/-- A command is sent, handled, answered and acknowledged. -/
def answeredCommand : List (RpcSystemEvent Unit Unit ℕ ℤ ℤ ℤ) :=
  [.served () .listen, .served () (.setCommandHandler 7 .function),
    .sent () (.sendCommand "answer" 0),
    .sent () (.consumeRun 0 (.queueAsserted .fulfilled)),
    .sent () (.consumeRun 0 (.queueConsumed 7)), .sent () (.initialized 0),
    .commandAccepted ()
      ⟨"commands", 7, 0, "commands:replies:id", true, .ofNat 30000⟩,
    .sent () (.sendSettled 0 .fulfilled),
    .commandDelivered () ⟨0, "commands:replies:id", 7⟩ ⟨0, 1⟩,
    .served () (.command 0 (.handlerSettled (.resolved (some 42)))),
    .served () (.command 0 .proceed),
    .replyAccepted () ("commands:replies:id", 42, 0),
    .served () (.command 0 (.replySettled .fulfilled)),
    .served () (.command 0 .proceed), .acknowledgementArrived () ⟨0, 1⟩,
    .replyDelivered () 42 0 1, .sent () (.answered 0)]

/-- The call has been answered. -/
def answeredCall : SendCall ℕ ℤ where
  commandName := "answer"
  args := 0
  phase := .settled (.resolved (some 42))
  timer := none

theorem exists_answeredCommand :
    ∃ system,
      (machine integerConfig).run (create integerConfig) answeredCommand =
          some system ∧
        (system.senders ()).calls[0]? = some answeredCall ∧
        system.queue.published = [⟨0, "commands:replies:id", 7⟩] := by
  have runs :
      ((machine integerConfig).run (create integerConfig) answeredCommand).any
          (fun system =>
            (system.senders ()).calls[0]? = some answeredCall &&
              system.queue.published = [⟨0, "commands:replies:id", 7⟩]) =
        true := by
    decide
  obtain ⟨system, execution, observed⟩ := (Option.any_eq_true _ _).mp runs
  rw [Bool.and_eq_true] at observed
  exact ⟨system, execution, of_decide_eq_true observed.1,
    of_decide_eq_true observed.2⟩

theorem commands_held_or_answered_answered :
    ∃ system,
      (machine integerConfig).run (create integerConfig) answeredCommand =
          some system ∧
        (⟨0, "commands:replies:id", 7⟩ ∈ system.queue.held ∨
          ⟨0, "commands:replies:id", 7⟩ ∈ system.queue.lost ∨
          (∃ content,
            ("commands:replies:id", content, (0 : ℕ)) ∈ system.replies) ∨
          ∃ server, ∃ run ∈ (system.servers server).runs,
            run.correlationId = 0 ∧ .timedOut ∈ run.history) := by
  obtain ⟨system, execution, _, published⟩ := exists_answeredCommand
  refine ⟨system, execution, ?_⟩
  refine commands_held_or_answered integerConfig integerConfig_distinctIds
    answeredCommand system (by decide) execution
    ⟨0, "commands:replies:id", 7⟩ ?_
  rw [published]
  exact List.mem_cons_self

end RpcSystem

end Amq.Rpc
