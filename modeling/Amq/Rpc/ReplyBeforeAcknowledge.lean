import Amq.Rpc.RpcServer

/-!
# Replies come before acknowledgements

The run that acknowledges a command may use a tag that was recorded for another
delivery of it.  Its own history still tells that it has sent its reply before,
or that its timeout has made the reply needless.
-/


namespace Amq.Rpc

open Amq.Transition

namespace CommandRun

variable {κ Buffer V : Type}

/-- The history of a run in each phase. -/
inductive Recorded (replyQueue : String) :
    CommandPhase V → List (CommandObservation V) → Prop
  | handling (missing : Option JsError) :
      Recorded replyQueue (.handling missing) []
  | settled (outcome : HandlerOutcome V) :
      Recorded replyQueue (.handled (some outcome.reply))
        [.handlerSettled outcome]
  | timedOut : Recorded replyQueue (.handled none) [.timedOut]
  | replying (outcome : HandlerOutcome V) :
      Recorded replyQueue .replying
        [.replySent replyQueue outcome.reply, .handlerSettled outcome]
  | replied (outcome : HandlerOutcome V) :
      Recorded replyQueue .replied
        [.replyAccepted, .replySent replyQueue outcome.reply,
          .handlerSettled outcome]
  | acknowledgingUnanswered (tag : DeliveryTag) :
      Recorded replyQueue (.acknowledging tag) [.acknowledged tag, .timedOut]
  | acknowledgingAnswered (tag : DeliveryTag) (outcome : HandlerOutcome V) :
      Recorded replyQueue (.acknowledging tag)
        [.acknowledged tag, .replyAccepted,
          .replySent replyQueue outcome.reply, .handlerSettled outcome]
  | ended {phase : CommandPhase V} {history : List (CommandObservation V)}
      (before : Recorded replyQueue phase history) :
      Recorded replyQueue .ended history

theorem recorded_steps
    {surroundings : CommandSurroundings Buffer V} {run next : CommandRun κ V}
    {event : CommandEvent V} {effects : List (CommandEffect κ Buffer)}
    (recorded : Recorded run.replyQueue run.phase run.history)
    (stepped : Steps surroundings run event next effects) :
    Recorded next.replyQueue next.phase next.history := by
  cases stepped with
  | handlerSettled settled outcome missing handling itsOutcome =>
      rw [handling] at recorded
      dsimp only
      cases historyOf : run.history with
      | nil => exact .settled outcome
      | cons entry earlier =>
          rw [historyOf] at recorded
          cases recorded
  | timedOut missing handling =>
      rw [handling] at recorded
      dsimp only
      cases historyOf : run.history with
      | nil => exact .timedOut
      | cons entry earlier =>
          rw [historyOf] at recorded
          cases recorded
  | notReplied reply handled hindered => exact .ended recorded
  | replying reply content handled live serialized =>
      rw [handled] at recorded
      dsimp only
      generalize run.history = history at recorded ⊢
      cases recorded with
      | settled outcome => exact .replying outcome
  | replyAccepted replying =>
      rw [replying] at recorded
      dsimp only
      generalize run.history = history at recorded ⊢
      cases recorded with
      | replying outcome => exact .replied outcome
  | replyFailed replying => exact .ended recorded
  | proceedDisposed answered disposed => exact .ended recorded
  | proceedAcknowledging tag answered live actual =>
      dsimp only
      generalize run.history = history at recorded ⊢
      rcases answered with timedOut | replied
      · rw [timedOut] at recorded
        cases recorded with
        | timedOut => exact .acknowledgingUnanswered tag
      · rw [replied] at recorded
        cases recorded with
        | replied outcome => exact .acknowledgingAnswered tag outcome
  | proceedUnlocking answered live actual => exact .ended recorded
  | acknowledgeSettled tag settlement acknowledging => exact .ended recorded

/-- A reply has been passed to `sendToQueue`. -/
def isReplySent : CommandObservation V → Bool
  | .replySent _ _ => true
  | _ => false

/-- A run sends at most one reply, and none at all if it has timed out. -/
theorem Recorded.replies
    {replyQueue : String} {phase : CommandPhase V}
    {history : List (CommandObservation V)}
    (recorded : Recorded replyQueue phase history) :
    history.countP isReplySent ≤ 1 ∧
      (.timedOut ∈ history → history.countP isReplySent = 0) := by
  induction recorded with
  | ended before inductionHypothesis => exact inductionHypothesis
  | _ => simp [isReplySent, List.countP_cons]

/-- Before a run acknowledges, its reply has been accepted or it has timed out. -/
theorem Recorded.answered
    {replyQueue : String} {phase : CommandPhase V}
    {history : List (CommandObservation V)}
    (recorded : Recorded replyQueue phase history)
    (answered : phase = .handled none ∨ phase = .replied) :
    .replyAccepted ∈ history ∨ .timedOut ∈ history := by
  cases recorded with
  | timedOut => exact Or.inr List.mem_cons_self
  | replied outcome => exact Or.inl List.mem_cons_self
  | settled outcome => simp at answered
  | _ => simp at answered

end CommandRun

namespace RpcServer

variable {κ Buffer V : Type} [DecidableEq κ] [DecidableEq V]
variable {config : RpcServerConfig Buffer V}
variable {server next : RpcServer κ Buffer V}

/-! ## What one step of the server can do -/

/-- What the steps of runs and the deliveries do not touch. -/
structure Undisturbed (server next : RpcServer κ Buffer V) : Prop where
  runs : next.runs = server.runs
  deliveries : next.deliveries = server.deliveries
  replies : next.replies = server.replies
  acknowledged : next.acknowledged = server.acknowledged

inductive Moves
    (config : RpcServerConfig Buffer V) (server : RpcServer κ Buffer V) :
    RpcServerEvent κ Buffer V → RpcServer κ Buffer V → Prop
  | administers {event : RpcServerEvent κ Buffer V} {next : RpcServer κ Buffer V}
      (undisturbed : Undisturbed server next)
      (locks :
        next.messageRelevancyChecker = server.messageRelevancyChecker ∨
          next.messageRelevancyChecker = .empty) :
      Moves config server event next
  | delivers (message : CommandMessage κ Buffer) (tag : DeliveryTag)
      (listening : server.state = .listening) :
      Moves config server (.commandMessage message tag)
        (server.handleCommandMessage config message tag)
  | steps (index : ℕ) (event : CommandEvent V) {run following : CommandRun κ V}
      {effects : List (CommandEffect κ Buffer)}
      (present : server.runs[index]? = some run)
      (stepped :
        run.Steps (server.surroundings config run.correlationId) event following
          effects) :
      Moves config server (.command index event)
        (effects.foldl apply
          { server with runs := server.runs.set index following })

theorem moves_of_step
    {event : RpcServerEvent κ Buffer V}
    (stepped : server.step config event = some next) :
    Moves config server event next := by
  cases event with
  | listen =>
      cases stepped
      unfold listen
      split
      · exact .administers ⟨rfl, rfl, rfl, rfl⟩ (Or.inl rfl)
      · exact .administers ⟨rfl, rfl, rfl, rfl⟩ (Or.inl rfl)
  | dispose =>
      cases stepped
      unfold dispose
      split
      · exact .administers ⟨rfl, rfl, rfl, rfl⟩ (Or.inl rfl)
      · exact .administers ⟨rfl, rfl, rfl, rfl⟩ (Or.inl rfl)
  | setCommandHandler commandName handler =>
      cases stepped
      unfold setCommandHandler
      split
      · exact .administers ⟨rfl, rfl, rfl, rfl⟩ (Or.inl rfl)
      · exact .administers ⟨rfl, rfl, rfl, rfl⟩ (Or.inl rfl)
  | amqpReconnected =>
      cases stepped
      unfold unlockAll
      split
      · exact .administers ⟨rfl, rfl, rfl, rfl⟩ (Or.inr rfl)
      · exact .administers ⟨rfl, rfl, rfl, rfl⟩ (Or.inl rfl)
  | amqpChannelRecreated =>
      cases stepped
      unfold unlockAll
      split
      · exact .administers ⟨rfl, rfl, rfl, rfl⟩ (Or.inr rfl)
      · exact .administers ⟨rfl, rfl, rfl, rfl⟩ (Or.inl rfl)
  | commandMessage message tag =>
      simp only [step] at stepped
      split at stepped
      · rename_i accepted
        cases stepped
        exact .delivers message tag accepted.1
      · cases stepped
  | command index event =>
      simp only [step, stepCommand] at stepped
      split at stepped
      · rename_i run present
        split at stepped
        · rename_i following effects taken
          cases stepped
          exact .steps index event present (CommandRun.steps_of_step taken)
        · cases stepped
      · cases stepped

omit [DecidableEq V] in
theorem effects_runs
    (server : RpcServer κ Buffer V) (effects : List (CommandEffect κ Buffer)) :
    (effects.foldl apply server).runs = server.runs ∧
      (effects.foldl apply server).deliveries = server.deliveries ∧
      (effects.foldl apply server).state = server.state := by
  induction effects generalizing server with
  | nil => exact ⟨rfl, rfl, rfl⟩
  | cons effect rest inductionHypothesis =>
      obtain ⟨runs, deliveries, state⟩ := inductionHypothesis (server.apply effect)
      cases effect with
      | reply replyQueue content correlationId => exact ⟨runs, deliveries, state⟩
      | acknowledge tag => exact ⟨runs, deliveries, state⟩
      | unlock correlationId => exact ⟨runs, deliveries, state⟩

/-! ## Where runs and tags come from -/

/-- The run belongs to a delivery, and its history tells where it stands. -/
structure RunRecord
    (deliveries : List (CommandDelivery κ Buffer)) (run : CommandRun κ V) :
    Prop where
  delivered :
    ∃ delivery ∈ deliveries,
      delivery.message.correlationId = run.correlationId ∧
        delivery.message.replyQueue = run.replyQueue
  history : CommandRun.Recorded run.replyQueue run.phase run.history

/-- Every stored tag is that of a delivery of its command. -/
structure Provenance (server : RpcServer κ Buffer V) : Prop where
  stored :
    ∀ correlationId tag,
      server.messageRelevancyChecker.correlationIds correlationId = some tag →
        ∃ delivery ∈ server.deliveries, delivery.tag = tag ∧
          delivery.message.correlationId = correlationId
  runs : ∀ run ∈ server.runs, RunRecord server.deliveries run

omit [DecidableEq κ] [DecidableEq V] in
theorem RunRecord.grow
    {deliveries : List (CommandDelivery κ Buffer)} {run : CommandRun κ V}
    (record : RunRecord deliveries run) (delivery : CommandDelivery κ Buffer) :
    RunRecord (delivery :: deliveries) run := by
  obtain ⟨own, member, same⟩ := record.delivered
  exact ⟨⟨own, List.mem_cons_of_mem _ member, same⟩, record.history⟩

omit [DecidableEq κ] [DecidableEq V] in
theorem startRun_recorded
    (config : RpcServerConfig Buffer V) (server : RpcServer κ Buffer V)
    (message : CommandMessage κ Buffer) :
    CommandRun.Recorded message.replyQueue (server.startRun config message).phase
      (server.startRun config message).history := by
  unfold startRun
  dsimp only
  split
  · exact .ended (.handling none)
  · split
    · exact .ended (.handling none)
    · split
      · exact .handling none
      · exact .handling _

omit [DecidableEq V] in
theorem Provenance.deliver
    (provenance : server.Provenance)
    (message : CommandMessage κ Buffer) (tag : DeliveryTag) :
    (server.handleCommandMessage config message tag).Provenance := by
  refine ⟨?_, ?_⟩
  · intro correlationId stored found
    by_cases own : correlationId = message.correlationId
    · subst own
      simp only [handleCommandMessage, MessageRelevancyChecker.lock,
        Function.update_self, Option.some.injEq] at found
      exact ⟨⟨tag, message⟩, List.mem_cons_self, found, rfl⟩
    · simp only [handleCommandMessage, MessageRelevancyChecker.lock,
        Function.update_of_ne own] at found
      obtain ⟨delivery, member, same⟩ := provenance.stored correlationId stored found
      exact ⟨delivery, List.mem_cons_of_mem _ member, same⟩
  · have earlier :
        ∀ run ∈ server.runs, RunRecord (⟨tag, message⟩ :: server.deliveries) run :=
      fun run member => (provenance.runs run member).grow ⟨tag, message⟩
    intro run member
    simp only [handleCommandMessage] at member
    split at member
    · rcases List.mem_append.mp member with old | new
      · exact earlier run old
      · rw [List.mem_singleton.mp new]
        exact
          ⟨⟨⟨tag, message⟩, List.mem_cons_self, rfl, rfl⟩,
            startRun_recorded config server message⟩
    · exact earlier run member

omit [DecidableEq V] in
theorem Provenance.effects
    (provenance : server.Provenance) (effects : List (CommandEffect κ Buffer)) :
    (effects.foldl apply server).Provenance := by
  induction effects generalizing server with
  | nil => exact provenance
  | cons effect rest inductionHypothesis =>
      refine inductionHypothesis ?_
      cases effect with
      | reply replyQueue content correlationId =>
          exact ⟨provenance.stored, provenance.runs⟩
      | acknowledge tag => exact ⟨provenance.stored, provenance.runs⟩
      | unlock correlationId =>
          refine ⟨?_, provenance.runs⟩
          intro other tag found
          by_cases own : other = correlationId
          · subst own
            simp [apply, MessageRelevancyChecker.unlock] at found
          · simp only [apply, MessageRelevancyChecker.unlock,
              Function.update_of_ne own] at found
            exact provenance.stored other tag found

omit [DecidableEq κ] [DecidableEq V] in
theorem steps_identity
    {surroundings : CommandSurroundings Buffer V} {run following : CommandRun κ V}
    {event : CommandEvent V} {effects : List (CommandEffect κ Buffer)}
    (stepped : run.Steps surroundings event following effects) :
    following.correlationId = run.correlationId ∧
      following.replyQueue = run.replyQueue := by
  cases stepped <;> exact ⟨rfl, rfl⟩

theorem provenance_preserved (config : RpcServerConfig Buffer V) :
    (machine config).Preserved
      (Provenance : RpcServer κ Buffer V → Prop) := by
  intro server event next provenance stepped
  cases moves_of_step stepped with
  | administers undisturbed locks =>
      refine ⟨?_, ?_⟩
      · intro correlationId tag found
        rw [undisturbed.deliveries]
        rcases locks with same | unlocked
        · rw [same] at found
          exact provenance.stored correlationId tag found
        · rw [unlocked] at found
          cases found
      · rw [undisturbed.runs, undisturbed.deliveries]
        exact provenance.runs
  | delivers message tag listening => exact provenance.deliver message tag
  | @steps index event run following effects present taken =>
      have moved :
          Provenance { server with runs := server.runs.set index following } := by
        refine ⟨provenance.stored, ?_⟩
        intro other member
        rcases List.mem_or_eq_of_mem_set member with earlier | same
        · exact provenance.runs other earlier
        · have record := provenance.runs run (List.mem_of_getElem? present)
          obtain ⟨sameId, sameQueue⟩ := steps_identity taken
          subst same
          refine ⟨?_, CommandRun.recorded_steps record.history taken⟩
          rw [sameId, sameQueue]
          exact record.delivered
      exact moved.effects effects

theorem provenance_run
    {schedule : List (RpcServerEvent κ Buffer V)}
    (execution :
      (machine config).run (machine config).initial schedule = some server) :
    server.Provenance := by
  refine Machine.run_invariant (provenance_preserved config) ⟨?_, ?_⟩ execution
  · intro correlationId tag found
    cases found
  · intro run member
    cases member

/-! ## Replies and acknowledgements of one step -/

/-- Commands that share a correlation id are the same command. -/
def DistinctCommands (server : RpcServer κ Buffer V) : Prop :=
  ∀ first ∈ server.deliveries, ∀ second ∈ server.deliveries,
    first.message.correlationId = second.message.correlationId →
      first.message = second.message

/-- The reply says how the handler has settled, and with what: a result or a value
as it is, of an `Error` its message, name and stack and the code of an
`AppError`. -/
def IsReplyTo (outcome : HandlerOutcome V) (reply : Reply V) : Prop :=
  match outcome with
  | .resolved result =>
      reply.state = .success ∧ reply.data = .value result
  | .rejected (.value value) =>
      reply.state = .error ∧ reply.data = .value value
  | .rejected (.error error) =>
      reply.state = .error ∧
        reply.data =
          .error ⟨error.message, error.name, error.stack, error.appErrorCode⟩

omit [DecidableEq V] in
theorem isReplyTo_reply (outcome : HandlerOutcome V) :
    IsReplyTo outcome outcome.reply := by
  cases outcome with
  | resolved result => exact ⟨rfl, rfl⟩
  | rejected rejection => cases rejection <;> exact ⟨rfl, rfl⟩

/-- What a step of the server does to replies and acknowledgements. -/
structure AnswersFirst
    (config : RpcServerConfig Buffer V)
    (server next : RpcServer κ Buffer V) : Prop where
  /-- A tag is acknowledged for a delivery of a command for which some run has
  had its reply accepted or has timed out. -/
  acknowledges :
    next.acknowledged = server.acknowledged ∨
      ∃ delivery ∈ server.deliveries,
        next.acknowledged = delivery.tag :: server.acknowledged ∧
          ∃ run ∈ server.runs,
            run.correlationId = delivery.message.correlationId ∧
              (.replyAccepted ∈ run.history ∨ .timedOut ∈ run.history)
  /-- A reply holds the outcome of a run that has neither replied before nor
  timed out, and goes where its command wants it. -/
  replies :
    next.replies = server.replies ∨
      (server.state ≠ .disposed ∧
        ∃ (index : ℕ) (run run' : CommandRun κ V) (outcome : HandlerOutcome V)
          (reply : Reply V) (content : Buffer),
          server.runs[index]? = some run ∧ next.runs[index]? = some run' ∧
            run'.history = .replySent run.replyQueue reply :: run.history ∧
            .handlerSettled outcome ∈ run.history ∧ IsReplyTo outcome reply ∧
            run.history.countP CommandRun.isReplySent = 0 ∧
            .timedOut ∉ run.history ∧
            config.serialize reply = some content ∧
            next.replies =
              (run.replyQueue, content, run.correlationId) :: server.replies ∧
            (∃ delivery ∈ server.deliveries,
              delivery.message.correlationId = run.correlationId) ∧
            ∀ delivery ∈ server.deliveries,
              delivery.message.correlationId = run.correlationId →
                delivery.message.replyQueue = run.replyQueue)
  /-- No run replies twice, or although it has timed out. -/
  runs :
    ∀ run ∈ next.runs,
      run.history.countP CommandRun.isReplySent ≤ 1 ∧
        (.timedOut ∈ run.history →
          run.history.countP CommandRun.isReplySent = 0)

omit [DecidableEq κ] [DecidableEq V] in
/-- The delivery that a run belongs to is that of every delivery with its id. -/
theorem RunRecord.replyQueue
    {run : CommandRun κ V} (record : RunRecord server.deliveries run)
    (distinct : server.DistinctCommands)
    {delivery : CommandDelivery κ Buffer} (member : delivery ∈ server.deliveries)
    (same : delivery.message.correlationId = run.correlationId) :
    delivery.message.replyQueue = run.replyQueue := by
  obtain ⟨own, itsMember, itsId, itsQueue⟩ := record.delivered
  have equal := distinct delivery member own itsMember (same.trans itsId.symm)
  rw [equal]
  exact itsQueue

omit [DecidableEq V] in
theorem answersFirst_steps
    (provenance : server.Provenance)
    {index : ℕ} {event : CommandEvent V} {run following : CommandRun κ V}
    {effects : List (CommandEffect κ Buffer)}
    (present : server.runs[index]? = some run)
    (stepped :
      run.Steps (server.surroundings config run.correlationId) event following
        effects) :
    ((effects.foldl apply
          { server with runs := server.runs.set index following }).acknowledged =
        server.acknowledged ∨
      ∃ delivery ∈ server.deliveries,
        (effects.foldl apply
            { server with
              runs := server.runs.set index following }).acknowledged =
            delivery.tag :: server.acknowledged ∧
          run.correlationId = delivery.message.correlationId ∧
            (.replyAccepted ∈ run.history ∨ .timedOut ∈ run.history)) ∧
      ((effects.foldl apply
          { server with runs := server.runs.set index following }).replies =
        server.replies ∨
      (server.state ≠ .disposed ∧
        ∃ (outcome : HandlerOutcome V) (content : Buffer),
          following.history =
              .replySent run.replyQueue outcome.reply :: run.history ∧
            .handlerSettled outcome ∈ run.history ∧
            run.history.countP CommandRun.isReplySent = 0 ∧
            .timedOut ∉ run.history ∧
            config.serialize outcome.reply = some content ∧
            (effects.foldl apply
                { server with
                  runs := server.runs.set index following }).replies =
              (run.replyQueue, content, run.correlationId) ::
                server.replies)) := by
  have record := provenance.runs run (List.mem_of_getElem? present)
  cases stepped with
  | replying reply content handled live serialized =>
      refine ⟨Or.inl rfl, Or.inr ⟨?_, ?_⟩⟩
      · intro disposed
        simp [surroundings, disposed] at live
      · have recorded := record.history
        rw [handled] at recorded
        generalize historyOf : run.history = history at recorded ⊢
        cases recorded with
        | settled outcome =>
            exact ⟨outcome, content, rfl, List.mem_cons_self, rfl, by simp,
              serialized, rfl⟩
  | proceedAcknowledging tag answered live actual =>
      refine ⟨Or.inr ?_, Or.inl rfl⟩
      have stored := MessageRelevancyChecker.stored_of_getDeliveryTag actual
      obtain ⟨delivery, member, itsTag, itsId⟩ :=
        provenance.stored run.correlationId tag stored
      subst itsTag
      exact ⟨delivery, member, rfl, itsId.symm, record.history.answered answered⟩
  | _ => exact ⟨Or.inl rfl, Or.inl rfl⟩

/-- In every run of the server, whatever is acknowledged has been answered, and
whatever is answered is answered once, by its own outcome. -/
theorem answers_before_acknowledging
    (config : RpcServerConfig Buffer V)
    (schedule : List (RpcServerEvent κ Buffer V))
    (event : RpcServerEvent κ Buffer V)
    (server next : RpcServer κ Buffer V)
    (execution :
      (machine config).run (machine config).initial schedule = some server)
    (distinct : server.DistinctCommands)
    (stepped : server.step config event = some next) :
    AnswersFirst config server next := by
  have provenance := provenance_run execution
  have nextProvenance : next.Provenance :=
    provenance_preserved config server event next provenance stepped
  have runs :
      ∀ run ∈ next.runs,
        run.history.countP CommandRun.isReplySent ≤ 1 ∧
          (.timedOut ∈ run.history →
            run.history.countP CommandRun.isReplySent = 0) :=
    fun run member => (nextProvenance.runs run member).history.replies
  cases moves_of_step stepped with
  | administers undisturbed locks =>
      exact ⟨Or.inl undisturbed.acknowledged, Or.inl undisturbed.replies, runs⟩
  | delivers message tag listening => exact ⟨Or.inl rfl, Or.inl rfl, runs⟩
  | @steps index event run following effects present taken =>
      obtain ⟨acknowledges, replies⟩ :=
        answersFirst_steps provenance present taken
      refine ⟨?_, ?_, runs⟩
      · refine acknowledges.imp_right ?_
        rintro ⟨delivery, member, added, itsId, answered⟩
        exact ⟨delivery, member, added, run, List.mem_of_getElem? present, itsId,
          answered⟩
      · refine replies.imp_right ?_
        rintro ⟨live, outcome, content, history, settled, first, inTime,
          serialized, added⟩
        have record := provenance.runs run (List.mem_of_getElem? present)
        have inRange := (List.getElem?_eq_some_iff.mp present).1
        obtain ⟨own, itsMember, itsId, _⟩ := record.delivered
        refine ⟨live, index, run, following, outcome, outcome.reply, content,
          present, ?_, history, settled, isReplyTo_reply outcome, first, inTime,
          serialized, added, ⟨own, itsMember, itsId⟩,
          fun delivery member same => record.replyQueue distinct member same⟩
        rw [(effects_runs _ effects).1]
        exact List.getElem?_set_self inRange

/-- The first command has been handled and answered. -/
def firstAnswered : List (RpcServerEvent ℕ ℤ ℤ) :=
  firstDelivery ++
    [.command 0 (.handlerSettled (.resolved (some 3))), .command 0 .proceed,
      .command 0 (.replySettled .fulfilled)]

theorem answers_before_acknowledging_first :
    ∃ server next : RpcServer ℕ ℤ ℤ,
      AnswersFirst integerConfig server next ∧ next.acknowledged = [⟨0, 1⟩] ∧
        next.replies = [("replies", 3, 1)] := by
  refine ⟨_, _,
    answers_before_acknowledging integerConfig firstAnswered
      (.command 0 .proceed) _ _ rfl ?_ rfl, rfl, rfl⟩
  intro first member second other _
  rw [List.mem_singleton.mp member, List.mem_singleton.mp other]

end RpcServer

end Amq.Rpc
