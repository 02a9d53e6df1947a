import Amq.Rpc.ReplyBeforeAcknowledge
import Amq.Transition.Records

/-!
# Runs, their replies and the deliveries that they acknowledge

A run of the RPC server keeps its place, and its history only grows.  Every
reply is that of a run whose handler has settled with it, and every acknowledged
delivery has a run whose reply was accepted or whose timeout had passed.
-/


namespace Amq.Rpc

open Amq.Transition

namespace CommandRun

variable {κ Buffer V : Type}

/-- A step adds to the history, and what it adds tells about the event. -/
theorem exists_added
    {surroundings : CommandSurroundings Buffer V} {run next : CommandRun κ V}
    {event : CommandEvent V} {effects : List (CommandEffect κ Buffer)}
    (stepped : Steps surroundings run event next effects) :
    ∃ added, next.history = added ++ run.history ∧
      (.replyAccepted ∈ added → event = .replySettled .fulfilled) := by
  cases stepped with
  | handlerSettled settled outcome missing handling itsOutcome =>
      exact ⟨[.handlerSettled outcome], rfl, by simp⟩
  | timedOut missing handling => exact ⟨[.timedOut], rfl, by simp⟩
  | notReplied reply handled hindered => exact ⟨[], rfl, by simp⟩
  | replying reply content handled live serialized =>
      exact ⟨[.replySent run.replyQueue reply], rfl, by simp⟩
  | replyAccepted replying => exact ⟨[.replyAccepted], rfl, fun _ => rfl⟩
  | replyFailed replying => exact ⟨[], rfl, by simp⟩
  | proceedDisposed answered disposed => exact ⟨[], rfl, by simp⟩
  | proceedAcknowledging tag answered live actual =>
      exact ⟨[.acknowledged tag], rfl, by simp⟩
  | proceedUnlocking answered live actual => exact ⟨[], rfl, by simp⟩
  | acknowledgeSettled tag settlement acknowledging => exact ⟨[], rfl, by simp⟩

/-- An accepted reply is one that the run has sent. -/
theorem Recorded.accepted
    {replyQueue : String} {phase : CommandPhase V}
    {history : List (CommandObservation V)}
    (recorded : Recorded replyQueue phase history)
    (accepted : .replyAccepted ∈ history) :
    ∃ outcome : HandlerOutcome V, .handlerSettled outcome ∈ history ∧
      .replySent replyQueue outcome.reply ∈ history := by
  induction recorded with
  | ended before inductionHypothesis => exact inductionHypothesis accepted
  | replied outcome => exact ⟨outcome, by simp, by simp⟩
  | acknowledgingAnswered tag outcome => exact ⟨outcome, by simp, by simp⟩
  | _ => simp at accepted

/-- A run replies where its command wants it. -/
theorem Recorded.sent
    {replyQueue other : String} {phase : CommandPhase V}
    {history : List (CommandObservation V)} {reply : Reply V}
    (recorded : Recorded replyQueue phase history)
    (sent : .replySent other reply ∈ history) : other = replyQueue := by
  induction recorded with
  | ended before inductionHypothesis => exact inductionHypothesis sent
  | replying outcome => simp_all
  | replied outcome => simp_all
  | acknowledgingAnswered tag outcome => simp_all
  | _ => simp at sent

end CommandRun

namespace RpcServer

variable {κ Buffer V : Type} [DecidableEq κ] [DecidableEq V]
variable {config : RpcServerConfig Buffer V}
variable {server next : RpcServer κ Buffer V}

section

omit [DecidableEq V]

/-- The effects of a step on replies and acknowledgements. -/
theorem effects_records
    (server : RpcServer κ Buffer V) {run following : CommandRun κ V}
    {surroundings : CommandSurroundings Buffer V} {event : CommandEvent V}
    {effects : List (CommandEffect κ Buffer)}
    (stepped : run.Steps surroundings event following effects) :
    ((effects.foldl apply server).replies = server.replies ∨
        ∃ reply content, run.phase = .handled (some reply) ∧
          surroundings.serialize reply = some content ∧
          .replySent run.replyQueue reply ∈ following.history ∧
          (effects.foldl apply server).replies =
            (run.replyQueue, content, run.correlationId) :: server.replies) ∧
      ((effects.foldl apply server).acknowledged = server.acknowledged ∨
        ∃ tag, surroundings.actualDeliveryTag = some tag ∧
          (run.phase = .handled none ∨ run.phase = .replied) ∧
          (effects.foldl apply server).acknowledged =
            tag :: server.acknowledged) := by
  cases stepped with
  | replying reply content handled live serialized =>
      exact ⟨Or.inr ⟨reply, content, handled, serialized, List.mem_cons_self, rfl⟩,
        Or.inl rfl⟩
  | proceedAcknowledging tag answered live actual =>
      exact ⟨Or.inl rfl, Or.inr ⟨tag, actual, answered, rfl⟩⟩
  | _ => exact ⟨Or.inl rfl, Or.inl rfl⟩

/-- A run keeps its place, and changes by its own steps only. -/
theorem Moves.run
    {event : RpcServerEvent κ Buffer V} (moves : Moves config server event next)
    {index : ℕ} {run : CommandRun κ V}
    (present : server.runs[index]? = some run) :
    ∃ run', next.runs[index]? = some run' ∧
      run'.correlationId = run.correlationId ∧
      run'.replyQueue = run.replyQueue ∧
      ∃ added, run'.history = added ++ run.history ∧
        (.replyAccepted ∈ added →
          event = .command index (.replySettled .fulfilled)) := by
  cases moves with
  | administers undisturbed locks =>
      refine ⟨run, ?_, rfl, rfl, [], rfl, by simp⟩
      rw [undisturbed.runs]
      exact present
  | delivers message tag listening =>
      refine ⟨run, ?_, rfl, rfl, [], rfl, by simp⟩
      unfold handleCommandMessage
      dsimp only
      split
      · exact List.getElem?_append_left
          (List.getElem?_eq_some_iff.mp present).1 ▸ present
      · exact present
  | @steps place event old following effects found stepped =>
      by_cases own : place = index
      · subst own
        cases found.symm.trans present
        obtain ⟨added, history, accepts⟩ := CommandRun.exists_added stepped
        obtain ⟨sameId, sameQueue⟩ := steps_identity stepped
        refine ⟨following, ?_, sameId, sameQueue, added, history, ?_⟩
        · rw [(effects_runs _ effects).1]
          exact List.getElem?_set_self (List.getElem?_eq_some_iff.mp present).1
        · intro accepted
          rw [accepts accepted]
      · refine ⟨run, ?_, rfl, rfl, [], rfl, by simp⟩
        rw [(effects_runs _ effects).1]
        exact (List.getElem?_set_ne own).trans present

/-- A new run has observed nothing. -/
theorem Moves.origin
    {event : RpcServerEvent κ Buffer V} (moves : Moves config server event next)
    {index : ℕ} {run' : CommandRun κ V}
    (present' : next.runs[index]? = some run') :
    (∃ run, server.runs[index]? = some run) ∨ run'.history = [] := by
  cases moves with
  | administers undisturbed locks =>
      rw [undisturbed.runs] at present'
      exact Or.inl ⟨run', present'⟩
  | delivers message tag listening =>
      unfold handleCommandMessage at present'
      dsimp only at present'
      split at present'
      · rcases concat_cases present' with earlier | ⟨_, started⟩
        · exact Or.inl ⟨run', earlier⟩
        · subst started
          exact Or.inr rfl
      · exact Or.inl ⟨run', present'⟩
  | @steps place event old following effects found stepped =>
      rw [(effects_runs _ effects).1] at present'
      rcases set_cases present' with ⟨rfl, _⟩ | ⟨_, earlier⟩
      · exact Or.inl ⟨old, found⟩
      · exact Or.inl ⟨run', earlier⟩

theorem Moves.delivered
    {event : RpcServerEvent κ Buffer V} (moves : Moves config server event next)
    {delivery : CommandDelivery κ Buffer} (member : delivery ∈ server.deliveries) :
    delivery ∈ next.deliveries := by
  cases moves with
  | administers undisturbed locks =>
      rw [undisturbed.deliveries]
      exact member
  | delivers message tag listening => exact List.mem_cons_of_mem _ member
  | steps index event present stepped =>
      rw [(effects_runs _ _).2.1]
      exact member

theorem Moves.acknowledged
    {event : RpcServerEvent κ Buffer V} (moves : Moves config server event next)
    {tag : DeliveryTag} (member : tag ∈ server.acknowledged) :
    tag ∈ next.acknowledged := by
  cases moves with
  | administers undisturbed locks =>
      rw [undisturbed.acknowledged]
      exact member
  | delivers message tag listening => exact member
  | @steps index event run following effects present stepped =>
      rcases (effects_records
          { server with runs := server.runs.set index following } stepped).2 with
        same | ⟨new, _, _, grown⟩
      · rw [same]
        exact member
      · rw [grown]
        exact List.mem_cons_of_mem _ member

end

/-! ## Which runs have replied and acknowledged -/

/-- The run has settled with the outcome that this reply holds. -/
def HasReplied
    (config : RpcServerConfig Buffer V) (run : CommandRun κ V)
    (reply : String × Buffer × κ) : Prop :=
  run.replyQueue = reply.1 ∧ run.correlationId = reply.2.2 ∧
    ∃ outcome : HandlerOutcome V, .handlerSettled outcome ∈ run.history ∧
      .replySent reply.1 outcome.reply ∈ run.history ∧
      config.serialize outcome.reply = some reply.2.1

structure ByRuns
    (config : RpcServerConfig Buffer V) (server : RpcServer κ Buffer V) : Prop where
  provenance : server.Provenance
  delivered : KeyedLock.DeliveryInvariant (lockState server)
  replies :
    ∀ reply ∈ server.replies,
      ∃ (index : ℕ) (run : CommandRun κ V), server.runs[index]? = some run ∧
        HasReplied config run reply
  acknowledged :
    ∀ tag ∈ server.acknowledged,
      ∃ (index : ℕ) (run : CommandRun κ V), server.runs[index]? = some run ∧
        (.replyAccepted ∈ run.history ∨ .timedOut ∈ run.history) ∧
        ∃ delivery ∈ server.deliveries, delivery.tag = tag ∧
          delivery.message.correlationId = run.correlationId

omit [DecidableEq κ] [DecidableEq V] in
theorem HasReplied.grow
    {run run' : CommandRun κ V} {reply : String × Buffer × κ}
    (replied : HasReplied config run reply)
    (sameId : run'.correlationId = run.correlationId)
    (sameQueue : run'.replyQueue = run.replyQueue)
    {added : List (CommandObservation V)}
    (history : run'.history = added ++ run.history) :
    HasReplied config run' reply := by
  obtain ⟨itsQueue, itsId, outcome, settled, sent, serialized⟩ := replied
  refine ⟨sameQueue.trans itsQueue, sameId.trans itsId, outcome, ?_, ?_,
    serialized⟩
  · rw [history]
    exact List.mem_append_right _ settled
  · rw [history]
    exact List.mem_append_right _ sent

theorem ByRuns.moves
    {event : RpcServerEvent κ Buffer V}
    (byRuns : ByRuns config server)
    (stepped : server.step config event = some next) :
    ByRuns config next := by
  have moves := moves_of_step stepped
  have provenance := provenance_preserved config _ _ _ byRuns.provenance stepped
  have delivered :
      KeyedLock.DeliveryInvariant (lockState next) :=
    Machine.run_invariant KeyedLock.deliveryInvariant_preserved byRuns.delivered
      ((lockRefinement config).step server event next stepped)
  have earlierReplies :
      ∀ reply ∈ server.replies,
        ∃ (index : ℕ) (run : CommandRun κ V), next.runs[index]? = some run ∧
          HasReplied config run reply := by
    intro reply member
    obtain ⟨index, run, present, replied⟩ := byRuns.replies reply member
    obtain ⟨run', present', sameId, sameQueue, added, history, _⟩ :=
      moves.run present
    exact ⟨index, run', present', replied.grow sameId sameQueue history⟩
  have earlierTags :
      ∀ tag ∈ server.acknowledged,
        ∃ (index : ℕ) (run : CommandRun κ V), next.runs[index]? = some run ∧
          (.replyAccepted ∈ run.history ∨ .timedOut ∈ run.history) ∧
          ∃ delivery ∈ next.deliveries, delivery.tag = tag ∧
            delivery.message.correlationId = run.correlationId := by
    intro tag member
    obtain ⟨index, run, present, answered, delivery, known, itsTag, itsId⟩ :=
      byRuns.acknowledged tag member
    obtain ⟨run', present', sameId, _, added, history, _⟩ := moves.run present
    refine ⟨index, run', present', ?_, delivery, moves.delivered known, itsTag,
      itsId.trans sameId.symm⟩
    rw [history]
    exact answered.imp (List.mem_append_right _) (List.mem_append_right _)
  refine ⟨provenance, delivered, ?_, ?_⟩
  · intro reply member
    cases moves with
    | administers undisturbed locks =>
        rw [undisturbed.replies] at member
        exact earlierReplies reply member
    | delivers message tag listening => exact earlierReplies reply member
    | @steps index event run following effects present taken =>
        have record := byRuns.provenance.runs run (List.mem_of_getElem? present)
        rcases (effects_records
            { server with runs := server.runs.set index following } taken).1 with
          same | ⟨content, bytes, handled, serialized, sent, grown⟩
        · rw [same] at member
          exact earlierReplies reply member
        · rw [grown] at member
          rcases List.mem_cons.mp member with rfl | old
          · have history := record.history
            rw [handled] at history
            obtain ⟨sameId, sameQueue⟩ := steps_identity taken
            obtain ⟨added, grownHistory, _⟩ := CommandRun.exists_added taken
            refine ⟨index, following, ?_, sameQueue, sameId, ?_⟩
            · rw [(effects_runs _ effects).1]
              exact
                List.getElem?_set_self (List.getElem?_eq_some_iff.mp present).1
            · generalize observed : run.history = earlier at history
              cases history with
              | settled outcome =>
                  refine ⟨outcome, ?_, sent, serialized⟩
                  rw [grownHistory, observed]
                  exact List.mem_append_right _ List.mem_cons_self
          · exact earlierReplies reply old
  · intro tag member
    cases moves with
    | administers undisturbed locks =>
        rw [undisturbed.acknowledged] at member
        exact earlierTags tag member
    | delivers message new listening => exact earlierTags tag member
    | @steps index event run following effects present taken =>
        have record := byRuns.provenance.runs run (List.mem_of_getElem? present)
        rcases (effects_records
            { server with runs := server.runs.set index following } taken).2 with
          same | ⟨new, actual, answered, grown⟩
        · rw [same] at member
          exact earlierTags tag member
        · rw [grown] at member
          rcases List.mem_cons.mp member with rfl | old
          · have stored := MessageRelevancyChecker.stored_of_getDeliveryTag actual
            obtain ⟨delivery, known, itsTag, itsId⟩ :=
              byRuns.provenance.stored _ _ stored
            obtain ⟨added, history, _⟩ := CommandRun.exists_added taken
            refine ⟨index, following, ?_, ?_, delivery, ?_, itsTag, ?_⟩
            · rw [(effects_runs _ effects).1]
              exact
                List.getElem?_set_self (List.getElem?_eq_some_iff.mp present).1
            · rw [history]
              exact (record.history.answered answered).imp
                (List.mem_append_right _) (List.mem_append_right _)
            · rw [(effects_runs _ effects).2.1]
              exact known
            · rw [(steps_identity taken).1]
              exact itsId
          · exact earlierTags tag old

omit [DecidableEq V] in
theorem byRuns_create (config : RpcServerConfig Buffer V) :
    ByRuns config (create : RpcServer κ Buffer V) := by
  refine ⟨⟨?_, ?_⟩, KeyedLock.deliveryInvariant_initial, ?_, ?_⟩
  · intro correlationId tag found
    cases found
  · intro run member
    cases member
  · intro reply member
    cases member
  · intro tag member
    cases member

end RpcServer

end Amq.Rpc
