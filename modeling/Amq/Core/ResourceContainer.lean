import Amq.EventEmitter
import Mathlib.Logic.Function.Basic

/-!
# Containers of a connection and of a channel

A container holds at most one resource, passes on the events of this resource
and resolves promises for a resource that is not there yet.  The connection
container and the channel container differ in the events they pass on.
-/

namespace Amq.Core

open Function

/-- The events that a container attaches a handler for, in the order of the
source, and whether the handler of an event passes on its argument. -/
structure ContainerHandlers (ε : Type) where
  events : List ε
  distinct : events.Nodup
  forwards : ε → Bool

/-- An event that a container emits. -/
structure ContainerEmission (ε α : Type) where
  event : ε
  argument : Option α
  deriving DecidableEq

structure ResourceContainer (ρ ε α : Type) where
  resource : Option ρ
  /-- The promises that wait for a resource, by their calls. -/
  availableCallbacks : List ℕ
  /-- The handlers of the container which are registered on each resource. -/
  handlers : ρ → EventEmitter.Registrations ε ε
  /-- For each call of `getWhenAvailable`, the values with which its promise has
  been resolved, one after another. -/
  promises : List (List (Option ρ))
  emitted : List (ContainerEmission ε α)

inductive ContainerEvent (ρ ε α : Type) where
  | set (resource : Option ρ)
  | getWhenAvailable
  | resourceEmitted (resource : ρ) (event : ε) (argument : Option α)
  deriving DecidableEq

namespace ResourceContainer

variable {ρ ε α : Type}

def create : ResourceContainer ρ ε α where
  resource := none
  availableCallbacks := []
  handlers := fun _ => []
  promises := []
  emitted := []

/-- `resolve(value)` of a promise. -/
def resolve
    (promises : List (List (Option ρ))) (value : Option ρ) (call : ℕ) :
    List (List (Option ρ)) :=
  promises.modify call (· ++ [value])

def handleBecameAvailable (container : ResourceContainer ρ ε α) :
    ResourceContainer ρ ε α :=
  { container with
    promises :=
      container.availableCallbacks.foldl
        (fun promises call => resolve promises container.resource call)
        container.promises
    availableCallbacks := [] }

def getWhenAvailable (container : ResourceContainer ρ ε α) :
    ResourceContainer ρ ε α :=
  match container.resource with
  | some resource =>
      { container with promises := container.promises ++ [[some resource]] }
  | none =>
      { container with
        promises := container.promises ++ [[]]
        availableCallbacks :=
          container.availableCallbacks ++ [container.promises.length] }

variable [DecidableEq ρ] [DecidableEq ε]

/-- The handlers of the events, each under the name of its event. -/
def registrations (handlers : ContainerHandlers ε) :
    EventEmitter.Registrations ε ε :=
  handlers.events.map fun event => (event, event)

/-- `attachConnection` and `attachChannel`. -/
def attach
    (handlers : ContainerHandlers ε) (container : ResourceContainer ρ ε α) :
    ResourceContainer ρ ε α :=
  match container.resource with
  | none => container
  | some resource =>
      { container with
        handlers :=
          update container.handlers resource <|
            (registrations handlers).foldl
              (fun registered entry =>
                EventEmitter.on registered entry.1 entry.2)
              (container.handlers resource) }

/-- `detachConnection` and `detachChannel`. -/
def detach
    (handlers : ContainerHandlers ε) (container : ResourceContainer ρ ε α) :
    ResourceContainer ρ ε α :=
  match container.resource with
  | none => container
  | some resource =>
      { container with
        handlers :=
          update container.handlers resource <|
            (registrations handlers).foldl
              (fun registered entry =>
                EventEmitter.removeListener registered entry.1 entry.2)
              (container.handlers resource) }

def set
    (handlers : ContainerHandlers ε) (container : ResourceContainer ρ ε α)
    (resource : Option ρ) : ResourceContainer ρ ε α :=
  let container := container.detach handlers
  let container := { container with resource := resource }
  if resource.isSome then
    (container.attach handlers).handleBecameAvailable
  else
    container

/-- A resource emits an event, and the handlers that are registered for it
run. -/
def resourceEmitted
    (handlers : ContainerHandlers ε) (container : ResourceContainer ρ ε α)
    (resource : ρ) (event : ε) (argument : Option α) :
    ResourceContainer ρ ε α :=
  { container with
    emitted :=
      container.emitted ++
        (EventEmitter.listeners (container.handlers resource) event).map
          fun handler =>
            { event := handler
              argument := if handlers.forwards handler then argument else none } }

def step
    (handlers : ContainerHandlers ε) (container : ResourceContainer ρ ε α) :
    ContainerEvent ρ ε α → ResourceContainer ρ ε α
  | .set resource => container.set handlers resource
  | .getWhenAvailable => container.getWhenAvailable
  | .resourceEmitted resource event argument =>
      container.resourceEmitted handlers resource event argument

/-- The container after a sequence of events. -/
def run (handlers : ContainerHandlers ε) (schedule : List (ContainerEvent ρ ε α)) :
    ResourceContainer ρ ε α :=
  schedule.foldl (step handlers) create

end ResourceContainer

/-! ## The two containers -/

inductive AmqpConnectionEvent where
  | error
  | closed
  /-- "return". -/
  | returned
  | channelRecreated
  deriving DecidableEq, Repr

inductive AmqpChannelEvent where
  | error
  | close
  /-- "return". -/
  | returned
  deriving DecidableEq, Repr

/-- `AmqpConnectionContainer`: errors and correlation identifiers are passed on. -/
def AmqpConnectionContainer.handlers : ContainerHandlers AmqpConnectionEvent where
  events := [.error, .closed, .returned, .channelRecreated]
  distinct := by decide
  forwards event := event = .error ∨ event = .returned

/-- `AmqpChannelContainer`: errors and returned messages are passed on. -/
def AmqpChannelContainer.handlers : ContainerHandlers AmqpChannelEvent where
  events := [.error, .close, .returned]
  distinct := by decide
  forwards event := event = .error ∨ event = .returned

/-! ## What a container should do -/

namespace ContainerEvent

variable {ρ ε α : Type}

/-- The resource after an event. -/
def following (current : Option ρ) : ContainerEvent ρ ε α → Option ρ
  | .set resource => resource
  | .getWhenAvailable => current
  | .resourceEmitted _ _ _ => current

/-- The resource after a sequence of events. -/
def lastSet (schedule : List (ContainerEvent ρ ε α)) : Option ρ :=
  schedule.foldl following none

/-- The first resource that a sequence of events sets. -/
def firstSet : List (ContainerEvent ρ ε α) → Option ρ
  | [] => none
  | .set (some resource) :: _ => some resource
  | .set none :: rest => firstSet rest
  | .getWhenAvailable :: rest => firstSet rest
  | .resourceEmitted _ _ _ :: rest => firstSet rest

def isCall : ContainerEvent ρ ε α → Bool
  | .getWhenAvailable => true
  | _ => false

variable [DecidableEq ρ] [DecidableEq ε]

/-- What should be emitted at an event while this resource is current. -/
def emission (handlers : ContainerHandlers ε) (current : Option ρ) :
    ContainerEvent ρ ε α → List (ContainerEmission ε α)
  | .resourceEmitted resource event argument =>
      if current = some resource ∧ event ∈ handlers.events then
        [{ event := event
           argument := if handlers.forwards event then argument else none }]
      else
        []
  | .set _ => []
  | .getWhenAvailable => []

/-- What should be emitted during a sequence of events. -/
def emissions (handlers : ContainerHandlers ε) :
    Option ρ → List (ContainerEvent ρ ε α) → List (ContainerEmission ε α)
  | _, [] => []
  | current, event :: rest =>
      emission handlers current event ++
        emissions handlers (following current event) rest

end ContainerEvent

open ContainerEvent in
/-- After this sequence of events every promise has been treated well, the
handlers are where they belong, and the right events have been emitted. -/
structure Serves
    {ρ ε α : Type} [DecidableEq ρ] [DecidableEq ε]
    (handlers : ContainerHandlers ε) (schedule : List (ContainerEvent ρ ε α)) :
    Prop where
  /-- A promise has been resolved once, with the resource at the call or else the
  first one that was set afterwards, or not at all if there was none. -/
  resolved :
    ∀ before after, schedule = before ++ .getWhenAvailable :: after →
      (ResourceContainer.run handlers schedule).promises[before.countP isCall]? =
        some (((lastSet before <|> firstSet after).toList).map some)
  attached :
    ∀ resource,
      (ResourceContainer.run handlers schedule).handlers resource =
        if lastSet schedule = some resource then
          handlers.events.map fun event => (event, event)
        else
          []
  emitted :
    (ResourceContainer.run handlers schedule).emitted =
      emissions handlers none schedule

/-! ## One step -/

namespace ResourceContainer

variable {ρ ε α : Type}

/-- Every promise of these calls is resolved once more. -/
theorem getElem?_foldl_resolve
    (promises : List (List (Option ρ))) (value : Option ρ) {calls : List ℕ}
    (distinct : calls.Nodup) (call : ℕ) :
    (calls.foldl (fun promises call => resolve promises value call)
        promises)[call]? =
      if call ∈ calls then promises[call]?.map (· ++ [value])
      else promises[call]? := by
  induction calls generalizing promises with
  | nil => rfl
  | cons first rest inductionHypothesis =>
      obtain ⟨absent, distinctRest⟩ := List.nodup_cons.mp distinct
      rw [List.foldl_cons, inductionHypothesis _ distinctRest]
      unfold resolve
      rw [List.getElem?_modify]
      by_cases same : call = first
      · subst same
        rw [if_neg absent, if_pos List.mem_cons_self]
        simp
      · have other : ¬ first = call := fun equal => same equal.symm
        simp [same, other]

theorem length_foldl_resolve
    (promises : List (List (Option ρ))) (value : Option ρ) (calls : List ℕ) :
    (calls.foldl (fun promises call => resolve promises value call)
        promises).length = promises.length := by
  induction calls generalizing promises with
  | nil => rfl
  | cons first rest inductionHypothesis =>
      rw [List.foldl_cons, inductionHypothesis]
      exact List.length_modify _ _ _

theorem getWhenAvailable_of_some
    {container : ResourceContainer ρ ε α} {resource : ρ}
    (itself : container.resource = some resource) :
    container.getWhenAvailable =
      { container with promises := container.promises ++ [[some resource]] } := by
  unfold getWhenAvailable
  rw [itself]

theorem getWhenAvailable_of_none
    {container : ResourceContainer ρ ε α} (itself : container.resource = none) :
    container.getWhenAvailable =
      { container with
        promises := container.promises ++ [[]]
        availableCallbacks :=
          container.availableCallbacks ++ [container.promises.length] } := by
  unfold getWhenAvailable
  rw [itself]

section Invariant

variable [DecidableEq ρ]

/-- What holds of a container whose current resource is known, and of which so
many promises have been asked for. -/
structure Tidy
    (handlers : ContainerHandlers ε) (container : ResourceContainer ρ ε α)
    (current : Option ρ) (calls : ℕ) : Prop where
  resource : container.resource = current
  count : container.promises.length = calls
  idle : current.isSome → container.availableCallbacks = []
  distinct : container.availableCallbacks.Nodup
  waiting :
    ∀ call ∈ container.availableCallbacks,
      container.promises[call]? = some []
  registered :
    ∀ resource,
      container.handlers resource =
        if current = some resource then registrations handlers else []

theorem tidy_create (handlers : ContainerHandlers ε) :
    Tidy handlers (create : ResourceContainer ρ ε α) none 0 where
  resource := rfl
  count := rfl
  idle := fun isSome => absurd isSome Bool.false_ne_true
  distinct := List.nodup_nil
  waiting := fun _ member => absurd member List.not_mem_nil
  registered := fun _ => rfl

theorem Tidy.getWhenAvailable
    {handlers : ContainerHandlers ε} {container : ResourceContainer ρ ε α}
    {current : Option ρ} {calls : ℕ}
    (tidy : Tidy handlers container current calls) :
    Tidy handlers container.getWhenAvailable current (calls + 1) := by
  cases itself : container.resource with
  | some resource =>
      have isSome : current.isSome := by
        rw [← tidy.resource, itself]
        rfl
      rw [getWhenAvailable_of_some itself]
      refine ⟨tidy.resource, ?_, tidy.idle, tidy.distinct, ?_, tidy.registered⟩
      · rw [List.length_append, List.length_singleton, tidy.count]
      · intro call member
        rw [tidy.idle isSome] at member
        exact absurd member List.not_mem_nil
  | none =>
      have absent : ¬ current.isSome := by
        rw [← tidy.resource, itself]
        exact Bool.false_ne_true
      have earlier_lt :
          ∀ call ∈ container.availableCallbacks,
            call < container.promises.length := by
        intro call member
        exact (List.getElem?_eq_some_iff.mp (tidy.waiting call member)).1
      rw [getWhenAvailable_of_none itself]
      refine ⟨tidy.resource, ?_, fun isSome => absurd isSome absent, ?_, ?_,
        tidy.registered⟩
      · rw [List.length_append, List.length_singleton, tidy.count]
      · have new_absent :
            container.promises.length ∉ container.availableCallbacks := by
          intro member
          exact absurd (earlier_lt _ member) (Nat.lt_irrefl _)
        exact List.nodup_append.mpr
          ⟨tidy.distinct, List.pairwise_singleton _ _, by
            intro call member new isNew same
            rw [List.mem_singleton] at isNew
            exact new_absent (isNew ▸ same ▸ member)⟩
      · intro call member
        rcases List.mem_append.mp member with earlier | new
        · rw [List.getElem?_append_left (earlier_lt call earlier)]
          exact tidy.waiting call earlier
        · rw [List.mem_singleton.mp new, List.getElem?_concat_length]

end Invariant

section Steps

variable [DecidableEq ρ] [DecidableEq ε]
variable {handlers : ContainerHandlers ε} {container : ResourceContainer ρ ε α}
variable {current : Option ρ} {calls : ℕ}

/-- A container that has been detached has no handler anywhere. -/
theorem Tidy.detach_handlers
    (tidy : Tidy handlers container current calls) :
    (container.detach handlers).handlers = fun _ => [] := by
  unfold detach
  cases itself : container.resource with
  | none =>
      funext resource
      have absent : ¬ current = some resource := by
        rw [← tidy.resource, itself]
        nofun
      rw [tidy.registered resource, if_neg absent]
  | some attached =>
      have present : current = some attached := by
        rw [← tidy.resource, itself]
      funext resource
      by_cases same : resource = attached
      · subst same
        have itsHandlers : container.handlers resource = registrations handlers := by
          rw [tidy.registered resource, if_pos present]
        dsimp only
        rw [update_self, itsHandlers]
        exact EventEmitter.foldl_removeListener (List.Perm.refl _)
      · have absent : ¬ current = some resource := by
          rw [present]
          intro equal
          exact same (Option.some.inj equal).symm
        dsimp only
        rw [update_of_ne same, tidy.registered resource, if_neg absent]

theorem detach_fields
    (handlers : ContainerHandlers ε) (container : ResourceContainer ρ ε α) :
    (container.detach handlers).availableCallbacks =
        container.availableCallbacks ∧
      (container.detach handlers).promises = container.promises ∧
        (container.detach handlers).emitted = container.emitted := by
  unfold detach
  split
  · exact ⟨rfl, rfl, rfl⟩
  · exact ⟨rfl, rfl, rfl⟩

/-- Without a resource the promises go on waiting. -/
theorem Tidy.set_none
    (tidy : Tidy handlers container current calls) :
    Tidy handlers (container.set handlers none) none calls ∧
      (container.set handlers none).availableCallbacks =
        container.availableCallbacks ∧
      (container.set handlers none).promises = container.promises ∧
      (container.set handlers none).emitted = container.emitted := by
  obtain ⟨callbacks, promises, emitted⟩ := detach_fields handlers container
  refine ⟨⟨rfl, ?_, nofun, ?_, ?_, ?_⟩, callbacks, promises, emitted⟩
  · change (container.detach handlers).promises.length = calls
    rw [promises]
    exact tidy.count
  · change (container.detach handlers).availableCallbacks.Nodup
    rw [callbacks]
    exact tidy.distinct
  · change ∀ call ∈ (container.detach handlers).availableCallbacks,
      (container.detach handlers).promises[call]? = some []
    rw [callbacks, promises]
    exact tidy.waiting
  · intro resource
    change (container.detach handlers).handlers resource = _
    rw [tidy.detach_handlers]
    rfl

/-- A resource is handed to everyone who waits, and its events are listened to. -/
theorem Tidy.set_some
    (tidy : Tidy handlers container current calls) (resource : ρ) :
    Tidy handlers (container.set handlers (some resource)) (some resource)
        calls ∧
      (container.set handlers (some resource)).promises =
        container.availableCallbacks.foldl
          (fun promises call => resolve promises (some resource) call)
          container.promises ∧
      (container.set handlers (some resource)).emitted = container.emitted := by
  obtain ⟨callbacks, promises, emitted⟩ := detach_fields handlers container
  have resolved :
      (container.set handlers (some resource)).promises =
        container.availableCallbacks.foldl
          (fun promises call => resolve promises (some resource) call)
          container.promises := by
    rw [← callbacks, ← promises]
    rfl
  have sameLength :
      (container.set handlers (some resource)).promises.length =
        container.promises.length := by
    rw [resolved]
    exact length_foldl_resolve _ _ _
  refine ⟨⟨rfl, ?_, fun _ => rfl, List.nodup_nil, ?_, ?_⟩, resolved, emitted⟩
  · rw [sameLength]
    exact tidy.count
  · exact fun _ member => absurd member List.not_mem_nil
  · intro other
    change
      update (container.detach handlers).handlers resource
        ((registrations handlers).foldl
          (fun registered entry => EventEmitter.on registered entry.1 entry.2)
          ((container.detach handlers).handlers resource)) other = _
    rw [tidy.detach_handlers, EventEmitter.foldl_on]
    by_cases same : other = resource
    · subst same
      rw [update_self, if_pos rfl]
      rfl
    · have different : ¬ some resource = some other := by
        intro equal
        exact same (Option.some.inj equal).symm
      rw [update_of_ne same, if_neg different]

theorem Tidy.resourceEmitted
    (tidy : Tidy handlers container current calls) (resource : ρ) (event : ε)
    (argument : Option α) :
    Tidy handlers (container.resourceEmitted handlers resource event argument)
      current calls where
  resource := tidy.resource
  count := tidy.count
  idle := tidy.idle
  distinct := tidy.distinct
  waiting := tidy.waiting
  registered := tidy.registered

/-- The handlers of the current resource pass an event on once. -/
theorem Tidy.emitted_resourceEmitted
    (tidy : Tidy handlers container current calls) (resource : ρ) (event : ε)
    (argument : Option α) :
    (container.resourceEmitted handlers resource event argument).emitted =
      container.emitted ++
        ContainerEvent.emission handlers current
          (.resourceEmitted resource event argument) := by
  unfold ResourceContainer.resourceEmitted
  dsimp only
  rw [tidy.registered resource]
  have expected :
      ContainerEvent.emission handlers current
          (.resourceEmitted resource event argument) =
        if current = some resource ∧ event ∈ handlers.events then
          [{ event := event
             argument := if handlers.forwards event then argument else none }]
        else
          [] := rfl
  rw [expected]
  by_cases itself : current = some resource
  · rw [if_pos itself]
    unfold registrations
    rw [EventEmitter.listeners_of_distinct handlers.distinct event]
    by_cases handled : event ∈ handlers.events
    · rw [if_pos handled, if_pos ⟨itself, handled⟩]
      rfl
    · rw [if_neg handled, if_neg fun both => handled both.2]
      rfl
  · rw [if_neg itself, if_neg fun both => itself both.1]
    rfl

/-- Every event keeps the container tidy, and makes it emit what it should. -/
theorem Tidy.step
    (tidy : Tidy handlers container current calls)
    (event : ContainerEvent ρ ε α) :
    Tidy handlers (container.step handlers event)
        (ContainerEvent.following current event)
        (calls + if event.isCall then 1 else 0) ∧
      (container.step handlers event).emitted =
        container.emitted ++
          ContainerEvent.emission handlers current event := by
  cases event with
  | set resource =>
      cases resource with
      | none =>
          obtain ⟨kept, _, _, emitted⟩ := tidy.set_none
          exact ⟨kept, emitted.trans (List.append_nil _).symm⟩
      | some resource =>
          obtain ⟨kept, _, emitted⟩ := tidy.set_some resource
          exact ⟨kept, emitted.trans (List.append_nil _).symm⟩
  | getWhenAvailable =>
      refine ⟨tidy.getWhenAvailable, ?_⟩
      unfold ResourceContainer.step
      cases itself : container.resource with
      | none =>
          rw [getWhenAvailable_of_none itself]
          exact (List.append_nil _).symm
      | some resource =>
          rw [getWhenAvailable_of_some itself]
          exact (List.append_nil _).symm
  | resourceEmitted resource event argument =>
      exact ⟨tidy.resourceEmitted resource event argument,
        tidy.emitted_resourceEmitted resource event argument⟩

/-! ## Whole sequences -/

theorem Tidy.run
    (tidy : Tidy handlers container current calls)
    (schedule : List (ContainerEvent ρ ε α)) :
    Tidy handlers (schedule.foldl (ResourceContainer.step handlers) container)
        (schedule.foldl ContainerEvent.following current)
        (calls + schedule.countP ContainerEvent.isCall) ∧
      (schedule.foldl (ResourceContainer.step handlers) container).emitted =
        container.emitted ++
          ContainerEvent.emissions handlers current schedule := by
  induction schedule generalizing container current calls with
  | nil => exact ⟨tidy, (List.append_nil _).symm⟩
  | cons event rest inductionHypothesis =>
      obtain ⟨kept, emitted⟩ := tidy.step event
      obtain ⟨finally_, emittedLater⟩ := inductionHypothesis kept
      constructor
      · have total :
            (calls + if event.isCall then 1 else 0) +
                rest.countP ContainerEvent.isCall =
              calls + (event :: rest).countP ContainerEvent.isCall := by
          rw [List.countP_cons]
          omega
        rw [← total]
        exact finally_
      · rw [List.foldl_cons, emittedLater, emitted, List.append_assoc]
        rfl

/-- A promise that does not wait any more keeps its value. -/
theorem Tidy.settled_run
    (tidy : Tidy handlers container current calls) {call : ℕ}
    {values : List (Option ρ)}
    (present : container.promises[call]? = some values)
    (isOver : call ∉ container.availableCallbacks)
    (schedule : List (ContainerEvent ρ ε α)) :
    (schedule.foldl (ResourceContainer.step handlers) container).promises[call]? =
      some values := by
  induction schedule generalizing container current calls with
  | nil => exact present
  | cons event rest inductionHypothesis =>
      have kept := (tidy.step event).1
      have inside := (List.getElem?_eq_some_iff.mp present).1
      have still :
          (container.step handlers event).promises[call]? = some values ∧
            call ∉ (container.step handlers event).availableCallbacks := by
        cases event with
        | set resource =>
            cases resource with
            | none =>
                obtain ⟨_, callbacks, promises, _⟩ := tidy.set_none
                constructor
                · exact (congrArg (·[call]?) promises).trans present
                · exact fun member => isOver (callbacks ▸ member)
            | some resource =>
                obtain ⟨_, promises, _⟩ := tidy.set_some resource
                constructor
                · refine (congrArg (·[call]?) promises).trans ?_
                  rw [getElem?_foldl_resolve _ _ tidy.distinct, if_neg isOver]
                  exact present
                · exact List.not_mem_nil
        | getWhenAvailable =>
            unfold ResourceContainer.step
            cases itself : container.resource with
            | some resource =>
                rw [getWhenAvailable_of_some itself]
                refine ⟨?_, isOver⟩
                rw [List.getElem?_append_left inside]
                exact present
            | none =>
                rw [getWhenAvailable_of_none itself]
                constructor
                · rw [List.getElem?_append_left inside]
                  exact present
                · intro member
                  rcases List.mem_append.mp member with earlier | new
                  · exact isOver earlier
                  · have last := List.mem_singleton.mp new
                    omega
        | resourceEmitted resource event argument => exact ⟨present, isOver⟩
      exact inductionHypothesis kept still.1 still.2

/-- A promise that waits is resolved with the first resource that is set. -/
theorem Tidy.waiting_run
    (tidy : Tidy handlers container current calls) {call : ℕ}
    (waiting : call ∈ container.availableCallbacks)
    (schedule : List (ContainerEvent ρ ε α)) :
    (schedule.foldl (ResourceContainer.step handlers) container).promises[call]? =
      some ((ContainerEvent.firstSet schedule).toList.map some) := by
  induction schedule generalizing container current calls with
  | nil => exact tidy.waiting call waiting
  | cons event rest inductionHypothesis =>
      have kept := (tidy.step event).1
      have empty := tidy.waiting call waiting
      cases event with
      | set resource =>
          cases resource with
          | none =>
              obtain ⟨_, callbacks, _, _⟩ := tidy.set_none
              have stillWaiting :
                  call ∈ (container.set handlers none).availableCallbacks := by
                rw [callbacks]
                exact waiting
              exact inductionHypothesis kept stillWaiting
          | some resource =>
              obtain ⟨_, promises, _⟩ := tidy.set_some resource
              have resolved :
                  (container.set handlers (some resource)).promises[call]? =
                    some [some resource] := by
                rw [promises, getElem?_foldl_resolve _ _ tidy.distinct,
                  if_pos waiting, empty]
                rfl
              exact kept.settled_run resolved List.not_mem_nil rest
      | getWhenAvailable =>
          have stillWaiting :
              call ∈ container.getWhenAvailable.availableCallbacks := by
            cases itself : container.resource with
            | some resource =>
                rw [getWhenAvailable_of_some itself]
                exact waiting
            | none =>
                rw [getWhenAvailable_of_none itself]
                exact List.mem_append_left _ waiting
          exact inductionHypothesis kept stillWaiting
      | resourceEmitted resource event argument =>
          exact inductionHypothesis kept waiting

end Steps

end ResourceContainer

section Serving

variable {ρ ε α : Type} [DecidableEq ρ] [DecidableEq ε]

open ResourceContainer in
theorem serves
    (handlers : ContainerHandlers ε) (schedule : List (ContainerEvent ρ ε α)) :
    Serves handlers schedule := by
  obtain ⟨tidy, emitted⟩ :=
    (tidy_create handlers : Tidy handlers (create : ResourceContainer ρ ε α)
      none 0).run schedule
  refine ⟨?_, tidy.registered, emitted⟩
  intro before after itself
  obtain ⟨earlier, _⟩ :=
    (tidy_create handlers : Tidy handlers (create : ResourceContainer ρ ε α)
      none 0).run before
  rw [Nat.zero_add] at earlier
  have split :
      ResourceContainer.run handlers schedule =
        after.foldl (ResourceContainer.step handlers)
          (before.foldl (ResourceContainer.step handlers)
            create).getWhenAvailable := by
    unfold ResourceContainer.run
    rw [itself, List.foldl_append, List.foldl_cons]
    rfl
  have called := earlier.getWhenAvailable
  rw [split, ← earlier.count]
  change _ =
    some (((before.foldl ContainerEvent.following none <|>
      ContainerEvent.firstSet after).toList).map some)
  cases current : before.foldl ContainerEvent.following none with
  | some resource =>
      have present := earlier.resource.trans current
      have isOver := called.idle (by rw [current]; rfl)
      refine called.settled_run ?_ ?_ after
      · rw [getWhenAvailable_of_some present, List.getElem?_concat_length]
        rfl
      · rw [isOver]
        exact List.not_mem_nil
  | none =>
      have absent := earlier.resource.trans current
      refine called.waiting_run ?_ after
      rw [getWhenAvailable_of_none absent]
      exact List.mem_append_right _ List.mem_cons_self

/-- Both containers treat every promise well and listen to the current resource
only, whatever happens to them. -/
theorem containers_serve :
    (∀ schedule : List (ContainerEvent ρ AmqpConnectionEvent α),
        Serves AmqpConnectionContainer.handlers schedule) ∧
      ∀ schedule : List (ContainerEvent ρ AmqpChannelEvent α),
        Serves AmqpChannelContainer.handlers schedule := by
  constructor
  · intro schedule
    exact serves AmqpConnectionContainer.handlers schedule
  · intro schedule
    exact serves AmqpChannelContainer.handlers schedule

end Serving

end Amq.Core
