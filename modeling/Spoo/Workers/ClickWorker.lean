import Spoo.Lib.Agents
import Spoo.Lib.Redis
import Spoo.Lib.Streams

/-!
# Event streams and their workers (`workers/`, `services/click/sinks/stream.py`)

Requests add events to a stream. Every consumer group has a reader, which gets new events in batches, and a
claimer, which takes over events that were delivered long ago and are still pending. Both hand the event to the
consumer of the group, and acknowledge it when that returns; when it raises, the event stays pending. A claimer
asks first how many times the event was delivered, and puts it on the dead-letter stream after too many times.
A janitor deletes consumers that have been idle for long.

The streams of clicks, of domain events, of safety analyses and of meta images all have this shape, and so it is
left open what the events are. Any number of processes is on the way, and each move of one is one command, or
the end of a consumer's work. A process that has crashed moves no more. The log says what the streams do not
keep. Times are in milliseconds.
-/

namespace Spoo

open Agents Redis

/-- What a process is set up with (`ClickEventsSettings`, `StaleConsumerJanitor`). -/
structure StreamConfig where
  maxlen : Nat := 10000
  batchSize : Nat := 100
  claimIdleMs : Nat := 60000
  maxDeliveries : Nat := 5
  staleConsumerIdleMs : Nat := 30 * 60 * 1000
  deriving DecidableEq, Repr

/-- The fields that `intercept` writes. -/
structure DeadLetter (γ ν : Type) where
  data : ν
  sourceId : Nat
  group : γ
  reason : String
  deriving DecidableEq, Repr

/-- What the streams do not keep. -/
inductive StreamEntry (γ ν : Type) where
  /-- The server has added the event. -/
  | added (id : Nat) (data : ν)
  /-- The fallback of the sink has returned. -/
  | tracked (data : ν)
  /-- The consumer of the group begins its work, on the how manieth delivery. -/
  | started (group : γ) (id : Nat) (nth : Nat)
  /-- The consumer of the group has returned. -/
  | handled (group : γ) (id : Nat) (data : ν)
  /-- `intercept` has read no number of deliveries, or its write has failed. -/
  | failedOpen (group : γ) (id : Nat)
  /-- The server has added the dead letter. -/
  | deadLettered (letter : DeadLetter γ ν)
  deriving DecidableEq, Repr

/-- The stream, the dead letters that are still there, and the log, the newest entry first. -/
structure EventQueue (γ χ ν : Type) where
  stream : RedisStream γ χ ν := {}
  dlq : List (DeadLetter γ ν) := []
  log : List (StreamEntry γ ν) := []

/-- Where an `emit` stands. -/
inductive SinkPhase (ν : Type) where
  | adding (event : ν)
  | fallingBack (event : ν)
  | returned (event : ν)
  | raised (event : ν)
  deriving DecidableEq, Repr

/-- Where a reader or a claimer stands. -/
inductive ConsumerPhase (ν : Type) where
  | polling
  | lookingUp (message : Message ν)
  | deadLettering (message : Message ν)
  | handling (message : Message ν) (rest : List (Message ν))
  | acking (message : Message ν) (rest : List (Message ν))
  deriving DecidableEq, Repr

/-- Where a `sweep_once` stands. -/
inductive JanitorPhase (γ χ : Type) where
  | sleeping
  | inspecting (group : γ) (groups : List γ)
  | deleting (group : γ) (name : χ) (names : List χ) (groups : List γ)
  deriving DecidableEq, Repr

inductive StreamAgent (γ χ ν : Type) where
  | sink (phase : SinkPhase ν)
  | reader (group : γ) (consumer : χ) (phase : ConsumerPhase ν)
  | claimer (group : γ) (consumer : χ) (phase : ConsumerPhase ν)
  | janitor (phase : JanitorPhase γ χ)
  deriving DecidableEq, Repr

/-- What the outside does in a move: the time, what the command comes to, which entries the server trims, how
many of the dead letters, where its cursor stands, the groups in the order of `XINFO GROUPS`, and whether a
consumer or a fallback returns. -/
structure StreamAnswer (γ : Type) where
  now : Int := 0
  outcome : Outcome := .answered
  trims : List Nat := []
  dropped : Nat := 0
  cursor : Nat := 0
  groups : List γ := []
  returns : Bool := true
  deriving DecidableEq, Repr

namespace StreamWorker

variable {γ χ ν : Type} [Fintype γ] [DecidableEq γ] [DecidableEq χ] (cfg : StreamConfig)

/-- The server has run the command. -/
def ran : Outcome → Bool
  | .failedBefore => false
  | _ => true

/-- The caller has its answer. -/
def answered : Outcome → Bool
  | .answered => true
  | _ => false

/-! ## The sink -/

/-- `RedisStreamSink.emit` (`stream.py:36-56`). -/
def emit (answer : StreamAnswer γ) (phase : SinkPhase ν) (q : EventQueue γ χ ν) :
    SinkPhase ν × EventQueue γ χ ν :=
  match phase with
  | .adding event =>
    (if answered answer.outcome then .returned event else .fallingBack event,
      if ran answer.outcome then
        { q with
          stream := q.stream.add event cfg.maxlen answer.trims
          log := .added (q.stream.lastId + 1) event :: q.log }
      else q)
  | .fallingBack event =>
    if answer.returns then (.returned event, { q with log := .tracked event :: q.log })
    else (.raised event, q)
  | .returned event => (.returned event, q)
  | .raised event => (.raised event, q)

/-! ## The consumers of a group -/

/-- `DLQ_MAXLEN`. -/
def dlqMaxlen : Nat := 10000

/-- The consumer of the group begins to work on a message. -/
def handle (group : γ) (message : Message ν) (rest : List (Message ν)) (q : EventQueue γ χ ν) :
    ConsumerPhase ν × EventQueue γ χ ν :=
  (.handling message rest, { q with log := .started group message.id message.nth :: q.log })

/-- The next message of the batch, or the next batch. -/
def handleNext (group : γ) (rest : List (Message ν)) (q : EventQueue γ χ ν) :
    ConsumerPhase ν × EventQueue γ χ ν :=
  match rest with
  | [] => (.polling, q)
  | message :: rest => handle group message rest q

/-- `intercept` returns `False` without an answer to go by. -/
def failOpen (group : γ) (message : Message ν) (q : EventQueue γ χ ν) :
    ConsumerPhase ν × EventQueue γ χ ν :=
  handle group message [] { q with log := .failedOpen group message.id :: q.log }

/-- The write of `intercept`: a dead letter, and of the oldest ones some may go as long as `DLQ_MAXLEN` stay
(`dlq.py:62-73`). -/
def deadLetter (group : γ) (message : Message ν) (dropped : Nat) (q : EventQueue γ χ ν) :
    EventQueue γ χ ν :=
  let letter := ⟨message.data, message.id, group, "max_deliveries_exceeded"⟩
  let dlq := q.dlq ++ [letter]
  { q with
    dlq := dlq.drop (min dropped (dlq.length - dlqMaxlen))
    log := .deadLettered letter :: q.log }

/-- `XACK`. -/
def acked (group : γ) (message : Message ν) (outcome : Outcome) (q : EventQueue γ χ ν) :
    EventQueue γ χ ν :=
  if ran outcome then { q with stream := q.stream.ack group message.id } else q

/-- The consumer returns, or it raises, and then the message stays pending. -/
def finish (group : γ) (message : Message ν) (rest : List (Message ν)) (returns : Bool)
    (q : EventQueue γ χ ν) : ConsumerPhase ν × EventQueue γ χ ν :=
  if returns then
    (.acking message rest, { q with log := .handled group message.id message.data :: q.log })
  else handleNext group rest q

/-- `reader` (`click_worker.py:644-656`). -/
def read (group : γ) (consumer : χ) (answer : StreamAnswer γ) (phase : ConsumerPhase ν)
    (q : EventQueue γ χ ν) : ConsumerPhase ν × EventQueue γ χ ν :=
  match phase with
  | .polling =>
    let found := q.stream.readGroup group consumer cfg.batchSize answer.now
    match answer.outcome with
    | .answered => handleNext group found.1 { q with stream := found.2 }
    | .failedBefore => (.polling, q)
    | .failedAfter => (.polling, { q with stream := found.2 })
  | .handling message rest => finish group message rest answer.returns q
  | .acking message rest => handleNext group rest (acked group message answer.outcome q)
  -- A reader does not ask for the number of deliveries.
  | .lookingUp message => (.lookingUp message, q)
  | .deadLettering message => (.deadLettering message, q)

/-- `claimer` with `ClaimDeadLetterGuard.intercept` (`click_worker.py:658-673`, `dlq.py:51-115`). -/
def claim (group : γ) (consumer : χ) (answer : StreamAnswer γ) (phase : ConsumerPhase ν)
    (q : EventQueue γ χ ν) : ConsumerPhase ν × EventQueue γ χ ν :=
  match phase with
  | .polling =>
    let found := q.stream.autoClaim group consumer cfg.claimIdleMs answer.cursor answer.now
    match answer.outcome, found.1 with
    | .answered, some message => (.lookingUp message, { q with stream := found.2 })
    | .answered, none => (.polling, { q with stream := found.2 })
    | .failedBefore, _ => (.polling, q)
    | .failedAfter, _ => (.polling, { q with stream := found.2 })
  | .lookingUp message =>
    if answered answer.outcome then
      match (q.stream.group group).timesDelivered message.id with
      | none => failOpen group message q
      | some deliveries =>
        if deliveries ≤ cfg.maxDeliveries then handle group message [] q
        else (.deadLettering message, q)
    else failOpen group message q
  | .deadLettering message =>
    match answer.outcome with
    | .answered => (.acking message [], deadLetter group message answer.dropped q)
    | .failedBefore => failOpen group message q
    | .failedAfter => failOpen group message (deadLetter group message answer.dropped q)
  | .handling message rest => finish group message rest answer.returns q
  | .acking message rest => handleNext group rest (acked group message answer.outcome q)

/-! ## The janitor -/

/-- The next group of the outer loop. -/
def inspectNext : List γ → JanitorPhase γ χ
  | [] => .sleeping
  | group :: groups => .inspecting group groups

/-- The next consumer of the inner loop. -/
def deleteNext (group : γ) (groups : List γ) : List χ → JanitorPhase γ χ
  | [] => inspectNext groups
  | name :: names => .deleting group name names groups

/-- The consumers of a group that have nothing pending and were idle for too long. -/
def staleConsumers (group : ConsumerGroup χ) (now : Int) : List χ :=
  ((group.info now).filter fun consumer =>
    consumer.2.1 = 0 ∧ (cfg.staleConsumerIdleMs : Int) < consumer.2.2).map Prod.fst

/-- `StaleConsumerJanitor.sweep_once` (`telemetry.py:114-130`): an exception ends the sweep. -/
def sweep (answer : StreamAnswer γ) (phase : JanitorPhase γ χ) (q : EventQueue γ χ ν) :
    JanitorPhase γ χ × EventQueue γ χ ν :=
  match phase with
  | .sleeping => (if answered answer.outcome then inspectNext answer.groups else .sleeping, q)
  | .inspecting group groups =>
    (if answered answer.outcome then
      deleteNext group groups (staleConsumers cfg (q.stream.group group) answer.now)
    else .sleeping, q)
  | .deleting group name names groups =>
    (if answered answer.outcome then deleteNext group groups names else .sleeping,
      if ran answer.outcome then { q with stream := q.stream.delConsumer group name } else q)

/-! ## Runs -/

/-- One move of a process. -/
def move {ι : Type} (cfg : ι → StreamConfig) :
    Move ι (StreamAnswer γ) (StreamAgent γ χ ν) (EventQueue γ χ ν) :=
  fun who answer agent q =>
    match agent with
    | .sink phase =>
      let moved := emit (cfg who) answer phase q
      (.sink moved.1, moved.2)
    | .reader group consumer phase =>
      let moved := read (cfg who) group consumer answer phase q
      (.reader group consumer moved.1, moved.2)
    | .claimer group consumer phase =>
      let moved := claim (cfg who) group consumer answer phase q
      (.claimer group consumer moved.1, moved.2)
    | .janitor phase =>
      let moved := sweep (cfg who) answer phase q
      (.janitor moved.1, moved.2)

end StreamWorker

/-- What a process is there for. -/
inductive StreamRole (γ χ ν : Type) where
  | emit (event : ν)
  | read (group : γ) (consumer : χ)
  | claim (group : γ) (consumer : χ)
  | sweep
  deriving DecidableEq, Repr

/-- Where a process begins. -/
def StreamRole.agent {γ χ ν : Type} : StreamRole γ χ ν → StreamAgent γ χ ν
  | .emit event => .sink (.adding event)
  | .read group consumer => .reader group consumer .polling
  | .claim group consumer => .claimer group consumer .polling
  | .sweep => .janitor .sleeping

namespace StreamWorker

variable {ι γ χ ν : Type}

/-- Nothing was added yet, and no process has moved. -/
def start (roles : ι → StreamRole γ χ ν) : Pool ι (StreamAgent γ χ ν) (EventQueue γ χ ν) where
  agents i := (roles i).agent
  shared := {}

end StreamWorker

end Spoo
