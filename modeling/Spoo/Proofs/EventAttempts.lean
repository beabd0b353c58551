import Mathlib.Data.List.Perm.Subperm
import Spoo.Proofs.EventDelivery

/-!
# How often an event is tried, and how often it is settled

The consumer of a group begins its work on each delivery of an event at most once. A claimer lets it begin only when
the number of deliveries is within the limit, or when it does not get to know the number or to write the dead letter:
an event that always fails is tried as many times as the limit says, and once more for each time that the guard has
failed open. An event is settled for a group when the consumer has returned from it, or a dead letter was written
of it. It takes a fault for that to happen twice: a claim of an event that some process still has in hand, or has
crashed with, an acknowledgement that does not reach the server, or a dead letter that is written without an answer.
-/

namespace Spoo

open Agents Redis

/-! ## How often an event is tried -/

section

variable {ι γ χ ν : Type}

namespace StreamEntry

/-- The delivery on which the consumer of a group begins. -/
def start? : StreamEntry γ ν → Option (γ × Nat × Nat)
  | .started g id nth => some (g, id, nth)
  | _ => none

variable [DecidableEq γ]

/-- The consumer of the group begins on the event. -/
def isStart (g : γ) (id : Nat) (entry : StreamEntry γ ν) : Bool :=
  entry.start?.any fun key => key.1 = g ∧ key.2.1 = id

/-- … on a delivery beyond the limit. -/
def isLate (limit : Nat) (g : γ) (id : Nat) (entry : StreamEntry γ ν) : Bool :=
  entry.start?.any fun key => key.1 = g ∧ key.2.1 = id ∧ limit < key.2.2

/-- The guard of the group has let the event through without an answer to go by. -/
def isFailOpen (g : γ) (id : Nat) : StreamEntry γ ν → Bool
  | .failedOpen g' id' => g' = g ∧ id' = id
  | _ => false

end StreamEntry

/-- The deliveries that consumers have begun on. -/
def EventQueue.starts (q : EventQueue γ χ ν) : List (γ × Nat × Nat) := q.log.filterMap StreamEntry.start?

/-- The messages on which a reader or a claimer has not begun. -/
def ConsumerPhase.unstarted : ConsumerPhase ν → List (Message ν)
  | .polling => []
  | .lookingUp message => [message]
  | .deadLettering message => [message]
  | .handling _ rest => rest
  | .acking _ rest => rest

/-- The rest of the batch. -/
def ConsumerPhase.later : ConsumerPhase ν → List (Message ν)
  | .handling _ rest => rest
  | .acking _ rest => rest
  | _ => []

/-- A delivery to a group. -/
def deliveryOf (g : γ) (message : Message ν) : γ × Nat × Nat := (g, message.id, message.nth)

/-- The deliveries that a process has still to begin on. -/
def StreamAgent.due : StreamAgent γ χ ν → List (γ × Nat × Nat)
  | .reader g _ phase => phase.unstarted.map (deliveryOf g)
  | .claimer g _ phase => phase.unstarted.map (deliveryOf g)
  | _ => []

/-- The first deliveries need no guard. -/
def StreamAgent.LaterFirst : StreamAgent γ χ ν → Prop
  | .reader _ _ phase => ∀ message ∈ phase.later, message.nth = 1
  | .claimer _ _ phase => ∀ message ∈ phase.later, message.nth = 1
  | _ => True

namespace StreamWorker

variable {q : EventQueue γ χ ν} {g : γ} {message : Message ν} {rest : List (Message ν)}

/-! ## Every delivery is begun on once -/

/-- What was unstarted is begun on or stays so, or is dropped. -/
def Begins (q : EventQueue γ χ ν) (g : γ) (unstarted : List (Message ν))
    (moved : ConsumerPhase ν × EventQueue γ χ ν) : Prop :=
  (moved.1.unstarted.map (deliveryOf g) ++ moved.2.starts).Subperm
    (unstarted.map (deliveryOf g) ++ q.starts)

theorem begins_handle : Begins q g (message :: rest) (handle g message rest q) :=
  List.Perm.subperm List.perm_middle

theorem begins_handleNext : Begins q g rest (handleNext g rest q) := by
  cases rest with
  | nil => exact List.Subperm.refl _
  | cons message rest => exact begins_handle

theorem begins_failOpen : Begins q g [message] (failOpen g message q) := begins_handle

theorem begins_finish {returns : Bool} : Begins q g rest (finish g message rest returns q) := by
  unfold finish
  split
  · exact List.Subperm.refl _
  · exact begins_handleNext

variable {cfg : StreamConfig} {c : χ} {answer : StreamAnswer γ} {phase : ConsumerPhase ν}
  {moved : ConsumerPhase ν × EventQueue γ χ ν}

/-- A move of a reader or a claimer: it gets new deliveries, each of which it has begun on afterwards, or has
still to begin on. -/
structure Delivers (q : EventQueue γ χ ν) (g : γ) (phase : ConsumerPhase ν)
    (moved : ConsumerPhase ν × EventQueue γ χ ν) (fresh : List (Message ν)) : Prop where
  nodup : (fresh.map (deliveryOf g)).Nodup
  new : ∀ m ∈ fresh, ¬ q.stream.Past g m.id m.nth
  past : ∀ m ∈ fresh, moved.2.stream.Past g m.id m.nth ∧ 1 ≤ m.nth
  begins : Begins q g (fresh ++ phase.unstarted) moved
  keeps : ∀ g' id n, q.stream.Past g' id n → moved.2.stream.Past g' id n

section delivers

/-- A move in which nothing is delivered. -/
theorem Begins.delivers (h : Begins q g phase.unstarted moved)
    (hkeeps : ∀ g' id n, q.stream.Past g' id n → moved.2.stream.Past g' id n) :
    Delivers q g phase moved [] where
  nodup := List.nodup_nil
  new _ hm := (List.not_mem_nil hm).elim
  past _ hm := (List.not_mem_nil hm).elim
  begins := h
  keeps := hkeeps

theorem stream_handleNext : (handleNext g rest q).2.stream = q.stream := by
  cases rest <;> rfl

theorem stream_finish {returns : Bool} : (finish g message rest returns q).2.stream = q.stream := by
  unfold finish
  split
  · rfl
  · exact stream_handleNext

theorem delivers_finish {returns : Bool} :
    Delivers q g (.handling message rest) (finish g message rest returns q) [] :=
  begins_finish.delivers fun g' id n h => by rwa [stream_finish]

variable [DecidableEq γ]

theorem delivers_acked {outcome : Outcome} :
    Delivers q g (.acking message rest) (handleNext g rest (acked g message outcome q)) [] := by
  have hstarts : (acked g message outcome q).starts = q.starts := by
    unfold acked
    split <;> rfl
  have hbegins : Begins (acked g message outcome q) g rest _ := begins_handleNext
  rw [Begins, hstarts] at hbegins
  refine Begins.delivers hbegins fun g' id n h => ?_
  rw [stream_handleNext]
  unfold acked
  split
  · exact h.ack
  · exact h

variable [DecidableEq χ]

variable (g cfg c answer phase) in
theorem delivers_read (hok : q.stream.Ok) :
    ∃ fresh, Delivers q g phase (read cfg g c answer phase q) fresh := by
  cases phase with
  | polling =>
    simp only [read]
    cases answer.outcome with
    | answered =>
      refine ⟨(q.stream.readGroup g c cfg.batchSize answer.now).1, ?_, ?_, ?_, ?_, ?_⟩
      · have hids : ((q.stream.unread g cfg.batchSize).map Prod.fst).Nodup :=
          hok.pairwise_unread.imp fun h => h.ne
        apply List.Nodup.of_map fun key => key.2.1
        rw [RedisStream.readGroup, List.map_map, List.map_map]
        exact hids
      · intro m hm hpast
        have hlt := (RedisStream.mem_readGroup hm).2.1
        have hle := hpast.1
        omega
      · intro m hm
        rw [stream_handleNext]
        exact ⟨hok.past_readGroup hm, (RedisStream.mem_readGroup hm).2.2.ge⟩
      · rw [ConsumerPhase.unstarted, List.append_nil]
        exact begins_handleNext
      · intro g' id n h
        rw [stream_handleNext]
        exact h.readGroup
    | failedBefore => exact ⟨[], Begins.delivers (List.Subperm.refl _) fun _ _ _ h => h⟩
    | failedAfter => exact ⟨[], Begins.delivers (List.Subperm.refl _) fun _ _ _ h => h.readGroup⟩
  | handling message rest => exact ⟨[], delivers_finish⟩
  | acking message rest => exact ⟨[], delivers_acked⟩
  | lookingUp message => exact ⟨[], Begins.delivers (List.Subperm.refl _) fun _ _ _ h => h⟩
  | deadLettering message => exact ⟨[], Begins.delivers (List.Subperm.refl _) fun _ _ _ h => h⟩

variable (g cfg c answer phase) in
theorem delivers_claim (hok : q.stream.Ok) :
    ∃ fresh, Delivers q g phase (claim cfg g c answer phase q) fresh := by
  cases phase with
  | polling =>
    simp only [claim]
    cases answer.outcome with
    | answered =>
      cases hmessage : (q.stream.autoClaim g c cfg.claimIdleMs answer.cursor answer.now).1 with
      | none => exact ⟨[], Begins.delivers (List.Subperm.refl _) fun _ _ _ h => h.autoClaim⟩
      | some message =>
        obtain ⟨-, -, hpast, delivery, hpending, hnth⟩ := hok.of_autoClaim hmessage
        refine ⟨[message], by simp, ?_, ?_, List.Subperm.refl _, fun _ _ _ h => h.autoClaim⟩
        · intro m hm hpast
          rw [List.mem_singleton.1 hm] at hpast
          have hle := hpast.2 delivery hpending
          omega
        · intro m hm
          rw [List.mem_singleton.1 hm]
          exact ⟨hpast, by omega⟩
    | failedBefore => exact ⟨[], Begins.delivers (List.Subperm.refl _) fun _ _ _ h => h⟩
    | failedAfter => exact ⟨[], Begins.delivers (List.Subperm.refl _) fun _ _ _ h => h.autoClaim⟩
  | handling message rest => exact ⟨[], delivers_finish⟩
  | acking message rest => exact ⟨[], delivers_acked⟩
  | lookingUp message =>
    simp only [claim]
    split
    · split
      · exact ⟨[], begins_failOpen.delivers fun _ _ _ h => h⟩
      · split
        · exact ⟨[], begins_handle.delivers fun _ _ _ h => h⟩
        · exact ⟨[], Begins.delivers (List.Subperm.refl _) fun _ _ _ h => h⟩
    · exact ⟨[], begins_failOpen.delivers fun _ _ _ h => h⟩
  | deadLettering message =>
    simp only [claim]
    cases answer.outcome with
    | answered =>
      have hdropped : Begins q g [message] (.acking message [], deadLetter g message answer.dropped q) :=
        (List.sublist_append_right ..).subperm
      exact ⟨[], hdropped.delivers fun _ _ _ h => h⟩
    | failedBefore => exact ⟨[], begins_failOpen.delivers fun _ _ _ h => h⟩
    | failedAfter =>
      have hbegins : Begins q g [message] (failOpen g message (deadLetter g message answer.dropped q)) :=
        begins_failOpen
      exact ⟨[], hbegins.delivers fun _ _ _ h => h⟩

end delivers

/-! ## Late deliveries need the guard to fail -/

section excused

variable [DecidableEq γ] {limit : Nat}

/-- Consumers began on deliveries beyond the limit at most as often as the guard failed open. -/
def Excused (limit : Nat) (q : EventQueue γ χ ν) : Prop :=
  ∀ g id, q.log.countP (StreamEntry.isLate limit g id) ≤ q.log.countP (StreamEntry.isFailOpen g id)

theorem Excused.cons {entry : StreamEntry γ ν} {stream : RedisStream γ χ ν} {dlq : List (DeadLetter γ ν)}
    (h : Excused limit q) (hlate : ∀ g id, entry.isLate limit g id = false) :
    Excused limit ⟨stream, dlq, entry :: q.log⟩ := by
  intro g id
  have hle := h g id
  simp only [List.countP_cons, hlate, Bool.false_eq_true, if_false]
  omega

/-- A move of a reader or a claimer after which late deliveries are excused, and the rest of the batch are first
deliveries. -/
structure Ready (limit : Nat) (moved : ConsumerPhase ν × EventQueue γ χ ν) : Prop where
  excused : Excused limit moved.2
  later : ∀ m ∈ moved.1.later, m.nth = 1

theorem ready_handle (h : Excused limit q) (hnth : message.nth ≤ limit) (hrest : ∀ m ∈ rest, m.nth = 1) :
    Ready limit (handle g message rest q) where
  excused := h.cons fun g' id => by
    simp only [StreamEntry.isLate, StreamEntry.start?, Option.any_some]
    grind
  later := hrest

theorem ready_handleNext (h : Excused limit q) (hlimit : 1 ≤ limit) (hrest : ∀ m ∈ rest, m.nth = 1) :
    Ready limit (handleNext g rest q) := by
  cases rest with
  | nil => exact ⟨h, hrest⟩
  | cons message rest =>
    have hnth : message.nth = 1 := hrest message List.mem_cons_self
    exact ready_handle h (hnth.trans_le hlimit) fun m hm => hrest m (List.mem_cons_of_mem _ hm)

theorem ready_failOpen (h : Excused limit q) : Ready limit (failOpen g message q) where
  excused := by
    intro g' id
    have hle := h g' id
    simp only [failOpen, handle, List.countP_cons, StreamEntry.isLate, StreamEntry.isFailOpen,
      StreamEntry.start?, Option.any_some, Option.any_none]
    grind
  later m hm := (List.not_mem_nil hm).elim

theorem ready_finish {returns : Bool} (h : Excused limit q) (hlimit : 1 ≤ limit)
    (hrest : ∀ m ∈ rest, m.nth = 1) : Ready limit (finish g message rest returns q) := by
  unfold finish
  split
  · exact ⟨h.cons fun _ _ => rfl, hrest⟩
  · exact ready_handleNext h hlimit hrest

theorem ready_acked {outcome : Outcome} (h : Excused limit q) (hlimit : 1 ≤ limit)
    (hrest : ∀ m ∈ rest, m.nth = 1) : Ready limit (handleNext g rest (acked g message outcome q)) := by
  refine ready_handleNext ?_ hlimit hrest
  unfold acked
  split <;> exact h

variable [DecidableEq χ]

variable (g cfg c answer) in
theorem ready_read (h : Excused limit q) (hlimit : 1 ≤ limit) (hlater : ∀ m ∈ phase.later, m.nth = 1) :
    Ready limit (read cfg g c answer phase q) := by
  cases phase with
  | polling =>
    simp only [read]
    cases answer.outcome with
    | answered => exact ready_handleNext h hlimit fun m hm => (RedisStream.mem_readGroup hm).2.2
    | _ => exact ⟨h, hlater⟩
  | handling message rest => exact ready_finish h hlimit hlater
  | acking message rest => exact ready_acked h hlimit hlater
  | lookingUp message => exact ⟨h, hlater⟩
  | deadLettering message => exact ⟨h, hlater⟩

variable (g cfg c answer) in
/-- The number that the guard goes by is not less than that of the delivery. -/
theorem ready_claim (h : Excused limit q) (hlimit : 1 ≤ limit) (hmax : cfg.maxDeliveries ≤ limit)
    (hlater : ∀ m ∈ phase.later, m.nth = 1)
    (hpast : ∀ m ∈ phase.unstarted, q.stream.Past g m.id m.nth) :
    Ready limit (claim cfg g c answer phase q) := by
  cases phase with
  | polling =>
    simp only [claim]
    split <;> exact ⟨h, hlater⟩
  | handling message rest => exact ready_finish h hlimit hlater
  | acking message rest => exact ready_acked h hlimit hlater
  | lookingUp message =>
    simp only [claim]
    split
    · split
      · exact ready_failOpen h
      · rename_i deliveries hdeliveries
        split
        · rename_i hle
          obtain ⟨delivery, hdelivery, htimes⟩ := Option.map_eq_some_iff.1 hdeliveries
          have hnth : message.nth ≤ delivery.times := (hpast message List.mem_cons_self).2 delivery hdelivery
          exact ready_handle h (by omega) hlater
        · exact ⟨h, hlater⟩
    · exact ready_failOpen h
  | deadLettering message =>
    have hwritten : Excused limit (deadLetter g message answer.dropped q) := h.cons fun _ _ => rfl
    simp only [claim]
    cases answer.outcome with
    | answered => exact ⟨hwritten, hlater⟩
    | failedBefore => exact ready_failOpen h
    | failedAfter => exact ready_failOpen hwritten

end excused

/-! ## Runs -/

variable [Fintype γ] [DecidableEq γ] [DecidableEq χ] {cfgs : ι → StreamConfig} {who : ι}
  {agent agent' : StreamAgent γ χ ν} {q' : EventQueue γ χ ν}

omit [Fintype γ] [DecidableEq γ] [DecidableEq χ] in
/-- The delivery has happened. -/
def Delivered (q : EventQueue γ χ ν) (key : γ × Nat × Nat) : Prop :=
  q.stream.Past key.1 key.2.1 key.2.2 ∧ 1 ≤ key.2.2

/-- A move of any process: there are new deliveries, and what was due or new is begun on or stays due, or is
dropped. -/
structure Advances (q q' : EventQueue γ χ ν) (agent agent' : StreamAgent γ χ ν)
    (fresh : List (γ × Nat × Nat)) : Prop where
  nodup : fresh.Nodup
  new : ∀ key ∈ fresh, ¬ Delivered q key
  delivered : ∀ key ∈ fresh, Delivered q' key
  begins : (agent'.due ++ q'.starts).Subperm (fresh ++ (agent.due ++ q.starts))
  keeps : ∀ g id n, q.stream.Past g id n → q'.stream.Past g id n

omit [Fintype γ] [DecidableEq γ] [DecidableEq χ] in
theorem Advances.keeps_delivered {fresh : List (γ × Nat × Nat)} (h : Advances q q' agent agent' fresh)
    {key : γ × Nat × Nat} (hkey : Delivered q key) : Delivered q' key := ⟨h.keeps _ _ _ hkey.1, hkey.2⟩

omit [Fintype γ] [DecidableEq γ] [DecidableEq χ] in
theorem Delivers.advances {fresh : List (Message ν)} (h : Delivers q g phase moved fresh)
    (hdue : agent.due = phase.unstarted.map (deliveryOf g))
    (hdue' : agent'.due = moved.1.unstarted.map (deliveryOf g)) :
    Advances q moved.2 agent agent' (fresh.map (deliveryOf g)) where
  nodup := h.nodup
  new key hkey := by
    obtain ⟨m, hm, rfl⟩ := List.mem_map.1 hkey
    exact fun hdelivered => h.new m hm hdelivered.1
  delivered key hkey := by
    obtain ⟨m, hm, rfl⟩ := List.mem_map.1 hkey
    exact h.past m hm
  begins := by
    rw [hdue, hdue', ← List.append_assoc, ← List.map_append]
    exact h.begins
  keeps := h.keeps

omit [Fintype γ] [DecidableEq γ] [DecidableEq χ] in
/-- A process that has to do with no delivery. -/
theorem advances_of_due (hdue : agent.due = []) (hdue' : agent'.due = []) (hstarts : q'.starts = q.starts)
    (hkeeps : ∀ g id n, q.stream.Past g id n → q'.stream.Past g id n) : Advances q q' agent agent' [] where
  nodup := List.nodup_nil
  new _ hkey := (List.not_mem_nil hkey).elim
  delivered _ hkey := (List.not_mem_nil hkey).elim
  begins := by
    rw [hdue, hdue', hstarts]
    exact List.Subperm.refl _
  keeps := hkeeps

variable (answer cfgs who agent) in
theorem move_advances (hok : q.stream.Ok) :
    ∃ fresh, Advances q (move cfgs who answer agent q).2 agent (move cfgs who answer agent q).1 fresh := by
  cases agent with
  | sink phase =>
    refine ⟨[], advances_of_due rfl rfl ?_ fun g id n h => ?_⟩
    · cases phase <;> simp only [move, emit] <;> try split
      all_goals rfl
    · cases phase <;> simp only [move, emit] <;> try split
      all_goals first | exact h | exact h.add
  | reader g c phase =>
    obtain ⟨fresh, h⟩ := delivers_read g (cfgs who) c answer phase hok
    exact ⟨_, h.advances rfl rfl⟩
  | claimer g c phase =>
    obtain ⟨fresh, h⟩ := delivers_claim g (cfgs who) c answer phase hok
    exact ⟨_, h.advances rfl rfl⟩
  | janitor phase =>
    refine ⟨[], advances_of_due rfl rfl ?_ fun g id n h => ?_⟩
    · cases phase <;> simp only [move, sweep]
      split <;> rfl
    · cases phase <;> simp only [move, sweep] <;> try split
      all_goals first | exact h | exact h.delConsumer

/-- The deliveries that were begun on, and those that are due, have happened, and are not the same ones. -/
structure Tried (limit : Nat) (pool : Pool ι (StreamAgent γ χ ν) (EventQueue γ χ ν)) : Prop where
  tokens : pool.Tokens StreamAgent.due EventQueue.starts
  starts : ∀ key ∈ pool.shared.starts, Delivered pool.shared key
  due : ∀ i, ∀ key ∈ (pool.agents i).due, Delivered pool.shared key
  excused : Excused limit pool.shared
  later : ∀ i, (pool.agents i).LaterFirst

omit [Fintype γ] [DecidableEq χ] in
theorem tried_start {limit : Nat} (roles : ι → StreamRole γ χ ν) : Tried limit (start roles) := by
  have hdue (i : ι) : ((start roles).agents i).due = [] := by
    simp only [start]
    cases roles i <;> rfl
  constructor
  · refine ⟨List.nodup_nil, fun i => ?_, fun i j _ key hkey => ?_⟩
    · rw [hdue]
      exact List.nodup_nil
    · rw [hdue] at hkey
      exact (List.not_mem_nil hkey).elim
  · exact fun key hkey => (List.not_mem_nil hkey).elim
  · intro i key hkey
    rw [hdue] at hkey
    exact (List.not_mem_nil hkey).elim
  · exact fun _ _ => le_refl 0
  · intro i
    simp only [start]
    cases roles i <;> simp [StreamRole.agent, StreamAgent.LaterFirst, ConsumerPhase.later]

variable {limit : Nat}

variable (answer cfgs) in
/-- What holds of late deliveries and of the rests of batches after a move. -/
theorem move_ready (hlimit : 1 ≤ limit) (hmax : (cfgs who).maxDeliveries ≤ limit) (h : Excused limit q)
    (hlater : agent.LaterFirst) (hdue : ∀ key ∈ agent.due, Delivered q key) :
    Excused limit (move cfgs who answer agent q).2 ∧ (move cfgs who answer agent q).1.LaterFirst := by
  cases agent with
  | sink phase =>
    refine ⟨?_, trivial⟩
    cases phase <;> simp only [move, emit] <;> try split
    all_goals exact h
  | reader g c phase =>
    have hready := ready_read g (cfgs who) c answer h hlimit hlater
    exact ⟨hready.excused, hready.later⟩
  | claimer g c phase =>
    have hready := ready_claim g (cfgs who) c answer h hlimit hmax hlater
      fun m hm => (hdue _ (List.mem_map_of_mem hm)).1
    exact ⟨hready.excused, hready.later⟩
  | janitor phase =>
    refine ⟨?_, trivial⟩
    cases phase <;> simp only [move, sweep] <;> try split
    all_goals exact h

variable [DecidableEq ι]

theorem Tried.step {pool : Pool ι (StreamAgent γ χ ν) (EventQueue γ χ ν)} (hlimit : 1 ≤ limit)
    (hmax : ∀ i, (cfgs i).maxDeliveries ≤ limit) (hok : pool.shared.stream.Ok) (h : Tried limit pool)
    (event : ι × StreamAnswer γ) : Tried limit (pool.step (move cfgs) event) := by
  obtain ⟨fresh, hfresh⟩ := move_advances event.2 cfgs event.1 (pool.agents event.1) hok
  have hready := move_ready event.2 cfgs hlimit (hmax event.1) h.excused (h.later event.1)
    (h.due event.1)
  have hdelivered {key : γ × Nat × Nat} (hkey : key ∈ (move cfgs event.1 event.2 (pool.agents event.1)
      pool.shared).1.due ++ (move cfgs event.1 event.2 (pool.agents event.1) pool.shared).2.starts) :
      Delivered (move cfgs event.1 event.2 (pool.agents event.1) pool.shared).2 key := by
    have hsource := hfresh.begins.subset hkey
    rw [List.mem_append, List.mem_append] at hsource
    rcases hsource with hnew | hdue | hstart
    · exact hfresh.delivered key hnew
    · exact hfresh.keeps_delivered (h.due event.1 key hdue)
    · exact hfresh.keeps_delivered (h.starts key hstart)
  constructor
  · refine h.tokens.step hfresh.nodup (fun key hnew => ⟨fun i hdue => ?_, fun hstart => ?_⟩) hfresh.begins
    · exact hfresh.new key hnew (h.due i key hdue)
    · exact hfresh.new key hnew (h.starts key hstart)
  · exact fun key hkey => hdelivered (List.mem_append_right _ hkey)
  · refine Pool.forall_agents_step (Q := fun _ (agent : StreamAgent γ χ ν) => ∀ key ∈ agent.due, Delivered _ key)
      (fun key hkey => hdelivered (List.mem_append_left _ hkey)) fun j _ key hkey => ?_
    exact hfresh.keeps_delivered (h.due j key hkey)
  · exact hready.1
  · exact Pool.forall_agents_step (Q := fun _ (agent : StreamAgent γ χ ν) => agent.LaterFirst) hready.2
      fun j _ => h.later j

omit [Fintype γ] [DecidableEq χ] [DecidableEq ι] in
variable (limit) in
/-- In a list of different deliveries, those of one event that are not beyond the limit are not more than
that. -/
theorem countP_le_limit {starts : List (γ × Nat × Nat)} (hnodup : starts.Nodup)
    (hpos : ∀ key ∈ starts, 1 ≤ key.2.2) (g : γ) (id : Nat) :
    starts.countP (fun key => key.1 = g ∧ key.2.1 = id ∧ key.2.2 ≤ limit) ≤ limit := by
  rw [List.countP_eq_length_filter]
  have hnumbers : ((starts.filter fun key => key.1 = g ∧ key.2.1 = id ∧ key.2.2 ≤ limit).map
      fun key => key.2.2).Nodup := by
    refine (hnodup.filter _).map_on fun a ha b hb heq => ?_
    simp only [List.mem_filter, decide_eq_true_eq] at ha hb
    exact Prod.ext (ha.2.1.trans hb.2.1.symm) (Prod.ext (ha.2.2.1.trans hb.2.2.1.symm) heq)
  have hrange : ((starts.filter fun key => key.1 = g ∧ key.2.1 = id ∧ key.2.2 ≤ limit).map
      fun key => key.2.2) ⊆ List.range' 1 limit := by
    intro n hn
    obtain ⟨key, hkey, rfl⟩ := List.mem_map.1 hn
    simp only [List.mem_filter, decide_eq_true_eq] at hkey
    have hle := hpos key hkey.1
    rw [List.mem_range'_1]
    omega
  have hlength := (List.subperm_of_subset hnumbers hrange).length_le
  rwa [List.length_map, List.length_range'] at hlength

omit [Fintype γ] [DecidableEq χ] [DecidableEq ι] in
/-- A consumer begins on a delivery that is beyond the limit, or on one that is not. -/
theorem countP_isStart (limit : Nat) (g : γ) (id : Nat) (log : List (StreamEntry γ ν)) :
    log.countP (StreamEntry.isStart g id) =
      (log.filterMap StreamEntry.start?).countP (fun key => key.1 = g ∧ key.2.1 = id ∧ key.2.2 ≤ limit) +
        log.countP (StreamEntry.isLate limit g id) := by
  induction log with
  | nil => rfl
  | cons entry log ih =>
    rw [List.countP_cons, List.countP_cons, ih]
    cases entry with
    | started g' id' nth =>
      simp only [List.filterMap_cons, List.countP_cons, StreamEntry.isStart, StreamEntry.isLate,
        StreamEntry.start?, Option.any_some]
      by_cases hevent : g' = g ∧ id' = id
      · obtain ⟨rfl, rfl⟩ := hevent
        by_cases hnth : nth ≤ limit
        · have hlate : ¬ limit < nth := not_lt.2 hnth
          simp only [hnth, hlate, and_self, and_false, decide_true, decide_false, if_true,
            Bool.false_eq_true, if_false]
          omega
        · have hlate : limit < nth := not_le.1 hnth
          simp only [hnth, hlate, and_self, and_false, decide_true, decide_false, if_true,
            Bool.false_eq_true, if_false]
          omega
      · rw [not_and] at hevent
        by_cases hg : g' = g <;> simp [hg, hevent]
    | _ => rfl

/-- The consumer of a group begins on an event as often as the limit of deliveries says, or once where that is
zero, and once more for each time that the guard of the group has failed open on the event. -/
theorem attempts_le (cfg : StreamConfig) (roles : ι → StreamRole γ χ ν) (events : List (ι × StreamAnswer γ))
    (g : γ) (id : Nat) :
    ∀ pool ∈ List.scanl (Pool.step (move fun _ => cfg)) (start roles) events,
      pool.shared.log.countP (StreamEntry.isStart g id) ≤
        max 1 cfg.maxDeliveries + pool.shared.log.countP (StreamEntry.isFailOpen g id) := by
  intro pool hpool
  have htried : Minded pool ∧ Tried (max 1 cfg.maxDeliveries) pool :=
    Run.forall_mem_scanl_of_step (P := fun pool => Minded pool ∧ Tried (max 1 cfg.maxDeliveries) pool)
      (fun pool event h => ⟨h.1.step event, h.2.step (le_max_left ..) (fun _ => le_max_right ..)
        h.1.shared.stream event⟩) ⟨minded_start roles, tried_start roles⟩ pool hpool
  have hwithin := countP_le_limit (max 1 cfg.maxDeliveries) htried.2.tokens.once
    (fun key hkey => (htried.2.starts key hkey).2) g id
  have hlate := htried.2.excused g id
  rw [countP_isStart (max 1 cfg.maxDeliveries)]
  exact Nat.add_le_add hwithin hlate

/-- With a limit of two, the consumer begins on a failing event a third time because its number cannot be looked
up. -/
theorem attempts_le_failing :
    let roles (i : Fin 3) : StreamRole Unit Nat String :=
      if i = 0 then .emit "click" else if i = 1 then .read () 0 else .claim () 1
    let events : List (Fin 3 × StreamAnswer Unit) :=
      [(0, {}), (1, {}), (1, { returns := false }), (2, { now := 60000, cursor := 1 }), (2, {}),
        (2, { returns := false }), (2, { now := 120000, cursor := 1 }), (2, { outcome := .failedBefore }),
        (2, { returns := false })]
    (events.foldl (Pool.step (move fun _ => { maxDeliveries := 2 })) (start roles)).shared.log.countP
        (StreamEntry.isStart () 1) = 3 ∧
      ∀ pool ∈ List.scanl (Pool.step (move fun _ => { maxDeliveries := 2 })) (start roles) events,
        pool.shared.log.countP (StreamEntry.isStart () 1) ≤
          max 1 2 + pool.shared.log.countP (StreamEntry.isFailOpen () 1) :=
  ⟨by decide +kernel, attempts_le _ _ _ _ _⟩

end StreamWorker

end

/-! ## No event is settled twice -/

variable {ι γ χ ν : Type}

/-- The event and the group for which it is settled. -/
def StreamEntry.settle? : StreamEntry γ ν → Option (γ × Nat)
  | .handled g id _ => some (g, id)
  | .deadLettered letter => some (letter.group, letter.sourceId)
  | _ => none

def EventQueue.settlements (q : EventQueue γ χ ν) : List (γ × Nat) := q.log.filterMap StreamEntry.settle?

namespace ConsumerPhase

/-- The messages in hand that are still to be settled. -/
def unsettled : ConsumerPhase ν → List (Message ν)
  | .polling => []
  | .lookingUp message => [message]
  | .deadLettering message => [message]
  | .handling message rest => message :: rest
  | .acking _ rest => rest

/-- The message that is to be acknowledged. -/
def toAck : ConsumerPhase ν → Option (Message ν)
  | .acking message _ => some message
  | _ => none

end ConsumerPhase

/-- An event for a group. -/
def eventOf (g : γ) (message : Message ν) : γ × Nat := (g, message.id)

namespace StreamAgent

def unsettled : StreamAgent γ χ ν → List (γ × Nat)
  | .reader g _ phase => phase.unsettled.map (eventOf g)
  | .claimer g _ phase => phase.unsettled.map (eventOf g)
  | _ => []

def toAck : StreamAgent γ χ ν → Option (γ × Nat)
  | .reader g _ phase => phase.toAck.map (eventOf g)
  | .claimer g _ phase => phase.toAck.map (eventOf g)
  | _ => none

/-- The process has the event in hand. -/
def Holds (agent : StreamAgent γ χ ν) (key : γ × Nat) : Prop :=
  key ∈ agent.unsettled ∨ agent.toAck = some key

instance [DecidableEq γ] (agent : StreamAgent γ χ ν) (key : γ × Nat) : Decidable (agent.Holds key) :=
  inferInstanceAs (Decidable (_ ∨ _))

/-- The move is none of the faults: no claim of an event that some process has in hand, no acknowledgement
that does not reach the server, and no dead letter without an answer. -/
def Faultless (agents : ι → StreamAgent γ χ ν) (answer : StreamAnswer γ) : StreamAgent γ χ ν → Prop
  | .claimer g _ .polling => answer.outcome = .answered → ∀ i, ¬ (agents i).Holds (g, answer.cursor)
  | .claimer _ _ (.deadLettering _) => answer.outcome ≠ .failedAfter
  | .claimer _ _ (.acking _ _) => answer.outcome ≠ .failedBefore
  | .reader _ _ (.acking _ _) => answer.outcome ≠ .failedBefore
  | _ => True

end StreamAgent

namespace StreamWorker

variable {q : EventQueue γ χ ν} {g : γ} {message : Message ν} {rest : List (Message ν)}
  {cfg : StreamConfig} {c : χ} {answer : StreamAnswer γ} {phase : ConsumerPhase ν}
  {moved : ConsumerPhase ν × EventQueue γ χ ν}

/-- What was unsettled is settled or stays so, or is dropped, and what is settled now is to be acknowledged. -/
structure Retires (q : EventQueue γ χ ν) (g : γ) (unsettled : List (Message ν))
    (moved : ConsumerPhase ν × EventQueue γ χ ν) : Prop where
  retires : (moved.1.unsettled.map (eventOf g) ++ moved.2.settlements).Subperm
    (unsettled.map (eventOf g) ++ q.settlements)
  acks : ∀ key ∈ moved.2.settlements, key ∈ q.settlements ∨ moved.1.toAck.map (eventOf g) = some key

theorem retires_same {unsettled : List (Message ν)} (hunsettled : moved.1.unsettled = unsettled)
    (hlog : moved.2.settlements = q.settlements) : Retires q g unsettled moved where
  retires := by
    rw [hunsettled, hlog]
  acks key hkey := .inl (hlog ▸ hkey)

theorem retires_handle : Retires q g (message :: rest) (handle g message rest q) := retires_same rfl rfl

theorem retires_handleNext : Retires q g rest (handleNext g rest q) := by
  cases rest with
  | nil => exact retires_same rfl rfl
  | cons message rest => exact retires_handle

theorem retires_failOpen : Retires q g [message] (failOpen g message q) := retires_same rfl rfl

theorem Retires.mono {unsettled unsettled' : List (Message ν)} (h : Retires q g unsettled moved)
    (hsub : unsettled.Sublist unsettled') : Retires q g unsettled' moved where
  retires := h.retires.trans ((hsub.map _).append_right _).subperm
  acks := h.acks

theorem retires_finish {returns : Bool} :
    Retires q g (message :: rest) (finish g message rest returns q) := by
  unfold finish
  split
  · exact ⟨List.Perm.subperm List.perm_middle, fun key hkey =>
      (List.mem_cons.1 hkey).elim (fun heq => .inr (by rw [heq]; rfl)) .inl⟩
  · exact retires_handleNext.mono (List.sublist_cons_self ..)

variable [DecidableEq γ]

/-- After an acknowledgement, the event is settled for good. -/
theorem past_acked {outcome : Outcome} (hread : message.id ≤ (q.stream.group g).lastDelivered)
    (hfault : outcome ≠ .failedBefore) (n : Nat) :
    (handleNext g rest (acked g message outcome q)).2.stream.Past g message.id n := by
  have hran : ran outcome = true := by cases outcome <;> first | rfl | exact absurd rfl hfault
  rw [stream_handleNext, acked, if_pos hran]
  rw [RedisStream.Past, RedisStream.ack, RedisStream.group_onGroup_same]
  refine ⟨hread, fun delivery hdelivery => ?_⟩
  rw [ConsumerGroup.pending_ack, if_pos rfl] at hdelivery
  cases hdelivery

theorem retires_acked {outcome : Outcome} :
    Retires q g rest (handleNext g rest (acked g message outcome q)) := by
  have hlog : (acked g message outcome q).settlements = q.settlements := by
    unfold acked
    split <;> rfl
  have hnext : Retires (acked g message outcome q) g rest _ := retires_handleNext
  exact ⟨hlog ▸ hnext.retires, fun key hkey => hlog ▸ hnext.acks key hkey⟩

variable [DecidableEq χ]

/-- What a reader or a claimer takes in a move without a fault: events that were not delivered to the group, or
one that is pending and in no one's hands. -/
def Takes (q q' : EventQueue γ χ ν) (g : γ) (hands : γ × Nat → Prop) (taken : List (Message ν)) : Prop :=
  (taken.map (eventOf g)).Nodup ∧ ∀ m ∈ taken, m.id ≤ (q'.stream.group g).lastDelivered ∧
    ((q.stream.group g).lastDelivered < m.id ∨
      ((q.stream.group g).pending m.id).isSome ∧ ¬ hands (g, m.id))

omit [DecidableEq γ] [DecidableEq χ] in
theorem takes_nil {q' : EventQueue γ χ ν} {hands : γ × Nat → Prop} : Takes q q' g hands [] :=
  ⟨List.nodup_nil, fun _ hm => (List.not_mem_nil hm).elim⟩

variable (g cfg c answer phase) in
theorem read_takes (hok : q.stream.Ok) (hands : γ × Nat → Prop) :
    ∃ taken, Takes q (read cfg g c answer phase q).2 g hands taken ∧
      Retires q g (taken ++ phase.unsettled) (read cfg g c answer phase q) := by
  cases phase with
  | polling =>
    simp only [read]
    cases answer.outcome with
    | answered =>
      refine ⟨(q.stream.readGroup g c cfg.batchSize answer.now).1, ⟨?_, fun m hm => ?_⟩, ?_⟩
      · have hids : ((q.stream.unread g cfg.batchSize).map Prod.fst).Nodup :=
          hok.pairwise_unread.imp fun h => h.ne
        apply List.Nodup.of_map Prod.snd
        rw [RedisStream.readGroup, List.map_map, List.map_map]
        exact hids
      · rw [stream_handleNext]
        exact ⟨(hok.past_readGroup hm).1, .inl (RedisStream.mem_readGroup hm).2.1⟩
      · rw [ConsumerPhase.unsettled, List.append_nil]
        have hnext : Retires { q with stream := (q.stream.readGroup g c cfg.batchSize answer.now).2 } g
          (q.stream.readGroup g c cfg.batchSize answer.now).1 _ := retires_handleNext
        exact ⟨hnext.retires, hnext.acks⟩
    | _ => exact ⟨[], takes_nil, retires_same rfl rfl⟩
  | handling message rest => exact ⟨[], takes_nil, retires_finish⟩
  | acking message rest => exact ⟨[], takes_nil, retires_acked⟩
  | lookingUp message => exact ⟨[], takes_nil, retires_same rfl rfl⟩
  | deadLettering message => exact ⟨[], takes_nil, retires_same rfl rfl⟩

variable (g cfg c answer phase) in
theorem claim_takes (hok : q.stream.Ok) (hands : γ × Nat → Prop)
    (hpolling : phase = .polling → answer.outcome = .answered → ¬ hands (g, answer.cursor))
    (hdead : ∀ m, phase = .deadLettering m → answer.outcome ≠ .failedAfter) :
    ∃ taken, Takes q (claim cfg g c answer phase q).2 g hands taken ∧
      Retires q g (taken ++ phase.unsettled) (claim cfg g c answer phase q) := by
  cases phase with
  | polling =>
    simp only [claim]
    cases houtcome : answer.outcome with
    | answered =>
      cases hmessage : (q.stream.autoClaim g c cfg.claimIdleMs answer.cursor answer.now).1 with
      | none => exact ⟨[], takes_nil, retires_same rfl rfl⟩
      | some message =>
        obtain ⟨hcursor, -, hpast, delivery, hpending, -⟩ := hok.of_autoClaim hmessage
        refine ⟨[message], ⟨List.nodup_singleton _, fun m hm => ?_⟩, retires_same rfl rfl⟩
        rw [List.mem_singleton.1 hm]
        refine ⟨hpast.1, .inr ⟨by rw [hpending]; rfl, ?_⟩⟩
        rw [hcursor]
        exact hpolling rfl houtcome
    | _ => exact ⟨[], takes_nil, retires_same rfl rfl⟩
  | handling message rest => exact ⟨[], takes_nil, retires_finish⟩
  | acking message rest => exact ⟨[], takes_nil, retires_acked⟩
  | lookingUp message =>
    simp only [claim]
    split
    · split
      · exact ⟨[], takes_nil, retires_failOpen⟩
      · split
        · exact ⟨[], takes_nil, retires_handle⟩
        · exact ⟨[], takes_nil, retires_same rfl rfl⟩
    · exact ⟨[], takes_nil, retires_failOpen⟩
  | deadLettering message =>
    simp only [claim]
    cases houtcome : answer.outcome with
    | answered =>
      refine ⟨[], takes_nil, List.Subperm.refl _, fun key hkey => ?_⟩
      exact (List.mem_cons.1 hkey).elim (fun heq => .inr (by rw [heq]; rfl)) .inl
    | failedBefore => exact ⟨[], takes_nil, retires_failOpen⟩
    | failedAfter => exact absurd houtcome (hdead message rfl)

/-! ## Runs -/

variable [Fintype γ] {cfgs : ι → StreamConfig} {who : ι} {agent agent' : StreamAgent γ χ ν}
  {q' : EventQueue γ χ ν} {agents : ι → StreamAgent γ χ ν}

/-- The group was delivered the event. -/
abbrev WasRead (q : EventQueue γ χ ν) (key : γ × Nat) : Prop := q.stream.Past key.1 key.2 0

/-- A move of any process that is no fault. -/
structure Progress (agents : ι → StreamAgent γ χ ν) (q q' : EventQueue γ χ ν)
    (agent agent' : StreamAgent γ χ ν) (taken : List (γ × Nat)) : Prop where
  nodup : taken.Nodup
  takes : ∀ key ∈ taken, WasRead q' key ∧ (¬ WasRead q key ∨
    (∃ delivery, (q.stream.group key.1).pending key.2 = some delivery) ∧ ∀ i, ¬ (agents i).Holds key)
  retires : (agent'.unsettled ++ q'.settlements).Subperm (taken ++ (agent.unsettled ++ q.settlements))
  acks : ∀ key ∈ q'.settlements, key ∈ q.settlements ∨ agent'.toAck = some key
  acked : ∀ key, agent.toAck = some key → WasRead q key → ∀ n, q'.stream.Past key.1 key.2 n

omit [Fintype γ] [DecidableEq γ] [DecidableEq χ] in
theorem progress_of_takes {taken : List (Message ν)}
    (htakes : Takes q moved.2 g (fun key => ∃ i, (agents i).Holds key) taken)
    (hretires : Retires q g (taken ++ phase.unsettled) moved)
    (hdue : agent.unsettled = phase.unsettled.map (eventOf g))
    (hdue' : agent'.unsettled = moved.1.unsettled.map (eventOf g))
    (hack' : agent'.toAck = moved.1.toAck.map (eventOf g))
    (hacked : ∀ key, agent.toAck = some key → WasRead q key → ∀ n, moved.2.stream.Past key.1 key.2 n) :
    Progress agents q moved.2 agent agent' (taken.map (eventOf g)) where
  nodup := htakes.1
  takes key hkey := by
    obtain ⟨m, hm, rfl⟩ := List.mem_map.1 hkey
    obtain ⟨hread, hold⟩ := htakes.2 m hm
    refine ⟨⟨hread, fun _ _ => Nat.zero_le _⟩, ?_⟩
    rcases hold with hunread | ⟨hpending, hfree⟩
    · exact .inl fun hwas => absurd hunread (Nat.not_lt.2 hwas.1)
    · exact .inr ⟨Option.isSome_iff_exists.1 hpending, fun i hholds => hfree ⟨i, hholds⟩⟩
  retires := by
    rw [hdue, hdue', ← List.append_assoc, ← List.map_append]
    exact hretires.retires
  acks key hkey := (hretires.acks key hkey).imp_right fun heq => hack'.trans heq
  acked := hacked

omit [Fintype γ] [DecidableEq γ] [DecidableEq χ] in
/-- A process that settles nothing. -/
theorem progress_of_unsettled (hdue : agent.unsettled = []) (hdue' : agent'.unsettled = [])
    (hack : agent.toAck = none) (hlog : q'.settlements = q.settlements) :
    Progress agents q q' agent agent' [] where
  nodup := List.nodup_nil
  takes _ hkey := (List.not_mem_nil hkey).elim
  retires := by
    rw [hdue, hdue', hlog]
    exact List.Subperm.refl _
  acks key hkey := .inl (hlog ▸ hkey)
  acked key hkey := by
    rw [hack] at hkey
    cases hkey

variable (cfgs who) in
theorem move_progress (hok : q.stream.Ok) (hfault : agent.Faultless agents answer) :
    ∃ taken, Progress agents q (move cfgs who answer agent q).2 agent (move cfgs who answer agent q).1
      taken := by
  cases agent with
  | sink phase =>
    refine ⟨[], progress_of_unsettled rfl rfl rfl ?_⟩
    cases phase <;> simp only [move, emit] <;> try split
    all_goals rfl
  | reader g c phase =>
    obtain ⟨taken, htakes, hretires⟩ := read_takes g (cfgs who) c answer phase hok
      fun key => ∃ i, (agents i).Holds key
    refine ⟨_, progress_of_takes htakes hretires rfl rfl rfl fun key hkey hread n => ?_⟩
    cases phase with
    | acking message rest =>
      cases hkey
      exact past_acked hread.1 hfault n
    | _ => cases hkey
  | claimer g c phase =>
    obtain ⟨taken, htakes, hretires⟩ := claim_takes g (cfgs who) c answer phase hok
      (fun key => ∃ i, (agents i).Holds key)
      (fun hphase houtcome hheld => by
        subst hphase
        obtain ⟨i, hholds⟩ := hheld
        exact hfault houtcome i hholds)
      (fun m hphase => by
        subst hphase
        exact hfault)
    refine ⟨_, progress_of_takes htakes hretires rfl rfl rfl fun key hkey hread n => ?_⟩
    cases phase with
    | acking message rest =>
      cases hkey
      exact past_acked hread.1 hfault n
    | _ => cases hkey
  | janitor phase =>
    refine ⟨[], progress_of_unsettled rfl rfl rfl ?_⟩
    cases phase <;> simp only [move, sweep]
    split <;> rfl

/-- The events that are settled are different ones, none of them is still to be settled by some process, and
each is acknowledged, or to be acknowledged by some process. -/
structure Once (pool : Pool ι (StreamAgent γ χ ν) (EventQueue γ χ ν)) : Prop where
  tokens : pool.Tokens StreamAgent.unsettled EventQueue.settlements
  read : ∀ i, ∀ key ∈ (pool.agents i).unsettled, WasRead pool.shared key
  done : ∀ key ∈ pool.shared.settlements, WasRead pool.shared key ∧
    ((∀ n, pool.shared.stream.Past key.1 key.2 n) ∨ ∃ i, (pool.agents i).toAck = some key)

omit [DecidableEq γ] [DecidableEq χ] [Fintype γ] in
theorem once_start (roles : ι → StreamRole γ χ ν) : Once (start roles) := by
  have hdue (i : ι) : ((start roles).agents i).unsettled = [] := by
    simp only [start]
    cases roles i <;> rfl
  refine ⟨⟨List.nodup_nil, fun i => ?_, fun i j _ key hkey => ?_⟩, fun i key hkey => ?_,
    fun key hkey => (List.not_mem_nil hkey).elim⟩
  · rw [hdue]
    exact List.nodup_nil
  · rw [hdue] at hkey
    exact (List.not_mem_nil hkey).elim
  · rw [hdue] at hkey
    exact (List.not_mem_nil hkey).elim

variable [DecidableEq ι]

theorem Once.step {pool : Pool ι (StreamAgent γ χ ν) (EventQueue γ χ ν)} (hok : pool.shared.stream.Ok)
    (h : Once pool) (event : ι × StreamAnswer γ)
    (hfault : (pool.agents event.1).Faultless pool.agents event.2) :
    Once (pool.step (move cfgs) event) := by
  obtain ⟨taken, hprogress⟩ := move_progress cfgs event.1 hok hfault
  obtain ⟨_, hadvances⟩ := move_advances event.2 cfgs event.1 (pool.agents event.1) hok
  have hkeeps := hadvances.keeps
  -- What is in hand or settled after the move was delivered by then.
  have hread {key : γ × Nat} (hkey : key ∈ (move cfgs event.1 event.2 (pool.agents event.1)
      pool.shared).1.unsettled ++ (move cfgs event.1 event.2 (pool.agents event.1) pool.shared).2.settlements) :
      WasRead (move cfgs event.1 event.2 (pool.agents event.1) pool.shared).2 key := by
    have hsource := hprogress.retires.subset hkey
    rw [List.mem_append, List.mem_append] at hsource
    rcases hsource with hnew | hdue | hsettled
    · exact (hprogress.takes key hnew).1
    · exact hkeeps _ _ _ (h.read event.1 key hdue)
    · exact hkeeps _ _ _ (h.done key hsettled).1
  refine ⟨h.tokens.step hprogress.nodup (fun key hnew => ?_) hprogress.retires, ?_, fun key hkey => ?_⟩
  · rcases (hprogress.takes key hnew).2 with hunread | ⟨⟨delivery, hpending⟩, hfree⟩
    · exact ⟨fun i hdue => hunread (h.read i key hdue), fun hsettled => hunread (h.done key hsettled).1⟩
    · refine ⟨fun i hdue => hfree i (.inl hdue), fun hsettled => ?_⟩
      rcases (h.done key hsettled).2 with hacked | ⟨i, hack⟩
      · exact absurd ((hacked (delivery.times + 1)).2 delivery hpending) (Nat.not_succ_le_self _)
      · exact hfree i (.inr hack)
  · exact Pool.forall_agents_step (Q := fun _ (agent : StreamAgent γ χ ν) =>
      ∀ key ∈ agent.unsettled, WasRead _ key) (fun key hkey => hread (List.mem_append_left _ hkey))
      fun j _ key hkey => hkeeps _ _ _ (h.read j key hkey)
  · refine ⟨hread (List.mem_append_right _ hkey), ?_⟩
    rcases hprogress.acks key hkey with hold | hack
    · obtain ⟨hwas, hacked | ⟨i, hack⟩⟩ := h.done key hold
      · exact .inl fun n => hkeeps _ _ _ (hacked n)
      · by_cases hi : i = event.1
        · subst hi
          exact .inl (hprogress.acked key hack hwas)
        · refine .inr ⟨i, ?_⟩
          rw [Pool.agents_step_of_ne hi]
          exact hack
    · refine .inr ⟨event.1, ?_⟩
      rw [Pool.agents_step_same]
      exact hack

/-- The move is no fault. -/
def NoFault (pool : Pool ι (StreamAgent γ χ ν) (EventQueue γ χ ν)) (event : ι × StreamAnswer γ) : Prop :=
  (pool.agents event.1).Faultless pool.agents event.2

/-- In a run without a fault, no event is settled twice for a group: the consumer returns from it once, or one
dead letter is written of it. -/
theorem settlements_nodup (cfgs : ι → StreamConfig) (roles : ι → StreamRole γ χ ν)
    (events : List (ι × StreamAnswer γ))
    (hfaultless : Run.Guarded (Pool.step (move cfgs)) NoFault (start roles) events) :
    ∀ pool ∈ List.scanl (Pool.step (move cfgs)) (start roles) events,
      pool.shared.settlements.Nodup := by
  intro pool hpool
  have honce : Minded pool ∧ Once pool :=
    Run.forall_mem_scanl (P := fun pool => Minded pool ∧ Once pool)
      (fun pool event h hfault => ⟨h.1.step event, h.2.step h.1.shared.stream event hfault⟩)
      ⟨minded_start roles, once_start roles⟩ hfaultless pool hpool
  exact honce.2.tokens.once

/-- The consumer fails on an event that a reader got, a claimer takes it over, and the consumer returns. -/
theorem settlements_nodup_claimed :
    let roles (i : Fin 3) : StreamRole Unit Nat String :=
      if i = 0 then .emit "click" else if i = 1 then .read () 0 else .claim () 1
    let events : List (Fin 3 × StreamAnswer Unit) :=
      [(0, {}), (1, {}), (1, { returns := false }), (2, { now := 60000, cursor := 1 }), (2, {}), (2, {}),
        (2, {})]
    (events.foldl (Pool.step (move fun _ => {})) (start roles)).shared.settlements = [((), 1)] ∧
      ∀ pool ∈ List.scanl (Pool.step (move fun _ => {})) (start roles) events,
        pool.shared.settlements.Nodup := by
  have hanswered : Outcome.answered ≠ .failedBefore := by decide
  refine ⟨by decide +kernel, settlements_nodup _ _ _ ⟨trivial, trivial, trivial, fun _ => ?_, trivial,
    trivial, hanswered, trivial⟩⟩
  decide +kernel

end StreamWorker

end Spoo
