import Spoo.Workers.ClickWorker

/-!
# No event is lost

Every event that an `emit` has returned from was tracked on the spot or added to the stream. An event that was
added is owed by a group until its consumer has returned from it, or a dead letter was written of it: reading,
claiming, failed commands, crashes and trimming do not change that. The one thing that does is the deletion of a
consumer that has come to have something pending since the janitor looked.
-/

namespace Spoo

open Agents Redis

variable {ι γ χ ν : Type}

namespace EventQueue

variable {q q' q'' : EventQueue γ χ ν} {g : γ} {id : Nat} {v : ν}

/-- The consumer of the group has returned from the event, or a dead letter was written. -/
def Settled (q : EventQueue γ χ ν) (g : γ) (id : Nat) (v : ν) : Prop :=
  .handled g id v ∈ q.log ∨ .deadLettered ⟨v, id, g, "max_deliveries_exceeded"⟩ ∈ q.log

/-- What was added is owed by each group, or settled. -/
def Kept (q : EventQueue γ χ ν) : Prop :=
  ∀ id v, .added id v ∈ q.log → ∀ g, q.stream.Held g id v ∨ q.Settled g id v

/-- Nothing is taken from the log, nothing is added to the stream, and what is settled was added. -/
structure Logs (q q' : EventQueue γ χ ν) : Prop where
  grows : ∀ entry, entry ∈ q.log → entry ∈ q'.log
  added : ∀ id v, .added id v ∈ q'.log → .added id v ∈ q.log
  settles : ∀ g id v, q'.Settled g id v → q.Settled g id v ∨ .added id v ∈ q.log

theorem Settled.grows (h : q.Settled g id v) (hgrows : ∀ entry, entry ∈ q.log → entry ∈ q'.log) :
    q'.Settled g id v := h.imp (hgrows _) (hgrows _)

theorem Logs.of_eq (h : q'.log = q.log) : Logs q q' where
  grows _ hentry := h ▸ hentry
  added _ _ hadded := h ▸ hadded
  settles g id v hsettled := .inl (by rwa [Settled, h] at hsettled)

theorem Logs.trans (h : Logs q q') (h' : Logs q' q'') : Logs q q'' where
  grows entry hentry := h'.grows entry (h.grows entry hentry)
  added id v hadded := h.added id v (h'.added id v hadded)
  settles g id v hsettled := by
    rcases h'.settles g id v hsettled with hsettled | hadded
    · exact h.settles g id v hsettled
    · exact .inr (h.added id v hadded)

/-- An entry of the log that is not an addition, and if it settles an event, that was added. -/
theorem Logs.cons {entry : StreamEntry γ ν} (hlog : q'.log = entry :: q.log)
    (hadded : ∀ id v, StreamEntry.added id v ≠ entry)
    (hsettles : ∀ g id v, (.handled g id v = entry ∨
      .deadLettered ⟨v, id, g, "max_deliveries_exceeded"⟩ = entry) → .added id v ∈ q.log) : Logs q q' where
  grows _ hentry := hlog ▸ List.mem_cons_of_mem _ hentry
  added id v h := by
    rw [hlog, List.mem_cons] at h
    exact h.resolve_left (hadded id v)
  settles g id v h := by
    rw [Settled, hlog, List.mem_cons, List.mem_cons] at h
    rcases h with (heq | hold) | heq | hold
    · exact .inr (hsettles g id v (.inl heq))
    · exact .inl (.inl hold)
    · exact .inr (hsettles g id v (.inr heq))
    · exact .inl (.inr hold)

variable [Fintype γ] [DecidableEq γ] [DecidableEq χ]

/-- All that a move can do to the queue. An acknowledgement is of what is settled. -/
inductive Effect (q q' : EventQueue γ χ ν) : Option (γ × χ) → Prop where
  | log (hstream : q'.stream = q.stream) (hlogs : Logs q q') : Effect q q' none
  | add (v : ν) (maxlen : Nat) (trims : List Nat) (hstream : q'.stream = q.stream.add v maxlen trims)
      (hlog : q'.log = .added (q.stream.lastId + 1) v :: q.log) : Effect q q' none
  | read (g : γ) (c : χ) (count : Nat) (now : Int)
      (hstream : q'.stream = (q.stream.readGroup g c count now).2) (hlogs : Logs q q') : Effect q q' none
  | claim (g : γ) (c : χ) (minIdle cursor : Nat) (now : Int)
      (hstream : q'.stream = (q.stream.autoClaim g c minIdle cursor now).2) (hlogs : Logs q q') :
      Effect q q' none
  | ack (g : γ) (id : Nat) (v : ν) (hsettled : q.Settled g id v) (hstream : q'.stream = q.stream.ack g id)
      (hlogs : Logs q q') : Effect q q' none
  | delete (g : γ) (c : χ) (hstream : q'.stream = q.stream.delConsumer g c) (hlog : q'.log = q.log) :
      Effect q q' (some (g, c))

omit [Fintype γ] [DecidableEq γ] [DecidableEq χ] in
/-- What the stream and the log have to do with each other. -/
structure Ok (q : EventQueue γ χ ν) : Prop where
  stream : q.stream.Ok
  entries : ∀ entry ∈ q.stream.entries, .added entry.1 entry.2 ∈ q.log
  numbered : ∀ id v, .added id v ∈ q.log → id ≤ q.stream.lastId
  once : ∀ id v v', .added id v ∈ q.log → .added id v' ∈ q.log → v = v'
  pending : ∀ g id, ((q.stream.group g).pending id).isSome → ∃ v, .added id v ∈ q.log
  settled : ∀ g id v, q.Settled g id v → .added id v ∈ q.log

omit [Fintype γ] [DecidableEq γ] [DecidableEq χ] in
/-- A move that adds nothing. -/
theorem Ok.of_logs (h : q.Ok) (hlogs : Logs q q') (hok : q'.stream.Ok)
    (hentries : q'.stream.entries = q.stream.entries) (hlast : q'.stream.lastId = q.stream.lastId)
    (hpending : ∀ g id, ((q'.stream.group g).pending id).isSome →
      ((q.stream.group g).pending id).isSome ∨ ∃ v, (id, v) ∈ q.stream.entries) : q'.Ok where
  stream := hok
  entries entry hentry := hlogs.grows _ (h.entries entry (hentries ▸ hentry))
  numbered id v hadded := hlast ▸ h.numbered id v (hlogs.added id v hadded)
  once id v v' hv hv' := h.once id v v' (hlogs.added id v hv) (hlogs.added id v' hv')
  pending g id hid := by
    rcases hpending g id hid with hpending | ⟨v, hv⟩
    · exact (h.pending g id hpending).imp fun v hv => hlogs.grows _ hv
    · exact ⟨v, hlogs.grows _ (h.entries (id, v) hv)⟩
  settled g id v hsettled := by
    rcases hlogs.settles g id v hsettled with hsettled | hadded
    · exact hlogs.grows _ (h.settled g id v hsettled)
    · exact hlogs.grows _ hadded

variable {deleted : Option (γ × χ)}

theorem Effect.grows (h : Effect q q' deleted) : ∀ entry, entry ∈ q.log → entry ∈ q'.log := by
  cases h with
  | log _ hlogs => exact hlogs.grows
  | add v maxlen trims _ hlog => exact fun entry hentry => hlog ▸ List.mem_cons_of_mem _ hentry
  | read _ _ _ _ _ hlogs => exact hlogs.grows
  | claim _ _ _ _ _ _ hlogs => exact hlogs.grows
  | ack _ _ _ _ _ hlogs => exact hlogs.grows
  | delete _ _ _ hlog => exact fun entry hentry => hlog ▸ hentry

theorem Ok.effect (h : q.Ok) (heffect : Effect q q' deleted) : q'.Ok := by
  cases heffect with
  | log hstream hlogs =>
    exact h.of_logs hlogs (hstream ▸ h.stream) (by rw [hstream]) (by rw [hstream])
      fun g id hid => .inl (by rwa [hstream] at hid)
  | add v maxlen trims hstream hlog =>
    have hnew (id : Nat) (w : ν) (hadded : .added id w ∈ q'.log) :
        .added id w ∈ q.log ∨ id = q.stream.lastId + 1 ∧ w = v := by
      rw [hlog, List.mem_cons] at hadded
      rcases hadded with heq | hadded
      · cases heq
        exact .inr ⟨rfl, rfl⟩
      · exact .inl hadded
    constructor
    · rw [hstream]
      exact h.stream.add
    · intro entry hentry
      rw [hstream] at hentry
      rw [hlog]
      rcases RedisStream.mem_entries_add hentry with hentry | rfl
      · exact List.mem_cons_of_mem _ (h.entries entry hentry)
      · exact List.mem_cons_self
    · intro id w hadded
      rw [hstream, RedisStream.lastId_add]
      rcases hnew id w hadded with hadded | ⟨rfl, -⟩
      · exact (h.numbered id w hadded).trans (Nat.le_succ _)
      · exact le_refl _
    · intro id w w' hw hw'
      rcases hnew id w hw with hw | ⟨rfl, rfl⟩ <;> rcases hnew _ w' hw' with hw' | ⟨hid, rfl⟩
      · exact h.once id w w' hw hw'
      · have hle := h.numbered id w hw
        omega
      · have hle := h.numbered _ w' hw'
        omega
      · rfl
    · intro g id hid
      rw [hstream, RedisStream.group_add] at hid
      obtain ⟨w, hw⟩ := h.pending g id hid
      exact ⟨w, hlog ▸ List.mem_cons_of_mem _ hw⟩
    · intro g id w hsettled
      have hold : q.Settled g id w := by
        rw [Settled, hlog, List.mem_cons, List.mem_cons] at hsettled
        exact hsettled.imp (·.resolve_left (by simp)) (·.resolve_left (by simp))
      exact hlog ▸ List.mem_cons_of_mem _ (h.settled g id w hold)
  | read g c count now hstream hlogs =>
    exact h.of_logs hlogs (hstream ▸ h.stream.readGroup) (by rw [hstream]; rfl) (by rw [hstream]; rfl)
      fun g' id hid => RedisStream.pending_readGroup (hstream ▸ hid)
  | claim g c minIdle cursor now hstream hlogs =>
    exact h.of_logs hlogs (hstream ▸ h.stream.autoClaim) (by rw [hstream, RedisStream.entries_autoClaim])
      (by rw [hstream, RedisStream.lastId_autoClaim])
      fun g' id hid => .inl (RedisStream.pending_autoClaim (hstream ▸ hid))
  | ack g id v _ hstream hlogs =>
    exact h.of_logs hlogs (hstream ▸ h.stream.ack) (by rw [hstream]; rfl) (by rw [hstream]; rfl)
      fun g' id hid => .inl (RedisStream.pending_of_ack (hstream ▸ hid))
  | delete g c hstream hlog =>
    refine h.of_logs (.of_eq hlog) (hstream ▸ h.stream.delConsumer) (by rw [hstream]; rfl) (by rw [hstream]; rfl)
      fun g' id hid => .inl ?_
    obtain ⟨delivery, hdelivery⟩ := Option.isSome_iff_exists.1 hid
    rw [hstream] at hdelivery
    rw [RedisStream.pending_of_delConsumer hdelivery]
    rfl

/-- Nothing that is pending with the consumer is still to be settled. -/
def SparesPending (q : EventQueue γ χ ν) (g : γ) (c : χ) : Prop :=
  ∀ id delivery, (q.stream.group g).pending id = some delivery → delivery.consumer = c →
    ∃ v, q.Settled g id v

/-- Only a deletion can make a group owe less than is settled. -/
theorem Kept.effect (hok : q.Ok) (h : q.Kept) (heffect : Effect q q' deleted)
    (hspares : ∀ g c, deleted = some (g, c) → q.SparesPending g c) : q'.Kept := by
  intro id v hadded g
  have hkeep (hlogs : Logs q q') (hheld : q.stream.Held g id v → q'.stream.Held g id v ∨ q.Settled g id v) :
      q'.stream.Held g id v ∨ q'.Settled g id v := by
    rcases h id v (hlogs.added id v hadded) g with hold | hsettled
    · exact (hheld hold).imp_right fun hsettled => hsettled.grows hlogs.grows
    · exact .inr (hsettled.grows hlogs.grows)
  cases heffect with
  | log hstream hlogs => exact hkeep hlogs fun hheld => .inl (hstream ▸ hheld)
  | add w maxlen trims hstream hlog =>
    have hgrows (entry : StreamEntry γ ν) (hentry : entry ∈ q.log) : entry ∈ q'.log :=
      hlog ▸ List.mem_cons_of_mem _ hentry
    rw [hlog, List.mem_cons] at hadded
    rcases hadded with heq | hadded
    · cases heq
      exact .inl (hstream ▸ hok.stream.held_add g)
    · rcases h id v hadded g with hheld | hsettled
      · exact .inl (hstream ▸ hheld.add)
      · exact .inr (hsettled.grows hgrows)
  | read g' c count now hstream hlogs =>
    exact hkeep hlogs fun hheld => .inl (hstream ▸ hheld.readGroup hok.stream)
  | claim g' c minIdle cursor now hstream hlogs =>
    exact hkeep hlogs fun hheld => .inl (hstream ▸ hheld.autoClaim)
  | ack g' id' w hsettled hstream hlogs =>
    refine hkeep hlogs fun hheld => ?_
    by_cases heq : g = g' ∧ id = id'
    · obtain ⟨rfl, rfl⟩ := heq
      have hv : w = v := hok.once id w v (hok.settled g id w hsettled) (hlogs.added id v hadded)
      exact .inr (hv ▸ hsettled)
    · exact .inl (hstream ▸ hheld.ack heq)
  | delete g' c hstream hlog =>
    refine hkeep (.of_eq hlog) fun hheld => ?_
    rcases hheld.delConsumer (g := g') (c := c) with hheld | ⟨rfl, delivery, hpending, hconsumer⟩
    · exact .inl (hstream ▸ hheld)
    · obtain ⟨w, hsettled⟩ := hspares g c rfl id delivery hpending hconsumer
      have hv : w = v := hok.once id w v (hok.settled g id w hsettled) (hlog ▸ hadded)
      exact .inr (hv ▸ hsettled)

end EventQueue

/-! ## What a process knows -/

/-- The messages that a reader or a claimer has not finished with. -/
def ConsumerPhase.messages : ConsumerPhase ν → List (Message ν)
  | .polling => []
  | .lookingUp message => [message]
  | .deadLettering message => [message]
  | .handling message rest => message :: rest
  | .acking message rest => message :: rest

/-- Its messages were added as they are, and it acknowledges what is settled. -/
structure ConsumerPhase.Knows (phase : ConsumerPhase ν) (g : γ) (q : EventQueue γ χ ν) : Prop where
  added : ∀ message ∈ phase.messages, .added message.id message.data ∈ q.log
  settled : ∀ message rest, phase = .acking message rest → q.Settled g message.id message.data

/-- What a process knows of the queue. -/
def StreamAgent.Knows (q : EventQueue γ χ ν) : StreamAgent γ χ ν → Prop
  | .sink (.returned event) => .tracked event ∈ q.log ∨ ∃ id, .added id event ∈ q.log
  | .reader g _ phase => phase.Knows g q
  | .claimer g _ phase => phase.Knows g q
  | _ => True

open EventQueue

/-- What a process knows is not undone. -/
theorem StreamAgent.Knows.grows {q q' : EventQueue γ χ ν} {agent : StreamAgent γ χ ν} (h : agent.Knows q)
    (hgrows : ∀ entry, entry ∈ q.log → entry ∈ q'.log) : agent.Knows q' := by
  have hphase {g : γ} {phase : ConsumerPhase ν} (h : phase.Knows g q) : phase.Knows g q' :=
    ⟨fun message hmessage => hgrows _ (h.added message hmessage),
      fun message rest heq => (h.settled message rest heq).grows hgrows⟩
  cases agent with
  | sink phase =>
    cases phase with
    | returned event => exact h.imp (hgrows _) fun hadded => hadded.imp fun id => hgrows _
    | _ => trivial
  | reader g c phase => exact hphase h
  | claimer g c phase => exact hphase h
  | janitor phase => trivial

namespace StreamWorker

variable {q q' : EventQueue γ χ ν} {g : γ} {message : Message ν} {rest : List (Message ν)}
  {stream : RedisStream γ χ ν} {moved : ConsumerPhase ν × EventQueue γ χ ν}

/-- A step of a reader or a claimer that leaves `stream`. -/
structure Served (q : EventQueue γ χ ν) (g : γ) (stream : RedisStream γ χ ν)
    (moved : ConsumerPhase ν × EventQueue γ χ ν) : Prop where
  stream : moved.2.stream = stream
  logs : Logs q moved.2
  knows : moved.1.Knows g moved.2

theorem Served.of_logs (h : Served q' g stream moved) (hlogs : Logs q q') : Served q g stream moved :=
  ⟨h.stream, hlogs.trans h.logs, h.knows⟩

theorem served_polling : Served q g q.stream (.polling, q) where
  stream := rfl
  logs := .of_eq rfl
  knows := ⟨fun _ h => (List.not_mem_nil h).elim, fun _ _ h => by cases h⟩

theorem served_handle (h : ∀ m ∈ message :: rest, .added m.id m.data ∈ q.log) :
    Served q g q.stream (handle g message rest q) where
  stream := rfl
  logs := .cons rfl (by simp) (by simp)
  knows := ⟨fun m hm => List.mem_cons_of_mem _ (h m hm), fun _ _ heq => by cases heq⟩

theorem served_handleNext (h : ∀ m ∈ rest, .added m.id m.data ∈ q.log) :
    Served q g q.stream (handleNext g rest q) := by
  cases rest with
  | nil => exact served_polling
  | cons message rest => exact served_handle h

/-- The same, after a command on the stream. -/
theorem served_after (h : ∀ m ∈ rest, .added m.id m.data ∈ q.log) (hlog : q'.log = q.log) :
    Served q g q'.stream (handleNext g rest q') :=
  (served_handleNext fun m hm => hlog ▸ h m hm).of_logs (.of_eq hlog)

theorem served_failOpen (h : .added message.id message.data ∈ q.log) :
    Served q g q.stream (failOpen g message q) := by
  have hlogs : Logs q { q with log := .failedOpen g message.id :: q.log } := .cons rfl (by simp) (by simp)
  refine (served_handle fun m hm => ?_).of_logs hlogs
  rw [List.mem_singleton] at hm
  exact List.mem_cons_of_mem _ (hm ▸ h)

theorem served_finish {returns : Bool} (h : ∀ m ∈ message :: rest, .added m.id m.data ∈ q.log) :
    Served q g q.stream (finish g message rest returns q) := by
  unfold finish
  split
  · have hsettles : .added message.id message.data ∈ q.log := h message List.mem_cons_self
    refine ⟨rfl, .cons rfl (by simp) ?_, ?_⟩
    · rintro g' id v (heq | heq) <;> cases heq
      exact hsettles
    · refine ⟨fun m hm => List.mem_cons_of_mem _ (h m hm), fun m r heq => ?_⟩
      cases heq
      exact .inl List.mem_cons_self
  · exact served_handleNext fun m hm => h m (List.mem_cons_of_mem _ hm)

theorem logs_deadLetter (dropped : Nat) (h : .added message.id message.data ∈ q.log) :
    Logs q (deadLetter g message dropped q) := by
  refine .cons rfl (by simp) ?_
  rintro g' id v (heq | heq) <;> cases heq
  exact h

theorem settled_deadLetter {dropped : Nat} :
    (deadLetter g message dropped q).Settled g message.id message.data := .inr List.mem_cons_self

variable [Fintype γ] [DecidableEq γ] [DecidableEq χ] {cfg : StreamConfig} {c : χ} {answer : StreamAnswer γ}
  {phase : ConsumerPhase ν}

/-- A move of a reader or a claimer: the effect that it has, and what it knows afterwards. -/
def Works (q : EventQueue γ χ ν) (g : γ) (moved : ConsumerPhase ν × EventQueue γ χ ν) : Prop :=
  Effect q moved.2 none ∧ moved.1.Knows g moved.2

omit [Fintype γ] [DecidableEq γ] [DecidableEq χ] in
/-- The messages were added, and so were those after the first one. -/
theorem added_rest (h : ∀ m ∈ message :: rest, .added m.id m.data ∈ q.log) :
    ∀ m ∈ rest, .added m.id m.data ∈ q.log := fun m hm => h m (List.mem_cons_of_mem _ hm)

theorem Served.works (h : Served q g q.stream moved) : Works q g moved := ⟨.log h.stream h.logs, h.knows⟩

theorem works_finish {returns : Bool} (h : phase.Knows g q) (hphase : phase = .handling message rest) :
    Works q g (finish g message rest returns q) := by
  subst hphase
  exact (served_finish h.added).works

theorem works_acked (h : phase.Knows g q) (hphase : phase = .acking message rest) {outcome : Outcome} :
    Works q g (handleNext g rest (acked g message outcome q)) := by
  subst hphase
  have hlog : (acked g message outcome q).log = q.log := by
    unfold acked
    split <;> rfl
  have hserved := served_after (g := g) (added_rest h.added) hlog
  have hsettled := h.settled message rest rfl
  cases outcome with
  | failedBefore => exact hserved.works
  | _ => exact ⟨.ack g message.id message.data hsettled hserved.stream hserved.logs, hserved.knows⟩

theorem works_read (hok : q.Ok) (h : phase.Knows g q) : Works q g (read cfg g c answer phase q) := by
  cases phase with
  | polling =>
    simp only [read]
    cases answer.outcome with
    | answered =>
      have hadded : ∀ m ∈ (q.stream.readGroup g c cfg.batchSize answer.now).1,
          .added m.id m.data ∈ q.log := fun m hm => hok.entries _ (RedisStream.mem_readGroup hm).1
      let after := { q with stream := (q.stream.readGroup g c cfg.batchSize answer.now).2 }
      have hserved := served_after (g := g) hadded (rfl : after.log = q.log)
      exact ⟨.read g c cfg.batchSize answer.now hserved.stream hserved.logs, hserved.knows⟩
    | failedBefore => exact served_polling.works
    | failedAfter => exact ⟨.read g c cfg.batchSize answer.now rfl (.of_eq rfl), served_polling.knows⟩
  | handling message rest => exact works_finish h rfl
  | acking message rest => exact works_acked h rfl
  | lookingUp message => exact ⟨.log rfl (.of_eq rfl), h⟩
  | deadLettering message => exact ⟨.log rfl (.of_eq rfl), h⟩

theorem works_claim (hok : q.Ok) (h : phase.Knows g q) : Works q g (claim cfg g c answer phase q) := by
  cases phase with
  | polling =>
    have heffect : Effect q { q with stream := (q.stream.autoClaim g c cfg.claimIdleMs answer.cursor
        answer.now).2 } none :=
      .claim g c cfg.claimIdleMs answer.cursor answer.now rfl (.of_eq rfl)
    simp only [claim]
    cases answer.outcome with
    | answered =>
      cases hmessage : (q.stream.autoClaim g c cfg.claimIdleMs answer.cursor answer.now).1 with
      | none => exact ⟨heffect, served_polling.knows⟩
      | some message =>
        refine ⟨heffect, fun m hm => ?_, fun m rest heq => by cases heq⟩
        rw [ConsumerPhase.messages, List.mem_singleton] at hm
        rw [hm]
        exact hok.entries _ (hok.stream.of_autoClaim hmessage).2.1
    | failedBefore => exact served_polling.works
    | failedAfter => exact ⟨heffect, served_polling.knows⟩
  | handling message rest => exact works_finish h rfl
  | acking message rest => exact works_acked h rfl
  | lookingUp message =>
    simp only [claim]
    split
    · split
      · exact (served_failOpen (h.added message List.mem_cons_self)).works
      · split
        · exact (served_handle h.added).works
        · exact ⟨.log rfl (.of_eq rfl), h.added, fun m rest heq => by cases heq⟩
    · exact (served_failOpen (h.added message List.mem_cons_self)).works
  | deadLettering message =>
    have hadded := h.added message List.mem_cons_self
    have hlogs := logs_deadLetter (g := g) answer.dropped hadded
    simp only [claim]
    cases answer.outcome with
    | answered =>
      refine ⟨.log rfl hlogs, fun m hm => hlogs.grows _ (h.added m hm), fun m rest heq => ?_⟩
      cases heq
      exact settled_deadLetter
    | failedBefore => exact (served_failOpen hadded).works
    | failedAfter =>
      have hserved := (served_failOpen (g := g) (hlogs.grows _ hadded)).of_logs hlogs
      exact ⟨.log hserved.stream hserved.logs, hserved.knows⟩

/-- The consumer that a move deletes. -/
def deletion (outcome : Outcome) : StreamAgent γ χ ν → Option (γ × χ)
  | .janitor (.deleting group name _ _) => if ran outcome then some (group, name) else none
  | _ => none

variable {cfgs : ι → StreamConfig} {who : ι} {agent : StreamAgent γ χ ν}

variable (cfgs who answer) in
/-- What a move does to the queue, and what the process knows afterwards. -/
theorem move_spec (hok : q.Ok) (h : agent.Knows q) :
    Effect q (move cfgs who answer agent q).2 (deletion answer.outcome agent) ∧
      (move cfgs who answer agent q).1.Knows (move cfgs who answer agent q).2 := by
  cases agent with
  | sink phase =>
    cases phase with
    | adding event =>
      cases houtcome : answer.outcome <;> simp only [move, emit, houtcome, ran, answered]
      · exact ⟨.add event _ _ rfl rfl, .inr ⟨_, List.mem_cons_self⟩⟩
      · exact ⟨.log rfl (.of_eq rfl), trivial⟩
      · exact ⟨.add event _ _ rfl rfl, trivial⟩
    | fallingBack event =>
      cases hreturns : answer.returns <;> simp only [move, emit, hreturns]
      · exact ⟨.log rfl (.of_eq rfl), trivial⟩
      · exact ⟨.log rfl (.cons rfl (by simp) (by simp)), .inl List.mem_cons_self⟩
    | returned event => exact ⟨.log rfl (.of_eq rfl), h⟩
    | raised event => exact ⟨.log rfl (.of_eq rfl), trivial⟩
  | reader g c phase => exact works_read hok h
  | claimer g c phase => exact works_claim hok h
  | janitor phase =>
    refine ⟨?_, trivial⟩
    cases phase with
    | deleting group name names groups =>
      simp only [move, sweep, deletion]
      cases answer.outcome
      · exact .delete group name rfl rfl
      · exact .log rfl (.of_eq rfl)
      · exact .delete group name rfl rfl
    | _ => exact .log rfl (.of_eq rfl)

/-! ## Runs -/

/-- What a run may have to lose: an event that was emitted, or one that was added. -/
def NoneLost (pool : Pool ι (StreamAgent γ χ ν) (EventQueue γ χ ν)) : Prop :=
  (∀ i event, pool.agents i = .sink (.returned event) →
    .tracked event ∈ pool.shared.log ∨ ∃ id, .added id event ∈ pool.shared.log) ∧ pool.shared.Kept

/-- No consumer is deleted that has something pending which is still to be settled. -/
def SparesUnsettled (pool : Pool ι (StreamAgent γ χ ν) (EventQueue γ χ ν))
    (event : ι × StreamAnswer γ) : Prop :=
  ∀ g c, deletion event.2.outcome (pool.agents event.1) = some (g, c) → pool.shared.SparesPending g c

/-- The queue is as it should be, and the processes know of it what they should. -/
abbrev Minded (pool : Pool ι (StreamAgent γ χ ν) (EventQueue γ χ ν)) : Prop :=
  pool.Sound EventQueue.Ok fun _ agent q => agent.Knows q

omit [Fintype γ] [DecidableEq γ] [DecidableEq χ] in
theorem minded_start (roles : ι → StreamRole γ χ ν) : Minded (start roles) where
  shared := {
    stream := RedisStream.ok_empty
    entries := fun entry h => (List.not_mem_nil h).elim
    numbered := fun id v h => (List.not_mem_nil h).elim
    once := fun id v v' h => (List.not_mem_nil h).elim
    pending := fun g id h => by cases h
    settled := fun g id v h => by rcases h with h | h <;> exact (List.not_mem_nil h).elim }
  agents i := by
    have hpolling (g : γ) : (ConsumerPhase.polling : ConsumerPhase ν).Knows g ({} : EventQueue γ χ ν) :=
      (served_polling (γ := γ) (χ := χ)).knows
    cases hrole : roles i <;> simp only [start, hrole, StreamRole.agent]
    · trivial
    · exact hpolling _
    · exact hpolling _
    · trivial

variable [DecidableEq ι]

theorem Minded.step {pool : Pool ι (StreamAgent γ χ ν) (EventQueue γ χ ν)} (h : Minded pool)
    (event : ι × StreamAnswer γ) : Minded (pool.step (move cfgs) event) := by
  have hspec := move_spec event.2 cfgs event.1 h.shared (h.agents event.1)
  exact Pool.sound_step (h.shared.effect hspec.1) hspec.2
    fun j _ => (h.agents j).grows hspec.1.grows

/-- Nothing is lost in a run just if no consumer is deleted that has something pending which is still to be
settled. -/
theorem noneLost_iff (cfgs : ι → StreamConfig) (roles : ι → StreamRole γ χ ν)
    (events : List (ι × StreamAnswer γ)) :
    (∀ pool ∈ List.scanl (Pool.step (move cfgs)) (start roles) events, NoneLost pool) ↔
      Run.Guarded (Pool.step (move cfgs)) SparesUnsettled (start roles) events := by
  have hemitted {pool : Pool ι (StreamAgent γ χ ν) (EventQueue γ χ ν)} (h : Minded pool) (i : ι) (event : ν)
      (hi : pool.agents i = .sink (.returned event)) :
      .tracked event ∈ pool.shared.log ∨ ∃ id, .added id event ∈ pool.shared.log := by
    have hknows := h.agents i
    rwa [hi] at hknows
  refine Run.forall_mem_scanl_iff_of_invariant Minded ?_ ?_ (minded_start roles) ?_
  · intro pool event hminded hlost hnext g c hdeletion id delivery hpending hconsumer
    have heffect := (move_spec event.2 cfgs event.1 hminded.shared (hminded.agents event.1)).1
    rw [hdeletion] at heffect
    obtain ⟨v, hadded⟩ := hminded.shared.pending g id (by rw [hpending]; rfl)
    refine ⟨v, ?_⟩
    cases heffect with
    | delete _ _ hstream hlog =>
      rcases hnext.2 id v (hlog.symm ▸ hadded) g with hheld | hsettled
      · have howes := hheld.2
        rw [Pool.shared_step, hstream] at howes
        exact absurd howes (hminded.shared.stream.not_owes_delConsumer hpending hconsumer)
      · rwa [Settled, Pool.shared_step, hlog] at hsettled
  · intro pool event hminded hlost hspares
    have hnext : Minded (pool.step (move cfgs) event) := hminded.step event
    have heffect := (move_spec event.2 cfgs event.1 hminded.shared (hminded.agents event.1)).1
    exact ⟨hnext, hemitted hnext, hlost.2.effect hminded.shared heffect hspares⟩
  · exact ⟨hemitted (minded_start roles), fun id v h => (List.not_mem_nil h).elim⟩

end StreamWorker

end Spoo
