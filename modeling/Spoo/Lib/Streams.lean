import Mathlib.Data.Fintype.Basic
import Mathlib.Data.List.Pairwise
import Mathlib.Logic.Function.Basic

/-!
# Redis streams and consumer groups

Entries are numbered through as they are added. A consumer group has been delivered the entries up to one of
them, and has those pending that were delivered and not acknowledged: to which consumer each went last, when,
and how many times it was delivered by then. Trimming spares what some group has not acknowledged (the `ACKED`
policy). Times are in milliseconds.

A group owes an entry that it has not been delivered yet, or that is pending. Adding, reading and claiming leave
a group with what it owed. What makes a group owe less is an acknowledgement, and the deletion of a consumer.
-/

namespace Redis

/-- What a group keeps of a pending entry. -/
structure Delivery (χ : Type) where
  consumer : χ
  deliveredAt : Int
  times : Nat
  deriving DecidableEq, Repr

/-- A consumer group. Of a consumer, it keeps the time of its last command. -/
structure ConsumerGroup (χ : Type) where
  lastDelivered : Nat := 0
  pending : Nat → Option (Delivery χ) := fun _ => none
  consumers : List (χ × Int) := []

/-- A message as a consumer gets it: the entry, and the how manieth delivery of it this is. The consumer is not
told the latter. -/
structure Message (ν : Type) where
  id : Nat
  data : ν
  nth : Nat
  deriving DecidableEq, Repr

/-- The entries from the oldest on, the id of the last one that was added, and the groups. -/
structure RedisStream (γ χ ν : Type) where
  entries : List (Nat × ν) := []
  lastId : Nat := 0
  group : γ → ConsumerGroup χ := fun _ => {}

/-! ## Groups -/

namespace ConsumerGroup

variable {χ : Type} {group : ConsumerGroup χ} {id other : Nat} {consumer : χ} {now : Int}

/-- The entry is still to be delivered, or to be acknowledged. -/
def Owes (group : ConsumerGroup χ) (id : Nat) : Prop := group.lastDelivered < id ∨ (group.pending id).isSome

instance (group : ConsumerGroup χ) (id : Nat) : Decidable (group.Owes id) := inferInstanceAs (Decidable (_ ∨ _))

/-- `XPENDING` of one entry: how many times it was delivered. -/
def timesDelivered (group : ConsumerGroup χ) (id : Nat) : Option Nat := (group.pending id).map Delivery.times

/-- `XACK`. -/
def ack (group : ConsumerGroup χ) (id : Nat) : ConsumerGroup χ :=
  { group with pending := Function.update group.pending id none }

@[simp] theorem lastDelivered_ack : (group.ack id).lastDelivered = group.lastDelivered := rfl

theorem pending_ack : (group.ack other).pending id = if id = other then none else group.pending id :=
  Function.update_apply ..

theorem owes_ack (hne : id ≠ other) : (group.ack other).Owes id ↔ group.Owes id := by
  rw [Owes, Owes, lastDelivered_ack, pending_ack, if_neg hne]

variable [DecidableEq χ]

/-- A consumer is known from its first command on. -/
def touch (group : ConsumerGroup χ) (consumer : χ) (now : Int) : List (χ × Int) :=
  if group.consumers.any (·.1 = consumer) then
    group.consumers.map fun known => if known.1 = consumer then (consumer, now) else known
  else group.consumers ++ [(consumer, now)]

/-- The entries go to the consumer, for the first time. -/
def read (group : ConsumerGroup χ) (ids : List Nat) (consumer : χ) (now : Int) : ConsumerGroup χ where
  lastDelivered := (ids.getLast?).getD group.lastDelivered
  pending id := if id ∈ ids then some ⟨consumer, now, 1⟩ else group.pending id
  consumers := group.touch consumer now

/-- The entry goes to the consumer, again. -/
def claim (group : ConsumerGroup χ) (id : Nat) (times : Nat) (consumer : χ) (now : Int) : ConsumerGroup χ :=
  { group with
    pending := Function.update group.pending id (some ⟨consumer, now, times⟩)
    consumers := group.touch consumer now }

/-- How many entries are pending with a consumer. -/
def pendingOf (group : ConsumerGroup χ) (consumer : χ) : Nat :=
  ((List.range (group.lastDelivered + 1)).filter
    fun id => (group.pending id).any (·.consumer = consumer)).length

/-- `XINFO CONSUMERS`: the name, how much is pending, and how long since the last command. -/
def info (group : ConsumerGroup χ) (now : Int) : List (χ × Nat × Int) :=
  group.consumers.map fun known => (known.1, group.pendingOf known.1, now - known.2)

/-- `XGROUP DELCONSUMER`: what is pending with the consumer goes with it. -/
def delConsumer (group : ConsumerGroup χ) (consumer : χ) : ConsumerGroup χ where
  lastDelivered := group.lastDelivered
  pending id := (group.pending id).filter (·.consumer ≠ consumer)
  consumers := group.consumers.filter (·.1 ≠ consumer)

theorem pending_claim {times : Nat} : (group.claim other times consumer now).pending id =
    if id = other then some ⟨consumer, now, times⟩ else group.pending id :=
  Function.update_apply ..

theorem Owes.claim {times : Nat} (h : group.Owes id) : (group.claim other times consumer now).Owes id := by
  refine h.imp_right fun h => ?_
  rw [pending_claim]
  split
  · rfl
  · exact h

theorem mem_pending_delConsumer {delivery : Delivery χ}
    (h : (group.delConsumer consumer).pending id = some delivery) : group.pending id = some delivery :=
  (Option.filter_eq_some_iff.1 h).1

/-- An entry that a group owes is gone with a consumer just if it is pending with that one. -/
theorem owes_delConsumer (h : group.Owes id) (consumer : χ) : (group.delConsumer consumer).Owes id ∨
    ∃ delivery, group.pending id = some delivery ∧ delivery.consumer = consumer := by
  rcases h with hunread | hpending
  · exact .inl (.inl hunread)
  · obtain ⟨delivery, hdelivery⟩ := Option.isSome_iff_exists.1 hpending
    by_cases hconsumer : delivery.consumer = consumer
    · exact .inr ⟨delivery, hdelivery, hconsumer⟩
    · refine .inl (.inr ?_)
      simp [ConsumerGroup.delConsumer, hdelivery, hconsumer]

/-- What was pending with a consumer that is deleted is owed no longer. -/
theorem not_owes_delConsumer {delivery : Delivery χ} (hread : id ≤ group.lastDelivered)
    (hpending : group.pending id = some delivery) (hconsumer : delivery.consumer = consumer) :
    ¬ (group.delConsumer consumer).Owes id := by
  rintro (hunread | hsome)
  · exact absurd hunread (Nat.not_lt.2 hread)
  · simp [ConsumerGroup.delConsumer, hpending, hconsumer] at hsome

end ConsumerGroup

/-! ## Commands -/

namespace RedisStream

variable {γ χ ν : Type} {s : RedisStream γ χ ν} {g g' : γ} {c : χ} {id other : Nat} {v : ν} {now : Int}

/-- Every group was delivered the entry and has acknowledged it. -/
def Acked (s : RedisStream γ χ ν) (id : Nat) : Prop := ∀ g, ¬ (s.group g).Owes id

instance [Fintype γ] (s : RedisStream γ χ ν) (id : Nat) : Decidable (s.Acked id) :=
  inferInstanceAs (Decidable (∀ g, ¬ (s.group g).Owes id))

/-- `MAXLEN ~ … ACKED`: of what every group has acknowledged, the server removes what it likes to, as long as
`maxlen` entries stay. -/
def trim [Fintype γ] (s : RedisStream γ χ ν) (maxlen : Nat) (ids : List Nat) : RedisStream γ χ ν :=
  let left := s.entries.filter fun entry => ¬ (entry.1 ∈ ids ∧ s.Acked entry.1)
  if maxlen ≤ left.length then { s with entries := left } else s

/-- `XADD`. -/
def add [Fintype γ] (s : RedisStream γ χ ν) (data : ν) (maxlen : Nat) (ids : List Nat) : RedisStream γ χ ν :=
  { s with entries := s.entries ++ [(s.lastId + 1, data)], lastId := s.lastId + 1 }.trim maxlen ids

variable [DecidableEq γ]

/-- A command on one group. -/
def onGroup (s : RedisStream γ χ ν) (g : γ) (group : ConsumerGroup χ) : RedisStream γ χ ν :=
  { s with group := Function.update s.group g group }

def ack (s : RedisStream γ χ ν) (g : γ) (id : Nat) : RedisStream γ χ ν := s.onGroup g ((s.group g).ack id)

variable [DecidableEq χ]

/-- What `XREADGROUP` finds: the first entries that the group was not delivered yet. -/
def unread (s : RedisStream γ χ ν) (g : γ) (count : Nat) : List (Nat × ν) :=
  (s.entries.filter fun entry => (s.group g).lastDelivered < entry.1).take count

/-- `XREADGROUP` of new entries. -/
def readGroup (s : RedisStream γ χ ν) (g : γ) (c : χ) (count : Nat) (now : Int) :
    List (Message ν) × RedisStream γ χ ν :=
  ((s.unread g count).map fun entry => ⟨entry.1, entry.2, 1⟩,
    s.onGroup g ((s.group g).read ((s.unread g count).map Prod.fst) c now))

/-- `XAUTOCLAIM` of one entry: where the server's cursor stands is left open. An entry that was delivered less
than `minIdle` ago is not claimed, and one that is no longer in the stream is forgotten. -/
def autoClaim (s : RedisStream γ χ ν) (g : γ) (c : χ) (minIdle : Nat) (cursor : Nat) (now : Int) :
    Option (Message ν) × RedisStream γ χ ν :=
  match (s.group g).pending cursor with
  | none => (none, s.onGroup g { s.group g with consumers := (s.group g).touch c now })
  | some delivery =>
    if now - delivery.deliveredAt < minIdle then
      (none, s.onGroup g { s.group g with consumers := (s.group g).touch c now })
    else match s.entries.lookup cursor with
      | none => (none, s.onGroup g { (s.group g).ack cursor with consumers := (s.group g).touch c now })
      | some data => (some ⟨cursor, data, delivery.times + 1⟩,
          s.onGroup g ((s.group g).claim cursor (delivery.times + 1) c now))

def delConsumer (s : RedisStream γ χ ν) (g : γ) (c : χ) : RedisStream γ χ ν :=
  s.onGroup g ((s.group g).delConsumer c)

/-! ### What every command keeps -/

/-- The entries are in order, and nothing was delivered that was not added, or is pending that was not
delivered. -/
structure Ok (s : RedisStream γ χ ν) : Prop where
  ordered : (s.entries.map Prod.fst).Pairwise (· < ·)
  numbered : ∀ entry ∈ s.entries, entry.1 ≤ s.lastId
  delivered : ∀ g, (s.group g).lastDelivered ≤ s.lastId
  pending : ∀ g id, ((s.group g).pending id).isSome → id ≤ (s.group g).lastDelivered

/-- The entry is in the stream, and the group owes it. -/
def Held (s : RedisStream γ χ ν) (g : γ) (id : Nat) (v : ν) : Prop := (id, v) ∈ s.entries ∧ (s.group g).Owes id

/-- The group was delivered the entry, and if it is still pending, `n` times or more. -/
def Past (s : RedisStream γ χ ν) (g : γ) (id n : Nat) : Prop :=
  id ≤ (s.group g).lastDelivered ∧ ∀ delivery, (s.group g).pending id = some delivery → n ≤ delivery.times

omit [DecidableEq γ] [DecidableEq χ] in
theorem ok_empty : ({} : RedisStream γ χ ν).Ok where
  ordered := List.Pairwise.nil
  numbered entry h := by cases h
  delivered _ := le_refl 0
  pending _ _ h := by cases h

section onGroup

omit [DecidableEq χ]

variable {group : ConsumerGroup χ}

@[simp] theorem entries_onGroup : (s.onGroup g group).entries = s.entries := rfl

@[simp] theorem lastId_onGroup : (s.onGroup g group).lastId = s.lastId := rfl

@[simp] theorem group_onGroup_same : (s.onGroup g group).group g = group := Function.update_self ..

theorem group_onGroup_of_ne (h : g' ≠ g) : (s.onGroup g group).group g' = s.group g' :=
  Function.update_of_ne h ..

/-- What holds of the group after a command on it, and of the others before, holds of all after it. -/
theorem forall_group_onGroup {P : γ → ConsumerGroup χ → Prop} (hsame : P g group)
    (hothers : ∀ g', g' ≠ g → P g' (s.group g')) (g' : γ) : P g' ((s.onGroup g group).group g') := by
  by_cases hg : g' = g
  · subst hg
    rw [group_onGroup_same]
    exact hsame
  · rw [group_onGroup_of_ne hg]
    exact hothers g' hg

theorem Ok.onGroup (h : s.Ok) (hdelivered : group.lastDelivered ≤ s.lastId)
    (hpending : ∀ id, (group.pending id).isSome → id ≤ group.lastDelivered) : (s.onGroup g group).Ok where
  ordered := h.ordered
  numbered := h.numbered
  delivered := forall_group_onGroup (P := fun _ group => group.lastDelivered ≤ s.lastId) hdelivered
    fun g' _ => h.delivered g'
  pending := forall_group_onGroup
    (P := fun _ group => ∀ id, (group.pending id).isSome → id ≤ group.lastDelivered) hpending
    fun g' _ => h.pending g'

theorem Held.onGroup (h : s.Held g' id v) (howes : g' = g → (s.group g).Owes id → group.Owes id) :
    (s.onGroup g group).Held g' id v := by
  refine ⟨h.1, ?_⟩
  by_cases hg : g' = g
  · subst hg
    rw [group_onGroup_same]
    exact howes rfl h.2
  · rw [group_onGroup_of_ne hg]
    exact h.2

theorem Past.onGroup {n : Nat} (h : s.Past g' id n) (hle : (s.group g).lastDelivered ≤ group.lastDelivered)
    (hpending : g' = g → ∀ delivery, group.pending id = some delivery → n ≤ delivery.times) :
    (s.onGroup g group).Past g' id n := by
  by_cases hg : g' = g
  · subst hg
    rw [Past, group_onGroup_same]
    exact ⟨h.1.trans hle, hpending rfl⟩
  · rw [Past, group_onGroup_of_ne hg]
    exact h

end onGroup

/-! ### `XADD` -/

section add

variable [Fintype γ] {maxlen : Nat} {ids : List Nat}

omit [DecidableEq γ] [DecidableEq χ]

@[simp] theorem lastId_trim : (s.trim maxlen ids).lastId = s.lastId := by
  unfold trim
  dsimp only
  split <;> rfl

@[simp] theorem group_trim : (s.trim maxlen ids).group = s.group := by
  unfold trim
  dsimp only
  split <;> rfl

theorem entries_trim_sublist : (s.trim maxlen ids).entries.Sublist s.entries := by
  unfold trim
  dsimp only
  split
  · exact List.filter_sublist
  · exact List.Sublist.refl _

theorem Ok.trim (h : s.Ok) : (s.trim maxlen ids).Ok where
  ordered := h.ordered.sublist (entries_trim_sublist.map Prod.fst)
  numbered entry hentry := by
    rw [lastId_trim]
    exact h.numbered entry (entries_trim_sublist.subset hentry)
  delivered := by simpa using h.delivered
  pending := by simpa using h.pending

/-- What some group owes is not trimmed. -/
theorem Held.trim (h : s.Held g id v) : (s.trim maxlen ids).Held g id v := by
  have hacked : ¬ s.Acked id := fun hacked => hacked g h.2
  refine ⟨?_, by rw [group_trim]; exact h.2⟩
  unfold RedisStream.trim
  dsimp only
  split
  · rw [List.mem_filter]
    simp [h.1, hacked]
  · exact h.1

@[simp] theorem lastId_add : (s.add v maxlen ids).lastId = s.lastId + 1 := lastId_trim

@[simp] theorem group_add : (s.add v maxlen ids).group = s.group := group_trim

theorem mem_entries_add {entry : Nat × ν} (h : entry ∈ (s.add v maxlen ids).entries) :
    entry ∈ s.entries ∨ entry = (s.lastId + 1, v) := by
  have hentry := entries_trim_sublist.subset h
  simpa using hentry

theorem Ok.add (h : s.Ok) : (s.add v maxlen ids).Ok := by
  refine Ok.trim ⟨?_, ?_, fun g => (h.delivered g).trans (Nat.le_succ _), h.pending⟩
  · rw [List.map_append, List.pairwise_append]
    refine ⟨h.ordered, List.pairwise_singleton .., ?_⟩
    intro id hid other hother
    obtain ⟨entry, hentry, rfl⟩ := List.mem_map.1 hid
    have hle := h.numbered entry hentry
    simp only [List.map_cons, List.map_nil, List.mem_singleton] at hother
    omega
  · intro entry hentry
    rw [List.mem_append, List.mem_singleton] at hentry
    rcases hentry with hentry | rfl
    · exact (h.numbered entry hentry).trans (Nat.le_succ _)
    · exact le_refl _

/-- Every group owes an entry that was just added. -/
theorem Ok.held_add (h : s.Ok) (g : γ) : (s.add v maxlen ids).Held g (s.lastId + 1) v :=
  Held.trim ⟨by simp, .inl (Nat.lt_succ_of_le (h.delivered g))⟩

theorem Held.add {w : ν} (h : s.Held g id v) : (s.add w maxlen ids).Held g id v :=
  Held.trim ⟨List.mem_append_left _ h.1, h.2⟩

theorem Past.add {w : ν} {n : Nat} (h : s.Past g id n) : (s.add w maxlen ids).Past g id n := by
  rw [Past, group_add]
  exact h

end add

/-! ### `XREADGROUP` -/

section read

variable {count : Nat} {message : Message ν}

omit [DecidableEq γ] [DecidableEq χ] in
/-- Of a list in order, what comes after its first elements is greater than they are. -/
theorem lt_of_notMem_take {ids : List Nat} (h : ids.Pairwise (· < ·)) (hid : id ∈ ids)
    (hnot : id ∉ ids.take count) : ∀ other ∈ ids.take count, other < id := by
  rw [← List.take_append_drop count ids] at h hid
  have hdrop := (List.mem_append.1 hid).resolve_left hnot
  exact fun other hother => (List.pairwise_append.1 h).2.2 other hother id hdrop

omit [DecidableEq γ] [DecidableEq χ] in
theorem mem_unread {entry : Nat × ν} (h : entry ∈ s.unread g count) :
    entry ∈ s.entries ∧ (s.group g).lastDelivered < entry.1 := by
  have hentry := List.mem_of_mem_take h
  rw [List.mem_filter, decide_eq_true_eq] at hentry
  exact hentry

theorem mem_readGroup (h : message ∈ (s.readGroup g c count now).1) :
    (message.id, message.data) ∈ s.entries ∧ (s.group g).lastDelivered < message.id ∧ message.nth = 1 := by
  obtain ⟨entry, hentry, rfl⟩ := List.mem_map.1 h
  have ⟨hmem, hlt⟩ := mem_unread hentry
  exact ⟨hmem, hlt, rfl⟩

omit [DecidableEq γ] [DecidableEq χ] in
theorem ids_unread : (s.unread g count).map Prod.fst =
    ((s.entries.map Prod.fst).filter fun id => (s.group g).lastDelivered < id).take count := by
  rw [unread, List.map_take, List.filter_map]
  rfl

/-- The entries are delivered in order and without a gap. -/
theorem Held.readGroup (hok : s.Ok) (h : s.Held g' id v) :
    (s.readGroup g c count now).2.Held g' id v := by
  refine h.onGroup fun hg howes => ?_
  rcases howes with hunread | hpending
  · by_cases hmem : id ∈ (s.unread g count).map Prod.fst
    · exact .inr (by simp only [ConsumerGroup.read, if_pos hmem, Option.isSome_some])
    · refine .inl ?_
      have hid : id ∈ (s.entries.map Prod.fst).filter fun id => (s.group g).lastDelivered < id :=
        List.mem_filter.2 ⟨List.mem_map_of_mem h.1, by simpa using hunread⟩
      rw [ids_unread] at hmem ⊢
      have hlt := lt_of_notMem_take (hok.ordered.filter _) hid hmem
      simp only [ConsumerGroup.read]
      cases hlast : (List.take count ((s.entries.map Prod.fst).filter
          fun id => (s.group g).lastDelivered < id)).getLast? with
      | none => exact hunread
      | some last => exact hlt last (List.mem_of_getLast? hlast)
  · refine .inr ?_
    simp only [ConsumerGroup.read]
    split
    · rfl
    · exact hpending

/-- How far the group has come after a read: up to an entry that it was just delivered, or as far as before. -/
theorem lastDelivered_read (group : ConsumerGroup χ) (ids : List Nat) (consumer : χ) (now : Int) :
    (group.read ids consumer now).lastDelivered = group.lastDelivered ∧ ids = [] ∨
      (group.read ids consumer now).lastDelivered ∈ ids := by
  simp only [ConsumerGroup.read]
  cases hlast : ids.getLast? with
  | none => exact .inl ⟨rfl, List.getLast?_eq_none_iff.1 hlast⟩
  | some last => exact .inr (List.mem_of_getLast? hlast)

/-- A delivered entry is not beyond the last one. -/
theorem le_lastDelivered_read {group : ConsumerGroup χ} {ids : List Nat} {consumer : χ}
    (h : ids.Pairwise (· < ·)) (hid : id ∈ ids) : id ≤ (group.read ids consumer now).lastDelivered := by
  simp only [ConsumerGroup.read]
  obtain ⟨init, last, rfl⟩ := (List.eq_nil_or_concat' ids).resolve_left (List.ne_nil_of_mem hid)
  rw [List.getLast?_concat, Option.getD_some]
  rw [List.mem_append, List.mem_singleton] at hid
  rcases hid with hid | rfl
  · exact ((List.pairwise_append.1 h).2.2 id hid last (List.mem_singleton_self _)).le
  · exact le_refl _

omit [DecidableEq γ] [DecidableEq χ] in
theorem Ok.pairwise_unread (h : s.Ok) : ((s.unread g count).map Prod.fst).Pairwise (· < ·) := by
  rw [ids_unread]
  exact (h.ordered.filter _).sublist (List.take_sublist ..)

omit [DecidableEq γ] in
theorem lastDelivered_le_readGroup : (s.group g).lastDelivered ≤
    ((s.group g).read ((s.unread g count).map Prod.fst) c now).lastDelivered := by
  rcases lastDelivered_read (s.group g) ((s.unread g count).map Prod.fst) c now with ⟨hsame, -⟩ | hmem
  · exact hsame.ge
  · obtain ⟨entry, hentry, heq⟩ := List.mem_map.1 hmem
    rw [← heq]
    exact (mem_unread hentry).2.le

theorem Ok.readGroup (h : s.Ok) : (s.readGroup g c count now).2.Ok := by
  refine h.onGroup ?_ fun id hid => ?_
  · rcases lastDelivered_read (s.group g) ((s.unread g count).map Prod.fst) c now with ⟨hsame, -⟩ | hmem
    · exact hsame.trans_le (h.delivered g)
    · obtain ⟨entry, hentry, heq⟩ := List.mem_map.1 hmem
      rw [← heq]
      exact h.numbered entry (mem_unread hentry).1
  · by_cases hmem : id ∈ (s.unread g count).map Prod.fst
    · exact le_lastDelivered_read h.pairwise_unread hmem
    · simp only [ConsumerGroup.read, if_neg hmem] at hid
      exact (h.pending g id hid).trans lastDelivered_le_readGroup

/-- What is pending after a read was so before, or is an entry of the stream. -/
theorem pending_readGroup (h : (((s.readGroup g c count now).2.group g').pending id).isSome) :
    ((s.group g').pending id).isSome ∨ ∃ v, (id, v) ∈ s.entries := by
  by_cases hg : g' = g
  · subst hg
    simp only [RedisStream.readGroup, group_onGroup_same, ConsumerGroup.read] at h
    split at h
    · rename_i hmem
      obtain ⟨entry, hentry, rfl⟩ := List.mem_map.1 hmem
      exact .inr ⟨entry.2, (mem_unread hentry).1⟩
    · exact .inl h
  · rw [RedisStream.readGroup, group_onGroup_of_ne hg] at h
    exact .inl h

theorem Past.readGroup {n : Nat} (h : s.Past g' id n) : (s.readGroup g c count now).2.Past g' id n := by
  refine h.onGroup lastDelivered_le_readGroup fun hg delivery hdelivery => ?_
  subst hg
  simp only [ConsumerGroup.read] at hdelivery
  split at hdelivery
  · rename_i hmem
    obtain ⟨entry, hentry, rfl⟩ := List.mem_map.1 hmem
    have hlt := (mem_unread hentry).2
    have hle := h.1
    omega
  · exact h.2 delivery hdelivery

/-- What was just read was delivered once. -/
theorem Ok.past_readGroup (h : s.Ok) (hmessage : message ∈ (s.readGroup g c count now).1) :
    (s.readGroup g c count now).2.Past g message.id message.nth := by
  obtain ⟨entry, hentry, rfl⟩ := List.mem_map.1 hmessage
  have hmem : entry.1 ∈ (s.unread g count).map Prod.fst := List.mem_map_of_mem hentry
  rw [Past, RedisStream.readGroup, group_onGroup_same]
  refine ⟨le_lastDelivered_read h.pairwise_unread hmem, fun delivery hdelivery => ?_⟩
  simp only [ConsumerGroup.read, if_pos hmem, Option.some.injEq] at hdelivery
  rw [← hdelivery]

end read

/-! ### `XAUTOCLAIM`, `XACK` and `XGROUP DELCONSUMER` -/

section claim

variable {minIdle cursor : Nat} {message : Message ν} {n : Nat}

variable (s g c now minIdle cursor) in
/-- What a claim comes to: the consumer is touched, and an entry that is no longer there is forgotten, or it
is delivered once more. -/
theorem autoClaim_cases : (∃ consumers, s.autoClaim g c minIdle cursor now =
      (none, s.onGroup g { s.group g with consumers := consumers })) ∨
    (∃ consumers, s.entries.lookup cursor = none ∧ s.autoClaim g c minIdle cursor now =
      (none, s.onGroup g { (s.group g).ack cursor with consumers := consumers })) ∨
    ∃ delivery data, (s.group g).pending cursor = some delivery ∧
      minIdle ≤ now - delivery.deliveredAt ∧ s.entries.lookup cursor = some data ∧
      s.autoClaim g c minIdle cursor now = (some ⟨cursor, data, delivery.times + 1⟩,
        s.onGroup g ((s.group g).claim cursor (delivery.times + 1) c now)) := by
  unfold autoClaim
  cases hpending : (s.group g).pending cursor with
  | none => exact .inl ⟨_, rfl⟩
  | some delivery =>
    by_cases hidle : now - delivery.deliveredAt < minIdle
    · exact .inl ⟨(s.group g).touch c now, by simp only [if_pos hidle]⟩
    · cases hlookup : s.entries.lookup cursor with
      | none => exact .inr (.inl ⟨(s.group g).touch c now, rfl, by simp only [if_neg hidle]⟩)
      | some data => exact .inr (.inr ⟨delivery, data, rfl, not_lt.1 hidle, rfl, by simp only [if_neg hidle]⟩)

omit [DecidableEq γ] [DecidableEq χ] in
theorem mem_of_lookup {entries : List (Nat × ν)} (h : entries.lookup id = some v) : (id, v) ∈ entries := by
  obtain ⟨before, after, rfl, -⟩ := List.lookup_eq_some_iff.1 h
  simp

omit [DecidableEq γ] [DecidableEq χ] in
theorem lookup_ne_none {entries : List (Nat × ν)} (h : (id, v) ∈ entries) : entries.lookup id ≠ none := by
  intro hnone
  have hne := List.lookup_eq_none_iff.1 hnone (id, v) h
  simp at hne

@[simp] theorem entries_autoClaim : (s.autoClaim g c minIdle cursor now).2.entries = s.entries := by
  rcases autoClaim_cases s g c now minIdle cursor with ⟨_, heq⟩ | ⟨_, -, heq⟩ | ⟨_, _, -, -, -, heq⟩ <;> rw [heq, entries_onGroup]

@[simp] theorem lastId_autoClaim : (s.autoClaim g c minIdle cursor now).2.lastId = s.lastId := by
  rcases autoClaim_cases s g c now minIdle cursor with ⟨_, heq⟩ | ⟨_, -, heq⟩ | ⟨_, _, -, -, -, heq⟩ <;> rw [heq, lastId_onGroup]

theorem Ok.autoClaim (h : s.Ok) : (s.autoClaim g c minIdle cursor now).2.Ok := by
  rcases autoClaim_cases s g c now minIdle cursor with ⟨_, heq⟩ | ⟨_, -, heq⟩ | ⟨delivery, data, hpending, -, -, heq⟩ <;> rw [heq]
  · exact h.onGroup (h.delivered g) (h.pending g)
  · refine h.onGroup (h.delivered g) fun id hid => ?_
    simp only [ConsumerGroup.pending_ack] at hid
    split at hid
    · cases hid
    · exact h.pending g id hid
  · refine h.onGroup (h.delivered g) fun id hid => ?_
    rw [ConsumerGroup.pending_claim] at hid
    split at hid
    · rename_i heq
      rw [heq]
      exact h.pending g cursor (by rw [hpending]; rfl)
    · exact h.pending g id hid

theorem pending_autoClaim (h : (((s.autoClaim g c minIdle cursor now).2.group g').pending id).isSome) :
    ((s.group g').pending id).isSome := by
  by_cases hg : g' = g
  · subst hg
    rcases autoClaim_cases s g' c now minIdle cursor with ⟨_, heq⟩ | ⟨_, -, heq⟩ | ⟨delivery, data, hpending, -, -, heq⟩ <;>
        rw [heq, group_onGroup_same] at h
    · exact h
    · simp only [ConsumerGroup.pending_ack] at h
      split at h
      · cases h
      · exact h
    · rw [ConsumerGroup.pending_claim] at h
      split at h
      · rename_i hid
        rw [hid, hpending]
        rfl
      · exact h
  · rcases autoClaim_cases s g c now minIdle cursor with ⟨_, heq⟩ | ⟨_, -, heq⟩ | ⟨_, _, -, -, -, heq⟩ <;>
        rw [heq, group_onGroup_of_ne hg] at h <;> exact h

theorem Held.autoClaim (h : s.Held g' id v) : (s.autoClaim g c minIdle cursor now).2.Held g' id v := by
  rcases autoClaim_cases s g c now minIdle cursor with ⟨_, heq⟩ | ⟨_, hlookup, heq⟩ | ⟨_, _, -, -, -, heq⟩ <;> rw [heq]
  · exact h.onGroup fun _ howes => howes
  · refine h.onGroup fun _ howes => ?_
    have hne : id ≠ cursor := by
      rintro rfl
      exact lookup_ne_none h.1 hlookup
    exact (ConsumerGroup.owes_ack hne).2 howes
  · exact h.onGroup fun _ howes => howes.claim

theorem Past.autoClaim (h : s.Past g' id n) : (s.autoClaim g c minIdle cursor now).2.Past g' id n := by
  rcases autoClaim_cases s g c now minIdle cursor with ⟨_, heq⟩ | ⟨_, -, heq⟩ | ⟨delivery, _, hpending, -, -, heq⟩ <;> rw [heq]
  · exact h.onGroup (le_refl _) fun hg => hg ▸ h.2
  · refine h.onGroup (le_refl _) fun hg other hother => ?_
    subst hg
    simp only [ConsumerGroup.pending_ack] at hother
    split at hother
    · cases hother
    · exact h.2 other hother
  · refine h.onGroup (le_refl _) fun hg other hother => ?_
    subst hg
    rw [ConsumerGroup.pending_claim] at hother
    split at hother
    · rename_i hid
      rw [← hid] at hpending
      have hle := h.2 delivery hpending
      cases hother
      exact hle.trans (Nat.le_succ _)
    · exact h.2 other hother

/-- What is claimed was delivered before, and now once more. -/
theorem Ok.of_autoClaim (h : s.Ok) (hmessage : (s.autoClaim g c minIdle cursor now).1 = some message) :
    message.id = cursor ∧ (message.id, message.data) ∈ s.entries ∧
      (s.autoClaim g c minIdle cursor now).2.Past g message.id message.nth ∧
      ∃ delivery, (s.group g).pending message.id = some delivery ∧ message.nth = delivery.times + 1 := by
  rcases autoClaim_cases s g c now minIdle cursor with ⟨_, heq⟩ | ⟨_, -, heq⟩ | ⟨delivery, data, hpending, -, hlookup, heq⟩ <;> rw [heq] at hmessage
  · cases hmessage
  · cases hmessage
  · cases hmessage
    refine ⟨rfl, mem_of_lookup hlookup, ?_, delivery, hpending, rfl⟩
    rw [heq, Past, group_onGroup_same]
    refine ⟨h.pending g cursor (by rw [hpending]; rfl), fun other hother => ?_⟩
    rw [ConsumerGroup.pending_claim, if_pos rfl] at hother
    cases hother
    exact le_refl _

omit [DecidableEq χ]

theorem Ok.ack (h : s.Ok) : (s.ack g other).Ok := by
  refine h.onGroup (h.delivered g) fun id hid => ?_
  rw [ConsumerGroup.pending_ack] at hid
  split at hid
  · cases hid
  · exact h.pending g id hid

theorem Held.ack (h : s.Held g' id v) (hne : ¬ (g' = g ∧ id = other)) : (s.ack g other).Held g' id v :=
  h.onGroup fun hg howes => (ConsumerGroup.owes_ack fun hid => hne ⟨hg, hid⟩).2 howes

theorem pending_of_ack (h : (((s.ack g other).group g').pending id).isSome) :
    ((s.group g').pending id).isSome := by
  by_cases hg : g' = g
  · subst hg
    rw [RedisStream.ack, group_onGroup_same, ConsumerGroup.pending_ack] at h
    split at h
    · cases h
    · exact h
  · rw [RedisStream.ack, group_onGroup_of_ne hg] at h
    exact h

theorem Past.ack (h : s.Past g' id n) : (s.ack g other).Past g' id n := by
  refine h.onGroup (le_refl _) fun hg delivery hdelivery => ?_
  subst hg
  rw [ConsumerGroup.pending_ack] at hdelivery
  split at hdelivery
  · cases hdelivery
  · exact h.2 delivery hdelivery

variable [DecidableEq χ]

theorem Ok.delConsumer (h : s.Ok) : (s.delConsumer g c).Ok := by
  refine h.onGroup (h.delivered g) fun id hid => ?_
  obtain ⟨delivery, hdelivery⟩ := Option.isSome_iff_exists.1 hid
  exact h.pending g id (by rw [ConsumerGroup.mem_pending_delConsumer hdelivery]; rfl)

theorem pending_of_delConsumer {delivery : Delivery χ}
    (h : ((s.delConsumer g c).group g').pending id = some delivery) :
    (s.group g').pending id = some delivery := by
  by_cases hg : g' = g
  · subst hg
    rw [RedisStream.delConsumer, group_onGroup_same] at h
    exact ConsumerGroup.mem_pending_delConsumer h
  · rw [RedisStream.delConsumer, group_onGroup_of_ne hg] at h
    exact h

theorem Past.delConsumer (h : s.Past g' id n) : (s.delConsumer g c).Past g' id n :=
  h.onGroup (le_refl _) fun hg delivery hdelivery => h.2 delivery (by
    rw [hg]
    exact ConsumerGroup.mem_pending_delConsumer hdelivery)

/-- An entry that a group owes is gone with a consumer just if it is pending with that one. -/
theorem Held.delConsumer (h : s.Held g' id v) : (s.delConsumer g c).Held g' id v ∨
    g' = g ∧ ∃ delivery, (s.group g).pending id = some delivery ∧ delivery.consumer = c := by
  by_cases hg : g' = g
  · subst hg
    rcases ConsumerGroup.owes_delConsumer h.2 c with howes | hpending
    · exact .inl (h.onGroup fun _ _ => howes)
    · exact .inr ⟨rfl, hpending⟩
  · exact .inl (h.onGroup fun heq => absurd heq hg)

/-- What was pending with it is no longer. -/
theorem Ok.not_owes_delConsumer (h : s.Ok) {delivery : Delivery χ}
    (hpending : (s.group g).pending id = some delivery) (hconsumer : delivery.consumer = c) :
    ¬ ((s.delConsumer g c).group g).Owes id := by
  rw [RedisStream.delConsumer, group_onGroup_same]
  exact ConsumerGroup.not_owes_delConsumer (h.pending g id (by rw [hpending]; rfl)) hpending hconsumer

end claim

end RedisStream

end Redis
