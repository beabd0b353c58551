import Mathlib.Data.List.Nodup
import Mathlib.Data.List.Perm.Subperm
import Spoo.Services.CustomDomainService

/-!
# The end of an erasure of domains

`delete_all_for_owner` lists page zero again after each pass. Whatever fails on the way, and whatever
others do short of registering new domains, it returns only when it has seen none, and the passes that it
allows itself are enough.
-/

namespace Spoo

namespace ErasureOutside

open Mongo Mongo.Collection CustomDomainRepository

/-- The ids of the domains of an owner. -/
def ownedIds (ownerId : ObjectId) (domains : DomainStore) : List ObjectId :=
  (domains.find fun doc => doc.ownerId = ownerId).map (·.id)

/-- Nobody registers a domain for the owner, or hands one over, while the erasure goes on. -/
def NoRegistrations (outside : ErasureOutside) (ownerId : ObjectId) : Prop :=
  ∀ call domains, ownedIds ownerId (outside.others call domains) ⊆ ownedIds ownerId domains

section

variable {outside : ErasureOutside} {ownerId : ObjectId}

theorem mem_ownedIds {domains : DomainStore} {id : ObjectId} :
    id ∈ ownedIds ownerId domains ↔ ∃ doc ∈ domains.docs, doc.ownerId = ownerId ∧ doc.id = id := by
  simp [ownedIds, Collection.find, and_assoc]

theorem nodup_ownedIds (ownerId : ObjectId) (domains : DomainStore) : (ownedIds ownerId domains).Nodup :=
  domains.nodup_id.sublist (List.filter_sublist.map _)

theorem length_ownedIds (ownerId : ObjectId) (domains : DomainStore) :
    (ownedIds ownerId domains).length = countByOwner domains ownerId := by
  simp [ownedIds, countByOwner]

/-! ## One call -/

/-- What a part of the erasure does to the state, however it ends: no domain of the owner is new, and no
page is listed. -/
structure Shrinks (ownerId : ObjectId) (s s' : ErasureState) : Prop where
  subset : ownedIds ownerId s'.domains ⊆ ownedIds ownerId s.domains
  passes : s'.passes = s.passes

theorem Shrinks.refl (s : ErasureState) : Shrinks ownerId s s := ⟨List.Subset.refl _, rfl⟩

theorem Shrinks.trans {s s' s'' : ErasureState} (h : Shrinks ownerId s s') (h' : Shrinks ownerId s' s'') :
    Shrinks ownerId s s'' :=
  ⟨fun _ hid => h.subset (h'.subset hid), h'.passes.trans h.passes⟩

theorem shrinks_arrive (hnone : outside.NoRegistrations ownerId) (s : ErasureState) :
    Shrinks ownerId s (outside.arrive s) :=
  ⟨hnone s.calls s.domains, rfl⟩

theorem shrinks_elsewhere {α : Type} (hnone : outside.NoRegistrations ownerId) (answer : Nat → Except String α)
    (s : ErasureState) : Shrinks ownerId s (outside.elsewhere answer s).2 := by
  rw [elsewhere]
  cases answer s.calls with
  | error name => exact shrinks_arrive hnone s
  | ok a => exact shrinks_arrive hnone s

theorem shrinks_onCollection {α : Type} (hnone : outside.NoRegistrations ownerId)
    {f : DomainStore → α × DomainStore}
    (hf : ∀ domains, ownedIds ownerId (f domains).2 ⊆ ownedIds ownerId domains) (s : ErasureState) :
    Shrinks ownerId s (outside.onCollection f s).2 := by
  have harrive := shrinks_arrive hnone s
  have heffect : Shrinks ownerId s { outside.arrive s with domains := (f (outside.arrive s).domains).2 } :=
    ⟨fun _ hid => harrive.subset (hf _ hid), harrive.passes⟩
  rw [onCollection]
  cases outside.collection s.calls with
  | none => exact heffect
  | some fault =>
    cases fault with
    | before name => exact harrive
    | after name => exact heffect

theorem ownedIds_deleteById_subset (domains : DomainStore) (id : ObjectId) :
    ownedIds ownerId (deleteById domains id).2 ⊆ ownedIds ownerId domains := by
  intro other hother
  obtain ⟨doc, hdoc, howner, rfl⟩ := mem_ownedIds.1 hother
  exact mem_ownedIds.2 ⟨doc, (List.mem_filter.1 hdoc).1, howner, rfl⟩

theorem not_mem_ownedIds_deleteById (domains : DomainStore) (id : ObjectId) :
    id ∉ ownedIds ownerId (deleteById domains id).2 := by
  intro hmem
  obtain ⟨doc, hdoc, -, hid⟩ := mem_ownedIds.1 hmem
  have hkept := (List.mem_filter.1 hdoc).2
  simp [hid] at hkept

/-- The exception of passes that have run out. -/
def notDrained : DomainErasureError := .app "domain erasure did not drain the owner's domains"

theorem elsewhere_ne_notDrained {α : Type} (answer : Nat → Except String α) (s : ErasureState) :
    (outside.elsewhere answer s).1 ≠ .error notDrained := by
  rw [elsewhere, notDrained]
  cases answer s.calls <;> simp

theorem onCollection_ne_notDrained {α : Type} (outside : ErasureOutside)
    (f : DomainStore → α × DomainStore) (s : ErasureState) : (outside.onCollection f s).1 ≠ .error notDrained := by
  rw [onCollection, notDrained]
  cases outside.collection s.calls with
  | none => simp
  | some fault => cases fault <;> simp

theorem revocation_ne_notDrained :
    DomainErasureError.app "domain erasure edge revocation failed" ≠ notDrained := by
  decide

theorem nothing_ne_notDrained :
    DomainErasureError.app "domain erasure delete removed nothing" ≠ notDrained := by
  decide

/-! ## A page -/

/-- What a part of the erasure has come to: of a part that has ended well, these ids are gone. -/
structure Erases (ownerId : ObjectId) {α : Type} (ids : List ObjectId) (s : ErasureState)
    (run : Except DomainErasureError α × ErasureState) : Prop where
  shrinks : Shrinks ownerId s run.2
  drained : run.1 ≠ .error notDrained
  erased : ∀ a, run.1 = .ok a → ∀ id ∈ ids, id ∉ ownedIds ownerId run.2.domains

/-- A part that only others have a hand in. -/
theorem erases_elsewhere {α : Type} (hnone : outside.NoRegistrations ownerId) (answer : Nat → Except String α)
    (s : ErasureState) : Erases ownerId [] s (outside.elsewhere answer s) :=
  ⟨shrinks_elsewhere hnone answer s, elsewhere_ne_notDrained answer s, by simp⟩

theorem Erases.error {α β : Type} {ids ids' : List ObjectId} {s s' : ErasureState} {e : DomainErasureError}
    (h : Erases ownerId ids s ((.error e : Except DomainErasureError α), s')) :
    Erases ownerId ids' s ((.error e : Except DomainErasureError β), s') :=
  ⟨h.shrinks, fun heq => h.drained (by rw [Except.error.inj heq]), by simp⟩

theorem erases_deletion (hnone : outside.NoRegistrations ownerId) (id : ObjectId) (s : ErasureState) :
    Erases ownerId [id] s (outside.onCollection (fun domains => deleteById domains id) s) := by
  refine ⟨shrinks_onCollection hnone (fun domains => ownedIds_deleteById_subset domains id) s,
    onCollection_ne_notDrained outside _ s, ?_⟩
  intro removed hok other hother
  obtain rfl := List.mem_singleton.1 hother
  revert hok
  rw [onCollection]
  cases outside.collection s.calls with
  | none => exact fun _ => not_mem_ownedIds_deleteById _ other
  | some fault => cases fault <;> simp

/-- A part that comes after another. -/
theorem Erases.after {α : Type} {ids : List ObjectId} {s s' : ErasureState}
    {run : Except DomainErasureError α × ErasureState} (h : Erases ownerId ids s' run)
    (hbefore : Shrinks ownerId s s') : Erases ownerId ids s run :=
  ⟨hbefore.trans h.shrinks, h.drained, h.erased⟩

theorem erases_eraseDomain (hnone : outside.NoRegistrations ownerId) (doc : CustomDomainDoc) (s : ErasureState) :
    Erases ownerId [doc.id] s (outside.eraseDomain doc s) := by
  rw [eraseDomain]
  have hcascade : Erases ownerId [] s
      (if outside.cascades then outside.elsewhere (unitAnswer outside.cascade) s else (.ok (), s)) := by
    split
    · exact erases_elsewhere hnone _ s
    · exact ⟨Shrinks.refl s, by simp, by simp⟩
  rcases hrun : (if outside.cascades then outside.elsewhere (unitAnswer outside.cascade) s else (.ok (), s)) with
    ⟨_ | _, s₁⟩
  all_goals rw [hrun] at hcascade
  · exact hcascade.error
  dsimp only
  have hedge := (erases_elsewhere hnone outside.edge s₁).after hcascade.shrinks
  rcases hrun : outside.elsewhere outside.edge s₁ with ⟨_ | announced, s₂⟩
  all_goals rw [hrun] at hedge
  · exact hedge.error
  cases announced with
  | false => exact ⟨hedge.shrinks, by simpa using revocation_ne_notDrained, by simp⟩
  | true =>
    dsimp only
    have hcache := (erases_elsewhere hnone (unitAnswer outside.cache) s₂).after hedge.shrinks
    rcases hrun : outside.elsewhere (unitAnswer outside.cache) s₂ with ⟨_ | _, s₃⟩
    all_goals rw [hrun] at hcache
    · exact hcache.error
    dsimp only
    have hdelete := (erases_deletion hnone doc.id s₃).after hcache.shrinks
    rcases hrun : outside.onCollection (fun domains => deleteById domains doc.id) s₃ with ⟨_ | removed, s₄⟩
    all_goals rw [hrun] at hdelete
    · exact hdelete.error
    cases removed with
    | false => exact ⟨hdelete.shrinks, by simpa using nothing_ne_notDrained, by simp⟩
    | true => exact ⟨hdelete.shrinks, by simp, fun _ _ => hdelete.erased true rfl⟩

/-- A page that has ended well is gone. -/
theorem erases_erasePage (hnone : outside.NoRegistrations ownerId) (page : List CustomDomainDoc) (removed : Nat)
    (s : ErasureState) : Erases ownerId (page.map (·.id)) s (outside.erasePage page removed s) := by
  induction page generalizing removed s with
  | nil => exact ⟨Shrinks.refl s, by simp [erasePage], by simp⟩
  | cons doc page ih =>
    have hdomain := erases_eraseDomain hnone doc s
    rw [erasePage]
    rcases hrun : outside.eraseDomain doc s with ⟨_ | _, s₁⟩
    all_goals rw [hrun] at hdomain
    · exact hdomain.error
    have hpage := ih (removed + 1) s₁
    refine ⟨hdomain.shrinks.trans hpage.shrinks, hpage.drained, ?_⟩
    intro total hok id hid
    rcases List.mem_cons.1 hid with rfl | hmem
    · intro hback
      exact hdomain.erased () rfl doc.id (by simp) (hpage.shrinks.subset hback)
    · exact hpage.erased total hok id hmem

/-! ## The passes -/

/-- The page that a pass lists: as many as there are, up to its size. -/
theorem length_listByOwner (domains : DomainStore) (limit : Nat) :
    (listByOwner domains ownerId 0 limit).length = min limit (ownedIds ownerId domains).length := by
  simp [listByOwner, ownedIds]

theorem ids_listByOwner (domains : DomainStore) (limit : Nat) :
    ((listByOwner domains ownerId 0 limit).map (·.id)).Nodup ∧
      (listByOwner domains ownerId 0 limit).map (·.id) ⊆ ownedIds ownerId domains := by
  have hperm : (((domains.find fun doc => doc.ownerId = ownerId).insertionSort
      fun a b => b.createdAt ≤ a.createdAt).map (·.id)).Perm (ownedIds ownerId domains) :=
    (List.perm_insertionSort _ _).map _
  have hsublist : ((listByOwner domains ownerId 0 limit).map (·.id)).Sublist
      (((domains.find fun doc => doc.ownerId = ownerId).insertionSort
        fun a b => b.createdAt ≤ a.createdAt).map (·.id)) :=
    ((List.take_sublist limit _).trans (List.drop_sublist 0 _)).map _
  exact ⟨(hperm.nodup_iff.2 (nodup_ownedIds ownerId domains)).sublist hsublist,
    fun id hid => hperm.subset (hsublist.subset hid)⟩

/-- A page that has ended well leaves the rest. -/
theorem length_of_erased {domains domains' : DomainStore} {limit : Nat}
    (hsubset : ownedIds ownerId domains' ⊆ ownedIds ownerId domains)
    (hpage : ∀ id ∈ (listByOwner domains ownerId 0 limit).map (·.id), id ∉ ownedIds ownerId domains') :
    (ownedIds ownerId domains').length + min limit (ownedIds ownerId domains).length ≤
      (ownedIds ownerId domains).length := by
  obtain ⟨hnodup, hlisted⟩ := @ids_listByOwner ownerId domains limit
  have happend : (ownedIds ownerId domains' ++ (listByOwner domains ownerId 0 limit).map (·.id)).Nodup := by
    refine (nodup_ownedIds ownerId domains').append hnodup ?_
    intro id hid hpaged
    exact hpage id hpaged hid
  have hle := (List.subperm_of_subset happend (List.append_subset.2 ⟨hsubset, hlisted⟩)).length_le
  rw [List.length_append, List.length_map, length_listByOwner] at hle
  exact hle

/-- What is read is what the collection holds when the call ends. -/
theorem eq_of_onCollection_read {α : Type} {f : DomainStore → α} {s s' : ErasureState} {a : α}
    (h : outside.onCollection (fun domains => (f domains, domains)) s = (.ok a, s')) :
    a = f s'.domains ∧ s' = outside.arrive s := by
  rw [onCollection] at h
  cases hfault : outside.collection s.calls with
  | none =>
    rw [hfault] at h
    obtain ⟨hread, rfl⟩ := Prod.mk.inj h
    exact ⟨(Except.ok.inj hread).symm, rfl⟩
  | some fault =>
    rw [hfault] at h
    cases fault <;> cases (Prod.mk.inj h).1

/-- What one pass comes to: a failure, the end with nothing left, or a page less and the passes behind it. -/
theorem erasePasses_succ (hnone : outside.NoRegistrations ownerId) (passes removed : Nat) (s : ErasureState) :
    (∃ e s', outside.erasePasses ownerId (passes + 1) removed s = (.error e, s') ∧ e ≠ notDrained ∧
        s'.passes = s.passes + 1) ∨
      (∃ s', outside.erasePasses ownerId (passes + 1) removed s = (.ok removed, s') ∧
        ownedIds ownerId s'.domains = [] ∧ s'.passes = s.passes + 1) ∨
      ∃ removed' s' listed, outside.erasePasses ownerId (passes + 1) removed s =
          outside.erasePasses ownerId passes removed' s' ∧ s'.passes = s.passes + 1 ∧ 0 < listed ∧
        listed ≤ (ownedIds ownerId s.domains).length ∧
          (ownedIds ownerId s'.domains).length + min erasePageSize listed ≤ listed := by
  have hlist := shrinks_onCollection hnone
    (fun domains => List.Subset.refl (ownedIds ownerId domains)) { s with passes := s.passes + 1 }
    (f := fun domains => (listByOwner domains ownerId 0 erasePageSize, domains))
  have hfails := onCollection_ne_notDrained outside
    (fun domains => (listByOwner domains ownerId 0 erasePageSize, domains)) { s with passes := s.passes + 1 }
  rw [erasePasses]
  rcases hrun : outside.onCollection (fun domains => (listByOwner domains ownerId 0 erasePageSize, domains))
    { s with passes := s.passes + 1 } with ⟨e | page, s₁⟩
  all_goals rw [hrun] at hlist hfails
  · exact .inl ⟨e, s₁, rfl, by simpa using hfails, hlist.passes⟩
  have hpage : page = listByOwner s₁.domains ownerId 0 erasePageSize := (eq_of_onCollection_read hrun).1
  have hlength := @length_listByOwner ownerId s₁.domains erasePageSize
  have hlisted := (List.subperm_of_subset (nodup_ownedIds ownerId s₁.domains) hlist.subset).length_le
  rw [← hpage] at hlength
  cases page with
  | nil =>
    refine .inr (.inl ⟨s₁, rfl, List.length_eq_zero_iff.1 ?_, hlist.passes⟩)
    rw [List.length_nil, erasePageSize] at hlength
    omega
  | cons doc page =>
    have herases := erases_erasePage hnone (doc :: page) removed s₁
    dsimp only
    rcases hpages : outside.erasePage (doc :: page) removed s₁ with ⟨e | removed', s₂⟩
    all_goals rw [hpages] at herases
    · exact .inl ⟨e, s₂, rfl, by simpa using herases.drained, herases.shrinks.passes.trans hlist.passes⟩
    · have herased := herases.erased removed' rfl
      rw [hpage] at herased
      refine .inr (.inr ⟨removed', s₂, (ownedIds ownerId s₁.domains).length, rfl,
        herases.shrinks.passes.trans hlist.passes, ?_, hlisted, length_of_erased herases.shrinks.subset herased⟩)
      rw [List.length_cons] at hlength
      omega

/-- The passes are enough for the domains that there are: all that can end them is a failure. -/
theorem erasePasses_ends (hnone : outside.NoRegistrations ownerId) (passes removed : Nat) (s : ErasureState)
    (henough : (ownedIds ownerId s.domains).length ≤ erasePageSize * passes) :
    (outside.erasePasses ownerId (passes + 1) removed s).1 ≠ .error notDrained ∧
      (∀ total, (outside.erasePasses ownerId (passes + 1) removed s).1 = .ok total →
        ownedIds ownerId (outside.erasePasses ownerId (passes + 1) removed s).2.domains = []) ∧
      (outside.erasePasses ownerId (passes + 1) removed s).2.passes ≤ s.passes + passes + 1 := by
  induction passes generalizing removed s with
  | zero =>
    rcases erasePasses_succ hnone 0 removed s with ⟨e, s', hrun, hne, hpasses⟩ | ⟨s', hrun, hnil, hpasses⟩ |
      ⟨removed', s', listed, -, -, hpos, hle, -⟩
    · rw [hrun]
      exact ⟨by simpa using hne, by simp, Nat.le_of_eq hpasses⟩
    · rw [hrun]
      exact ⟨by simp, fun _ _ => hnil, Nat.le_of_eq hpasses⟩
    · omega
  | succ passes ih =>
    rcases erasePasses_succ hnone (passes + 1) removed s with ⟨e, s', hrun, hne, hpasses⟩ |
      ⟨s', hrun, hnil, hpasses⟩ | ⟨removed', s', listed, hrun, hpasses, -, hle, hless⟩
    · rw [hrun]
      exact ⟨by simpa using hne, by simp, by simp only [hpasses]; omega⟩
    · rw [hrun]
      exact ⟨by simp, fun _ _ => hnil, by simp only [hpasses]; omega⟩
    · have hrest : (ownedIds ownerId s'.domains).length ≤ erasePageSize * passes := by
        have hsplit : erasePageSize * (passes + 1) = erasePageSize * passes + erasePageSize := Nat.mul_succ _ _
        omega
      obtain ⟨hdrained, hleft, hbound⟩ := ih removed' s' hrest
      rw [hrun]
      exact ⟨hdrained, hleft, by omega⟩

/-- Whatever others do short of registering domains for the owner, and whatever fails, the erasure lists no
more pages than it allows itself, ends with an exception of what failed and never for want of passes, or
returns when none of the owner's domains is left. -/
theorem deleteAllForOwner_ends (hnone : outside.NoRegistrations ownerId) (domains : DomainStore) :
    (∀ total, (outside.deleteAllForOwner ownerId { domains }).1 = .ok total →
        ∀ doc ∈ (outside.deleteAllForOwner ownerId { domains }).2.domains.docs, doc.ownerId ≠ ownerId) ∧
      (outside.deleteAllForOwner ownerId { domains }).1 ≠ .error notDrained ∧
        (outside.deleteAllForOwner ownerId { domains }).2.passes ≤
          countByOwner (outside.others 0 domains) ownerId / erasePageSize + 2 := by
  have hfails := onCollection_ne_notDrained outside
    (fun domains => (countByOwner domains ownerId, domains)) { domains }
  have hpasses := (shrinks_onCollection hnone (fun domains => List.Subset.refl (ownedIds ownerId domains))
    { domains } (f := fun domains => (countByOwner domains ownerId, domains))).passes
  rw [deleteAllForOwner]
  rcases hrun : outside.onCollection (fun domains => (countByOwner domains ownerId, domains)) { domains } with
    ⟨e | total, s⟩
  all_goals rw [hrun] at hfails hpasses
  · exact ⟨by simp, by simpa using hfails, Nat.le_trans (Nat.le_of_eq hpasses) (Nat.zero_le _)⟩
  obtain ⟨rfl, rfl⟩ := eq_of_onCollection_read hrun
  have henough : (ownedIds ownerId (outside.others 0 domains)).length ≤
      erasePageSize * (countByOwner (outside.others 0 domains) ownerId / erasePageSize + 1) := by
    rw [length_ownedIds, erasePageSize]
    omega
  obtain ⟨hdrained, hleft, hbound⟩ := erasePasses_ends hnone _ 0 (outside.arrive { domains }) henough
  refine ⟨?_, hdrained, by simpa [arrive, Nat.add_assoc] using hbound⟩
  intro total hok doc hdoc howner
  have hmem : doc.id ∈ ownedIds ownerId (outside.erasePasses ownerId
      (countByOwner (outside.others 0 domains) ownerId / erasePageSize + 1 + 1) 0
      (outside.arrive { domains })).2.domains := mem_ownedIds.2 ⟨doc, hdoc, howner, rfl⟩
  rw [hleft total hok] at hmem
  cases hmem

end

/-- An erasure whose only trouble is with the edge. -/
def edgeAnswers (edge : Nat → Except String Bool) : ErasureOutside where
  others _ domains := domains
  edge

theorem noRegistrations_edgeAnswers (edge : Nat → Except String Bool) :
    (edgeAnswers edge).NoRegistrations 7 := fun _ _ => List.Subset.refl _

/-- A verified domain. -/
def domainOf (ownerId id : ObjectId) (fqdn : String) : CustomDomainDoc where
  id
  fqdn
  ownerId
  verificationMethod := .cname
  createdAt := 0

/-- Domains of the owner, and one of somebody else. -/
def fourDomains : DomainStore where
  docs := [domainOf 7 1 "a.example", domainOf 7 2 "b.example", domainOf 8 3 "c.example",
    domainOf 7 4 "d.example"]
  nodup_id := by decide
  nodup_key := by decide

/-- The edge is down when the second domain is revoked. -/
def edgeDown (call : Nat) : Except String Bool := if call = 7 then .error "EdgeDown" else .ok true

/-- The erasure ends with what failed, and another one, that nothing disturbs, leaves no domain. -/
theorem deleteAllForOwner_ends_domains :
    let failed := (edgeAnswers edgeDown).deleteAllForOwner 7 { domains := fourDomains }
    let again := (edgeAnswers fun _ => .ok true).deleteAllForOwner 7 { domains := failed.2.domains }
    failed.1 = .error (.raised "EdgeDown") ∧ failed.1 ≠ .error notDrained ∧ failed.2.passes ≤ 2 ∧
      again.1 = .ok 2 ∧ ∀ doc ∈ again.2.domains.docs, doc.ownerId ≠ 7 := by
  intro failed again
  have hfailed := deleteAllForOwner_ends (noRegistrations_edgeAnswers edgeDown) fourDomains
  have hagain : again.1 = .ok 2 := by decide +kernel
  exact ⟨by decide +kernel, hfailed.2.1, hfailed.2.2, hagain,
    (deleteAllForOwner_ends (noRegistrations_edgeAnswers _) failed.2.domains).1 2 hagain⟩

end ErasureOutside

end Spoo
