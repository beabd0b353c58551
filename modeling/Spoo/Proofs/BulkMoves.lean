import Spoo.Proofs.BulkParity

/-!
# Moves in bulk and one by one

The items of a bulk move interact: an alias that one of them takes on the target is taken for the next.
Each item does what an update of its link does at that point.
-/

namespace Spoo

open Fallible Interleave Mongo Mongo.Collection Itemwise

namespace UrlService

/-- A request for a domain alone. -/
def domainRequest (domain : Option String) : UpdateUrlRequest := { domain := some domain }

/-- What an update of the domain writes. -/
theorem buildOps_domain {env : UpdateEnv} {domain clientIp : Option String} {now : Int}
    (existing : UrlV2Doc) :
    buildOps env now (domainRequest domain) clientIp existing =
      if targetDomain env domain = existing.domain then .ok {}
      else if targetDomain env domain = env.systemDefaultDomain ∧
          env.isReservedAlias existing.linkAlias then
        .error ⟨.validation, "Alias '" ++ existing.linkAlias ++ "' is reserved on " ++
          targetDomain env domain, some "domain"⟩
      else if !env.aliasAvailable existing.linkAlias (targetDomain env domain) then
        .error ⟨.conflict, "Alias '" ++ existing.linkAlias ++ "' is already in use on " ++
          targetDomain env domain, none⟩
      else .ok { domain := some (targetDomain env domain) } := by
  have hothers : fieldHandlers.foldlM (fun ops handler =>
      handler env now (domainRequest domain) existing ops) ({} : UrlOps) =
        handleDomain env now (domainRequest domain) existing {} >>= fun ops => .ok ops := rfl
  have hfinish (target : Option String) :
      ((({ domain := target } : UrlOps).restamp env.lib existing).stampMetaIp clientIp).autoReactivate
        existing now = { domain := target } := by
    simp [UrlOps.restamp, UrlOps.changesDestination, UrlOps.stampMetaIp, UrlOps.autoReactivate,
      UrlOps.improvesExpiry]
  unfold buildOps
  rw [hothers]
  by_cases hsame : targetDomain env domain = existing.domain
  · simp [handleDomain, domainRequest, hsame, bind, Except.bind, hfinish none]
  · rw [if_neg hsame]
    by_cases hreserved : targetDomain env domain = env.systemDefaultDomain ∧
        env.isReservedAlias existing.linkAlias = true
    · rw [if_pos hreserved]
      simp only [handleDomain, domainRequest, Option.getD_none, if_neg hsame, if_pos hreserved]
      rfl
    · rw [if_neg hreserved]
      by_cases hfree : env.aliasAvailable existing.linkAlias (targetDomain env domain) = true
      · simp [handleDomain, domainRequest, hsame, hreserved, hfree, bind, Except.bind, hfinish]
      · simp [handleDomain, domainRequest, hsame, hreserved, hfree, bind, Except.bind]

/-- An update of the status asks for no alias. -/
theorem update_statusRequest {env env' : UpdateEnv} {edge : EdgeConfig} {i ownerId : ObjectId}
    {status : OwnerStatus} {clientIp : Option String} {now : Int} {s : Stores} :
    update env edge i (statusRequest status) ownerId clientIp now s =
      update env' edge i (statusRequest status) ownerId clientIp now s := by
  simp only [update, updateCalls, runActions_cons, readForUpdate, buildOps_status]

end UrlService

namespace BulkUrlService

section

variable {env : UpdateEnv} {edge : EdgeConfig} {ownerId i : ObjectId} {domain clientIp : Option String}
  {now : Int} {target : String} {urls : UrlStore} {row : UrlRow}

/-- The write of an item is the write of the update, and goes through where the key is free. -/
theorem exists_move (hrow : urls.lookup i = some row) (howner : row.ownerId = ownerId)
    (hfree : ¬HasKey urls target row.linkAlias) :
    ∃ after, UrlRepository.update urls i (moveOps target now).toUpdate = some after ∧
      UrlRepository.updateByIdsAndOwner urls [i] ownerId (moveOps target now).toUpdate = some after := by
  obtain ⟨hmem, hfound⟩ := lookup_eq_some_iff.1 hrow
  have hid : row.id = i := hfound
  have hself (d : UrlRow) (hd : d ∈ urls.docs) (hdi : d.id = i) : d = row :=
    List.inj_on_of_nodup_map urls.nodup_id hd hmem (hdi.trans hid.symm)
  have hselects : ∀ d ∈ urls.docs, (UrlRepository.idFilter i).Matches d = true ↔ d = row := by
    intro d hd
    constructor
    · intro hmatches
      exact hself d hd (by simpa using hmatches)
    · rintro rfl
      simpa using hid
  have hsome := (isSome_updateManyUnique_iff (u := (moveOps target now).toUpdate) hmem hselects).2
    fun d hd _ hkey => hfree ⟨d, hd, (Prod.mk.inj hkey).1, (Prod.mk.inj hkey).2⟩
  obtain ⟨after, hafter⟩ := Option.isSome_iff_exists.1 hsome
  refine ⟨after, hafter, ?_⟩
  unfold UrlRepository.updateByIdsAndOwner
  rw [← hafter]
  refine updateManyUnique_congr fun d hd => ?_
  rw [Bool.eq_iff_iff, hselects d hd, UrlRepository.matches_idsAndOwnerFilter, Bool.and_eq_true,
    decide_eq_true_iff, decide_eq_true_iff, List.mem_singleton]
  constructor
  · exact fun h => hself d hd h.1
  · rintro rfl
    exact ⟨hid, howner⟩

/-- An item of a move does to its link what an update does, and answers alike. -/
theorem moveItem_update {m : MoveState} {t : Stores} (htarget : targetDomain env domain = target)
    (hurls : t.urls = m.urls) (hrow : m.urls.lookup i = some row) (hlive : isLive ownerId row = true)
    (hclaimed : row.linkAlias ∈ m.claimed → env.aliasAvailable row.linkAlias target = false)
    (hfree : env.aliasAvailable row.linkAlias target = true → ¬HasKey m.urls target row.linkAlias) :
    (UrlService.update env edge i (UrlService.domainRequest domain) ownerId clientIp now t).2.urls =
        (moveItem env target ownerId now m (.fromMongo row)).urls ∧
      ∃ answer, (moveItem env target ownerId now m (.fromMongo row)).batch =
          { m.batch with rows := m.batch.rows.assign i answer } ∧
        ItemVerdict.ofRow answer = ItemVerdict.ofOutcome (UrlService.update env edge i
          (UrlService.domainRequest domain) ownerId clientIp now t).1 := by
  have hload : loadOwned (UrlRepository.findById t.urls i) ownerId "Cannot modify a blocked URL" =
      .ok (.fromMongo row) := by
    rw [UrlRepository.findById_eq, hurls, hrow]
    exact UrlService.loadOwned_of_isLive hlive
  have hbuild := @UrlService.buildOps_domain env domain clientIp now (.fromMongo row)
  have hid : (UrlV2Doc.fromMongo row).id = i := (lookup_eq_some_iff.1 hrow).2
  rw [htarget] at hbuild
  unfold moveItem
  dsimp only
  by_cases hsame : target = (UrlV2Doc.fromMongo row).domain
  · rw [if_pos hsame] at hbuild
    rw [if_pos hsame.symm, UrlService.update_unchanged hload hbuild]
    exact ⟨hurls, _, by rw [BulkBatch.ok, hid], rfl⟩
  rw [if_neg hsame] at hbuild
  rw [if_neg (Ne.symm hsame)]
  by_cases hreserved : target = env.systemDefaultDomain ∧
      env.isReservedAlias (UrlV2Doc.fromMongo row).linkAlias = true
  · rw [if_pos hreserved] at hbuild
    rw [if_pos hreserved, UrlService.update_rejected hload hbuild]
    exact ⟨hurls, _, by rw [BulkBatch.reject, hid], rfl⟩
  rw [if_neg hreserved] at hbuild
  rw [if_neg hreserved]
  have halias : (UrlV2Doc.fromMongo row).linkAlias = row.linkAlias := rfl
  rw [halias] at hbuild ⊢
  by_cases havailable : env.aliasAvailable row.linkAlias target = true
  · rw [if_neg (by simp [havailable])] at hbuild
    have hunclaimed : row.linkAlias ∉ m.claimed := by
      intro hmem
      rw [hclaimed hmem] at havailable
      cases havailable
    rw [if_neg (by simp [havailable, hunclaimed])]
    have howner : row.ownerId = ownerId := by
      simp only [isLive, Bool.and_eq_true, decide_eq_true_eq] at hlive
      exact hlive.1
    obtain ⟨after, hsingle, hgrouped⟩ := @exists_move ownerId i now target _ row hrow howner (hfree havailable)
    have hchanges : ({ domain := some target } : UrlOps) ≠ {} := by simp
    have hwritten : (UrlService.update env edge i (UrlService.domainRequest domain) ownerId clientIp now
        t).1 = _ ∧ _ := UrlService.update_written hload hbuild hchanges (hurls ▸ hsingle)
    have hmoved : UrlRepository.updateByIdsAndOwner m.urls [(UrlV2Doc.fromMongo row).id] ownerId
        ({ domain := some target, updatedAt := some now } : UrlOps).toUpdate = some after := by
      rw [hid]
      exact hgrouped
    rw [hwritten.1, hwritten.2, hmoved]
    exact ⟨rfl, _, by rw [BulkBatch.ok, hid], rfl⟩
  · rw [if_pos (by simp [havailable])] at hbuild
    rw [if_pos (by simp [havailable]), UrlService.update_rejected hload hbuild]
    exact ⟨hurls, _, by rw [BulkBatch.reject, hid], rfl⟩

end

/-! ## A link that is refused -/

section

variable {edge : EdgeConfig} {ownerId i : ObjectId} {urls : UrlStore} {message : String}

/-- A link that `_load` refuses is refused by every method for one link. -/
theorem refused_of_liveDoc (h : liveDoc urls ownerId i = none) :
    ∃ e, loadOwned (UrlRepository.findById urls i) ownerId message = .error e ∧
      ∃ answer, loadRow message i (ownedDoc urls ownerId i) = some answer ∧
        Mirrors urls ownerId i (ItemVerdict.ofRow answer) (.refused e.kind.errorCode e.message) := by
  have hrow : loadRow message i (ownedDoc urls ownerId i) =
      some (itemRow BulkBatch.okRow message i (ownedDoc urls ownerId i)) := by
    rw [liveDoc_eq] at h
    cases hfound : ownedDoc urls ownerId i with
    | none => rfl
    | some doc =>
      have hblocked : doc.status = .blocked := by simpa [hfound, Option.filter_some] using h
      simp [loadRow, itemRow, hblocked]
  have hrefused : ∃ e, loadOwned (UrlRepository.findById urls i) ownerId message = .error e := by
    rw [UrlRepository.findById_eq]
    cases hfound : urls.lookup i with
    | none => exact ⟨_, rfl⟩
    | some row =>
      refine UrlService.loadOwned_of_not_isLive ?_
      by_contra hlive
      rw [Bool.not_eq_false] at hlive
      have hdoc := liveDoc_eq_some_iff.2 ⟨row, hfound, hlive, rfl⟩
      cases h.symm.trans hdoc
  obtain ⟨e, he⟩ := hrefused
  refine ⟨e, he, _, hrow, ?_⟩
  have hmirrors := @mirrors_itemRow urls ownerId i message
  rw [UrlService.ownedVerdict, ← UrlRepository.findById_eq, he] at hmirrors
  exact hmirrors

end

/-! ## Runs -/

section

variable {cfg : AliasConfig} {env : UpdateEnv} {edge : EdgeConfig} {ids : List ObjectId}
  {ownerId i : ObjectId} {domain clientIp : Option String} {now : Int} {target : String} {s t : Stores}
  {todo : List ObjectId} {m : MoveState}

/-- The update that moves one link, on the stores as they are. -/
def moveOne (cfg : AliasConfig) (env : UpdateEnv) (edge : EdgeConfig) (domain : Option String)
    (ownerId : ObjectId) (clientIp : Option String) (now : Int) (i : ObjectId) (t : Stores) :
    Option (Except Raised UrlV2Doc) × Stores :=
  UrlService.update (env.onStores cfg t) edge i (UrlService.domainRequest domain) ownerId clientIp now t

/-- One id of a bulk move: its link is moved if it can be. -/
def moveId (cfg : AliasConfig) (env : UpdateEnv) (s : Stores) (target : String) (ownerId : ObjectId)
    (now : Int) (m : MoveState) (i : ObjectId) : MoveState :=
  match liveDoc s.urls ownerId i with
  | some doc => moveItem (env.onStores cfg { s with urls := m.urls }) target ownerId now m doc
  | none => m

/-- A bulk move and the updates in turn, with the ids `todo` to come. -/
structure InStep (s : Stores) (target : String) (todo : List ObjectId) (m : MoveState) (t : Stores) :
    Prop where
  urls : t.urls = m.urls
  legacy : t.legacy = s.legacy
  emoji : t.emoji = s.emoji
  untouched : ∀ j ∈ todo, m.urls.lookup j = s.urls.lookup j
  claimed : ∀ linkAlias ∈ m.claimed, HasKey m.urls target linkAlias

/-- Both ask the same stores for an alias. -/
theorem InStep.onStores (h : InStep s target todo m t) :
    env.onStores cfg { s with urls := m.urls } = env.onStores cfg t := by
  simp only [UpdateEnv.onStores, UrlService.checkAliasAvailable, h.urls, h.legacy, h.emoji]

/-- An item leaves the other links alone, and what it claims is taken. -/
theorem lookup_moveItem {j : ObjectId} {row : UrlRow} (hrow : m.urls.lookup i = some row)
    (howner : row.ownerId = ownerId) (hclaimed : ∀ linkAlias ∈ m.claimed, HasKey m.urls target linkAlias) :
    (j ≠ i → (moveItem env target ownerId now m (.fromMongo row)).urls.lookup j = m.urls.lookup j) ∧
      ∀ linkAlias ∈ (moveItem env target ownerId now m (.fromMongo row)).claimed,
        HasKey (moveItem env target ownerId now m (.fromMongo row)).urls target linkAlias := by
  rcases moveItem_cases m (.fromMongo row) with ⟨hurls, hsame, -⟩ | ⟨-, hwrite, hmore, -⟩
  · rw [hurls, hsame]
    exact ⟨fun _ => rfl, hclaimed⟩
  generalize moveItem env target ownerId now m (.fromMongo row) = m' at *
  obtain ⟨hmem, hfound⟩ := lookup_eq_some_iff.1 hrow
  have hid : (UrlV2Doc.fromMongo row).id = i := hfound
  rw [hid] at hwrite
  constructor
  · intro hj
    rw [lookup_updateManyUnique hwrite]
    cases hother : m.urls.lookup j with
    | none => rfl
    | some d =>
      have hne : d.id ≠ i := by
        rw [← (lookup_eq_some_iff.1 hother).2] at hj
        exact hj
      rw [Option.map_some, applyWhere_of_not_matches _ (by simp [hne])]
  · -- A document at the target stays there, whether the write selects it or not.
    have hstays (d : UrlRow) (hd : d ∈ m.urls.docs) (hplace : d.id = i ∧ d.ownerId = ownerId ∨
        d.domain = target) : HasKey m'.urls target d.linkAlias := by
      refine ⟨_, docs_updateManyUnique hwrite ▸ List.mem_map_of_mem hd, ?_⟩
      unfold applyWhere
      split
      · exact ⟨rfl, rfl⟩
      · rename_i hmatches
        refine ⟨hplace.resolve_left fun hboth => hmatches ?_, rfl⟩
        simp [hboth.1, hboth.2]
    intro linkAlias hmember
    rw [hmore, List.mem_cons] at hmember
    rcases hmember with rfl | hmember
    · exact hstays row hmem (.inl ⟨hfound, howner⟩)
    · obtain ⟨d, hd, hdomain, rfl⟩ := hclaimed linkAlias hmember
      exact hstays d hd (.inr hdomain)

/-- One id: the bulk move and the update stay in step, and answer alike. -/
theorem InStep.next (h : InStep s target (i :: todo) m t) (hi : i ∉ todo)
    (htarget : UrlService.scopeOf cfg.toDispatchConfig domain = target) :
    InStep s target todo (moveId cfg env s target ownerId now m i)
        (moveOne cfg env edge domain ownerId clientIp now i t).2 ∧
      ∃ rows, (moveId cfg env s target ownerId now m i).batch = { m.batch with rows } ∧
        (∀ j, j ≠ i → rows.get? j = m.batch.rows.get? j) ∧
        (m.batch.rows.get? i = loadRow "Cannot modify a blocked URL" i (ownedDoc s.urls ownerId i) →
          ∃ answer, rows.get? i = some answer ∧
            Mirrors s.urls ownerId i (ItemVerdict.ofRow answer) (ItemVerdict.ofOutcome
              (moveOne cfg env edge domain ownerId clientIp now i t).1)) := by
  have hsame : m.urls.lookup i = s.urls.lookup i := h.untouched i List.mem_cons_self
  have hlegacy : (moveOne cfg env edge domain ownerId clientIp now i t).2.legacy = t.legacy ∧
      (moveOne cfg env edge domain ownerId clientIp now i t).2.emoji = t.emoji :=
    legacy_update
  have huntouched : ∀ j ∈ todo, m.urls.lookup j = s.urls.lookup j :=
    fun j hj => h.untouched j (List.mem_cons_of_mem _ hj)
  cases hdoc : liveDoc s.urls ownerId i with
  | none =>
    obtain ⟨e, hload, answer, hanswer, hverdict⟩ := @refused_of_liveDoc ownerId i s.urls
      "Cannot modify a blocked URL" hdoc
    have hmove : moveId cfg env s target ownerId now m i = m := by rw [moveId, hdoc]
    have hone : moveOne cfg env edge domain ownerId clientIp now i t = (some (.error (.app e)), t) := by
      refine UrlService.update_refused ?_
      rw [UrlRepository.findById_eq, h.urls, hsame, ← UrlRepository.findById_eq]
      exact hload
    rw [hmove, hone]
    refine ⟨⟨h.urls, h.legacy, h.emoji, huntouched, h.claimed⟩, m.batch.rows, rfl, fun _ _ => rfl, ?_⟩
    exact fun hrow => ⟨answer, hrow.trans hanswer, hverdict⟩
  | some doc =>
    obtain ⟨row, hrow, hlive, rfl⟩ := liveDoc_eq_some_iff.1 hdoc
    have hmove : moveId cfg env s target ownerId now m i =
        moveItem (env.onStores cfg t) target ownerId now m (.fromMongo row) := by
      rw [moveId, hdoc, ← h.onStores]
    have hcurrent : m.urls.lookup i = some row := hsame.trans hrow
    have howner : row.ownerId = ownerId := by
      simp only [isLive, Bool.and_eq_true, decide_eq_true_eq] at hlive
      exact hlive.1
    have hscope : UrlService.scopeOf cfg.toDispatchConfig (some target) = target := by
      rw [← htarget, UrlService.scopeOf_scopeOf]
    have hfree (havailable : (env.onStores cfg t).aliasAvailable row.linkAlias target = true) :
        ¬HasKey m.urls target row.linkAlias := by
      have hnot := not_hasKey_of_available havailable
      rwa [hscope, h.urls] at hnot
    have hclaimed (hmem : row.linkAlias ∈ m.claimed) :
        (env.onStores cfg t).aliasAvailable row.linkAlias target = false := by
      by_contra havailable
      exact hfree (by simpa using havailable) (h.claimed _ hmem)
    have htarget' : targetDomain (env.onStores cfg t) domain = target := by
      rw [targetDomain_onStores, htarget]
    have hagree : (moveOne cfg env edge domain ownerId clientIp now i t).2.urls = _ ∧ _ :=
      moveItem_update htarget' h.urls hcurrent hlive hclaimed hfree
    obtain ⟨hurls, answer, hbatch, hverdict⟩ := hagree
    rw [hmove]
    refine ⟨⟨hurls, hlegacy.1.trans h.legacy, hlegacy.2.trans h.emoji, fun j hj => ?_,
      (lookup_moveItem (j := i) hcurrent howner h.claimed).2⟩, _, hbatch, fun j hj => ?_, fun _ => ?_⟩
    · have hne : j ≠ i := fun heq => hi (heq ▸ hj)
      exact ((lookup_moveItem hcurrent howner h.claimed).1 hne).trans (huntouched j hj)
    · rw [PyDict.get?_assign, if_neg (Ne.symm hj)]
    · refine ⟨answer, by rw [PyDict.get?_assign, if_pos rfl], ?_⟩
      have hmine : ¬IsForeign s.urls ownerId i := by
        rintro ⟨other, hother, hforeign⟩
        cases hrow.symm.trans hother
        exact hforeign howner
      rw [Mirrors, if_neg hmine]
      exact hverdict

/-- The ids of a bulk move, and the updates for them in turn. -/
theorem InStep.run (htarget : UrlService.scopeOf cfg.toDispatchConfig domain = target)
    (hids : todo.Nodup) (h : InStep s target todo m t)
    (hrows : ∀ i ∈ todo, m.batch.rows.get? i =
      loadRow "Cannot modify a blocked URL" i (ownedDoc s.urls ownerId i)) :
    (inTurn (moveOne cfg env edge domain ownerId clientIp now) todo t).2.urls =
        (todo.foldl (moveId cfg env s target ownerId now) m).urls ∧
      ∃ rows, (todo.foldl (moveId cfg env s target ownerId now) m).batch = { m.batch with rows } ∧
        (∀ j, j ∉ todo → rows.get? j = m.batch.rows.get? j) ∧
        ∃ verdict : ObjectId → ItemVerdict,
          (inTurn (moveOne cfg env edge domain ownerId clientIp now) todo t).1.map
            ItemVerdict.ofOutcome = todo.map verdict ∧
          ∀ i ∈ todo, ∃ answer, rows.get? i = some answer ∧
            Mirrors s.urls ownerId i (ItemVerdict.ofRow answer) (verdict i) := by
  induction todo generalizing m t with
  | nil => exact ⟨h.urls, m.batch.rows, rfl, fun _ _ => rfl, fun _ => .done, rfl, by simp⟩
  | cons i todo ih =>
    rw [List.nodup_cons] at hids
    have hnext : InStep s target todo (moveId cfg env s target ownerId now m i)
        (moveOne cfg env edge domain ownerId clientIp now i t).2 ∧ _ := h.next hids.1 htarget
    obtain ⟨hstep, rows, hbatch, hothers, hfirst⟩ := hnext
    obtain ⟨answer, hanswer, hverdict⟩ := hfirst (hrows i List.mem_cons_self)
    have hne (j : ObjectId) (hj : j ∈ todo) : j ≠ i := fun heq => hids.1 (heq ▸ hj)
    obtain ⟨hurls, rows', hbatch', hothers', verdict, hsingles, hlater⟩ := ih hids.2 hstep
      fun j hj => by
        rw [hbatch]
        exact (hothers j (hne j hj)).trans (hrows j (List.mem_cons_of_mem _ hj))
    rw [hbatch] at hbatch' hothers'
    refine ⟨hurls, rows', hbatch', fun j hj => ?_, Function.update verdict i
      (ItemVerdict.ofOutcome (moveOne cfg env edge domain ownerId clientIp now i t).1), ?_, ?_⟩
    · rw [List.mem_cons, not_or] at hj
      exact (hothers' j hj.2).trans (hothers j hj.1)
    · rw [inTurn, List.map_cons, List.map_cons, Function.update_self, hsingles]
      refine congrArg (List.cons _) (List.map_congr_left fun j hj => ?_)
      rw [Function.update_of_ne (hne j hj)]
    · intro j hj
      rcases List.mem_cons.1 hj with rfl | hj
      · rw [Function.update_self]
        exact ⟨answer, (hothers' j hids.1).trans hanswer, hverdict⟩
      · rw [Function.update_of_ne (hne j hj)]
        exact hlater j hj

/-- A batch whose ids all have rows is reported with them. -/
theorem ofBulk_report {batch : BulkBatch} {P : ObjectId → ItemVerdict → Prop}
    (horder : batch.order = ids.eraseDups)
    (h : ∀ i ∈ ids, ∃ answer, batch.rows.get? i = some answer ∧ P i (ItemVerdict.ofRow answer)) :
    ∃ answer : ObjectId → ItemVerdict,
      ItemVerdict.ofBulk ids (.ok batch.report) = ids.eraseDups.map answer ∧
      ∀ i ∈ ids, P i (answer i) := by
  obtain ⟨row, hreport, hall⟩ :=
    BulkBatch.report_of_rows (P := fun i answer => P i (ItemVerdict.ofRow answer)) horder h
  refine ⟨fun i => ItemVerdict.ofRow (row i), ?_, hall⟩
  rw [hreport, ItemVerdict.ofBulk, BulkBatch.reportOf, List.map_map]
  rfl

/-- A bulk move agrees with the updates in turn. -/
theorem bulkMoveDomain_agreesInTurn : AgreesInTurn ids ownerId s
    (.ok (bulkMoveDomain (env.onStores cfg s) edge ids domain ownerId now s).1.report,
      (bulkMoveDomain (env.onStores cfg s) edge ids domain ownerId now s).2)
    (moveOne cfg env edge domain ownerId clientIp now) := by
  let target := UrlService.scopeOf cfg.toDispatchConfig domain
  let batch := load s.urls ids ownerId "Cannot modify a blocked URL"
  have hfold : batch.pending.foldl (moveItem (env.onStores cfg s) target ownerId now)
      { batch, urls := s.urls } =
        ids.eraseDups.foldl (moveId cfg env s target ownerId now) { batch, urls := s.urls } := by
    have hlive := @foldl_moveItem_onStores cfg s env ids domain ownerId now "Cannot modify a blocked URL"
    rw [targetDomain_onStores] at hlive
    refine hlive.trans ?_
    rw [pending_load_eq, List.foldl_filterMap]
    refine congrArg (fun f => List.foldl f _ _) ?_
    funext m i
    unfold moveId
    cases liveDoc s.urls ownerId i <;> rfl
  have hstart : InStep s target ids.eraseDups { batch, urls := s.urls } s :=
    ⟨rfl, rfl, rfl, fun _ _ => rfl, by simp⟩
  have hrun : (inTurn (moveOne cfg env edge domain ownerId clientIp now) ids.eraseDups s).2.urls = _ ∧
      _ := hstart.run rfl (nodup_eraseDups ids) fun i hi => get?_load (List.mem_eraseDups.1 hi)
  obtain ⟨hurls, rows, hbatch, -, verdict, hsingles, hrows⟩ := hrun
  have hbulk : (bulkMoveDomain (env.onStores cfg s) edge ids domain ownerId now s).1 =
        { batch with rows } ∧
      (bulkMoveDomain (env.onStores cfg s) edge ids domain ownerId now s).2.urls =
        (inTurn (moveOne cfg env edge domain ownerId clientIp now) ids.eraseDups s).2.urls := by
    rw [hurls, ← hbatch, ← hfold]
    unfold bulkMoveDomain
    rw [targetDomain_onStores]
    exact ⟨rfl, rfl⟩
  have horder : ({ batch with rows } : BulkBatch).order = ids.eraseDups := load_spec.1
  obtain ⟨answer, hanswers, hmirrors⟩ := ofBulk_report (P := fun i answer =>
    Mirrors s.urls ownerId i answer (verdict i)) horder fun i hi => hrows i (List.mem_eraseDups.2 hi)
  rw [← hbulk.1] at hanswers
  exact ⟨congrArg Collection.docs hbulk.2, answer, verdict, hanswers, hsingles, hmirrors⟩

/-- As many turns as there are documents come to the items, one after the other. -/
theorem runActions_moveCalls {turns : Nat} {v : MoveVars} {s : Stores} (hturns : v.pending.length ≤ turns) :
    runActions (moveCalls env edge target ownerId now turns) v s =
      let m := v.pending.foldl (moveItem env target ownerId now) ⟨v.batch, v.moved, v.claimed, s.urls⟩
      runActions (moveCalls env edge target ownerId now 0) ⟨m.batch, m.moved, m.claimed, []⟩
        { s with urls := m.urls } := by
  obtain ⟨batch, moved, claimed, pending⟩ := v
  induction turns generalizing batch moved claimed pending s with
  | zero =>
    obtain rfl := List.length_eq_zero_iff.1 (Nat.le_zero.1 hturns)
    rfl
  | succ turns ih =>
    cases pending with
    | nil => exact ih _ _ _ [] (Nat.zero_le turns)
    | cons doc pending => exact ih _ _ _ pending (Nat.le_of_succ_le_succ hturns)

/-- Run alone, the calls are `bulk_move_domain`. -/
theorem runActions_bulkMoveDomainCalls (ids : List ObjectId) (s : Stores) :
    ((runActions (bulkMoveDomainCalls env edge ids domain ownerId now) {} s).1.batch,
      (runActions (bulkMoveDomainCalls env edge ids domain ownerId now) {} s).2) =
      bulkMoveDomain env edge ids domain ownerId now s := by
  have hturns : (load s.urls ids ownerId "Cannot modify a blocked URL").pending.length ≤ ids.length := by
    rw [pending_load_eq]
    exact (List.length_filterMap_le _ _).trans
      (List.subperm_of_subset (nodup_eraseDups ids) fun _ => List.mem_eraseDups.1).length_le
  rw [bulkMoveDomainCalls, runActions_cons, runActions_moveCalls hturns]
  rfl

end

end BulkUrlService

/-! ## The verbs -/

/-- A bulk call with a counterpart for one link. -/
inductive BulkVerb where
  | delete
  | setStatus (status : OwnerStatus)
  | moveDomain (domain : Option String)

namespace BulkVerb

/-- The bulk call. -/
def bulk (cfg : AliasConfig) (env : UpdateEnv) (edge : EdgeConfig) (ids : List ObjectId)
    (ownerId : ObjectId) (now : Int) (s : Stores) :
    BulkVerb → Except AppError (Option BulkUrlOperationResponse) × Stores
  | .delete => BulkUrlService.bulkDelete edge ids ownerId now s
  | .setStatus status => BulkUrlService.bulkSetStatus edge ids status ownerId now s
  | .moveDomain domain =>
    let moved := BulkUrlService.bulkMoveDomain (env.onStores cfg s) edge ids domain ownerId now s
    (.ok moved.1.report, moved.2)

/-- The call for one link. -/
def single (cfg : AliasConfig) (env : UpdateEnv) (edge : EdgeConfig) (ownerId : ObjectId)
    (clientIp : Option String) (now : Int) (i : ObjectId) (s : Stores) :
    BulkVerb → Option (Except Raised UrlV2Doc) × Stores
  | .delete => UrlService.delete edge i ownerId s
  | .setStatus status =>
    UrlService.update (env.onStores cfg s) edge i (UrlService.statusRequest status) ownerId clientIp now s
  | .moveDomain domain =>
    UrlService.update (env.onStores cfg s) edge i (UrlService.domainRequest domain) ownerId clientIp now s

end BulkVerb

/-- Each bulk call leaves the links as the calls for its distinct ids do in turn, and answers for each as
they do. A link of someone else is reported as missing where the call for one link denies access. -/
theorem bulk_agrees_inTurn (cfg : AliasConfig) (env : UpdateEnv) (edge : EdgeConfig) (verb : BulkVerb)
    (ids : List ObjectId) (ownerId : ObjectId) (clientIp : Option String) (now : Int) (s : Stores) :
    AgreesInTurn ids ownerId s (verb.bulk cfg env edge ids ownerId now s)
      (fun i s => verb.single cfg env edge ownerId clientIp now i s) := by
  cases verb with
  | delete => exact bulkDelete_agreesInTurn
  | setStatus status =>
    have hsingle : (fun i s => (BulkVerb.setStatus status).single cfg env edge ownerId clientIp now i s) =
        fun i s => UrlService.update env edge i (UrlService.statusRequest status) ownerId clientIp now s :=
      funext fun i => funext fun s => UrlService.update_statusRequest
    rw [hsingle]
    exact bulkSetStatus_agreesInTurn
  | moveDomain domain => exact BulkUrlService.bulkMoveDomain_agreesInTurn

/-- Someone else deletes the link: the single call denies access, the bulk call reports it as missing. -/
theorem bulk_hides_foreign_link :
    ItemVerdict.ofSingles (fun i s => BulkVerb.delete.single plainAliases openEnv plainEdge 8 none 1 i s)
      [1] scheduledLink = [.refused "forbidden" "Access denied: you do not own this URL"] ∧
    ItemVerdict.ofBulk [1] (BulkVerb.delete.bulk plainAliases openEnv plainEdge [1] 8 1
      scheduledLink).1 = [.refused "not_found" "URL not found"] := by
  decide +kernel

end Spoo
