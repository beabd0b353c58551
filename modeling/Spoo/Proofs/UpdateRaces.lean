import Spoo.Proofs.NewDestinations
import Spoo.Proofs.OwnerRaces

/-!
# Updates of one link that interleave, and expiry at the click limit

An update stamps the link and checks its window on the document it read, and writes only the fields it changes. Between
the two another update may have written: the invariants across fields survive while what an update relies on is still
as it read it. A click is recorded long after its redirect, from the copy of the link the redirect was served from. The
conditional update that expires the link compares the stored count with the limit of that copy, and looks at neither
the stored limit nor the stored status.
-/

namespace Spoo

open Fallible Interleave Mongo Mongo.Collection UrlRepository

/-! ## Updates -/

section

/-! ## The invariants -/

/-- What holds across the fields of a link: the stamp says what the link routes to, and the link
starts before it expires. -/
structure UrlRow.Coherent (lib : UrlLib) (row : UrlRow) : Prop where
  stamp : row.StampMatches lib
  window : ∀ startsAt ∈ row.startsAt, ∀ expireAfter ∈ row.expireAfter,
    startsAt.ms < expireAfter.ms

/-- The destinations an update leaves alone, when it changes any, are those it read. -/
def UrlOps.DestinationsCurrent (existing : UrlV2Doc) (ops : UrlOps) (row : UrlRow) : Prop :=
  ops.changesDestination = true →
    (ops.longUrl = none → row.longUrl = existing.longUrl) ∧
    (ops.geoRules = none → row.geoRules = existing.geoRules) ∧
    (ops.abVariants = none → row.abVariants = existing.abVariants) ∧
    (ops.preStartUrl = none → row.preStartUrl = existing.preStartUrl) ∧
    (ops.expiredRedirectUrl = none → row.expiredRedirectUrl = existing.expiredRedirectUrl)

/-- The end of the window an update leaves alone, when it sets the other one, is the one it read.
The driver keeps whole milliseconds, and the two ends are not within the same one. -/
def UrlOps.WindowCurrent (existing : UrlV2Doc) (ops : UrlOps) (row : UrlRow) : Prop :=
  ops.startsAt.join.isSome ∨ ops.expireAfter.join.isSome →
    (ops.startsAt = none → row.startsAt.map BsonDate.decode = existing.startsAt) ∧
    (ops.expireAfter = none → row.expireAfter.map BsonDate.decode = existing.expireAfter) ∧
    ∀ startsAt ∈ mergedInstant ops.startsAt existing.startsAt,
      ∀ expireAfter ∈ mergedInstant ops.expireAfter existing.expireAfter,
        BsonDate.encode (asAwareUtc startsAt) ≠ BsonDate.encode (asAwareUtc expireAfter)

/-- What an update relies on is in the stored link as the update read it. -/
def UrlOps.Current (existing : UrlV2Doc) (ops : UrlOps) (row : UrlRow) : Prop :=
  ops.DestinationsCurrent existing row ∧ ops.WindowCurrent existing row

instance (existing : UrlV2Doc) (ops : UrlOps) (row : UrlRow) :
    Decidable (ops.Current existing row) :=
  inferInstanceAs (Decidable ((_ → _ ∧ _ ∧ _ ∧ _ ∧ _) ∧ (_ ∨ _ → _ ∧ _ ∧ _)))

/-! ## One write -/

section

variable {lib : UrlLib} {env : UpdateEnv} {now : Int} {request : UpdateUrlRequest}
  {clientIp : Option String} {existing : UrlV2Doc} {ops : UrlOps} {row row' : UrlRow}

theorem UrlRow.StampMatches.congr (h : row.StampMatches lib) (hdest : row'.dest = row.dest)
    (hurls : row'.destinationUrls = row.destinationUrls) : row'.StampMatches lib := by
  obtain ⟨hhosts, haligned⟩ := h
  refine ⟨fun host hne => ?_, ?_⟩
  · rw [UrlRow.hosts, hdest, hurls]
    exact hhosts host hne
  · rw [hdest, hurls]
    exact haligned

/-- Operations decided on one document edit another that agrees on what they rely on. -/
theorem UrlOps.Edits.of_current (hops : ops.Edits env existing)
    (hcurrent : ops.DestinationsCurrent existing row) : ops.Edits env (.fromMongo row) := by
  refine ⟨hops.newUrls, hops.status, ?_⟩
  rw [hops.dest]
  split
  · rename_i hchanges
    obtain ⟨hlong, hgeo, hvariants, hpre, hexpired⟩ := hcurrent hchanges
    have getD_eq {α : Type} {op : Option α} {stored read : α} (h : op = none → stored = read) :
        op.getD read = op.getD stored := by
      cases op with
      | none => exact (h rfl).symm
      | some _ => rfl
    have hstamp : ops.stamp env.lib existing = ops.stamp env.lib (.fromMongo row) := by
      simp only [UrlOps.stamp, UrlV2Doc.fromMongo, getD_eq hlong, getD_eq hgeo, getD_eq hvariants,
        getD_eq hpre, getD_eq hexpired]
    rw [hstamp]
  · rfl

/-- The stamp of a link after a write. -/
theorem UrlOps.Edits.stampMatches (hops : ops.Edits env (.fromMongo row))
    (hrow : row.StampMatches env.lib) : (ops.toUpdate.apply row).StampMatches env.lib := by
  cases hchanges : ops.changesDestination with
  | true => exact (UrlOps.isStamped_toUpdate hops hchanges).stampMatches
  | false =>
    obtain ⟨hlong, hgeo, hvariants, hpre, hexpired⟩ := UrlOps.destinations_toUpdate row hchanges
    refine hrow.congr (UrlOps.dest_toUpdate hops hchanges) ?_
    rw [UrlRow.destinationUrls, hlong, hgeo, hvariants, hpre, hexpired, UrlRow.destinationUrls]

theorem lt_of_checkStartBeforeExpiry {startsAt expireAfter : Datetime} {u : Unit}
    (h : checkStartBeforeExpiry (some startsAt) (some expireAfter) = .ok u) :
    asAwareUtc startsAt < asAwareUtc expireAfter := by
  simp only [checkStartBeforeExpiry] at h
  split at h
  · cases h
  · rename_i hlt
    exact Int.not_le.1 hlt

/-- An update that sets an end of the window has compared it with the other. -/
theorem startsAt_lt_of_buildOps (h : buildOps env now request clientIp existing = .ok ops)
    (hsets : ops.startsAt.isSome ∨ ops.expireAfter.isSome) :
    ∀ startsAt ∈ mergedInstant ops.startsAt existing.startsAt,
      ∀ expireAfter ∈ mergedInstant ops.expireAfter existing.expireAfter,
        asAwareUtc startsAt < asAwareUtc expireAfter := by
  intro startsAt hstart expireAfter hexpire
  unfold buildOps at h
  obtain ⟨collected, -, h⟩ := bind_eq_ok.1 h
  have hwrites : ∃ dest metaTags status,
      ((collected.restamp env.lib existing).stampMetaIp clientIp).autoReactivate existing now =
        { collected with dest, metaTags, status } := UrlOps.finish_writes env.lib clientIp
  obtain ⟨dest, metaTags, status, hfinish⟩ := hwrites
  rw [hfinish] at h
  split at h
  · obtain ⟨_, hcheck, h⟩ := bind_eq_ok.1 h
    cases h
    rw [Option.mem_def] at hstart hexpire
    simp only at hstart hexpire
    rw [hstart, hexpire] at hcheck
    exact lt_of_checkStartBeforeExpiry hcheck
  · rename_i hnone
    cases h
    exact absurd hsets hnone

/-- An end of the window as it is stored after a write. -/
theorem instant_toUpdate {op : Option (Option Int)} {stored : Option BsonDate}
    {read : Option Datetime} (h : op = none → stored.map BsonDate.decode = read) :
    (op.map (·.map BsonDate.encode)).getD stored =
      (mergedInstant op read).map fun instant => BsonDate.encode (asAwareUtc instant) := by
  cases op with
  | none =>
    have hround (date : BsonDate) : BsonDate.encode (asAwareUtc date.decode) = date := by
      simp [BsonDate.encode, BsonDate.decode, asAwareUtc]
    rw [mergedInstant, ← h rfl]
    simp [Function.comp_def, hround]
  | some value =>
    cases value <;> rfl

/-- An end of the window after a write that does not set it: as it was, or gone. -/
theorem mem_of_mem_toUpdate {op : Option (Option Int)} {stored : Option BsonDate} {date : BsonDate}
    (hop : op.join = none) (h : date ∈ (op.map (·.map BsonDate.encode)).getD stored) :
    date ∈ stored := by
  rcases op with _ | _ | instant
  · exact h
  · cases h
  · cases hop

/-- An update that relies on nothing out of date keeps the window of the link. -/
theorem window_toUpdate (hbuild : buildOps env now request clientIp existing = .ok ops)
    (hcurrent : ops.WindowCurrent existing row)
    (hrow : ∀ startsAt ∈ row.startsAt, ∀ expireAfter ∈ row.expireAfter,
      startsAt.ms < expireAfter.ms) :
    ∀ startsAt ∈ (ops.toUpdate.apply row).startsAt,
      ∀ expireAfter ∈ (ops.toUpdate.apply row).expireAfter, startsAt.ms < expireAfter.ms := by
  by_cases hsets : ops.startsAt.join.isSome ∨ ops.expireAfter.join.isSome
  · obtain ⟨hstart, hexpire, hapart⟩ := hcurrent hsets
    have named {op : Option (Option Int)} (h : op.join.isSome) : op.isSome :=
      Option.isSome_of_any (Option.isSome_join ▸ h)
    have hnamed : ops.startsAt.isSome ∨ ops.expireAfter.isSome := hsets.imp named named
    have hstored : (ops.toUpdate.apply row).startsAt = (mergedInstant ops.startsAt
        existing.startsAt).map fun instant => BsonDate.encode (asAwareUtc instant) :=
      instant_toUpdate hstart
    have hstored' : (ops.toUpdate.apply row).expireAfter = (mergedInstant ops.expireAfter
        existing.expireAfter).map fun instant => BsonDate.encode (asAwareUtc instant) :=
      instant_toUpdate hexpire
    simp only [hstored, hstored', Option.mem_def, Option.map_eq_some_iff]
    rintro _ ⟨startsAt, hs, rfl⟩ _ ⟨expireAfter, he, rfl⟩
    have hlt := startsAt_lt_of_buildOps hbuild hnamed startsAt hs expireAfter he
    have hne := hapart startsAt hs expireAfter he
    simp only [BsonDate.encode, ne_eq, BsonDate.mk.injEq] at hne ⊢
    omega
  · simp only [not_or, Bool.not_eq_true, Option.isSome_eq_false_iff,
      Option.isNone_iff_eq_none] at hsets
    intro startsAt hs expireAfter he
    exact hrow startsAt (mem_of_mem_toUpdate hsets.1 hs) expireAfter
      (mem_of_mem_toUpdate hsets.2 he)

/-- A write that relies on nothing out of date keeps the invariants. -/
theorem UrlRow.Coherent.toUpdate (hrow : row.Coherent env.lib)
    (hbuild : buildOps env now request clientIp existing = .ok ops)
    (hcurrent : ops.Current existing row) : (ops.toUpdate.apply row).Coherent env.lib where
  stamp := ((edits_buildOps hbuild).1.of_current hcurrent.1).stampMatches hrow.stamp
  window := window_toUpdate hbuild hcurrent.2 hrow.window

end

/-! ## The runs -/

/-- An update of an owner, with what other components answer it. -/
structure UpdateCall where
  env : UpdateEnv
  request : UpdateUrlRequest
  ownerId : ObjectId
  clientIp : Option String := none
  now : Int

namespace UpdateCall

variable (lib : UrlLib) (edge : EdgeConfig) (urlId : ObjectId)

/-- The calls of the update on the stores. -/
def todo (call : UpdateCall) : List UrlService.Call :=
  UrlService.updateCalls { call.env with lib := lib } edge urlId call.request call.ownerId
    call.clientIp call.now

/-- What an update has decided to write was built on the document it goes with. -/
def Decided (call : UpdateCall) (existing : UrlV2Doc) (ops : UrlOps) : Prop :=
  ∃ built, buildOps { call.env with lib := lib } call.now call.request call.clientIp existing =
    .ok built ∧ ops = { built with updatedAt := some call.now }

/-- How far an update has come: it has not begun, or it has decided and taken `k` calls since. -/
inductive Underway (call : UpdateCall) : Process OwnerVars Stores → Prop where
  | fresh : Underway call ⟨{}, call.todo lib edge urlId⟩
  | decided {vars : OwnerVars} (k : Nat) (hdecided : ∀ existing ops,
      vars.pending = some (existing, ops) → call.Decided lib existing ops) :
    Underway call ⟨vars, (call.todo lib edge urlId).drop (k + 1)⟩

end UpdateCall

section

variable {ι : Type} {lib : UrlLib} {edge : EdgeConfig} {urlId : ObjectId}

/-- Updates of one link, none of which has begun. -/
def updateRace (lib : UrlLib) (edge : EdgeConfig) (urlId : ObjectId) (calls : ι → UpdateCall)
    (s : Stores) : System (fun _ : ι => OwnerVars) Stores where
  procs i := ⟨{}, (calls i).todo lib edge urlId⟩
  shared := s

/-- If the update moves on to its write, what it relies on is in the link as it read it. -/
def WritesCurrent (urlId : ObjectId) (sys : System (fun _ : ι => OwnerVars) Stores) (i : ι) :
    Prop :=
  (sys.procs i).todo.length = 3 → ∀ decision ∈ (sys.procs i).vars.pending,
    ∀ row ∈ sys.shared.urls.lookup urlId, decision.2.Current decision.1 row

instance (sys : System (fun _ : ι => OwnerVars) Stores) (i : ι) :
    Decidable (WritesCurrent urlId sys i) :=
  inferInstanceAs (Decidable (_ → ∀ decision ∈ (sys.procs i).vars.pending,
    ∀ row ∈ sys.shared.urls.lookup urlId, decision.2.Current decision.1 row))

/-- The link, while it is there, is coherent. -/
def CoherentAt (lib : UrlLib) (urlId : ObjectId) (s : Stores) : Prop :=
  ∀ row, s.urls.lookup urlId = some row → row.Coherent lib

namespace UpdateCall

variable {call : UpdateCall} {s : Stores} {v : OwnerVars}

theorem decided_readForUpdate {existing : UrlV2Doc} {ops : UrlOps}
    (h : (UrlService.readForUpdate { call.env with lib := lib } urlId call.request call.ownerId
      call.clientIp call.now {} s).1.pending = some (existing, ops)) :
    call.Decided lib existing ops := by
  obtain ⟨-, -, -, -, -, built, hbuild, hops⟩ := UrlService.readForUpdate_pending h
  exact ⟨built, hbuild, hops⟩

theorem decided_writeUpdate
    (h : ∀ existing ops, v.pending = some (existing, ops) → call.Decided lib existing ops) :
    ∀ existing ops, (UrlService.writeUpdate urlId v s).1.pending = some (existing, ops) →
      call.Decided lib existing ops := by
  intro existing ops hpending
  rcases UrlService.writeUpdate_cases v with ⟨-, hnone⟩ | ⟨_, _, _, -, -, hstep⟩
  · rw [hnone] at hpending
    cases hpending
  · rw [hstep] at hpending
    exact h existing ops hpending

theorem coherentAt_writeUpdate (hcoherent : CoherentAt lib urlId s)
    (hdecided : ∀ existing ops, v.pending = some (existing, ops) →
      call.Decided lib existing ops)
    (hcurrent : ∀ decision ∈ v.pending, ∀ row ∈ s.urls.lookup urlId,
      decision.2.Current decision.1 row) :
    CoherentAt lib urlId (UrlService.writeUpdate urlId v s).2 := by
  rcases UrlService.writeUpdate_cases v with ⟨hsame, -⟩ | ⟨existing, ops, urls, hpending, hwrite, hstep⟩
  · rw [hsame]
    exact hcoherent
  · rw [hstep]
    obtain ⟨built, hbuild, rfl⟩ := hdecided existing ops hpending
    intro row' hrow'
    rw [lookup_updateManyUnique hwrite, Option.map_eq_some_iff] at hrow'
    obtain ⟨row, hrow, rfl⟩ := hrow'
    have hid : row.id = urlId := (lookup_eq_some_iff.1 hrow).2
    rw [applyWhere_of_matches _ (by simp [hid])]
    have hbuilt : built.Current existing row := hcurrent _ hpending row hrow
    have hkept := (hcoherent row hrow).toUpdate hbuild hbuilt
    exact ⟨hkept.stamp.congr rfl rfl, hkept.window⟩

/-- A move of one update: it goes on with its calls, and a write that relies on nothing out of date
keeps the link coherent. -/
theorem Underway.step {p : Process OwnerVars Stores} (h : call.Underway lib edge urlId p)
    (hcoherent : CoherentAt lib urlId s)
    (hcurrent : p.todo.length = 3 → ∀ decision ∈ p.vars.pending,
      ∀ row ∈ s.urls.lookup urlId, decision.2.Current decision.1 row) :
    call.Underway lib edge urlId (p.step s).1 ∧ CoherentAt lib urlId (p.step s).2 := by
  cases h with
  | fresh =>
    refine ⟨.decided 0 fun _ _ => decided_readForUpdate, ?_⟩
    exact fun row hrow => hcoherent row (UrlService.readForUpdate_stores (s := s) {} ▸ hrow)
  | @decided vars k hdecided =>
    match k with
    | 0 =>
      refine ⟨.decided 1 (decided_writeUpdate hdecided), ?_⟩
      exact coherentAt_writeUpdate hcoherent hdecided (hcurrent rfl)
    | 1 =>
      refine ⟨.decided 2 ?_, ?_⟩
      · exact (UrlService.vars_invalidateKeys (s := s) vars).symm ▸ hdecided
      · exact fun row hrow => hcoherent row (UrlService.urls_invalidateKeys vars s ▸ hrow)
    | 2 =>
      refine ⟨.decided 3 ?_, ?_⟩
      · rw [UrlService.vars_reconcileEdge]
        exact hdecided
      · exact fun row hrow => hcoherent row (UrlService.urls_reconcileEdge edge call.now vars s ▸ hrow)
    | k + 3 =>
      have hdone : Process.Finished (σ := Stores) ⟨vars, (call.todo lib edge urlId).drop (k + 4)⟩ :=
        List.drop_eq_nil_of_le (by simp [todo, UrlService.updateCalls])
      rw [hdone.step_eq]
      exact ⟨.decided (k + 3) hdecided, hcoherent⟩

end UpdateCall

/-- Any number of updates of one link run interleaved. While every write finds what it relies on as
its update read it, every state of the run has the link coherent. -/
theorem coherent_of_writesCurrent [DecidableEq ι] (lib : UrlLib) (edge : EdgeConfig)
    (urlId : ObjectId) (calls : ι → UpdateCall) (s : Stores) (schedule : List ι)
    (hstart : ∀ row, s.urls.lookup urlId = some row → row.Coherent lib)
    (hcurrent : Run.Guarded System.step (WritesCurrent urlId) (updateRace lib edge urlId calls s)
      schedule) :
    ∀ sys ∈ List.scanl System.step (updateRace lib edge urlId calls s) schedule,
      ∀ row, sys.shared.urls.lookup urlId = some row → row.Coherent lib := by
  have hlocal : ∀ i, (calls i).Underway lib edge urlId
      ((updateRace lib edge urlId calls s).procs i) := fun _ => .fresh
  exact System.forall_mem_scanl (L := fun i => (calls i).Underway lib edge urlId)
    (P := CoherentAt lib urlId) (fun _ _ hunder hcoherent hmay => hunder.step hcoherent hmay)
    hlocal hstart hcurrent

end

/-- Two updates of the owner's link, with the requests `first` and `second`. -/
def twoUpdates (first second : UpdateUrlRequest) : System (fun _ : Bool => OwnerVars) Stores :=
  updateRace asciiUrlLib plainEdge 1 (fun later =>
    { env := openEnv, request := if later then second else first, ownerId := 7, now := 0 })
    ownedStores

/-- The two updates move in turn. -/
def inTurn : List Bool := [false, true, false, true, false, true, false, true]

theorem coherent_ownedLink : ∀ row, ownedStores.urls.lookup 1 = some row →
    row.Coherent asciiUrlLib := by
  intro row hrow
  cases (show some ownedLink = some row from hrow)
  have hstamped : ownedLink.IsStamped asciiUrlLib := by
    unfold UrlRow.IsStamped
    decide +kernel
  exact ⟨hstamped.stampMatches, fun _ hstart => by cases hstart⟩

/-- A move to another page while the link gets an expiry. -/
def moveAndLimit : System (fun _ : Bool => OwnerVars) Stores :=
  twoUpdates { longUrl := some "https://b.example/" } { expireAfter := some (some 5000000) }

theorem coherent_of_writesCurrent_inTurn :
    Run.Guarded System.step (WritesCurrent 1) moveAndLimit inTurn ∧
    ∀ sys ∈ List.scanl System.step moveAndLimit inTurn,
      ∀ row, sys.shared.urls.lookup 1 = some row → row.Coherent asciiUrlLib := by
  have hcurrent : Run.Guarded System.step (WritesCurrent 1) moveAndLimit inTurn := by
    decide +kernel
  exact ⟨hcurrent, coherent_of_writesCurrent asciiUrlLib plainEdge 1 _ ownedStores inTurn
    coherent_ownedLink hcurrent⟩

/-- A move to another page while a country gets a destination of its own. -/
def moveAndRoute : System (fun _ : Bool => OwnerVars) Stores :=
  twoUpdates { longUrl := some "https://b.example/" }
    { geoRules := some (some (PyDict.empty.assign "IN" "https://c.example/")) }

/-- One update sets the start and the other the expiry. -/
def startAndExpiry : System (fun _ : Bool => OwnerVars) Stores :=
  twoUpdates { startsAt := some (some 9000000) } { expireAfter := some (some 5000000) }

/-- The stamp is left without the host of the new page, and the link expires before it starts. -/
theorem updates_lose_invariants :
    (∀ row, ownedStores.urls.lookup 1 = some row → row.Coherent asciiUrlLib) ∧
    ((moveAndRoute.run inTurn).Finished ∧
      ∃ row, (moveAndRoute.run inTurn).shared.urls.lookup 1 = some row ∧
        ¬row.Coherent asciiUrlLib) ∧
    (startAndExpiry.run inTurn).Finished ∧
      ∃ row, (startAndExpiry.run inTurn).shared.urls.lookup 1 = some row ∧
        ¬row.Coherent asciiUrlLib := by
  refine ⟨coherent_ownedLink, ⟨?_, ?_⟩, ?_, ?_⟩
  · intro later
    cases later <;> rfl
  · have hfound : ∃ row, (moveAndRoute.run inTurn).shared.urls.lookup 1 = some row ∧
        "b.example" ∉ row.hosts ∧
        ∃ url ∈ row.destinationUrls, destinationHost asciiUrlLib url = some "b.example" := by
      decide +kernel
    obtain ⟨row, hrow, hhost, hurl⟩ := hfound
    exact ⟨row, hrow, fun h => hhost ((h.stamp.hosts "b.example" (by decide)).2 hurl)⟩
  · intro later
    cases later <;> rfl
  · have hfound : ∃ row, (startAndExpiry.run inTurn).shared.urls.lookup 1 = some row ∧
        row.startsAt = some ⟨9000⟩ ∧ row.expireAfter = some ⟨5000⟩ := by
      decide +kernel
    obtain ⟨row, hrow, hstart, hexpire⟩ := hfound
    exact ⟨row, hrow, fun h => absurd (h.window _ hstart _ hexpire) (by decide)⟩

end

/-! ## Expiry at the click limit -/

/-- An ACTIVE link whose count has reached its limit. -/
def UrlRow.CapReached (row : UrlRow) : Prop :=
  row.status = .active ∧ ∃ cap, row.maxClicks = some cap ∧ cap ≤ row.totalClicks

/-- The link was turned off, or its limit was taken away or raised past the count. -/
def UrlRow.CapLifted (row : UrlRow) : Prop :=
  row.status ≠ .active ∨ ∀ cap ∈ row.maxClicks, row.totalClicks < cap

theorem UrlRow.capLifted_iff {row : UrlRow} : row.CapLifted ↔ ¬row.CapReached := by
  simp only [CapLifted, CapReached, not_and_or, not_exists, Nat.not_le, Option.mem_def,
    imp_iff_not_or]

/-- The link is set EXPIRED between the two states. -/
def SetsExpired (s s' : Stores) (row : UrlRow) : Prop :=
  s.urls.lookup row.id = some row ∧ row.status ≠ .expired ∧
    ∃ row', s'.urls.lookup row.id = some row' ∧ row'.status = .expired

namespace V2ClickHandler

/-- The next move of the click expires no link before its limit. -/
def ExpiresDue (s : Stores) (p : Process ClickVars Stores) : Prop :=
  ∀ row, SetsExpired s (p.step s).2 row → row.CapReached

/-- The click is about to compare the stored count with the limit of its copy, has it reached,
and the limit of the stored link was lifted since. -/
def Outdated (s : Stores) (context : ClickContext) (p : Process ClickVars Stores) : Prop :=
  p.todo.length = 3 ∧ ∃ urlId cap row, context.urlData.objectId = some urlId ∧
    context.urlData.maxClicks = some cap ∧ s.urls.lookup urlId = some row ∧
    cap ≤ row.totalClicks ∧ row.status ≠ .expired ∧ row.CapLifted

/-- What is left to do are the last calls of `handle`. -/
def Underway (lib : UserAgentLib) (context : ClickContext) (p : Process ClickVars Stores) : Prop :=
  p.todo <:+ handleCalls lib context

end V2ClickHandler

/-! ## Who moves -/

/-- Everything that runs beside the click worker, and the worker itself. -/
inductive ClickParty where
  | click (lib : UserAgentLib) (context : ClickContext)
  | owner (op : OwnerCall)
  | safety (cfg : EnforcerConfig) (block : Block)
  | redirect (data : UrlCacheData) (shortCode : String) (now : Int)

namespace ClickParty

def Vars : ClickParty → Type
  | .click .. => V2ClickHandler.ClickVars
  | .owner op => op.Vars
  | .safety .. => EnforcerVars
  | .redirect .. => Unit

/-- The calls of the party, from its initial variables. -/
def process : (party : ClickParty) → Process party.Vars Stores
  | .click lib context =>
    (⟨{}, V2ClickHandler.handleCalls lib context⟩ : Process V2ClickHandler.ClickVars Stores)
  | .owner op => op.process
  | .safety cfg block => (⟨{}, block.calls cfg⟩ : Process EnforcerVars Stores)
  | .redirect data shortCode now =>
    (⟨(), [fun v s => (v, (UrlService.raiseIfTimeExpired data shortCode now s).2)]⟩ :
      Process Unit Stores)

/-- The next move of the party, when it is a click, expires no link before its limit. -/
def ExpiresDue (s : Stores) : (party : ClickParty) → Process party.Vars Stores → Prop
  | .click .., p => V2ClickHandler.ExpiresDue s p
  | _, _ => True

/-- The party is a click, and about to compare the stored count with an outdated limit. -/
def Outdated (s : Stores) : (party : ClickParty) → Process party.Vars Stores → Prop
  | .click _ context, p => V2ClickHandler.Outdated s context p
  | _, _ => False

/-- A click goes on with its calls. -/
def Underway : (party : ClickParty) → Process party.Vars Stores → Prop
  | .click lib context, p => V2ClickHandler.Underway lib context p
  | _, _ => True

end ClickParty

/-- The parties, none of which has begun. -/
def clickRace {ι : Type} (parties : ι → ClickParty) (s : Stores) :
    System (fun i => (parties i).Vars) Stores where
  procs i := (parties i).process
  shared := s

/-! ## The calls of a click -/

namespace V2ClickHandler

variable {lib : UserAgentLib} {context : ClickContext} {urlId : ObjectId} {cap : Int}
  {v : ClickVars} {s : Stores} {todo : List Call} {row : UrlRow}

/-- What a click may still have to do. -/
theorem todo_cases (h : todo <:+ handleCalls lib context) :
    todo = [] ∨ ∃ urlId, context.urlData.objectId = some urlId ∧
      (todo = countCall context urlId :: expiryCalls context urlId ∨
        todo = [invalidateCall context, emitCall urlId] ∨ todo = [emitCall urlId] ∨
        ∃ cap, context.urlData.maxClicks = some cap ∧
          todo = [expireCall urlId cap, invalidateCall context, emitCall urlId]) := by
  unfold handleCalls at h
  split at h
  · rename_i urlId _ hid
    rcases List.suffix_cons_iff.1 h with rfl | hexpiry
    · exact .inr ⟨urlId, hid, .inl rfl⟩
    · cases hcap : context.urlData.maxClicks with
      | none => simp [expiryCalls, hcap] at hexpiry; exact .inl hexpiry
      | some cap =>
        by_cases hzero : cap = 0
        · simp [expiryCalls, hcap, hzero] at hexpiry
          exact .inl hexpiry
        · simp only [expiryCalls, hcap, hzero, if_false, List.suffix_cons_iff,
            List.suffix_nil] at hexpiry
          rcases hexpiry with rfl | rfl | rfl | rfl
          · exact .inr ⟨urlId, hid, .inr (.inr (.inr ⟨cap, rfl, rfl⟩))⟩
          · exact .inr ⟨urlId, hid, .inr (.inl rfl)⟩
          · exact .inr ⟨urlId, hid, .inr (.inr (.inl rfl))⟩
          · exact .inl rfl
  · exact .inl (List.suffix_nil.1 h)

theorem length_count_expiryCalls (context : ClickContext) (urlId : ObjectId) :
    (countCall context urlId :: expiryCalls context urlId).length ≠ 3 := by
  unfold expiryCalls
  split
  · split <;> simp
  · simp

theorem not_setsExpired_of_urls {s' : Stores} (h : s'.urls = s.urls) :
    ¬SetsExpired s s' row := by
  rintro ⟨hrow, hlive, row', hrow', hexpired⟩
  rw [h, hrow] at hrow'
  cases hrow'
  exact hlive hexpired

theorem not_setsExpired_countCall : ¬SetsExpired s (countCall context urlId v s).2 row := by
  rintro ⟨hrow, hlive, row', hrow', hexpired⟩
  simp only [countCall, incrementClicks, lookup_updateMany, hrow, Option.map_some,
    Option.some.injEq] at hrow'
  have hstatus : row'.status = row.status := by
    rw [← hrow', applyWhere]
    split <;> rfl
  exact hlive (hstatus ▸ hexpired)

/-- The conditional update asks for the count and for nothing else. -/
theorem setsExpired_expireCall : SetsExpired s (expireCall urlId cap v s).2 row ↔
    s.urls.lookup urlId = some row ∧ row.status ≠ .expired ∧ cap ≤ row.totalClicks := by
  have hwritten (hrow : s.urls.lookup row.id = some row) :
      (expireCall urlId cap v s).2.urls.lookup row.id =
        some (applyWhere (maxClicksFilter urlId cap).Matches setExpired.toUpdate row) := by
    simp only [expireCall, expireIfMaxClicks, lookup_updateMany, hrow, Option.map_some]
  constructor
  · rintro ⟨hrow, hlive, row', hrow', hexpired⟩
    rw [hwritten hrow, Option.some.injEq] at hrow'
    cases hmatch : (maxClicksFilter urlId cap).Matches row with
    | false =>
      rw [applyWhere_of_not_matches _ hmatch] at hrow'
      exact absurd (hrow' ▸ hexpired) hlive
    | true =>
      rw [matches_maxClicksFilter, Bool.and_eq_true, decide_eq_true_eq,
        decide_eq_true_eq] at hmatch
      exact ⟨hmatch.1 ▸ hrow, hlive, hmatch.2⟩
  · rintro ⟨hrow, hlive, hcap⟩
    have hid : row.id = urlId := (lookup_eq_some_iff.1 hrow).2
    have hmatch : (maxClicksFilter urlId cap).Matches row = true := by simp [hid, hcap]
    rw [← hid] at hrow
    refine ⟨hrow, hlive, _, hwritten hrow, ?_⟩
    rw [applyWhere_of_matches _ hmatch]
    rfl

/-! ### One move -/

/-- A move expires a link before its limit exactly when it is an outdated comparison. -/
theorem expiresDue_iff {p : Process ClickVars Stores} (h : Underway lib context p) :
    ExpiresDue s p ↔ ¬Outdated s context p := by
  obtain ⟨v, todo⟩ := p
  have idle (hlength : todo.length ≠ 3)
      (hkept : ∀ row, ¬SetsExpired s (Process.step ⟨v, todo⟩ s).2 row) :
      ExpiresDue s ⟨v, todo⟩ ↔ ¬Outdated s context ⟨v, todo⟩ :=
    iff_of_true (fun row hrow => absurd hrow (hkept row)) fun hout => hlength hout.1
  rcases todo_cases h with rfl | ⟨urlId, hid, rfl | rfl | rfl | ⟨cap, hcap, rfl⟩⟩
  · exact idle (by simp) fun _ => not_setsExpired_of_urls rfl
  · exact idle (length_count_expiryCalls context urlId) fun _ =>
      not_setsExpired_countCall (v := v)
  · refine idle (by simp) fun _ => not_setsExpired_of_urls ?_
    simp only [Process.step, invalidateCall]
    split <;> rfl
  · refine idle (by simp) fun _ => not_setsExpired_of_urls ?_
    simp only [Process.step, emitCall]
    split <;> rfl
  · have hstep (row : UrlRow) : SetsExpired s (Process.step ⟨v, [expireCall urlId cap,
        invalidateCall context, emitCall urlId]⟩ s).2 row ↔
        s.urls.lookup urlId = some row ∧ row.status ≠ .expired ∧ cap ≤ row.totalClicks :=
      setsExpired_expireCall (v := v)
    simp only [ExpiresDue, Outdated, hstep, hid, hcap, UrlRow.capLifted_iff]
    constructor
    · rintro hdue ⟨-, _, _, row, ⟨⟩, ⟨⟩, hrow, hreached, hlive, hlifted⟩
      exact hlifted (hdue row ⟨hrow, hlive, hreached⟩)
    · rintro hnot row ⟨hrow, hlive, hreached⟩
      by_contra hlifted
      exact hnot ⟨rfl, urlId, cap, row, rfl, rfl, hrow, hreached, hlive, hlifted⟩

end V2ClickHandler

namespace ClickParty

variable {s : Stores}

theorem underway_process (party : ClickParty) : party.Underway party.process := by
  cases party with
  | click lib context => exact List.suffix_rfl
  | owner => trivial
  | safety => trivial
  | redirect => trivial

theorem Underway.step {party : ClickParty} {p : Process party.Vars Stores}
    (h : party.Underway p) : party.Underway (p.step s).1 := by
  cases party with
  | click lib context => exact (p.todo_step_suffix s).trans h
  | owner => trivial
  | safety => trivial
  | redirect => trivial

theorem expiresDue_iff {party : ClickParty} {p : Process party.Vars Stores}
    (h : party.Underway p) : party.ExpiresDue s p ↔ ¬party.Outdated s p := by
  cases party with
  | click lib context => exact V2ClickHandler.expiresDue_iff h
  | owner => exact iff_of_true trivial fun hout => hout
  | safety => exact iff_of_true trivial fun hout => hout
  | redirect => exact iff_of_true trivial fun hout => hout

end ClickParty

/-! ## Runs -/

/-- Clicks, owners, blocks and redirects run interleaved. Every link a click expires is ACTIVE
with its own limit reached exactly when no click compares the count with an outdated limit. -/
theorem expiries_due_iff {ι : Type} [DecidableEq ι] (parties : ι → ClickParty) (s : Stores)
    (schedule : List ι) :
    Run.Guarded System.step (fun sys i => (parties i).ExpiresDue sys.shared (sys.procs i))
        (clickRace parties s) schedule ↔
      Run.Guarded System.step (fun sys i => ¬(parties i).Outdated sys.shared (sys.procs i))
        (clickRace parties s) schedule := by
  refine Run.guarded_congr (P := fun sys => ∀ i, (parties i).Underway (sys.procs i)) ?_ ?_ ?_
  · intro sys i hunder j
    by_cases hj : j = i
    · subst hj
      rw [System.procs_step_same]
      exact (hunder j).step
    · rw [System.procs_step_of_ne sys hj]
      exact hunder j
  · exact fun sys i hunder => ClickParty.expiresDue_iff (hunder i)
  · exact fun i => (parties i).underway_process

/-- An owner's link that takes one click. -/
def limitedLink : UrlRow := { ownedLink with maxClicks := some 1 }

/-- A click on the link and an update of its owner. -/
def clickAndUpdate (request : UpdateUrlRequest) : Bool → ClickParty
  | false => .click plainAgents {
      urlData := .fromV2Doc (.fromMongo limitedLink)
      shortCode := "aaa"
      userAgent := "Firefox"
      clickedAt := 0 }
  | true => .owner (.update openEnv plainEdge 1 request 7 none 0)

/-- The two of them, on the stores with the one link. -/
def limitRace (request : UpdateUrlRequest) :
    System (fun i => (clickAndUpdate request i).Vars) Stores :=
  clickRace (clickAndUpdate request) {
    urls := { docs := [limitedLink], nodup_id := by decide, nodup_key := by decide }
    legacy := .empty
    emoji := .empty }

/-- The update runs while the click waits for its worker. -/
def updateFirst : List Bool := [true, true, true, true, false, false, false, false]

/-- The link after the update and one more click. -/
def clickedAfter (maxClicks : Option Nat) (status : UrlStatus) : UrlRow :=
  { limitedLink with
    maxClicks, status
    totalClicks := 1
    lastClick := some ⟨0⟩
    updatedAt := some ⟨0⟩ }

/-- The click expires a link whose limit was raised, one whose limit was cleared, and one that
was deactivated. -/
theorem click_expires_lifted_links :
    ¬Run.Guarded System.step (fun sys i => (clickAndUpdate { maxClicks := some (some 100) }
        i).ExpiresDue sys.shared (sys.procs i))
      (limitRace { maxClicks := some (some 100) }) updateFirst ∧
    ¬Run.Guarded System.step (fun sys i => (clickAndUpdate { maxClicks := some none }
        i).ExpiresDue sys.shared (sys.procs i))
      (limitRace { maxClicks := some none }) updateFirst ∧
    ¬Run.Guarded System.step (fun sys i => (clickAndUpdate { status := some .inactive }
        i).ExpiresDue sys.shared (sys.procs i))
      (limitRace { status := some .inactive }) updateFirst := by
  have hflip (request : UpdateUrlRequest) (maxClicks : Option Nat) (status : UrlStatus)
      (hlifted : (clickedAfter maxClicks status).CapLifted) (hlive : status ≠ .expired)
      (hbefore : ((limitRace request).run (updateFirst.take 5)).shared.urls.lookup 1 =
        some (clickedAfter maxClicks status))
      (hafter : ((limitRace request).run (updateFirst.take 6)).shared.urls.lookup 1 =
        some (clickedAfter maxClicks .expired)) :
      ¬Run.Guarded System.step (fun sys i => (clickAndUpdate request i).ExpiresDue sys.shared
        (sys.procs i)) (limitRace request) updateFirst := by
    rintro ⟨-, -, -, -, -, hdue, -⟩
    exact UrlRow.capLifted_iff.1 hlifted (hdue _ ⟨hbefore, hlive, _, hafter, rfl⟩)
  refine ⟨hflip _ (some 100) .active (.inr (by decide)) (by decide) ?_ ?_,
    hflip _ none .active (.inr (by decide)) (by decide) ?_ ?_,
    hflip _ (some 1) .inactive (.inl (by decide)) (by decide) ?_ ?_⟩ <;> decide +kernel

end Spoo
