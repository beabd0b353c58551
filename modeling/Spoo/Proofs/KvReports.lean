import Spoo.Infrastructure.CloudflareKv

/-!
# What the flag of a bulk operation promises

Callers take the flag of `bulk_delete` as word that a blocked link has left the edge. A reply is read
here the way the API means it, and the flag is compared with the replies of a whole run: over all
chunks, and over the calls key by key where the bulk route is absent.
-/

namespace Spoo

namespace CloudflareKv

/-! ## What the API says -/

/-- What one item of a bulk operation is to do. -/
inductive KvWrite where
  | put (entry : KvEntry)
  | delete (key : String)
  deriving DecidableEq, Repr

def KvWrite.key : KvWrite → String
  | put entry => entry.key
  | delete key => key

/-- A request carries a write: among those of a bulk request, or alone. -/
def KvClient.Carries (client : KvClient) (request : KvRequest) : KvWrite → Prop
  | .put entry => (∃ entries, request = ⟨"PUT", client.bulkPath "bulk", .entries entries⟩ ∧ entry ∈ entries) ∨
      request = ⟨"PUT", client.valuePath entry.key, .content entry.value entry.expirationTtl⟩
  | .delete key => (∃ keys, request = ⟨"POST", client.bulkPath "bulk/delete", .keys keys⟩ ∧ key ∈ keys) ∨
      request = ⟨"DELETE", client.valuePath key, .empty⟩

/-- The envelope of a reply says that the request has failed. -/
def KvResponse.Failed (response : KvResponse) : Prop :=
  ∃ fields, response.json = some (.obj fields) ∧ fields.lookup "success" = some (.bool false)

/-- The reply lists a key as one that has failed. -/
def KvResponse.Lists (response : KvResponse) (key : String) : Prop :=
  ∃ fields result keys, response.json = some (.obj fields) ∧ fields.lookup "result" = some (.obj result) ∧
    result.lookup "unsuccessful_keys" = some (.arr keys) ∧ .str key ∈ keys

namespace KvExchange

def isBulk (exchange : KvExchange) : Bool :=
  match exchange.request.body with
  | .entries _ => true
  | .keys _ => true
  | .content _ _ => false
  | .empty => false

/-- The statuses beside the successful ones that a single call accepts. -/
def okStatuses (exchange : KvExchange) : List Nat := if exchange.request.method = "DELETE" then [404] else []

/-- What the client makes of the reply. -/
def verdict (exchange : KvExchange) : Except String (Option Bool) :=
  if exchange.isBulk then bulkVerdict exchange.reply
  else (singleVerdict exchange.okStatuses exchange.reply).map some

/-- The checks of the client find nothing wrong with the reply. -/
def Passes (exchange : KvExchange) : Prop := exchange.verdict = .ok none ∨ exchange.verdict = .ok (some true)

/-- The bulk route was not there. -/
def RouteAbsent (exchange : KvExchange) : Prop :=
  exchange.isBulk = true ∧ ∃ response, exchange.reply = .response response ∧ response.statusCode = 404

/-- A status of success on a request that has failed. -/
def FailedAs2xx (exchange : KvExchange) : Prop :=
  ∃ response, exchange.reply = .response response ∧ response.isSuccess = true ∧ response.Failed

/-- A failure that can be seen: no response, a status that is not accepted, or the key in the list. -/
def Refused (exchange : KvExchange) (write : KvWrite) : Prop :=
  (∀ response, exchange.reply = .response response →
    response.isSuccess = false ∧ ¬(response.statusCode = 404 ∧ exchange.request.method = "DELETE")) ∨
      (exchange.isBulk = true ∧ ∃ response, exchange.reply = .response response ∧ response.Lists write.key)

end KvExchange

/-- The API has acknowledged a write: with success for the request and no complaint about the key, or
with a 404 for the deletion of a key that is gone. -/
def KvClient.Acknowledges (client : KvClient) (exchange : KvExchange) (write : KvWrite) : Prop :=
  client.Carries exchange.request write ∧ ∃ response, exchange.reply = .response response ∧
    ((response.isSuccess = true ∧ ¬response.Failed ∧ (exchange.isBulk = true → ¬response.Lists write.key)) ∨
      (response.statusCode = 404 ∧ exchange.request.method = "DELETE"))

/-- The flag is true only of a run in which every write was acknowledged. -/
def KvClient.Faithful (client : KvClient) (run : KvRun Bool) (writes : List KvWrite) : Prop :=
  (run []).2 = .ok true → ∀ write ∈ writes, ∃ exchange ∈ (run []).1, client.Acknowledges exchange write

/-- The replies that decide a run all pass: all of them, or the ones to single calls where the bulk route
is absent. -/
def Settled (log : List KvExchange) : Prop :=
  (∀ exchange ∈ log, exchange.Passes) ∨
    ((∃ exchange ∈ log, exchange.RouteAbsent) ∧ ∀ exchange ∈ log, exchange.isBulk = false → exchange.Passes)

/-- A write was carried by a call that failed with a status of success, and beside such calls only by
calls that failed openly. -/
def KvClient.FailedUnseen (client : KvClient) (log : List KvExchange) (write : KvWrite) : Prop :=
  (∃ exchange ∈ log, client.Carries exchange.request write ∧ exchange.FailedAs2xx) ∧
    ∀ exchange ∈ log, client.Carries exchange.request write → exchange.FailedAs2xx ∨ exchange.Refused write

/-- The replies that decide pass over the failure of some write. -/
def KvClient.Misled (client : KvClient) (log : List KvExchange) (writes : List KvWrite) : Prop :=
  client.isConfigured = true ∧ Settled log ∧ ∃ write ∈ writes, client.FailedUnseen log write

/-! ## One reply -/

section

variable {client : KvClient} {exchange : KvExchange} {write : KvWrite}

/-- A response with failed keys in it does not pass. -/
theorem not_lists_of_gradeBulk {response : KvResponse} (h : gradeBulk response = .ok (some true))
    (key : String) : ¬response.Lists key := by
  rintro ⟨fields, result, keys, hjson, hresult, hkeys, hmem⟩
  have hne : keys.isEmpty = false := by
    cases keys with
    | nil => cases hmem
    | cons => rfl
  have hnonempty : result.isEmpty = false := by
    cases result with
    | nil => cases hkeys
    | cons => rfl
  have hverdict : gradeKeys (.arr keys) = .ok (some false) := by
    simp [gradeKeys, Json.truthy, hne]
  have hread : (unsuccessfulKeys (.obj fields)).bind gradeKeys = .ok (some false) := by
    simp only [unsuccessfulKeys, jsonGet, hresult, Option.getD_some, jsonOr, Json.truthy, hnonempty, bind,
      Except.bind, Bool.not_false, if_true, hkeys, hne, hverdict]
  rw [gradeBulk, hjson] at h
  split at h
  · cases h
  · split at h
    · have hnone := hread.symm.trans h
      cases hnone
    · cases h

theorem isSuccess_of_gradeBulk {response : KvResponse} (h : gradeBulk response = .ok (some true)) :
    response.isSuccess = true := by
  rw [gradeBulk] at h
  split at h
  · cases h
  · split at h
    · rename_i hgraded
      simpa [gradeResponse] using hgraded
    · cases h

theorem statusCode_of_gradeBulk_none {response : KvResponse} (h : gradeBulk response = .ok none) :
    response.statusCode = 404 := by
  rw [gradeBulk] at h
  split at h
  · assumption
  · split at h
    · cases hjson : response.json with
      | none =>
        rw [hjson] at h
        cases h
      | some body =>
        rw [hjson] at h
        have hread : (unsuccessfulKeys body).bind gradeKeys = .ok none := h
        cases hkeys : unsuccessfulKeys body with
        | error e =>
          rw [hkeys] at hread
          cases hread
        | ok keys =>
          rw [hkeys] at hread
          simp only [Except.bind, gradeKeys] at hread
          split at hread
          · cases keys <;> cases hread
          · cases hread
    · cases h

theorem isSuccess_ne_404 {response : KvResponse} (h : response.isSuccess = true) :
    response.statusCode ≠ 404 := by
  intro hstatus
  rw [KvResponse.isSuccess, hstatus] at h
  revert h
  decide

theorem put_ne_delete : "PUT" ≠ "DELETE" := by decide

theorem post_ne_delete : "POST" ≠ "DELETE" := by decide

/-- A bulk request is no deletion of a single key. -/
theorem method_of_isBulk (hcarries : client.Carries exchange.request write) (hbulk : exchange.isBulk = true) :
    exchange.request.method ≠ "DELETE" := by
  rw [KvExchange.isBulk] at hbulk
  cases write with
  | put entry =>
    rcases hcarries with ⟨entries, hrequest, -⟩ | hrequest
    · rw [hrequest]
      exact put_ne_delete
    · rw [hrequest] at hbulk
      cases hbulk
  | delete key =>
    rcases hcarries with ⟨keys, hrequest, -⟩ | hrequest
    · rw [hrequest]
      exact post_ne_delete
    · rw [hrequest] at hbulk
      cases hbulk

/-- A reply that passes acknowledges what its request carries, unless it has failed with a status of
success. -/
theorem acknowledges_of_verdict (hcarries : client.Carries exchange.request write)
    (hverdict : exchange.verdict = .ok (some true)) (hfailed : ¬exchange.FailedAs2xx) :
    client.Acknowledges exchange write := by
  refine ⟨hcarries, ?_⟩
  cases hreply : exchange.reply with
  | httpError =>
    exfalso
    rw [KvExchange.verdict, hreply] at hverdict
    split at hverdict <;> cases hverdict
  | raised name =>
    exfalso
    rw [KvExchange.verdict, hreply] at hverdict
    split at hverdict <;> cases hverdict
  | response response =>
    have hnot : response.isSuccess = true → ¬response.Failed :=
      fun hsuccess hfail => hfailed ⟨response, hreply, hsuccess, hfail⟩
    refine ⟨response, rfl, ?_⟩
    rw [KvExchange.verdict, hreply] at hverdict
    cases hbulk : exchange.isBulk with
    | true =>
      rw [hbulk, if_pos rfl] at hverdict
      have hsuccess := isSuccess_of_gradeBulk hverdict
      exact .inl ⟨hsuccess, hnot hsuccess, fun _ => not_lists_of_gradeBulk hverdict write.key⟩
    | false =>
      rw [hbulk, if_neg Bool.false_ne_true] at hverdict
      have hgraded : gradeResponse response exchange.okStatuses = true := by
        simpa [singleVerdict, Except.map] using hverdict
      rw [gradeResponse, Bool.or_eq_true, decide_eq_true_eq] at hgraded
      rcases hgraded with hsuccess | hstatus
      · exact .inl ⟨hsuccess, hnot hsuccess, by simp⟩
      · rw [KvExchange.okStatuses] at hstatus
        split at hstatus
        · rename_i hmethod
          exact .inr ⟨List.mem_singleton.1 hstatus, hmethod⟩
        · cases hstatus

/-- No call that failed acknowledges anything. -/
theorem not_acknowledges (h : exchange.FailedAs2xx ∨ exchange.Refused write) :
    ¬client.Acknowledges exchange write := by
  rintro ⟨hcarries, response, hreply, hsaid⟩
  have hsame : ∀ other, exchange.reply = .response other → response = other := by
    intro other hother
    rw [hreply] at hother
    exact KvReply.response.inj hother
  rcases h with ⟨other, hother, hsuccess, hfailed⟩ | hrefused | ⟨hbulk, other, hother, hlists⟩
  · obtain rfl := hsame other hother
    rcases hsaid with ⟨-, hnot, -⟩ | ⟨hstatus, -⟩
    · exact hnot hfailed
    · exact isSuccess_ne_404 hsuccess hstatus
  · obtain ⟨hnot, hgone⟩ := hrefused response hreply
    rcases hsaid with ⟨hsuccess, -, -⟩ | hstatus
    · rw [hnot] at hsuccess
      cases hsuccess
    · exact hgone hstatus
  · obtain rfl := hsame other hother
    rcases hsaid with ⟨-, -, hnot⟩ | ⟨-, hmethod⟩
    · exact hnot hbulk hlists
    · exact method_of_isBulk hcarries hbulk hmethod

/-- And every other call does that carries the write. -/
theorem acknowledges_of_not (hcarries : client.Carries exchange.request write)
    (h : ¬(exchange.FailedAs2xx ∨ exchange.Refused write)) : client.Acknowledges exchange write := by
  rw [not_or, KvExchange.Refused, not_or] at h
  obtain ⟨hfailed, hrefused, hlists⟩ := h
  push Not at hrefused
  obtain ⟨response, hreply, hanswer⟩ := hrefused
  refine ⟨hcarries, response, hreply, ?_⟩
  cases hsuccess : response.isSuccess with
  | true =>
    refine .inl ⟨rfl, fun hfail => hfailed ⟨response, hreply, hsuccess, hfail⟩, ?_⟩
    intro hbulk hlisted
    exact hlists ⟨hbulk, response, hreply, hlisted⟩
  | false => exact .inr (hanswer hsuccess)

end

/-! ## A run -/

section

variable {α : Type} {client : KvClient} {call : List α → KvRun (Option Bool)} {one : α → KvRun Bool}
  {write : α → KvWrite}

/-- A bulk operation makes a call for a chunk and a call for an item, and each carries what it is for. -/
structure Calls (client : KvClient) (call : List α → KvRun (Option Bool)) (one : α → KvRun Bool)
    (write : α → KvWrite) : Prop where
  chunk : ∀ chunk log, ∃ exchange : KvExchange, call chunk log = (log ++ [exchange], exchange.verdict) ∧
    exchange.isBulk = true ∧ ∀ item ∈ chunk, client.Carries exchange.request (write item)
  single : ∀ item log, ∃ (exchange : KvExchange) (result : Except String Bool),
    one item log = (log ++ [exchange], result) ∧ exchange.verdict = result.map some ∧ exchange.isBulk = false ∧
      client.Carries exchange.request (write item)

/-- Each of the writes was carried by a call that was accepted. -/
def KvClient.Accepted (client : KvClient) (log : List KvExchange) (writes : List KvWrite) : Prop :=
  ∀ write ∈ writes, ∃ exchange ∈ log, client.Carries exchange.request write ∧ exchange.verdict = .ok (some true)

theorem routeAbsent_iff {exchange : KvExchange} (hbulk : exchange.isBulk = true) :
    exchange.RouteAbsent ↔ exchange.verdict = .ok none := by
  rw [KvExchange.verdict, if_pos hbulk]
  constructor
  · rintro ⟨-, response, hreply, hstatus⟩
    rw [hreply, bulkVerdict, gradeBulk, if_pos hstatus]
  · intro hverdict
    cases hreply : exchange.reply with
    | httpError =>
      rw [hreply] at hverdict
      cases hverdict
    | raised name =>
      rw [hreply] at hverdict
      cases hverdict
    | response response =>
      rw [hreply] at hverdict
      exact ⟨hbulk, response, hreply, statusCode_of_gradeBulk_none hverdict⟩

theorem passes_of_verdict {exchange : KvExchange} {done : Bool} (h : exchange.verdict = .ok (some done)) :
    exchange.Passes ↔ done = true := by
  rw [KvExchange.Passes, h]
  simp

theorem not_passes_of_error {exchange : KvExchange} {e : String} (h : exchange.verdict = .error e) :
    ¬exchange.Passes := by
  rw [KvExchange.Passes, h]
  simp

theorem KvClient.Accepted.cons {log : List KvExchange} {writes : List KvWrite} (h : client.Accepted log writes)
    (exchange : KvExchange) : client.Accepted (exchange :: log) writes := by
  intro write hwrite
  obtain ⟨other, hother, hcarries⟩ := h write hwrite
  exact ⟨other, List.mem_cons_of_mem exchange hother, hcarries⟩

/-- Key by key, the flag is true just when all replies pass. -/
theorem oneByOne_reports (hcalls : Calls client call one write) (items : List α) (ok : Bool)
    (log : List KvExchange) :
    ∃ made, (oneByOne one items ok log).1 = log ++ made ∧ (∀ exchange ∈ made, exchange.isBulk = false) ∧
      ((oneByOne one items ok log).2 = .ok true ↔ ok = true ∧ ∀ exchange ∈ made, exchange.Passes) ∧
        ((oneByOne one items ok log).2 = .ok true → client.Accepted made (items.map write)) := by
  induction items generalizing ok log with
  | nil => exact ⟨[], by simp [oneByOne], by simp, by simp [oneByOne], by simp [KvClient.Accepted]⟩
  | cons item items ih =>
    obtain ⟨exchange, result, hone, hverdict, hbulk, hcarries⟩ := hcalls.single item log
    rw [oneByOne, hone]
    cases result with
    | error e => exact ⟨[exchange], rfl, by simpa using hbulk, by simp [not_passes_of_error hverdict], by simp⟩
    | ok done =>
      have hpasses := passes_of_verdict hverdict
      obtain ⟨made, hlog, hsingle, hflag, haccepted⟩ := ih (done && ok) (log ++ [exchange])
      refine ⟨exchange :: made, by simp [hlog], ?_, ?_, ?_⟩
      · intro other hother
        rcases List.mem_cons.1 hother with rfl | hmem
        · exact hbulk
        · exact hsingle other hmem
      · rw [hflag, Bool.and_eq_true, List.forall_mem_cons, hpasses, and_comm (a := done = true), and_assoc]
      · intro htrue
        have hdone : done = true := (Bool.and_eq_true _ _ ▸ (hflag.1 htrue).1).1
        rw [List.map_cons]
        intro other hother
        rcases List.mem_cons.1 hother with rfl | hmem
        · exact ⟨exchange, List.mem_cons_self, hcarries, by rw [hverdict, hdone]; rfl⟩
        · exact (haccepted htrue).cons exchange other hmem

/-- What a run over chunks has come to when its flag is true. -/
def KvClient.Done (client : KvClient) (ok : Bool) (made : List KvExchange) (rest all : List KvWrite) : Prop :=
  (ok = true ∧ (∀ exchange ∈ made, exchange.Passes) ∧ client.Accepted made rest) ∨
    ((∃ exchange ∈ made, exchange.RouteAbsent) ∧ client.Accepted made all)

/-- Chunk by chunk, the flag is true just when the replies that decide pass. -/
theorem byChunks_reports (hcalls : Calls client call one write) (items : List α) (chunks : List (List α))
    (ok : Bool) (log : List KvExchange) :
    ∃ made, (byChunks call one items chunks ok log).1 = log ++ made ∧
      ((byChunks call one items chunks ok log).2 = .ok true ↔
        (ok = true ∧ ∀ exchange ∈ made, exchange.Passes) ∨ ((∃ exchange ∈ made, exchange.RouteAbsent) ∧
          ∀ exchange ∈ made, exchange.isBulk = false → exchange.Passes)) ∧
        ((byChunks call one items chunks ok log).2 = .ok true →
          client.Done ok made (chunks.flatten.map write) (items.map write)) := by
  induction chunks generalizing ok log with
  | nil =>
    exact ⟨[], by simp [byChunks], by simp [byChunks], by simp [byChunks, KvClient.Done, KvClient.Accepted]⟩
  | cons chunk chunks ih =>
    obtain ⟨exchange, hcall, hbulk, hcarries⟩ := hcalls.chunk chunk log
    have habsent := routeAbsent_iff hbulk
    rw [byChunks, hcall]
    cases hverdict : exchange.verdict with
    | error e =>
      have hnot : ¬exchange.RouteAbsent := by
        rw [habsent, hverdict]
        simp
      exact ⟨[exchange], rfl, by simp [not_passes_of_error hverdict, hnot], by simp⟩
    | ok result =>
      cases result with
      | none =>
        obtain ⟨made, hlog, hsingle, hflag, haccepted⟩ := oneByOne_reports hcalls items true (log ++ [exchange])
        have hroute : ∃ other ∈ exchange :: made, other.RouteAbsent :=
          ⟨exchange, List.mem_cons_self, habsent.2 hverdict⟩
        refine ⟨exchange :: made, by simp [hlog], ?_,
          fun htrue => .inr ⟨hroute, (haccepted htrue).cons exchange⟩⟩
        rw [hflag]
        constructor
        · rintro ⟨-, hall⟩
          refine .inr ⟨hroute, ?_⟩
          intro other hother hnot
          rcases List.mem_cons.1 hother with rfl | hmem
          · rw [hbulk] at hnot
            cases hnot
          · exact hall other hmem
        · rintro (⟨-, hall⟩ | ⟨-, hall⟩)
          · exact ⟨rfl, fun other hother => hall other (List.mem_cons_of_mem exchange hother)⟩
          · refine ⟨rfl, fun other hother => ?_⟩
            exact hall other (List.mem_cons_of_mem exchange hother) (hsingle other hother)
      | some done =>
        obtain ⟨made, hlog, hflag, hdone⟩ := ih (done && ok) (log ++ [exchange])
        have hnot : ¬exchange.RouteAbsent := by
          rw [habsent, hverdict]
          simp
        have hpasses := passes_of_verdict hverdict
        refine ⟨exchange :: made, by simp [hlog], ?_, ?_⟩
        · rw [hflag]
          simp only [List.mem_cons, forall_eq_or_imp, exists_eq_or_imp, hpasses, hnot, false_or,
            Bool.and_eq_true, hbulk, Bool.true_eq_false, false_implies, true_and]
          refine or_congr_left ?_
          rw [and_comm (a := done = true), and_assoc]
        · intro htrue
          rcases hdone htrue with ⟨hok, hall, haccepted⟩ | ⟨⟨other, hother, hroute⟩, haccepted⟩
          · obtain ⟨rfl, rfl⟩ := Bool.and_eq_true_iff.1 hok
            refine .inl ⟨rfl, List.forall_mem_cons.2 ⟨hpasses.2 rfl, hall⟩, ?_⟩
            rw [List.flatten_cons, List.map_append]
            intro other hother
            rcases List.mem_append.1 hother with hmem | hmem
            · obtain ⟨item, hitem, rfl⟩ := List.mem_map.1 hmem
              exact ⟨exchange, List.mem_cons_self, hcarries item hitem, hverdict⟩
            · exact haccepted.cons exchange other hmem
          · exact .inr ⟨⟨other, List.mem_cons_of_mem exchange hother, hroute⟩, haccepted.cons exchange⟩

theorem byChunks_unconfigured (hcall : ∀ chunk log, call chunk log = (log, .ok (some false))) (items : List α)
    (chunks : List (List α)) (ok : Bool) (log : List KvExchange) :
    byChunks call one items chunks ok log = (log, .ok (ok && chunks.isEmpty)) := by
  induction chunks generalizing ok with
  | nil => simp [byChunks]
  | cons chunk chunks ih =>
    rw [byChunks, hcall]
    exact (ih (false && ok)).trans (by simp)

/-- A bulk operation is faithful just where its replies do not mislead it. -/
theorem bulk_faithful_iff (hcalls : client.isConfigured = true → Calls client call one write)
    (hunconfigured : client.isConfigured = false → ∀ chunk log, call chunk log = (log, .ok (some false)))
    (items : List α) :
    client.Faithful (bulk call one items) (items.map write) ↔
      ¬client.Misled (bulk call one items []).1 (items.map write) := by
  by_cases hitems : items = []
  · subst hitems
    exact iff_of_true (fun _ write hwrite => absurd hwrite List.not_mem_nil)
      fun ⟨_, _, write, hwrite, _⟩ => absurd hwrite List.not_mem_nil
  have hchunks : ∀ item, item ∈ (PyList.chunks bulkMaxItems items).flatten ↔ item ∈ items :=
    fun item => PyList.mem_flatten_chunks (by decide)
  have hrun : bulk call one items [] = byChunks call one items (PyList.chunks bulkMaxItems items) true [] :=
    if_neg hitems
  rw [KvClient.Faithful, hrun]
  cases hconfigured : client.isConfigured with
  | false =>
    have hne : (PyList.chunks bulkMaxItems items).isEmpty = false := by
      cases hempty : PyList.chunks bulkMaxItems items with
      | nil =>
        obtain ⟨item, hitem⟩ := List.exists_mem_of_ne_nil items hitems
        have hmem := (hchunks item).2 hitem
        rw [hempty] at hmem
        cases hmem
      | cons => rfl
    rw [byChunks_unconfigured (hunconfigured hconfigured), hne]
    refine iff_of_true (fun htrue => by cases htrue) ?_
    rintro ⟨hset, -⟩
    rw [hconfigured] at hset
    cases hset
  | true =>
    obtain ⟨made, hlog, hflag, hdone⟩ := byChunks_reports (hcalls hconfigured) items
      (PyList.chunks bulkMaxItems items) true []
    rw [List.nil_append] at hlog
    rw [hlog]
    constructor
    · rintro hfaithful ⟨-, hsettled, write, hwrite, -, hfailed⟩
      have htrue := hflag.2 (hsettled.imp_left fun hall => ⟨rfl, hall⟩)
      obtain ⟨exchange, hmem, hacknowledged⟩ := hfaithful htrue write hwrite
      exact not_acknowledges (hfailed exchange hmem hacknowledged.1) hacknowledged
    · intro hmisled htrue other hother
      have hsettled : Settled made := (hflag.1 htrue).imp_left And.right
      have haccepted : client.Accepted made (items.map write) := by
        rcases hdone htrue with ⟨-, -, haccepted⟩ | ⟨-, haccepted⟩
        · intro other hother
          obtain ⟨item, hitem, rfl⟩ := List.mem_map.1 hother
          exact haccepted _ (List.mem_map_of_mem ((hchunks item).2 hitem))
        · exact haccepted
      obtain ⟨exchange, hmem, hcarries, hverdict⟩ := haccepted other hother
      by_cases hfailed : exchange.FailedAs2xx
      · by_contra hnone
        refine hmisled ⟨hconfigured, hsettled, other, hother, ⟨exchange, hmem, hcarries, hfailed⟩, ?_⟩
        intro exchange hmem hcarries
        by_contra hnot
        exact hnone ⟨exchange, hmem, acknowledges_of_not hcarries hnot⟩
      · exact ⟨exchange, hmem, acknowledges_of_verdict hcarries hverdict hfailed⟩

end

/-! ## The two operations -/

section

variable {client : KvClient} (api : KvApi)

/-- A single call, with the statuses that its method accepts. -/
theorem exists_request (hconfigured : client.isConfigured = true) (method key : String) (body : KvBody)
    (log : List KvExchange)
    (hbody : KvExchange.isBulk ⟨⟨method, client.valuePath key, body⟩, .httpError⟩ = false) :
    ∃ (exchange : KvExchange) (result : Except String Bool),
      client.request api method key body (if method = "DELETE" then [404] else []) log =
          (log ++ [exchange], result) ∧
        exchange.verdict = result.map some ∧ exchange.isBulk = false ∧
          exchange.request = ⟨method, client.valuePath key, body⟩ := by
  refine ⟨client.send api ⟨method, client.valuePath key, body⟩ log,
    singleVerdict (if method = "DELETE" then [404] else [])
      (client.send api ⟨method, client.valuePath key, body⟩ log).reply, ?_, ?_, hbody, rfl⟩
  · rw [KvClient.request, if_pos hconfigured]
  · exact if_neg (by rw [Bool.not_eq_true]; exact hbody)

theorem calls_bulkPut (hconfigured : client.isConfigured = true) :
    Calls client (fun chunk => client.bulkRequest api "PUT" "bulk" (.entries chunk)) (client.put api) .put where
  chunk chunk log := by
    refine ⟨client.send api ⟨"PUT", client.bulkPath "bulk", .entries chunk⟩ log, ?_, rfl, ?_⟩
    · rw [KvClient.bulkRequest, if_pos hconfigured]
      rfl
    · exact fun entry hentry => .inl ⟨chunk, rfl, hentry⟩
  single entry log := by
    obtain ⟨exchange, result, hcall, hverdict, hbulk, hrequest⟩ :=
      exists_request api hconfigured "PUT" entry.key (.content entry.value entry.expirationTtl) log rfl
    rw [if_neg put_ne_delete] at hcall
    exact ⟨exchange, result, hcall, hverdict, hbulk, .inr hrequest⟩

theorem calls_bulkDelete (hconfigured : client.isConfigured = true) :
    Calls client (fun chunk => client.bulkRequest api "POST" "bulk/delete" (.keys chunk)) (client.delete api)
      .delete where
  chunk chunk log := by
    refine ⟨client.send api ⟨"POST", client.bulkPath "bulk/delete", .keys chunk⟩ log, ?_, rfl, ?_⟩
    · rw [KvClient.bulkRequest, if_pos hconfigured]
      rfl
    · exact fun key hkey => .inl ⟨chunk, rfl, hkey⟩
  single key log := by
    obtain ⟨exchange, result, hcall, hverdict, hbulk, hrequest⟩ :=
      exists_request api hconfigured "DELETE" key .empty log rfl
    rw [if_pos rfl] at hcall
    exact ⟨exchange, result, hcall, hverdict, hbulk, .inr hrequest⟩

theorem bulkRequest_unconfigured (hconfigured : client.isConfigured = false) (method subpath : String)
    (body : KvBody) (log : List KvExchange) :
    client.bulkRequest api method subpath body log = (log, .ok (some false)) := by
  simp [KvClient.bulkRequest, hconfigured]

/-- The writes of `bulk_put`. -/
def putWrites (pairs : List (String × String)) (expirationTtl : Option Int) : List KvWrite :=
  pairs.map fun pair => .put ⟨pair.1, pair.2, expirationTtl⟩

/-- Whatever the API answers to which call, the flag of a bulk operation stands for the acknowledgement of
every key, unless some key failed with a status of success and was not acknowledged beside that. -/
theorem bulk_reports_iff (client : KvClient) (api : KvApi) :
    (∀ pairs expirationTtl,
      client.Faithful (client.bulkPut api pairs expirationTtl) (putWrites pairs expirationTtl) ↔
        ¬client.Misled (client.bulkPut api pairs expirationTtl []).1 (putWrites pairs expirationTtl)) ∧
      ∀ keys, client.Faithful (client.bulkDelete api keys) (keys.map .delete) ↔
        ¬client.Misled (client.bulkDelete api keys []).1 (keys.map .delete) := by
  constructor
  · intro pairs expirationTtl
    have hwrites : putWrites pairs expirationTtl =
        (pairs.map fun pair => (⟨pair.1, pair.2, expirationTtl⟩ : KvEntry)).map .put := by
      simp [putWrites]
    rw [hwrites]
    exact bulk_faithful_iff (calls_bulkPut api)
      (fun hconfigured chunk => bulkRequest_unconfigured api hconfigured "PUT" "bulk" (.entries chunk)) _
  · intro keys
    exact bulk_faithful_iff (calls_bulkDelete api)
      (fun hconfigured chunk => bulkRequest_unconfigured api hconfigured "POST" "bulk/delete" (.keys chunk)) keys

end

/-- A client of a namespace. -/
def namespaceClient : KvClient where
  apiToken := some "token"
  accountId := some "account"
  namespaceId := some "namespace"

/-- A failure, as the API words it. -/
def failure : KvResponse :=
  ⟨200, some (.obj [("success", .bool false), ("errors", .arr [.str "not authorised"]), ("result", .null)])⟩

/-- An API that fails every request with the status 200. -/
def failingApi : KvApi := fun _ _ _ => .response failure

theorem failed_failure : failure.Failed := ⟨_, rfl, rfl⟩

/-- A deletion that has failed is reported as done. -/
theorem failure_reported_as_done :
    (namespaceClient.bulkDelete failingApi ["cache:spoo.me:abc"] []).2 = .ok true ∧
      ¬namespaceClient.Faithful (namespaceClient.bulkDelete failingApi ["cache:spoo.me:abc"])
        [.delete "cache:spoo.me:abc"] := by
  have hrun : namespaceClient.bulkDelete failingApi ["cache:spoo.me:abc"] [] =
      ([⟨⟨"POST", namespaceClient.bulkPath "bulk/delete", .keys ["cache:spoo.me:abc"]⟩, .response failure⟩],
        .ok true) := rfl
  refine ⟨by rw [hrun], ?_⟩
  intro hfaithful
  obtain ⟨exchange, hmem, hacknowledged⟩ := hfaithful (by rw [hrun]) _ List.mem_cons_self
  rw [hrun] at hmem
  obtain rfl := List.mem_singleton.1 hmem
  exact not_acknowledges (.inl ⟨failure, rfl, by decide, failed_failure⟩) hacknowledged

end CloudflareKv

end Spoo
