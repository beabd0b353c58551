import Spoo.Infrastructure.SafeFetch
import Spoo.Lib.Fallible

/-!
# Where a fetch connects, and whether the chunks of a body matter

The network is an adversary: what it answers may change from one lookup to the next and depends on all that was done
before. A connection goes to an address that the lookups right before it gave, all of them public. The marker is
looked for in a body before the cap is, in all that has been read. A marker that ends behind the cap is found when its
chunk comes in one piece with what is before it, and the cap is met first when it does not.
-/

namespace Spoo

open Search

/-! ## Where a fetch connects -/

section

variable {lib : NetLib} {world : World} {host ip : String} {trace done : List NetEvent}

/-- The texts of an answer. -/
def DnsAnswer.texts : DnsAnswer → List String
  | .addresses texts => texts
  | _ => []

def NetEvent.isConnect : NetEvent → Bool
  | .lookup .. => false
  | .connect _ => true

/-- An address of a host is checked: it is the host itself, or all that the last two lookups gave are public
and it is the first of them. -/
inductive Checked (lib : NetLib) (host ip : String) (before : List NetEvent) : Prop where
  | literal (haddress : (lib.ipAddress host).isSome = true) (hip : ip = host)
  | looked (rest : List NetEvent) (a aaaa : DnsAnswer) (hname : lib.ipAddress host = none)
      (hbefore : before = rest ++ [.lookup host .a a, .lookup host .aaaa aaaa])
      (hall : ∀ text ∈ a.texts ++ aaaa.texts, isPublic lib text = .ok true)
      (hip : (a.texts ++ aaaa.texts).head? = some ip)

/-- A connection of a hop: the URL of the hop is an https URL, its host is replaced by an address that is
public and checked, and its name is that of the certificate. -/
structure SafeConnection (lib : NetLib) (before : List NetEvent) (request : FetchRequest) (parsed : HttpxUrl)
    (ip : String) : Prop where
  parsed_url : ∃ url, lib.parseUrl url = .ok parsed
  scheme : parsed.scheme = "https"
  pinned : request.url = { parsed with host := bracket ip }
  name : request.sniHostname = parsed.host
  isPublic : isPublic lib ip = .ok true
  checked : Checked lib parsed.host ip before

/-- What is done is safe, with so many connections at most. -/
structure SafeRun (lib : NetLib) (done : List NetEvent) (connections : Nat) : Prop where
  bounded : done.countP NetEvent.isConnect ≤ connections
  safe : ∀ before request after, done = before ++ .connect request :: after →
    ∃ parsed ip, SafeConnection lib before request parsed ip

/-! ## Runs -/

theorem Checked.extend {before : List NetEvent} (h : Checked lib host ip before) (earlier : List NetEvent) :
    Checked lib host ip (earlier ++ before) := by
  cases h with
  | literal haddress hip => exact .literal haddress hip
  | looked rest a aaaa hname hbefore hall hip =>
    refine .looked (earlier ++ rest) a aaaa hname ?_ hall hip
    rw [hbefore, List.append_assoc]

theorem SafeConnection.extend {before : List NetEvent} {request : FetchRequest} {parsed : HttpxUrl}
    (h : SafeConnection lib before request parsed ip) (earlier : List NetEvent) :
    SafeConnection lib (earlier ++ before) request parsed ip :=
  ⟨h.parsed_url, h.scheme, h.pinned, h.name, h.isPublic, h.checked.extend earlier⟩

/-- Nothing but lookups. -/
theorem SafeRun.of_no_connect (h : ∀ event ∈ done, event.isConnect = false) (connections : Nat) :
    SafeRun lib done connections := by
  constructor
  · have hnone : done.countP NetEvent.isConnect = 0 :=
      List.countP_eq_zero.2 fun event hevent => by rw [h event hevent]; exact Bool.false_ne_true
    omega
  · intro before request after hdone
    have hmem : NetEvent.connect request ∈ done := by
      rw [hdone]
      exact List.mem_append_right before List.mem_cons_self
    cases h _ hmem

/-- Lookups and a connection. -/
theorem SafeRun.of_connect {request : FetchRequest} {parsed : HttpxUrl}
    (h : ∀ event ∈ done, event.isConnect = false) (hsafe : SafeConnection lib done request parsed ip) :
    SafeRun lib (done ++ [.connect request]) 1 := by
  constructor
  · have hnone : done.countP NetEvent.isConnect = 0 :=
      List.countP_eq_zero.2 fun event hevent => by rw [h event hevent]; exact Bool.false_ne_true
    rw [List.countP_append, hnone, List.countP_singleton]
    rfl
  · intro before other after hdone
    rcases List.append_eq_append_iff.1 hdone with ⟨middle, hbefore, hlast⟩ | ⟨middle, hbefore, hlast⟩
    · cases middle with
      | nil =>
        rw [List.append_nil] at hbefore
        cases hlast
        rw [hbefore]
        exact ⟨parsed, ip, hsafe⟩
      | cons event middle =>
        have hnil : middle ++ .connect other :: after = [] := (List.cons.inj hlast).2.symm
        exact absurd hnil (List.append_ne_nil_of_right_ne_nil middle (List.cons_ne_nil _ _))
    · cases middle with
      | nil =>
        rw [List.append_nil] at hbefore
        cases hlast
        rw [← hbefore]
        exact ⟨parsed, ip, hsafe⟩
      | cons event middle =>
        have hevent : NetEvent.connect other = event := (List.cons.inj hlast).1
        have hmem : event ∈ done := by
          rw [hbefore]
          exact List.mem_append_right before List.mem_cons_self
        have hlookup := h event hmem
        rw [← hevent] at hlookup
        cases hlookup

theorem SafeRun.append {done' : List NetEvent} {m n : Nat} (h : SafeRun lib done m)
    (h' : SafeRun lib done' n) : SafeRun lib (done ++ done') (m + n) := by
  constructor
  · rw [List.countP_append]
    exact Nat.add_le_add h.bounded h'.bounded
  · intro before request after hdone
    rcases List.append_eq_append_iff.1 hdone with ⟨middle, hbefore, hlast⟩ | ⟨middle, hbefore, hlast⟩
    · obtain ⟨parsed, ip, hsafe⟩ := h'.safe middle request after hlast
      rw [hbefore]
      exact ⟨parsed, ip, hsafe.extend done⟩
    · cases middle with
      | nil =>
        rw [List.append_nil] at hbefore
        obtain ⟨parsed, ip, hsafe⟩ := h'.safe [] request after hlast.symm
        have hextended := hsafe.extend done
        rw [List.append_nil, hbefore] at hextended
        exact ⟨parsed, ip, hextended⟩
      | cons event middle =>
        obtain ⟨hevent, -⟩ := List.cons.inj hlast
        rw [← hevent] at hbefore
        exact h.safe before request middle hbefore

theorem SafeRun.mono {m n : Nat} (h : SafeRun lib done m) (hle : m ≤ n) : SafeRun lib done n :=
  ⟨h.bounded.trans hle, h.safe⟩

/-! ## Lookups -/

/-- The lookups of a loop were added to its trace, and what they gave, where it comes to its end, to its
addresses. -/
def LookupsAdded (host : String) (rdtypes : List RecordType) (ips : List String) (trace : List NetEvent)
    (result : List NetEvent × Except FetchError (List String)) : Prop :=
  ∃ done, result.1 = trace ++ done ∧ (∀ event ∈ done, event.isConnect = false) ∧
    ∀ found, result.2 = .ok found → ∃ answers : List DnsAnswer, answers.length = rdtypes.length ∧
      done = List.zipWith (NetEvent.lookup host) rdtypes answers ∧
      found = ips ++ answers.flatMap DnsAnswer.texts

section

variable {host : String} {rdtype : RecordType} {rdtypes : List RecordType} {answer : DnsAnswer}
  {ips : List String} {trace : List NetEvent}

/-- The loop goes on with what an answer added. -/
theorem LookupsAdded.cons {result : List NetEvent × Except FetchError (List String)}
    (h : LookupsAdded host rdtypes (ips ++ answer.texts) (trace ++ [.lookup host rdtype answer]) result) :
    LookupsAdded host (rdtype :: rdtypes) ips trace result := by
  obtain ⟨done, htrace, hlookups, hfound⟩ := h
  refine ⟨.lookup host rdtype answer :: done, ?_, ?_, fun found hok => ?_⟩
  · rw [htrace, List.append_assoc, List.singleton_append]
  · intro event hevent
    rcases List.mem_cons.1 hevent with rfl | hevent
    · rfl
    · exact hlookups event hevent
  · obtain ⟨answers, hlength, hdone, htotal⟩ := hfound found hok
    refine ⟨answer :: answers, ?_, ?_, ?_⟩
    · rw [List.length_cons, List.length_cons, hlength]
    · rw [List.zipWith_cons_cons, hdone]
    · rw [htotal, List.flatMap_cons, List.append_assoc]

/-- The loop is left. -/
theorem LookupsAdded.of_error (e : FetchError) :
    LookupsAdded host rdtypes ips trace (trace ++ [.lookup host rdtype answer], .error e) := by
  refine ⟨[.lookup host rdtype answer], rfl, fun event hevent => ?_, fun found hfound => by cases hfound⟩
  rw [List.mem_singleton.1 hevent]
  rfl

end

/-- The lookups of a loop, and what they gave. -/
theorem lookupAll_spec (world : World) (host : String) (rdtypes : List RecordType) :
    ∀ (ips : List String) (trace : List NetEvent),
      LookupsAdded host rdtypes ips trace (lookupAll world host rdtypes ips trace) := by
  induction rdtypes with
  | nil =>
    intro ips trace
    refine ⟨[], (List.append_nil trace).symm, by simp, fun found hfound => ?_⟩
    cases hfound
    exact ⟨[], rfl, rfl, (List.append_nil ips).symm⟩
  | cons rdtype rdtypes ih =>
    intro ips trace
    rw [lookupAll]
    generalize world.dns trace host rdtype = answer
    have hgoes (texts : List String) (htexts : answer.texts = texts) :
        LookupsAdded host (rdtype :: rdtypes) ips trace
          (lookupAll world host rdtypes (ips ++ texts) (trace ++ [.lookup host rdtype answer])) := by
      rw [← htexts]
      exact (ih _ _).cons
    cases answer with
    | addresses texts => exact hgoes texts rfl
    | noAnswer =>
      have hsame := hgoes [] rfl
      rwa [List.append_nil] at hsame
    | nxdomain =>
      have hsame := hgoes [] rfl
      rwa [List.append_nil] at hsame
    | timeout => exact .of_error _
    | failure name => exact .of_error _

theorem allPublic_eq_ok {ips : List String} (h : allPublic lib ips = .ok true) :
    ∀ text ∈ ips, isPublic lib text = .ok true := by
  induction ips with
  | nil => exact fun text htext => absurd htext List.not_mem_nil
  | cons first ips ih =>
    rw [allPublic] at h
    obtain ⟨b, hfirst, hrest⟩ := Fallible.bind_eq_ok.1 h
    cases b with
    | false => cases hrest
    | true =>
      intro text htext
      rcases List.mem_cons.1 htext with rfl | htext
      · exact hfirst
      · exact ih hrest text htext

/-- The address that is picked is the first one, and all of them are public. -/
theorem pickAddress_eq_ok {ips : List String} (h : pickAddress lib ips = .ok ip) :
    ips.head? = some ip ∧ ∀ text ∈ ips, isPublic lib text = .ok true := by
  cases ips with
  | nil => cases h
  | cons first ips =>
    rw [pickAddress] at h
    obtain ⟨b, hall, hpicked⟩ := Fallible.bind_eq_ok.1 h
    cases b with
    | false => cases hpicked
    | true =>
      cases hpicked
      exact ⟨rfl, allPublic_eq_ok hall⟩

/-- A host comes to an address that is public and checked by the lookups of this call. -/
theorem resolvePublicIp_spec (lib : NetLib) (world : World) (host : String) (trace : List NetEvent) :
    ∃ done, (resolvePublicIp lib world host trace).1 = trace ++ done ∧
      (∀ event ∈ done, event.isConnect = false) ∧
      ∀ ip, (resolvePublicIp lib world host trace).2 = .ok ip →
        isPublic lib ip = .ok true ∧ Checked lib host ip done := by
  unfold resolvePublicIp
  cases hhost : lib.ipAddress host with
  | some addr =>
    refine ⟨[], (List.append_nil trace).symm, by simp, fun ip hip => ?_⟩
    dsimp only at hip
    split_ifs at hip with hpublic
    cases hip
    refine ⟨?_, .literal (by rw [hhost]; rfl) rfl⟩
    rw [isPublic, hhost]
    exact congrArg Except.ok hpublic
  | none =>
    obtain ⟨done, htrace, hlookups, hfound⟩ := lookupAll_spec world host [.a, .aaaa] [] trace
    refine ⟨done, htrace, hlookups, fun ip hip => ?_⟩
    obtain ⟨found, hok, hpicked⟩ := Fallible.bind_eq_ok.1 hip
    obtain ⟨answers, hlength, hdone, htotal⟩ := hfound found hok
    obtain ⟨hhead, hall⟩ := pickAddress_eq_ok hpicked
    obtain ⟨a, aaaa, rfl⟩ := List.length_eq_two.1 hlength
    have htexts : found = a.texts ++ aaaa.texts := by simpa using htotal
    subst htexts
    have hmem : ip ∈ a.texts ++ aaaa.texts := List.mem_of_mem_head? hhead
    exact ⟨hall ip hmem, .looked [] a aaaa hhost hdone hall hhead⟩

/-! ## Calls -/

/-- The lookups for the host of an https URL, and then no connection or one to the address that they come to. -/
theorem resolved_safe {url : String} {parsed : HttpxUrl} {after : List NetEvent} (world : World)
    (hparse : lib.parseUrl url = .ok parsed) (hscheme : parsed.scheme = "https") (trace : List NetEvent)
    (hafter : after = (resolvePublicIp lib world parsed.host trace).1 ∨ ∃ ip request,
      (resolvePublicIp lib world parsed.host trace).2 = .ok ip ∧
        request.url = { parsed with host := bracket ip } ∧ request.sniHostname = parsed.host ∧
          after = (resolvePublicIp lib world parsed.host trace).1 ++ [.connect request]) :
    ∃ done, after = trace ++ done ∧ SafeRun lib done 1 := by
  obtain ⟨done, htrace, hlookups, hchecked⟩ := resolvePublicIp_spec lib world parsed.host trace
  rcases hafter with rfl | ⟨ip, request, hip, hpinned, hname, rfl⟩
  · exact ⟨done, htrace, .of_no_connect hlookups 1⟩
  · obtain ⟨hpublic, hcheck⟩ := hchecked ip hip
    refine ⟨done ++ [.connect request], by rw [htrace, List.append_assoc], ?_⟩
    exact .of_connect hlookups ⟨⟨url, hparse⟩, hscheme, hpinned, hname, hpublic, hcheck⟩

/-- One turn of the loop: lookups, and at most one connection. -/
theorem fetchHop_safe (lib : NetLib) (world : World) (options : FetchOptions) (url : String)
    (trace : List NetEvent) : ∃ done, (fetchHop lib world options url trace).1 = trace ++ done ∧
      SafeRun lib done 1 := by
  have hnothing : SafeRun lib [] 1 := .of_no_connect (by simp) 1
  unfold fetchHop
  cases hparse : lib.parseUrl url with
  | error message => exact ⟨[], (List.append_nil trace).symm, hnothing⟩
  | ok parsed =>
    dsimp only
    by_cases hscheme : parsed.scheme = "https"
    · rw [if_neg (not_not_intro hscheme)]
      refine resolved_safe world hparse hscheme trace ?_
      cases resolvePublicIp lib world parsed.host trace with
      | mk after result =>
        cases result with
        | error e => exact .inl rfl
        | ok ip =>
          dsimp only
          cases world.send _ _ <;> exact .inr ⟨ip, _, rfl, rfl, rfl, rfl⟩
    · rw [if_pos hscheme]
      exact ⟨[], (List.append_nil trace).symm, hnothing⟩

/-- The loop connects once in each turn at most. -/
theorem fetchHops_safe (lib : NetLib) (world : World) (options : FetchOptions) (hops : Nat) :
    ∀ (url : String) (trace : List NetEvent), ∃ done,
      (fetchHops lib world options hops url trace).1 = trace ++ done ∧ SafeRun lib done hops := by
  induction hops with
  | zero => exact fun url trace => ⟨[], (List.append_nil trace).symm, .of_no_connect (by simp) 0⟩
  | succ hops ih =>
    intro url trace
    obtain ⟨done, htrace, hrun⟩ := fetchHop_safe lib world options url trace
    rw [fetchHops]
    cases hhop : fetchHop lib world options url trace with
    | mk after result =>
      rw [hhop] at htrace
      dsimp only at htrace
      subst htrace
      cases result with
      | error e => exact ⟨done, rfl, hrun.mono (Nat.le_add_left 1 hops)⟩
      | ok hopEnd =>
        cases hopEnd with
        | fetched body => exact ⟨done, rfl, hrun.mono (Nat.le_add_left 1 hops)⟩
        | redirect next =>
          obtain ⟨later, hlater, hsafe⟩ := ih next (trace ++ done)
          refine ⟨done ++ later, ?_, ?_⟩
          · dsimp only
            rw [hlater, List.append_assoc]
          · rw [Nat.add_comm]
            exact hrun.append hsafe

theorem postPublic_safe (lib : NetLib) (world : World) (url body : String) (headers : List (String × String))
    (snippetBytes : Nat) (trace : List NetEvent) : ∃ done,
      (postPublic lib world url body headers snippetBytes trace).1 = trace ++ done ∧ SafeRun lib done 1 := by
  have hnothing : SafeRun lib [] 1 := .of_no_connect (by simp) 1
  unfold postPublic
  cases hparse : lib.parseUrl url with
  | error message => exact ⟨[], (List.append_nil trace).symm, hnothing⟩
  | ok parsed =>
    dsimp only
    by_cases hscheme : parsed.scheme = "https"
    · rw [if_neg (not_not_intro hscheme)]
      refine resolved_safe world hparse hscheme trace ?_
      cases resolvePublicIp lib world parsed.host trace with
      | mk after result =>
        cases result with
        | error e => cases e <;> exact .inl rfl
        | ok ip =>
          dsimp only
          cases world.send _ _ <;> exact .inr ⟨ip, _, rfl, rfl, rfl, rfl⟩
    · rw [if_pos hscheme]
      exact ⟨[], (List.append_nil trace).symm, hnothing⟩

/-- Whatever the network answers, a fetch connects at most once more than it may follow redirects and a post
connects once at most, each time to a public address that was checked for the host of an https URL. -/
theorem fetches_are_safe (lib : NetLib) (world : World) :
    (∀ (options : FetchOptions) (url : String) (trace : List NetEvent), ∃ done,
      (fetchPublic lib world options url trace).1 = trace ++ done ∧
        SafeRun lib done (options.maxRedirects + 1)) ∧
    ∀ (url body : String) (headers : List (String × String)) (snippetBytes : Nat) (trace : List NetEvent),
      ∃ done, (postPublic lib world url body headers snippetBytes trace).1 = trace ++ done ∧
        SafeRun lib done 1 :=
  ⟨fun options url trace => fetchHops_safe lib world options (options.maxRedirects + 1) url trace,
    fun url body headers snippetBytes trace =>
      postPublic_safe lib world url body headers snippetBytes trace⟩

end

/-! ## Whether the chunks of a body matter -/

variable {maxBytes : Nat} {truncateOverCap : Bool} {stopAfter : Option (List UInt8)} {body : List UInt8}

/-- What a body under a cap comes to, with no marker in it. -/
def cappedBody (maxBytes : Nat) (truncateOverCap : Bool) (body : List UInt8) :
    Except FetchError (List UInt8) :=
  if maxBytes < body.length then
    if truncateOverCap then .ok (body.take maxBytes) else .error (.hard "body over cap")
  else .ok body

/-- A body that goes over the cap early goes over it in the end. -/
theorem cappedBody_append {buf : List UInt8} (rest : List UInt8) (h : maxBytes < buf.length) :
    cappedBody maxBytes truncateOverCap (buf ++ rest) = cappedBody maxBytes truncateOverCap buf := by
  have hlength : maxBytes < (buf ++ rest).length := by
    rw [List.length_append]
    omega
  unfold cappedBody
  rw [if_pos h, if_pos hlength, List.take_append_of_le_length h.le]

/-- No marker is found in what has been read. -/
def NothingFound (stopAfter : Option (List UInt8)) (buf : List UInt8) : Prop :=
  ∀ marker ∈ stopAfter, find marker buf = none

/-- What the loop looks for in the next buffer: it misses nothing by starting late. -/
theorem findFrom_searched {marker buf : List UInt8} (chunk : List UInt8)
    {searched : Nat} (hsearched : searched ≤ buf.length)
    (hnone : searched = 0 ∨ find marker buf = none) :
    findFrom marker (searched - marker.length) (buf ++ chunk) = find marker (buf ++ chunk) := by
  refine findFrom_eq ?_ fun j hj hoccurs => ?_
  · rw [List.length_append]
    omega
  · rcases hnone with rfl | hnone
    · omega
    · exact find_eq_none_iff.1 hnone j (hoccurs.of_append (by omega))

/-- One chunk. -/
theorem readBodyFrom_cons {buf : List UInt8} (chunk : List UInt8) (chunks : List (List UInt8))
    {searched : Nat} (hsearched : searched ≤ buf.length)
    (hnone : searched = 0 ∨ NothingFound stopAfter buf) :
    readBodyFrom maxBytes truncateOverCap stopAfter buf searched (chunk :: chunks) =
      match stopAfter.bind fun marker => firstEnd marker (buf ++ chunk) with
      | some stop => .ok ((buf ++ chunk).take stop)
      | none =>
        if maxBytes < (buf ++ chunk).length then cappedBody maxBytes truncateOverCap (buf ++ chunk)
        else readBodyFrom maxBytes truncateOverCap stopAfter (buf ++ chunk) (buf ++ chunk).length chunks := by
  have hfound : (stopAfter.bind fun marker =>
      (findFrom marker (searched - marker.length) (buf ++ chunk)).map (· + marker.length)) =
        stopAfter.bind fun marker => firstEnd marker (buf ++ chunk) := by
    cases stopAfter with
    | none => rfl
    | some marker =>
      have hmarker := findFrom_searched chunk hsearched (hnone.imp_right fun h => h marker rfl)
      simp only [Option.bind_some, hmarker, firstEnd]
  rw [readBodyFrom, hfound]
  cases stopAfter.bind fun marker => firstEnd marker (buf ++ chunk) with
  | some stop => rfl
  | none =>
    dsimp only
    by_cases hover : maxBytes < (buf ++ chunk).length
    · rw [if_pos hover, if_pos hover, cappedBody, if_pos hover]
    · rw [if_neg hover, if_neg hover]

/-- A body with no marker in it. -/
theorem readBodyFrom_of_nothingFound (chunks : List (List UInt8)) :
    ∀ {buf : List UInt8} {searched : Nat}, searched ≤ buf.length →
      searched = 0 ∨ NothingFound stopAfter buf → buf.length ≤ maxBytes →
      NothingFound stopAfter (buf ++ chunks.flatten) →
      readBodyFrom maxBytes truncateOverCap stopAfter buf searched chunks =
        cappedBody maxBytes truncateOverCap (buf ++ chunks.flatten) := by
  induction chunks with
  | nil =>
    intro buf searched _ _ hcap _
    rw [List.flatten_nil, List.append_nil, cappedBody, if_neg (Nat.not_lt.2 hcap), readBodyFrom]
  | cons chunk chunks ih =>
    intro buf searched hsearched hnone _ hbody
    rw [List.flatten_cons, ← List.append_assoc] at hbody ⊢
    have hread : NothingFound stopAfter (buf ++ chunk) := fun marker hmarker =>
      find_eq_none_iff.2 fun i hi => find_eq_none_iff.1 (hbody marker hmarker) i (hi.append chunks.flatten)
    have hstop : (stopAfter.bind fun marker => firstEnd marker (buf ++ chunk)) = none := by
      cases stopAfter with
      | none => rfl
      | some marker => rw [Option.bind_some, firstEnd, hread marker rfl, Option.map_none]
    rw [readBodyFrom_cons chunk chunks hsearched hnone, hstop]
    dsimp only
    split_ifs with hover
    · exact (cappedBody_append chunks.flatten hover).symm
    · exact ih (le_refl _) (.inr hread) (Nat.not_lt.1 hover) hbody

/-- A body whose first marker ends within the cap. -/
theorem readBodyFrom_of_firstEnd {marker : List UInt8} {stop : Nat} (hstop : stop ≤ maxBytes)
    (chunks : List (List UInt8)) :
    ∀ {buf : List UInt8} {searched : Nat}, searched ≤ buf.length →
      searched = 0 ∧ buf = [] ∨ find marker buf = none →
      firstEnd marker (buf ++ chunks.flatten) = some stop →
      readBodyFrom maxBytes truncateOverCap (some marker) buf searched chunks =
        .ok ((buf ++ chunks.flatten).take stop) := by
  induction chunks with
  | nil =>
    intro buf searched _ hnone hfirst
    rw [List.flatten_nil, List.append_nil] at hfirst ⊢
    rcases hnone with ⟨-, rfl⟩ | hnone
    · rw [List.take_nil, readBodyFrom]
    · rw [firstEnd, hnone] at hfirst
      cases hfirst
  | cons chunk chunks ih =>
    intro buf searched hsearched hnone hfirst
    rw [List.flatten_cons, ← List.append_assoc] at hfirst ⊢
    have hstart : searched = 0 ∨ NothingFound (some marker) buf := by
      refine hnone.imp And.left fun hnone other hother => ?_
      cases hother
      exact hnone
    rw [readBodyFrom_cons chunk chunks hsearched hstart, Option.bind_some]
    cases hread : find marker (buf ++ chunk) with
    | some i =>
      have hhere : firstEnd marker (buf ++ chunk) = some stop := by
        rw [firstEnd, find_append hread] at hfirst
        rw [firstEnd, hread, hfirst]
      rw [hhere]
      dsimp only
      rw [List.take_append_of_le_length (firstEnd_le hhere)]
    | none =>
      have hbefore := lt_firstEnd_of_find_eq_none hread hfirst
      have hhere : firstEnd marker (buf ++ chunk) = none := by rw [firstEnd, hread, Option.map_none]
      rw [hhere]
      dsimp only
      rw [if_neg (by omega)]
      exact ih (le_refl _) (.inr hread) hfirst

/-- The first marker ends within the cap, if there is one. -/
def MarkerWithinCap (body : List UInt8) (maxBytes : Nat) (stopAfter : Option (List UInt8)) : Prop :=
  ∀ marker ∈ stopAfter, ∀ stop ∈ firstEnd marker body, stop ≤ maxBytes

/-- What does not depend on the chunks of a body. -/
structure ReadsAsOne (body : List UInt8) (maxBytes : Nat) (truncateOverCap : Bool)
    (stopAfter : Option (List UInt8)) : Prop where
  same : ∀ chunks chunks' : List (List UInt8), chunks.flatten = body → chunks'.flatten = body →
    readBody chunks maxBytes truncateOverCap stopAfter = readBody chunks' maxBytes truncateOverCap stopAfter
  within_cap : ∀ (chunks : List (List UInt8)) (data : List UInt8), chunks.flatten = body →
    readBody chunks maxBytes truncateOverCap stopAfter = .ok data → data.length ≤ maxBytes
  found : ∀ marker ∈ stopAfter, ∀ i, OccursAt marker body i → i + marker.length ≤ maxBytes →
    ∀ chunks : List (List UInt8), chunks.flatten = body → ∃ first ≤ i, OccursAt marker body first ∧
      readBody chunks maxBytes truncateOverCap stopAfter = .ok (body.take (first + marker.length))

theorem length_cappedBody {data : List UInt8} (h : cappedBody maxBytes truncateOverCap body = .ok data) :
    data.length ≤ maxBytes := by
  unfold cappedBody at h
  split_ifs at h with hover
  · cases h
    rw [List.length_take]
    exact Nat.min_le_left _ _
  · cases h
    exact Nat.not_lt.1 hover

/-- What a read comes to, where the marker is within the cap. -/
theorem readBody_eq (h : MarkerWithinCap body maxBytes stopAfter) {chunks : List (List UInt8)}
    (hchunks : chunks.flatten = body) : readBody chunks maxBytes truncateOverCap stopAfter =
      match stopAfter.bind fun marker => firstEnd marker body with
      | some stop => .ok (body.take stop)
      | none => cappedBody maxBytes truncateOverCap body := by
  subst hchunks
  cases hstop : stopAfter.bind fun marker => firstEnd marker chunks.flatten with
  | some stop =>
    obtain ⟨marker, hmarker, hfirst⟩ := Option.bind_eq_some_iff.1 hstop
    subst hmarker
    exact readBodyFrom_of_firstEnd (h marker rfl stop hfirst) chunks (le_refl 0) (.inl ⟨rfl, rfl⟩) hfirst
  | none =>
    have hnone : NothingFound stopAfter chunks.flatten := by
      intro marker hmarker
      have hfirst := Option.bind_eq_none_iff.1 hstop marker hmarker
      exact Option.map_eq_none_iff.1 hfirst
    exact readBodyFrom_of_nothingFound chunks (le_refl 0) (.inl rfl) (Nat.zero_le _) hnone

/-- A body in one piece: the marker is found before the cap is looked at. -/
theorem readBody_whole {marker : List UInt8} {stop : Nat} (h : firstEnd marker body = some stop) :
    readBody [body] maxBytes truncateOverCap (some marker) = .ok (body.take stop) := by
  rw [readBody, readBodyFrom_cons body [] (le_refl 0) (.inl rfl), Option.bind_some, List.nil_append, h]

/-- How a body is cut into chunks does not matter, the cap holds and the marker is found if and only if the
first marker, where there is one, ends within the cap. -/
theorem reads_as_one_iff (body : List UInt8) (maxBytes : Nat) (truncateOverCap : Bool)
    (stopAfter : Option (List UInt8)) :
    ReadsAsOne body maxBytes truncateOverCap stopAfter ↔ MarkerWithinCap body maxBytes stopAfter := by
  constructor
  · intro h marker hmarker stop hstop
    cases hmarker
    have hlength := h.within_cap [body] (body.take stop) (List.flatten_singleton) (readBody_whole hstop)
    rwa [List.length_take, Nat.min_eq_left (firstEnd_le hstop)] at hlength
  · intro h
    refine ⟨fun chunks chunks' hchunks hchunks' => ?_, fun chunks data hchunks hdata => ?_, ?_⟩
    · rw [readBody_eq h hchunks, readBody_eq h hchunks']
    · rw [readBody_eq h hchunks] at hdata
      cases hstop : stopAfter.bind fun marker => firstEnd marker body with
      | some stop =>
        rw [hstop] at hdata
        obtain ⟨marker, hmarker, hfirst⟩ := Option.bind_eq_some_iff.1 hstop
        cases hdata
        rw [List.length_take]
        exact (Nat.min_le_left _ _).trans (h marker hmarker stop hfirst)
      | none =>
        rw [hstop] at hdata
        exact length_cappedBody hdata
    · intro marker hmarker i hoccurs hend chunks hchunks
      cases hmarker
      cases hfound : find marker body with
      | none => exact absurd hoccurs (find_eq_none_iff.1 hfound i)
      | some first =>
        obtain ⟨hfirst, hbefore⟩ := find_eq_some_iff.1 hfound
        refine ⟨first, Nat.not_lt.1 fun hlt => hbefore i hlt hoccurs, hfirst, ?_⟩
        rw [readBody_eq h hchunks, Option.bind_some, firstEnd, hfound, Option.map_some]

/-- `ab</head>` with a cap of five bytes: nine of them in one chunk, five in two. -/
theorem marker_behind_cap :
    readBody ["ab</head>".toUTF8.data.toList] 5 true (some "</head>".toUTF8.data.toList) =
        .ok "ab</head>".toUTF8.data.toList ∧
      readBody ["ab</he".toUTF8.data.toList, "ad>".toUTF8.data.toList] 5 true
        (some "</head>".toUTF8.data.toList) = .ok "ab</h".toUTF8.data.toList ∧
      ¬ReadsAsOne "ab</head>".toUTF8.data.toList 5 true (some "</head>".toUTF8.data.toList) := by
  refine ⟨by decide +kernel, by decide +kernel, fun h => ?_⟩
  have hlength := h.within_cap ["ab</head>".toUTF8.data.toList] "ab</head>".toUTF8.data.toList
    (by decide +kernel) (by decide +kernel)
  revert hlength
  decide +kernel

end Spoo
