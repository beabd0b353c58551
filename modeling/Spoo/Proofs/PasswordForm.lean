import Mathlib.Data.List.TakeWhile
import Spoo.Proofs.PublicPreview

/-!
# When the password form leads back to the link

The form sends a visitor on to the link with the password in the query. What a client asks for there, and what the
route reads of it, is compared with what was submitted.
-/

namespace Spoo

open PercentEncoding UrlService

/-! ## The password form -/

/-- What the route is handed for the text behind the first slash of a location: a path of one segment, and the
fields of the query. The fragment stays with the client, and so does a dot segment, escaped or not. -/
def followPath (text : List Char) : Option (String × List (String × String)) :=
  let sent := text.takeWhile (· ≠ '#')
  let shortCode := unquote (String.ofList (sent.takeWhile (· ≠ '?')))
  if shortCode ∈ ["", ".", ".."] ∨ '/' ∈ shortCode.toList then none
  else some (shortCode, parseQsl (sent.dropWhile (· ≠ '?')).tail)

/-- What the route is handed where a client follows a location on its own host. -/
def followed (location : String) : Option (String × List (String × String)) :=
  match location.toList with
  | '/' :: text => followPath text
  | _ => none

/-- The location leads to the link, with the password, which is accepted. -/
def RedirectEnv.Returns (env : RedirectEnv) (tenant : Option TenantInfo) (code password location : String)
    (now : Int) (s : Stores) : Prop :=
  ∃ shortCode query, followed location = some (shortCode, query) ∧ env.cfg.lib.unquote shortCode = code ∧
    ∀ request : HttpRequest, request.query = query → request.param "password" = some password ∧
      ∀ roll, (env.redirectUrl tenant shortCode request roll now s).1.status ≠ 401

/-- The password has no character with a meaning in a query, and no escape. -/
def IsPlainPassword (password : String) : Prop :=
  '#' ∉ password.toList ∧ '&' ∉ password.toList ∧ '+' ∉ password.toList ∧ hasEscape password.toList = false

/-- The code is one segment of a path, and has no escape. -/
def IsPlainCode (code : String) : Prop :=
  code ∉ ["", ".", ".."] ∧ '/' ∉ code.toList ∧ '?' ∉ code.toList ∧ '#' ∉ code.toList ∧
    hasEscape code.toList = false

/-! ## The location -/

theorem keepsQueries_redirectSafe : KeepsQueries RedirectEnv.redirectSafe where
  percent := by decide
  plus := by decide
  ampersand := by decide
  equals := by decide

theorem delimits_hash : Delimits RedirectEnv.redirectSafe '#' := delimits_of_mem (by decide) (by decide)

theorem delimits_question : Delimits RedirectEnv.redirectSafe '?' := delimits_of_mem (by decide) (by decide)

theorem delimits_slash : Delimits RedirectEnv.redirectSafe '/' := delimits_of_mem (by decide) (by decide)

theorem unquote_quote (text : List Char) :
    unquote (String.ofList (quote RedirectEnv.redirectSafe text)) = unquote (String.ofList text) :=
  (quotes_quote keepsQueries_redirectSafe.percent text).unquote

/-- A location is followed as if it had not been quoted. -/
theorem followPath_quote (text : List Char) :
    followPath (quote RedirectEnv.redirectSafe text) = followPath text := by
  unfold followPath
  dsimp only
  rw [takeWhile_quote delimits_hash, takeWhile_quote delimits_question, tail_dropWhile_quote delimits_question,
    parseQsl_quote keepsQueries_redirectSafe, unquote_quote]

theorem followed_locationHeader (text : String) :
    followed (RedirectEnv.locationHeader ("/" ++ text)) = followPath text.toList := by
  have hpath : ("/" ++ text).toList = '/' :: text.toList := by simp
  rw [followed, RedirectEnv.locationHeader, String.toList_ofList, hpath, quote_cons_delimiter delimits_slash]
  exact followPath_quote text.toList

/-! ## The code -/

/-- Decoding part of a text gives the text back only if there is nothing to decode. -/
theorem not_hasEscape_of_unquote {text : String} {part : List Char}
    (hpart : part.countP isHex ≤ text.toList.countP isHex) (h : unquote (String.ofList part) = text) :
    hasEscape part = false := by
  have hcount := countP_unquote_le (String.ofList part)
  rw [h, String.toList_ofList] at hcount
  by_contra hescape
  rw [if_pos (by simpa using hescape)] at hcount
  omega

theorem unquote_ofList_of_not_hasEscape {part : List Char} (h : hasEscape part = false) :
    unquote (String.ofList part) = String.ofList part :=
  unquote_of_not_hasEscape (by rwa [String.toList_ofList])

/-- What stands before the first question mark of a code and a query is part of the code. -/
theorem prefix_of_not_mem {part code more : List Char} (hpart : part <+: code ++ '?' :: more)
    (hfree : '?' ∉ part) :
    part <+: code := by
  rcases Nat.le_total part.length code.length with hshort | hlong
  · exact List.prefix_of_prefix_length_le hpart (List.prefix_append _ _) hshort
  · obtain ⟨later, rfl⟩ := List.prefix_of_prefix_length_le (List.prefix_append _ _) hpart hlong
    rw [List.prefix_append_right_inj] at hpart
    cases later with
    | nil => simp
    | cons c later =>
      obtain ⟨rfl, -⟩ := List.cons_prefix_cons.1 hpart
      exact absurd (List.mem_append_right code List.mem_cons_self) hfree

theorem not_mem_takeWhile (sep : Char) (text : List Char) : sep ∉ text.takeWhile (· ≠ sep) := by
  intro hmem
  simpa using List.mem_takeWhile_imp hmem

/-- A location leads to the code it was made of only if the code is plain. -/
theorem isPlainCode_of_followPath {code shortCode : String} {more : List Char} {query : List (String × String)}
    (h : followPath (code.toList ++ '?' :: more) = some (shortCode, query)) (hcode : unquote shortCode = code) :
    IsPlainCode code := by
  unfold followPath at h
  dsimp only at h
  generalize hsegment : ((code.toList ++ '?' :: more).takeWhile (· ≠ '#')).takeWhile (· ≠ '?') = segment at h
  split at h
  · cases h
  · rename_i hroute
    obtain ⟨rfl, -⟩ := Prod.mk.inj (Option.some.inj h)
    have hquestion : '?' ∉ segment := hsegment ▸ not_mem_takeWhile '?' _
    have hhash : '#' ∉ segment := by
      rw [← hsegment]
      exact fun hmem => not_mem_takeWhile '#' _ ((List.takeWhile_prefix _).subset hmem)
    have hwhole : segment <+: code.toList ++ '?' :: more := by
      rw [← hsegment]
      exact (List.takeWhile_prefix _).trans (List.takeWhile_prefix _)
    have hpart : segment <+: code.toList := prefix_of_not_mem hwhole hquestion
    have hcount : segment.countP isHex ≤ code.toList.countP isHex := hpart.sublist.countP_le
    have hfirst := countP_unquote_le (String.ofList segment)
    rw [String.toList_ofList] at hfirst
    -- The code is decoded by the server and by the route, and comes back if neither changes it.
    have hdecoded : unquote (String.ofList (unquote (String.ofList segment)).toList) = code := by
      rw [String.ofList_toList]
      exact hcode
    have hplain : hasEscape (unquote (String.ofList segment)).toList = false :=
      not_hasEscape_of_unquote (by omega) hdecoded
    rw [unquote_of_not_hasEscape hplain] at hcode
    have hfree : hasEscape segment = false := not_hasEscape_of_unquote hcount hcode
    rw [unquote_ofList_of_not_hasEscape hfree] at hcode hroute
    subst hcode
    rw [not_or] at hroute
    rw [String.toList_ofList] at hroute
    unfold IsPlainCode
    rw [String.toList_ofList]
    exact ⟨hroute.1, hroute.2, hquestion, hhash, hfree⟩

/-! ## The password -/

theorem sublist_of_mem_splitOn {sep : Char} {text : List Char} : ∀ {field : List Char},
    field ∈ text.splitOn sep → field.Sublist text ∧ sep ∉ field := by
  induction text with
  | nil =>
    intro field hfield
    rw [List.splitOn_nil, List.mem_singleton] at hfield
    subst hfield
    exact ⟨.slnil, List.not_mem_nil⟩
  | cons c text ih =>
    intro field hfield
    rw [List.splitOn_cons_eq_if_modifyHead] at hfield
    split at hfield
    · rcases List.mem_cons.1 hfield with rfl | hfield
      · exact ⟨List.nil_sublist _, List.not_mem_nil⟩
      · exact ⟨(ih hfield).1.cons c, (ih hfield).2⟩
    · rename_i hne
      cases hfields : text.splitOn sep with
      | nil => exact absurd hfields (List.splitOn_ne_nil sep text)
      | cons first later =>
        rw [hfields] at hfield ih
        rcases List.mem_cons.1 hfield with rfl | hfield
        · obtain ⟨hsub, hsep⟩ := ih List.mem_cons_self
          refine ⟨hsub.cons_cons c, ?_⟩
          rw [List.mem_cons, not_or]
          exact ⟨fun heq => hne (by simp [heq]), hsep⟩
        · obtain ⟨hsub, hsep⟩ := ih (List.mem_cons_of_mem first hfield)
          exact ⟨hsub.cons c, hsep⟩

/-- The text of the query behind its first question mark. -/
def passwordQuery (password : String) : List Char := "password=".toList ++ password.toList.takeWhile (· ≠ '#')

theorem ampersand_not_mem : '&' ∉ "password=".toList := by
  simp

theorem value_of_password (rest : List Char) :
    (("password=".toList ++ rest).dropWhile (· ≠ '=')).tail = rest := by
  simp

theorem name_of_password (rest : List Char) :
    ("password=".toList ++ rest).takeWhile (· ≠ '=') = "password".toList := by
  simp

/-- The value of a field of the query is made of part of the password, without the characters that end it. -/
theorem value_of_mem_parseQsl {password name value : String}
    (h : (name, value) ∈ parseQsl (passwordQuery password)) : ∃ part : List Char,
      part.Sublist password.toList ∧ '&' ∉ part ∧ '#' ∉ part ∧ value = decodePart part := by
  obtain ⟨field, hfield, hparsed⟩ := List.mem_filterMap.1 h
  have hvalue : value = decodePart (field.dropWhile (· ≠ '=')).tail := by
    unfold parseField at hparsed
    split at hparsed
    · cases hparsed
    · exact (congrArg Prod.snd (Option.some.inj hparsed)).symm
  obtain ⟨rest, hrest, hpart⟩ : ∃ rest ∈ (password.toList.takeWhile (· ≠ '#')).splitOn '&',
      (field.dropWhile (· ≠ '=')).tail.Sublist rest := by
    unfold passwordQuery at hfield
    rw [splitOn_append_of_not_mem ampersand_not_mem] at hfield
    cases hfields : (password.toList.takeWhile (· ≠ '#')).splitOn '&' with
    | nil => exact absurd hfields (List.splitOn_ne_nil _ _)
    | cons first later =>
      rw [hfields, List.modifyHead_cons] at hfield
      rcases List.mem_cons.1 hfield with rfl | hfield
      · refine ⟨first, List.mem_cons_self, ?_⟩
        rw [value_of_password]
      · refine ⟨field, List.mem_cons_of_mem first hfield, ?_⟩
        exact (List.tail_sublist _).trans (List.dropWhile_sublist _)
  obtain ⟨hsub, hampersand⟩ := sublist_of_mem_splitOn hrest
  refine ⟨_, (hpart.trans hsub).trans (List.takeWhile_sublist _),
    fun hmem => hampersand (hpart.subset hmem), ?_, hvalue⟩
  exact fun hmem => not_mem_takeWhile '#' _ ((hpart.trans hsub).subset hmem)

theorem countP_plusToSpace (part : List Char) : (plusToSpace part).countP isHex = part.countP isHex := by
  rw [plusToSpace, List.countP_map]
  refine List.countP_congr fun c _ => ?_
  by_cases hc : c = '+'
  · subst hc
    decide
  · simp [hc]

/-- A password is a value of its query only if it is plain. -/
theorem isPlainPassword_of_mem {password name : String}
    (h : (name, password) ∈ parseQsl (passwordQuery password)) : IsPlainPassword password := by
  obtain ⟨part, hpart, hampersand, hhash, hvalue⟩ := value_of_mem_parseQsl h
  have hcount : (plusToSpace part).countP isHex ≤ password.toList.countP isHex := by
    rw [countP_plusToSpace]
    exact hpart.countP_le
  have hfree : hasEscape (plusToSpace part) = false := not_hasEscape_of_unquote hcount hvalue.symm
  have htext : password.toList = plusToSpace part := by
    rw [hvalue, decodePart, unquote_ofList_of_not_hasEscape hfree, String.toList_ofList]
  -- Nothing was left out, since the value is as long as the password.
  have hwhole : part = password.toList := by
    refine hpart.eq_of_length ?_
    rw [htext, plusToSpace, List.length_map]
  have hplus : '+' ∉ password.toList := htext ▸ plus_not_mem_plusToSpace part
  rw [← htext] at hfree
  rw [hwhole] at hampersand hhash
  exact ⟨hhash, hampersand, hplus, hfree⟩

/-- A plain password is the only field of its query. -/
theorem parseQsl_of_isPlainPassword {password : String} (h : IsPlainPassword password) :
    parseQsl (passwordQuery password) = [("password", password)] := by
  obtain ⟨hhash, hampersand, hplus, hfree⟩ := h
  have hall : ∀ c ∈ password.toList, decide (c ≠ '#') = true := by
    intro c hc
    exact decide_eq_true fun heq => hhash (heq ▸ hc)
  have hquery : passwordQuery password = "password=".toList ++ password.toList := by
    unfold passwordQuery
    rw [List.takeWhile_eq_self_iff.2 hall]
  have hvalue : decodePart password.toList = password := by
    rw [decodePart, plusToSpace_of_not_mem hplus, unquote_ofList_of_not_hasEscape hfree, String.ofList_toList]
  have hname : decodePart "password".toList = "password" := by decide +kernel
  have hsingle : '&' ∉ "password=".toList ++ password.toList := by
    rw [List.mem_append, not_or]
    exact ⟨ampersand_not_mem, hampersand⟩
  have hfield : parseField ("password=".toList ++ password.toList) =
      some (decodePart "password".toList, decodePart password.toList) := by
    rw [parseField, if_neg (by simp), name_of_password, value_of_password]
  rw [hquery, parseQsl, List.splitOn_eq_singleton hsingle, List.filterMap_cons, hfield, hname, hvalue]
  rfl

/-- The location of a plain code leads to the code and the query. -/
theorem followPath_of_isPlainCode {code : String} (h : IsPlainCode code) (password : String) :
    followPath (code.toList ++ '?' :: ("password=".toList ++ password.toList)) =
      some (code, parseQsl (passwordQuery password)) := by
  obtain ⟨hroute, hslash, hquestion, hhash, hfree⟩ := h
  have hcode {sep : Char} (hsep : sep ∉ code.toList) : ∀ c ∈ code.toList, decide (c ≠ sep) = true := by
    intro c hc
    exact decide_eq_true fun heq => hsep (heq ▸ hc)
  have hname : ("password=".toList ++ password.toList).takeWhile (· ≠ '#') = passwordQuery password := by
    unfold passwordQuery
    exact List.takeWhile_append_of_pos (by simp)
  have hsent : (code.toList ++ '?' :: ("password=".toList ++ password.toList)).takeWhile (· ≠ '#') =
      code.toList ++ '?' :: passwordQuery password := by
    rw [List.takeWhile_append_of_pos (hcode hhash), List.takeWhile_cons_of_pos (by decide), hname]
  have hsegment : (code.toList ++ '?' :: passwordQuery password).takeWhile (· ≠ '?') = code.toList := by
    rw [List.takeWhile_append_of_pos (hcode hquestion)]
    simp
  have hquery : ((code.toList ++ '?' :: passwordQuery password).dropWhile (· ≠ '?')).tail =
      passwordQuery password := by
    rw [List.dropWhile_append_of_pos (hcode hquestion)]
    simp
  have hdecoded : unquote (String.ofList code.toList) = code := by
    rw [unquote_ofList_of_not_hasEscape hfree, String.ofList_toList]
  unfold followPath
  dsimp only
  rw [hsent, hsegment, hquery, hdecoded, if_neg (not_or.2 ⟨hroute, hslash⟩)]

/-! ## Resolving twice -/

namespace UrlService

variable {cfg : DispatchConfig} {readers : LegacyReaders} {data data' : UrlCacheData} {shortCode scope : String}
  {now : Int} {s s' : Stores}

/-- The time checks that let a visitor through change nothing, and ask for nothing but the time. -/
theorem checkTimes_ok (h : checkTimes data shortCode now s = (.ok data', s')) :
    data' = data ∧ s' = s ∧ ∀ t, checkTimes data shortCode now t = (.ok data, t) := by
  cases hexpired : data.isTimeExpired now with
  | true =>
    obtain ⟨t, hraised⟩ := @raiseIfTimeExpired_of_expired data shortCode now s hexpired
    simp only [checkTimes, hraised] at h
    cases h
  | false =>
    simp only [checkTimes, raiseIfTimeExpired_of_live hexpired] at h ⊢
    split at h
    · cases h
    · rename_i hlive
      cases h
      exact ⟨rfl, rfl, fun t => if_neg hlive⟩

theorem get_populate (hmiss : s.cache.get shortCode scope = none)
    (h : (populate shortCode data s).cache.get shortCode scope = some data') : data' = data := by
  unfold populate at h
  split at h
  · simp only [populateCache, UrlCache.set, UrlCache.get] at h
    split at h
    · exact (Option.some.inj h).symm
    · unfold UrlCache.get at hmiss
      rw [hmiss] at h
      cases h
  · rw [hmiss] at h
    cases h

theorem select_populate (rawCode : String) :
    select cfg rawCode scope (populate shortCode data s) = select cfg rawCode scope s := by
  unfold populate
  split <;> rfl

/-- A link that was resolved is resolved the same at once. -/
theorem resolve_again {rawCode : String} (h : resolve cfg readers rawCode scope now s = (.ok data, s')) :
    ∃ t, resolve cfg readers rawCode scope now s' = (.ok data, t) := by
  unfold resolve at h ⊢
  dsimp only at h ⊢
  cases hcached : s.cache.get (v2LookupCode cfg.lib rawCode) scope with
  | some cached =>
    rw [hcached] at h
    dsimp only [resolveCached] at h
    split at h
    · cases h
    · rename_i hstatus
      obtain ⟨rfl, rfl, hagain⟩ := checkTimes_ok h
      rw [hcached]
      exact ⟨s', (if_neg hstatus).trans (hagain s')⟩
  | none =>
    rw [hcached] at h
    dsimp only at h
    split at h
    · cases h
    · rename_i link hselect
      split at h
      · cases h
      · rename_i found hfound
        dsimp only [resolveFound] at h
        split at h
        · cases h
        · rename_i hstatus
          split at h
          · cases h
          · rename_i hcap
            obtain ⟨rfl, rfl, hagain⟩ := checkTimes_ok h
            split
            · rename_i cached hnow
              obtain rfl := get_populate hcached hnow
              exact ⟨_, (if_neg hstatus).trans (hagain _)⟩
            · rw [select_populate, hselect]
              dsimp only
              rw [hfound]
              exact ⟨_, (if_neg hstatus).trans ((if_neg hcap).trans (hagain _))⟩

end UrlService

/-! ## The form and the link -/

section

variable {env : RedirectEnv} {tenant : Option TenantInfo} {rawCode password location : String} {now : Int}
  {s s' : Stores}

/-- The form sends a visitor on for a link that is resolved and whose password is accepted. -/
theorem checkPassword_redirect
    (h : env.checkPassword tenant rawCode (some password) now s = (.redirect location, s')) :
    ∃ data, resolve env.cfg env.readers (env.cfg.lib.unquote rawCode) (scopeOf env.cfg (tenant.map (·.fqdn))) now
        s = (.ok data, s') ∧
      data.verifyPassword env.verifyPasswordHash (some password) = true ∧
      location =
        RedirectEnv.locationHeader ("/" ++ env.cfg.lib.unquote rawCode ++ "?password=" ++ password) := by
  unfold RedirectEnv.checkPassword at h
  dsimp only at h
  split at h
  · cases h
  · cases h
  · rename_i data t hresolve
    split at h
    · cases h
    · split at h
      · rename_i hverify
        cases h
        exact ⟨data, hresolve, hverify, rfl⟩
      · cases h

/-- A visitor whose password is accepted is not asked for it. -/
theorem status_serve {shortCode : String} {request : HttpRequest} {roll : Nat} {data : UrlCacheData}
    (hverify : data.verifyPassword env.verifyPasswordHash (request.param "password") = true) :
    (env.serve tenant shortCode request roll data).status ≠ 401 := by
  have hpage : (env.errorPage tenant request.method "403" "ACCESS DENIED" 403).status ≠ 401 := by
    unfold RedirectEnv.errorPage
    dsimp only
    repeat' split
    all_goals simp [RedirectEnv.errorPage.tenantPage]
  unfold RedirectEnv.serve
  dsimp only
  rw [hverify, Bool.not_true, if_neg Bool.false_ne_true]
  split
  · simp
  · split
    · exact hpage
    · split
      · exact hpage
      · simp

/-- The form leads back to the link, with the password, if and only if neither the code nor the password has
characters that the location gives a meaning to. -/
theorem password_returns_iff (env : RedirectEnv) (hunquote : env.cfg.lib.unquote = unquote)
    (tenant : Option TenantInfo) (rawCode password location : String) (now : Int) (s s' : Stores)
    (haccepted : env.checkPassword tenant rawCode (some password) now s = (.redirect location, s')) :
    env.Returns tenant (unquote rawCode) password location now s' ↔
      IsPlainCode (unquote rawCode) ∧ IsPlainPassword password := by
  obtain ⟨data, hresolve, hverify, rfl⟩ := checkPassword_redirect haccepted
  rw [hunquote] at hresolve
  generalize hcode : unquote rawCode = code at hresolve ⊢
  have htarget : followed (RedirectEnv.locationHeader ("/" ++ env.cfg.lib.unquote rawCode ++ "?password=" ++
      password)) = followPath (code.toList ++ '?' :: ("password=".toList ++ password.toList)) := by
    have htext : "/" ++ env.cfg.lib.unquote rawCode ++ "?password=" ++ password =
        "/" ++ (code ++ ("?" ++ ("password=" ++ password))) := by
      rw [hunquote, hcode, String.append_assoc, String.append_assoc]
      rfl
    rw [htext, followed_locationHeader, String.toList_append, String.toList_append, String.toList_append]
    rfl
  constructor
  · rintro ⟨shortCode, query, hfollowed, hsame, hrequests⟩
    rw [htarget] at hfollowed
    rw [hunquote] at hsame
    have hplain : IsPlainCode code := isPlainCode_of_followPath hfollowed hsame
    refine ⟨hplain, ?_⟩
    rw [followPath_of_isPlainCode hplain] at hfollowed
    obtain ⟨rfl, rfl⟩ := Prod.mk.inj (Option.some.inj hfollowed)
    obtain ⟨hparam, -⟩ := hrequests { query := parseQsl (passwordQuery password) } rfl
    obtain ⟨⟨name, value⟩, hfound, rfl⟩ := Option.map_eq_some_iff.1 hparam
    exact isPlainPassword_of_mem (List.mem_reverse.1 (List.mem_of_find?_eq_some hfound))
  · rintro ⟨hplain, hpassword⟩
    refine ⟨code, [("password", password)], ?_, ?_, ?_⟩
    · rw [htarget, followPath_of_isPlainCode hplain, parseQsl_of_isPlainPassword hpassword]
    · rw [hunquote]
      exact unquote_of_not_hasEscape hplain.2.2.2.2
    · intro request hquery
      have hparam : request.param "password" = some password := by
        rw [HttpRequest.param, hquery]
        rfl
      refine ⟨hparam, fun roll => ?_⟩
      obtain ⟨t, hagain⟩ := resolve_again hresolve
      have hroute :
          env.redirectUrl tenant code request roll now s' = (env.serve tenant code request roll data, t) := by
        unfold RedirectEnv.redirectUrl
        dsimp only
        rw [hunquote, unquote_of_not_hasEscape hplain.2.2.2.2, hagain]
      rw [hroute]
      exact status_serve (by rw [hparam]; exact hverify)

end

/-- The route of `plainRedirectEnv`, with passwords that are stored as they are. -/
def passwordEnv : RedirectEnv :=
  { plainRedirectEnv with
    cfg := ⟨{ plainEmojiLib with unquote := unquote }, "spoo.me"⟩
    verifyPasswordHash := fun password hash => password = hash }

/-- A link behind a password. -/
def passwordLink (password : String) : UrlRow where
  id := 1
  linkAlias := "aaa"
  domain := "spoo.me"
  longUrl := "https://a.example/page"
  password := some password

/-- The stores with that link, after its password was accepted. -/
def unlocked (password : String) : Stores :=
  (passwordEnv.checkPassword none "aaa" (some password) 0 (storesOf (passwordLink password))).2

theorem password_returns_iff_plain :
    passwordEnv.checkPassword none "aaa" (some "open.sesame1") 0 (storesOf (passwordLink "open.sesame1")) =
        (.redirect "/aaa?password=open.sesame1", unlocked "open.sesame1") ∧
      (passwordEnv.Returns none (unquote "aaa") "open.sesame1" "/aaa?password=open.sesame1" 0
          (unlocked "open.sesame1") ↔
        IsPlainCode (unquote "aaa") ∧ IsPlainPassword "open.sesame1") := by
  have haccepted : passwordEnv.checkPassword none "aaa" (some "open.sesame1") 0
      (storesOf (passwordLink "open.sesame1")) =
        (.redirect "/aaa?password=open.sesame1", unlocked "open.sesame1") :=
    Prod.ext (by decide +kernel) rfl
  exact ⟨haccepted, password_returns_iff passwordEnv rfl none "aaa" "open.sesame1" "/aaa?password=open.sesame1" 0
    (storesOf (passwordLink "open.sesame1")) (unlocked "open.sesame1") haccepted⟩

/-- A password with an ampersand is accepted, and cut off on the way back. -/
theorem ampersand_asks_again :
    (passwordEnv.checkPassword none "aaa" (some "tea&milk.1") 0 (storesOf (passwordLink "tea&milk.1"))).1 =
        .redirect "/aaa?password=tea&milk.1" ∧
      followed "/aaa?password=tea&milk.1" = some ("aaa", [("password", "tea"), ("milk.1", "")]) ∧
      (passwordEnv.redirectUrl none "aaa" { query := [("password", "tea"), ("milk.1", "")] } 0 0
        (unlocked "tea&milk.1")).1.status = 401 ∧
      ¬passwordEnv.Returns none "aaa" "tea&milk.1" "/aaa?password=tea&milk.1" 0 (unlocked "tea&milk.1") := by
  have hfollowed :
      followed "/aaa?password=tea&milk.1" = some ("aaa", [("password", "tea"), ("milk.1", "")]) := by
    decide +kernel
  refine ⟨by decide +kernel, hfollowed, by decide +kernel, ?_⟩
  rintro ⟨shortCode, query, hquery, -, hrequests⟩
  rw [hfollowed] at hquery
  obtain ⟨rfl, rfl⟩ := Prod.mk.inj (Option.some.inj hquery)
  have hparam := (hrequests { query := [("password", "tea"), ("milk.1", "")] } rfl).1
  revert hparam
  decide

end Spoo
