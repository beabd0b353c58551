import Spoo.Infrastructure.OauthClients
import Spoo.Lib.Quote

/-!
# What is read back of an OAuth state

A flow is read back as it was begun for exactly as long as it lasts, and where the browser asked for a place with
no ampersand in it. Otherwise what comes after the ampersand is read too, after the rest.
-/

namespace Spoo

open PyDict PercentEncoding

/-- A place that the browser asked for. An empty one is left out. -/
def OauthBegin.asked (begun : OauthBegin) : Option String := begun.nextUrl.filter (· ≠ "")

/-- The first part of what the browser asks for, which is what is read back of it. -/
def firstPart (next : String) : String := String.ofList ((next.toList.splitOn '&').headD [])

/-- What its other parts read as. -/
def smuggledItems (next : String) : List (String × String) := ((next.toList.splitOn '&').tail).filterMap stateItem

/-- The pairs that the browser gets into the state. -/
def OauthBegin.smuggled (begun : OauthBegin) : List (String × String) := (begun.asked.map smuggledItems).getD []

/-- The pairs that a flow is begun for, with what becomes of the place. -/
def intendedItems (lib : OauthLib) (begun : OauthBegin) (nonce : Nat) (now : Int) (place : String → String) :
    List (String × String) :=
  stateItems lib begun nonce now ++ (begun.asked.map fun next => ("next", place next)).toList

variable {lib : OauthLib} {begun : OauthBegin} {nonce : Nat} {now later : Int} {item : String × String}
  {next : String}

theorem splitOn_intercalate_eq_flatMap : ∀ {parts : List (List Char)}, parts ≠ [] →
    (List.intercalate ['&'] parts).splitOn '&' = parts.flatMap (·.splitOn '&')
  | [part], _ => by rw [List.intercalate_singleton, List.flatMap_singleton]
  | part :: part' :: parts, _ => by
    rw [List.intercalate_cons_cons, List.append_assoc, List.singleton_append,
      List.splitOn_append_cons_self, splitOn_intercalate_eq_flatMap (List.cons_ne_nil _ _)]
    simp only [List.flatMap_cons]

variable (item) in
/-- A pair whose key has no `=` in it reads back. -/
theorem stateItem_statePart (hkey : '=' ∉ item.1.toList) : stateItem (statePart item) = some item := by
  have hkeys : ∀ c ∈ item.1.toList, decide (c ≠ '=') = true := by
    intro c hc
    rw [decide_eq_true_eq]
    rintro rfl
    exact hkey hc
  rw [stateItem, if_pos (by simp [statePart]), statePart, List.takeWhile_append_of_pos hkeys,
    List.dropWhile_append_of_pos hkeys]
  simp

variable (item) in
/-- The pairs that a text reads as. -/
theorem readItems_statePart (hkey : '=' ∉ item.1.toList) (hkey' : '&' ∉ item.1.toList) :
    ((statePart item).splitOn '&').filterMap stateItem =
      (item.1, firstPart item.2) :: smuggledItems item.2 := by
  have hnot : '&' ∉ item.1.toList ++ ['='] := by simp [hkey']
  have hsplit : (statePart item).splitOn '&' =
      (item.2.toList.splitOn '&').modifyHead (item.1.toList ++ ['='] ++ ·) := by
    rw [← splitOn_append_of_not_mem hnot]
    simp [statePart]
  cases hparts : item.2.toList.splitOn '&' with
  | nil => exact absurd hparts (List.splitOn_ne_nil _ _)
  | cons first others =>
    have hitem : stateItem (item.1.toList ++ ['='] ++ first) = some (item.1, String.ofList first) := by
      have := stateItem_statePart (item.1, String.ofList first) hkey
      simpa [statePart] using this
    rw [hsplit, hparts, List.modifyHead_cons, List.filterMap_cons, hitem, firstPart, smuggledItems, hparts]
    rfl

theorem firstPart_of_plain (h : '&' ∉ next.toList) : firstPart next = next := by
  rw [firstPart, List.splitOn_eq_singleton h, List.headD_cons, String.ofList_toList]

theorem smuggledItems_of_plain (h : '&' ∉ next.toList) : smuggledItems next = [] := by
  rw [smuggledItems, List.splitOn_eq_singleton h]
  rfl

theorem plain_next : '=' ∉ "next".toList ∧ '&' ∉ "next".toList := by decide

theorem mem_stateItems : ∀ item ∈ stateItems lib begun nonce now,
    item.1 ∈ ["provider", "action", "nonce", "timestamp", "user_id"] := by
  unfold stateItems
  cases begun.userId with
  | none => simp
  | some id => simp

/-- No value of the first parts has an ampersand in it. -/
theorem plain_stateItems (hlib : lib.Lawful) : ∀ item ∈ stateItems lib begun nonce now, '&' ∉ item.2.toList := by
  intro item hitem
  rcases List.mem_append.1 hitem with hfirst | huser
  · simp only [List.mem_cons, List.not_mem_nil, or_false] at hfirst
    rcases hfirst with rfl | rfl | rfl | rfl
    · cases begun.provider <;> decide
    · cases begun.action <;> decide
    · exact hlib.token_plain nonce
    · exact hlib.isoformat_plain now
  · rw [Option.mem_toList, Option.map_eq_some_iff] at huser
    obtain ⟨id, -, rfl⟩ := huser
    exact hlib.text_plain id

theorem readItems_stateItems (hlib : lib.Lawful) :
    ((stateItems lib begun nonce now).map statePart).flatMap
      (fun part => (part.splitOn '&').filterMap stateItem) = stateItems lib begun nonce now := by
  have hall : ∀ items : List (String × String), (∀ item ∈ items, item ∈ stateItems lib begun nonce now) →
      (items.map statePart).flatMap (fun part => (part.splitOn '&').filterMap stateItem) = items := by
    intro items
    induction items with
    | nil => intro _; rfl
    | cons item items ih =>
      intro hmem
      have hitem := hmem item (List.mem_cons_self ..)
      have hplain := plain_stateItems hlib item hitem
      have hkey := mem_stateItems item hitem
      have hkeys : '=' ∉ item.1.toList ∧ '&' ∉ item.1.toList := by
        simp only [List.mem_cons, List.not_mem_nil, or_false] at hkey
        rcases hkey with h | h | h | h | h <;> rw [h] <;> decide
      rw [List.map_cons, List.flatMap_cons, readItems_statePart item hkeys.1 hkeys.2, firstPart_of_plain hplain,
        smuggledItems_of_plain hplain, ih fun other hother => hmem other (List.mem_cons_of_mem _ hother)]
      rfl
  exact hall _ fun _ h => h

/-- What a state reads as: what the flow was begun for, up to an ampersand, and then what the browser has put
behind it. -/
theorem stateData_generate (hlib : lib.Lawful) :
    stateData (generateOauthState lib begun nonce now) =
      PyDict.ofList (intendedItems lib begun nonce now firstPart ++ begun.smuggled) := by
  have hne : (stateItems lib begun nonce now ++ (begun.asked.map fun next => ("next", next)).toList).map
      statePart ≠ [] := by simp [stateItems]
  rw [stateData, generateOauthState, ← OauthBegin.asked,
    splitOn_intercalate_eq_flatMap hne, List.filterMap_flatMap, List.map_append, List.flatMap_append,
    readItems_stateItems hlib, intendedItems, List.append_assoc]
  congr 2
  rw [OauthBegin.smuggled]
  cases begun.asked with
  | none => rfl
  | some next =>
    have hnext := readItems_statePart ("next", next) plain_next.1 plain_next.2
    simp only [Option.map_some, Option.toList_some, List.map_singleton, List.flatMap_singleton, hnext,
      Option.getD_some, List.singleton_append]

theorem not_mem_of_mem_splitOn {sep : Char} : ∀ {chars part : List Char}, part ∈ chars.splitOn sep → sep ∉ part := by
  intro chars
  induction chars with
  | nil =>
    intro part hpart
    rw [List.splitOn_nil, List.mem_singleton] at hpart
    exact hpart ▸ List.not_mem_nil
  | cons c chars ih =>
    intro part hpart
    rw [List.splitOn_cons_eq_if_modifyHead] at hpart
    cases hparts : chars.splitOn sep with
    | nil => exact absurd hparts (List.splitOn_ne_nil _ _)
    | cons first others =>
      rw [hparts] at hpart ih
      split at hpart
      · rcases List.mem_cons.1 hpart with rfl | hrest
        · exact List.not_mem_nil
        · exact ih hrest
      · rename_i hc
        rw [List.modifyHead_cons] at hpart
        rcases List.mem_cons.1 hpart with rfl | hrest
        · rw [List.mem_cons, not_or]
          exact ⟨fun heq => hc (by rw [heq, beq_self_eq_true]), ih (List.mem_cons_self ..)⟩
        · exact ih (List.mem_cons_of_mem _ hrest)

/-- Nothing that is read from a state has an ampersand in it. -/
theorem plain_of_stateData (state : List Char) (key : String) {value : String} (h : (stateData state).get? key = some value) :
    '&' ∉ value.toList := by
  rw [stateData, get?_ofList_eq, lastValue, Option.map_eq_some_iff] at h
  obtain ⟨item, hfind, rfl⟩ := h
  have hitem := List.mem_reverse.1 (List.mem_of_find?_eq_some hfind)
  rw [List.mem_filterMap] at hitem
  obtain ⟨part, hpart, hread⟩ := hitem
  have hnot := not_mem_of_mem_splitOn hpart
  unfold stateItem at hread
  split at hread
  · obtain rfl := Option.some.inj hread
    rw [String.toList_ofList]
    intro hmem
    exact hnot ((List.dropWhile_suffix _).subset (List.mem_of_mem_drop hmem))
  · cases hread

theorem lastValue_intendedItems {place : String → String} {key : String} (hkey : key ≠ "next") :
    lastValue (intendedItems lib begun nonce now place) key = lastValue (stateItems lib begun nonce now) key := by
  rw [intendedItems, lastValue_append]
  cases begun.asked with
  | none => rfl
  | some next => simp [lastValue, hkey.symm]

theorem provider_stateItems :
    lastValue (stateItems lib begun nonce now) "provider" = some begun.provider.value := by
  unfold stateItems
  cases begun.userId <;> simp [lastValue]

theorem timestamp_stateItems :
    lastValue (stateItems lib begun nonce now) "timestamp" = some (lib.isoformat now) := by
  unfold stateItems
  cases begun.userId <;> simp [lastValue]

/-- A state is valid where it names the provider, and a time that is recent. -/
theorem verifyOauthState_eq_some_iff {state : List Char} {provider : OAuthProvider} {data : PyDict String String} :
    verifyOauthState lib state provider now = some data ↔
      data = stateData state ∧ data.get? "provider" = some provider.value ∧
        ∃ text, data.get? "timestamp" = some text ∧ text ≠ "" ∧
          ∃ timestamp, lib.fromisoformat text = some timestamp ∧ now - timestamp ≤ oauthStateTtlSeconds * 1000 := by
  unfold verifyOauthState
  constructor
  · intro h
    dsimp only at h
    split at h
    · cases h
    rename_i hprovider
    split at h
    · cases h
    rename_i text htext
    split at h
    · cases h
    rename_i timestamp htimestamp
    split at h
    · cases h
    rename_i hage
    obtain rfl := Option.some.inj h
    rw [Option.filter_eq_some_iff] at htext
    exact ⟨rfl, Classical.not_not.1 hprovider, text, htext.1, of_decide_eq_true htext.2, timestamp, htimestamp,
      Int.not_lt.1 hage⟩
  · rintro ⟨rfl, hprovider, text, htext, hne, timestamp, htimestamp, hage⟩
    have hfilter : ((stateData state).get? "timestamp").filter (· ≠ "") = some text := by
      rw [Option.filter_eq_some_iff]
      exact ⟨htext, decide_eq_true hne⟩
    dsimp only
    rw [if_neg (not_not_intro hprovider), hfilter]
    dsimp only
    rw [htimestamp]
    exact if_neg (Int.not_lt.2 hage)

/-- A flow reads back as it was begun exactly where it is not over, and the browser did not ask for a place with an
ampersand in it. What comes behind an ampersand is read as further keys. -/
theorem verifyOauthState_generate_iff (hlib : lib.Lawful)
    (hread : lib.fromisoformat (lib.isoformat now) = some now) (hne : lib.isoformat now ≠ "") :
    (verifyOauthState lib (generateOauthState lib begun nonce now) begun.provider later =
        some (PyDict.ofList (intendedItems lib begun nonce now id)) ↔
      later - now ≤ oauthStateTtlSeconds * 1000 ∧ ∀ next ∈ begun.nextUrl, '&' ∉ next.toList) ∧
    stateData (generateOauthState lib begun nonce now) =
      PyDict.ofList (intendedItems lib begun nonce now firstPart ++ begun.smuggled) := by
  refine ⟨?_, stateData_generate hlib⟩
  have htimestamp : (PyDict.ofList (intendedItems lib begun nonce now id)).get? "timestamp" =
      some (lib.isoformat now) := by
    rw [get?_ofList_eq, lastValue_intendedItems (by decide), timestamp_stateItems]
  rw [verifyOauthState_eq_some_iff, htimestamp]
  constructor
  · rintro ⟨hdata, -, text, htext, -, timestamp, hparsed, hage⟩
    obtain rfl := Option.some.inj htext
    obtain rfl := Option.some.inj (hread.symm.trans hparsed)
    refine ⟨hage, fun next hnext => ?_⟩
    by_cases hempty : next = ""
    · rw [hempty]
      decide
    -- What is read back as the place has no ampersand in it, and it is what the browser asked for.
    refine plain_of_stateData (generateOauthState lib begun nonce now) "next" ?_
    have hasked : begun.asked = some next := by
      rw [OauthBegin.asked, Option.mem_def.1 hnext]
      simp [hempty]
    rw [← hdata, get?_ofList_eq, intendedItems, lastValue_append, hasked]
    simp [lastValue]
  · rintro ⟨hage, hplain⟩
    refine ⟨?_, ?_, lib.isoformat now, rfl, hne, now, hread, hage⟩
    · rw [stateData_generate hlib, intendedItems, intendedItems, OauthBegin.smuggled]
      cases hasked : begun.asked with
      | none => simp
      | some next =>
        have hnext := hplain next (Option.filter_eq_some_iff.1 hasked).1
        simp [firstPart_of_plain hnext, smuggledItems_of_plain hnext]
    · rw [get?_ofList_eq, lastValue_intendedItems (by decide), provider_stateItems]

/-- Ids and times as they are written. -/
def hexLib : OauthLib where
  objectIdText id := String.ofList (List.replicate (24 - (Nat.toDigits 10 id).length) '0' ++ Nat.toDigits 10 id)
  objectId text := if text.toList.all Char.isDigit then some (Nat.ofDigitChars 10 text.toList 0) else none
  lower := String.toLower
  tokenUrlsafe _ := "Zk3vYt0bCq8XnR5sWm2LhJd7PfGuAe9xTi1oUwNy6_E"
  isoformat _ := "2026-01-01T00:00:00+00:00"
  fromisoformat text := if text = "2026-01-01T00:00:00+00:00" then some 1767225600000 else none

theorem lawful_hexLib : hexLib.Lawful where
  objectId_text id := by
    have hdigits : ∀ c ∈ (hexLib.objectIdText id).toList, c.isDigit = true := by
      intro c hc
      rw [hexLib, String.toList_ofList, List.mem_append] at hc
      rcases hc with hzero | hdigit
      · rw [List.eq_of_mem_replicate hzero]
        decide
      · exact Nat.isDigit_of_mem_toDigits (by decide) (by decide) hdigit
    simp only [hexLib] at hdigits ⊢
    rw [if_pos (List.all_eq_true.2 hdigits)]
    simp only [String.toList_ofList, Nat.ofDigitChars_append, Nat.ofDigitChars_replicate_zero,
      Nat.mul_zero, Nat.ofDigitChars_ten_toDigits]
  text_plain id := by
    have hdigits : '&' ∉ Nat.toDigits 10 id := by
      intro h
      exact absurd (Nat.isDigit_of_mem_toDigits (by decide) (by decide) h) (by decide)
    simp [hexLib, hdigits]
  token_plain _ := by simp [hexLib]
  isoformat_plain _ := by simp [hexLib]

/-- An account links a provider. -/
def linkingFlow : OauthBegin := ⟨.google, .link, some 7, some "/dashboard"⟩

/-- A sign-in asks for a place with an account behind an ampersand. -/
def smugglingFlow : OauthBegin := ⟨.google, .login, none, some "/a&user_id=7"⟩

theorem verifyOauthState_generate_iff_plain :
    (verifyOauthState hexLib (generateOauthState hexLib linkingFlow 0 1767225600000) .google 1767226200000 =
        some (PyDict.ofList (intendedItems hexLib linkingFlow 0 1767225600000 id)) ∧
      stateData (generateOauthState hexLib linkingFlow 0 1767225600000) =
        PyDict.ofList (intendedItems hexLib linkingFlow 0 1767225600000 firstPart ++ linkingFlow.smuggled)) ∧
    (verifyOauthState hexLib (generateOauthState hexLib smugglingFlow 0 1767225600000) .google 1767226200000 ≠
        some (PyDict.ofList (intendedItems hexLib smugglingFlow 0 1767225600000 id)) ∧
      stateData (generateOauthState hexLib smugglingFlow 0 1767225600000) = PyDict.ofList
        (intendedItems hexLib smugglingFlow 0 1767225600000 firstPart ++ smugglingFlow.smuggled)) := by
  constructor
  · exact (verifyOauthState_generate_iff lawful_hexLib (by decide) (by decide)).imp_left
      fun hiff => hiff.2 ⟨by decide, by simp [linkingFlow]⟩
  · refine (verifyOauthState_generate_iff lawful_hexLib (by decide) (by decide)).imp_left
      fun (hiff : _ ↔ (1767226200000 : Int) - 1767225600000 ≤ _ ∧ _) hreads => ?_
    exact (hiff.1 hreads).2 "/a&user_id=7" rfl (by decide)

end Spoo
