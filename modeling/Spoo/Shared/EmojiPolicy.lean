import Mathlib.Data.Rat.Defs

/-!
# The emoji policy (`shared/emoji_policy.py`, `shared/validators.py`)

Canonical form and acceptance of emoji aliases. `urllib`, `unicodedata` and the `emoji` and `regex`
packages are a parameter (`EmojiLib`).
-/

namespace Spoo

/-- An entry of `emoji.EMOJI_DATA`: what the policy reads of it. -/
structure EmojiDatum where
  fullyQualified : Bool
  /-- `"E"`, the version of Emoji it came with. -/
  version : Option Rat

/-- The text primitives. -/
structure EmojiLib where
  /-- `urllib.parse.unquote`. -/
  unquote : String → String
  /-- `unicodedata.normalize("NFC", s)`. -/
  normalizeNfc : String → String
  /-- The emoji of `emoji.emoji_list(s)`. -/
  emojiList : String → List String
  /-- `regex.findall(r"\X", s)`. -/
  graphemes : String → List String
  /-- `emoji.EMOJI_DATA.get(s)`. -/
  emojiData : String → Option EmojiDatum

/-- `_VS16`. -/
def vs16 : Char := '\uFE0F'

/-- `[a-zA-Z0-9_-]`. -/
def isAliasChar (c : Char) : Bool := c.isAlphanum || c = '_' || c = '-'

/-- `validate_alias`: `$` also matches before a final newline (`validators.py:96-98`). -/
def validateAlias (linkAlias : String) : Bool :=
  linkAlias.toList.all isAliasChar ||
    (linkAlias.toList.getLast? = some '\n' && linkAlias.toList.dropLast.all isAliasChar)

/-- `is_emoji_candidate` (`emoji_policy.py:69-76`). -/
def isEmojiCandidate (linkAlias : String) : Bool := !linkAlias.toList.all isAliasChar

/-- `vs16_insensitive_pattern`, matched as PCRE does: `$` also matches before a final newline
(`emoji_policy.py:276-288`). -/
def matchesVs16Insensitive : List Char → List Char → Bool
  | [], [] => true
  | [], c :: rest => decide (c = '\n' ∧ rest = [])
  | _ :: _, [] => false
  | c :: canonical, d :: code =>
    decide (c = d) && (matchesVs16Insensitive canonical code ||
      match code with
      | e :: code => decide (e = vs16) && matchesVs16Insensitive canonical code
      | [] => false)

variable (lib : EmojiLib)

/-- `is_emoji_alias` (`validators.py:101-114`). -/
def isEmojiAlias (linkAlias : String) : Bool :=
  let decoded := lib.unquote linkAlias
  decoded ≠ "" && String.join (lib.emojiList decoded) = decoded

/-- `canonicalize_emoji_alias` (`emoji_policy.py:79-92`). -/
def canonicalizeEmojiAlias (linkAlias : String) : String :=
  let decoded := lib.normalizeNfc (lib.unquote linkAlias)
  String.ofList (decoded.toList.filter (· ≠ vs16))

/-- `_grapheme_accepted` (`emoji_policy.py:136-152`). -/
def graphemeAccepted (grapheme : String) (maxVersion : Rat) : Bool :=
  match lib.emojiData grapheme with
  | none => false
  | some datum =>
    datum.fullyQualified && datum.version.any (· ≤ maxVersion) &&
      match grapheme.toList with
      | [_] => true
      | [_, modifier] => decide (0x1f3fb ≤ modifier.toNat ∧ modifier.toNat ≤ 0x1f3ff)
      | _ => false

/-- `is_emoji_only_shape` (`emoji_policy.py:98-110`). -/
def isEmojiOnlyShape (linkAlias : String) : Bool :=
  let canonical := canonicalizeEmojiAlias lib linkAlias
  canonical ≠ "" && (lib.graphemes canonical).all fun grapheme => (lib.emojiData grapheme).isSome

/-- `EmojiAliasVerdict`. -/
inductive EmojiAliasVerdict where
  | ok
  | empty
  | length
  | policy
  deriving DecidableEq, Repr

/-- `check_emoji_alias` (`emoji_policy.py:110-133`). -/
def checkEmojiAlias (canonical : String) (maxGraphemes : Nat) (maxVersion : Rat) :
    EmojiAliasVerdict :=
  if canonical = "" then .empty
  else if maxGraphemes < (lib.graphemes canonical).length then .length
  else if (lib.graphemes canonical).all (graphemeAccepted lib · maxVersion) then .ok
  else .policy

/-! ## Canonical text -/

/-- What the packages do on alphanumeric text and on emoji. -/
structure EmojiLib.Lawful (lib : EmojiLib) : Prop where
  /-- Percent escapes are all that `unquote` replaces. -/
  unquote_of_no_percent : ∀ s : String, '%' ∉ s.toList → lib.unquote s = s
  /-- ASCII text is in NFC. -/
  normalizeNfc_ascii : ∀ s : String, (∀ c ∈ s.toList, c.toNat < 128) → lib.normalizeNfc s = s
  /-- Emoji are in NFC. -/
  normalizeNfc_emoji : ∀ emojis : List String,
    (∀ emoji ∈ emojis, (lib.emojiData emoji).isSome = true) →
      lib.normalizeNfc (String.join emojis) = String.join emojis
  /-- The graphemes of a text make it up. -/
  join_graphemes : ∀ s : String, String.join (lib.graphemes s) = s
  /-- No emoji begins with a percent sign or a variation selector. -/
  emojiData_head : ∀ (emoji : String) (c : Char) (rest : List Char),
    (lib.emojiData emoji).isSome = true → emoji.toList = c :: rest → c ≠ '%' ∧ c ≠ vs16
  /-- An emoji has a character that no alphanumeric alias has and that is kept by NFC. -/
  emojiList_text : ∀ s : String, s ≠ "" → String.join (lib.emojiList s) = s →
    ∃ c ∈ (lib.normalizeNfc s).toList, c ≠ vs16 ∧ isAliasChar c = false

theorem lt_of_isAliasChar {c : Char} (h : isAliasChar c = true) : c.toNat < 128 := by
  have halphanum : c.isAlphanum = (decide (65 ≤ c.val ∧ c.val ≤ 90) ||
      (decide (97 ≤ c.val) && decide (c.val ≤ 122)) ||
      (decide (48 ≤ c.val) && decide (c.val ≤ 57))) := rfl
  simp only [isAliasChar, halphanum, Bool.or_eq_true, decide_eq_true_eq, Bool.and_eq_true,
    UInt32.le_iff_toNat_le] at h
  rcases h with (((⟨-, h⟩ | ⟨-, h⟩) | ⟨-, h⟩) | rfl) | rfl
  · exact Nat.lt_of_le_of_lt h (by decide)
  · exact Nat.lt_of_le_of_lt h (by decide)
  · exact Nat.lt_of_le_of_lt h (by decide)
  · decide
  · decide

theorem matchesVs16Insensitive_refl (canonical : List Char) :
    matchesVs16Insensitive canonical canonical = true := by
  induction canonical with
  | nil => rfl
  | cons c canonical ih => simp [matchesVs16Insensitive, ih]

/-! ## Variation selectors -/

/-- A selector stands neither first nor after another one. -/
def LoneSelectors (code : List Char) : Prop :=
  (vs16 :: code).IsChain fun c d => c ≠ vs16 ∨ d ≠ vs16

/-- The canonical text with at most one selector after each character. -/
def IsVs16Variant (canonical code : List Char) : Prop :=
  LoneSelectors code ∧ code.filter (· ≠ vs16) = canonical

theorem loneSelectors_cons {c : Char} {code : List Char} : LoneSelectors (c :: code) ↔
    c ≠ vs16 ∧ (LoneSelectors code ∨ ∃ rest, code = vs16 :: rest ∧ LoneSelectors rest) := by
  unfold LoneSelectors
  have hfirst : vs16 ≠ vs16 ∨ c ≠ vs16 ↔ c ≠ vs16 := by simp
  rw [List.isChain_cons_cons, hfirst]
  refine and_congr_right fun hc => ?_
  cases code with
  | nil => simp
  | cons d rest =>
    by_cases hd : d = vs16
    · subst hd
      simp [hc]
    · simp [hc, hd]

theorem isVs16Variant_nil {code : List Char} : IsVs16Variant [] code ↔ code = [] := by
  constructor
  · rintro ⟨hlone, hfilter⟩
    cases code with
    | nil => rfl
    | cons c code =>
      have hc := (loneSelectors_cons.1 hlone).1
      simp [hc] at hfilter
  · rintro rfl
    exact ⟨by simp [LoneSelectors], rfl⟩

theorem isVs16Variant_cons {c : Char} {canonical code : List Char} (hc : c ≠ vs16) :
    IsVs16Variant (c :: canonical) code ↔ ∃ rest, code = c :: rest ∧
      (IsVs16Variant canonical rest ∨
        ∃ later, rest = vs16 :: later ∧ IsVs16Variant canonical later) := by
  constructor
  · rintro ⟨hlone, hfilter⟩
    cases code with
    | nil => cases hfilter
    | cons d rest =>
      obtain ⟨hd, hrest⟩ := loneSelectors_cons.1 hlone
      simp only [ne_eq, decide_not, List.filter_cons, hd, decide_false, Bool.not_false, if_true,
        List.cons.injEq] at hfilter
      obtain ⟨rfl, hfilter⟩ := hfilter
      refine ⟨rest, rfl, ?_⟩
      rcases hrest with hrest | ⟨later, rfl, hlater⟩
      · exact .inl ⟨hrest, by simpa using hfilter⟩
      · exact .inr ⟨later, rfl, hlater, by simpa using hfilter⟩
  · rintro ⟨rest, rfl, ⟨hlone, hfilter⟩ | ⟨later, rfl, hlone, hfilter⟩⟩
    · exact ⟨loneSelectors_cons.2 ⟨hc, .inl hlone⟩, by simpa [hc] using hfilter⟩
    · exact ⟨loneSelectors_cons.2 ⟨hc, .inr ⟨later, rfl, hlone⟩⟩, by simpa [hc] using hfilter⟩

/-- The pattern of a canonical text matches its variants, and each of them with a final newline. -/
theorem matchesVs16Insensitive_iff {canonical : List Char} (hcanonical : vs16 ∉ canonical)
    {code : List Char} : matchesVs16Insensitive canonical code = true ↔
      ∃ body, IsVs16Variant canonical body ∧ (code = body ∨ code = body ++ ['\n']) := by
  induction canonical generalizing code with
  | nil =>
    simp only [isVs16Variant_nil, exists_eq_left, List.nil_append]
    cases code with
    | nil => simp [matchesVs16Insensitive]
    | cons d rest => simp [matchesVs16Insensitive]
  | cons c canonical ih =>
    rw [List.mem_cons, not_or] at hcanonical
    have ih := fun {code} => @ih hcanonical.2 code
    have hc := Ne.symm hcanonical.1
    simp only [isVs16Variant_cons hc]
    constructor
    · intro hmatch
      cases code with
      | nil => cases hmatch
      | cons d rest =>
        simp only [matchesVs16Insensitive, Bool.and_eq_true, decide_eq_true_eq,
          Bool.or_eq_true] at hmatch
        obtain ⟨rfl, hmatch | hmatch⟩ := hmatch
        · obtain ⟨body, hbody, hcode⟩ := ih.1 hmatch
          exact ⟨c :: body, ⟨body, rfl, .inl hbody⟩, by simpa using hcode⟩
        · cases rest with
          | nil => cases hmatch
          | cons e rest =>
            simp only [Bool.and_eq_true, decide_eq_true_eq] at hmatch
            obtain ⟨rfl, hmatch⟩ := hmatch
            obtain ⟨body, hbody, hcode⟩ := ih.1 hmatch
            exact ⟨c :: vs16 :: body, ⟨_, rfl, .inr ⟨body, rfl, hbody⟩⟩, by simpa using hcode⟩
    · rintro ⟨_, ⟨rest, rfl, hrest⟩, hcode⟩
      obtain ⟨tail, rfl, htail⟩ : ∃ tail, code = c :: tail ∧
          (tail = rest ∨ tail = rest ++ ['\n']) := by
        rcases hcode with rfl | rfl
        · exact ⟨rest, rfl, .inl rfl⟩
        · exact ⟨rest ++ ['\n'], rfl, .inr rfl⟩
      simp only [matchesVs16Insensitive, decide_true, Bool.true_and, Bool.or_eq_true]
      rcases hrest with hrest | ⟨later, rfl, hlater⟩
      · exact .inl (ih.2 ⟨rest, hrest, htail⟩)
      · right
        rcases htail with rfl | rfl
        · simpa using ih.2 ⟨later, hlater, .inl rfl⟩
        · simpa using ih.2 ⟨later, hlater, .inr rfl⟩

/-! ## Canonical aliases -/

section

variable {lib : EmojiLib} {linkAlias : String}

theorem vs16_not_mem_canonicalizeEmojiAlias (lib : EmojiLib) (linkAlias : String) :
    vs16 ∉ (canonicalizeEmojiAlias lib linkAlias).toList := by
  simp [canonicalizeEmojiAlias]

/-- Text with no escape and no variation selector that is in NFC is canonical. -/
theorem canonicalizeEmojiAlias_of_plain (hlib : lib.Lawful)
    (hplain : ∀ c ∈ linkAlias.toList, c ≠ '%' ∧ c ≠ vs16)
    (hnfc : lib.normalizeNfc linkAlias = linkAlias) :
    canonicalizeEmojiAlias lib linkAlias = linkAlias := by
  have hunquote : lib.unquote linkAlias = linkAlias :=
    hlib.unquote_of_no_percent linkAlias fun hmem => (hplain _ hmem).1 rfl
  have hkept : linkAlias.toList.filter (· ≠ vs16) = linkAlias.toList :=
    List.filter_eq_self.2 fun c hc => by simpa using (hplain c hc).2
  rw [canonicalizeEmojiAlias, hunquote, hnfc, hkept, String.ofList_toList]

theorem canonicalizeEmojiAlias_of_alphanumeric (hlib : lib.Lawful)
    (h : linkAlias.toList.all isAliasChar = true) :
    canonicalizeEmojiAlias lib linkAlias = linkAlias := by
  rw [List.all_eq_true] at h
  refine canonicalizeEmojiAlias_of_plain hlib (fun c hc => ?_)
    (hlib.normalizeNfc_ascii linkAlias fun c hc => lt_of_isAliasChar (h c hc))
  refine ⟨?_, ?_⟩
  · rintro rfl
    exact absurd (h _ hc) (by decide)
  · rintro rfl
    exact absurd (h _ hc) (by decide)

/-- The characters of an accepted grapheme. -/
theorem chars_of_graphemeAccepted (hlib : lib.Lawful) {grapheme : String} {maxVersion : Rat}
    (h : graphemeAccepted lib grapheme maxVersion = true) :
    (lib.emojiData grapheme).isSome = true ∧
      ∀ c ∈ grapheme.toList, c ≠ '%' ∧ c ≠ vs16 := by
  unfold graphemeAccepted at h
  split at h
  · cases h
  · rename_i datum hdatum
    have hsome : (lib.emojiData grapheme).isSome = true := by rw [hdatum]; rfl
    refine ⟨hsome, ?_⟩
    rw [Bool.and_eq_true] at h
    obtain ⟨-, hshape⟩ := h
    split at hshape
    · rename_i c hchars
      rw [hchars]
      simpa using hlib.emojiData_head grapheme c [] hsome hchars
    · rename_i c modifier hchars
      rw [decide_eq_true_eq] at hshape
      rw [hchars]
      intro d hd
      simp only [List.mem_cons, List.not_mem_nil, or_false] at hd
      rcases hd with rfl | rfl
      · exact hlib.emojiData_head grapheme d [modifier] hsome hchars
      · refine ⟨?_, ?_⟩
        · rintro rfl
          exact absurd hshape.1 (by decide)
        · rintro rfl
          exact absurd hshape.1 (by decide)
    · cases hshape

/-- Accepted emoji are canonical. -/
theorem canonicalizeEmojiAlias_join (hlib : lib.Lawful) {emojis : List String} {maxVersion : Rat}
    (h : ∀ emoji ∈ emojis, graphemeAccepted lib emoji maxVersion = true) :
    canonicalizeEmojiAlias lib (String.join emojis) = String.join emojis := by
  have hchars : ∀ emoji ∈ emojis, _ := fun emoji hmem =>
    chars_of_graphemeAccepted hlib (h emoji hmem)
  refine canonicalizeEmojiAlias_of_plain hlib (fun c hc => ?_)
    (hlib.normalizeNfc_emoji emojis fun emoji hmem => (hchars emoji hmem).1)
  rw [String.toList_join, List.mem_flatMap] at hc
  obtain ⟨emoji, hmem, hc⟩ := hc
  exact (hchars emoji hmem).2 c hc

/-- What makes an accepted alias up. -/
theorem graphemes_of_ok {maxGraphemes : Nat} {maxVersion : Rat}
    (h : checkEmojiAlias lib linkAlias maxGraphemes maxVersion = .ok) :
    linkAlias ≠ "" ∧
      ∀ grapheme ∈ lib.graphemes linkAlias, graphemeAccepted lib grapheme maxVersion = true := by
  unfold checkEmojiAlias at h
  split at h
  · cases h
  · rename_i hne
    split at h
    · cases h
    · split at h
      · rename_i hall
        exact ⟨hne, List.all_eq_true.1 hall⟩
      · cases h

theorem canonicalizeEmojiAlias_of_ok (hlib : lib.Lawful) {maxGraphemes : Nat} {maxVersion : Rat}
    (h : checkEmojiAlias lib linkAlias maxGraphemes maxVersion = .ok) :
    canonicalizeEmojiAlias lib linkAlias = linkAlias := by
  rw [← hlib.join_graphemes linkAlias]
  exact canonicalizeEmojiAlias_join hlib (graphemes_of_ok h).2

/-- What has the shape of emoji is made of emoji. -/
theorem isEmojiOnlyShape_iff : isEmojiOnlyShape lib linkAlias = true ↔
    canonicalizeEmojiAlias lib linkAlias ≠ "" ∧
      ∀ grapheme ∈ lib.graphemes (canonicalizeEmojiAlias lib linkAlias),
        (lib.emojiData grapheme).isSome = true := by
  simp [isEmojiOnlyShape]

/-- An alias whose canonical form is accepted passes the shape check, and so does that form. -/
theorem isEmojiOnlyShape_of_ok (hlib : lib.Lawful) {maxGraphemes : Nat} {maxVersion : Rat}
    (h : checkEmojiAlias lib (canonicalizeEmojiAlias lib linkAlias) maxGraphemes maxVersion = .ok) :
    isEmojiOnlyShape lib linkAlias = true ∧
      isEmojiOnlyShape lib (canonicalizeEmojiAlias lib linkAlias) = true := by
  obtain ⟨hne, haccepted⟩ := graphemes_of_ok h
  have hdata : ∀ grapheme ∈ lib.graphemes (canonicalizeEmojiAlias lib linkAlias),
      (lib.emojiData grapheme).isSome = true := fun grapheme hmem =>
    (chars_of_graphemeAccepted hlib (haccepted grapheme hmem)).1
  refine ⟨isEmojiOnlyShape_iff.2 ⟨hne, hdata⟩, isEmojiOnlyShape_iff.2 ?_⟩
  rw [canonicalizeEmojiAlias_of_ok hlib h]
  exact ⟨hne, hdata⟩

theorem isEmojiAlias_of_alphanumeric (hlib : lib.Lawful)
    (h : linkAlias.toList.all isAliasChar = true) : isEmojiAlias lib linkAlias = false := by
  rw [List.all_eq_true] at h
  have hunquote : lib.unquote linkAlias = linkAlias :=
    hlib.unquote_of_no_percent linkAlias fun hmem => absurd (h _ hmem) (by decide)
  by_contra hemoji
  simp only [isEmojiAlias, hunquote, Bool.not_eq_false, Bool.and_eq_true,
    decide_eq_true_eq] at hemoji
  obtain ⟨c, hc, -, halias⟩ := hlib.emojiList_text linkAlias hemoji.1 hemoji.2
  rw [hlib.normalizeNfc_ascii linkAlias fun c hc => lt_of_isAliasChar (h c hc)] at hc
  exact absurd (h c hc) (by simp [halias])

/-- An emoji code has no alphanumeric canonical form. -/
theorem all_canonicalizeEmojiAlias (hlib : lib.Lawful) (h : isEmojiAlias lib linkAlias = true) :
    (canonicalizeEmojiAlias lib linkAlias).toList.all isAliasChar = false := by
  simp only [isEmojiAlias, Bool.and_eq_true, decide_eq_true_eq] at h
  obtain ⟨c, hc, hkept, halias⟩ := hlib.emojiList_text _ h.1 h.2
  rw [List.all_eq_false]
  refine ⟨c, ?_, by simp [halias]⟩
  simp only [canonicalizeEmojiAlias, String.toList_ofList, List.mem_filter]
  exact ⟨hc, by simpa using hkept⟩

end

/-- What the primitives return on plain ASCII text and on single emoji from U+2B50 on. -/
def plainEmojiLib : EmojiLib where
  unquote s := s
  normalizeNfc s := s
  emojiList s := (s.toList.filter fun c => 0x2B50 ≤ c.toNat ∧ c ≠ vs16).map Char.toString
  graphemes s := s.toList.map Char.toString
  emojiData s := if s.toList.all (0x2B50 ≤ ·.toNat) then some ⟨true, some 1⟩ else none

example : isEmojiAlias plainEmojiLib "⭐" = true ∧ isEmojiAlias plainEmojiLib "⭐\uFE0F" = false ∧
    canonicalizeEmojiAlias plainEmojiLib "⭐\uFE0F" = "⭐" := by decide +kernel

/-- The same with one emoji. -/
def starEmojiLib : EmojiLib :=
  { plainEmojiLib with emojiData := fun s => if s = "⭐" then some ⟨true, some 1⟩ else none }

theorem lawful_starEmojiLib : starEmojiLib.Lawful where
  unquote_of_no_percent _ _ := rfl
  normalizeNfc_ascii _ _ := rfl
  normalizeNfc_emoji _ _ := rfl
  join_graphemes s := by
    rw [← String.toList_inj, String.toList_join]
    simp [starEmojiLib, plainEmojiLib, List.flatMap_map]
  emojiData_head emoji c rest hdata htext := by
    have hstar : emoji = "⭐" := by
      by_contra hne
      simp [starEmojiLib, hne] at hdata
    subst hstar
    cases htext
    decide
  emojiList_text s hne hjoin := by
    have htext : (s.toList.filter fun c => 0x2B50 ≤ c.toNat ∧ c ≠ vs16) = s.toList := by
      rw [← String.toList_inj, String.toList_join] at hjoin
      simpa [starEmojiLib, plainEmojiLib, List.flatMap_map] using hjoin
    obtain ⟨c, hc⟩ := List.exists_mem_of_ne_nil s.toList (by simpa using hne)
    have hkept := List.filter_eq_self.1 htext c hc
    simp only [Bool.decide_and, Bool.and_eq_true, decide_eq_true_eq] at hkept
    refine ⟨c, hc, hkept.2, ?_⟩
    by_contra halias
    rw [Bool.not_eq_false] at halias
    have hascii := lt_of_isAliasChar halias
    omega

end Spoo
