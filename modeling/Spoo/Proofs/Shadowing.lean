import Spoo.Lib.Probe
import Spoo.Proofs.NewDestinations
import Spoo.Routes.Legacy.UrlShortener

/-!
# Codes that stay with their link

A code is looked up in at most three slots: an alias of `urlsV2` on a domain, an `_id` of `urls` and
one or two of `emojis`. A new link fills one free slot, and a rename or a move empties one and fills
another.
-/

namespace Spoo

open Mongo Mongo.Collection UrlService
open SafetyEnforcer (LinkRef)

/-! ## Slots -/

/-- A link by its collection and its `_id`. -/
def SelectedLink.ref : SelectedLink → LinkRef
  | v2 doc => .v2 doc.id
  | v1 row => .v1 row.code
  | emoji row => .emoji row.code

/-- One lookup. -/
inductive CodeSlot where
  | v2 (domain linkAlias : String)
  | v1 (code : String)
  | emoji (code : String)
  deriving DecidableEq

/-- The link in a slot. -/
def Stores.linkAt (s : Stores) : CodeSlot → Option LinkRef
  | .v2 domain linkAlias => (s.urls.idAt (domain, linkAlias)).map .v2
  | .v1 code => (s.legacy.idAt code).map .v1
  | .emoji code => (s.emoji.idAt code).map .emoji

/-- The lookups of a code on a domain, in order. -/
def codeProbes (cfg : DispatchConfig) (domain : Option String) (code : String) :
    List CodeSlot :=
  if scopeOf cfg domain = cfg.systemDefaultDomain then
    if isEmojiShaped cfg.lib code then
      .v2 cfg.systemDefaultDomain (canonicalizeEmojiAlias cfg.lib code) ::
        (emojiLookupCandidates cfg.lib code).map .emoji
    else if code.length = 6 then [.v1 code, .v2 cfg.systemDefaultDomain code]
    else [.v2 cfg.systemDefaultDomain code, .v1 code]
  else [.v2 (scopeOf cfg domain) (v2LookupCode cfg.lib code)]

section

variable {cfg : DispatchConfig} {s : Stores} {domain : Option String} {code : String}

theorem ref_findByAlias (linkAlias scope : String) :
    ((UrlRepository.findByAlias s.urls linkAlias scope).map SelectedLink.v2).map
      SelectedLink.ref = s.linkAt (.v2 scope linkAlias) := by
  have hmatches : (UrlRepository.aliasClause (linkAlias, scope)).Matches =
      fun row : UrlRow => decide (Document.key row = (scope, linkAlias)) := by
    funext row
    rw [UrlRepository.matches_aliasClause]
    simp [Document.key, and_comm]
  rw [UrlRepository.findByAlias, hmatches, Stores.linkAt, idAt, Option.map_map, Option.map_map,
    Option.map_map]
  rfl

theorem ref_selectV2 (code : String) :
    (selectV2 cfg s code).map SelectedLink.ref = s.linkAt (.v2 cfg.systemDefaultDomain code) :=
  ref_findByAlias code cfg.systemDefaultDomain

private theorem findById_eq (store : LegacyUrlStore) (code : String) :
    (LegacyUrlRepository.findById store code).map LegacyUrlRow.code = store.idAt code := by
  have hmatches : (LegacyUrlRepository.idFilter code).Matches =
      fun row : LegacyUrlRow => decide (Document.key row = code) := by
    funext row
    exact LegacyUrlRepository.matches_idFilter code
  rw [LegacyUrlRepository.findById, hmatches]
  rfl

theorem ref_selectV1 (code : String) :
    (selectV1 s code).map SelectedLink.ref = s.linkAt (.v1 code) := by
  rw [Stores.linkAt, ← findById_eq, selectV1, Option.map_map, Option.map_map]
  rfl

theorem ref_selectEmoji (code : String) :
    (selectEmoji s code).map SelectedLink.ref = s.linkAt (.emoji code) := by
  rw [Stores.linkAt, ← findById_eq, selectEmoji, Option.map_map, Option.map_map]
  rfl

/-- A code resolves to the first link in its slots. -/
theorem ref_resolveSelect (cfg : DispatchConfig) (s : Stores) (domain : Option String)
    (code : String) : (resolveSelect cfg s domain code).map SelectedLink.ref =
      (codeProbes cfg domain code).findSome? s.linkAt := by
  unfold resolveSelect codeProbes
  dsimp only
  split
  · cases hshaped : isEmojiShaped cfg.lib code with
    | true =>
      rw [dispatchCode_of_shaped hshaped, Option.map_or, Option.map_or, ref_selectV2,
        ref_selectEmoji, ref_selectEmoji, if_pos rfl, emojiLookupCandidates]
      split
      · rename_i hcanonical
        rw [hcanonical, List.map_singleton, PyList.findSome?_pair, Option.or_assoc, Option.or_self]
      · rw [Option.or_assoc, ← PyList.findSome?_pair s.linkAt]
        simp only [List.map_cons, List.map_nil, List.findSome?_cons]
        cases s.linkAt (.v2 cfg.systemDefaultDomain (canonicalizeEmojiAlias cfg.lib code)) <;> rfl
    | false =>
      rw [dispatchCode_of_not_shaped hshaped, if_neg Bool.false_ne_true]
      split
      · rw [Option.map_or, ref_selectV1, ref_selectV2, PyList.findSome?_pair]
      · rw [Option.map_or, ref_selectV1, ref_selectV2, PyList.findSome?_pair]
  · rw [ref_findByAlias, List.findSome?_singleton]

end

/-! ## What a slot masks -/

/-- The codes of the stored emoji links are canonical up to variation selectors. -/
def Vs16Ids (lib : EmojiLib) (emoji : LegacyUrlStore) : Prop :=
  ∀ row ∈ emoji.docs, matchesVs16Insensitive
    (canonicalizeEmojiAlias lib row.code).toList row.code.toList = true

section

variable {cfg : DispatchConfig} {s : Stores} {linkAlias : String}

theorem isSome_linkAt_v2 (scope linkAlias : String) :
    (s.linkAt (.v2 scope linkAlias)).isSome =
      UrlRepository.checkAliasExists s.urls linkAlias scope := by
  rw [← ref_findByAlias, UrlRepository.findByAlias, Option.isSome_map, Option.isSome_map,
    Option.isSome_map]
  rfl

theorem isSome_linkAt_v1 (code : String) :
    (s.linkAt (.v1 code)).isSome = LegacyUrlRepository.checkExists s.legacy code := by
  rw [← ref_selectV1, selectV1, Option.isSome_map, Option.isSome_map]
  rfl

theorem exists_of_linkAt_emoji {code : String} (h : (s.linkAt (.emoji code)).isSome = true) :
    ∃ row ∈ s.emoji.docs, row.code = code := by
  obtain ⟨ref, href⟩ := Option.isSome_iff_exists.1 h
  obtain ⟨_, hid, -⟩ := Option.map_eq_some_iff.1 href
  obtain ⟨row, hrow, hkey, -⟩ := idAt_eq_some_iff.1 hid
  exact ⟨row, hrow, hkey⟩

/-- A new alias on a custom domain masks nothing. -/
theorem not_masks_custom {scope : String} (hscope : scope ≠ cfg.systemDefaultDomain)
    (domain : Option String) (code : String) :
    ¬Probe.Masks s.linkAt (.v2 scope linkAlias) (codeProbes cfg domain code) := by
  unfold codeProbes
  split
  · refine Probe.not_masks_of_not_mem ?_
    repeat' split
    all_goals simp [hscope]
  · rw [Probe.masks_cons]
    rintro (⟨-, hlater⟩ | ⟨-, -, hlater⟩)
    · cases hlater
    · exact hlater

/-- A new alphanumeric alias of the system domain masks the v1 link of the same code, unless the
code has the length at which v1 links come first. -/
theorem masks_alphanumeric_iff (hlib : cfg.lib.Lawful)
    (halias : linkAlias.toList.all isAliasChar = true) (domain : Option String) (code : String) :
    Probe.Masks s.linkAt (.v2 cfg.systemDefaultDomain linkAlias) (codeProbes cfg domain code) ↔
      scopeOf cfg domain = cfg.systemDefaultDomain ∧ code = linkAlias ∧ code.length ≠ 6 ∧
        LegacyUrlRepository.checkExists s.legacy code = true := by
  unfold codeProbes
  by_cases hscope : scopeOf cfg domain = cfg.systemDefaultDomain
  · rw [if_pos hscope]
    cases hshaped : isEmojiShaped cfg.lib code with
    | true =>
      have hne : canonicalizeEmojiAlias cfg.lib code ≠ linkAlias := by
        intro heq
        have hnot := not_alphanumeric_of_shaped hlib hshaped
        rw [heq, halias] at hnot
        cases hnot
      rw [if_pos rfl, iff_false_left (Probe.not_masks_of_not_mem (by simp [hne.symm]))]
      rintro ⟨-, rfl, -⟩
      rw [not_shaped_of_alphanumeric hlib halias] at hshaped
      cases hshaped
    | false =>
      rw [if_neg Bool.false_ne_true]
      split
      · rename_i hlen
        simp [Probe.Masks, hlen]
      · rename_i hlen
        rw [Probe.masks_cons, List.findSome?_singleton, isSome_linkAt_v1]
        simp [Probe.Masks, hscope, hlen]
  · rw [if_neg hscope]
    simp [Probe.Masks, hscope]

/-- No v1 or emoji link has the alias, up to variation selectors. -/
def LegacyFree (s : Stores) (linkAlias : String) : Prop :=
  LegacyUrlRepository.checkExists s.legacy linkAlias = false ∧
    (isEmojiCandidate linkAlias = true →
      LegacyUrlRepository.checkExistsVs16Insensitive s.emoji linkAlias = false)

/-- The alias check on the system domain covers the older generations. -/
theorem legacyFree_of_available {target : Option String}
    (h : checkAliasAvailable cfg s linkAlias target = true)
    (hscope : scopeOf cfg target = cfg.systemDefaultDomain) : LegacyFree s linkAlias := by
  unfold checkAliasAvailable at h
  dsimp only at h
  rw [hscope] at h
  split at h
  · cases h
  · rw [if_pos rfl] at h
    split at h
    · cases h
    · rename_i hv1
      refine ⟨by simpa using hv1, fun hcandidate => ?_⟩
      rw [if_pos hcandidate] at h
      simpa using h

/-- A new alias of the system domain that no older link has masks nothing. -/
theorem not_masks_of_legacyFree (hlib : cfg.lib.Lawful) (hids : Vs16Ids cfg.lib s.emoji)
    (h : LegacyFree s linkAlias) (domain : Option String) (code : String) :
    ¬Probe.Masks s.linkAt (.v2 cfg.systemDefaultDomain linkAlias)
      (codeProbes cfg domain code) := by
  obtain ⟨hv1, hemoji⟩ := h
  cases hcandidate : isEmojiCandidate linkAlias with
  | false =>
    have halias : linkAlias.toList.all isAliasChar = true := by
      simpa [isEmojiCandidate] using hcandidate
    rw [masks_alphanumeric_iff hlib halias]
    rintro ⟨-, rfl, -, hfound⟩
    rw [hv1] at hfound
    cases hfound
  | true =>
    have hnone : ∀ row ∈ s.emoji.docs,
        matchesVs16Insensitive linkAlias.toList row.code.toList = false := by
      simpa [LegacyUrlRepository.checkExistsVs16Insensitive, findOne] using hemoji hcandidate
    -- Neither the alias nor a variant of it is the code of an emoji link.
    have hfree : canonicalizeEmojiAlias cfg.lib code = linkAlias →
        ∀ candidate ∈ emojiLookupCandidates cfg.lib code, s.linkAt (.emoji candidate) = none := by
      intro hcanonical candidate hmem
      by_contra hsome
      obtain ⟨row, hrow, rfl⟩ := exists_of_linkAt_emoji (Option.isSome_iff_ne_none.2 hsome)
      have hcases : row.code = code ∨ row.code = linkAlias := by
        unfold emojiLookupCandidates at hmem
        dsimp only at hmem
        split at hmem
        · exact .inl (List.mem_singleton.1 hmem)
        · simpa [hcanonical] using hmem
      have hmatch : matchesVs16Insensitive linkAlias.toList row.code.toList = true := by
        rcases hcases with hraw | hraw
        · rw [← hcanonical, ← hraw]
          exact hids row hrow
        · rw [hraw]
          exact matchesVs16Insensitive_refl _
      rw [hnone row hrow] at hmatch
      cases hmatch
    unfold codeProbes
    split
    · split
      · rw [Probe.masks_cons]
        rintro (⟨heq, hlater⟩ | ⟨-, -, hlater⟩)
        · obtain ⟨ref, href⟩ := Option.isSome_iff_exists.1 hlater
          obtain ⟨slot, hslot, hfound⟩ := List.exists_of_findSome?_eq_some href
          obtain ⟨candidate, hmem, rfl⟩ := List.mem_map.1 hslot
          rw [hfree (CodeSlot.v2.inj heq).2 candidate hmem] at hfound
          cases hfound
        · exact Probe.not_masks_of_not_mem (by simp) hlater
      · split
        · simp [Probe.Masks]
        · rw [Probe.masks_cons, List.findSome?_singleton, isSome_linkAt_v1]
          rintro (⟨heq, hlater⟩ | ⟨-, -, hlater⟩)
          · rw [(CodeSlot.v2.inj heq).2, hv1] at hlater
            cases hlater
          · exact Probe.not_masks_of_not_mem (by simp) hlater
    · rename_i hother
      exact Probe.not_masks_of_not_mem (by simp [Ne.symm hother])

/-- A key that the alias check finds free masks nothing, whatever becomes of `urlsV2`. -/
theorem not_masks_of_available {s' : Stores} {scope : String} (hlib : cfg.lib.Lawful)
    (hids : Vs16Ids cfg.lib s.emoji) (h : checkAliasAvailable cfg s linkAlias (some scope) = true)
    (hlegacy : s'.legacy = s.legacy) (hemoji : s'.emoji = s.emoji) (domain : Option String)
    (code : String) :
    ¬Probe.Masks s'.linkAt (.v2 scope linkAlias) (codeProbes cfg domain code) := by
  by_cases hscope : scope = cfg.systemDefaultDomain
  · subst hscope
    have hfree : LegacyFree s linkAlias := legacyFree_of_available h (scopeOf_system cfg)
    refine not_masks_of_legacyFree hlib (hemoji ▸ hids) ?_ domain code
    unfold LegacyFree
    rw [hlegacy, hemoji]
    exact hfree
  · exact not_masks_custom hscope domain code

/-- A new v1 link masks nothing where no v2 link of the system domain has its code. -/
theorem not_masks_v1 (h : s.linkAt (.v2 cfg.systemDefaultDomain linkAlias) = none)
    (domain : Option String) (code : String) :
    ¬Probe.Masks s.linkAt (.v1 linkAlias) (codeProbes cfg domain code) := by
  unfold codeProbes
  split
  · split
    · exact Probe.not_masks_of_not_mem (by simp)
    · split
      · rw [Probe.masks_cons, List.findSome?_singleton]
        rintro (⟨heq, hlater⟩ | ⟨-, -, hlater⟩)
        · rw [CodeSlot.v1.inj heq, h] at hlater
          cases hlater
        · exact Probe.not_masks_of_not_mem (by simp) hlater
      · simp [Probe.Masks]
  · exact Probe.not_masks_of_not_mem (by simp)

/-- A new emoji link under a canonical code masks nothing. -/
theorem not_masks_emoji (h : canonicalizeEmojiAlias cfg.lib linkAlias = linkAlias)
    (domain : Option String) (code : String) :
    ¬Probe.Masks s.linkAt (.emoji linkAlias) (codeProbes cfg domain code) := by
  unfold codeProbes
  split
  · split
    · rw [emojiLookupCandidates]
      split
      · simp [Probe.Masks]
      · rename_i hcanonical
        intro hmask
        rcases Probe.masks_cons.1 hmask with ⟨heq, -⟩ | ⟨-, -, hmask⟩
        · cases heq
        rcases Probe.masks_cons.1 hmask with ⟨heq, -⟩ | ⟨-, -, hmask⟩
        · cases CodeSlot.emoji.inj heq
          exact hcanonical h
        · simp [Probe.Masks] at hmask
    · split <;> exact Probe.not_masks_of_not_mem (by simp)
  · exact Probe.not_masks_of_not_mem (by simp)

end

/-! ## Links that stay -/

/-- The link has another alias or domain than before. -/
def KeyMoved (s s' : Stores) (ref : LinkRef) : Prop :=
  ∃ id row row', ref = .v2 id ∧ s.urls.lookup id = some row ∧ s'.urls.lookup id = some row' ∧
    (row'.domain, row'.linkAlias) ≠ (row.domain, row.linkAlias)

/-- A code that resolves to a link goes on to, unless the link has given up its key. -/
def KeepsLinks (cfg : DispatchConfig) (s s' : Stores) : Prop :=
  ∀ domain code link, resolveSelect cfg s domain code = some link →
    KeyMoved s s' link.ref ∨
      ∃ link', resolveSelect cfg s' domain code = some link' ∧ link'.ref = link.ref

section

variable {cfg : DispatchConfig} {s s' : Stores} {slot old : CodeSlot} {ref : LinkRef}

theorem keepsLinks_iff_ref : KeepsLinks cfg s s' ↔
    ∀ domain code ref, (codeProbes cfg domain code).findSome? s.linkAt = some ref →
      KeyMoved s s' ref ∨ (codeProbes cfg domain code).findSome? s'.linkAt = some ref := by
  simp only [← ref_resolveSelect, Option.map_eq_some_iff]
  constructor
  · rintro h domain code _ ⟨link, hlink, rfl⟩
    exact h domain code link hlink
  · intro h domain code link hlink
    exact h domain code link.ref ⟨link, hlink, rfl⟩

theorem keepsLinks_of_linkAt (h : s'.linkAt = s.linkAt) : KeepsLinks cfg s s' := by
  rw [keepsLinks_iff_ref, h]
  exact fun _ _ _ => .inr

/-- A free slot gets a link that no slot had. -/
structure Fills (s s' : Stores) (slot : CodeSlot) (ref : LinkRef) : Prop where
  free : s.linkAt slot = none
  fresh : ∀ probe, s.linkAt probe ≠ some ref
  linkAt : s'.linkAt = Function.update s.linkAt slot (some ref)

/-- A new link keeps the others if and only if its slot masks no code. -/
theorem Fills.keepsLinks_iff (h : Fills s s' slot ref) (hkeys : ∀ r, ¬KeyMoved s s' r) :
    KeepsLinks cfg s s' ↔
      ∀ domain code, ¬Probe.Masks s.linkAt slot (codeProbes cfg domain code) := by
  rw [keepsLinks_iff_ref]
  refine forall_congr' fun domain => forall_congr' fun code => ?_
  rw [← Probe.findSome?_update_iff h.free h.fresh, h.linkAt]
  refine forall_congr' fun r => imp_congr_right fun _ => or_iff_right (hkeys r)

/-- A link that gives up one slot for another keeps the others where the new slot masks no code. -/
theorem keepsLinks_move {id : ObjectId} (hold : s.linkAt old = some (.v2 id))
    (hmove : s'.linkAt =
      Function.update (Function.update s.linkAt old none) slot (some (.v2 id)))
    (hfree : slot ≠ old → s.linkAt slot = none)
    (hmoved : slot ≠ old → KeyMoved s s' (.v2 id))
    (hmask : slot ≠ old →
      ∀ domain code, ¬Probe.Masks s.linkAt slot (codeProbes cfg domain code)) :
    KeepsLinks cfg s s' := by
  by_cases hslot : slot = old
  · subst hslot
    rw [Function.update_idem, ← hold, Function.update_eq_self] at hmove
    exact keepsLinks_of_linkAt hmove
  · rw [keepsLinks_iff_ref]
    intro domain code r hfound
    by_cases hself : r = .v2 id
    · exact .inl (hself ▸ hmoved hslot)
    · -- The new slot is filled before the old one is emptied.
      right
      rw [hmove, Function.update_comm (Ne.symm hslot)]
      have hfilled := Probe.findSome?_update_of_not_masks (x := LinkRef.v2 id) (hfree hslot)
        (hmask hslot domain code) hfound
      refine Probe.findSome?_update_none hfilled ?_
      rw [Function.update_of_ne (Ne.symm hslot), hold]
      exact fun heq => hself (Option.some.inj heq).symm

end

/-! ## What a write does to the slots -/

section

variable {s s' : Stores}

/-- The slots of `urlsV2`, by their key. -/
def CodeSlot.ofKey (key : String × String) : CodeSlot := .v2 key.1 key.2

theorem CodeSlot.ofKey_injective : CodeSlot.ofKey.Injective := by
  rintro ⟨domain, linkAlias⟩ ⟨domain', linkAlias'⟩ heq
  obtain ⟨rfl, rfl⟩ := CodeSlot.v2.inj heq
  rfl

theorem linkAt_comp_ofKey (s : Stores) :
    s.linkAt ∘ CodeSlot.ofKey = Option.map LinkRef.v2 ∘ s.urls.idAt := rfl

/-- Another collection is not in the slots of `urlsV2`. -/
theorem linkAt_of_not_mem_ofKey (hlegacy : s'.legacy = s.legacy) (hemoji : s'.emoji = s.emoji)
    (slot : CodeSlot) (h : slot ∉ Set.range CodeSlot.ofKey) : s'.linkAt slot = s.linkAt slot := by
  cases slot with
  | v2 domain linkAlias => exact absurd ⟨(domain, linkAlias), rfl⟩ h
  | v1 code => rw [Stores.linkAt, hlegacy, Stores.linkAt]
  | emoji code => rw [Stores.linkAt, hemoji, Stores.linkAt]

/-- Inserting into one collection, whose slots are `place` and whose links are `name`. -/
private theorem fills_of_insertOne {D I K : Type} [Document D I K] [DecidableEq I] [DecidableEq K]
    {c c' : Collection D} {d : D} (h : c.insertOne d = some c') {place : K → CodeSlot}
    {name : I → LinkRef} (hplace : place.Injective) (hname : name.Injective)
    (hslots : s.linkAt ∘ place = Option.map name ∘ c.idAt)
    (hslots' : s'.linkAt ∘ place = Option.map name ∘ c'.idAt)
    (hothers : ∀ slot, slot ∉ Set.range place →
      s'.linkAt slot = s.linkAt slot ∧ ∀ i, s.linkAt slot ≠ some (name i)) :
    Fills s s' (place (Document.key d)) (name (Document.id d)) := by
  obtain ⟨hfree, hidAt⟩ := idAt_insertOne h
  obtain ⟨hid, -, -⟩ := insertOne_eq_some h
  refine ⟨?_, fun probe hprobe => ?_, ?_⟩
  · have hslot : s.linkAt (place (Document.key d)) = (c.idAt (Document.key d)).map name :=
      congrFun hslots _
    rw [hslot, hfree, Option.map_none]
  · by_cases hmem : probe ∈ Set.range place
    · obtain ⟨k, rfl⟩ := hmem
      have hslot : s.linkAt (place k) = (c.idAt k).map name := congrFun hslots k
      obtain ⟨i, hfound, heq⟩ := Option.map_eq_some_iff.1 (hslot ▸ hprobe)
      obtain ⟨e, he, -, hei⟩ := idAt_eq_some_iff.1 hfound
      exact hid (List.mem_map.2 ⟨e, he, hei.trans (hname heq)⟩)
    · exact (hothers probe hmem).2 _ hprobe
  · refine Probe.eq_update_of_comp place hplace _ ?_ fun slot hslot => (hothers slot hslot).1
    rw [hslots', hslots, hidAt, Function.comp_update]
    rfl

private theorem map_ne_some {α : Type} {f : α → LinkRef} {ref : LinkRef} (hne : ∀ a, f a ≠ ref)
    (o : Option α) : o.map f ≠ some ref := by
  cases o with
  | none => exact fun h => by cases h
  | some a => exact fun h => hne a (Option.some.inj h)

/-- Inserting a v2 link. -/
theorem fills_insertUrl {row : UrlRow} (h : s.urls.insertOne row = some s'.urls)
    (hlegacy : s'.legacy = s.legacy) (hemoji : s'.emoji = s.emoji) :
    Fills s s' (.v2 row.domain row.linkAlias) (.v2 row.id) := by
  refine fills_of_insertOne h CodeSlot.ofKey_injective (fun _ _ => LinkRef.v2.inj) rfl rfl
    fun slot hslot => ⟨linkAt_of_not_mem_ofKey hlegacy hemoji slot hslot, fun id => ?_⟩
  cases slot with
  | v2 domain linkAlias => exact absurd ⟨(domain, linkAlias), rfl⟩ hslot
  | v1 code => exact map_ne_some (fun _ => LinkRef.noConfusion) _
  | emoji code => exact map_ne_some (fun _ => LinkRef.noConfusion) _

/-- Inserting a v1 link. -/
theorem fills_insertLegacy {row : LegacyUrlRow} (h : s.legacy.insertOne row = some s'.legacy)
    (hurls : s'.urls = s.urls) (hemoji : s'.emoji = s.emoji) :
    Fills s s' (.v1 row.code) (.v1 row.code) := by
  refine fills_of_insertOne h (fun _ _ => CodeSlot.v1.inj) (fun _ _ => LinkRef.v1.inj) rfl rfl
    fun slot hslot => ?_
  cases slot with
  | v2 domain linkAlias =>
    exact ⟨by rw [Stores.linkAt, hurls, Stores.linkAt],
      fun _ => map_ne_some (fun _ => LinkRef.noConfusion) _⟩
  | v1 code => exact absurd ⟨code, rfl⟩ hslot
  | emoji code =>
    exact ⟨by rw [Stores.linkAt, hemoji, Stores.linkAt],
      fun _ => map_ne_some (fun _ => LinkRef.noConfusion) _⟩

/-- Inserting an emoji link. -/
theorem fills_insertEmoji {row : LegacyUrlRow} (h : s.emoji.insertOne row = some s'.emoji)
    (hurls : s'.urls = s.urls) (hlegacy : s'.legacy = s.legacy) :
    Fills s s' (.emoji row.code) (.emoji row.code) := by
  refine fills_of_insertOne h (fun _ _ => CodeSlot.emoji.inj) (fun _ _ => LinkRef.emoji.inj) rfl
    rfl fun slot hslot => ?_
  cases slot with
  | v2 domain linkAlias =>
    exact ⟨by rw [Stores.linkAt, hurls, Stores.linkAt],
      fun _ => map_ne_some (fun _ => LinkRef.noConfusion) _⟩
  | v1 code =>
    exact ⟨by rw [Stores.linkAt, hlegacy, Stores.linkAt],
      fun _ => map_ne_some (fun _ => LinkRef.noConfusion) _⟩
  | emoji code => exact absurd ⟨code, rfl⟩ hslot

/-- A link is at the key it is stored with, and inserts move none. -/
theorem not_keyMoved (h : ∀ id row row', s.urls.lookup id = some row →
    s'.urls.lookup id = some row' → row' = row) (r : LinkRef) : ¬KeyMoved s s' r := by
  rintro ⟨id, row, row', -, hrow, hrow', hne⟩
  rw [h id row row' hrow hrow'] at hne
  exact hne rfl

theorem not_keyMoved_of_urls (h : s'.urls = s.urls) (r : LinkRef) : ¬KeyMoved s s' r := by
  refine not_keyMoved (fun id row row' hrow hrow' => ?_) r
  rw [h, hrow] at hrow'
  exact (Option.some.inj hrow').symm

/-- A write to one v2 link keeps the others where the key it leaves the link with masks no code. -/
theorem keepsLinks_write {cfg : DispatchConfig} {q : UrlRow → Bool} {u : Update UrlRow}
    {row : UrlRow} (hwrite : s.urls.updateManyUnique q u = some s'.urls)
    (hlegacy : s'.legacy = s.legacy) (hemoji : s'.emoji = s.emoji) (hrow : row ∈ s.urls.docs)
    (hq : ∀ d ∈ s.urls.docs, q d = true ↔ d = row)
    (hmask : Document.key (u.apply row) ≠ Document.key row → ∀ domain code,
      ¬Probe.Masks s.linkAt (.ofKey (Document.key (u.apply row))) (codeProbes cfg domain code)) :
    KeepsLinks cfg s s' := by
  obtain ⟨hidAt, hfree⟩ := idAt_updateManyUnique hwrite hrow hq
  have hkey : CodeSlot.ofKey (Document.key (u.apply row)) ≠ .ofKey (Document.key row) →
      Document.key (u.apply row) ≠ Document.key row := fun hne heq => hne (by rw [heq])
  have hold : s.linkAt (.ofKey (Document.key row)) = some (.v2 row.id) :=
    congrArg (Option.map LinkRef.v2) (idAt_eq_some_iff.2 ⟨row, hrow, rfl, rfl⟩)
  refine keepsLinks_move hold ?_
    (fun hne => congrArg (Option.map LinkRef.v2) (hfree (hkey hne))) (fun hne => ?_)
    fun hne => hmask (hkey hne)
  · refine Probe.eq_update_of_comp CodeSlot.ofKey CodeSlot.ofKey_injective _ ?_
      fun slot hslot => ?_
    · rw [linkAt_comp_ofKey, hidAt, Function.comp_update, Function.comp_update,
        Function.update_comp_eq_of_injective _ CodeSlot.ofKey_injective, linkAt_comp_ofKey]
      rfl
    · rw [Function.update_of_ne fun heq => hslot ⟨_, heq.symm⟩]
      exact linkAt_of_not_mem_ofKey hlegacy hemoji slot hslot
  · have hlookup : s.urls.lookup row.id = some row := lookup_eq_some_iff.2 ⟨hrow, rfl⟩
    have hlookup' : s'.urls.lookup row.id = some (u.apply row) := by
      rw [lookup_updateManyUnique hwrite, hlookup, Option.map_some,
        applyWhere_of_matches u ((hq row hrow).2 rfl)]
    exact ⟨row.id, row, u.apply row, rfl, hlookup, hlookup', hkey hne⟩

end

end Spoo
