import Spoo.Services.Webhooks.Renderers.Discord

/-!
# Texts of a Discord body

Values are escaped or put into a fence, and cut before and after that. A cut before the escape takes whole
characters. A cut of escaped text leaves no more than an escape of the ellipsis. A cut of a fenced text takes
the fence that closes it.
-/

namespace Spoo.Renderers.Discord

open Markup

def isSlash (g : Glyph) : Bool := g.char = '\\'

/-- A control character from a value, other than in the target of a link. -/
def isBad (g : Glyph) : Bool := decide (g.origin = .value) && isMarkdown g

/-- The text less the target of a link. -/
def withoutTarget (text : Text) : Text := text.filter fun g => decide (g.origin ≠ .target)

/-- The fences are closed and the control characters of values outside them are escaped, the target of a link
apart. -/
def ReadsWell (text : Text) : Prop := WellFormed isSlash isTick isBad (withoutTarget text)

/-- In the target of a link the parentheses are encoded. -/
def Encoded (text : Text) : Prop := ∀ g ∈ text, g.origin = .target → g.char ≠ '(' ∧ g.char ≠ ')'

/-- A text without fences in which the values are escaped, the target of a link apart. -/
structure IsPlain (text : Text) : Prop where
  reads : Plain isSlash isTick isBad (withoutTarget text)
  encoded : Encoded text

/-! ## Glyphs -/

@[simp] theorem withoutTarget_append (s t : Text) :
    withoutTarget (s ++ t) = withoutTarget s ++ withoutTarget t :=
  List.filter_append ..

/-- No part of the text is the target of a link. -/
def Written (text : Text) : Prop := ∀ g ∈ text, g.origin ≠ .target

theorem withoutTarget_of_written {t : Text} (h : Written t) : withoutTarget t = t :=
  List.filter_eq_self.2 fun g hg => decide_eq_true (h g hg)

theorem written_ofChars {origin : Origin} (horigin : origin ≠ .target) (cs : List Char) :
    Written (ofChars origin cs) := by
  intro g hg
  obtain ⟨c, -, rfl⟩ := List.mem_map.1 hg
  exact horigin

theorem written_lit (s : String) : Written (lit s) := written_ofChars (by decide) _

theorem written_val (s : String) : Written (val s) := written_ofChars (by decide) _

theorem Written.append {s t : Text} (hs : Written s) (ht : Written t) : Written (s ++ t) := by
  intro g hg
  rcases List.mem_append.1 hg with hg | hg
  · exact hs g hg
  · exact ht g hg

theorem Written.of_subset {s t : Text} (ht : Written t) (hsub : ∀ g ∈ s, g ∈ t) : Written s :=
  fun g hg => ht g (hsub g hg)

theorem Written.clip {t : Text} (h : Written t) (n : Nat) : Written (clip t n) := by
  unfold Renderers.clip
  split
  · exact h
  · exact (h.of_subset fun g hg => List.mem_of_mem_take hg).append (written_lit _)

/-- What is true of the parts and of the separator, and of texts put together, is true of the whole. -/
theorem intercalate_induction {P : Text → Prop} {sep : Text} {ts : List Text} (hnil : P [])
    (happend : ∀ s t, P s → P t → P (s ++ t)) (hsep : P sep) (h : ∀ t ∈ ts, P t) :
    P (List.intercalate sep ts) := by
  induction ts with
  | nil => exact hnil
  | cons t ts ih =>
    have ht := h t List.mem_cons_self
    have hts := ih fun t' ht' => h t' (List.mem_cons_of_mem _ ht')
    cases ts with
    | nil => simpa [List.intercalate] using ht
    | cons t' ts =>
      have hsplit : List.intercalate sep (t :: t' :: ts) = t ++ (sep ++ List.intercalate sep (t' :: ts)) := by
        simp [List.intercalate]
      rw [hsplit]
      exact happend _ _ ht (happend _ _ hsep hts)

theorem Written.intercalate {sep : Text} {ts : List Text} (hsep : Written sep) (h : ∀ t ∈ ts, Written t) :
    Written (List.intercalate sep ts) :=
  intercalate_induction (by simp [Written]) (fun _ _ => Written.append) hsep h

/-- No control character. -/
def IsClean (c : Char) : Prop := c ∉ markdownChars

instance (c : Char) : Decidable (IsClean c) := inferInstanceAs (Decidable (¬_))

theorem isMarkdown_iff (g : Glyph) : isMarkdown g = true ↔ g.char ∈ markdownChars := List.contains_iff_mem

theorem isMarkdown_of_isSlash (g : Glyph) (h : isSlash g = true) : isMarkdown g = true := by
  have hc : g.char = '\\' := by simpa [isSlash] using h
  rw [isMarkdown_iff, hc]
  decide

theorem isMarkdown_of_isTick (g : Glyph) (h : isTick g = true) : isMarkdown g = true := by
  have hc : g.char = '\x60' := by simpa [isTick] using h
  rw [isMarkdown_iff, hc]
  decide

theorem Encoded.append {s t : Text} (hs : Encoded s) (ht : Encoded t) : Encoded (s ++ t) := by
  intro g hg
  rcases List.mem_append.1 hg with hg | hg
  · exact hs g hg
  · exact ht g hg

theorem Written.encoded {t : Text} (h : Written t) : Encoded t := fun g hg htarget => absurd htarget (h g hg)

theorem Encoded.clip {t : Text} (h : Encoded t) (n : Nat) : Encoded (clip t n) := by
  unfold Renderers.clip
  split
  · exact h
  · have htake : Encoded (t.take (n - 1)) := fun g hg => h g (List.mem_of_mem_take hg)
    exact htake.append (written_lit _).encoded

/-! ## Plain texts -/

theorem isPlain_nil : IsPlain [] := ⟨Plain.nil, by simp [Encoded]⟩

theorem IsPlain.append {s t : Text} (hs : IsPlain s) (ht : IsPlain t) : IsPlain (s ++ t) := by
  refine ⟨?_, hs.encoded.append ht.encoded⟩
  rw [withoutTarget_append]
  exact hs.reads.append ht.reads

theorem Written.isPlain {t : Text} (h : Written t) (hplain : Plain isSlash isTick isBad t) : IsPlain t :=
  ⟨by rwa [withoutTarget_of_written h], h.encoded⟩

/-- A literal without escapes and ticks. -/
def isUnmarked (s : String) : Bool := s.toList.all fun c => decide (c ≠ '\\') && decide (c ≠ '\x60')

theorem isPlain_lit (s : String) (h : isUnmarked s = true) : IsPlain (lit s) := by
  refine (written_lit s).isPlain (Plain.of_unmarked fun g hg => ?_)
  obtain ⟨c, hc, rfl⟩ := List.mem_map.1 hg
  obtain ⟨hslash, htick⟩ := Bool.and_eq_true_iff.1 (List.all_eq_true.1 h c hc)
  exact ⟨decide_eq_false (of_decide_eq_true hslash), decide_eq_false (of_decide_eq_true htick), rfl⟩

/-- A value without control characters. -/
theorem isPlain_ofChars {cs : List Char} (h : ∀ c ∈ cs, IsClean c) : IsPlain (ofChars .value cs) := by
  refine (written_ofChars (by decide) cs).isPlain (Plain.of_unmarked fun g hg => ?_)
  obtain ⟨c, hc, rfl⟩ := List.mem_map.1 hg
  have hclean : isMarkdown ⟨c, .value⟩ = false := Bool.eq_false_iff.2 fun hm => h c hc ((isMarkdown_iff _).1 hm)
  refine ⟨Bool.eq_false_iff.2 fun hs => ?_, Bool.eq_false_iff.2 fun ht => ?_, ?_⟩
  · rw [isMarkdown_of_isSlash _ hs] at hclean
    cases hclean
  · rw [isMarkdown_of_isTick _ ht] at hclean
    cases hclean
  · simp [isBad, hclean]

theorem written_md {t : Text} (h : Written t) : Written (md t) := by
  intro g hg
  obtain ⟨x, hx, hg⟩ := List.mem_flatMap.1 hg
  split at hg
  · rcases List.mem_cons.1 hg with rfl | hg
    · decide
    · exact List.mem_singleton.1 hg ▸ h x hx
  · exact List.mem_singleton.1 hg ▸ h x hx

theorem isPlain_md {t : Text} (h : Written t) : IsPlain (md t) := by
  refine (written_md h).isPlain
    (Plain.escape (by decide) (by decide) (by decide) isMarkdown_of_isSlash isMarkdown_of_isTick ?_)
  intro g _ hg
  simp [isBad, hg]

theorem mem_replaceChar {c : Char} {new : String} {t : Text} {g : Glyph} (h : g ∈ replaceChar c new t) :
    g.char ∈ new.toList ∨ g ∈ t ∧ g.char ≠ c := by
  obtain ⟨x, hx, hg⟩ := List.mem_flatMap.1 h
  split at hg
  · obtain ⟨d, hd, rfl⟩ := List.mem_map.1 hg
    exact .inl hd
  · rename_i hne
    obtain rfl := List.mem_singleton.1 hg
    exact .inr ⟨hx, hne⟩

theorem isPlain_linkTarget (url : Text) : IsPlain (linkTarget url) := by
  constructor
  · have hnil : withoutTarget (linkTarget url) = [] := by
      rw [withoutTarget, List.filter_eq_nil_iff]
      intro g hg
      obtain ⟨x, -, rfl⟩ := List.mem_map.1 hg
      simp
    rw [hnil]
    exact Plain.nil
  · intro g hg _
    obtain ⟨x, hx, rfl⟩ := List.mem_map.1 hg
    -- The characters of a replacement are no parentheses.
    have hencoded : ∀ s : String, '(' ∉ s.toList → ')' ∉ s.toList → x.char ∈ s.toList →
        x.char ≠ '(' ∧ x.char ≠ ')' := by
      intro s hopening hclosing hx
      exact ⟨fun h => hopening (h ▸ hx), fun h => hclosing (h ▸ hx)⟩
    rcases mem_replaceChar hx with hnew | ⟨hx, hright⟩
    · exact hencoded "%29" (by decide) (by decide) hnew
    · rcases mem_replaceChar hx with hnew | ⟨-, hleft⟩
      · exact hencoded "%28" (by decide) (by decide) hnew
      · exact ⟨hleft, hright⟩

/-- A text that is cut has lost its end and, with it, no more than what the end was escaped by. -/
theorem IsPlain.clip {t : Text} (h : IsPlain t) (n : Nat) : IsPlain (clip t n) := by
  refine ⟨?_, h.encoded.clip n⟩
  unfold Renderers.clip
  split
  · exact h.reads
  · have hprefix : withoutTarget (t.take (n - 1)) <+: withoutTarget t := (List.take_prefix _ _).filter _
    rw [withoutTarget_append, List.prefix_iff_eq_take.1 hprefix]
    exact h.reads.take_concat _ (by decide) (by decide) (by decide)

theorem isPlain_intercalate {sep : Text} {ts : List Text} (hsep : IsPlain sep) (h : ∀ t ∈ ts, IsPlain t) :
    IsPlain (List.intercalate sep ts) :=
  intercalate_induction isPlain_nil (fun _ _ => IsPlain.append) hsep h

/-! ## Counts and countries -/

theorem isClean_of_isAlphanum {c : Char} (h : c.isAlphanum = true) : IsClean c := by
  intro hc
  have hnone : markdownChars.all (fun c => !c.isAlphanum) = true := by decide
  have hother : (!c.isAlphanum) = true := List.all_eq_true.1 hnone c hc
  rw [h] at hother
  cases hother

/-- No control character is beyond ASCII. -/
theorem isClean_of_le {c : Char} (h : 128 ≤ c.toNat) : IsClean c := by
  intro hc
  have hascii : markdownChars.all (fun c => c.toNat < 128) = true := by decide
  have hlt : c.toNat < 128 := of_decide_eq_true (List.all_eq_true.1 hascii c hc)
  omega

theorem mem_groupDigits {c : Char} {digits : List Char} (h : c ∈ groupDigits digits) :
    c = ',' ∨ c ∈ digits := by
  fun_induction groupDigits digits with
  | case1 a b d e rest ih =>
    simp only [List.mem_cons] at h ih ⊢
    rcases h with rfl | rfl | rfl | rfl | h
    · simp
    · simp
    · simp
    · simp
    · rcases ih h with rfl | rfl | hmem
      · simp
      · simp
      · simp [hmem]
  | case2 digits => exact .inr h

theorem isClean_toDigits {c : Char} {n : Nat} (h : c ∈ Nat.toDigits 10 n) : IsClean c := by
  have hdigit := Nat.isDigit_of_mem_toDigits (by decide) (by decide) h
  exact isClean_of_isAlphanum (by simp [Char.isAlphanum, hdigit])

theorem isClean_thousands {c : Char} {n : Int} (h : c ∈ thousands n) : IsClean c := by
  rcases List.mem_append.1 h with hsign | hdigits
  · split at hsign
    · rw [List.mem_singleton.1 hsign]
      decide
    · cases hsign
  · rcases mem_groupDigits (List.mem_reverse.1 hdigits) with rfl | hdigit
    · decide
    · exact isClean_toDigits (List.mem_reverse.1 hdigit)

theorem isClean_toString {c : Char} {n : Int} (h : c ∈ (toString n).toList) : IsClean c := by
  cases n with
  | ofNat m =>
    have hdigits : c ∈ (Nat.repr m).toList := h
    rw [Nat.toList_repr] at hdigits
    exact isClean_toDigits hdigits
  | negSucc m =>
    have hchars : c ∈ ("-" ++ Nat.repr (m + 1)).toList := h
    rw [String.toList_append, List.mem_append, Nat.toList_repr] at hchars
    rcases hchars with hsign | hdigits
    · rw [List.mem_singleton.1 hsign]
      decide
    · exact isClean_toDigits hdigits

theorem isClean_toUpper {c : Char} (h : c.isAlpha = true) : IsClean c.toUpper := by
  have hascii : c.toNat < 128 := by
    rcases Bool.or_eq_true_iff.1 h with hupper | hlower
    · have hrange : 'A'.val ≤ c.val ∧ c.val ≤ 'Z'.val := of_decide_eq_true hupper
      have hle : c.toNat ≤ 90 := hrange.2
      omega
    · have hrange : (decide ('a'.val ≤ c.val) && decide (c.val ≤ 'z'.val)) = true := hlower
      have hle : c.toNat ≤ 122 := of_decide_eq_true (Bool.and_eq_true_iff.1 hrange).2
      omega
  have hall : ∀ n < 128, (Char.ofNat n).isAlpha = true → (Char.ofNat n).toUpper.isAlphanum = true := by decide
  have hupper := hall c.toNat hascii
  rw [Char.ofNat_toNat] at hupper
  exact isClean_of_isAlphanum (hupper h)

theorem isClean_flag {c : Char} {upper : List Char} (h : c ∈ flag upper) : IsClean c := by
  obtain ⟨d, -, rfl⟩ := List.mem_map.1 h
  by_cases hvalid : Nat.isValidChar (0x1F1E6 + d.toNat - 65)
  · have hchar : Char.ofNat (0x1F1E6 + d.toNat - 65) = Char.ofNatAux _ hvalid := dif_pos hvalid
    have hle : 128 ≤ 0x1F1E6 + d.toNat - 65 := by omega
    rw [hchar]
    apply isClean_of_le
    exact hle
  · have hchar : Char.ofNat (0x1F1E6 + d.toNat - 65) = Char.ofNat 0 := dif_neg hvalid
    rw [hchar]
    decide

/-! ## Fences -/

/-- Three backticks. -/
def fenceMark : Text := lit "```"

/-- A text between two fences. -/
structure IsFenced (t : Text) : Prop where
  parts : ∃ inner, t = fenceMark ++ (inner ++ fenceMark) ∧ Written inner ∧ hasFence isTick inner = false ∧
    ∀ g ∈ inner.getLast?, isTick g = false

theorem IsFenced.written {t : Text} (h : IsFenced t) : Written t := by
  obtain ⟨inner, rfl, hinner, -, -⟩ := h.parts
  exact (written_lit _).append (hinner.append (written_lit _))

theorem IsFenced.readsWell {t : Text} (h : IsFenced t) : ReadsWell t := by
  rw [ReadsWell, withoutTarget_of_written h.written]
  obtain ⟨inner, rfl, -, hnone, hlast⟩ := h.parts
  exact wellFormed_fenced (by decide) (by decide) (by decide) (by decide) (by decide) (by decide) hnone hlast

theorem IsFenced.opensFence {t : Text} (h : IsFenced t) : hasFence isTick (withoutTarget t) = true := by
  rw [withoutTarget_of_written h.written]
  obtain ⟨inner, rfl, -⟩ := h.parts
  rfl

/-- A text without fences that no fence can begin before. -/
structure Unfenced (t : Text) : Prop where
  none : Markup.hasFence isTick t = false
  head : ∀ g ∈ t.head?, isTick g = false

theorem unfenced_of_forall {t : Text} (h : ∀ g ∈ t, isTick g = false) : Unfenced t :=
  ⟨hasFence_of_forall h, fun g hg => h g (List.mem_of_mem_head? hg)⟩

theorem Unfenced.append {s t : Text} (hs : Unfenced s) (ht : Unfenced t) : Unfenced (s ++ t) := by
  cases t with
  | nil => simpa using hs
  | cons g t =>
    have hg : isTick g = false := ht.head g rfl
    have hrest : Markup.hasFence isTick t = false := by
      have hnone := ht.none
      rw [Markup.hasFence, opens_cons_of_not hg, Bool.false_or] at hnone
      exact hnone
    refine ⟨by rw [hasFence_append_cons hg, hs.none, hrest]; rfl, ?_⟩
    cases s with
    | nil => exact ht.head
    | cons g' s => exact hs.head

theorem mem_breakFences {other : Glyph → Glyph} {t : Text} {g : Glyph} (h : g ∈ breakFences isTick other t) :
    ∃ x ∈ t, g = x ∨ g = other x := by
  fun_induction breakFences isTick other t with
  | case1 a b c t _ ih =>
    simp only [List.mem_cons] at h
    rcases h with rfl | rfl | rfl | h
    · exact ⟨a, by simp, .inr rfl⟩
    · exact ⟨b, by simp, .inr rfl⟩
    · exact ⟨c, by simp, .inr rfl⟩
    · obtain ⟨x, hx, hg⟩ := ih h
      exact ⟨x, by simp [hx], hg⟩
  | case2 a b c t _ ih =>
    rcases List.mem_cons.1 h with rfl | h
    · exact ⟨g, by simp, .inl rfl⟩
    · obtain ⟨x, hx, hg⟩ := ih h
      exact ⟨x, List.mem_cons_of_mem _ hx, hg⟩
  | case3 t _ => exact ⟨g, h, .inl rfl⟩

theorem written_fence {t : Text} (h : Written t) : Written (fence t) := by
  intro g hg
  obtain ⟨x, hx, rfl | rfl⟩ := mem_breakFences hg
  · exact h g hx
  · exact h x hx

theorem hasFence_fence (t : Text) : Markup.hasFence isTick (fence t) = false :=
  hasFence_breakFences (fun _ => rfl) t

/-- A text in a fenced block that begins with a word of the code. -/
theorem isFenced_block {word : String} (hword : ∀ g ∈ lit word, isTick g = false) {t : Text} (ht : Written t)
    (hnone : Markup.hasFence isTick t = false) :
    IsFenced (fenceMark ++ lit word ++ t ++ (lit "\n" ++ fenceMark)) := by
  refine ⟨lit word ++ t ++ lit "\n", by simp [List.append_assoc],
    ((written_lit _).append ht).append (written_lit _), ?_, ?_⟩
  · have hbreak : Markup.hasFence isTick (t ++ lit "\n") = false := by
      rw [show lit "\n" = [⟨'\n', .code⟩] from rfl, hasFence_append_cons (by decide), hnone]
      rfl
    rw [List.append_assoc, hasFence_append_of_forall hword, hbreak]
  · intro g hg
    rw [show lit "\n" = [⟨'\n', .code⟩] from rfl, List.getLast?_concat] at hg
    rw [← Option.some.inj hg]
    rfl

/-! ## Displays -/

/-- What a display is made as. -/
def IsDisplay (t : Text) : Prop := IsPlain t ∨ IsFenced t

theorem IsDisplay.readsWell {t : Text} (h : IsDisplay t) : ReadsWell t := by
  rcases h with hplain | hfenced
  · exact hplain.reads.wellFormed
  · exact hfenced.readsWell

theorem IsDisplay.encoded {t : Text} (h : IsDisplay t) : Encoded t := by
  rcases h with hplain | hfenced
  · exact hplain.encoded
  · exact hfenced.written.encoded

/-- A display without a fence is plain. -/
theorem IsDisplay.isPlain {t : Text} (h : IsDisplay t) (hnone : hasFence isTick (withoutTarget t) = false) :
    IsPlain t := by
  rcases h with hplain | hfenced
  · exact hplain
  · rw [hfenced.opensFence] at hnone
    cases hnone

end Spoo.Renderers.Discord
