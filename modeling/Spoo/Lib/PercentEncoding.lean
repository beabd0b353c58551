import Mathlib.Algebra.Ring.Nat
import Mathlib.Data.List.Basic

/-!
# Percent-decoding as in `urllib.parse.unquote`

A text is cut into runs of ASCII characters. In each of them every `%` with two hexadecimal digits is a
byte, and the bytes are decoded as UTF-8, each maximal ill-formed part as one replacement character.
-/

namespace PercentEncoding

/-- The value of a hexadecimal digit. -/
def hexValue (c : Char) : Option Nat :=
  if 48 ≤ c.toNat ∧ c.toNat ≤ 57 then some (c.toNat - 48)
  else if 97 ≤ c.toNat ∧ c.toNat ≤ 102 then some (c.toNat - 87)
  else if 65 ≤ c.toNat ∧ c.toNat ≤ 70 then some (c.toNat - 55)
  else none

/-- A hexadecimal digit. -/
def isHex (c : Char) : Bool := (hexValue c).isSome

/-- The byte that an escape at the head of a text stands for. -/
def headEscape : List Char → Option Nat
  | c :: high :: low :: _ =>
    if c = '%' then (hexValue high).bind fun h => (hexValue low).map (16 * h + ·) else none
  | _ => none

/-- `_unquote_impl`: the bytes of a run, less the first `skip` characters, which are the digits of an
escape that has been read. -/
def unquoteBytes (skip : Nat) : List Char → List Nat
  | [] => []
  | c :: rest =>
    match skip with
    | skip + 1 => unquoteBytes skip rest
    | 0 =>
      match headEscape (c :: rest) with
      | some byte => byte :: unquoteBytes 2 rest
      | none => c.toNat :: unquoteBytes 0 rest

/-- Some escape is in the text. -/
def hasEscape : List Char → Bool
  | [] => false
  | c :: rest => (headEscape (c :: rest)).isSome || hasEscape rest

/-- What has been read of a character of several bytes: how many bytes are to come, the range of the next
one, and the bits so far. -/
structure Pending where
  toCome : Nat
  low : Nat
  high : Nat
  bits : Nat

/-- The first byte of a character of several bytes. -/
def leadByte (byte : Nat) : Option Pending :=
  if 0xC2 ≤ byte ∧ byte ≤ 0xDF then some ⟨1, 0x80, 0xBF, byte - 0xC0⟩
  else if byte = 0xE0 then some ⟨2, 0xA0, 0xBF, 0⟩
  else if byte = 0xED then some ⟨2, 0x80, 0x9F, 0xD⟩
  else if 0xE1 ≤ byte ∧ byte ≤ 0xEF then some ⟨2, 0x80, 0xBF, byte - 0xE0⟩
  else if byte = 0xF0 then some ⟨3, 0x90, 0xBF, 0⟩
  else if 0xF1 ≤ byte ∧ byte ≤ 0xF3 then some ⟨3, 0x80, 0xBF, byte - 0xF0⟩
  else if byte = 0xF4 then some ⟨3, 0x80, 0x8F, 4⟩
  else none

/-- The character that stands for what is ill-formed. -/
def replacement : Char := '\uFFFD'

/-- A byte between two characters: the characters it completes, and what it begins. -/
def startByte (byte : Nat) : List Char × Option Pending :=
  if byte < 0x80 then ([Char.ofNat byte], none)
  else match leadByte byte with
    | some pending => ([], some pending)
    | none => ([replacement], none)

/-- A byte after what has been read. -/
def nextByte (pending : Option Pending) (byte : Nat) : List Char × Option Pending :=
  match pending with
  | none => startByte byte
  | some p =>
    if p.low ≤ byte ∧ byte ≤ p.high then
      let bits := 64 * p.bits + (byte - 0x80)
      if p.toCome ≤ 1 then ([Char.ofNat bits], none)
      else ([], some ⟨p.toCome - 1, 0x80, 0xBF, bits⟩)
    else (replacement :: (startByte byte).1, (startByte byte).2)

/-- `bytes.decode("utf-8", "replace")`. -/
def decode : Option Pending → List Nat → List Char
  | none, [] => []
  | some _, [] => [replacement]
  | pending, byte :: bytes => (nextByte pending byte).1 ++ decode (nextByte pending byte).2 bytes

/-- The text from a run on. -/
def unquoteFrom (run : List Char) : List Char → List Char
  | [] => decode none (unquoteBytes 0 run)
  | c :: rest =>
    if c.toNat < 0x80 then unquoteFrom (run ++ [c]) rest
    else decode none (unquoteBytes 0 run) ++ c :: unquoteFrom [] rest

/-- `urllib.parse.unquote`. -/
def unquote (text : String) : String := String.ofList (unquoteFrom [] text.toList)

/-! ## Text without escapes -/

theorem decode_ascii {text : List Char} (h : ∀ c ∈ text, c.toNat < 0x80) :
    decode none (text.map Char.toNat) = text := by
  induction text with
  | nil => rfl
  | cons c text ih =>
    have hc := h c List.mem_cons_self
    have hnext : nextByte none c.toNat = ([c], none) := by
      simp only [nextByte, startByte, if_pos hc, Char.ofNat_toNat]
    rw [List.map_cons, decode, hnext, ih fun d hd => h d (List.mem_cons_of_mem c hd)]
    rfl

theorem unquoteBytes_of_not_hasEscape {text : List Char} (h : hasEscape text = false) :
    unquoteBytes 0 text = text.map Char.toNat := by
  induction text with
  | nil => rfl
  | cons c text ih =>
    rw [hasEscape, Bool.or_eq_false_iff, Option.isSome_eq_false_iff, Option.isNone_iff_eq_none] at h
    rw [unquoteBytes, h.1, List.map_cons]
    exact congrArg _ (ih h.2)

/-- A text has the escapes of its parts. -/
theorem headEscape_append {text more : List Char} {byte : Nat} (h : headEscape text = some byte) :
    headEscape (text ++ more) = some byte := by
  match text, h with
  | _ :: _ :: _ :: _, h => exact h

theorem hasEscape_append_left {text : List Char} (h : hasEscape text = true) (more : List Char) :
    hasEscape (text ++ more) = true := by
  induction text with
  | nil => cases h
  | cons c text ih =>
    rw [hasEscape, Bool.or_eq_true] at h
    rw [List.cons_append, hasEscape, Bool.or_eq_true]
    rcases h with hhead | htail
    · obtain ⟨byte, hbyte⟩ := Option.isSome_iff_exists.1 hhead
      have hmore : headEscape (c :: (text ++ more)) = some byte := headEscape_append hbyte
      exact .inl (by rw [hmore]; rfl)
    · exact .inr (ih htail)

theorem hasEscape_append_right {text more : List Char} (h : hasEscape more = true) :
    hasEscape (text ++ more) = true := by
  induction text with
  | nil => exact h
  | cons c text ih =>
    rw [List.cons_append, hasEscape, ih, Bool.or_true]

/-- A text without escapes stays as it is. -/
theorem unquoteFrom_of_not_hasEscape {run rest : List Char} (hrun : ∀ c ∈ run, c.toNat < 0x80)
    (h : hasEscape (run ++ rest) = false) : unquoteFrom run rest = run ++ rest := by
  have decodes {run more : List Char} (hrun : ∀ c ∈ run, c.toNat < 0x80)
      (h : hasEscape (run ++ more) = false) : decode none (unquoteBytes 0 run) = run := by
    have hfree : hasEscape run = false := by
      by_contra hescape
      rw [hasEscape_append_left (by simpa using hescape) more] at h
      cases h
    rw [unquoteBytes_of_not_hasEscape hfree, decode_ascii hrun]
  induction rest generalizing run with
  | nil =>
    rw [unquoteFrom, decodes hrun h, List.append_nil]
  | cons c rest ih =>
    rw [unquoteFrom]
    split
    · rename_i hc
      have hnext : ∀ d ∈ run ++ [c], d.toNat < 0x80 := by
        intro d hd
        rcases List.mem_append.1 hd with hd | hd
        · exact hrun d hd
        · exact List.mem_singleton.1 hd ▸ hc
      rw [ih hnext (by simpa using h)]
      simp
    · have hrest : hasEscape rest = false := by
        by_contra hescape
        have hall : hasEscape ((run ++ [c]) ++ rest) = true :=
          hasEscape_append_right (by simpa using hescape)
        rw [List.append_assoc, List.singleton_append, h] at hall
        cases hall
      have hkept : unquoteFrom [] rest = rest := ih (fun d hd => by cases hd) hrest
      rw [decodes hrun h, hkept]

theorem unquote_of_not_hasEscape {text : String} (h : hasEscape text.toList = false) :
    unquote text = text := by
  rw [unquote, unquoteFrom_of_not_hasEscape (fun c hc => by cases hc) h, List.nil_append,
    String.ofList_toList]

/-! ## Hexadecimal digits

An escape takes two hexadecimal digits out of the text, and its byte brings back one at most. -/

/-- The byte of a hexadecimal digit. -/
def isHexByte (byte : Nat) : Bool :=
  (48 ≤ byte && byte ≤ 57) || (97 ≤ byte && byte ≤ 102) || (65 ≤ byte && byte ≤ 70)

theorem isHexByte_toNat (c : Char) : isHexByte c.toNat = isHex c := by
  unfold isHexByte isHex hexValue
  split_ifs with hdigit hlower hupper
  · simp [hdigit]
  · simp [hlower]
  · simp [hupper]
  · simp only [Option.isSome_none, Bool.or_eq_false_iff, Bool.and_eq_false_iff, decide_eq_false_iff_not]
    omega

theorem isHexByte_of_le {byte : Nat} (h : 0x80 ≤ byte) : isHexByte byte = false := by
  simp only [isHexByte, Bool.or_eq_false_iff, Bool.and_eq_false_iff, decide_eq_false_iff_not]
  omega

/-- A number beyond ASCII is the code of a character beyond ASCII, or of none, and is read as 0. -/
theorem isHex_ofNat_of_le {n : Nat} (h : 0x80 ≤ n) : isHex (Char.ofNat n) = false := by
  rw [← isHexByte_toNat]
  by_cases hvalid : n.isValidChar
  · have hcode : (Char.ofNat n).toNat = n := by
      rw [Char.ofNat, dif_pos hvalid]
      rfl
    rw [hcode]
    exact isHexByte_of_le h
  · rw [Char.ofNat, dif_neg hvalid]
    rfl

theorem isHex_ofNat_of_lt {byte : Nat} (h : byte < 0x80) : isHex (Char.ofNat byte) = isHexByte byte := by
  have hvalid : byte.isValidChar := .inl (by omega)
  rw [← isHexByte_toNat, Char.ofNat, dif_pos hvalid]
  rfl

/-- What has been read is on the way to a character beyond ASCII. -/
def Pending.Wide (p : Pending) : Prop :=
  0x80 ≤ p.low ∧ 0x80 ≤ (64 * p.bits + (p.low - 0x80)) * 64 ^ (p.toCome - 1)

theorem wide_leadByte {byte : Nat} {p : Pending} (h : leadByte byte = some p) : p.Wide := by
  unfold leadByte at h
  unfold Pending.Wide
  split_ifs at h <;> cases h <;> simp <;> omega

/-- The bytes that count have been read as characters that count. -/
structure ReadsHex (byte : Nat) (read : List Char × Option Pending) : Prop where
  le : read.1.countP isHex ≤ if isHexByte byte then 1 else 0
  wide : ∀ p ∈ read.2, p.Wide

theorem readsHex_startByte (byte : Nat) : ReadsHex byte (startByte byte) := by
  unfold startByte
  split
  · rename_i hascii
    refine ⟨?_, fun p hp => by cases hp⟩
    simp [isHex_ofNat_of_lt hascii]
  · split
    · rename_i p hlead
      refine ⟨Nat.zero_le _, ?_⟩
      rintro _ ⟨⟩
      exact wide_leadByte hlead
    · refine ⟨?_, fun p hp => by cases hp⟩
      have hreplaced : isHex replacement = false := by decide
      simp [hreplaced]

theorem readsHex_nextByte {pending : Option Pending} (h : ∀ p ∈ pending, p.Wide) (byte : Nat) :
    ReadsHex byte (nextByte pending byte) := by
  cases pending with
  | none => exact readsHex_startByte byte
  | some p =>
    obtain ⟨hlow, hwide⟩ := h p rfl
    simp only [nextByte]
    split
    · rename_i hrange
      have hbits : 64 * p.bits + (p.low - 0x80) ≤ 64 * p.bits + (byte - 0x80) := by omega
      have hgrown : 0x80 ≤ (64 * p.bits + (byte - 0x80)) * 64 ^ (p.toCome - 1) :=
        Nat.le_trans hwide (Nat.mul_le_mul_right _ hbits)
      split
      · rename_i hlast
        have hzero : p.toCome - 1 = 0 := by omega
        rw [hzero, Nat.pow_zero, Nat.mul_one] at hgrown
        refine ⟨?_, fun p hp => by cases hp⟩
        simp [isHex_ofNat_of_le hgrown]
      · rename_i hmore
        refine ⟨Nat.zero_le _, ?_⟩
        rintro _ ⟨⟩
        refine ⟨Nat.le_refl _, ?_⟩
        have hsplit : p.toCome - 1 = p.toCome - 1 - 1 + 1 := by omega
        rw [hsplit, Nat.pow_succ'] at hgrown
        simpa [Nat.mul_comm, Nat.mul_assoc, Nat.mul_left_comm] using hgrown
    · have hstart := readsHex_startByte byte
      refine ⟨?_, hstart.wide⟩
      have hreplaced : isHex replacement = false := by decide
      simpa [hreplaced] using hstart.le

theorem countP_decode_le {bytes : List Nat} : ∀ {pending : Option Pending}, (∀ p ∈ pending, p.Wide) →
    (decode pending bytes).countP isHex ≤ bytes.countP isHexByte := by
  induction bytes with
  | nil =>
    intro pending _
    cases pending with
    | none => exact Nat.le_refl _
    | some _ =>
      have hreplaced : isHex replacement = false := by decide
      simp [decode, hreplaced]
  | cons byte bytes ih =>
    intro pending hpending
    have hread := readsHex_nextByte hpending byte
    have hrest := ih hread.wide
    have hle := hread.le
    rw [decode, List.countP_append, List.countP_cons]
    omega

/-- The bytes of a run have no more hexadecimal digits than the run, and fewer where it has an escape. -/
theorem countP_unquoteBytes_le (text : List Char) : ∀ skip : Nat,
    (unquoteBytes skip text).countP isHexByte + (if hasEscape (text.drop skip) then 1 else 0) ≤
      (text.drop skip).countP isHex := by
  induction text with
  | nil => intro skip; cases skip <;> exact Nat.le_refl _
  | cons c text ih =>
    intro skip
    cases skip with
    | succ skip =>
      rw [unquoteBytes, List.drop_succ_cons]
      exact ih skip
    | zero =>
      rw [List.drop_zero, hasEscape, unquoteBytes]
      cases hhead : headEscape (c :: text) with
      | none =>
        have htail := ih 0
        rw [List.drop_zero] at htail
        simp only [List.countP_cons, isHexByte_toNat, Option.isSome_none, Bool.false_or]
        omega
      | some byte =>
        -- The two digits of the escape are counted in the text, and one byte at most in its stead.
        have hdigits : ∃ high low later, text = high :: low :: later ∧ isHex high = true ∧
            isHex low = true := by
          match text, hhead with
          | high :: low :: later, hhead =>
            simp only [headEscape] at hhead
            split at hhead
            · simp only [Option.bind_eq_some_iff, Option.map_eq_some_iff] at hhead
              obtain ⟨_, hhigh, _, hlow, -⟩ := hhead
              exact ⟨high, low, later, rfl, by simp [isHex, hhigh], by simp [isHex, hlow]⟩
            · cases hhead
        obtain ⟨high, low, later, rfl, hhigh, hlow⟩ := hdigits
        have htail := ih 2
        have hbyte : (if isHexByte byte then 1 else 0) ≤ 1 := by split <;> omega
        rw [List.drop_succ_cons, List.drop_succ_cons, List.drop_zero] at htail
        simp only [List.countP_cons, hhigh, hlow, if_true, Option.isSome_some, Bool.true_or]
        omega

/-- An escape does not reach over a character beyond ASCII. -/
theorem hasEscape_of_append_cons {text more : List Char} {c : Char} (hc : 0x80 ≤ c.toNat)
    (h : hasEscape (text ++ c :: more) = true) : hasEscape text = true ∨ hasEscape more = true := by
  have hhex : isHex c = false := by
    rw [← isHexByte_toNat]
    exact isHexByte_of_le hc
  have hnone : hexValue c = none := by simpa [isHex] using hhex
  have hpercent : c ≠ '%' := by
    rintro rfl
    exact absurd hc (by decide)
  induction text with
  | nil =>
    rw [List.nil_append, hasEscape, Bool.or_eq_true] at h
    rcases h with hhead | hmore
    · match more, hhead with
      | _ :: _ :: _, hhead => simp [headEscape, hpercent] at hhead
    · exact .inr hmore
  | cons d text ih =>
    rw [List.cons_append, hasEscape, Bool.or_eq_true] at h
    rcases h with hhead | hrest
    · left
      match text, hhead with
      | [], hhead =>
        match more, hhead with
        | _ :: _, hhead => simp [headEscape, hnone] at hhead
      | [_], hhead => simp [headEscape, hnone] at hhead
      | _ :: _ :: _, hhead =>
        rw [hasEscape, Bool.or_eq_true]
        exact .inl hhead
    · refine (ih hrest).imp_left fun htext => ?_
      rw [hasEscape, htext, Bool.or_true]

/-- The same of a run and of the text from it on. -/
theorem countP_unquoteFrom_le (rest : List Char) : ∀ run : List Char,
    (unquoteFrom run rest).countP isHex + (if hasEscape (run ++ rest) then 1 else 0) ≤
      (run ++ rest).countP isHex := by
  have decodes (run : List Char) : (decode none (unquoteBytes 0 run)).countP isHex +
      (if hasEscape run then 1 else 0) ≤ run.countP isHex := by
    have hbytes := countP_unquoteBytes_le run 0
    have hdecode : (decode none (unquoteBytes 0 run)).countP isHex ≤
        (unquoteBytes 0 run).countP isHexByte := countP_decode_le fun p hp => by cases hp
    rw [List.drop_zero] at hbytes
    omega
  induction rest with
  | nil =>
    intro run
    rw [unquoteFrom, List.append_nil]
    exact decodes run
  | cons c rest ih =>
    intro run
    rw [unquoteFrom]
    split
    · have hnext := ih (run ++ [c])
      rw [List.append_assoc, List.singleton_append] at hnext
      exact hnext
    · rename_i hc
      have hrun := decodes run
      have hrest := ih []
      have hescape : (if hasEscape (run ++ c :: rest) then 1 else 0) ≤
          (if hasEscape run then 1 else 0) + (if hasEscape rest then 1 else 0) := by
        split
        · rename_i hsome
          rcases hasEscape_of_append_cons (Nat.not_lt.1 hc) hsome with h | h
          · simp [h]
          · simp [h]
        · omega
      have hhex : isHex c = false := by
        rw [← isHexByte_toNat]
        exact isHexByte_of_le (Nat.not_lt.1 hc)
      rw [List.nil_append] at hrest
      rw [List.countP_append, List.countP_append, List.countP_cons_of_neg (by simp [hhex]),
        List.countP_cons_of_neg (by simp [hhex])]
      omega

/-- Decoding a text with an escape leaves fewer hexadecimal digits. -/
theorem countP_unquote_le (text : String) : (unquote text).toList.countP isHex +
    (if hasEscape text.toList then 1 else 0) ≤ text.toList.countP isHex := by
  rw [unquote, String.toList_ofList]
  exact countP_unquoteFrom_le text.toList []

/-! ## Spelling

A text that decodes to allowed characters has no others outside its escapes. -/

/-- Every character outside the escapes is allowed. The first `skip` characters are the digits of an escape
that has been read. -/
def isSpelled (allowed : Char → Bool) (skip : Nat) : List Char → Bool
  | [] => true
  | c :: rest =>
    match skip with
    | skip + 1 => isSpelled allowed skip rest
    | 0 =>
      match headEscape (c :: rest) with
      | some _ => isSpelled allowed 2 rest
      | none => allowed c && isSpelled allowed 0 rest

section

variable {allowed : Char → Bool}

theorem mem_startByte {byte : Nat} (h : byte < 0x80) : Char.ofNat byte ∈ (startByte byte).1 := by
  rw [startByte, if_pos h]
  exact List.mem_singleton_self _

/-- An ASCII byte is read as its character, whatever has been read before it. -/
theorem mem_nextByte {pending : Option Pending} (hpending : ∀ p ∈ pending, p.Wide) {byte : Nat}
    (h : byte < 0x80) : Char.ofNat byte ∈ (nextByte pending byte).1 := by
  cases pending with
  | none => exact mem_startByte h
  | some p =>
    have hlow := (hpending p rfl).1
    have hrange : ¬(p.low ≤ byte ∧ byte ≤ p.high) := by omega
    simp only [nextByte, if_neg hrange]
    exact List.mem_cons_of_mem _ (mem_startByte h)

theorem mem_decode {bytes : List Nat} {byte : Nat} (hmem : byte ∈ bytes) (hascii : byte < 0x80) :
    ∀ {pending : Option Pending}, (∀ p ∈ pending, p.Wide) → Char.ofNat byte ∈ decode pending bytes := by
  induction bytes with
  | nil => cases hmem
  | cons b bytes ih =>
    intro pending hpending
    rw [decode, List.mem_append]
    rcases List.mem_cons.1 hmem with rfl | hmem
    · exact .inl (mem_nextByte hpending hascii)
    · exact .inr (ih hmem (readsHex_nextByte hpending b).wide)

theorem isSpelled_of_unquoteBytes {text : List Char} : ∀ {skip : Nat}, (∀ c ∈ text, c.toNat < 0x80) →
    (∀ byte ∈ unquoteBytes skip text, byte < 0x80 → allowed (Char.ofNat byte) = true) →
    isSpelled allowed skip text = true := by
  induction text with
  | nil => exact fun _ _ => rfl
  | cons c text ih =>
    intro skip hascii hbytes
    have hrest : ∀ d ∈ text, d.toNat < 0x80 := fun d hd => hascii d (List.mem_cons_of_mem c hd)
    cases skip with
    | succ skip =>
      rw [isSpelled]
      exact ih hrest hbytes
    | zero =>
      rw [isSpelled]
      rw [unquoteBytes] at hbytes
      cases hhead : headEscape (c :: text) with
      | some byte =>
        rw [hhead] at hbytes
        exact ih hrest fun byte hbyte => hbytes byte (List.mem_cons_of_mem _ hbyte)
      | none =>
        rw [hhead] at hbytes
        have hc : allowed c = true := by
          have hallowed := hbytes c.toNat List.mem_cons_self (hascii c List.mem_cons_self)
          rwa [Char.ofNat_toNat] at hallowed
        simp only [hc, Bool.true_and]
        exact ih hrest fun byte hbyte => hbytes byte (List.mem_cons_of_mem _ hbyte)

/-- An escape is a percent sign and two digits. -/
theorem percent_of_headEscape {c : Char} {text : List Char} {byte : Nat}
    (h : headEscape (c :: text) = some byte) :
    c = '%' ∧ ∀ d ∈ text.take 2, isHex d = true := by
  match text, h with
  | high :: low :: _, h =>
    simp only [headEscape] at h
    split at h
    · rename_i hpercent
      simp only [Option.bind_eq_some_iff, Option.map_eq_some_iff] at h
      obtain ⟨_, hhigh, _, hlow, -⟩ := h
      exact ⟨hpercent, by simp [isHex, hhigh, hlow]⟩
    · cases h

theorem two_le_length_of_headEscape {c : Char} {text : List Char} {byte : Nat}
    (h : headEscape (c :: text) = some byte) : 2 ≤ text.length := by
  match text, h with
  | _ :: _ :: _, _ => exact Nat.le_add_left 2 _

/-- A character that is no digit ends the escapes before it. -/
theorem headEscape_append_cons {c d : Char} {text more : List Char} (hc : isHex c = false) :
    headEscape (d :: (text ++ c :: more)) = headEscape (d :: text) := by
  have hnone : hexValue c = none := by simpa [isHex] using hc
  match text with
  | [] =>
    match more with
    | [] => rfl
    | _ :: _ => simp [headEscape, hnone]
  | [_] => simp [headEscape, hnone]
  | _ :: _ :: _ => rfl

theorem headEscape_of_ne_percent {c : Char} {text : List Char} (h : c ≠ '%') :
    headEscape (c :: text) = none := by
  match text with
  | [] | [_] => rfl
  | _ :: _ :: _ => simp [headEscape, h]

theorem isSpelled_append_cons {c : Char} {text more : List Char} (hc : isHex c = false) (hpercent : c ≠ '%')
    (hallowed : allowed c = true) (hmore : isSpelled allowed 0 more = true) : ∀ {skip : Nat},
    skip ≤ text.length → isSpelled allowed skip text = true →
      isSpelled allowed skip (text ++ c :: more) = true := by
  induction text with
  | nil =>
    intro skip hskip _
    obtain rfl : skip = 0 := Nat.le_zero.1 hskip
    rw [List.nil_append, isSpelled, headEscape_of_ne_percent hpercent]
    simp only [hallowed, hmore, Bool.and_self]
  | cons d text ih =>
    intro skip hskip h
    cases skip with
    | succ skip =>
      rw [isSpelled] at h
      rw [List.cons_append, isSpelled]
      exact ih (Nat.le_of_succ_le_succ hskip) h
    | zero =>
      rw [isSpelled] at h
      rw [List.cons_append, isSpelled, headEscape_append_cons hc]
      cases hhead : headEscape (d :: text) with
      | some byte =>
        rw [hhead] at h
        exact ih (two_le_length_of_headEscape hhead) h
      | none =>
        rw [hhead] at h
        simp only [Bool.and_eq_true] at h ⊢
        exact ⟨h.1, ih (Nat.zero_le _) h.2⟩

theorem isSpelled_of_unquoteFrom (rest : List Char) : ∀ {run : List Char}, (∀ c ∈ run, c.toNat < 0x80) →
    (∀ c ∈ unquoteFrom run rest, allowed c = true) → isSpelled allowed 0 (run ++ rest) = true := by
  have spelled {run : List Char} (hrun : ∀ c ∈ run, c.toNat < 0x80)
      (h : ∀ c ∈ decode none (unquoteBytes 0 run), allowed c = true) : isSpelled allowed 0 run = true :=
    isSpelled_of_unquoteBytes hrun fun byte hbyte hascii =>
      h _ (mem_decode hbyte hascii fun p hp => by cases hp)
  induction rest with
  | nil =>
    intro run hrun h
    rw [unquoteFrom] at h
    rw [List.append_nil]
    exact spelled hrun h
  | cons c rest ih =>
    intro run hrun h
    rw [unquoteFrom] at h
    split at h
    · rename_i hc
      have hnext : ∀ d ∈ run ++ [c], d.toNat < 0x80 := by
        intro d hd
        rcases List.mem_append.1 hd with hd | hd
        · exact hrun d hd
        · exact List.mem_singleton.1 hd ▸ hc
      rw [List.append_cons]
      exact ih hnext h
    · rename_i hc
      have hhex : isHex c = false := by
        rw [← isHexByte_toNat]
        exact isHexByte_of_le (Nat.not_lt.1 hc)
      have hpercent : c ≠ '%' := by
        rintro rfl
        exact hc (by decide)
      have hrest : ∀ d ∈ unquoteFrom [] rest, allowed d = true := fun d hd => h d (by simp [hd])
      refine isSpelled_append_cons hhex hpercent (h c (by simp)) ?_ (Nat.zero_le _) ?_
      · exact ih (fun d hd => absurd hd List.not_mem_nil) hrest
      · exact spelled hrun fun d hd => h d (List.mem_append_left _ hd)

/-- A text that decodes to allowed characters has no others outside its escapes. -/
theorem isSpelled_of_unquote {text : String} (h : ∀ c ∈ (unquote text).toList, allowed c = true) :
    isSpelled allowed 0 text.toList = true := by
  rw [unquote, String.toList_ofList] at h
  exact isSpelled_of_unquoteFrom text.toList (fun c hc => by cases hc) h

/-- A character that no escape is made of is allowed wherever it stands. -/
theorem allowed_of_mem_isSpelled {d : Char} (hhex : isHex d = false) (hpercent : d ≠ '%') {text : List Char} :
    ∀ {skip : Nat}, (∀ c ∈ text.take skip, isHex c = true) → isSpelled allowed skip text = true → d ∈ text →
      allowed d = true := by
  induction text with
  | nil => exact fun _ _ hmem => absurd hmem List.not_mem_nil
  | cons c text ih =>
    intro skip hdigits h hmem
    cases skip with
    | succ skip =>
      rw [isSpelled] at h
      have hne : d ≠ c := by
        rintro rfl
        have hdigit := hdigits d List.mem_cons_self
        rw [hhex] at hdigit
        cases hdigit
      exact ih (fun e he => hdigits e (List.mem_cons_of_mem c he)) h ((List.mem_cons.1 hmem).resolve_left hne)
    | zero =>
      rw [isSpelled] at h
      cases hhead : headEscape (c :: text) with
      | some byte =>
        rw [hhead] at h
        obtain ⟨rfl, hlater⟩ := percent_of_headEscape hhead
        exact ih hlater h ((List.mem_cons.1 hmem).resolve_left hpercent)
      | none =>
        rw [hhead] at h
        simp only [Bool.and_eq_true] at h
        rcases List.mem_cons.1 hmem with rfl | hmem
        · exact h.1
        · exact ih (fun e he => absurd he List.not_mem_nil) h.2 hmem

end

end PercentEncoding
