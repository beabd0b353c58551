import Mathlib.Algebra.Order.Group.Int
import Mathlib.Data.Nat.Basic

/-!
# The Gregorian calendar

Days are counted from the first of January of the year 1. The year of a day is estimated from the mean
length of a year, which is right to within one year, and the month is found by walking through the months
of the year. Later days have later dates, and later dates have greater texts as long as a year has four
digits.
-/

namespace Calendar

/-- A date. -/
structure Date where
  year : Int
  month : Nat
  day : Nat
  deriving DecidableEq, Repr

/-- The days before a year. -/
def daysBeforeYear (year : Int) : Int :=
  (year - 1) * 365 + (year - 1) / 4 - (year - 1) / 100 + (year - 1) / 400

def isLeap (year : Int) : Bool := year % 4 = 0 && (year % 100 ≠ 0 || year % 400 = 0)

/-- The lengths of the months. -/
def monthLengths (year : Int) : List Nat :=
  [31, if isLeap year then 29 else 28, 31, 30, 31, 30, 31, 31, 30, 31, 30, 31]

/-- The year of a day. -/
def yearOf (day : Int) : Int :=
  let estimate := 400 * day / 146097 + 1
  if day < daysBeforeYear estimate then estimate - 1
  else if daysBeforeYear (estimate + 1) ≤ day then estimate + 1
  else estimate

/-- The month and the day in it, from the months that are left and the days that are left. -/
def walkMonths (month : Nat) : List Nat → Nat → Nat × Nat
  | [], days => (month, days + 1)
  | length :: lengths, days =>
    if days < length then (month, days + 1) else walkMonths (month + 1) lengths (days - length)

/-- The day of the year, from 0. -/
def dayOfYear (day : Int) : Nat := (day - daysBeforeYear (yearOf day)).toNat

/-- The date of a day. -/
def dateOf (day : Int) : Date :=
  let year := yearOf day
  let (month, dayOfMonth) := walkMonths 1 (monthLengths year) (dayOfYear day)
  ⟨year, month, dayOfMonth⟩

/-- The number of a date. -/
def Date.number (date : Date) : Int :=
  let before : Nat := ((monthLengths date.year).take (date.month - 1)).foldr (· + ·) 0
  daysBeforeYear date.year + before + date.day - 1

/-- The day of the week, from Monday. -/
def weekday (day : Int) : Int := day % 7

/-- The times of a wall clock are counted in microseconds from the first of January 1970. -/
def microsPerDay : Int := 86400000000

def microsPerHour : Int := 3600000000

def microsPerMinute : Int := 60000000

/-- The day of a time. -/
def dayOf (w : Int) : Int := w / microsPerDay + 719162

/-- The fields of a time. -/
structure Stamp where
  date : Date
  hour : Nat
  minute : Nat
  deriving DecidableEq, Repr

def stampOf (w : Int) : Stamp where
  date := dateOf (dayOf w)
  hour := (w % microsPerDay / microsPerHour).toNat
  minute := (w % microsPerHour / microsPerMinute).toNat

/-! ## The order of dates -/

/-- The order of the dates. -/
def Date.Before (a b : Date) : Prop :=
  a.year < b.year ∨ a.year = b.year ∧ (a.month < b.month ∨ a.month = b.month ∧ a.day < b.day)

theorem yearOf_spec (day : Int) :
    daysBeforeYear (yearOf day) ≤ day ∧ day < daysBeforeYear (yearOf day + 1) := by
  unfold yearOf
  dsimp only
  split
  · unfold daysBeforeYear at *
    omega
  · split
    · unfold daysBeforeYear at *
      omega
    · omega

/-- The days of a year. -/
theorem daysBeforeYear_succ (year : Int) :
    daysBeforeYear (year + 1) = daysBeforeYear year + if isLeap year then 366 else 365 := by
  have hleap : isLeap year = true ↔ year % 4 = 0 ∧ (year % 100 ≠ 0 ∨ year % 400 = 0) := by simp [isLeap]
  unfold daysBeforeYear
  split
  · rename_i h
    have hrule := hleap.1 h
    omega
  · rename_i h
    have hrule := mt hleap.2 h
    omega

theorem daysBeforeYear_mono {year year' : Int} (h : year ≤ year') :
    daysBeforeYear year ≤ daysBeforeYear year' := by
  unfold daysBeforeYear
  omega

/-- A day is in a year from the first of January on. -/
theorem le_yearOf_iff {year day : Int} : year ≤ yearOf day ↔ daysBeforeYear year ≤ day := by
  obtain ⟨hle, hlt⟩ := yearOf_spec day
  constructor
  · exact fun h => (daysBeforeYear_mono h).trans hle
  · intro h
    by_contra hbefore
    have hmono := daysBeforeYear_mono (show yearOf day + 1 ≤ year by omega)
    omega

theorem dayOfYear_lt (day : Int) : dayOfYear day < if isLeap (yearOf day) then 366 else 365 := by
  obtain ⟨hle, hlt⟩ := yearOf_spec day
  rw [daysBeforeYear_succ] at hlt
  unfold dayOfYear
  split
  · rename_i hleap
    rw [if_pos hleap] at hlt
    omega
  · rename_i hcommon
    rw [if_neg hcommon] at hlt
    omega

theorem le_fst_walkMonths (lengths : List Nat) :
    ∀ month days, month ≤ (walkMonths month lengths days).1 := by
  induction lengths with
  | nil => exact fun month days => le_refl month
  | cons length lengths ih =>
    intro month days
    unfold walkMonths
    split
    · exact le_refl month
    · exact (Nat.le_succ month).trans (ih (month + 1) (days - length))

/-- Later days are in later months, or later in the same month. -/
theorem walkMonths_lt (lengths : List Nat) : ∀ {month days days' : Nat}, days < days' →
    (walkMonths month lengths days).1 < (walkMonths month lengths days').1 ∨
      (walkMonths month lengths days).1 = (walkMonths month lengths days').1 ∧
        (walkMonths month lengths days).2 < (walkMonths month lengths days').2 := by
  induction lengths with
  | nil => exact fun h => .inr ⟨rfl, Nat.succ_lt_succ h⟩
  | cons length lengths ih =>
    intro month days days' h
    unfold walkMonths
    by_cases hfirst : days < length
    · rw [if_pos hfirst]
      split
      · exact .inr ⟨rfl, Nat.succ_lt_succ h⟩
      · exact .inl (le_fst_walkMonths lengths (month + 1) (days' - length))
    · rw [if_neg hfirst, if_neg (by omega)]
      exact ih (by omega)

/-- Later days have later dates. -/
theorem dateOf_before {day day' : Int} (h : day < day') : (dateOf day).Before (dateOf day') := by
  obtain ⟨hle, hlt⟩ := yearOf_spec day
  have hyear : yearOf day ≤ yearOf day' := le_yearOf_iff.2 (hle.trans h.le)
  rcases hyear.lt_or_eq with hbefore | hsame
  · exact .inl hbefore
  · have hdays : dayOfYear day < dayOfYear day' := by
      unfold dayOfYear
      rw [← hsame]
      omega
    refine .inr ⟨hsame, ?_⟩
    unfold dateOf
    dsimp only
    rw [← hsame]
    exact walkMonths_lt _ hdays

/-- A walk that ends within the months. -/
theorem walkMonths_within (lengths : List Nat) (hlengths : ∀ length ∈ lengths, length ≤ 31) :
    ∀ {month days}, days < lengths.foldr (· + ·) 0 →
      (walkMonths month lengths days).1 < month + lengths.length ∧ (walkMonths month lengths days).2 ≤ 31 := by
  induction lengths with
  | nil => exact fun h => absurd h (Nat.not_lt_zero _)
  | cons length lengths ih =>
    intro month days h
    have hfirst : length ≤ 31 := hlengths length List.mem_cons_self
    rw [List.foldr_cons] at h
    rw [List.length_cons]
    unfold walkMonths
    split
    · exact ⟨by dsimp only; omega, by dsimp only; omega⟩
    · have hrest := @ih (fun l hl => hlengths l (List.mem_cons_of_mem _ hl)) (month + 1) (days - length)
        (by omega)
      omega

theorem dateOf_within (day : Int) : (dateOf day).month ≤ 12 ∧ (dateOf day).day ≤ 31 := by
  have hlengths : ∀ length ∈ monthLengths (yearOf day), length ≤ 31 := by
    unfold monthLengths
    cases isLeap (yearOf day) <;> decide
  have htotal : (monthLengths (yearOf day)).foldr (· + ·) 0 = if isLeap (yearOf day) then 366 else 365 := by
    unfold monthLengths
    cases isLeap (yearOf day) <;> rfl
  have hdays := dayOfYear_lt day
  rw [← htotal] at hdays
  have hwalk := @walkMonths_within _ hlengths 1 _ hdays
  exact ⟨Nat.le_of_lt_succ hwalk.1, hwalk.2⟩

/-! ## Texts -/

/-- The last digit of a number. -/
def digit (n : Nat) : Char := Nat.digitChar (n % 10)

/-- Two digits, as in `%m`. -/
def pad2 (n : Nat) : List Char := [digit (n / 10), digit n]

/-- Four digits, as in `%Y`. -/
def pad4 (n : Nat) : List Char := [digit (n / 1000), digit (n / 100), digit (n / 10), digit n]

/-- `%Y-%m-%d`. -/
def Date.text (date : Date) : List Char :=
  pad4 date.year.toNat ++ '-' :: pad2 date.month ++ '-' :: pad2 date.day

/-- A directive of `strftime`, or a character. -/
inductive Directive where
  | year
  | month
  | day
  | hour
  | minute
  /-- `%U`: the weeks begin on Sunday. -/
  | week
  | char (c : Char)
  deriving DecidableEq, Repr

def Directive.text (stamp : Stamp) : Directive → List Char
  | .year => pad4 stamp.date.year.toNat
  | .month => pad2 stamp.date.month
  | .day => pad2 stamp.date.day
  | .hour => pad2 stamp.hour
  | .minute => pad2 stamp.minute
  | .week =>
    let number := stamp.date.number
    pad2 ((number - daysBeforeYear stamp.date.year + 7 - (number + 1) % 7) / 7).toNat
  | .char c => [c]

/-- `strftime`, for years of four digits at most. -/
def strftime (format : List Directive) (stamp : Stamp) : String :=
  String.ofList (format.flatMap (Directive.text stamp))

/-- `%Y-%m-%d`. -/
def dateFormat : List Directive := [.year, .char '-', .month, .char '-', .day]

/-- `%Y-%m-%d %H:00`. -/
def hourFormat : List Directive := dateFormat ++ [.char ' ', .hour, .char ':', .char '0', .char '0']

/-- `%Y-%m-%d %H:%M`. -/
def minuteFormat : List Directive := dateFormat ++ [.char ' ', .hour, .char ':', .minute]

/-- The value of a digit. -/
def digitValue (c : Char) : Nat := c.toNat - 48

/-- A date of the calendar, and a time of a day. -/
def Stamp.isValid (stamp : Stamp) : Bool :=
  1 ≤ stamp.date.year && 1 ≤ stamp.date.month && 1 ≤ stamp.date.day &&
    ((monthLengths stamp.date.year)[stamp.date.month - 1]?).any (stamp.date.day ≤ ·) &&
    stamp.hour < 24 && stamp.minute < 60

/-- `strptime` with `%Y-%m-%d %H:%M`, on a text whose numbers are padded. -/
def strptime (value : String) : Option Stamp :=
  match value.toList with
  | [y₁, y₂, y₃, y₄, '-', m₁, m₂, '-', d₁, d₂, ' ', h₁, h₂, ':', i₁, i₂] =>
    let two (c c' : Char) : Nat := 10 * digitValue c + digitValue c'
    let stamp : Stamp := ⟨⟨100 * two y₁ y₂ + two y₃ y₄, two m₁ m₂, two d₁ d₂⟩, two h₁ h₂, two i₁ i₂⟩
    if [y₁, y₂, y₃, y₄, m₁, m₂, d₁, d₂, h₁, h₂, i₁, i₂].all Char.isDigit && stamp.isValid then some stamp
    else none
  | _ => none

theorem digit_lt {m n : Nat} (h : m % 10 < n % 10) : digit m < digit n := by
  have hdigits : ∀ a < 10, ∀ b < 10, a < b → Nat.digitChar a < Nat.digitChar b := by decide
  exact hdigits _ (Nat.mod_lt _ (by decide)) _ (Nat.mod_lt _ (by decide)) h

theorem digit_congr {m n : Nat} (h : m % 10 = n % 10) : digit m = digit n := by rw [digit, h, digit]

/-- One character after another decides. -/
theorem cons_lt {a b : Char} {as bs : List Char} (h : a < b ∨ a = b ∧ as < bs) : a :: as < b :: bs := by
  rcases h with hlt | ⟨rfl, hlt⟩
  · exact List.Lex.rel hlt
  · exact List.Lex.cons hlt

theorem pad2_lt {m n : Nat} {as bs : List Char} (hm : m < 100) (hn : n < 100)
    (h : m < n ∨ m = n ∧ as < bs) : pad2 m ++ as < pad2 n ++ bs := by
  rcases h with hlt | ⟨rfl, hlt⟩
  · rcases Nat.lt_or_eq_of_le (Nat.div_le_div_right (c := 10) hlt.le) with htens | htens
    · exact cons_lt (.inl (digit_lt (by omega)))
    · exact cons_lt (.inr ⟨digit_congr (by omega), cons_lt (.inl (digit_lt (by omega)))⟩)
  · exact cons_lt (.inr ⟨rfl, cons_lt (.inr ⟨rfl, hlt⟩)⟩)

theorem pad4_eq (n : Nat) : pad4 n = pad2 (n / 100) ++ pad2 n := by
  have hthousands : digit (n / 1000) = digit (n / 100 / 10) := digit_congr (by omega)
  simp only [pad4, pad2, hthousands, List.cons_append, List.nil_append]

theorem pad2_mod (n : Nat) : pad2 (n % 100) = pad2 n := by
  have htens : digit (n % 100 / 10) = digit (n / 10) := digit_congr (by omega)
  have hones : digit (n % 100) = digit n := digit_congr (by omega)
  rw [pad2, htens, hones, pad2]

theorem pad4_lt {m n : Nat} {as bs : List Char} (hm : m < 10000) (hn : n < 10000)
    (h : m < n ∨ m = n ∧ as < bs) : pad4 m ++ as < pad4 n ++ bs := by
  have hsplit (k : Nat) (cs : List Char) : pad4 k ++ cs = pad2 (k / 100) ++ (pad2 (k % 100) ++ cs) := by
    rw [pad4_eq, pad2_mod, List.append_assoc]
  rw [hsplit, hsplit]
  refine pad2_lt (by omega) (by omega) ?_
  rcases h with hlt | ⟨rfl, hlt⟩
  · rcases Nat.lt_or_eq_of_le (Nat.div_le_div_right (c := 100) hlt.le) with hcenturies | hcenturies
    · exact .inl hcenturies
    · exact .inr ⟨hcenturies, pad2_lt (by omega) (by omega) (.inl (by omega))⟩
  · exact .inr ⟨rfl, pad2_lt (by omega) (by omega) (.inr ⟨rfl, hlt⟩)⟩

/-- The days whose years have four digits, from the year 0 on. -/
def FourDigits (day : Int) : Prop := daysBeforeYear 0 ≤ day ∧ day < daysBeforeYear 10000

theorem FourDigits.year {day : Int} (h : FourDigits day) : 0 ≤ yearOf day ∧ yearOf day < 10000 := by
  refine ⟨le_yearOf_iff.2 h.1, ?_⟩
  by_contra hlate
  have hle := le_yearOf_iff.1 (Int.not_lt.1 hlate)
  have hlt := h.2
  omega

/-- The texts of dates follow the days. -/
theorem text_lt {day day' : Int} {as bs : List Char} (hday : FourDigits day) (hday' : FourDigits day')
    (h : day < day' ∨ day = day' ∧ as < bs) : (dateOf day).text ++ as < (dateOf day').text ++ bs := by
  obtain ⟨hnonneg, hyear⟩ := hday.year
  obtain ⟨hnonneg', hyear'⟩ := hday'.year
  unfold Date.text
  simp only [List.append_assoc, List.cons_append]
  have hsame (d : Int) : (dateOf d).year = yearOf d := rfl
  have hmonth (d : Int) : (dateOf d).month < 100 := (dateOf_within d).1.trans_lt (by decide)
  have hday_lt (d : Int) : (dateOf d).day < 100 := (dateOf_within d).2.trans_lt (by decide)
  refine pad4_lt (by rw [hsame]; omega) (by rw [hsame]; omega) ?_
  rcases h with hlt | ⟨rfl, hlt⟩
  · rcases dateOf_before hlt with hyears | ⟨hyears, hrest⟩
    · rw [hsame, hsame] at hyears
      rw [hsame, hsame]
      exact .inl (by omega)
    · refine .inr ⟨by rw [hyears], cons_lt (.inr ⟨rfl, pad2_lt (hmonth day) (hmonth day') ?_⟩)⟩
      rcases hrest with hmonths | ⟨hmonths, hdays⟩
      · exact .inl hmonths
      · exact .inr ⟨hmonths, cons_lt (.inr ⟨rfl, pad2_lt (hday_lt day) (hday_lt day') (.inl hdays)⟩)⟩
  · exact .inr ⟨rfl, cons_lt (.inr ⟨rfl, pad2_lt (hmonth day) (hmonth day)
      (.inr ⟨rfl, cons_lt (.inr ⟨rfl, pad2_lt (hday_lt day) (hday_lt day) (.inr ⟨rfl, hlt⟩)⟩)⟩)⟩)⟩

theorem digitValue_lt {c : Char} (h : c.isDigit = true) : digitValue c < 10 := by
  simp only [Char.isDigit, Bool.and_eq_true, decide_eq_true_eq] at h
  have hle : c.toNat ≤ 57 := h.2
  unfold digitValue
  omega

theorem digit_digitValue {c : Char} (h : c.isDigit = true) (n : Nat) :
    digit (10 * n + digitValue c) = c := by
  have hdigits : ∀ k < 10, Nat.digitChar k = Char.ofNat (48 + k) := by decide
  have hrange : 48 ≤ c.toNat ∧ c.toNat ≤ 57 := by
    simp only [Char.isDigit, Bool.and_eq_true, decide_eq_true_eq] at h
    exact ⟨h.1, h.2⟩
  have hvalue := digitValue_lt h
  rw [digit, Nat.mul_add_mod, Nat.mod_eq_of_lt hvalue, hdigits _ hvalue, digitValue,
    Nat.add_sub_cancel' hrange.1, Char.ofNat_toNat]

theorem pad2_digitValue {c c' : Char} (hc : c.isDigit = true) (hc' : c'.isDigit = true) (n : Nat) :
    pad2 (100 * n + (10 * digitValue c + digitValue c')) = [c, c'] := by
  have hlast := digitValue_lt hc'
  have htens : (100 * n + (10 * digitValue c + digitValue c')) / 10 = 10 * n + digitValue c := by omega
  have hones : 100 * n + (10 * digitValue c + digitValue c') = 10 * (10 * n + digitValue c) + digitValue c' := by
    omega
  rw [pad2, htens, digit_digitValue hc, hones, digit_digitValue hc']

/-- What is read is written again. -/
theorem strftime_of_strptime {value : String} {stamp : Stamp} (h : strptime value = some stamp) :
    strftime minuteFormat stamp = value := by
  unfold strptime at h
  split at h
  · rename_i y₁ y₂ y₃ y₄ m₁ m₂ d₁ d₂ h₁ h₂ i₁ i₂ hvalue
    dsimp only at h
    split at h
    · rename_i hall
      cases h
      simp only [List.all_cons, List.all_nil, Bool.and_true, Bool.and_eq_true] at hall
      obtain ⟨⟨hy₁, hy₂, hy₃, hy₄, hm₁, hm₂, hd₁, hd₂, hh₁, hh₂, hi₁, hi₂⟩, -⟩ := hall
      have hpair {c c' : Char} (hc : c.isDigit = true) (hc' : c'.isDigit = true) :
          pad2 (10 * digitValue c + digitValue c') = [c, c'] := by
        have hzero := pad2_digitValue hc hc' 0
        rwa [Nat.mul_zero, Nat.zero_add] at hzero
      have hyear : pad4 (100 * (10 * digitValue y₁ + digitValue y₂) + (10 * digitValue y₃ + digitValue y₄)) =
          [y₁, y₂, y₃, y₄] := by
        have hlow : 10 * digitValue y₃ + digitValue y₄ < 100 := by
          have htens := digitValue_lt hy₃
          have hones := digitValue_lt hy₄
          omega
        have hhigh : (100 * (10 * digitValue y₁ + digitValue y₂) + (10 * digitValue y₃ + digitValue y₄)) / 100 =
            10 * digitValue y₁ + digitValue y₂ := by omega
        rw [pad4_eq, pad2_digitValue hy₃ hy₄, hhigh, hpair hy₁ hy₂]
        rfl
      have hchars : strftime minuteFormat ⟨⟨((100 * (10 * digitValue y₁ + digitValue y₂) +
          (10 * digitValue y₃ + digitValue y₄) : Nat) : Int), 10 * digitValue m₁ + digitValue m₂,
          10 * digitValue d₁ + digitValue d₂⟩, 10 * digitValue h₁ + digitValue h₂,
          10 * digitValue i₁ + digitValue i₂⟩ = String.ofList value.toList := by
        rw [hvalue]
        simp only [strftime, minuteFormat, dateFormat, List.cons_append, List.nil_append, List.flatMap_cons,
          List.flatMap_nil, Directive.text, Int.toNat_natCast, hyear, hpair, hm₁, hm₂, hd₁, hd₂, hh₁, hh₂,
          hi₁, hi₂]
      rw [String.ofList_toList] at hchars
      exact hchars
    · cases h
  · cases h

/-! ## The texts of times -/

theorem ofList_lt {as bs : List Char} (h : as < bs) : String.ofList as < String.ofList bs := by
  rw [String.lt_iff, String.toList_ofList, String.toList_ofList]
  exact h

theorem hour_lt (w : Int) : (stampOf w).hour < 100 := by
  simp only [stampOf, microsPerDay, microsPerHour]
  omega

theorem minute_lt (w : Int) : (stampOf w).minute < 100 := by
  simp only [stampOf, microsPerHour, microsPerMinute]
  omega

theorem strftime_hourFormat (w : Int) : strftime hourFormat (stampOf w) =
    String.ofList ((dateOf (dayOf w)).text ++ ' ' :: (pad2 (stampOf w).hour ++ [':', '0', '0'])) := rfl

theorem strftime_minuteFormat (w : Int) : strftime minuteFormat (stampOf w) =
    String.ofList ((dateOf (dayOf w)).text ++
      ' ' :: (pad2 (stampOf w).hour ++ ':' :: (pad2 (stampOf w).minute ++ []))) := by
  simp [strftime, minuteFormat, dateFormat, Directive.text, Date.text, stampOf]

/-- A time that is written like a full hour is that hour. -/
theorem strftime_hourFormat_congr {stamp stamp' : Stamp}
    (h : strftime minuteFormat stamp = strftime hourFormat stamp') :
    strftime hourFormat stamp = strftime hourFormat stamp' := by
  have hminute (stamp : Stamp) : strftime minuteFormat stamp = String.ofList
      ((stamp.date.text ++ ' ' :: (pad2 stamp.hour ++ [':'])) ++ pad2 stamp.minute) := by
    simp [strftime, minuteFormat, dateFormat, Directive.text, Date.text]
  have hhour (stamp : Stamp) : strftime hourFormat stamp = String.ofList
      ((stamp.date.text ++ ' ' :: (pad2 stamp.hour ++ [':'])) ++ ['0', '0']) := by
    simp [strftime, hourFormat, dateFormat, Directive.text, Date.text]
  rw [hminute, hhour] at h
  have hsame := (List.append_inj' (String.ofList_injective h) rfl).1
  rw [hhour, hhour, hsame]

variable {w w' : Int}

/-- Later days have greater texts. -/
theorem strftime_dateFormat_lt (hw : FourDigits (dayOf w)) (hw' : FourDigits (dayOf w'))
    (hdvd : microsPerDay ∣ w) (hdvd' : microsPerDay ∣ w') (h : w < w') :
    strftime dateFormat (stampOf w) < strftime dateFormat (stampOf w') := by
  have hdays : dayOf w < dayOf w' := by
    unfold microsPerDay at hdvd hdvd'
    unfold dayOf microsPerDay
    omega
  have htext := @text_lt _ _ [] [] hw hw' (.inl hdays)
  rw [List.append_nil, List.append_nil] at htext
  exact ofList_lt htext

/-- Later hours have greater texts. -/
theorem strftime_hourFormat_lt (hw : FourDigits (dayOf w)) (hw' : FourDigits (dayOf w'))
    (hdvd : microsPerHour ∣ w) (hdvd' : microsPerHour ∣ w') (h : w < w') :
    strftime hourFormat (stampOf w) < strftime hourFormat (stampOf w') := by
  have hfields : dayOf w < dayOf w' ∨ dayOf w = dayOf w' ∧ (stampOf w).hour < (stampOf w').hour := by
    unfold microsPerHour at hdvd hdvd'
    simp only [stampOf, dayOf, microsPerDay, microsPerHour]
    omega
  rw [strftime_hourFormat, strftime_hourFormat]
  refine ofList_lt (text_lt hw hw' ?_)
  rcases hfields with hdays | ⟨hdays, hhours⟩
  · exact .inl hdays
  · exact .inr ⟨hdays, cons_lt (.inr ⟨rfl, pad2_lt (hour_lt w) (hour_lt w') (.inl hhours)⟩)⟩

/-- Later minutes have greater texts. -/
theorem strftime_minuteFormat_lt (hw : FourDigits (dayOf w)) (hw' : FourDigits (dayOf w'))
    (hdvd : microsPerMinute ∣ w) (hdvd' : microsPerMinute ∣ w') (h : w < w') :
    strftime minuteFormat (stampOf w) < strftime minuteFormat (stampOf w') := by
  have hfields : dayOf w < dayOf w' ∨ dayOf w = dayOf w' ∧ ((stampOf w).hour < (stampOf w').hour ∨
      (stampOf w).hour = (stampOf w').hour ∧ (stampOf w).minute < (stampOf w').minute) := by
    unfold microsPerMinute at hdvd hdvd'
    simp only [stampOf, dayOf, microsPerDay, microsPerHour, microsPerMinute]
    omega
  rw [strftime_minuteFormat, strftime_minuteFormat]
  refine ofList_lt (text_lt hw hw' ?_)
  rcases hfields with hdays | ⟨hdays, hclock⟩
  · exact .inl hdays
  · refine .inr ⟨hdays, cons_lt (.inr ⟨rfl, pad2_lt (hour_lt w) (hour_lt w') ?_⟩)⟩
    rcases hclock with hhours | ⟨hhours, hminutes⟩
    · exact .inl hhours
    · exact .inr ⟨hhours, cons_lt (.inr ⟨rfl, pad2_lt (minute_lt w) (minute_lt w') (.inl hminutes)⟩)⟩

end Calendar
