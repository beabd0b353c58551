import Mathlib.Data.List.Basic
import Mathlib.Order.Lattice
import Mathlib.Tactic.Common

/-!
# Histories

A log is written at its head. Each of its entries may have to stand in a relation to the ones that were there when it
was written, and a log that only ever grows by such entries is backed all along.

A source may be a log too: its changes are written down with their times. A copy is not older than a time where its
value was the value of the source at some moment since then. Where copies are kept for some time, and it takes some
time from a read of the source to the writing of the copy, the two add up.
-/

/-- Each entry is backed by the ones before it. -/
def BackedLog {α : Type} (backs : List α → α → Prop) : List α → Prop
  | [] => True
  | entry :: earlier => backs earlier entry ∧ BackedLog backs earlier

namespace BackedLog

variable {α : Type} {backs : List α → α → Prop} {entry : α} {log earlier later : List α}

theorem append_right (h : BackedLog backs (later ++ earlier)) : BackedLog backs earlier := by
  induction later with
  | nil => exact h
  | cons entry later ih => exact ih h.2

/-- An entry of the log, with what was there before it. -/
theorem exists_of_mem (h : BackedLog backs log) (hmem : entry ∈ log) :
    ∃ later earlier, log = later ++ entry :: earlier ∧ backs earlier entry := by
  obtain ⟨later, earlier, rfl⟩ := List.append_of_mem hmem
  exact ⟨later, earlier, rfl, h.append_right.1⟩

end BackedLog

namespace Freshness

variable {α : Type}

/-- The value was that of the source at some moment since `since`. -/
def HeldSince (since : Int) (value : α) : List (Int × α) → Prop
  | [] => False
  | (time, current) :: older => current = value ∨ since ≤ time ∧ HeldSince since value older

variable {since earlier time : Int} {value : α} {history : List (Int × α)}

/-- The current value. -/
theorem heldSince_head (change : Int × α) (history : List (Int × α)) :
    HeldSince since change.2 (change :: history) := .inl rfl

theorem HeldSince.mono (hle : earlier ≤ since) : ∀ {history : List (Int × α)}, HeldSince since value history →
    HeldSince earlier value history
  | [], h => h
  | _ :: _, h => h.imp_right fun hold => ⟨hle.trans hold.1, hold.2.mono hle⟩

/-- A change leaves what was held since before it. -/
theorem HeldSince.change (h : HeldSince since value history) (hle : since ≤ time) (new : α) :
    HeldSince since value ((time, new) :: history) := .inr ⟨hle, h⟩

/-- The value was that of the source at some moment from `since` to `time`. -/
def HeldBetween (since time : Int) (value : α) (history : List (Int × α)) : Prop :=
  HeldSince since value (history.dropWhile fun change => time < change.1)

/-- Where nothing has changed after a time, what was held since is what was held till then. -/
theorem HeldSince.heldBetween (h : HeldSince since value history)
    (hpast : ∀ change ∈ history.head?, change.1 ≤ time) : HeldBetween since time value history := by
  cases history with
  | nil => exact h
  | cons change older =>
    have hchange : ¬ time < change.1 := Int.not_lt.2 (hpast change rfl)
    rw [HeldBetween, List.dropWhile_cons_of_neg (by simpa using hchange)]
    exact h

theorem HeldBetween.heldSince (hle : since ≤ time) :
    ∀ {history : List (Int × α)}, HeldBetween since time value history → HeldSince since value history
  | [], h => h
  | change :: older, h => by
    by_cases hafter : time < change.1
    · rw [HeldBetween, List.dropWhile_cons_of_pos (by simpa using hafter)] at h
      exact .inr ⟨by omega, HeldBetween.heldSince hle h⟩
    · rw [HeldBetween, List.dropWhile_cons_of_neg (by simpa using hafter)] at h
      exact h

theorem HeldBetween.mono (hle : earlier ≤ since) (h : HeldBetween since time value history) :
    HeldBetween earlier time value history := HeldSince.mono hle h

/-- What was held till a time is not touched by a later change. -/
theorem HeldBetween.change {now : Int} (h : HeldBetween since time value history) (hsince : since ≤ time)
    (hnow : time ≤ now) (new : α) : HeldBetween since time value ((now, new) :: history) := by
  by_cases hafter : time < now
  · rw [HeldBetween, List.dropWhile_cons_of_pos (by simpa using hafter)]
    exact h
  · rw [HeldBetween, List.dropWhile_cons_of_neg (by simpa using hafter)]
    exact .inr ⟨by omega, h.heldSince hsince⟩

/-- A copy with the time at which it runs out: it was read at most `lag` before it was kept for `ttl`. -/
def Copied (ttl lag : Int) (history : List (Int × α)) (copy : α × Int) : Prop :=
  HeldSince (copy.2 - ttl - lag) copy.1 history

variable {ttl ttl' lag lag' : Int} {copy : α × Int}

theorem Copied.mono (h : Copied ttl lag history copy) (hlag : lag ≤ lag') : Copied ttl lag' history copy :=
  HeldSince.mono (by omega) h

/-- What is read of a copy before it runs out. -/
theorem Copied.heldSince (h : Copied ttl lag history copy) (hlive : time < copy.2) :
    HeldSince (time - ttl - lag) copy.1 history := HeldSince.mono (by omega) h

/-- A copy that is made for at most `ttl` of what was read at `since`. -/
theorem copied_of_read (h : HeldSince since value history) (hlag : time - since ≤ lag) (httl : ttl' ≤ ttl) :
    Copied ttl lag history (value, time + ttl') := HeldSince.mono (by omega) h

end Freshness
