import Mathlib.Algebra.Order.Group.Int

/-!
# A loop that counts up

A loop collects its variable as long as it is not beyond a bound, and moves it on. With a fixed step, from
a multiple of the step on, it collects the multiples up to the bound.
-/

namespace Grid

/-- `while current <= stop: collect(current); current = next(current)`, for so many turns at most. -/
def whileLe (next : Int → Int) (stop : Int) : Nat → Int → List Int
  | 0, _ => []
  | fuel + 1, current => if current ≤ stop then current :: whileLe next stop fuel (next current) else []

/-- The loop, with a turn for every number up to the bound. -/
def collect (next : Int → Int) (start stop : Int) : List Int :=
  whileLe next stop (stop + 1 - start).toNat start

/-- A number rounded down to a multiple. -/
def floorTo (step w : Int) : Int := w - w % step

variable {next : Int → Int} {start stop step w current : Int} {fuel : Nat}

/-- More turns change nothing. -/
theorem whileLe_eq (hnext : ∀ w, w < next w) : ∀ {fuel fuel' : Nat} {current : Int},
    (stop + 1 - current).toNat ≤ fuel → (stop + 1 - current).toNat ≤ fuel' →
    whileLe next stop fuel current = whileLe next stop fuel' current
  | 0, 0, _, _, _ => rfl
  | 0, fuel' + 1, current, h, _ => by
    rw [whileLe, whileLe, if_neg (by omega)]
  | fuel + 1, 0, current, _, h => by
    rw [whileLe, whileLe, if_neg (by omega)]
  | fuel + 1, fuel' + 1, current, h, h' => by
    have hlater := hnext current
    rw [whileLe, whileLe, whileLe_eq hnext (show _ ≤ fuel by omega) (show _ ≤ fuel' by omega)]

/-- The loop ends by its condition, not for want of turns. -/
theorem collect_eq (hnext : ∀ w, w < next w) (start stop : Int) :
    collect next start stop =
      if start ≤ stop then start :: collect next (next start) stop else [] := by
  have hlater := hnext start
  unfold collect
  rw [whileLe_eq hnext (le_refl _) (Nat.le_succ _), whileLe]
  split
  · rw [whileLe_eq hnext (show _ ≤ (stop + 1 - start).toNat by omega) (le_refl _)]
  · rfl

theorem le_of_mem_whileLe (hnext : ∀ w, w < next w) :
    ∀ {fuel : Nat} {current : Int}, w ∈ whileLe next stop fuel current → current ≤ w
  | fuel + 1, current, h => by
    have hlater := hnext current
    unfold whileLe at h
    split at h
    · rcases List.mem_cons.1 h with rfl | hrest
      · exact le_refl w
      · exact hlater.le.trans (le_of_mem_whileLe hnext hrest)
    · cases h

theorem pairwise_whileLe (hnext : ∀ w, w < next w) :
    ∀ (fuel : Nat) (current : Int), (whileLe next stop fuel current).Pairwise (· < ·)
  | 0, _ => List.Pairwise.nil
  | fuel + 1, current => by
    unfold whileLe
    split
    · exact List.pairwise_cons.2 ⟨fun w hw => (hnext current).trans_le (le_of_mem_whileLe hnext hw),
        pairwise_whileLe hnext fuel (next current)⟩
    · exact List.Pairwise.nil

theorem pairwise_collect (hnext : ∀ w, w < next w) (start stop : Int) :
    (collect next start stop).Pairwise (· < ·) :=
  pairwise_whileLe hnext _ start

theorem mem_whileLe (hstep : 0 < step) : ∀ {fuel : Nat} {current : Int},
    (stop + 1 - current).toNat ≤ fuel →
      (w ∈ whileLe (· + step) stop fuel current ↔ current ≤ w ∧ w ≤ stop ∧ step ∣ w - current)
  | 0, current, h => by
    simp only [whileLe, List.not_mem_nil, false_iff]
    omega
  | fuel + 1, current, h => by
    unfold whileLe
    split
    · rename_i hin
      rw [List.mem_cons, mem_whileLe hstep (by omega)]
      have hshift : w - current = w - (current + step) + step := by omega
      have hdvd : step ∣ w - current ↔ step ∣ w - (current + step) := by
        rw [hshift, Int.dvd_add_left (Int.dvd_refl step)]
      constructor
      · rintro (rfl | ⟨hle, hstop, hrest⟩)
        · exact ⟨le_refl w, hin, by simp⟩
        · exact ⟨by omega, hstop, hdvd.2 hrest⟩
      · rintro ⟨hle, hstop, hrest⟩
        rcases hle.eq_or_lt with heq | hlt
        · exact .inl heq.symm
        · have hfar := Int.le_of_dvd (show 0 < w - current by omega) hrest
          exact .inr ⟨by omega, hstop, hdvd.1 hrest⟩
    · simp only [List.not_mem_nil, false_iff]
      omega

theorem floorTo_dvd (step w : Int) : step ∣ floorTo step w := Int.dvd_self_sub_emod

/-- From the multiple below the start on, the loop collects the multiples up to the bound. -/
theorem mem_collect_floorTo (hstep : 0 < step) :
    w ∈ collect (· + step) (floorTo step start) stop ↔ floorTo step start ≤ w ∧ w ≤ stop ∧ step ∣ w := by
  have hdvd : step ∣ w - floorTo step start ↔ step ∣ w := by
    rw [sub_eq_add_neg, Int.dvd_add_left (Int.dvd_neg.2 (floorTo_dvd step start))]
  rw [collect, mem_whileLe hstep (le_refl _), hdvd]

end Grid
