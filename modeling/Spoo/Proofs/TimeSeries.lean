import Spoo.Lib.Totals
import Spoo.Services.StatsService

/-!
# Whether a series over the time is complete

A click is counted in the series if the loop over the wall clock comes to its bucket. The loop goes from
the bucket of the start of the window to the reading of its end, and a clock that is put back has the
clicks of some instants in the window read earlier than its start, or later than its end.
-/

namespace Spoo

open Calendar Grid

/-! ## The buckets of a window -/

/-- The width of a bucket. -/
def TimeBucketStrategy.step (strategy : TimeBucketStrategy) : Int :=
  (bucketConfigs strategy).intervalMinutes * microsPerMinute

/-- The strategies that a window is given. -/
def TimeBucketStrategy.IsChosen (strategy : TimeBucketStrategy) : Prop :=
  strategy = .minute10 ∨ strategy = .hourly ∨ strategy = .daily

/-- The time on the wall clock that the bucket of an instant is named by. -/
def bucketTime (strategy : TimeBucketStrategy) (zone : Zone) (t : Int) : Int :=
  if strategy = .minute10 then
    floorTo microsPerMinute (zone.wall (zone.fromParts (floorTo tenMinutes (zone.wall t))))
  else floorTo strategy.step (zone.wall t)

/-- The strategy of a window. -/
def StatsWindow.strategy (window : StatsWindow) : TimeBucketStrategy :=
  determineOptimalBucketStrategy (some window.startDate) (some window.endDate)

/-- Python has the times of the window, and the bucket of the instant is one from that of the start to the
reading of the end. -/
def InSeries (zone : Zone) (window : StatsWindow) (t : Int) : Prop :=
  0 ≤ dayOf (zone.wall window.startDate) ∧ 0 ≤ dayOf (zone.wall window.endDate) ∧
    floorTo window.strategy.step (zone.wall window.startDate) ≤ bucketTime window.strategy zone t ∧
    bucketTime window.strategy zone t ≤ zone.wall window.endDate ∧
    window.strategy.step ∣ bucketTime window.strategy zone t

/-- A reading of the system clock, before the year 9999. -/
structure SystemTime where
  micros : Int
  dayOf_lt : dayOf micros < daysBeforeYear 9999

variable {strategy : TimeBucketStrategy} {zone : Zone} {window : StatsWindow} {t w w' : Int}

theorem isChosen_strategy (window : StatsWindow) : window.strategy.IsChosen := by
  unfold StatsWindow.strategy determineOptimalBucketStrategy
  dsimp only
  split_ifs
  · exact .inl rfl
  · exact .inr (.inl rfl)
  · exact .inr (.inr rfl)

theorem step_pos (strategy : TimeBucketStrategy) : 0 < strategy.step := by cases strategy <;> decide

/-! ## Names -/

/-- What the names of the buckets tell apart. -/
def TimeBucketStrategy.unit : TimeBucketStrategy → Int
  | .minute10 => microsPerMinute
  | .hourly => microsPerHour
  | _ => microsPerDay

theorem TimeBucketStrategy.IsChosen.unit_dvd_step (h : strategy.IsChosen) : strategy.unit ∣ strategy.step := by
  rcases h with rfl | rfl | rfl <;> decide

/-- The name of a bucket. -/
def bucketName (strategy : TimeBucketStrategy) (w : Int) : String :=
  strftime (bucketConfigs strategy).mongoFormat (stampOf w)

theorem bucketName_lt (h : strategy.IsChosen) (hw : FourDigits (dayOf w)) (hw' : FourDigits (dayOf w'))
    (hdvd : strategy.unit ∣ w) (hdvd' : strategy.unit ∣ w') (hlt : w < w') :
    bucketName strategy w < bucketName strategy w' := by
  rcases h with rfl | rfl | rfl
  · exact strftime_minuteFormat_lt hw hw' hdvd hdvd' hlt
  · exact strftime_hourFormat_lt hw hw' hdvd hdvd' hlt
  · exact strftime_dateFormat_lt hw hw' hdvd hdvd' hlt

/-- Different buckets have different names. -/
theorem bucketName_inj (h : strategy.IsChosen) (hw : FourDigits (dayOf w)) (hw' : FourDigits (dayOf w'))
    (hdvd : strategy.unit ∣ w) (hdvd' : strategy.unit ∣ w')
    (hname : bucketName strategy w = bucketName strategy w') : w = w' := by
  rcases lt_trichotomy w w' with hlt | heq | hlt
  · have hnames := bucketName_lt h hw hw' hdvd hdvd' hlt
    rw [hname] at hnames
    exact absurd hnames (String.lt_irrefl _)
  · exact heq
  · have hnames := bucketName_lt h hw' hw hdvd' hdvd hlt
    rw [hname] at hnames
    exact absurd hnames (String.lt_irrefl _)

/-- A name does not show what is below its unit. -/
theorem bucketName_floorTo (h : strategy.IsChosen) (w : Int) :
    bucketName strategy (floorTo strategy.unit w) = bucketName strategy w := by
  have hday (unit : Int) (hunit : unit = microsPerMinute ∨ unit = microsPerHour ∨ unit = microsPerDay) :
      dayOf (floorTo unit w) = dayOf w := by
    unfold floorTo dayOf microsPerDay
    rcases hunit with rfl | rfl | rfl
    · unfold microsPerMinute
      omega
    · unfold microsPerHour
      omega
    · unfold microsPerDay
      omega
  have hhour (unit : Int) (hunit : unit = microsPerMinute ∨ unit = microsPerHour) :
      (stampOf (floorTo unit w)).hour = (stampOf w).hour := by
    simp only [stampOf, floorTo, microsPerDay, microsPerHour]
    rcases hunit with rfl | rfl
    · unfold microsPerMinute
      omega
    · unfold microsPerHour
      omega
  have hminute : (stampOf (floorTo microsPerMinute w)).minute = (stampOf w).minute := by
    simp only [stampOf, floorTo, microsPerHour, microsPerMinute]
    omega
  rcases h with rfl | rfl | rfl
  · have hname (w : Int) : bucketName .minute10 w = strftime minuteFormat (stampOf w) := rfl
    have hunit : TimeBucketStrategy.minute10.unit = microsPerMinute := rfl
    rw [hname, hname, strftime_minuteFormat, strftime_minuteFormat, hunit, hday _ (.inl rfl),
      hhour _ (.inl rfl), hminute]
  · have hname (w : Int) : bucketName .hourly w = strftime hourFormat (stampOf w) := rfl
    have hunit : TimeBucketStrategy.hourly.unit = microsPerHour := rfl
    rw [hname, hname, strftime_hourFormat, strftime_hourFormat, hunit, hday _ (.inr (.inl rfl)),
      hhour _ (.inr rfl)]
  · have hname (w : Int) : bucketName .daily w = String.ofList ((dateOf (dayOf w)).text ++ []) := rfl
    have hunit : TimeBucketStrategy.daily.unit = microsPerDay := rfl
    rw [hname, hname, hunit, hday _ (.inr (.inr rfl))]

/-- MongoDB names the bucket of an instant by its time. -/
theorem mongoTimeBucket_eq (h : strategy.IsChosen) (zone : Zone) (t : Int) :
    mongoTimeBucket (bucketConfigs strategy) zone t = bucketName strategy (bucketTime strategy zone t) := by
  have hfloor (w : Int) := bucketName_floorTo h w
  rcases h with rfl | rfl | rfl
  · exact (hfloor _).symm
  · exact (hfloor _).symm
  · exact (hfloor _).symm

/-- The name that is displayed is the one that MongoDB gives. -/
theorem formatTimeBucketDisplay_bucketName (h : strategy.IsChosen) (w : Int) :
    formatTimeBucketDisplay (bucketName strategy w) (bucketConfigs strategy) = bucketName strategy w := by
  rcases h with rfl | rfl | rfl
  · unfold formatTimeBucketDisplay
    simp only [bucketConfigs]
    cases hread : strptime (bucketName .minute10 w) with
    | none => rfl
    | some stamp => exact strftime_of_strptime hread
  · have hcolon : ':' ∈ (bucketName .hourly w).toList := by
      have hname : bucketName .hourly w = strftime hourFormat (stampOf w) := rfl
      rw [hname, strftime_hourFormat, String.toList_ofList]
      simp
    unfold formatTimeBucketDisplay
    simp only [bucketConfigs, if_pos hcolon]
    cases hread : strptime (bucketName .hourly w) with
    | none => rfl
    | some stamp => exact strftime_hourFormat_congr (strftime_of_strptime hread)
  · rfl

/-! ## The loop -/

/-- The buckets that the loop comes to. -/
def gridTimes (strategy : TimeBucketStrategy) (startDate endDate : Int) : List Int :=
  collect (· + strategy.step) (floorTo strategy.step startDate) endDate

theorem generateCompleteTimeBuckets_eq (h : strategy.IsChosen) (startDate endDate : Int) :
    generateCompleteTimeBuckets startDate endDate (bucketConfigs strategy) =
      (gridTimes strategy startDate endDate).map (bucketName strategy) := by
  rcases h with rfl | rfl | rfl <;> rfl

/-- The buckets of a loop between two times that Python has. -/
theorem fourDigits_of_mem_gridTimes {startDate endDate : Int} (h : strategy.IsChosen)
    (hstart : 0 ≤ dayOf startDate) (hend : dayOf endDate < daysBeforeYear 10000)
    (hw : w ∈ gridTimes strategy startDate endDate) : FourDigits (dayOf w) ∧ strategy.unit ∣ w := by
  obtain ⟨hle, hstop, hdvd⟩ := (mem_collect_floorTo (step_pos strategy)).1 hw
  refine ⟨⟨?_, ?_⟩, h.unit_dvd_step.trans hdvd⟩
  · have hzero : daysBeforeYear 0 = -366 := rfl
    rw [hzero]
    unfold dayOf microsPerDay at *
    rcases h with rfl | rfl | rfl
    · have hstep : TimeBucketStrategy.minute10.step = 600000000 := rfl
      rw [hstep] at hle
      unfold floorTo at hle
      omega
    · have hstep : TimeBucketStrategy.hourly.step = 3600000000 := rfl
      rw [hstep] at hle
      unfold floorTo at hle
      omega
    · have hstep : TimeBucketStrategy.daily.step = 86400000000 := rfl
      rw [hstep] at hle
      unfold floorTo at hle
      omega
  · refine lt_of_le_of_lt ?_ hend
    unfold dayOf microsPerDay
    omega

/-- The names of the loop are in order. -/
theorem pairwise_generateCompleteTimeBuckets {startDate endDate : Int} (h : strategy.IsChosen)
    (hstart : 0 ≤ dayOf startDate) (hend : dayOf endDate < daysBeforeYear 10000) :
    (generateCompleteTimeBuckets startDate endDate (bucketConfigs strategy)).Pairwise (· < ·) := by
  have hstep := step_pos strategy
  rw [generateCompleteTimeBuckets_eq h, List.pairwise_map]
  refine (pairwise_collect (fun w => by omega) _ _).imp_of_mem fun hw hw' hlt => ?_
  have hfirst := fourDigits_of_mem_gridTimes h hstart hend hw
  have hsecond := fourDigits_of_mem_gridTimes h hstart hend hw'
  exact bucketName_lt h hfirst.1 hsecond.1 hfirst.2 hsecond.2 hlt

/-- The bucket of an instant is about a day from it at most. -/
theorem bucketTime_near (h : strategy.IsChosen) (zone : Zone) (t : Int) :
    t - 4 * microsPerDay < bucketTime strategy zone t ∧ bucketTime strategy zone t < t + 4 * microsPerDay ∧
      strategy.unit ∣ bucketTime strategy zone t := by
  have hbefore := zone.neg_lt_offset t
  have hafter := zone.offset_lt t
  rcases h with rfl | rfl | rfl
  · have hlow := zone.lt_fromParts (floorTo tenMinutes (zone.wall t))
    have hhigh := zone.fromParts_lt (floorTo tenMinutes (zone.wall t))
    have hbucket : bucketTime .minute10 zone t =
        floorTo microsPerMinute (zone.wall (zone.fromParts (floorTo tenMinutes (zone.wall t)))) := rfl
    rw [hbucket]
    refine ⟨?_, ?_, floorTo_dvd ..⟩
    · unfold Zone.wall floorTo tenMinutes microsPerMinute microsPerDay at *
      omega
    · unfold Zone.wall floorTo tenMinutes microsPerMinute microsPerDay at *
      omega
  · have hbucket : bucketTime .hourly zone t = floorTo microsPerHour (zone.wall t) := rfl
    rw [hbucket]
    refine ⟨?_, ?_, floorTo_dvd ..⟩
    · unfold Zone.wall floorTo microsPerHour microsPerDay at *
      omega
    · unfold Zone.wall floorTo microsPerHour microsPerDay at *
      omega
  · have hbucket : bucketTime .daily zone t = floorTo microsPerDay (zone.wall t) := rfl
    rw [hbucket]
    refine ⟨?_, ?_, floorTo_dvd ..⟩
    · unfold Zone.wall floorTo microsPerDay at *
      omega
    · unfold Zone.wall floorTo microsPerDay at *
      omega

/-! ## The rows -/

variable {clicks : List ClickDoc}

/-- The strategy of a call. -/
def seriesStrategy (zone : Zone) (window : StatsWindow) : TimeAggregationStrategy where
  startDate := some window.startDate
  endDate := some window.endDate
  timezone := zone

/-- The groups that MongoDB answers with. -/
def seriesIds (zone : Zone) (window : StatsWindow) (clicks : List ClickDoc) : List String :=
  (clicks.map (seriesStrategy zone window).groupId).dedup.insertionSort (· ≤ ·)

theorem mem_seriesIds {id : String} :
    id ∈ seriesIds zone window clicks ↔ ∃ click ∈ clicks, (seriesStrategy zone window).groupId click = id := by
  rw [seriesIds, List.mem_insertionSort, List.mem_dedup, List.mem_map]

theorem groupId_seriesStrategy (zone : Zone) (window : StatsWindow) (click : ClickDoc) :
    (seriesStrategy zone window).groupId click =
      bucketName window.strategy (bucketTime window.strategy zone click.clickedAt) :=
  mongoTimeBucket_eq (isChosen_strategy window) zone click.clickedAt

theorem date_formatResult {id : String} (h : id ∈ seriesIds zone window clicks) :
    ((seriesStrategy zone window).formatResult clicks id).date = id := by
  obtain ⟨click, -, rfl⟩ := mem_seriesIds.1 h
  rw [groupId_seriesStrategy]
  exact formatTimeBucketDisplay_bucketName (isChosen_strategy window) _

/-- The series after it was filled up: a row for each bucket of the loop, and in it the clicks of that
bucket. -/
theorem rows_fillMissingBuckets (zone : Zone) (window : StatsWindow) (clicks : List ClickDoc)
    (startDate endDate : Int) :
    ((fillMissingBuckets ((seriesIds zone window clicks).map ((seriesStrategy zone window).formatResult clicks))
        startDate endDate (bucketConfigs window.strategy)).map TimeRow.totalClicks =
      (generateCompleteTimeBuckets startDate endDate (bucketConfigs window.strategy)).map fun bucket =>
        clicks.countP fun click => (seriesStrategy zone window).groupId click = bucket) ∧
      (fillMissingBuckets ((seriesIds zone window clicks).map ((seriesStrategy zone window).formatResult clicks))
        startDate endDate (bucketConfigs window.strategy)).map TimeRow.date =
      generateCompleteTimeBuckets startDate endDate (bucketConfigs window.strategy) := by
  have hmap : ((seriesIds zone window clicks).map ((seriesStrategy zone window).formatResult clicks)).map
      (fun row => (row.date, row)) = (seriesIds zone window clicks).map fun id =>
        (id, (seriesStrategy zone window).formatResult clicks id) := by
    rw [List.map_map]
    refine List.map_congr_left fun id hid => ?_
    rw [Function.comp_apply, date_formatResult hid]
  have hrow (bucket : String) : (PyDict.ofList ((seriesIds zone window clicks).map fun id =>
      (id, (seriesStrategy zone window).formatResult clicks id))).get? bucket =
        if bucket ∈ seriesIds zone window clicks then
          some ((seriesStrategy zone window).formatResult clicks bucket) else none :=
    PyDict.get?_ofList_map _ bucket
  unfold fillMissingBuckets
  dsimp only
  rw [hmap, List.map_map, List.map_map]
  constructor
  · refine List.map_congr_left fun bucket _ => ?_
    rw [Function.comp_apply, hrow]
    by_cases hbucket : bucket ∈ seriesIds zone window clicks
    · rw [if_pos hbucket]
      rfl
    · rw [if_neg hbucket, Option.getD_none]
      refine (List.countP_eq_zero.2 fun click hclick => ?_).symm
      rw [decide_eq_true_eq]
      exact fun hid => hbucket (mem_seriesIds.2 ⟨click, hclick, hid⟩)
  · refine (List.map_congr_left fun bucket _ => ?_).trans (List.map_id _)
    rw [Function.comp_apply, hrow]
    by_cases hbucket : bucket ∈ seriesIds zone window clicks
    · rw [if_pos hbucket]
      exact date_formatResult hbucket
    · rw [if_neg hbucket]
      rfl

/-! ## The window -/

/-- A window that is admitted begins before it ends, and ends by now. -/
theorem le_of_resolveWindow {parseDatetime : String → Option Int} {maxDateRangeDays : Nat} {now : Int}
    {startRaw endRaw : Option String}
    (h : StatsService.resolveWindow parseDatetime maxDateRangeDays now startRaw endRaw = .ok window) :
    window.startDate ≤ window.endDate ∧ window.endDate ≤ now := by
  unfold StatsService.resolveWindow at h
  obtain ⟨startDate, -, h⟩ := Fallible.bind_eq_ok.1 h
  obtain ⟨endDate, -, h⟩ := Fallible.bind_eq_ok.1 h
  unfold StatsService.checkWindow at h
  dsimp only at h
  split_ifs at h with hoverflow hbefore hrange
  cases h
  exact ⟨Int.not_lt.1 hbefore, min_le_right _ _⟩

/-- Python has the times on the wall clock up to now. -/
theorem dayOf_wall_lt {now : SystemTime} (zone : Zone) (ht : t ≤ now.micros) :
    dayOf (zone.wall t) < daysBeforeYear 10000 := by
  have hoffset := zone.offset_lt t
  have hlate := now.dayOf_lt
  have hlast : daysBeforeYear 9999 = 3651694 := rfl
  have hend : daysBeforeYear 10000 = 3652059 := rfl
  rw [hlast] at hlate
  rw [hend]
  unfold Zone.wall
  unfold dayOf microsPerDay at *
  omega

/-- An instant of the window has a bucket whose name no other bucket has. -/
theorem fourDigits_bucketTime {now : SystemTime} (hnow : window.endDate ≤ now.micros)
    (hstart : 0 ≤ dayOf (zone.wall window.startDate)) (ht : window.startDate ≤ t ∧ t ≤ window.endDate) :
    FourDigits (dayOf (bucketTime window.strategy zone t)) := by
  obtain ⟨hlow, hhigh, -⟩ := bucketTime_near (isChosen_strategy window) zone t
  have hoffset := zone.offset_lt window.startDate
  have hlate := now.dayOf_lt
  have hzero : daysBeforeYear 0 = -366 := rfl
  have hlast : daysBeforeYear 9999 = 3651694 := rfl
  have hend : daysBeforeYear 10000 = 3652059 := rfl
  unfold FourDigits
  rw [hzero, hend]
  rw [hlast] at hlate
  unfold Zone.wall at hstart
  unfold dayOf microsPerDay at *
  omega

theorem mem_generateCompleteTimeBuckets_iff {now : SystemTime} (hnow : window.endDate ≤ now.micros)
    (hstart : 0 ≤ dayOf (zone.wall window.startDate))
    (hend : dayOf (zone.wall window.endDate) < daysBeforeYear 10000)
    (ht : window.startDate ≤ t ∧ t ≤ window.endDate) :
    bucketName window.strategy (bucketTime window.strategy zone t) ∈
        generateCompleteTimeBuckets (zone.wall window.startDate) (zone.wall window.endDate)
          (bucketConfigs window.strategy) ↔
      floorTo window.strategy.step (zone.wall window.startDate) ≤ bucketTime window.strategy zone t ∧
        bucketTime window.strategy zone t ≤ zone.wall window.endDate ∧
        window.strategy.step ∣ bucketTime window.strategy zone t := by
  have hchosen := isChosen_strategy window
  rw [generateCompleteTimeBuckets_eq hchosen, List.mem_map, gridTimes,
    ← mem_collect_floorTo (step_pos window.strategy)]
  constructor
  · rintro ⟨w, hw, hname⟩
    have hgrid := fourDigits_of_mem_gridTimes hchosen hstart hend hw
    have hsame : w = bucketTime window.strategy zone t :=
      bucketName_inj hchosen hgrid.1 (fourDigits_bucketTime hnow hstart ht) hgrid.2
        (bucketTime_near hchosen zone t).2.2 hname
    rwa [← hsame]
  · exact fun hgrid => ⟨_, hgrid, rfl⟩

/-- The results, where Python has the times of the window. -/
theorem formatResults_of_astimezone {startInTz endInTz : Int}
    (hstart : zone.astimezone window.startDate = some startInTz)
    (hend : zone.astimezone window.endDate = some endInTz) (clicks : List ClickDoc) :
    (seriesStrategy zone window).formatResults clicks = some (fillMissingBuckets
      ((seriesIds zone window clicks).map ((seriesStrategy zone window).formatResult clicks))
      startInTz endInTz (bucketConfigs window.strategy)) := by
  unfold TimeAggregationStrategy.formatResults
  simp only [seriesStrategy, hstart, hend]
  rfl

/-- There are none where one of the times is before the year 1. -/
theorem formatResults_of_overflow
    (h : ¬(0 ≤ dayOf (zone.wall window.startDate) ∧ 0 ≤ dayOf (zone.wall window.endDate)))
    (clicks : List ClickDoc) : (seriesStrategy zone window).formatResults clicks = none := by
  have hastimezone {t : Int} (ht : ¬0 ≤ dayOf (zone.wall t)) : zone.astimezone t = none :=
    if_neg fun hdays => ht hdays.1
  unfold TimeAggregationStrategy.formatResults
  by_cases hstart : 0 ≤ dayOf (zone.wall window.startDate)
  · have hend := hastimezone fun hend => h ⟨hstart, hend⟩
    cases hsome : zone.astimezone window.startDate <;> simp only [seriesStrategy, hsome, hend]
  · simp only [seriesStrategy, hastimezone hstart]

/-! ## The series -/

/-- The total of the rows is the number of clicks, and the names of the rows are in strict order. -/
def IsComplete (rows : List TimeRow) (clicks : List ClickDoc) : Prop :=
  (rows.map TimeRow.totalClicks).sum = clicks.length ∧ (rows.map TimeRow.date).Pairwise (· < ·)

/-- The series of a window that the service admits, in any zone, is complete if and only if the bucket of
every click is one from that of the start to the reading of the end, on the wall clock. -/
theorem series_complete_iff (zoneInfo : String → Zone) (known : String → Bool) (tzName : String)
    (parseDatetime : String → Option Int) (maxDateRangeDays : Nat) (now : SystemTime)
    (startRaw endRaw : Option String) {window : StatsWindow}
    (hwindow : StatsService.resolveWindow parseDatetime maxDateRangeDays now.micros startRaw endRaw = .ok window)
    {clicks : List ClickDoc}
    (hclicks : ∀ click ∈ clicks, window.startDate ≤ click.clickedAt ∧ click.clickedAt ≤ window.endDate) :
    IsComplete (StatsService.timeSeries zoneInfo known tzName window clicks) clicks ↔
      ∀ click ∈ clicks,
        InSeries (zoneInfo (StatsService.normalizeTimezone known tzName)) window click.clickedAt := by
  obtain ⟨horder, hnow⟩ := le_of_resolveWindow hwindow
  generalize hzone : zoneInfo (StatsService.normalizeTimezone known tzName) = zone
  have hseries : StatsService.timeSeries zoneInfo known tzName window clicks =
      ((seriesStrategy zone window).formatResults clicks).getD [] := by
    rw [← hzone]
    rfl
  rw [hseries]
  by_cases hdays : 0 ≤ dayOf (zone.wall window.startDate) ∧ 0 ≤ dayOf (zone.wall window.endDate)
  · obtain ⟨hstart, hend⟩ := hdays
    have hlast := dayOf_wall_lt zone hnow
    have hfirst := dayOf_wall_lt zone (horder.trans hnow)
    rw [formatResults_of_astimezone (if_pos ⟨hstart, hfirst⟩) (if_pos ⟨hend, hlast⟩), Option.getD_some]
    have hsorted := pairwise_generateCompleteTimeBuckets (isChosen_strategy window) hstart hlast
    obtain ⟨htotals, hdates⟩ := rows_fillMissingBuckets zone window clicks (zone.wall window.startDate)
      (zone.wall window.endDate)
    have hne {name name' : String} (hlt : name < name') (heq : name = name') : False := by
      rw [heq] at hlt
      exact String.lt_irrefl _ hlt
    rw [IsComplete, htotals, hdates, Totals.sum_countP _ _ (hsorted.imp fun hlt heq => hne hlt heq),
      and_iff_left hsorted, List.countP_eq_length]
    refine forall₂_congr fun click hclick => ?_
    rw [decide_eq_true_eq, groupId_seriesStrategy,
      mem_generateCompleteTimeBuckets_iff hnow hstart hlast (hclicks click hclick), InSeries]
    simp only [hstart, hend, true_and]
  · rw [formatResults_of_overflow hdays, Option.getD_none]
    constructor
    · rintro ⟨htotal, -⟩ click hclick
      rw [List.length_eq_zero_iff.1 htotal.symm] at hclick
      cases hclick
    · intro hall
      cases clicks with
      | nil => exact ⟨rfl, List.Pairwise.nil⟩
      | cons click clicks =>
        have hfirst := hall click List.mem_cons_self
        exact absurd ⟨hfirst.1, hfirst.2.1⟩ hdays

instance (rows : List TimeRow) (clicks : List ClickDoc) : Decidable (IsComplete rows clicks) :=
  inferInstanceAs (Decidable (_ ∧ _))

instance (zone : Zone) (window : StatsWindow) (t : Int) : Decidable (InSeries zone window t) :=
  inferInstanceAs (Decidable (_ ∧ _ ∧ _ ∧ _ ∧ _))

/-- New York in November 2025: the clock is put back from two to one in the morning of the second. -/
def newYork : Zone where
  offset t := if t < 1762063200000000 then -4 * microsPerHour else -5 * microsPerHour
  fromParts w := if w + 4 * microsPerHour < 1762063200000000 then w + 4 * microsPerHour else w + 5 * microsPerHour
  neg_lt_offset t := by
    unfold microsPerHour microsPerDay
    split_ifs <;> omega
  offset_lt t := by
    unfold microsPerHour microsPerDay
    split_ifs <;> omega
  fromParts_shown t := by
    unfold microsPerHour
    split_ifs <;> omega
  lt_fromParts w := by
    unfold microsPerHour microsPerDay
    split_ifs <;> omega
  fromParts_lt w := by
    unfold microsPerHour microsPerDay
    split_ifs <;> omega

/-- The times of two requests. -/
def parseNovember : String → Option Int
  | "2025-11-02T04:50:00Z" => some 1762059000000000
  | "2025-11-02T05:20:00Z" => some 1762060800000000
  | "2025-11-02T06:10:00Z" => some 1762063800000000
  | _ => none

/-- An hour after the clock is put back. -/
def laterThatNight : SystemTime := ⟨1762066800000000, by decide⟩

/-- A click at half past one, before the clock is put back. -/
def nightClick : ClickDoc where
  clickedAt := 1762061400000000
  urlId := 1
  shortCode := "promo"
  ownerId := 2
  ipAddress := "10.0.0.1"
  browser := .value "Firefox"
  os := .value "Linux"

/-- An hour and twenty minutes around the click: its hour is the second of two. -/
theorem series_complete_iff_hourly :
    IsComplete (StatsService.timeSeries (fun _ => newYork) (fun _ => true) "US/Eastern"
      ⟨1762059000000000, 1762063800000000⟩ [nightClick]) [nightClick] :=
  (series_complete_iff (fun _ => newYork) (fun _ => true) "US/Eastern" parseNovember 90 laterThatNight
    (some "2025-11-02T04:50:00Z") (some "2025-11-02T06:10:00Z") (by decide +kernel)
    (by decide +kernel)).2 (by decide +kernel)

/-- Fifty minutes around it, from twenty past one to ten past one: the loop comes to no bucket. -/
theorem click_lost_in_fold :
    StatsService.resolveWindow parseNovember 90 laterThatNight.micros (some "2025-11-02T05:20:00Z")
        (some "2025-11-02T06:10:00Z") = .ok ⟨1762060800000000, 1762063800000000⟩ ∧
      (1762060800000000 ≤ nightClick.clickedAt ∧ nightClick.clickedAt ≤ 1762063800000000) ∧
      ¬ IsComplete (StatsService.timeSeries (fun _ => newYork) (fun _ => true) "US/Eastern"
        ⟨1762060800000000, 1762063800000000⟩ [nightClick]) [nightClick] := by
  decide +kernel

end Spoo
