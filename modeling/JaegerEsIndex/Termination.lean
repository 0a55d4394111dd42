import JaegerEsIndex.DependencyStore

namespace JaegerEsIndex

/-!
# When the date loops stop

Each loop of the read-plan builders stops only once the formatted name under its cursor is
exactly the name of the range's start, and the locator only once an index exists or the name
of `now - lookback` is reached. Nothing in the code checks the rollover frequency, so whether
the loops stop depends on its sign and size against the layout's period:

* `getReadIndices_terminates`, `getLatestIndices_terminates`,
  `DependencyStore.getReadIndices_terminates` — with a layout naming periods of length `P`
  exactly, a step toward the past of at most one period stops every run;
* `rollover_of_reads_terminate`, `DependencyStore.rollover_of_reads_stop` — conversely, for
  such a layout a step of zero, of the other sign, or of more than a period loops forever on
  some range;
* `date_loops_terminate` — both directions, over every `Params`;
* `getReadIndices_terminates_iff`, `DependencyStore.getReadIndices_stops_iff` — each store's
  read plan, as an equivalence;
* `date_loops_may_not_terminate` — rollover zero makes the sampling store's read loop forever.
-/

/-- A sampling store whose loops step toward the past by at most one period of a layout that
names periods exactly, or that reads a data stream. -/
def SamplingStore.StepsWithinPeriod (s : SamplingStore) : Prop :=
  s.useDataStream = true ∨ ∃ P, 0 < P ∧ NamesPeriods s.indexDateLayout.format P ∧
    -P ≤ s.indexRolloverFrequency ∧ s.indexRolloverFrequency < 0

/-- A dependency store whose read loop steps toward the past by at most one period of a layout
that names periods exactly, or that reads its read alias. -/
def DependencyStore.StepsWithinPeriod (s : DependencyStore) : Prop :=
  s.useReadWriteAliases = true ∨ ∃ P, 0 < P ∧ NamesPeriods s.indexDateLayout.format P ∧
    0 < s.indexRolloverFrequency ∧ s.indexRolloverFrequency ≤ P

namespace SamplingStore

variable {s : SamplingStore}

/-- The sampling read plan of any `startTime ≤ endTime` is computed in finite time. -/
theorem getReadIndices_terminates (hs : s.StepsWithinPeriod) {startTime endTime : Int}
    (hse : startTime ≤ endTime) :
    ∃ fuel plan, s.getReadIndices fuel startTime endTime = some plan := by
  cases hds : s.useDataStream
  · obtain hds' | ⟨P, hP, hL, hlo, hneg⟩ := hs
    · simp_all
    · simpa [getReadIndices, hds] using
        readWalk_terminates hP (hL.indexWithDate s.samplingIndexPrefix) hlo hneg hse
  · exact ⟨0, _, by rw [getReadIndices, if_pos hds]⟩

/-- The locator stops for every clock reading and every error-free existence check. -/
theorem getLatestIndices_terminates (hs : s.StepsWithinPeriod) (hlb : 0 ≤ s.lookback)
    (ex : String → Bool) (now : Int) :
    ∃ fuel scan, s.getLatestIndices (fun n => .ok (ex n)) fuel now = some scan := by
  cases hds : s.useDataStream
  · obtain hds' | ⟨P, hP, hL, hlo, hneg⟩ := hs
    · simp_all
    · simpa [getLatestIndices, hds] using latestWalk_terminates hP
        (hL.indexWithDate s.samplingIndexPrefix) ex hlo hneg (show now - s.lookback ≤ now by omega)
  · exact ⟨0, _, by rw [getLatestIndices, if_pos hds]⟩

end SamplingStore

/-- The dependency read plan of any lookback `≥ 0` is computed in finite time. -/
theorem DependencyStore.getReadIndices_terminates {s : DependencyStore}
    (hs : s.StepsWithinPeriod) {endTs lookback : Int} (hlb : 0 ≤ lookback) :
    ∃ fuel plan, s.getReadIndices fuel endTs lookback = some plan := by
  cases hrw : s.useReadWriteAliases
  · obtain hrw' | ⟨P, hP, hL, hpos, hle⟩ := hs
    · simp_all
    · simpa [getReadIndices, hrw] using readWalk_terminates hP
        (hL.indexWithDate s.dependencyIndexPrefix) (by omega) (by omega)
        (show endTs - lookback ≤ endTs by omega)
  · exact ⟨0, _, by rw [getReadIndices, if_pos hrw]⟩

/-! ### Exactly which rollover frequencies stop every read -/

/-- A dated sampling store whose layout names periods of length `P` exactly, and whose read plan
is built for every `startTime ≤ endTime`, steps toward the past by at most one period. A step of
zero or toward the future never leaves the period of `endTime`, and a step of more than one
period jumps over the period of `startTime`. -/
theorem SamplingStore.rollover_of_reads_terminate {s : SamplingStore}
    (hds : s.useDataStream = false) {P : Int} (hP : 0 < P)
    (hL : NamesPeriods s.indexDateLayout.format P)
    (h : ∀ startTime endTime, startTime ≤ endTime →
      ∃ fuel plan, s.getReadIndices fuel startTime endTime = some plan) :
    -P ≤ s.indexRolloverFrequency ∧ s.indexRolloverFrequency < 0 := by
  have hname := hL.indexWithDate s.samplingIndexPrefix
  by_contra hr
  rcases le_or_lt 0 s.indexRolloverFrequency with hrise | hneg
  · -- toward the future, from the period after that of `0`
    obtain ⟨fuel, plan, hrun⟩ := h 0 P hP.le
    rw [getReadIndices, if_neg (by simp [hds]), readWalk_eq_none_of_rising hP hname hrise
      (by rw [Int.zero_ediv, Int.ediv_self hP.ne']; omega)] at hrun
    exact Option.noConfusion hrun
  · -- more than one period down at a time, over the period of `-P`
    obtain ⟨fuel, plan, hrun⟩ := h (-P) 0 (by omega)
    rw [getReadIndices, if_neg (by simp [hds]),
      readWalk_eq_none_of_skipping hP hname (by omega)] at hrun
    exact Option.noConfusion hrun

/-- A dated dependency store whose layout names periods of length `P` exactly, and whose read
plan is built for every lookback `≥ 0`, has a rollover frequency that is positive and at most one
period. -/
theorem DependencyStore.rollover_of_reads_stop {s : DependencyStore}
    (hrw : s.useReadWriteAliases = false) {P : Int} (hP : 0 < P)
    (hL : NamesPeriods s.indexDateLayout.format P)
    (h : ∀ endTs lookback, 0 ≤ lookback →
      ∃ fuel plan, s.getReadIndices fuel endTs lookback = some plan) :
    0 < s.indexRolloverFrequency ∧ s.indexRolloverFrequency ≤ P := by
  have hname := hL.indexWithDate s.dependencyIndexPrefix
  by_contra hr
  rcases le_or_lt s.indexRolloverFrequency 0 with hrise | hfar
  · obtain ⟨fuel, plan, hrun⟩ := h P P hP.le
    rw [getReadIndices, if_neg (by simp [hrw]), sub_self, readWalk_eq_none_of_rising hP hname
      (by omega) (by rw [Int.zero_ediv, Int.ediv_self hP.ne']; omega)] at hrun
    exact Option.noConfusion hrun
  · obtain ⟨fuel, plan, hrun⟩ := h 0 P hP.le
    rw [getReadIndices, if_neg (by simp [hrw]), zero_sub,
      readWalk_eq_none_of_skipping hP hname (by omega)] at hrun
    exact Option.noConfusion hrun

/-- **When every sampling range is read.** For a dated sampling store whose layout names periods
of length `P` exactly, `getReadIndices` returns for every `startTime ≤ endTime` exactly when the
rollover frequency steps toward the past by at most one period. -/
theorem SamplingStore.getReadIndices_terminates_iff {s : SamplingStore}
    (hds : s.useDataStream = false) {P : Int} (hP : 0 < P)
    (hL : NamesPeriods s.indexDateLayout.format P) :
    (∀ startTime endTime, startTime ≤ endTime →
      ∃ fuel plan, s.getReadIndices fuel startTime endTime = some plan) ↔
    -P ≤ s.indexRolloverFrequency ∧ s.indexRolloverFrequency < 0 :=
  ⟨rollover_of_reads_terminate hds hP hL,
    fun hr _ _ => getReadIndices_terminates (.inr ⟨P, hP, hL, hr⟩)⟩

theorem SamplingStore.getReadIndices_terminates_iff_daily :
    dailySamplingStore.useDataStream = false ∧ (0 : Int) < 86400000000000 ∧
      NamesPeriods dailySamplingStore.indexDateLayout.format 86400000000000 ∧
      ((∀ startTime endTime, startTime ≤ endTime →
        ∃ fuel plan, dailySamplingStore.getReadIndices fuel startTime endTime = some plan) ↔
        -86400000000000 ≤ dailySamplingStore.indexRolloverFrequency ∧
          dailySamplingStore.indexRolloverFrequency < 0) :=
  ⟨rfl, by decide, DateLayout.periodTally_namesPeriods _,
    SamplingStore.getReadIndices_terminates_iff rfl (by decide)
      (DateLayout.periodTally_namesPeriods _)⟩

/-- **When every dependency range is read.** For a dated dependency store whose layout names
periods of length `P` exactly, `getReadIndices` returns for every lookback `≥ 0` exactly when
the rollover frequency is positive and at most one period. -/
theorem DependencyStore.getReadIndices_stops_iff {s : DependencyStore}
    (hrw : s.useReadWriteAliases = false) {P : Int} (hP : 0 < P)
    (hL : NamesPeriods s.indexDateLayout.format P) :
    (∀ endTs lookback, 0 ≤ lookback →
      ∃ fuel plan, s.getReadIndices fuel endTs lookback = some plan) ↔
    0 < s.indexRolloverFrequency ∧ s.indexRolloverFrequency ≤ P :=
  ⟨rollover_of_reads_stop hrw hP hL,
    fun hr _ _ => getReadIndices_terminates (.inr ⟨P, hP, hL, hr⟩)⟩

theorem DependencyStore.getReadIndices_stops_iff_daily :
    dailyDependencyStore.useReadWriteAliases = false ∧ (0 : Int) < 86400000000000 ∧
      NamesPeriods dailyDependencyStore.indexDateLayout.format 86400000000000 ∧
      ((∀ endTs lookback, 0 ≤ lookback →
        ∃ fuel plan, dailyDependencyStore.getReadIndices fuel endTs lookback = some plan) ↔
        0 < dailyDependencyStore.indexRolloverFrequency ∧
          dailyDependencyStore.indexRolloverFrequency ≤ 86400000000000) :=
  ⟨rfl, by decide, DateLayout.periodTally_namesPeriods _,
    DependencyStore.getReadIndices_stops_iff rfl (by decide)
      (DateLayout.periodTally_namesPeriods _)⟩

/-! ### Both directions, over every `Params` -/

/-- **The loops terminate exactly within one period per step.** For every sampling and
dependency configuration that reads a data stream or alias, or whose layout names periods of
some length `P` exactly and whose rollover frequency moves the cursor toward the past by at most
`P`, `SamplingStore.getReadIndices`, `SamplingStore.getLatestIndices` (lookback `≥ 0`,
error-free existence check) and `DependencyStore.getReadIndices` (lookback `≥ 0`) each return.
For such a layout in dated mode the condition is also necessary for the two read plans. -/
theorem date_loops_terminate (ps : SamplingStore.Params) (pd : DependencyStore.Params) :
    ((newSamplingStore ps).StepsWithinPeriod → (newDependencyStore pd).StepsWithinPeriod →
      0 ≤ ps.lookback →
      (∀ startTime endTime, startTime ≤ endTime →
        ∃ fuel plan, (newSamplingStore ps).getReadIndices fuel startTime endTime = some plan) ∧
      (∀ (ex : String → Bool) now, ∃ fuel scan,
        (newSamplingStore ps).getLatestIndices (fun n => .ok (ex n)) fuel now = some scan) ∧
      (∀ endTs lookback, 0 ≤ lookback →
        ∃ fuel plan, (newDependencyStore pd).getReadIndices fuel endTs lookback = some plan)) ∧
    (ps.useDataStream = false → ∀ P, 0 < P → NamesPeriods ps.indexDateLayout.format P →
      (∀ startTime endTime, startTime ≤ endTime →
        ∃ fuel plan, (newSamplingStore ps).getReadIndices fuel startTime endTime = some plan) →
      -P ≤ ps.indexRolloverFrequency ∧ ps.indexRolloverFrequency < 0) ∧
    (pd.useReadWriteAliases = false → ∀ P, 0 < P → NamesPeriods pd.indexDateLayout.format P →
      (∀ endTs lookback, 0 ≤ lookback →
        ∃ fuel plan, (newDependencyStore pd).getReadIndices fuel endTs lookback = some plan) →
      0 < pd.indexRolloverFrequency ∧ pd.indexRolloverFrequency ≤ P) :=
  ⟨fun hps hpd hlb => ⟨fun _ _ => SamplingStore.getReadIndices_terminates hps,
      SamplingStore.getLatestIndices_terminates hps hlb,
      fun _ _ => DependencyStore.getReadIndices_terminates hpd⟩,
    fun hds _ hP hL => SamplingStore.rollover_of_reads_terminate hds hP hL,
    fun hrw _ hP hL => DependencyStore.rollover_of_reads_stop hrw hP hL⟩

theorem date_loops_terminate_daily :
    SamplingStore.dailySamplingStore.StepsWithinPeriod ∧
    DependencyStore.dailyDependencyStore.StepsWithinPeriod ∧
    0 ≤ SamplingStore.Params.dailySamplingParams.lookback ∧
    (∀ startTime endTime, startTime ≤ endTime → ∃ fuel plan,
      SamplingStore.dailySamplingStore.getReadIndices fuel startTime endTime = some plan) ∧
    (∀ (ex : String → Bool) now, ∃ fuel scan,
      SamplingStore.dailySamplingStore.getLatestIndices (fun n => .ok (ex n)) fuel now = some scan) ∧
    (∀ endTs lookback, 0 ≤ lookback → ∃ fuel plan,
      DependencyStore.dailyDependencyStore.getReadIndices fuel endTs lookback = some plan) := by
  have hps : SamplingStore.dailySamplingStore.StepsWithinPeriod :=
    .inr ⟨86400000000000, by decide, DateLayout.periodTally_namesPeriods _, by decide, by decide⟩
  have hpd : DependencyStore.dailyDependencyStore.StepsWithinPeriod :=
    .inr ⟨86400000000000, by decide, DateLayout.periodTally_namesPeriods _, by decide, by decide⟩
  exact ⟨hps, hpd, by decide, (date_loops_terminate .dailySamplingParams .dailyDependencyParams).1
    hps hpd (by decide)⟩

/-- With rollover frequency zero the sampling store's read of a range across two days never
stops: the cursor stays on `endTime`, whose name is never that of `startTime`. -/
theorem date_loops_may_not_terminate :
    ¬ ∀ (ps : SamplingStore.Params) (pd : DependencyStore.Params), 0 ≤ ps.lookback →
      (∀ startTime endTime, startTime ≤ endTime →
        ∃ fuel plan, (newSamplingStore ps).getReadIndices fuel startTime endTime = some plan) ∧
      (∀ (ex : String → Bool) now, ∃ fuel scan,
        (newSamplingStore ps).getLatestIndices (fun n => .ok (ex n)) fuel now = some scan) ∧
      (∀ endTs lookback, 0 ≤ lookback →
        ∃ fuel plan, (newDependencyStore pd).getReadIndices fuel endTs lookback = some plan) := by
  intro h
  obtain ⟨fuel, plan, hrun⟩ := (h ⟨"", .periodTally 86400000000000, 0, 0, 100, false⟩
    ⟨"", .periodTally 86400000000000, 86400000000000, 100, false⟩ le_rfl).1 0 86400000000000
    (by decide)
  simp only [SamplingStore.getReadIndices, newSamplingStore, Bool.false_eq_true, if_false] at hrun
  rw [readWalk_eq_none_of_rising (by decide) ((DateLayout.periodTally_namesPeriods _).indexWithDate _)
    le_rfl (by decide)] at hrun
  exact Option.noConfusion hrun

end JaegerEsIndex
