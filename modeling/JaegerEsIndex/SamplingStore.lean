import JaegerEsIndex.DateWalk

namespace JaegerEsIndex

/-!
# The sampling store — write targets and read plans

The index-naming half of `samplingstore.SamplingStore`, the version with data-stream support:
the store's prefix (`newSamplingStore`), the target of a write (`getWriteIndex`), the targets
of a ranged read (`getReadIndices`) and of a "latest" read (`getLatestIndices`). The two loops
run on `fuel` (`DateWalk`); the client's existence check is an argument.

* `getReadIndices_periodPlan` — in dated mode, with rollover `-P` and a period-exact layout,
  the plan of `[start, end]` is the dated read plan of `IsPeriodPlan`;
* `getLatestIndices_latestScan` — the locator checks the periods from `now`'s downwards, each
  once and none below that of `now - lookback`, returns the newest existing one or the
  not-found error, and makes at most `⌈lookback / P⌉ + 1` checks;
* `legacy_index_in_dual_read` — under a prefix without `.`, the legacy wildcard of the
  data-stream plans matches every dated index the same `Params` wrote to before the switch.
-/

/-- `samplingIndexBaseName`. -/
def samplingIndexBaseName : String := "jaeger-sampling"

/-- `samplingstore.Params`, without the client and the logger. -/
structure SamplingStore.Params where
  indexPrefix : IndexPrefix
  indexDateLayout : DateLayout
  indexRolloverFrequency : Int
  lookback : Int
  maxDocCount : Nat
  useDataStream : Bool

/-- `samplingstore.SamplingStore`, without the client and the logger: what an operation reads
from the client is an argument of that operation. -/
structure SamplingStore where
  samplingIndexPrefix : String
  indexDateLayout : DateLayout
  maxDocCount : Nat
  indexRolloverFrequency : Int
  lookback : Int
  useDataStream : Bool

/-- `NewSamplingStore`: the data stream `jaeger.sampling` under the prefix, or the dated
indices `jaeger-sampling` under the prefix, followed by the separator. -/
def newSamplingStore (p : SamplingStore.Params) : SamplingStore :=
  let samplingIndexBase := if p.useDataStream then "jaeger.sampling" else samplingIndexBaseName
  let pre := p.indexPrefix.apply samplingIndexBase
  { samplingIndexPrefix := if p.useDataStream then pre else pre ++ indexPrefixSeparator
    indexDateLayout := p.indexDateLayout
    maxDocCount := p.maxDocCount
    indexRolloverFrequency := p.indexRolloverFrequency
    lookback := p.lookback
    useDataStream := p.useDataStream }

/-- `Params` of the default names on daily indices walked back one day per step, with a lookback
of one day; `periodTally` names days as the layout `2006-01-02` does. -/
def SamplingStore.Params.dailySamplingParams : SamplingStore.Params :=
  ⟨"", .periodTally 86400000000000, -86400000000000, 86400000000000, 100, false⟩

/-- The sampling store of `dailySamplingParams`. -/
def SamplingStore.dailySamplingStore : SamplingStore :=
  newSamplingStore .dailySamplingParams

/-- The daily sampling store with a lookback of one week. -/
def SamplingStore.weeklySamplingStore : SamplingStore :=
  newSamplingStore { SamplingStore.Params.dailySamplingParams with lookback := 604800000000000 }

namespace SamplingStore

variable (s : SamplingStore)

/-- `getWriteIndex`: the data stream, or the dated index of `ts`. -/
def getWriteIndex (ts : Int) : String :=
  if s.useDataStream then s.samplingIndexPrefix
  else indexWithDate s.samplingIndexPrefix s.indexDateLayout ts

/-- `getReadIndices` on `fuel`: the data stream and its legacy wildcard, or the backward date
walk from `endTime` to the name of `startTime`, stepping by the rollover frequency ("rollover
is negative"). -/
def getReadIndices (fuel : Nat) (startTime endTime : Int) : Option (List String) :=
  if s.useDataStream then
    some [s.samplingIndexPrefix, getDataStreamLegacyWildcard s.samplingIndexPrefix]
  else
    readWalk (indexWithDate s.samplingIndexPrefix s.indexDateLayout)
      (indexWithDate s.samplingIndexPrefix s.indexDateLayout startTime)
      s.indexRolloverFrequency fuel endTime

/-- `getLatestIndices` on `fuel`, at the clock reading `now`, with the client's existence check
`indexExists`: the data stream and its legacy wildcard, or the locator's walk from `now` that
gives up at the name of `now - lookback`. Go computes `now.Add(-s.lookback)`, whose negation
of the `time.Duration` agrees with `now - lookback` for every lookback but `-2^63`. -/
def getLatestIndices (indexExists : String → Except String Bool) (fuel : Nat) (now : Int) :
    Option Scan :=
  if s.useDataStream then
    some ⟨[], .ok [s.samplingIndexPrefix, getDataStreamLegacyWildcard s.samplingIndexPrefix]⟩
  else
    latestWalk (indexWithDate s.samplingIndexPrefix s.indexDateLayout) indexExists
      (indexWithDate s.samplingIndexPrefix s.indexDateLayout (now - s.lookback))
      s.indexRolloverFrequency fuel now

variable {s}

/-- In dated mode a write goes to the dated name of its instant. -/
theorem getWriteIndex_dated (hds : s.useDataStream = false) :
    s.getWriteIndex = indexWithDate s.samplingIndexPrefix s.indexDateLayout := by
  funext ts
  simp [getWriteIndex, hds]

/-! ### Dated read plans -/

/-- **Dated read plan.** In dated mode, with rollover frequency `-P` and a layout that names
periods of length `P` exactly, `getReadIndices startTime endTime` terminates and returns one
write index per period from that of `endTime` down to that of `startTime`: each once, none
missing, and no other. -/
theorem getReadIndices_periodPlan (hds : s.useDataStream = false) {P : Int} (hP : 0 < P)
    (hr : s.indexRolloverFrequency = -P) (hL : NamesPeriods s.indexDateLayout.format P)
    {startTime endTime : Int} (hse : startTime ≤ endTime) :
    ∃ fuel plan, s.getReadIndices fuel startTime endTime = some plan ∧
      IsPeriodPlan s.getWriteIndex P startTime endTime plan := by
  obtain ⟨plan, hrun, hplan⟩ := readWalk_periodPlan hP (hL.indexWithDate s.samplingIndexPrefix) hse
  refine ⟨(endTime / P - startTime / P).toNat + 1, plan, ?_, by rwa [getWriteIndex_dated hds]⟩
  simpa [getReadIndices, hds, hr] using hrun

theorem getReadIndices_periodPlan_daily :
    dailySamplingStore.useDataStream = false ∧ (0 : Int) < 86400000000000 ∧
      (0 : Int) ≤ 3 * 86400000000000 ∧
      ∃ fuel plan, dailySamplingStore.getReadIndices fuel 0 (3 * 86400000000000) = some plan ∧
        IsPeriodPlan dailySamplingStore.getWriteIndex 86400000000000 0 (3 * 86400000000000) plan :=
  ⟨rfl, by decide, by decide, getReadIndices_periodPlan rfl (by decide) rfl
    (DateLayout.periodTally_namesPeriods _) (by decide)⟩

/-! ### The latest-index locator -/

/-- **Latest-index locator.** In dated mode, with rollover frequency `-P`, a period-exact layout,
a lookback `L ≥ 0` and an error-free existence check, `getLatestIndices` terminates. It checks
the periods from that of `now` downwards, each once and none below that of `now - L`, returns
the newest period whose index exists or the not-found error, and checks at most `⌈L / P⌉ + 1`
names. -/
theorem getLatestIndices_latestScan (hds : s.useDataStream = false) {P : Int} (hP : 0 < P)
    (hr : s.indexRolloverFrequency = -P) (hL : NamesPeriods s.indexDateLayout.format P)
    (hlb : 0 ≤ s.lookback) (ex : String → Bool) (now : Int) :
    ∃ fuel scan, s.getLatestIndices (fun n => .ok (ex n)) fuel now = some scan ∧
      IsLatestScan s.getWriteIndex P ex (now - s.lookback) now scan ∧
      (scan.checked.length : Int) ≤ (s.lookback + P - 1) / P + 1 := by
  obtain ⟨scan, hrun, hscan⟩ := latestWalk_latestScan hP (hL.indexWithDate s.samplingIndexPrefix)
    ex (show now - s.lookback ≤ now by omega)
  refine ⟨(now / P - (now - s.lookback) / P).toNat + 1, scan,
    by simpa [getLatestIndices, hds, hr] using hrun,
    by rwa [getWriteIndex_dated hds], ?_⟩
  have := periods_in_window hP s.lookback now
  have := hscan.checked_length_le
  omega

theorem getLatestIndices_latestScan_weekly :
    weeklySamplingStore.useDataStream = false ∧ (0 : Int) < 86400000000000 ∧
      (0 : Int) ≤ 604800000000000 ∧
      ∃ fuel scan, weeklySamplingStore.getLatestIndices (fun _ => .ok false) fuel 0 = some scan ∧
        IsLatestScan weeklySamplingStore.getWriteIndex 86400000000000 (fun _ => false)
          (0 - 604800000000000) 0 scan ∧
        (scan.checked.length : Int) ≤ (604800000000000 + 86400000000000 - 1) / 86400000000000 + 1 :=
  ⟨rfl, by decide, by decide, getLatestIndices_latestScan rfl (by decide) rfl
    (DateLayout.periodTally_namesPeriods _) (by decide) (fun _ => false) 0⟩

/-! ### The dual read across the switch to data streams -/

/-- The characters `apply` puts in front of a base name hold no `.` when the prefix holds none. -/
theorem not_mem_apply_lead {p : IndexPrefix} (hp : '.' ∉ p.data) :
    '.' ∉ (if p = "" then [] else p.data ++ ['-'] : List Char) := by
  split <;> simp [hp]

/-- Under a prefix without `.`, the legacy wildcard of the sampling data stream matches every
dated sampling index name, whatever the layout and the instant. -/
theorem legacyWildcard_matches {p : IndexPrefix} (hp : '.' ∉ p.data) (layout : DateLayout)
    (t : Int) :
    matchesTarget (getDataStreamLegacyWildcard (p.apply "jaeger.sampling"))
      (indexWithDate (p.apply samplingIndexBaseName ++ indexPrefixSeparator) layout t) = true := by
  have hds : replaceFirst '.' '-' "jaeger.sampling".data = "jaeger-sampling".data := rfl
  simp only [matchesTarget, getDataStreamLegacyWildcard, indexWithDate, String.data_append,
    IndexPrefix.apply_data, replaceFirst_append_of_not_mem (not_mem_apply_lead hp), hds]
  simpa [samplingIndexBaseName, indexPrefixSeparator] using
    wildcardMatch_append_star ((if p = "" then [] else p.data ++ ['-']) ++ "jaeger-sampling-".data)
      (layout.format t).data

/-- **No write lost to the dual read.** Under an index prefix without `.`, take any `Params`,
any instant `t`, and the dated name the store built with `useDataStream = false` writes to at
`t`. The plans the store built from the same `Params` with `useDataStream = true` returns, from
`getReadIndices` and from `getLatestIndices`, hold a target that matches that name. -/
theorem legacy_index_in_dual_read (p : SamplingStore.Params) (hp : '.' ∉ p.indexPrefix.data)
    (t : Int) :
    (∀ fuel startTime endTime, ∃ plan,
      (newSamplingStore { p with useDataStream := true }).getReadIndices fuel startTime endTime
        = some plan ∧
      ∃ target ∈ plan, matchesTarget target
        ((newSamplingStore { p with useDataStream := false }).getWriteIndex t) = true) ∧
    (∀ indexExists fuel now, ∃ plan,
      (newSamplingStore { p with useDataStream := true }).getLatestIndices indexExists fuel now
        = some ⟨[], .ok plan⟩ ∧
      ∃ target ∈ plan, matchesTarget target
        ((newSamplingStore { p with useDataStream := false }).getWriteIndex t) = true) := by
  have hmatch := legacyWildcard_matches hp p.indexDateLayout t
  constructor <;> intros <;>
    exact ⟨_, rfl, _, List.mem_cons_of_mem _ (List.mem_singleton_self _), by
      simpa [newSamplingStore, getWriteIndex] using hmatch⟩

theorem legacy_index_in_dual_read_dev :
    '.' ∉ ("dev" : IndexPrefix).data ∧
    (∀ fuel startTime endTime, ∃ plan,
      (newSamplingStore ⟨"dev", .periodTally 86400000000000, -86400000000000, 0, 100,
        true⟩).getReadIndices fuel startTime endTime = some plan ∧
      ∃ target ∈ plan, matchesTarget target ((newSamplingStore ⟨"dev",
        .periodTally 86400000000000, -86400000000000, 0, 100, false⟩).getWriteIndex 0) = true) ∧
    (∀ indexExists fuel now, ∃ plan,
      (newSamplingStore ⟨"dev", .periodTally 86400000000000, -86400000000000, 0, 100,
        true⟩).getLatestIndices indexExists fuel now = some ⟨[], .ok plan⟩ ∧
      ∃ target ∈ plan, matchesTarget target ((newSamplingStore ⟨"dev",
        .periodTally 86400000000000, -86400000000000, 0, 100, false⟩).getWriteIndex 0) = true) :=
  ⟨by decide, legacy_index_in_dual_read
    ⟨"dev", .periodTally 86400000000000, -86400000000000, 0, 100, false⟩ (by decide) 0⟩

/-- Under a prefix holding a `.` and no `*`, neither data-stream target resolves to a dated
sampling name: the stream's name holds `.sampling` where the dated name holds `-sampling-`, and
the legacy wildcard turns the prefix's own first `.` into `-`, where the dated name keeps it. -/
theorem dataStream_targets_miss {p : IndexPrefix} (hdot : '.' ∈ p.data) (hstar : '*' ∉ p.data)
    (layout : DateLayout) (t : Int) :
    ∀ target ∈ [p.apply "jaeger.sampling", getDataStreamLegacyWildcard (p.apply "jaeger.sampling")],
      matchesTarget target
        (indexWithDate (p.apply samplingIndexBaseName ++ indexPrefixSeparator) layout t) = false := by
  have hp : p ≠ "" := fun h => by simp [h] at hdot
  have hname : (indexWithDate (p.apply samplingIndexBaseName ++ indexPrefixSeparator) layout t).data
      = p.data ++ '-' :: ("jaeger-sampling-".data ++ (layout.format t).data) := by
    simp [indexWithDate, IndexPrefix.apply_data, hp, samplingIndexBaseName, indexPrefixSeparator]
  have hstream : (p.apply "jaeger.sampling").data = p.data ++ '-' :: "jaeger.sampling".data := by
    simp [IndexPrefix.apply_data, hp]
  simp only [List.mem_cons, List.mem_singleton, List.not_mem_nil, or_false]
  rintro target (rfl | rfl) <;> rw [matchesTarget, hname]
  · -- the stream's own name: `.` against `-` after the prefix and `-jaeger`
    have h := wildcardMatch_append_cons_ne (p.data ++ '-' :: "jaeger".data) (by simp [hstar])
      '.' '-' (by decide) (by decide) "sampling".data ("sampling-".data ++ (layout.format t).data)
    simpa [hstream] using h
  · -- the legacy wildcard: `-` against `.` at the prefix's first `.`
    obtain ⟨a, b, hab, -, hrep⟩ := replaceFirst_split '.' '-' hdot ('-' :: "jaeger.sampling".data)
    have ha : '*' ∉ a := fun h => hstar (hab ▸ List.mem_append_left _ h)
    have h := wildcardMatch_append_cons_ne a ha '-' '.' (by decide) (by decide)
      (b ++ '-' :: "jaeger.sampling".data ++ "-*".data)
      (b ++ '-' :: ("jaeger-sampling-".data ++ (layout.format t).data))
    rw [getDataStreamLegacyWildcard, String.data_append, hstream, hrep, hab]
    simpa using h

/-- **Dotted prefixes break the dual read.** For every prefix holding a `.` (and no `*`, which no
index name holds), no target of either data-stream plan matches the dated name that the store
built from the same `Params` with `useDataStream = false` writes to, at any instant. So under
the prefix `a.b` the claim fails. -/
theorem legacy_index_missed_under_dotted_prefix :
    (∀ (p : SamplingStore.Params), '.' ∈ p.indexPrefix.data → '*' ∉ p.indexPrefix.data → ∀ t,
      (∀ fuel startTime endTime plan,
        (newSamplingStore { p with useDataStream := true }).getReadIndices fuel startTime endTime
          = some plan →
        ∀ target ∈ plan, matchesTarget target
          ((newSamplingStore { p with useDataStream := false }).getWriteIndex t) = false) ∧
      (∀ indexExists fuel now plan,
        (newSamplingStore { p with useDataStream := true }).getLatestIndices indexExists fuel now
          = some ⟨[], .ok plan⟩ →
        ∀ target ∈ plan, matchesTarget target
          ((newSamplingStore { p with useDataStream := false }).getWriteIndex t) = false)) ∧
    ¬ ∀ (p : SamplingStore.Params) (t : Int),
      (∀ fuel startTime endTime, ∃ plan,
        (newSamplingStore { p with useDataStream := true }).getReadIndices fuel startTime endTime
          = some plan ∧
        ∃ target ∈ plan, matchesTarget target
          ((newSamplingStore { p with useDataStream := false }).getWriteIndex t) = true) ∧
      (∀ indexExists fuel now, ∃ plan,
        (newSamplingStore { p with useDataStream := true }).getLatestIndices indexExists fuel now
          = some ⟨[], .ok plan⟩ ∧
        ∃ target ∈ plan, matchesTarget target
          ((newSamplingStore { p with useDataStream := false }).getWriteIndex t) = true) := by
  have hmiss : ∀ (p : SamplingStore.Params), '.' ∈ p.indexPrefix.data →
      '*' ∉ p.indexPrefix.data → ∀ t, ∀ target ∈ [p.indexPrefix.apply "jaeger.sampling",
        getDataStreamLegacyWildcard (p.indexPrefix.apply "jaeger.sampling")],
        matchesTarget target
          ((newSamplingStore { p with useDataStream := false }).getWriteIndex t) = false :=
    fun p hdot hstar t target htarget => by
      simpa [newSamplingStore, getWriteIndex] using
        dataStream_targets_miss hdot hstar p.indexDateLayout t target htarget
  refine ⟨fun p hdot hstar t => ⟨fun fuel startTime endTime plan hplan => ?_,
    fun indexExists fuel now plan hplan => ?_⟩, fun h => ?_⟩
  · simp only [newSamplingStore, getReadIndices, if_true, Option.some.injEq] at hplan
    exact hplan ▸ hmiss p hdot hstar t
  · simp only [newSamplingStore, getLatestIndices, if_true, Option.some.injEq, Scan.mk.injEq,
      Except.ok.injEq, true_and] at hplan
    exact hplan ▸ hmiss p hdot hstar t
  · obtain ⟨plan, hplan, target, hmem, hmatch⟩ :=
      (h ⟨"a.b", .periodTally 86400000000000, -86400000000000, 0, 100, false⟩ 0).1 0 0 0
    simp only [newSamplingStore, getReadIndices, if_true, Option.some.injEq] at hplan
    subst hplan
    rw [hmiss _ (by decide) (by decide) 0 target hmem] at hmatch
    exact Bool.false_ne_true hmatch

end SamplingStore

end JaegerEsIndex
