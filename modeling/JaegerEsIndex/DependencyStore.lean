import JaegerEsIndex.Cluster
import JaegerEsIndex.SamplingStore

namespace JaegerEsIndex

/-!
# The dependency store

`depstore.DependencyStore`: dependency batches are written to the dated index of their
instant, created first when it is missing, or to the write alias (`getWriteIndex`; the write
path, request by request, is `DependencyRace`); a read of `[endTs - lookback, endTs]` searches
the dated indices of that range (`getReadIndices`, the backward date walk stepping by
`-indexRolloverFrequency`) with a range query on `timestamp`.

* `getReadIndices_covers_query_range` — with rollover `P` and a period-exact layout, the read
  plan is exactly the dated plan of the range `buildTSQuery` filters on;
* `read_plans_agree_under_opposite_signs` — the dependency store under rollover `r` and the
  sampling store under `-r` walk the same dates fuel for fuel, so their plans differ only in
  the entity prefix; `read_plans_disagree_under_same_sign` — under the same `r` they do not.
-/

/-- `dependencyIndexBaseName`. -/
def dependencyIndexBaseName : String := "jaeger-dependencies"

/-- `dbmodel.TimeDependencies`: a batch of dependency links and the instant it was written for. -/
structure TimeDependencies (Dep : Type) where
  timestamp : Int
  dependencies : List Dep
  deriving DecidableEq

/-- The only field of a dependency document a range query reads is `timestamp`. -/
def TimeDependencies.fieldOf {Dep : Type} (d : TimeDependencies Dep) (field : String) :
    Option Int :=
  if field = "timestamp" then some d.timestamp else none

/-- `depstore.Params`, without the client and the logger. -/
structure DependencyStore.Params where
  indexPrefix : IndexPrefix
  indexDateLayout : DateLayout
  indexRolloverFrequency : Int
  maxDocCount : Nat
  useReadWriteAliases : Bool

/-- `depstore.DependencyStore`, without the client and the logger. -/
structure DependencyStore where
  dependencyIndexPrefix : String
  indexDateLayout : DateLayout
  indexRolloverFrequency : Int
  maxDocCount : Nat
  useReadWriteAliases : Bool

/-- `NewDependencyStore`: `jaeger-dependencies` under the prefix, followed by the separator. -/
def newDependencyStore (p : DependencyStore.Params) : DependencyStore :=
  { dependencyIndexPrefix := p.indexPrefix.apply dependencyIndexBaseName ++ indexPrefixSeparator
    indexDateLayout := p.indexDateLayout
    indexRolloverFrequency := p.indexRolloverFrequency
    maxDocCount := p.maxDocCount
    useReadWriteAliases := p.useReadWriteAliases }

/-- `Params` of the default names on daily indices, walked back one day per step, with aliases
disabled; `periodTally` names days as the layout `2006-01-02` does. -/
def DependencyStore.Params.dailyDependencyParams : DependencyStore.Params :=
  ⟨"", .periodTally 86400000000000, 86400000000000, 100, false⟩

/-- The dependency store of `dailyDependencyParams`. -/
def DependencyStore.dailyDependencyStore : DependencyStore :=
  newDependencyStore .dailyDependencyParams

namespace DependencyStore

/-- `depstore.buildTSQuery`: the documents of `[endTs - lookback, endTs]`. -/
def buildTSQuery (endTs lookback : Int) : RangeQuery :=
  ⟨"timestamp", endTs - lookback, endTs⟩

variable (s : DependencyStore) {Dep : Type}

/-- `getWriteIndex`: the write alias, or the dated index of `ts`. -/
def getWriteIndex (ts : Int) : String :=
  if s.useReadWriteAliases then s.dependencyIndexPrefix ++ "write"
  else indexWithDate s.dependencyIndexPrefix s.indexDateLayout ts

/-- `getReadIndices` on `fuel`: the read alias, or the backward date walk from `endTs` to the
name of `endTs - lookback`, stepping by `-indexRolloverFrequency`. Go negates the two
`time.Duration`s as 64-bit integers, which agrees with the negation here for every value but
`-2^63`, whose negation wraps to itself; results about negative durations exclude it. -/
def getReadIndices (fuel : Nat) (endTs lookback : Int) : Option (List String) :=
  if s.useReadWriteAliases then some [s.dependencyIndexPrefix ++ "read"]
  else
    readWalk (indexWithDate s.dependencyIndexPrefix s.indexDateLayout)
      (indexWithDate s.dependencyIndexPrefix s.indexDateLayout (endTs - lookback))
      (-s.indexRolloverFrequency) fuel endTs

/-- The loop over the hits of `GetDependencies`: the batches' links in hit order, or the first
decoding failure. -/
def collectDependencies : List (Except String (TimeDependencies Dep)) → Except String (List Dep)
  | [] => .ok []
  | .error err :: _ => .error ("unmarshalling documents failed: " ++ err)
  | .ok tDependencies :: hits =>
    (tDependencies.dependencies ++ ·) <$> collectDependencies hits

/-- `GetDependencies` on `fuel`, through `client`: the links of every batch the search of the
read plan returns. -/
def getDependencies (client : Client (TimeDependencies Dep)) (fuel : Nat) (endTs lookback : Int) :
    Option (Except String (List Dep)) :=
  (s.getReadIndices fuel endTs lookback).map fun indices =>
    match client.search ⟨indices, s.maxDocCount, some (buildTSQuery endTs lookback)⟩ with
    | .error err => .error ("failed to search for dependencies: " ++ err)
    | .ok hits => collectDependencies hits

variable {s}

/-- In dated mode a batch goes to the dated name of its instant. -/
theorem getWriteIndex_dated (hrw : s.useReadWriteAliases = false) :
    s.getWriteIndex = indexWithDate s.dependencyIndexPrefix s.indexDateLayout := by
  funext ts
  simp [getWriteIndex, hrw]

/-! ### The read plan -/

/-- **Dependency read plan.** With dated indices, rollover frequency `P`, a layout that names
periods of length `P` exactly and a lookback `≥ 0`, `getReadIndices endTs lookback` terminates
and returns the write index of every period the range of `buildTSQuery endTs lookback` meets,
newest first, each once, and no other name. -/
theorem getReadIndices_covers_query_range (hrw : s.useReadWriteAliases = false) {P : Int}
    (hP : 0 < P) (hr : s.indexRolloverFrequency = P)
    (hL : NamesPeriods s.indexDateLayout.format P) {endTs lookback : Int} (hlb : 0 ≤ lookback) :
    ∃ fuel plan, s.getReadIndices fuel endTs lookback = some plan ∧
      IsPeriodPlan s.getWriteIndex P (buildTSQuery endTs lookback).gte
        (buildTSQuery endTs lookback).lte plan := by
  obtain ⟨plan, hrun, hplan⟩ := readWalk_periodPlan hP (hL.indexWithDate s.dependencyIndexPrefix)
    (show endTs - lookback ≤ endTs by omega)
  refine ⟨(endTs / P - (endTs - lookback) / P).toNat + 1, plan, ?_,
    by rwa [getWriteIndex_dated hrw]⟩
  simpa [getReadIndices, hrw, hr] using hrun

theorem getReadIndices_covers_query_range_daily :
    dailyDependencyStore.useReadWriteAliases = false ∧ (0 : Int) < 86400000000000 ∧
      dailyDependencyStore.indexRolloverFrequency = 86400000000000 ∧
      NamesPeriods dailyDependencyStore.indexDateLayout.format 86400000000000 ∧
      (0 : Int) ≤ 604800000000000 ∧
      ∃ fuel plan, dailyDependencyStore.getReadIndices fuel 0 604800000000000 = some plan ∧
        IsPeriodPlan dailyDependencyStore.getWriteIndex 86400000000000
          (buildTSQuery 0 604800000000000).gte (buildTSQuery 0 604800000000000).lte plan :=
  ⟨rfl, by decide, rfl, DateLayout.periodTally_namesPeriods _, by decide,
    getReadIndices_covers_query_range rfl (by decide) rfl (DateLayout.periodTally_namesPeriods _)
      (by decide)⟩

end DependencyStore

/-! ### The two read-plan builders side by side -/

/-- The dated name under a prefix is the prefix in front of the formatted date. -/
theorem indexWithDate_eq_fun (indexPrefix : String) (layout : DateLayout) :
    indexWithDate indexPrefix layout = fun t => indexPrefix ++ layout.format t := rfl

/-- **Opposite sign conventions.** The dependency store configured with rollover `r` and the
sampling store configured with `-r` (dated mode, one layout) walk the same dates: at every
fuel, both are still running, or both have stopped with the same date suffixes after their
entity prefixes. -/
theorem read_plans_agree_under_opposite_signs (pd : DependencyStore.Params)
    (ps : SamplingStore.Params) (hr : ps.indexRolloverFrequency = -pd.indexRolloverFrequency)
    (hlayout : ps.indexDateLayout = pd.indexDateLayout) (hrw : pd.useReadWriteAliases = false)
    (hds : ps.useDataStream = false) (fuel : Nat) (endTs lookback : Int) :
    ∃ suffixes : Option (List String),
      (newDependencyStore pd).getReadIndices fuel endTs lookback =
        suffixes.map (List.map ((newDependencyStore pd).dependencyIndexPrefix ++ ·)) ∧
      (newSamplingStore ps).getReadIndices fuel (endTs - lookback) endTs =
        suffixes.map (List.map ((newSamplingStore ps).samplingIndexPrefix ++ ·)) := by
  refine ⟨readWalk pd.indexDateLayout.format (pd.indexDateLayout.format (endTs - lookback))
    (-pd.indexRolloverFrequency) fuel endTs, ?_, ?_⟩
  · simp only [DependencyStore.getReadIndices, newDependencyStore, hrw, indexWithDate_eq_fun,
      if_false]
    exact readWalk_prefix _ _ _ _
  · simp only [SamplingStore.getReadIndices, newSamplingStore, hds, hr, hlayout,
      indexWithDate_eq_fun, if_false, Bool.false_eq_true]
    exact readWalk_prefix _ _ _ _

theorem read_plans_agree_under_opposite_signs_daily :
    SamplingStore.Params.dailySamplingParams.indexRolloverFrequency
      = -DependencyStore.Params.dailyDependencyParams.indexRolloverFrequency ∧
    SamplingStore.Params.dailySamplingParams.indexDateLayout
      = DependencyStore.Params.dailyDependencyParams.indexDateLayout ∧
    DependencyStore.Params.dailyDependencyParams.useReadWriteAliases = false ∧
    SamplingStore.Params.dailySamplingParams.useDataStream = false ∧
    ∃ suffixes : Option (List String),
      DependencyStore.dailyDependencyStore.getReadIndices 3 86400000000000 86400000000000 =
        suffixes.map (List.map (DependencyStore.dailyDependencyStore.dependencyIndexPrefix ++ ·)) ∧
      SamplingStore.dailySamplingStore.getReadIndices 3 (86400000000000 - 86400000000000)
          86400000000000 =
        suffixes.map (List.map (SamplingStore.dailySamplingStore.samplingIndexPrefix ++ ·)) :=
  ⟨rfl, rfl, rfl, rfl, read_plans_agree_under_opposite_signs _ _ rfl rfl rfl rfl 3 86400000000000
    86400000000000⟩

/-- Under the same rollover `r` of one day, over a range across two days, the dependency store
walks back and stops, while the sampling store walks towards the future and never stops. -/
theorem read_plans_disagree_under_same_sign :
    ¬ ∀ (pd : DependencyStore.Params) (ps : SamplingStore.Params),
      pd.indexRolloverFrequency ≠ 0 → ps.indexRolloverFrequency = pd.indexRolloverFrequency →
      ps.indexDateLayout = pd.indexDateLayout → pd.useReadWriteAliases = false →
      ps.useDataStream = false → ∀ endTs lookback : Int, 0 ≤ lookback →
      ∃ (fuel : Nat) (suffixes : List String),
        (newDependencyStore pd).getReadIndices fuel endTs lookback =
          some (suffixes.map ((newDependencyStore pd).dependencyIndexPrefix ++ ·)) ∧
        (newSamplingStore ps).getReadIndices fuel (endTs - lookback) endTs =
          some (suffixes.map ((newSamplingStore ps).samplingIndexPrefix ++ ·)) := by
  intro h
  obtain ⟨fuel, suffixes, -, hs⟩ :=
    h ⟨"", .periodTally 86400000000000, 86400000000000, 100, false⟩
    ⟨"", .periodTally 86400000000000, 86400000000000, 0, 100, false⟩ (by decide) rfl rfl rfl rfl
    86400000000000 86400000000000 (by decide)
  simp only [SamplingStore.getReadIndices, newSamplingStore, Bool.false_eq_true, if_false] at hs
  rw [readWalk_eq_none_of_rising (by decide) ((DateLayout.periodTally_namesPeriods _).indexWithDate _)
    (by decide) (by decide)] at hs
  exact Option.noConfusion hs

end JaegerEsIndex
