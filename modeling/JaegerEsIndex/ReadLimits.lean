import JaegerEsIndex.ReadAfterWrite
import JaegerEsIndex.DependencyReads

namespace JaegerEsIndex

/-!
# The reads at their limits

No read of either store sorts its search or checks its range. This module follows both
omissions through:

* `getThroughput_truncated` — a range holding more documents than `maxDocCount` is cut down
  without notice: `GetThroughput` returns `maxDocCount` of its entries, any of them;
* `latestProbabilities_may_be_stale` — a data stream keeps every document, and the locator's
  search has no time range and no sort. Once the stream holds more than `maxDocCount` documents,
  a serving cluster may leave the newest probabilities out of the hits, and
  `GetLatestProbabilities` then returns an older value;
* `getLatestProbabilities_fails_only_without_index` — on any cluster the locator returns, and
  its not-found error comes exactly when no period of the lookback window has an index;
* `inverted_ranges_never_return` — a range whose start lies in a later period than its end
  sends the date walk away from the name it waits for, and the read never returns.
-/

namespace SamplingStore

variable {Thr Prob QPS : Type}

/-! ### Truncation at `maxDocCount` -/

/-- **Beyond `maxDocCount`, throughputs are dropped silently.** For a data stream, or dated
indices walked back one period per step: after any run of writes, through any client serving
the cluster, `GetThroughput` over `start ≤ end` returns without error. It returns
`min maxDocCount n` throughput entries, where `n` is the number of entries the range holds, and
all of them are taken from those `n`. When the range holds more than `maxDocCount` documents, the
rest are left out without notice. -/
theorem getThroughput_truncated [Inhabited Thr] (s : SamplingStore) (hs : s.ReadsByPeriod)
    (version : Nat) (calls : List (SamplingCall Thr Prob QPS)) {start end_ : Int}
    (hle : start ≤ end_) (client : Client (SamplingDoc Thr Prob QPS))
    (hserves : client.Serves (s.runWrites version calls) SamplingDoc.fieldOf) :
    ∃ fuel thrs, s.getThroughput client fuel start end_ = some (.ok thrs) ∧
      thrs.Subperm ((calls.filter fun call => start ≤ call.ts ∧ call.ts ≤ end_).flatMap
        SamplingCall.throughputsRead) ∧
      thrs.length = min s.maxDocCount ((calls.filter fun call =>
        start ≤ call.ts ∧ call.ts ≤ end_).flatMap SamplingCall.throughputsRead).length := by
  obtain ⟨fuel, targets, hplan, hcover⟩ := getReadIndices_covers hs hle
  obtain ⟨hits, hsearch, hsub, hlen⟩ :=
    hserves.2 ⟨targets, s.maxDocCount, some (buildTSQuery start end_)⟩
  rw [visible_runWrites s version calls s.maxDocCount hcover] at hsub hlen
  -- each document of the range gives one entry
  have hread : ((calls.filter fun call => start ≤ call.ts ∧ call.ts ≤ end_).flatMap
      SamplingCall.documents).map (·.toTimeThroughput.throughput) =
      (calls.filter fun call => start ≤ call.ts ∧ call.ts ≤ end_).flatMap
        SamplingCall.throughputsRead := by
    simp [List.map_flatMap]
  refine ⟨fuel, _, getThroughput_of_search s hplan hsearch, ?_, ?_⟩
  · rw [← hread]
    exact subperm_map _ hsub
  · rw [List.length_map, hlen, ← hread, List.length_map]

theorem getThroughput_truncated_daily :
    dailySamplingStore.ReadsByPeriod ∧ (0 : Int) ≤ 4 ∧
      ((dailySamplingStore.runWrites 8 dailyCalls).client SamplingDoc.fieldOf).Serves
        (dailySamplingStore.runWrites 8 dailyCalls) SamplingDoc.fieldOf ∧
      ∃ fuel thrs, dailySamplingStore.getThroughput
          ((dailySamplingStore.runWrites 8 dailyCalls).client SamplingDoc.fieldOf) fuel 0 4 =
          some (.ok thrs) ∧
        thrs.Subperm ((dailyCalls.filter fun call => 0 ≤ call.ts ∧ call.ts ≤ 4).flatMap
          SamplingCall.throughputsRead) ∧
        thrs.length = min dailySamplingStore.maxDocCount ((dailyCalls.filter fun call =>
          0 ≤ call.ts ∧ call.ts ≤ 4).flatMap SamplingCall.throughputsRead).length :=
  ⟨dailySamplingStore_readsByPeriod, by decide, Cluster.client_serves _ _,
    getThroughput_truncated _ dailySamplingStore_readsByPeriod 8 _ (by decide) _
      (Cluster.client_serves _ _)⟩

/-! ### The latest probabilities of a data stream -/

/-- A search of both data-stream targets with no query sees every document of a run, in write
order. -/
theorem visible_runWrites_stream (s : SamplingStore) (hds : s.useDataStream = true)
    (version : Nat) (calls : List (SamplingCall Thr Prob QPS)) (size : Nat) :
    (s.runWrites version calls).visible SamplingDoc.fieldOf
        ⟨[s.samplingIndexPrefix, getDataStreamLegacyWildcard s.samplingIndexPrefix], size, none⟩ =
      calls.flatMap SamplingCall.documents := by
  rw [Cluster.visible_of_targets fun e he => ?_]
  · simp [runWrites_docs, List.map_flatMap, Function.comp_def]
  · rcases e with ⟨name, d⟩
    obtain ⟨call, -, -, rfl⟩ := mem_runWrites_docs.1 he
    simp [getWriteIndex, hds]

/-- What a document tells the selection: the zero value, or the probabilities its call wrote. -/
theorem probabilities_of_mem_documents [Inhabited Prob] [Inhabited QPS]
    {call : SamplingCall Thr Prob QPS} {d : SamplingDoc Thr Prob QPS} (hd : d ∈ call.documents) :
    d.toTimeProbabilitiesAndQPS.probabilitiesAndQPS.probabilities = default ∨
      ∃ ts qps, call =
        .insertProbabilitiesAndQPS ts d.toTimeProbabilitiesAndQPS.probabilitiesAndQPS.probabilities qps := by
  cases call with
  | insertThroughput ts throughput =>
    obtain ⟨x, -, rfl⟩ := List.mem_map.1 hd
    exact .inl rfl
  | insertProbabilitiesAndQPS ts probabilities qps =>
    rw [List.mem_singleton.1 hd]
    exact .inr ⟨ts, qps, rfl⟩

/-- **In data-stream mode the newest probabilities can be missed.** For a sampling store
reading a data stream, take any run that ends in an `InsertProbabilitiesAndQPS` made after every
other call and that holds more documents than `maxDocCount`. Some client serving the cluster
makes `GetLatestProbabilities` return, at any clock reading, the zero value or the
probabilities of an earlier call. That client answers the unsorted search with `maxDocCount` of
the other documents. Nothing bounds the search in time, so the stream's documents accumulate
past `maxDocCount`. When the newest probabilities are not the zero value and no earlier call
wrote them, what is returned is not the newest probabilities. -/
theorem latestProbabilities_may_be_stale [Inhabited Prob] [Inhabited QPS] [DecidableEq Thr]
    [DecidableEq Prob] [DecidableEq QPS] (s : SamplingStore) (hds : s.useDataStream = true)
    (version : Nat) (calls : List (SamplingCall Thr Prob QPS)) (ts : Int) (probabilities : Prob)
    (qps : QPS) (hafter : ∀ call ∈ calls, call.ts < ts) (hdefault : probabilities ≠ default)
    (hfresh : ∀ ts' qps', SamplingCall.insertProbabilitiesAndQPS ts' probabilities qps' ∉ calls)
    (hmore : s.maxDocCount <
      ((calls ++ [SamplingCall.insertProbabilitiesAndQPS ts probabilities qps]).flatMap
        SamplingCall.documents).length)
    (fuel : Nat) (now : Int) :
    ∃ client : Client (SamplingDoc Thr Prob QPS),
      client.Serves (s.runWrites version (calls ++ [.insertProbabilitiesAndQPS ts probabilities qps]))
        SamplingDoc.fieldOf ∧
      ∃ r, s.getLatestProbabilities client fuel now = some (.ok r) ∧ r ≠ probabilities ∧
        (r = default ∨ ∃ ts' qps', SamplingCall.insertProbabilitiesAndQPS ts' r qps' ∈ calls) := by
  set c := s.runWrites version (calls ++ [.insertProbabilitiesAndQPS ts probabilities qps])
  set newest : SamplingDoc Thr Prob QPS := .ofTimeProbabilitiesAndQPS ⟨ts, ⟨probabilities, qps⟩⟩
  refine ⟨c.clientWithout SamplingDoc.fieldOf newest, c.clientWithout_serves _ _, ?_⟩
  have hvis := visible_runWrites_stream s hds version
    (calls ++ [.insertProbabilitiesAndQPS ts probabilities qps]) s.maxDocCount
  -- the newest document is the only document of the last call, and no earlier call wrote it
  have hnot : newest ∉ calls.flatMap SamplingCall.documents := fun h => by
    obtain ⟨call, hcall, hd⟩ := List.mem_flatMap.1 h
    have hts : some ts = some call.ts := SamplingCall.timestamp_of_mem_documents hd
    exact (hafter call hcall).ne (Option.some.inj hts).symm
  have herase : (c.visible SamplingDoc.fieldOf ⟨[s.samplingIndexPrefix,
      getDataStreamLegacyWildcard s.samplingIndexPrefix], s.maxDocCount, none⟩).erase newest =
      calls.flatMap SamplingCall.documents := by
    rw [hvis, List.flatMap_append, List.erase_append_right _ hnot]
    simp [SamplingCall.documents, newest]
  obtain ⟨r, hr, hcases⟩ := latestProbabilitiesOf_mem (((calls.flatMap
    SamplingCall.documents)).take s.maxDocCount)
  -- what is returned is the zero value or an earlier call's, so not the newest probabilities
  have hold : r = default ∨
      ∃ ts' qps', SamplingCall.insertProbabilitiesAndQPS ts' r qps' ∈ calls := by
    rcases hcases with hdef | ⟨d, hd, rfl⟩
    · exact .inl hdef
    · obtain ⟨call, hcall, hdoc⟩ := List.mem_flatMap.1 (List.mem_of_mem_take hd)
      exact (probabilities_of_mem_documents hdoc).imp_right
        fun ⟨ts', qps', h⟩ => ⟨ts', qps', h ▸ hcall⟩
  refine ⟨r, ?_, ?_, hold⟩
  · rw [getLatestProbabilities_of_search s (show s.getLatestIndices _ fuel now = some ⟨[],
      .ok [s.samplingIndexPrefix, getDataStreamLegacyWildcard s.samplingIndexPrefix]⟩ by
        simp [getLatestIndices, hds]) rfl
      (by simp only [Cluster.clientWithout, if_pos (hvis ▸ hmore), herase]; rfl), hr]
  · rintro rfl
    rcases hold with hdef | ⟨ts', qps', hmem⟩
    · exact hdefault hdef
    · exact hfresh ts' qps' hmem

/-- A data-stream store of the default names whose searches return one document. -/
def oneHitStreamStore : SamplingStore :=
  newSamplingStore ⟨"", .periodTally 86400000000000, -86400000000000, 86400000000000, 1, true⟩

theorem latestProbabilities_may_be_stale_stream :
    oneHitStreamStore.useDataStream = true ∧
      (∀ call ∈ ([.insertThroughput 1 [5]] : List (SamplingCall Nat (List Nat) Nat)), call.ts < 2) ∧
      [7] ≠ (default : List Nat) ∧
      (∀ ts' qps', SamplingCall.insertProbabilitiesAndQPS ts' [7] qps' ∉
        ([.insertThroughput 1 [5]] : List (SamplingCall Nat (List Nat) Nat))) ∧
      oneHitStreamStore.maxDocCount < (([.insertThroughput 1 [5]] ++
        [SamplingCall.insertProbabilitiesAndQPS 2 [7] 0] :
          List (SamplingCall Nat (List Nat) Nat)).flatMap SamplingCall.documents).length ∧
      ∃ client : Client (SamplingDoc Nat (List Nat) Nat),
        client.Serves (oneHitStreamStore.runWrites 8 ([.insertThroughput 1 [5]] ++
          [.insertProbabilitiesAndQPS 2 [7] 0])) SamplingDoc.fieldOf ∧
        ∃ r, oneHitStreamStore.getLatestProbabilities client 0 3 = some (.ok r) ∧ r ≠ [7] ∧
          (r = default ∨ ∃ ts' qps', SamplingCall.insertProbabilitiesAndQPS ts' r qps' ∈
            ([.insertThroughput 1 [5]] : List (SamplingCall Nat (List Nat) Nat))) :=
  have hfresh : ∀ ts' qps', SamplingCall.insertProbabilitiesAndQPS ts' [7] qps' ∉
      ([.insertThroughput 1 [5]] : List (SamplingCall Nat (List Nat) Nat)) := by simp
  ⟨rfl, by decide, by decide, hfresh, by decide,
    latestProbabilities_may_be_stale _ rfl 8 _ 2 [7] 0 (by decide) (by decide) hfresh
      (by decide) 0 3⟩

/-! ### When the locator finds nothing -/

/-- **`GetLatestProbabilities` fails only on an empty lookback window.** In dated mode, with
rollover frequency `-P`, a period-exact layout and a lookback `≥ 0`: on every cluster, through
every client serving it, at every clock reading, `GetLatestProbabilities` returns. It fails,
with the error "failed to get latest indices: falied to find latest index" as the source spells
it, exactly when no period of `[now - lookback, now]` has an index; otherwise it returns
probabilities. -/
theorem getLatestProbabilities_fails_only_without_index [Inhabited Prob] [Inhabited QPS]
    (s : SamplingStore) (hds : s.useDataStream = false) {P : Int} (hP : 0 < P)
    (hr : s.indexRolloverFrequency = -P) (hL : NamesPeriods s.indexDateLayout.format P)
    (hlb : 0 ≤ s.lookback) (c : Cluster (SamplingDoc Thr Prob QPS))
    (client : Client (SamplingDoc Thr Prob QPS)) (hserves : client.Serves c SamplingDoc.fieldOf)
    (now : Int) :
    ∃ fuel, (s.getLatestProbabilities client fuel now =
        some (.error "failed to get latest indices: falied to find latest index") ∧
        ∀ b, (now - s.lookback) / P ≤ b → b ≤ now / P → s.getWriteIndex (b * P) ∉ c.indices) ∨
      ((∃ probabilities, s.getLatestProbabilities client fuel now = some (.ok probabilities)) ∧
        ∃ b, (now - s.lookback) / P ≤ b ∧ b ≤ now / P ∧ s.getWriteIndex (b * P) ∈ c.indices) := by
  obtain ⟨fuel, scan, hscan, hlatest, -⟩ :=
    getLatestIndices_latestScan hds hP hr hL hlb c.indexExists now
  rw [← funext hserves.1] at hscan
  refine ⟨fuel, ?_⟩
  rcases hlatest.result_eq with ⟨b, hlo, hhi, hex, -, -, hres⟩ | ⟨hnone, hres⟩
  · -- an index of the window exists: the search answers with decodable hits
    obtain ⟨hits, hsearch, -⟩ := hserves.2 ⟨[s.getWriteIndex (b * P)], s.maxDocCount, none⟩
    obtain ⟨r, hsel, -⟩ := latestProbabilitiesOf_mem hits
    exact .inr ⟨⟨r, by rw [getLatestProbabilities_of_search s hscan hres hsearch, hsel]⟩,
      b, hlo, hhi, by simpa [Cluster.indexExists] using hex⟩
  · refine .inl ⟨by simp [getLatestProbabilities, hscan, hres], fun b hlo hhi h => ?_⟩
    simpa [Cluster.indexExists, h] using hnone b hlo hhi

theorem getLatestProbabilities_fails_only_without_index_daily :
    dailySamplingStore.useDataStream = false ∧ (0 : Int) < 86400000000000 ∧
      dailySamplingStore.indexRolloverFrequency = -86400000000000 ∧
      NamesPeriods dailySamplingStore.indexDateLayout.format 86400000000000 ∧
      0 ≤ dailySamplingStore.lookback ∧
      ((Cluster.empty : Cluster (SamplingDoc Nat (List Nat) Nat)).client
        SamplingDoc.fieldOf).Serves .empty SamplingDoc.fieldOf ∧
      ∃ fuel, (dailySamplingStore.getLatestProbabilities
          ((Cluster.empty : Cluster (SamplingDoc Nat (List Nat) Nat)).client SamplingDoc.fieldOf)
          fuel 0 = some (.error "failed to get latest indices: falied to find latest index") ∧
          ∀ b, (0 - dailySamplingStore.lookback) / 86400000000000 ≤ b → b ≤ 0 / 86400000000000 →
            dailySamplingStore.getWriteIndex (b * 86400000000000) ∉
              (Cluster.empty : Cluster (SamplingDoc Nat (List Nat) Nat)).indices) ∨
        ((∃ probabilities, dailySamplingStore.getLatestProbabilities
            ((Cluster.empty : Cluster (SamplingDoc Nat (List Nat) Nat)).client SamplingDoc.fieldOf)
            fuel 0 = some (.ok probabilities)) ∧
          ∃ b, (0 - dailySamplingStore.lookback) / 86400000000000 ≤ b ∧ b ≤ 0 / 86400000000000 ∧
            dailySamplingStore.getWriteIndex (b * 86400000000000) ∈
              (Cluster.empty : Cluster (SamplingDoc Nat (List Nat) Nat)).indices) :=
  ⟨rfl, by decide, rfl, DateLayout.periodTally_namesPeriods _, by decide, Cluster.client_serves _ _,
    getLatestProbabilities_fails_only_without_index _ rfl (by decide) rfl
      (DateLayout.periodTally_namesPeriods _) (by decide) _ _ (Cluster.client_serves _ _) 0⟩

end SamplingStore

/-! ### Inverted ranges -/

/-- **Inverted ranges never return.** Neither read checks its range. Take dated indices and a
layout naming periods of length `P` exactly.
* `GetThroughput`, with a rollover frequency `≤ 0` (the sign the store is configured with), never
  returns for a range whose start lies in a later period than its end.
* `GetDependencies`, with a rollover frequency `≥ 0`, never returns for a negative lookback that
  reaches into a later period (above `-2^63`, whose negation wraps in Go).
In both cases the date walk moves away from the name it waits for. -/
theorem inverted_ranges_never_return {P : Int} (hP : 0 < P) :
    (∀ {Thr Prob QPS : Type} [Inhabited Thr] (s : SamplingStore), s.useDataStream = false →
      NamesPeriods s.indexDateLayout.format P → s.indexRolloverFrequency ≤ 0 →
      ∀ (client : Client (SamplingDoc Thr Prob QPS)) (start end_ : Int), end_ / P < start / P →
        ∀ fuel, s.getThroughput client fuel start end_ = none) ∧
    (∀ {Dep : Type} (s : DependencyStore), s.useReadWriteAliases = false →
      NamesPeriods s.indexDateLayout.format P → 0 ≤ s.indexRolloverFrequency →
      ∀ (client : Client (TimeDependencies Dep)) (endTs lookback : Int),
        -9223372036854775808 < lookback → endTs / P < (endTs - lookback) / P →
        ∀ fuel, s.getDependencies client fuel endTs lookback = none) := by
  refine ⟨fun s hds hL hr client start end_ hlt fuel => ?_,
    fun s hrw hL hr client endTs lookback _ hlt fuel => ?_⟩
  · simp only [SamplingStore.getThroughput, SamplingStore.getReadIndices, hds,
      Bool.false_eq_true, if_false, readWalk_eq_none_of_falling hP (hL.indexWithDate _) hr hlt,
      Option.map_none']
  · simp only [DependencyStore.getDependencies, DependencyStore.getReadIndices, hrw,
      Bool.false_eq_true, if_false,
      readWalk_eq_none_of_falling hP (hL.indexWithDate _)
        (show -s.indexRolloverFrequency ≤ 0 by omega) hlt, Option.map_none']

theorem inverted_ranges_never_return_daily :
    (0 : Int) < 86400000000000 ∧
      SamplingStore.dailySamplingStore.getThroughput ((SamplingStore.dailySamplingStore.runWrites 8
        SamplingStore.dailyCalls).client SamplingDoc.fieldOf) 1000 86400000000000 0 = none ∧
      (-9223372036854775808 : Int) < -86400000000000 ∧
      DependencyStore.dailyDependencyStore.getDependencies
        ((Cluster.empty : Cluster (TimeDependencies String)).client TimeDependencies.fieldOf)
        1000 0 (-86400000000000) = none :=
  have hinv := inverted_ranges_never_return (show (0 : Int) < 86400000000000 by decide)
  ⟨by decide, hinv.1 SamplingStore.dailySamplingStore rfl (DateLayout.periodTally_namesPeriods _)
      (by decide) _ _ _ (by decide) 1000, by decide,
    hinv.2 DependencyStore.dailyDependencyStore rfl (DateLayout.periodTally_namesPeriods _)
      (by decide) _ _ _ (by decide) (by decide) 1000⟩

end JaegerEsIndex
