import JaegerEsIndex.ReadAfterWrite

namespace JaegerEsIndex

/-!
# The switch to data streams

An operator moves the sampling store to data streams by restarting it with `UseDataStream` on
and every other parameter unchanged. Until the switch, the store built from the same `Params`
with `UseDataStream` off wrote to the dated indices; so did the older `storage.go` store, which
writes the same documents to the same dated names. After it, the new store writes to the data
stream. Its reads target the data stream and, through `GetDataStreamLegacyWildcard`, the dated
indices written before the switch.

This module follows one cluster through the switch:

* `migratedCluster` — the cluster after the calls made before the switch and those made after;
* `migratedCluster_targets` — under an index prefix without `.`, every document of that cluster
  sits in a target one of the data-stream patterns matches;
* `migration_keeps_throughputs` — `GetThroughput` after the switch returns, up to order, the
  throughput entries of every call of the range, from either side of the switch;
* `migration_keeps_latest_probabilities` — `GetLatestProbabilities` after the switch returns the
  probabilities of the newest call, from either side of the switch, at any clock reading: the
  data-stream plans have no time window.
-/

namespace SamplingStore.Params

variable (p : SamplingStore.Params) {Thr Prob QPS : Type}

/-- The store `NewSamplingStore` builds from `p` before the switch: dated indices. -/
def datedStore : SamplingStore := newSamplingStore { p with useDataStream := false }

/-- The store `NewSamplingStore` builds from `p` after the switch: the data stream. -/
def streamStore : SamplingStore := newSamplingStore { p with useDataStream := true }

/-- The cluster after the switch: the calls `pre` of the dated store, flushed into a cluster
with no sampling index, then the calls `post` of the data-stream store. -/
def migratedCluster (versionBefore versionAfter : Nat) (pre post : List (SamplingCall Thr Prob QPS)) :
    Cluster (SamplingDoc Thr Prob QPS) :=
  post.foldl (fun c call => c.bulk (p.streamStore.requests versionAfter call))
    (p.datedStore.runWrites versionBefore pre)

/-- The targets of both reads of the data-stream store: the stream and its legacy wildcard. -/
def streamTargets : List String :=
  [p.streamStore.samplingIndexPrefix, getDataStreamLegacyWildcard p.streamStore.samplingIndexPrefix]

@[simp] theorem streamStore_getReadIndices (fuel : Nat) (startTime endTime : Int) :
    p.streamStore.getReadIndices fuel startTime endTime = some p.streamTargets := rfl

@[simp] theorem streamStore_getLatestIndices (indexExists : String → Except String Bool)
    (fuel : Nat) (now : Int) :
    p.streamStore.getLatestIndices indexExists fuel now = some ⟨[], .ok p.streamTargets⟩ := rfl

@[simp] theorem streamStore_maxDocCount : p.streamStore.maxDocCount = p.maxDocCount := rfl

/-- The cluster after the switch holds the documents of the calls before it, each in the dated
index of its call's clock reading, then those of the calls after it, in the data stream. -/
theorem migratedCluster_docs (versionBefore versionAfter : Nat)
    (pre post : List (SamplingCall Thr Prob QPS)) :
    (p.migratedCluster versionBefore versionAfter pre post).docs =
      (pre.flatMap fun call => call.documents.map (p.datedStore.getWriteIndex call.ts, ·)) ++
        post.flatMap fun call => call.documents.map (p.streamStore.getWriteIndex call.ts, ·) := by
  rw [migratedCluster, SamplingStore.foldl_bulk_docs, SamplingStore.runWrites_docs]

/-- The documents of the cluster after the switch, without their targets: those of all the
calls, in order. -/
theorem migratedCluster_docs_map_snd (versionBefore versionAfter : Nat)
    (pre post : List (SamplingCall Thr Prob QPS)) :
    (p.migratedCluster versionBefore versionAfter pre post).docs.map Prod.snd =
      (pre ++ post).flatMap SamplingCall.documents := by
  simp [migratedCluster_docs, List.map_flatMap, Function.comp_def]

/-- **No document out of reach of the dual read.** Under an index prefix without `.`, every
document of the cluster after the switch sits in a target that the data stream or its legacy
wildcard matches: the data stream for the documents written after the switch, a dated index the
wildcard matches for those written before it. -/
theorem migratedCluster_targets (hp : '.' ∉ p.indexPrefix.data) (versionBefore versionAfter : Nat)
    (pre post : List (SamplingCall Thr Prob QPS)) :
    ∀ e ∈ (p.migratedCluster versionBefore versionAfter pre post).docs,
      p.streamTargets.any (matchesTarget · e.1) = true := by
  intro e he
  rw [migratedCluster_docs, List.mem_append, List.mem_flatMap, List.mem_flatMap] at he
  rcases he with ⟨call, -, hd⟩ | ⟨call, -, hd⟩ <;> obtain ⟨d, -, rfl⟩ := List.mem_map.1 hd
  · -- a dated index, which the legacy wildcard matches
    have hmatch := legacyWildcard_matches hp p.indexDateLayout call.ts
    simp only [streamTargets, List.any_cons, List.any_nil, Bool.or_false, Bool.or_eq_true]
    exact .inr (by simpa [datedStore, streamStore, newSamplingStore, SamplingStore.getWriteIndex]
      using hmatch)
  · -- the data stream itself
    simp [streamTargets, streamStore, newSamplingStore, SamplingStore.getWriteIndex]

/-- What a search of the data-stream targets sees in the cluster after the switch: every
document its query accepts. -/
theorem migratedCluster_visible (hp : '.' ∉ p.indexPrefix.data)
    (versionBefore versionAfter : Nat) (pre post : List (SamplingCall Thr Prob QPS)) (size : Nat)
    (query : Option RangeQuery) :
    (p.migratedCluster versionBefore versionAfter pre post).visible SamplingDoc.fieldOf
        ⟨p.streamTargets, size, query⟩ =
      ((pre ++ post).flatMap SamplingCall.documents).filter
        fun doc => query.all (·.holds SamplingDoc.fieldOf doc) := by
  rw [Cluster.visible_of_targets (p.migratedCluster_targets hp versionBefore versionAfter pre post),
    migratedCluster_docs_map_snd]

/-- **Throughputs survive the switch.** Under an index prefix without `.`: after any calls
before the switch and any after it, every client serving the cluster makes `GetThroughput` of
the data-stream store return, for any range whose documents fit in `maxDocCount`, the
throughput entries of the calls of the range from both sides of the switch, each once, up to
order (one zero entry for each probabilities document, as before the switch). -/
theorem migration_keeps_throughputs [Inhabited Thr] (hp : '.' ∉ p.indexPrefix.data)
    (versionBefore versionAfter : Nat) (pre post : List (SamplingCall Thr Prob QPS))
    (client : Client (SamplingDoc Thr Prob QPS))
    (hserves : client.Serves (p.migratedCluster versionBefore versionAfter pre post)
      SamplingDoc.fieldOf)
    (fuel : Nat) (start end_ : Int)
    (hsize : (((pre ++ post).filter fun call => start ≤ call.ts ∧ call.ts ≤ end_).flatMap
      SamplingCall.documents).length ≤ p.maxDocCount) :
    ∃ thrs, p.streamStore.getThroughput client fuel start end_ = some (.ok thrs) ∧
      thrs.Perm (((pre ++ post).filter fun call => start ≤ call.ts ∧ call.ts ≤ end_).flatMap
        SamplingCall.throughputsRead) := by
  obtain ⟨hits, hsearch, hresp⟩ :=
    hserves.2 ⟨p.streamTargets, p.maxDocCount, some (SamplingStore.buildTSQuery start end_)⟩
  have hvis := p.migratedCluster_visible hp versionBefore versionAfter pre post p.maxDocCount
    (some (SamplingStore.buildTSQuery start end_))
  simp only [Option.all_some, SamplingStore.filter_documents_range] at hvis
  have hperm := (hresp.perm (by rwa [hvis])).trans (.of_eq hvis)
  refine ⟨_, SamplingStore.getThroughput_of_search _ (p.streamStore_getReadIndices fuel start end_)
    hsearch, ?_⟩
  simpa [List.map_flatMap] using hperm.map (·.toTimeThroughput.throughput)

theorem migration_keeps_throughputs_daily :
    '.' ∉ dailySamplingParams.indexPrefix.data ∧
      ((dailySamplingParams.migratedCluster 7 8
          ([.insertThroughput 1 [5]] : List (SamplingCall Nat (List Nat) Nat))
          [.insertThroughput 2 [6]]).client SamplingDoc.fieldOf).Serves
        (dailySamplingParams.migratedCluster 7 8 [.insertThroughput 1 [5]]
          [.insertThroughput 2 [6]]) SamplingDoc.fieldOf ∧
      ((([.insertThroughput 1 [5]] ++ [.insertThroughput 2 [6]] :
          List (SamplingCall Nat (List Nat) Nat)).filter fun call =>
            0 ≤ call.ts ∧ call.ts ≤ 4).flatMap SamplingCall.documents).length ≤
        dailySamplingParams.maxDocCount ∧
      ∃ thrs, dailySamplingParams.streamStore.getThroughput
          ((dailySamplingParams.migratedCluster 7 8
            ([.insertThroughput 1 [5]] : List (SamplingCall Nat (List Nat) Nat))
            [.insertThroughput 2 [6]]).client SamplingDoc.fieldOf) 0 0 4 = some (.ok thrs) ∧
        thrs.Perm ((([.insertThroughput 1 [5]] ++ [.insertThroughput 2 [6]] :
          List (SamplingCall Nat (List Nat) Nat)).filter fun call =>
            0 ≤ call.ts ∧ call.ts ≤ 4).flatMap SamplingCall.throughputsRead) :=
  ⟨by decide, Cluster.client_serves _ _, by decide,
    migration_keeps_throughputs _ (by decide) 7 8 _ _ _ (Cluster.client_serves _ _) 0 0 4
      (by decide)⟩

/-- **The latest probabilities survive the switch.** Under an index prefix without `.`: when the
calls before and after the switch end with an `InsertProbabilitiesAndQPS` made after every
other call, at an instant after the zero `time.Time`, and all their documents fit in
`maxDocCount`, every client serving the cluster makes `GetLatestProbabilities` of the
data-stream store return that call's probabilities, whichever side of the switch it was made
on, and at any clock reading: no lookback applies to the data-stream plans. -/
theorem migration_keeps_latest_probabilities [Inhabited Prob] [Inhabited QPS]
    (hp : '.' ∉ p.indexPrefix.data) (versionBefore versionAfter : Nat)
    (pre post calls : List (SamplingCall Thr Prob QPS)) (ts : Int) (probabilities : Prob)
    (qps : QPS) (hrun : pre ++ post = calls ++ [.insertProbabilitiesAndQPS ts probabilities qps])
    (hafter : ∀ call ∈ calls, call.ts < ts) (hzero : zeroTime < ts)
    (client : Client (SamplingDoc Thr Prob QPS))
    (hserves : client.Serves (p.migratedCluster versionBefore versionAfter pre post)
      SamplingDoc.fieldOf)
    (hsize : ((pre ++ post).flatMap SamplingCall.documents).length ≤ p.maxDocCount)
    (fuel : Nat) (now : Int) :
    p.streamStore.getLatestProbabilities client fuel now = some (.ok probabilities) := by
  obtain ⟨hits, hsearch, hresp⟩ := hserves.2 ⟨p.streamTargets, p.maxDocCount, none⟩
  have hvis := p.migratedCluster_visible hp versionBefore versionAfter pre post p.maxDocCount none
  simp only [Option.all_none, List.filter_true] at hvis
  have hperm := hresp.perm (by rw [hvis]; exact hsize)
  rw [hvis, hrun] at hperm
  rw [SamplingStore.getLatestProbabilities_of_search _ (p.streamStore_getLatestIndices _ fuel now)
    rfl hsearch]
  refine congrArg some (latestProbabilitiesOf_newest_call hafter hzero
    (hperm.mem_iff.2 (List.mem_flatMap.2 ⟨_, List.mem_append_right _ (List.mem_singleton_self _),
      List.mem_singleton_self _⟩)) fun e he => ?_)
  exact List.mem_flatMap.1 (hperm.mem_iff.1 he)

theorem migration_keeps_latest_probabilities_daily :
    '.' ∉ dailySamplingParams.indexPrefix.data ∧
      ([.insertThroughput 1 [5], .insertProbabilitiesAndQPS 2 [7] 0] ++ [] :
          List (SamplingCall Nat (List Nat) Nat)) =
        [.insertThroughput 1 [5]] ++ [.insertProbabilitiesAndQPS 2 [7] 0] ∧
      (∀ call ∈ ([.insertThroughput 1 [5]] : List (SamplingCall Nat (List Nat) Nat)),
        call.ts < 2) ∧ zeroTime < 2 ∧
      ((dailySamplingParams.migratedCluster 7 8 ([.insertThroughput 1 [5],
          .insertProbabilitiesAndQPS 2 [7] 0] : List (SamplingCall Nat (List Nat) Nat))
          []).client SamplingDoc.fieldOf).Serves
        (dailySamplingParams.migratedCluster 7 8 [.insertThroughput 1 [5],
          .insertProbabilitiesAndQPS 2 [7] 0] []) SamplingDoc.fieldOf ∧
      (([.insertThroughput 1 [5], .insertProbabilitiesAndQPS 2 [7] 0] ++ [] :
          List (SamplingCall Nat (List Nat) Nat)).flatMap SamplingCall.documents).length ≤
        dailySamplingParams.maxDocCount ∧
      dailySamplingParams.streamStore.getLatestProbabilities
          ((dailySamplingParams.migratedCluster 7 8 ([.insertThroughput 1 [5],
            .insertProbabilitiesAndQPS 2 [7] 0] : List (SamplingCall Nat (List Nat) Nat))
            []).client SamplingDoc.fieldOf) 0 1000000000000000000 =
        some (.ok [7]) :=
  ⟨by decide, rfl, by decide, by decide, Cluster.client_serves _ _, by decide,
    migration_keeps_latest_probabilities _ (by decide) 7 8
      [.insertThroughput 1 [5], .insertProbabilitiesAndQPS 2 [7] 0] [] [.insertThroughput 1 [5]]
      2 [7] 0 rfl (by decide) (by decide) _ (Cluster.client_serves _ _) (by decide) 0
      1000000000000000000⟩

end SamplingStore.Params

end JaegerEsIndex
