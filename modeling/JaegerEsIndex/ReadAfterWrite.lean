import JaegerEsIndex.SamplingReads

namespace JaegerEsIndex

/-!
# The sampling store — what a read sees after writes

A run of `InsertThroughput` and `InsertProbabilitiesAndQPS` calls, once the bulk processor has
flushed it, leaves every document in the write index of its call's clock reading. This module
follows a run through to the two reads, for a data stream and for dated indices walked back one
period per step:

* `runWrites_docs` — the cluster after a run holds each call's documents, in its write index;
* `visible_runWrites` — a range search whose targets match the write index of every instant of
  the range sees exactly the documents of the calls made inside it;
* `getThroughput_runWrites` — `GetThroughput` returns, up to order, the entries of the
  `InsertThroughput` calls of the range and one zero entry per probabilities document of the
  range;
* `getLatestProbabilities_runWrites` — when the last call is an `InsertProbabilitiesAndQPS`
  made after every other call and within the lookback, `GetLatestProbabilities` returns its
  probabilities;
* `getThroughput_reads_probabilities_document`, `getLatestProbabilities_after_throughput` — how
  each read departs from the writes, on a run of one and of two calls.
-/

namespace SamplingCall

variable {Thr Prob QPS : Type}

/-- The clock reading `time.Now()` gave the call. -/
def ts : SamplingCall Thr Prob QPS → Int
  | .insertThroughput ts _ => ts
  | .insertProbabilitiesAndQPS ts _ _ => ts

/-- The documents the call writes. -/
def documents : SamplingCall Thr Prob QPS → List (SamplingDoc Thr Prob QPS)
  | .insertThroughput ts throughput => throughput.map fun x => .ofTimeThroughput ⟨ts, x⟩
  | .insertProbabilitiesAndQPS ts probabilities qps =>
    [.ofTimeProbabilitiesAndQPS ⟨ts, ⟨probabilities, qps⟩⟩]

/-- What a read of throughputs finds in the call's documents: its entries, or one zero entry
for the probabilities document, which has no `throughput` key. -/
def throughputsRead [Inhabited Thr] : SamplingCall Thr Prob QPS → List Thr
  | .insertThroughput _ throughput => throughput
  | .insertProbabilitiesAndQPS .. => [default]

/-- Every document of a call carries the call's clock reading. -/
theorem timestamp_of_mem_documents {call : SamplingCall Thr Prob QPS}
    {d : SamplingDoc Thr Prob QPS} (hd : d ∈ call.documents) : d.timestamp = some call.ts := by
  cases call with
  | insertThroughput ts throughput =>
    obtain ⟨x, -, rfl⟩ := List.mem_map.1 hd
    rfl
  | insertProbabilitiesAndQPS ts probabilities qps =>
    rw [List.mem_singleton.1 hd]
    rfl

@[simp] theorem documents_map_throughput [Inhabited Thr] (call : SamplingCall Thr Prob QPS) :
    call.documents.map (·.toTimeThroughput.throughput) = call.throughputsRead := by
  cases call <;> simp [documents, throughputsRead, Function.comp_def]

end SamplingCall

section Newest

variable {Thr Prob QPS : Type} [Inhabited Prob] [Inhabited QPS]

/-- The selection over hits that are documents of a run ending in an `InsertProbabilitiesAndQPS`
made after every other call, and that hold that call's document, returns its probabilities. -/
theorem latestProbabilitiesOf_newest_call {calls : List (SamplingCall Thr Prob QPS)} {ts : Int}
    {probabilities : Prob} {qps : QPS} (hafter : ∀ call ∈ calls, call.ts < ts)
    (hzero : zeroTime < ts) {hits : List (SamplingDoc Thr Prob QPS)}
    (hlast : SamplingDoc.ofTimeProbabilitiesAndQPS ⟨ts, ⟨probabilities, qps⟩⟩ ∈ hits)
    (hfrom : ∀ e ∈ hits, ∃ call ∈ calls ++ [.insertProbabilitiesAndQPS ts probabilities qps],
      e ∈ call.documents) :
    latestProbabilitiesOf (hits.map .ok) = .ok probabilities :=
  latestProbabilitiesOf_of_newest hlast hzero fun e he hne => by
    obtain ⟨call, hcall, hd⟩ := hfrom e he
    rcases List.mem_append.1 hcall with hpre | hcall
    · simpa [SamplingDoc.toTimeProbabilitiesAndQPS, SamplingCall.timestamp_of_mem_documents hd]
        using hafter call hpre
    · rw [List.mem_singleton.1 hcall] at hd
      exact absurd (List.mem_singleton.1 hd) hne

/-- The selection over hits that are documents of a run ending in an `InsertThroughput` made
after every other call, and that hold one of its documents, returns the zero value: the newest
hits are that call's throughput documents, whose missing `probabilitiesAndQPS` key decodes as
empty. -/
theorem latestProbabilitiesOf_newest_throughput {calls : List (SamplingCall Thr Prob QPS)}
    {ts : Int} {throughput : List Thr} (hafter : ∀ call ∈ calls, call.ts < ts)
    (hzero : zeroTime < ts) {hits : List (SamplingDoc Thr Prob QPS)} {x : Thr}
    (hlast : SamplingDoc.ofTimeThroughput ⟨ts, x⟩ ∈ hits)
    (hfrom : ∀ e ∈ hits, ∃ call ∈ calls ++ [.insertThroughput ts throughput], e ∈ call.documents) :
    latestProbabilitiesOf (hits.map .ok) = .ok default := by
  have hlen : (hits.map .ok : List (Except String _)).length ≠ 0 := by
    simpa using List.ne_nil_of_mem hlast
  rcases selectLatest_ok hits zeroTime ⟨zeroTime, default⟩ with
    ⟨-, hall⟩ | ⟨i, hi, hrun, -, hmax, -⟩
  · exact absurd (hall _ hlast) (by simpa using hzero)
  · -- the selected hit is no older than the last call's document, so it is one of that call's
    obtain ⟨k, hk, hkx⟩ := List.getElem_of_mem hlast
    have hge := hmax k hk
    rw [hkx, SamplingDoc.ofTimeThroughput_toTimeProbabilitiesAndQPS] at hge
    obtain ⟨call, hcall, hd⟩ := hfrom _ (List.getElem_mem hi)
    rcases List.mem_append.1 hcall with hpre | hcall
    · have := hafter call hpre
      simp only [SamplingDoc.toTimeProbabilitiesAndQPS,
        SamplingCall.timestamp_of_mem_documents hd, Option.getD_some] at hge
      omega
    · rw [List.mem_singleton.1 hcall] at hd
      obtain ⟨y, -, hy⟩ := List.mem_map.1 hd
      rw [latestProbabilitiesOf, if_neg hlen, hrun, ← hy]
      rfl

end Newest

/-- The configurations the reads are followed through for: a data stream, or dated indices
whose layout names periods of length `P` exactly, with the rollover frequency `-P`. -/
def SamplingStore.ReadsByPeriod (s : SamplingStore) : Prop :=
  s.useDataStream = true ∨
    ∃ P, 0 < P ∧ NamesPeriods s.indexDateLayout.format P ∧ s.indexRolloverFrequency = -P

namespace SamplingStore

variable {s : SamplingStore} {Thr Prob QPS : Type}

/-! ### The cluster after a run -/

/-- The target and body of each request of a call: its documents, into its write index. -/
theorem requests_entries (s : SamplingStore) (version : Nat) (call : SamplingCall Thr Prob QPS) :
    (s.requests version call).map (fun r => (r.index, r.body)) =
      call.documents.map (s.getWriteIndex call.ts, ·) := by
  cases call <;> simp [requests, insertThroughput, insertProbabilitiesAndQPS,
    writeProbabilitiesAndQPS, SamplingCall.documents, SamplingCall.ts]

/-- The bulk processor, fed the requests of the calls one after the other from any cluster,
appends their documents, in order, each in the write index of its call's clock reading. -/
theorem foldl_bulk_docs (s : SamplingStore) (version : Nat)
    (calls : List (SamplingCall Thr Prob QPS)) (c : Cluster (SamplingDoc Thr Prob QPS)) :
    (calls.foldl (fun c call => c.bulk (s.requests version call)) c).docs =
      c.docs ++ calls.flatMap fun call => call.documents.map (s.getWriteIndex call.ts, ·) := by
  induction calls generalizing c with
  | nil => simp
  | cons call calls ih => simp [ih, requests_entries]

/-- The cluster after a run holds the documents of its calls, in order, each in the write index
of its call's clock reading. -/
theorem runWrites_docs (s : SamplingStore) (version : Nat)
    (calls : List (SamplingCall Thr Prob QPS)) :
    (s.runWrites version calls).docs =
      calls.flatMap fun call => call.documents.map (s.getWriteIndex call.ts, ·) := by
  simpa [runWrites, Cluster.empty] using foldl_bulk_docs s version calls .empty

/-- After a run, the targets that exist are those written to. -/
theorem runWrites_written (s : SamplingStore) (version : Nat)
    (calls : List (SamplingCall Thr Prob QPS)) : (s.runWrites version calls).Written := by
  suffices h : ∀ c : Cluster (SamplingDoc Thr Prob QPS), c.Written →
      (calls.foldl (fun c call => c.bulk (s.requests version call)) c).Written from
    h _ Cluster.empty_written
  induction calls with
  | nil => exact fun _ hc => hc
  | cons call calls ih => exact fun c hc => ih _ (hc.bulk _)

/-- The documents of a run, each of a call of the run. -/
theorem mem_runWrites_docs {version : Nat} {calls : List (SamplingCall Thr Prob QPS)}
    {name : String} {d : SamplingDoc Thr Prob QPS} :
    (name, d) ∈ (s.runWrites version calls).docs ↔
      ∃ call ∈ calls, d ∈ call.documents ∧ name = s.getWriteIndex call.ts := by
  simp only [runWrites_docs, List.mem_flatMap, List.mem_map, Prod.mk.injEq]
  constructor
  · rintro ⟨call, hcall, d', hd', rfl, rfl⟩
    exact ⟨call, hcall, hd', rfl⟩
  · rintro ⟨call, hcall, hd, rfl⟩
    exact ⟨call, hcall, d, hd, rfl, rfl⟩

/-- A range search whose targets match the write index of every instant of `[start, end]` sees
exactly the documents of the calls made inside the range, in write order. -/
theorem visible_runWrites (s : SamplingStore) (version : Nat)
    (calls : List (SamplingCall Thr Prob QPS)) {targets : List String} (size : Nat)
    {start end_ : Int}
    (hcover : ∀ t, start ≤ t → t ≤ end_ →
      targets.any (matchesTarget · (s.getWriteIndex t)) = true) :
    (s.runWrites version calls).visible SamplingDoc.fieldOf
        ⟨targets, size, some (buildTSQuery start end_)⟩ =
      (calls.filter fun call => start ≤ call.ts ∧ call.ts ≤ end_).flatMap
        SamplingCall.documents := by
  rw [Cluster.visible, runWrites_docs]
  induction calls with
  | nil => rfl
  | cons call calls ih =>
    rw [List.flatMap_cons, List.filter_append, List.map_append, ih, List.filter_map,
      List.map_map, List.filter_cons]
    -- the documents of `call` are seen exactly when its clock reading is in range
    by_cases h : start ≤ call.ts ∧ call.ts ≤ end_
    · rw [List.filter_eq_self.2 fun d hd => by
        simp [hcover _ h.1 h.2, RangeQuery.holds, buildTSQuery, SamplingDoc.fieldOf,
          SamplingCall.timestamp_of_mem_documents hd, h]]
      simp [h]
    · rw [List.filter_eq_nil_iff.2 fun d hd => by
        simpa [RangeQuery.holds, buildTSQuery, SamplingDoc.fieldOf,
          SamplingCall.timestamp_of_mem_documents hd] using fun _ _ _ => h]
      simp [h]

/-- The documents of calls that a range query on `[start, end]` accepts: those of the calls
made inside the range, in order. -/
theorem filter_documents_range (calls : List (SamplingCall Thr Prob QPS)) (start end_ : Int) :
    (calls.flatMap SamplingCall.documents).filter
        (fun d => (buildTSQuery start end_).holds SamplingDoc.fieldOf d) =
      (calls.filter fun call => start ≤ call.ts ∧ call.ts ≤ end_).flatMap
        SamplingCall.documents := by
  induction calls with
  | nil => rfl
  | cons call calls ih =>
    rw [List.flatMap_cons, List.filter_append, ih, List.filter_cons]
    by_cases h : start ≤ call.ts ∧ call.ts ≤ end_
    · rw [List.filter_eq_self.2 fun d hd => by
        simp [RangeQuery.holds, buildTSQuery, SamplingDoc.fieldOf,
          SamplingCall.timestamp_of_mem_documents hd, h]]
      simp [h]
    · rw [List.filter_eq_nil_iff.2 fun d hd => by
        simpa [RangeQuery.holds, buildTSQuery, SamplingDoc.fieldOf,
          SamplingCall.timestamp_of_mem_documents hd] using h]
      simp [h]

/-! ### `GetThroughput` after a run -/

/-- In a configuration read by period, the read plan of `[start, end]` is built in finite time
and holds, for every instant of the range, a pattern matching the index written then. -/
theorem getReadIndices_covers (hs : s.ReadsByPeriod) {start end_ : Int} (hle : start ≤ end_) :
    ∃ fuel targets, s.getReadIndices fuel start end_ = some targets ∧
      ∀ t, start ≤ t → t ≤ end_ →
        targets.any (matchesTarget · (s.getWriteIndex t)) = true := by
  cases hds : s.useDataStream
  · -- dated indices: the plan names the period of every instant of the range
    obtain ⟨P, hP, hL, hr⟩ := hs.resolve_left (by simp [hds])
    obtain ⟨plan, hrun, hplan⟩ :=
      readWalk_periodPlan hP (hL.indexWithDate s.samplingIndexPrefix) hle
    rw [getWriteIndex_dated hds]
    exact ⟨_, plan, by simpa [getReadIndices, hds, hr] using hrun, fun t => hplan.covers⟩
  · -- a data stream: every write goes to the stream, the plan's first target
    exact ⟨0, [s.samplingIndexPrefix, getDataStreamLegacyWildcard s.samplingIndexPrefix],
      by simp [getReadIndices, hds], fun t _ _ => by simp [getWriteIndex, hds]⟩

/-- **`GetThroughput` after a run.** For a data stream, or dated indices walked back one period
per step, every run of writes, every range `start ≤ end` whose documents fit in `maxDocCount`
and every client serving the cluster: `GetThroughput` terminates and returns, up to order, the
entries of the `InsertThroughput` calls of the range, and one zero entry for each
`InsertProbabilitiesAndQPS` call of the range. -/
theorem getThroughput_runWrites [Inhabited Thr] (s : SamplingStore) (hs : s.ReadsByPeriod)
    (version : Nat) (calls : List (SamplingCall Thr Prob QPS)) {start end_ : Int}
    (hle : start ≤ end_) (client : Client (SamplingDoc Thr Prob QPS))
    (hserves : client.Serves (s.runWrites version calls) SamplingDoc.fieldOf)
    (hsize : ((calls.filter fun call => start ≤ call.ts ∧ call.ts ≤ end_).flatMap
      SamplingCall.documents).length ≤ s.maxDocCount) :
    ∃ fuel thrs, s.getThroughput client fuel start end_ = some (.ok thrs) ∧
      thrs.Perm ((calls.filter fun call => start ≤ call.ts ∧ call.ts ≤ end_).flatMap
        SamplingCall.throughputsRead) := by
  obtain ⟨fuel, targets, hplan, hcover⟩ := getReadIndices_covers hs hle
  obtain ⟨hits, hsearch, hresp⟩ :=
    hserves.2 ⟨targets, s.maxDocCount, some (buildTSQuery start end_)⟩
  have hvis := visible_runWrites s version calls s.maxDocCount hcover
  have hperm := hresp.perm (by rw [hvis]; exact hsize)
  refine ⟨fuel, _, getThroughput_of_search s hplan hsearch, ?_⟩
  rw [hvis] at hperm
  simpa [List.map_flatMap] using hperm.map (·.toTimeThroughput.throughput)

/-! ### `GetLatestProbabilities` after a run -/

/-- After a run, the write index of an instant exists exactly when a call of the run wrote a
document to it. -/
theorem runWrites_indexExists (s : SamplingStore) (version : Nat)
    (calls : List (SamplingCall Thr Prob QPS)) (name : String) :
    (s.runWrites version calls).indexExists name = true ↔
      ∃ call ∈ calls, call.documents ≠ [] ∧ name = s.getWriteIndex call.ts := by
  rw [Cluster.indexExists, decide_eq_true_iff, runWrites_written s version calls name]
  constructor
  · rintro ⟨d, hd⟩
    obtain ⟨call, hcall, hdoc, rfl⟩ := mem_runWrites_docs.1 hd
    exact ⟨call, hcall, List.ne_nil_of_mem hdoc, rfl⟩
  · rintro ⟨call, hcall, hne, rfl⟩
    obtain ⟨d, hd⟩ := List.exists_mem_of_ne_nil _ hne
    exact ⟨d, mem_runWrites_docs.2 ⟨call, hcall, hd, rfl⟩⟩

/-- In a configuration read by period, after a run whose call `last` wrote a document and is
not before any other call, the locator at an instant `now` no earlier than `last` and within
the lookback of it terminates on targets matching the write index of `last`. -/
theorem getLatestIndices_locates_newest (hs : s.ReadsByPeriod) (version : Nat)
    {calls : List (SamplingCall Thr Prob QPS)} {last : SamplingCall Thr Prob QPS}
    (hlast : last ∈ calls) (hwrites : last.documents ≠ [])
    (hafter : ∀ call ∈ calls, call.ts ≤ last.ts) {now : Int} (hnow : last.ts ≤ now)
    (hwithin : now - s.lookback ≤ last.ts) {client : Client (SamplingDoc Thr Prob QPS)}
    (hexists : ∀ name, client.indexExists name = .ok ((s.runWrites version calls).indexExists name)) :
    ∃ fuel scan targets, s.getLatestIndices client.indexExists fuel now = some scan ∧
      scan.result = .ok targets ∧ targets.any (matchesTarget · (s.getWriteIndex last.ts)) = true := by
  cases hds : s.useDataStream
  · -- dated indices: the newest existing period of the window is that of `last`
    obtain ⟨P, hP, hL, hr⟩ := hs.resolve_left (by simp [hds])
    set ex := (s.runWrites version calls).indexExists
    obtain ⟨scan, hrun, hscan⟩ := latestWalk_latestScan hP (hL.indexWithDate s.samplingIndexPrefix)
      ex (show now - s.lookback ≤ now by omega)
    have hloc : s.getLatestIndices client.indexExists
        ((now / P - (now - s.lookback) / P).toNat + 1) now = some scan := by
      rw [funext hexists]
      simpa [getLatestIndices, hds, hr] using hrun
    have hname := hL.indexWithDate s.samplingIndexPrefix
    rw [← getWriteIndex_dated hds] at hname hscan
    have hlast_ex : ex (s.getWriteIndex (last.ts / P * P)) = true :=
      (runWrites_indexExists s version calls _).2
        ⟨last, hlast, hwrites, (name_eq_period hP hname _).symm⟩
    have hlo : (now - s.lookback) / P ≤ last.ts / P := Int.ediv_le_ediv hP hwithin
    have hhi : last.ts / P ≤ now / P := Int.ediv_le_ediv hP hnow
    rcases hscan.result_eq with ⟨b, -, -, hexb, hmax, -, hres⟩ | ⟨hnone, -⟩
    · -- the period found is that of `last`: no call is later, and none above it exists
      have hb : b = last.ts / P := by
        obtain ⟨call, hcall, -, hcallname⟩ := (runWrites_indexExists s version calls _).1 hexb
        have hbcall : b = call.ts / P := by
          simpa [Int.mul_ediv_cancel _ hP.ne'] using (hname _ _).1 hcallname
        have hle := Int.ediv_le_ediv hP (hafter call hcall)
        rcases lt_or_eq_of_le (show b ≤ last.ts / P by omega) with hlt | heq
        · exact absurd hlast_ex (by rw [hmax _ hlt hhi]; decide)
        · exact heq
      refine ⟨_, scan, _, hloc, hres, ?_⟩
      rw [hb, ← name_eq_period hP hname]
      simp
    · exact absurd hlast_ex (by rw [hnone _ hlo hhi]; decide)
  · -- a data stream: the located targets are the stream and its legacy wildcard
    exact ⟨0,
      ⟨[], .ok [s.samplingIndexPrefix, getDataStreamLegacyWildcard s.samplingIndexPrefix]⟩,
      _, by simp [getLatestIndices, hds], rfl, by simp [getWriteIndex, hds]⟩

/-- A search with no query, one of whose targets matches the write index of a call `last` of
the run, when the run's documents fit in `maxDocCount`: its hits hold every document of `last`,
and each of them is a document of a call of the run. -/
theorem search_hits_run (s : SamplingStore) (version : Nat)
    {calls : List (SamplingCall Thr Prob QPS)} {client : Client (SamplingDoc Thr Prob QPS)}
    (hserves : client.Serves (s.runWrites version calls) SamplingDoc.fieldOf)
    (hsize : (calls.flatMap SamplingCall.documents).length ≤ s.maxDocCount)
    {last : SamplingCall Thr Prob QPS} (hlast : last ∈ calls) {targets : List String}
    (htarget : targets.any (matchesTarget · (s.getWriteIndex last.ts)) = true) :
    ∃ hits : List (SamplingDoc Thr Prob QPS),
      client.search ⟨targets, s.maxDocCount, none⟩ = .ok (hits.map .ok) ∧
      (∀ d ∈ last.documents, d ∈ hits) ∧ ∀ e ∈ hits, ∃ call ∈ calls, e ∈ call.documents := by
  obtain ⟨hits, hsearch, hresp⟩ := hserves.2 ⟨targets, s.maxDocCount, none⟩
  have hsub := Cluster.visible_sublist (s.runWrites version calls) SamplingDoc.fieldOf
    ⟨targets, s.maxDocCount, none⟩
  have hperm := hresp.perm (hsub.length_le.trans (by simpa [runWrites_docs, List.map_flatMap,
    Function.comp_def] using hsize))
  refine ⟨hits, hsearch, fun d hd => hperm.mem_iff.2 (Cluster.mem_visible
    (mem_runWrites_docs.2 ⟨last, hlast, hd, rfl⟩) htarget rfl), fun e he => ?_⟩
  obtain ⟨⟨name, e⟩, hmem, rfl⟩ := List.mem_map.1 (hsub.subset (hperm.mem_iff.1 he))
  obtain ⟨call, hcall, hd, -⟩ := mem_runWrites_docs.1 hmem
  exact ⟨call, hcall, hd⟩

/-- A search with no query, one of whose targets matches the write index of the run's last
call, answers with hits from which the selection loop picks that call's probabilities, when
the last call is an `InsertProbabilitiesAndQPS` after every other call and the run's documents
fit in `maxDocCount`. -/
theorem search_selects_newest [Inhabited Prob] [Inhabited QPS] (s : SamplingStore)
    (version : Nat) {pre : List (SamplingCall Thr Prob QPS)} {ts : Int} {probabilities : Prob}
    {qps : QPS} (hafter : ∀ call ∈ pre, call.ts < ts) (hzero : zeroTime < ts)
    {client : Client (SamplingDoc Thr Prob QPS)}
    (hserves : client.Serves (s.runWrites version
      (pre ++ [.insertProbabilitiesAndQPS ts probabilities qps])) SamplingDoc.fieldOf)
    (hsize : ((pre ++ [SamplingCall.insertProbabilitiesAndQPS ts probabilities qps]).flatMap
      SamplingCall.documents).length ≤ s.maxDocCount)
    {targets : List String} (htarget : targets.any (matchesTarget · (s.getWriteIndex ts)) = true) :
    ∃ hits, client.search ⟨targets, s.maxDocCount, none⟩ = .ok hits ∧
      latestProbabilitiesOf hits = .ok probabilities := by
  obtain ⟨hits, hsearch, hlast, hfrom⟩ := search_hits_run s version hserves hsize
    (List.mem_append_right _ (List.mem_singleton_self _)) htarget
  exact ⟨_, hsearch,
    latestProbabilitiesOf_newest_call hafter hzero (hlast _ (List.mem_singleton_self _)) hfrom⟩

/-- **`GetLatestProbabilities` after a run.** For a data stream, or dated indices walked back
one period per step: after a run ending in an `InsertProbabilitiesAndQPS` call made after every
other call, at an instant after the zero `time.Time`, and whose documents fit in `maxDocCount`,
every client serving the cluster makes `GetLatestProbabilities` at any `now` from that instant
to the lookback after it terminate with that call's probabilities. -/
theorem getLatestProbabilities_runWrites [Inhabited Prob] [Inhabited QPS] (s : SamplingStore)
    (hs : s.ReadsByPeriod) (version : Nat) (pre : List (SamplingCall Thr Prob QPS)) (ts : Int)
    (probabilities : Prob) (qps : QPS) (hafter : ∀ call ∈ pre, call.ts < ts)
    (hzero : zeroTime < ts) (now : Int) (hnow : ts ≤ now) (hwithin : now - s.lookback ≤ ts)
    (client : Client (SamplingDoc Thr Prob QPS))
    (hserves : client.Serves (s.runWrites version
      (pre ++ [.insertProbabilitiesAndQPS ts probabilities qps])) SamplingDoc.fieldOf)
    (hsize : ((pre ++ [SamplingCall.insertProbabilitiesAndQPS ts probabilities qps]).flatMap
      SamplingCall.documents).length ≤ s.maxDocCount) :
    ∃ fuel, s.getLatestProbabilities client fuel now = some (.ok probabilities) := by
  have hlast : SamplingCall.insertProbabilitiesAndQPS ts probabilities qps ∈
      pre ++ [SamplingCall.insertProbabilitiesAndQPS ts probabilities qps] := by simp
  obtain ⟨fuel, scan, targets, hscan, hres, htarget⟩ := getLatestIndices_locates_newest hs version
    hlast (List.cons_ne_nil _ _)
    (fun call hcall => (List.mem_append.1 hcall).elim (fun h => (hafter call h).le)
      fun h => (List.mem_singleton.1 h) ▸ le_rfl) hnow hwithin hserves.1
  obtain ⟨hits, hsearch, hsel⟩ := search_selects_newest s version hafter hzero hserves hsize htarget
  exact ⟨fuel, by rw [getLatestProbabilities_of_search s hscan hres hsearch, hsel]⟩

/-! ### Where the reads depart from the writes -/

theorem dailySamplingStore_readsByPeriod : dailySamplingStore.ReadsByPeriod :=
  Or.inr ⟨_, by decide, DateLayout.periodTally_namesPeriods _, rfl⟩

/-- A run on the daily store: throughputs at 1 and at 9, probabilities at 2. -/
def dailyCalls : List (SamplingCall Nat (List Nat) Nat) :=
  [.insertThroughput 1 [5, 6], .insertProbabilitiesAndQPS 2 [7] 0, .insertThroughput 9 [8]]

theorem getThroughput_runWrites_daily :
    dailySamplingStore.ReadsByPeriod ∧ (0 : Int) ≤ 4 ∧
      ((dailySamplingStore.runWrites 8 dailyCalls).client SamplingDoc.fieldOf).Serves
        (dailySamplingStore.runWrites 8 dailyCalls) SamplingDoc.fieldOf ∧
      ((dailyCalls.filter fun call => 0 ≤ call.ts ∧ call.ts ≤ 4).flatMap
        SamplingCall.documents).length ≤ dailySamplingStore.maxDocCount ∧
      ∃ fuel thrs, dailySamplingStore.getThroughput
          ((dailySamplingStore.runWrites 8 dailyCalls).client SamplingDoc.fieldOf) fuel 0 4 =
          some (.ok thrs) ∧
        thrs.Perm ((dailyCalls.filter fun call => 0 ≤ call.ts ∧ call.ts ≤ 4).flatMap
          SamplingCall.throughputsRead) :=
  ⟨dailySamplingStore_readsByPeriod, by decide, Cluster.client_serves _ _, by decide,
    getThroughput_runWrites _ dailySamplingStore_readsByPeriod 8 _ (by decide) _
      (Cluster.client_serves _ _) (by decide)⟩

theorem getLatestProbabilities_runWrites_daily :
    dailySamplingStore.ReadsByPeriod ∧
      (∀ call ∈ ([.insertThroughput 1 [5, 6]] : List (SamplingCall Nat (List Nat) Nat)),
        call.ts < 2) ∧ zeroTime < 2 ∧ (2 : Int) ≤ 3 ∧ 3 - dailySamplingStore.lookback ≤ 2 ∧
      ((dailySamplingStore.runWrites 8 ([.insertThroughput 1 [5, 6]] ++
          [.insertProbabilitiesAndQPS 2 [7] 0] : List (SamplingCall Nat (List Nat) Nat))).client
          SamplingDoc.fieldOf).Serves
        (dailySamplingStore.runWrites 8 ([.insertThroughput 1 [5, 6]] ++
          [.insertProbabilitiesAndQPS 2 [7] 0])) SamplingDoc.fieldOf ∧
      (([.insertThroughput 1 [5, 6]] ++ [.insertProbabilitiesAndQPS 2 [7] 0] :
        List (SamplingCall Nat (List Nat) Nat)).flatMap SamplingCall.documents).length ≤
          dailySamplingStore.maxDocCount ∧
      ∃ fuel, dailySamplingStore.getLatestProbabilities ((dailySamplingStore.runWrites 8
        ([.insertThroughput 1 [5, 6]] ++ [.insertProbabilitiesAndQPS 2 [7] 0] :
          List (SamplingCall Nat (List Nat) Nat))).client SamplingDoc.fieldOf) fuel 3 =
        some (.ok [7]) :=
  ⟨dailySamplingStore_readsByPeriod, by decide, by decide, by decide, by decide,
    Cluster.client_serves _ _, by decide,
    getLatestProbabilities_runWrites _ dailySamplingStore_readsByPeriod 8 [.insertThroughput 1 [5, 6]]
      2 [7] 0 (by decide) (by decide) 3 (by decide) (by decide) _ (Cluster.client_serves _ _)
      (by decide)⟩

/-- **A probabilities document read as a throughput.** On the daily store, after a single
`InsertProbabilitiesAndQPS` at 1 and no `InsertThroughput`, every client serving the cluster
makes `GetThroughput` over `[0, 2]` hand one zero throughput to `dbmodel.ToThroughputs`, where
none was written: the range query does not tell the two kinds of document apart. -/
theorem getThroughput_reads_probabilities_document
    (client : Client (SamplingDoc Nat (List Nat) Nat))
    (hserves : client.Serves (dailySamplingStore.runWrites 8 [.insertProbabilitiesAndQPS 1 [7] 5])
      SamplingDoc.fieldOf) :
    dailySamplingStore.getThroughput client 1 0 2 = some (.ok [0]) := by
  obtain ⟨hits, hsearch, hresp⟩ :=
    hserves.2 ⟨["jaeger-sampling-"], 100, some ⟨"timestamp", 0, 2⟩⟩
  have hhits : hits = [.ofTimeProbabilitiesAndQPS ⟨1, ⟨[7], 5⟩⟩] :=
    List.perm_singleton.1 (hresp.perm (by decide))
  rw [getThroughput_of_search _ (by decide) hsearch, hhits]
  rfl

theorem getThroughput_reads_probabilities_document_writeOrder :
    ((dailySamplingStore.runWrites 8 ([.insertProbabilitiesAndQPS 1 [7] 5] :
        List (SamplingCall Nat (List Nat) Nat))).client SamplingDoc.fieldOf).Serves
      (dailySamplingStore.runWrites 8 [.insertProbabilitiesAndQPS 1 [7] 5]) SamplingDoc.fieldOf ∧
    dailySamplingStore.getThroughput ((dailySamplingStore.runWrites 8
      [.insertProbabilitiesAndQPS 1 [7] 5]).client SamplingDoc.fieldOf) 1 0 2 = some (.ok [0]) :=
  ⟨Cluster.client_serves _ _,
    getThroughput_reads_probabilities_document _ (Cluster.client_serves _ _)⟩

/-- **A throughput document hides the latest probabilities.** On the daily store, after
`InsertProbabilitiesAndQPS` at 1 with probabilities `[7]` and `InsertThroughput` at 2, every
client serving the cluster makes `GetLatestProbabilities` at 3 return the zero value: the newest
document of the located index is the throughput document, whose missing `probabilitiesAndQPS`
key decodes as empty. -/
theorem getLatestProbabilities_after_throughput
    (client : Client (SamplingDoc Nat (List Nat) Nat))
    (hserves : client.Serves (dailySamplingStore.runWrites 8
      [.insertProbabilitiesAndQPS 1 [7] 5, .insertThroughput 2 [4]]) SamplingDoc.fieldOf) :
    dailySamplingStore.getLatestProbabilities client 1 3 = some (.ok []) := by
  have hscan : dailySamplingStore.getLatestIndices client.indexExists 1 3 =
      some ⟨["jaeger-sampling-"], .ok ["jaeger-sampling-"]⟩ := by
    rw [funext hserves.1]; rfl
  obtain ⟨hits, hsearch, hresp⟩ := hserves.2 ⟨["jaeger-sampling-"], 100, none⟩
  have hperm := hresp.perm (by decide)
  rw [getLatestProbabilities_of_search _ hscan rfl hsearch]
  -- the throughput document written at 2 is the newest, whatever order the hits come in
  have hnewest : ∀ e ∈ hits, e ≠ .ofTimeThroughput ⟨2, 4⟩ →
      e.toTimeProbabilitiesAndQPS.timestamp < 2 := fun e he =>
    (show ∀ d : SamplingDoc Nat (List Nat) Nat, d ∈ _ → d ≠ .ofTimeThroughput ⟨2, 4⟩ →
      d.toTimeProbabilitiesAndQPS.timestamp < 2 from by decide) e (hperm.mem_iff.1 he)
  exact congrArg some (latestProbabilitiesOf_of_newest (hperm.mem_iff.2 (by decide)) (by decide)
    hnewest)

theorem getLatestProbabilities_after_throughput_writeOrder :
    ((dailySamplingStore.runWrites 8 ([.insertProbabilitiesAndQPS 1 [7] 5,
        .insertThroughput 2 [4]] : List (SamplingCall Nat (List Nat) Nat))).client
          SamplingDoc.fieldOf).Serves
      (dailySamplingStore.runWrites 8 [.insertProbabilitiesAndQPS 1 [7] 5, .insertThroughput 2 [4]])
      SamplingDoc.fieldOf ∧
    dailySamplingStore.getLatestProbabilities ((dailySamplingStore.runWrites 8
      [.insertProbabilitiesAndQPS 1 [7] 5, .insertThroughput 2 [4]]).client SamplingDoc.fieldOf)
      1 3 = some (.ok []) :=
  ⟨Cluster.client_serves _ _, getLatestProbabilities_after_throughput _ (Cluster.client_serves _ _)⟩

/-- **Any throughput write hides the probabilities.** For a data stream, or dated indices walked
back one period per step: after a run ending in an `InsertThroughput` with at least one entry,
made after every other call at an instant after the zero `time.Time`, and whose documents fit
in `maxDocCount`, every client serving the cluster makes `GetLatestProbabilities` at any `now`
from that instant to the lookback after it return the zero value, whatever probabilities were
written before. Both kinds of document share the write index, and the selection takes the
newest document of either kind. -/
theorem getLatestProbabilities_after_any_throughput [Inhabited Prob] [Inhabited QPS]
    (s : SamplingStore) (hs : s.ReadsByPeriod) (version : Nat)
    (pre : List (SamplingCall Thr Prob QPS)) (ts : Int) (throughput : List Thr)
    (hne : throughput ≠ []) (hafter : ∀ call ∈ pre, call.ts < ts) (hzero : zeroTime < ts)
    (now : Int) (hnow : ts ≤ now) (hwithin : now - s.lookback ≤ ts)
    (client : Client (SamplingDoc Thr Prob QPS))
    (hserves : client.Serves (s.runWrites version (pre ++ [.insertThroughput ts throughput]))
      SamplingDoc.fieldOf)
    (hsize : ((pre ++ [SamplingCall.insertThroughput ts throughput]).flatMap
      SamplingCall.documents).length ≤ s.maxDocCount) :
    ∃ fuel, s.getLatestProbabilities client fuel now = some (.ok default) := by
  have hlast : SamplingCall.insertThroughput ts throughput ∈
      pre ++ [SamplingCall.insertThroughput ts throughput] := by simp
  obtain ⟨fuel, scan, targets, hscan, hres, htarget⟩ := getLatestIndices_locates_newest hs version
    hlast (by simpa [SamplingCall.documents] using hne)
    (fun call hcall => (List.mem_append.1 hcall).elim (fun h => (hafter call h).le)
      fun h => (List.mem_singleton.1 h) ▸ le_rfl) hnow hwithin hserves.1
  obtain ⟨hits, hsearch, hdocs, hfrom⟩ := search_hits_run s version hserves hsize hlast htarget
  obtain ⟨x, hx⟩ := List.exists_mem_of_ne_nil _ hne
  exact ⟨fuel, by rw [getLatestProbabilities_of_search s hscan hres hsearch,
    latestProbabilitiesOf_newest_throughput hafter hzero (hdocs _ (List.mem_map_of_mem _ hx))
      hfrom]⟩

theorem getLatestProbabilities_after_any_throughput_daily :
    dailySamplingStore.ReadsByPeriod ∧ ([4] : List Nat) ≠ [] ∧
      (∀ call ∈ ([.insertProbabilitiesAndQPS 1 [7] 5] : List (SamplingCall Nat (List Nat) Nat)),
        call.ts < 2) ∧ zeroTime < 2 ∧ (2 : Int) ≤ 3 ∧ 3 - dailySamplingStore.lookback ≤ 2 ∧
      ((dailySamplingStore.runWrites 8 ([.insertProbabilitiesAndQPS 1 [7] 5] ++
          [.insertThroughput 2 [4]] : List (SamplingCall Nat (List Nat) Nat))).client
          SamplingDoc.fieldOf).Serves
        (dailySamplingStore.runWrites 8 ([.insertProbabilitiesAndQPS 1 [7] 5] ++
          [.insertThroughput 2 [4]])) SamplingDoc.fieldOf ∧
      (([.insertProbabilitiesAndQPS 1 [7] 5] ++ [.insertThroughput 2 [4]] :
        List (SamplingCall Nat (List Nat) Nat)).flatMap SamplingCall.documents).length ≤
          dailySamplingStore.maxDocCount ∧
      ∃ fuel, dailySamplingStore.getLatestProbabilities ((dailySamplingStore.runWrites 8
        ([.insertProbabilitiesAndQPS 1 [7] 5] ++ [.insertThroughput 2 [4]] :
          List (SamplingCall Nat (List Nat) Nat))).client SamplingDoc.fieldOf) fuel 3 =
        some (.ok []) :=
  ⟨dailySamplingStore_readsByPeriod, by decide, by decide, by decide, by decide, by decide,
    Cluster.client_serves _ _, by decide,
    getLatestProbabilities_after_any_throughput _ dailySamplingStore_readsByPeriod 8
      [.insertProbabilitiesAndQPS 1 [7] 5] 2 [4] (by decide) (by decide) (by decide) 3
      (by decide) (by decide) _ (Cluster.client_serves _ _) (by decide)⟩

end SamplingStore

end JaegerEsIndex
