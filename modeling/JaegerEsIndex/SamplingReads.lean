import JaegerEsIndex.Cluster
import JaegerEsIndex.SamplingStore

namespace JaegerEsIndex

/-!
# The sampling store — documents, writes and reads

The document half of `samplingstore.SamplingStore`. `InsertThroughput` and
`InsertProbabilitiesAndQPS` hand documents of two kinds to the bulk processor, both into the
write index of the clock reading: one `dbmodel.TimeThroughput` per throughput entry, tagged
with the mapping type `throughput-sampling`, and one `dbmodel.TimeProbabilitiesAndQPS`, tagged
`probabilities-sampling`. `GetThroughput` and `GetLatestProbabilities` search their read plans
and decode every hit into the struct they expect; `json.Unmarshal` fills a key the document
lacks with its zero value.

The payload types (`dbmodel.Throughput`, the probabilities and QPS maps) are never looked
into by the store; they are type parameters, `default` standing for Go's zero value.

* `latestProbabilitiesOf_first_latest` — the selection loop of `GetLatestProbabilities` returns
  the probabilities of the first hit of greatest timestamp, or the first decoding error;
-/

/-- `throughputType`, the mapping type a throughput document is written under. -/
def throughputType : String := "throughput-sampling"

/-- `probabilitiesType`, the mapping type a probabilities document is written under. -/
def probabilitiesType : String := "probabilities-sampling"

/-- `time.Time{}`, January 1 of year 1, 00:00:00 UTC, in nanoseconds from the Unix epoch. -/
def zeroTime : Int := -62135596800000000000

/-- `dbmodel.ProbabilitiesAndQPS`. -/
structure ProbabilitiesAndQPS (Prob QPS : Type) where
  probabilities : Prob
  qps : QPS
  deriving DecidableEq

instance {Prob QPS : Type} [Inhabited Prob] [Inhabited QPS] :
    Inhabited (ProbabilitiesAndQPS Prob QPS) :=
  ⟨⟨default, default⟩⟩

/-- `dbmodel.TimeThroughput`. -/
structure TimeThroughput (Thr : Type) where
  timestamp : Int
  throughput : Thr

/-- `dbmodel.TimeProbabilitiesAndQPS`. -/
structure TimeProbabilitiesAndQPS (Prob QPS : Type) where
  timestamp : Int
  probabilitiesAndQPS : ProbabilitiesAndQPS Prob QPS

/-- A stored sampling document: the keys of the two kinds, each present or absent. -/
structure SamplingDoc (Thr Prob QPS : Type) where
  timestamp : Option Int
  throughput : Option Thr
  probabilitiesAndQPS : Option (ProbabilitiesAndQPS Prob QPS)
  deriving DecidableEq

section Documents

variable {Thr Prob QPS : Type}

namespace SamplingDoc

/-- The JSON `BodyJson` produces for a `dbmodel.TimeThroughput`. -/
def ofTimeThroughput (t : TimeThroughput Thr) : SamplingDoc Thr Prob QPS :=
  ⟨some t.timestamp, some t.throughput, none⟩

/-- The JSON `BodyJson` produces for a `dbmodel.TimeProbabilitiesAndQPS`. -/
def ofTimeProbabilitiesAndQPS (t : TimeProbabilitiesAndQPS Prob QPS) : SamplingDoc Thr Prob QPS :=
  ⟨some t.timestamp, none, some t.probabilitiesAndQPS⟩

/-- The only field a range query reads is `timestamp`. -/
def fieldOf (doc : SamplingDoc Thr Prob QPS) (field : String) : Option Int :=
  if field = "timestamp" then doc.timestamp else none

/-- `json.Unmarshal` into a `dbmodel.TimeThroughput`: a missing key decodes as its zero value. -/
def toTimeThroughput [Inhabited Thr] (doc : SamplingDoc Thr Prob QPS) : TimeThroughput Thr :=
  ⟨doc.timestamp.getD zeroTime, doc.throughput.getD default⟩

/-- `json.Unmarshal` into a `dbmodel.TimeProbabilitiesAndQPS`. -/
def toTimeProbabilitiesAndQPS [Inhabited Prob] [Inhabited QPS] (doc : SamplingDoc Thr Prob QPS) :
    TimeProbabilitiesAndQPS Prob QPS :=
  ⟨doc.timestamp.getD zeroTime, doc.probabilitiesAndQPS.getD default⟩

@[simp] theorem ofTimeThroughput_toTimeProbabilitiesAndQPS [Inhabited Prob] [Inhabited QPS]
    (t : TimeThroughput Thr) :
    (ofTimeThroughput t : SamplingDoc Thr Prob QPS).toTimeProbabilitiesAndQPS =
      ⟨t.timestamp, default⟩ := rfl

@[simp] theorem ofTimeProbabilitiesAndQPS_toTimeProbabilitiesAndQPS [Inhabited Prob]
    [Inhabited QPS] (t : TimeProbabilitiesAndQPS Prob QPS) :
    (ofTimeProbabilitiesAndQPS t : SamplingDoc Thr Prob QPS).toTimeProbabilitiesAndQPS = t := rfl

@[simp] theorem ofTimeThroughput_toTimeThroughput [Inhabited Thr] (t : TimeThroughput Thr) :
    (ofTimeThroughput t : SamplingDoc Thr Prob QPS).toTimeThroughput = t := rfl

@[simp] theorem ofTimeProbabilitiesAndQPS_toTimeThroughput [Inhabited Thr]
    (t : TimeProbabilitiesAndQPS Prob QPS) :
    (ofTimeProbabilitiesAndQPS t : SamplingDoc Thr Prob QPS).toTimeThroughput =
      ⟨t.timestamp, default⟩ := rfl

end SamplingDoc

end Documents

/-! ### The selection loop of `GetLatestProbabilities` -/

section Select

variable {Thr Prob QPS : Type} [Inhabited Prob] [Inhabited QPS]

/-- The `for _, hit := range searchResult.Hits.Hits` loop of `GetLatestProbabilities`, with its
two accumulators: a hit whose timestamp is after `latestTime` becomes the latest. -/
def selectLatest : List (Except String (SamplingDoc Thr Prob QPS)) → Int →
    TimeProbabilitiesAndQPS Prob QPS → Except String (TimeProbabilitiesAndQPS Prob QPS)
  | [], _, latestProbabilities => .ok latestProbabilities
  | .error err :: _, _, _ => .error ("unmarshalling documents failed: " ++ err)
  | .ok doc :: hits, latestTime, latestProbabilities =>
    if latestTime < doc.toTimeProbabilitiesAndQPS.timestamp then
      selectLatest hits doc.toTimeProbabilitiesAndQPS.timestamp doc.toTimeProbabilitiesAndQPS
    else selectLatest hits latestTime latestProbabilities

/-- What `GetLatestProbabilities` makes of its hits: `nil` for none, else the probabilities of
the latest one the loop selects, starting from the zero `time.Time`. -/
def latestProbabilitiesOf (hits : List (Except String (SamplingDoc Thr Prob QPS))) :
    Except String Prob :=
  if hits.length = 0 then .ok default
  else (selectLatest hits zeroTime ⟨zeroTime, default⟩).map (·.probabilitiesAndQPS.probabilities)

/-- The first element of greatest key stays so, one place on, when an element of smaller key is
put in front: the step the selection loop takes over a hit it passes. -/
theorem first_max_cons {α : Type} (key : α → Int) {xs : List α} {x : α} {i : Nat}
    (hi : i < xs.length) (hi' : i + 1 < (x :: xs).length) (hx : key x < key xs[i])
    (hmax : ∀ j (hj : j < xs.length), key xs[j] ≤ key xs[i])
    (hfirst : ∀ j (hj : j < i), key xs[j] < key xs[i]) :
    (∀ j (hj : j < (x :: xs).length), key (x :: xs)[j] ≤ key xs[i]) ∧
      ∀ j (hj : j < i + 1), key (x :: xs)[j] < key xs[i] := by
  refine ⟨fun j hj => ?_, fun j hj => ?_⟩ <;> cases j
  · exact hx.le
  · exact hmax _ (Nat.lt_of_succ_lt_succ hj)
  · exact hx
  · exact hfirst _ (Nat.lt_of_succ_lt_succ hj)

/-- The loop's invariant over decodable hits: it ends on its starting value when no hit is
later than `latestTime`, and otherwise on the first hit of greatest timestamp. -/
theorem selectLatest_ok (docs : List (SamplingDoc Thr Prob QPS)) (latestTime : Int)
    (latest : TimeProbabilitiesAndQPS Prob QPS) :
    (selectLatest (docs.map .ok) latestTime latest = .ok latest ∧
      ∀ d ∈ docs, d.toTimeProbabilitiesAndQPS.timestamp ≤ latestTime) ∨
    ∃ i, ∃ h : i < docs.length,
      selectLatest (docs.map .ok) latestTime latest = .ok docs[i].toTimeProbabilitiesAndQPS ∧
      latestTime < docs[i].toTimeProbabilitiesAndQPS.timestamp ∧
      (∀ j (hj : j < docs.length), docs[j].toTimeProbabilitiesAndQPS.timestamp ≤
        docs[i].toTimeProbabilitiesAndQPS.timestamp) ∧
      ∀ j (hj : j < i), docs[j].toTimeProbabilitiesAndQPS.timestamp <
        docs[i].toTimeProbabilitiesAndQPS.timestamp := by
  induction docs generalizing latestTime latest with
  | nil => simp [selectLatest]
  | cons d docs ih =>
    simp only [List.map_cons, selectLatest]
    split
    · -- `d` is later than the accumulator: it is the latest so far
      rename_i hlt
      refine .inr ?_
      rcases ih d.toTimeProbabilitiesAndQPS.timestamp d.toTimeProbabilitiesAndQPS with
        ⟨hrun, hle⟩ | ⟨i, hi, hrun, hgt, hmax, hfirst⟩
      · exact ⟨0, by simp, hrun, hlt, fun j hj => by
          cases j <;> simp_all [List.getElem_mem], fun j hj => absurd hj (by omega)⟩
      · exact ⟨i + 1, Nat.succ_lt_succ hi, hrun, lt_trans hlt hgt, first_max_cons
          (·.toTimeProbabilitiesAndQPS.timestamp) hi (Nat.succ_lt_succ hi) hgt hmax hfirst⟩
    · -- `d` is not later: the accumulator stays
      rename_i hle
      rcases ih latestTime latest with ⟨hrun, hall⟩ | ⟨i, hi, hrun, hgt, hmax, hfirst⟩
      · exact .inl ⟨hrun, by simp_all⟩
      · exact .inr ⟨i + 1, Nat.succ_lt_succ hi, hrun, hgt, first_max_cons
          (·.toTimeProbabilitiesAndQPS.timestamp) hi (Nat.succ_lt_succ hi)
          (lt_of_le_of_lt (not_lt.1 hle) hgt) hmax hfirst⟩

/-- The loop stops at the first hit that does not decode. -/
theorem selectLatest_error (pre : List (SamplingDoc Thr Prob QPS)) (err : String)
    (post : List (Except String (SamplingDoc Thr Prob QPS))) (latestTime : Int)
    (latest : TimeProbabilitiesAndQPS Prob QPS) :
    selectLatest (pre.map .ok ++ .error err :: post) latestTime latest =
      .error ("unmarshalling documents failed: " ++ err) := by
  induction pre generalizing latestTime latest with
  | nil => rfl
  | cons d pre ih =>
    simp only [List.map_cons, List.cons_append, selectLatest]
    split <;> exact ih _ _

/-- A hit list holding a hit that does not decode splits at the first such hit. -/
theorem exists_first_error {α : Type} {hits : List (Except String α)}
    (h : ∃ err, .error err ∈ hits) :
    ∃ (pre : List α) (err : String) (post : List (Except String α)),
      hits = pre.map .ok ++ .error err :: post := by
  induction hits with
  | nil => simp at h
  | cons hit hits ih =>
    cases hit with
    | error err => exact ⟨[], err, hits, rfl⟩
    | ok doc =>
      obtain ⟨pre, err, post, rfl⟩ := ih (by simpa using h)
      exact ⟨doc :: pre, err, post, rfl⟩

/-- **The selection loop of `GetLatestProbabilities`.** For every list of hits: when a hit does
not decode, the error of the first such hit; when every hit decodes with a timestamp after the
zero `time.Time`, the probabilities of the first hit of greatest timestamp; `nil` for no hit. -/
theorem latestProbabilitiesOf_first_latest (hits : List (Except String (SamplingDoc Thr Prob QPS))) :
    ((∃ err, .error err ∈ hits) → ∃ (pre : List (SamplingDoc Thr Prob QPS)) (err : String)
      (post : List (Except String (SamplingDoc Thr Prob QPS))), hits = pre.map .ok ++ .error err :: post ∧
      latestProbabilitiesOf hits = .error ("unmarshalling documents failed: " ++ err)) ∧
    (∀ docs : List (SamplingDoc Thr Prob QPS), hits = docs.map .ok → docs ≠ [] →
      (∀ d ∈ docs, zeroTime < d.toTimeProbabilitiesAndQPS.timestamp) →
      ∃ i, ∃ h : i < docs.length,
        latestProbabilitiesOf hits =
          .ok docs[i].toTimeProbabilitiesAndQPS.probabilitiesAndQPS.probabilities ∧
        (∀ j (hj : j < docs.length), docs[j].toTimeProbabilitiesAndQPS.timestamp ≤
          docs[i].toTimeProbabilitiesAndQPS.timestamp) ∧
        ∀ j (hj : j < i), docs[j].toTimeProbabilitiesAndQPS.timestamp <
          docs[i].toTimeProbabilitiesAndQPS.timestamp) ∧
    (hits = [] → latestProbabilitiesOf hits = .ok default) := by
  refine ⟨fun herr => ?_, fun docs hdocs hne hpos => ?_, fun h => by simp [h, latestProbabilitiesOf]⟩
  · -- a failing hit: the loop stops at the first one
    obtain ⟨pre, err, post, rfl⟩ := exists_first_error herr
    refine ⟨pre, err, post, rfl, ?_⟩
    simp [latestProbabilitiesOf, selectLatest_error, Except.map]
  · -- every hit decodes: the loop starts below every timestamp, so it moves at least once
    subst hdocs
    have hlen : (docs.map .ok : List (Except String _)).length ≠ 0 := by simpa using hne
    rcases selectLatest_ok docs zeroTime ⟨zeroTime, default⟩ with
      ⟨-, hall⟩ | ⟨i, hi, hrun, -, hmax, hfirst⟩
    · obtain ⟨d, hd⟩ := List.exists_mem_of_ne_nil docs hne
      exact absurd (hall d hd) (not_le.2 (hpos d hd))
    · exact ⟨i, hi, by rw [latestProbabilitiesOf, if_neg hlen, hrun]; rfl, hmax, hfirst⟩

/-- When one document is strictly newer than every other, after the zero `time.Time`, the
selection returns its probabilities whatever the order of the hits. -/
theorem latestProbabilitiesOf_of_newest {docs : List (SamplingDoc Thr Prob QPS)}
    {d : SamplingDoc Thr Prob QPS} (hd : d ∈ docs)
    (hpos : zeroTime < d.toTimeProbabilitiesAndQPS.timestamp)
    (holder : ∀ e ∈ docs, e ≠ d →
      e.toTimeProbabilitiesAndQPS.timestamp < d.toTimeProbabilitiesAndQPS.timestamp) :
    latestProbabilitiesOf (docs.map .ok) =
      .ok d.toTimeProbabilitiesAndQPS.probabilitiesAndQPS.probabilities := by
  have hlen : (docs.map .ok : List (Except String _)).length ≠ 0 := by
    simpa using List.ne_nil_of_mem hd
  rcases selectLatest_ok docs zeroTime ⟨zeroTime, default⟩ with
    ⟨-, hall⟩ | ⟨i, hi, hrun, -, hmax, -⟩
  · exact absurd (hall d hd) (not_le.2 hpos)
  · -- the selected document is maximal, so it is `d`
    obtain ⟨k, hk, rfl⟩ := List.getElem_of_mem hd
    have hsel : docs[i] = docs[k] := by
      by_contra hne
      exact absurd (hmax k hk) (not_le.2 (holder _ (List.getElem_mem _) hne))
    rw [latestProbabilitiesOf, if_neg hlen, hrun, hsel]
    rfl

/-- Whatever the hits, when they all decode the selection returns the zero value or the
probabilities of one of them. -/
theorem latestProbabilitiesOf_mem (docs : List (SamplingDoc Thr Prob QPS)) :
    ∃ r, latestProbabilitiesOf (docs.map .ok) = .ok r ∧
      (r = default ∨ ∃ d ∈ docs, r = d.toTimeProbabilitiesAndQPS.probabilitiesAndQPS.probabilities) := by
  by_cases hlen : (docs.map .ok : List (Except String _)).length = 0
  · exact ⟨_, by rw [latestProbabilitiesOf, if_pos hlen], .inl rfl⟩
  rcases selectLatest_ok docs zeroTime ⟨zeroTime, default⟩ with ⟨hrun, -⟩ | ⟨i, hi, hrun, -⟩
  · exact ⟨_, by rw [latestProbabilitiesOf, if_neg hlen, hrun]; rfl, .inl rfl⟩
  · exact ⟨_, by rw [latestProbabilitiesOf, if_neg hlen, hrun]; rfl,
      .inr ⟨_, List.getElem_mem _, rfl⟩⟩

end Select

/-! ### The store's operations -/

/-- A call served by the sampling store, at the clock reading `ts` it takes: `InsertThroughput`
(with the list `dbmodel.FromThroughputs` makes of its argument) or `InsertProbabilitiesAndQPS`. -/
inductive SamplingCall (Thr Prob QPS : Type)
  | insertThroughput (ts : Int) (throughput : List Thr)
  | insertProbabilitiesAndQPS (ts : Int) (probabilities : Prob) (qps : QPS)

namespace SamplingStore

variable (s : SamplingStore) {Thr Prob QPS : Type}

/-- `buildTSQuery` of the sampling store: the documents of `[start, end]`. -/
def buildTSQuery (start end_ : Int) : RangeQuery :=
  ⟨"timestamp", start, end_⟩

/-- The op type of a sampling write: `create` for a data stream or from Elasticsearch 8 on. -/
def opType (version : Nat) : String :=
  if s.useDataStream || decide (8 ≤ version) then "create" else ""

/-- `InsertThroughput` at the clock reading `ts`: one request per entry, into the write index. -/
def insertThroughput (version : Nat) (ts : Int) (throughput : List Thr) :
    List (IndexRequest (SamplingDoc Thr Prob QPS)) :=
  throughput.map fun eachThroughput =>
    ⟨s.getWriteIndex ts, throughputType, .ofTimeThroughput ⟨ts, eachThroughput⟩, s.opType version⟩

/-- `writeProbabilitiesAndQPS`: one request into `indexName`. -/
def writeProbabilitiesAndQPS (version : Nat) (indexName : String) (ts : Int)
    (pandqps : ProbabilitiesAndQPS Prob QPS) : IndexRequest (SamplingDoc Thr Prob QPS) :=
  ⟨indexName, probabilitiesType, .ofTimeProbabilitiesAndQPS ⟨ts, pandqps⟩, s.opType version⟩

/-- `InsertProbabilitiesAndQPS` at the clock reading `ts`. -/
def insertProbabilitiesAndQPS (version : Nat) (ts : Int) (probabilities : Prob) (qps : QPS) :
    List (IndexRequest (SamplingDoc Thr Prob QPS)) :=
  [s.writeProbabilitiesAndQPS version (s.getWriteIndex ts) ts ⟨probabilities, qps⟩]

/-- The requests a call hands to the bulk processor. -/
def requests (version : Nat) : SamplingCall Thr Prob QPS → List (IndexRequest (SamplingDoc Thr Prob QPS))
  | .insertThroughput ts throughput => s.insertThroughput version ts throughput
  | .insertProbabilitiesAndQPS ts probabilities qps =>
    s.insertProbabilitiesAndQPS version ts probabilities qps

/-- The cluster after the calls, once the bulk processor has flushed their requests, starting
from a cluster with no sampling index. -/
def runWrites (version : Nat) (calls : List (SamplingCall Thr Prob QPS)) :
    Cluster (SamplingDoc Thr Prob QPS) :=
  calls.foldl (fun c call => c.bulk (s.requests version call)) .empty

/-- The decoding loop of `GetThroughput`: every hit into a `dbmodel.TimeThroughput`, up to the
first that fails. -/
def decodeThroughputs [Inhabited Thr] :
    List (Except String (SamplingDoc Thr Prob QPS)) → Except String (List (TimeThroughput Thr))
  | [] => .ok []
  | .error err :: _ => .error ("unmarshalling documents failed: " ++ err)
  | .ok doc :: hits => (doc.toTimeThroughput :: ·) <$> decodeThroughputs hits

/-- `GetThroughput` on `fuel`, through `client`: the list of `dbmodel.Throughput` it hands to
`dbmodel.ToThroughputs`. -/
def getThroughput [Inhabited Thr] (client : Client (SamplingDoc Thr Prob QPS)) (fuel : Nat)
    (start end_ : Int) : Option (Except String (List Thr)) :=
  (s.getReadIndices fuel start end_).map fun indices =>
    match client.search ⟨indices, s.maxDocCount, some (buildTSQuery start end_)⟩ with
    | .error err => .error ("failed to search for throughputs: " ++ err)
    | .ok hits => (decodeThroughputs hits).map (·.map (·.throughput))

/-- `GetLatestProbabilities` on `fuel`, through `client`, at the clock reading `now`. -/
def getLatestProbabilities [Inhabited Prob] [Inhabited QPS]
    (client : Client (SamplingDoc Thr Prob QPS)) (fuel : Nat) (now : Int) :
    Option (Except String Prob) :=
  (s.getLatestIndices client.indexExists fuel now).map fun scan =>
    match scan.result with
    | .error err => .error ("failed to get latest indices: " ++ err)
    | .ok indices =>
      match client.search ⟨indices, s.maxDocCount, none⟩ with
      | .error err => .error ("failed to search for Latest Probabilities: " ++ err)
      | .ok hits => latestProbabilitiesOf hits

@[simp] theorem decodeThroughputs_map_ok [Inhabited Thr] (docs : List (SamplingDoc Thr Prob QPS)) :
    decodeThroughputs (docs.map .ok) = .ok (docs.map (·.toTimeThroughput)) := by
  induction docs with
  | nil => rfl
  | cons d docs ih => rw [List.map_cons, decodeThroughputs, ih]; rfl

/-- `GetThroughput` once its read plan is built and its search answered with decodable hits:
the `throughput` key of every hit, zero where it is missing, in the order of the hits. -/
theorem getThroughput_of_search [Inhabited Thr] {client : Client (SamplingDoc Thr Prob QPS)}
    {fuel : Nat} {start end_ : Int} {indices : List String}
    {hits : List (SamplingDoc Thr Prob QPS)} (hplan : s.getReadIndices fuel start end_ = some indices)
    (hsearch : client.search ⟨indices, s.maxDocCount, some (buildTSQuery start end_)⟩ =
      .ok (hits.map .ok)) :
    s.getThroughput client fuel start end_ =
      some (.ok (hits.map (·.toTimeThroughput.throughput))) := by
  simp [getThroughput, hplan, hsearch, Except.map]

/-- `GetLatestProbabilities` once its target is located and its search answered. -/
theorem getLatestProbabilities_of_search [Inhabited Prob] [Inhabited QPS]
    {client : Client (SamplingDoc Thr Prob QPS)} {fuel : Nat} {now : Int} {scan : Scan}
    {indices : List String} {hits : List (Except String (SamplingDoc Thr Prob QPS))}
    (hscan : s.getLatestIndices client.indexExists fuel now = some scan)
    (hres : scan.result = .ok indices)
    (hsearch : client.search ⟨indices, s.maxDocCount, none⟩ = .ok hits) :
    s.getLatestProbabilities client fuel now = some (latestProbabilitiesOf hits) := by
  simp [getLatestProbabilities, hscan, hres, hsearch]

end SamplingStore

end JaegerEsIndex
