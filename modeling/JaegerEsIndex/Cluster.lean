import JaegerEsIndex.Config
import Mathlib.Data.List.Perm.Subperm

namespace JaegerEsIndex

/-!
# The search engine the stores talk to

The stores reach Elasticsearch through `es.Client`. What they observe of it is modelled as a
cluster: the indices and data streams that exist, and the documents written to each, oldest
first. No mapping type is kept (Elasticsearch 7 and later, and data streams, have none); a
target comes into existence with the first document written to it; a search sees the
documents of every target one of its patterns matches (`matchesTarget`).

* `withFault` — a request the client fails returns the client's error and changes nothing;
* `Cluster.createIndex` — adds an index, or fails when it exists already;
* `Cluster.index` — appends a document, creating its target on first write;
* `SearchResponse` — what a search may answer: at most `size` of the documents it sees, each
  at most once, in any order, since no sort is asked for;
* `Client.Serves` — a client whose existence checks and searches are answered by a cluster;
  `Cluster.client_serves` — the client answering in write order is one;
  `SearchResponse.perm` — when a search sees at most `size` documents, its hits are all of
  them, in some order.
-/

/-- `esquery.NewRangeQuery(field).Gte(gte).Lte(lte)`. -/
structure RangeQuery where
  field : String
  gte : Int
  lte : Int

/-- A search as the stores issue it: the targets, `Size`, and the query if any. Every store
sets `IgnoreUnavailable(true)`, so a target that resolves to nothing contributes nothing. -/
structure SearchRequest where
  indices : List String
  size : Nat
  query : Option RangeQuery

/-- The cluster: the existing indices and data streams, and every document with the target it
was written to, oldest first. -/
structure Cluster (Doc : Type) where
  indices : List String
  docs : List (String × Doc)

variable {Doc : Type}

/-- A document satisfies a range query when the queried field holds a value within bounds. -/
def RangeQuery.holds (q : RangeQuery) (fieldOf : Doc → String → Option Int) (doc : Doc) : Bool :=
  match fieldOf doc q.field with
  | some v => decide (q.gte ≤ v ∧ v ≤ q.lte)
  | none => false

/-- What the client returns for a request the cluster answers with `answer`: the error `fault`
when the request fails, the cluster then being left as it was, else the cluster's answer. -/
def withFault {α : Type} (fault : Option String) (answer : Except String α) : Except String α :=
  match fault with
  | some err => .error err
  | none => answer

namespace Cluster

/-- The cluster before any index was created. -/
def empty : Cluster Doc := ⟨[], []⟩

/-- `IndexExists`. -/
def indexExists (c : Cluster Doc) (name : String) : Bool := decide (name ∈ c.indices)

/-- `CreateIndex` as the cluster answers it: the index is added, or the request is refused when
the index exists already. Other failures of the request are the client's (`withFault`). -/
def createIndex (c : Cluster Doc) (name : String) : Except String (Cluster Doc) :=
  if name ∈ c.indices then .error "resource_already_exists_exception"
  else .ok { c with indices := c.indices ++ [name] }

/-- Indexing a document (auto-generated ID): appended to its target, which the write creates
when it does not exist yet. -/
def index (c : Cluster Doc) (name : String) (doc : Doc) : Cluster Doc :=
  { indices := if name ∈ c.indices then c.indices else c.indices ++ [name]
    docs := c.docs ++ [(name, doc)] }

/-- The documents a search sees: those written to a target one of its patterns matches that
satisfy its query, in write order. -/
def visible (c : Cluster Doc) (fieldOf : Doc → String → Option Int) (req : SearchRequest) :
    List Doc :=
  (c.docs.filter fun e =>
    req.indices.any (matchesTarget · e.1) && req.query.all (·.holds fieldOf e.2)).map Prod.snd

@[simp] theorem index_docs (c : Cluster Doc) (name : String) (doc : Doc) :
    (c.index name doc).docs = c.docs ++ [(name, doc)] := rfl

/-- A written target exists afterwards, and every target that existed still does. -/
theorem mem_index_indices (c : Cluster Doc) (name n : String) (doc : Doc) :
    n ∈ (c.index name doc).indices ↔ n ∈ c.indices ∨ n = name := by
  unfold index
  split <;> simp_all [or_iff_left_of_imp]

/-- A document written later is seen exactly when its target and its fields qualify. -/
theorem visible_index (c : Cluster Doc) (fieldOf : Doc → String → Option Int)
    (req : SearchRequest) (name : String) (doc : Doc) :
    (c.index name doc).visible fieldOf req = c.visible fieldOf req ++
      (if req.indices.any (matchesTarget · name) && req.query.all (·.holds fieldOf doc)
        then [doc] else []) := by
  simp only [visible, index_docs, List.filter_append, List.map_append, List.filter_cons,
    List.filter_nil]
  split <;> simp

/-- A search sees only written documents. -/
theorem visible_sublist (c : Cluster Doc) (fieldOf : Doc → String → Option Int)
    (req : SearchRequest) : (c.visible fieldOf req).Sublist (c.docs.map Prod.snd) :=
  (List.filter_sublist _).map _

/-- A document is seen by a search one of whose patterns matches its target and whose query
it satisfies. -/
theorem mem_visible {c : Cluster Doc} {fieldOf : Doc → String → Option Int} {req : SearchRequest}
    {name : String} {doc : Doc} (hdoc : (name, doc) ∈ c.docs)
    (htarget : req.indices.any (matchesTarget · name) = true)
    (hquery : req.query.all (·.holds fieldOf doc) = true) : doc ∈ c.visible fieldOf req :=
  List.mem_map.2 ⟨(name, doc), List.mem_filter.2 ⟨hdoc, by simp [htarget, hquery]⟩, rfl⟩

/-- A search one of whose patterns matches the target of every document sees every document
its query accepts, in write order. -/
theorem visible_of_targets {c : Cluster Doc} {fieldOf : Doc → String → Option Int}
    {req : SearchRequest} (h : ∀ e ∈ c.docs, req.indices.any (matchesTarget · e.1) = true) :
    c.visible fieldOf req =
      (c.docs.map Prod.snd).filter fun doc => req.query.all (·.holds fieldOf doc) := by
  rw [visible, List.filter_map]
  congr 1
  exact List.filter_congr fun e he => by simp [h e he]

/-- The targets that exist are exactly those written to: what a cluster built by writes alone
keeps. -/
def Written (c : Cluster Doc) : Prop :=
  ∀ name, name ∈ c.indices ↔ ∃ doc, (name, doc) ∈ c.docs

theorem empty_written : (empty : Cluster Doc).Written := fun _ => by simp [empty]

/-- A write keeps the existing targets those written to. -/
theorem Written.index {c : Cluster Doc} (hc : c.Written) (name : String) (doc : Doc) :
    (c.index name doc).Written := fun n => by
  rw [mem_index_indices, hc n]
  constructor
  · rintro (⟨d, hd⟩ | rfl)
    · exact ⟨d, by simp [hd]⟩
    · exact ⟨doc, by simp⟩
  · rintro ⟨d, hd⟩
    simp only [index_docs, List.mem_append, List.mem_singleton, Prod.mk.injEq] at hd
    exact hd.imp (fun h => ⟨d, h⟩) (·.1)

end Cluster

/-- One request handed to the bulk processor: target, mapping type, body and op type. -/
structure IndexRequest (Doc : Type) where
  index : String
  type : String
  body : Doc
  opType : String

/-- The cluster once the bulk processor has indexed `reqs` in order. The mapping type and the
op type change nothing: there are no mapping types, and with auto-generated IDs `create` and
`index` both add the document. -/
def Cluster.bulk (c : Cluster Doc) (reqs : List (IndexRequest Doc)) : Cluster Doc :=
  reqs.foldl (fun c r => c.index r.index r.body) c

@[simp] theorem Cluster.bulk_docs (c : Cluster Doc) (reqs : List (IndexRequest Doc)) :
    (c.bulk reqs).docs = c.docs ++ reqs.map fun r => (r.index, r.body) := by
  induction reqs generalizing c with
  | nil => simp [Cluster.bulk]
  | cons r reqs ih => simp [Cluster.bulk, List.foldl_cons] at ih ⊢; simp [ih]

/-- The bulk processor writes only: it keeps the existing targets those written to. -/
theorem Cluster.Written.bulk {c : Cluster Doc} (hc : c.Written) (reqs : List (IndexRequest Doc)) :
    (c.bulk reqs).Written := by
  induction reqs generalizing c with
  | nil => exact hc
  | cons r reqs ih => exact ih (hc.index r.index r.body)

/-- `hits` is an answer the search engine may give to `req`: at most `size` of the documents
the search sees, each at most once, in any order. -/
def SearchResponse (c : Cluster Doc) (fieldOf : Doc → String → Option Int) (req : SearchRequest)
    (hits : List Doc) : Prop :=
  hits.Subperm (c.visible fieldOf req) ∧ hits.length = min req.size (c.visible fieldOf req).length

/-- What the stores use of `es.Client`: the existence check and the search. A hit's source is a
document, or the error `json.Unmarshal` reports for bytes it cannot decode. -/
structure Client (Doc : Type) where
  indexExists : String → Except String Bool
  search : SearchRequest → Except String (List (Except String Doc))

/-- `client` answers as the cluster `c` does: existence checks read its indices, and every
search returns one of the responses `c` allows. -/
def Client.Serves (client : Client Doc) (c : Cluster Doc) (fieldOf : Doc → String → Option Int) :
    Prop :=
  (∀ name, client.indexExists name = .ok (c.indexExists name)) ∧
  ∀ req, ∃ hits, client.search req = .ok (hits.map .ok) ∧ SearchResponse c fieldOf req hits

/-- The client that answers from `c` in write order: a search returns the first `size`
documents it sees. -/
def Cluster.client (c : Cluster Doc) (fieldOf : Doc → String → Option Int) : Client Doc :=
  ⟨fun name => .ok (c.indexExists name),
    fun req => .ok (((c.visible fieldOf req).take req.size).map .ok)⟩

/-- Every cluster is served by some client: the one answering in write order. -/
theorem Cluster.client_serves (c : Cluster Doc) (fieldOf : Doc → String → Option Int) :
    (c.client fieldOf).Serves c fieldOf :=
  ⟨fun _ => rfl, fun _ => ⟨_, rfl, (List.take_sublist _ _).subperm, List.length_take _ _⟩⟩

/-- The images of a sub-multiset are a sub-multiset of the images. -/
theorem subperm_map {α β : Type} (f : α → β) {l₁ l₂ : List α} (h : l₁.Subperm l₂) :
    (l₁.map f).Subperm (l₂.map f) :=
  let ⟨l, hp, hs⟩ := h
  ⟨l.map f, hp.map f, hs.map f⟩

/-- The client that answers from `c` in write order, except that a search seeing more documents
than its `size` leaves `doc` out: Elasticsearch, asked for no sort, may return any `size` of the
documents a search sees. -/
def Cluster.clientWithout [DecidableEq Doc] (c : Cluster Doc) (fieldOf : Doc → String → Option Int)
    (doc : Doc) : Client Doc :=
  ⟨fun name => .ok (c.indexExists name), fun req =>
    .ok (((if req.size < (c.visible fieldOf req).length then (c.visible fieldOf req).erase doc
      else c.visible fieldOf req).take req.size).map .ok)⟩

/-- The client leaving `doc` out of a search that sees more than its `size` serves `c` too. -/
theorem Cluster.clientWithout_serves [DecidableEq Doc] (c : Cluster Doc)
    (fieldOf : Doc → String → Option Int) (doc : Doc) :
    (c.clientWithout fieldOf doc).Serves c fieldOf := by
  refine ⟨fun _ => rfl, fun req => ⟨_, rfl, ?_⟩⟩
  split
  · rename_i hmore
    have hlen : req.size ≤ ((c.visible fieldOf req).erase doc).length := by
      rw [List.length_erase]
      split <;> omega
    exact ⟨((List.take_sublist _ _).trans (List.erase_sublist _ _)).subperm,
      by rw [List.length_take, min_eq_left hlen, min_eq_left hmore.le]⟩
  · exact ⟨(List.take_sublist _ _).subperm, List.length_take _ _⟩

/-- When a search sees no more documents than its `size`, its hits are all of them. -/
theorem SearchResponse.perm {c : Cluster Doc} {fieldOf : Doc → String → Option Int}
    {req : SearchRequest} {hits : List Doc} (h : SearchResponse c fieldOf req hits)
    (hsize : (c.visible fieldOf req).length ≤ req.size) :
    hits.Perm (c.visible fieldOf req) :=
  h.1.perm_of_length_le (by rw [h.2, min_eq_right hsize])

end JaegerEsIndex
