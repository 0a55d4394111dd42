import JaegerEsIndex.DependencyStore

namespace JaegerEsIndex

/-!
# Concurrent `WriteDependencies` calls

`WriteDependencies` makes its requests to the cluster one after the other. `createIndex` checks
that the write index exists and, when it does not, issues `CreateIndex`; then
`writeDependenciesToIndex` hands the batch to the bulk processor, and the call returns `nil`.
The client may fail either request of `createIndex`, whose error the call then returns. Calls made
from several goroutines interleave at those requests. A call in flight is a program counter over
them (`Writer`); the system is the cluster and the calls (`RaceState`). A schedule names, turn
after turn, the call that makes its next request, and the error the client fails that request
with, if any (`Turn`).

* `writerStep_cases` — everything one request can do;
* `RaceInv`, `raceRun_inv` — over every schedule, the cluster holds the batches it started with
  and, once each, those of the calls that returned `nil`. A call that returned an error was
  refused `CreateIndex` because its index existed, or returned an error the client reported to
  it;
* `raceRun_remaining` — each turn of a call brings it one request closer to its return;
* `writeDependencies_race_loses_batch` — two calls for the same new index whose existence
  checks both run before either `CreateIndex`: the second returns
  `resource_already_exists_exception`, and its batch never reaches the cluster.
-/

/-- Where a `WriteDependencies` call is: before its existence check, before `CreateIndex`,
before handing its batch to the bulk processor, or returned with `nil` or an error. -/
inductive WriterPc
  | checkExists
  | createIndex
  | submit
  | returned (err : Option String)
  deriving DecidableEq

/-- The requests a call still has to make. -/
def WriterPc.remaining : WriterPc → Nat
  | .checkExists => 3
  | .createIndex => 2
  | .submit => 1
  | .returned _ => 0

/-- One `WriteDependencies(ts, dependencies)` call in flight. -/
structure Writer (Dep : Type) where
  ts : Int
  dependencies : List Dep
  pc : WriterPc
  deriving DecidableEq

/-- The cluster and the calls in flight. -/
structure RaceState (Dep : Type) where
  cluster : Cluster (TimeDependencies Dep)
  writers : List (Writer Dep)

/-- The calls `calls`, none of which has made a request yet, against the cluster `c`. -/
def RaceState.start {Dep : Type} (c : Cluster (TimeDependencies Dep))
    (calls : List (Int × List Dep)) : RaceState Dep :=
  ⟨c, calls.map fun call => ⟨call.1, call.2, .checkExists⟩⟩

/-- One turn of a schedule: the `writer`-th call makes its next request, which the client
answers, or fails with the error `fault`. -/
structure Turn where
  writer : Nat
  fault : Option String
  deriving DecidableEq

/-- The error the client reports in a turn, with the call it reports it to. -/
def Turn.reported (t : Turn) : Option (Nat × String) :=
  t.fault.map (t.writer, ·)

/-- The errors the client reports over a schedule, each with the call it reports it to. -/
def reports (schedule : List Turn) : List (Nat × String) :=
  schedule.filterMap Turn.reported

@[simp] theorem reports_cons (t : Turn) (schedule : List Turn) :
    reports (t :: schedule) = t.reported.toList ++ reports schedule := by
  cases h : t.reported <;> simp [reports, List.filterMap_cons, h]

/-- The turns of the calls `schedule` names, the client answering every request. -/
def answered (schedule : List Nat) : List Turn :=
  schedule.map fun i => ⟨i, none⟩

/-! ### Replacing one call in the list of calls -/

section SetLemmas

variable {α β : Type} {l : List α} {i : Nat} {a b : α}

/-- Putting back the call that is there changes nothing. -/
theorem set_of_getElem?_eq (h : l[i]? = some a) : l.set i a = l := by
  induction l generalizing i with
  | nil => simp at h
  | cons x l ih =>
    cases i with
    | zero => simp_all
    | succ i => simp [ih (by simpa using h)]

/-- Replacing a call by one a projection does not tell apart keeps the projection. -/
theorem filterMap_set_of_eq (h : l[i]? = some a) (g : α → Option β) (hg : g b = g a) :
    (l.set i b).filterMap g = l.filterMap g := by
  induction l generalizing i with
  | nil => simp at h
  | cons x l ih =>
    cases i with
    | zero => simp_all [List.filterMap_cons]
    | succ i => simp [List.filterMap_cons, ih (by simpa using h)]

/-- Replacing a call the projection drops by one it keeps adds that one's image. -/
theorem filterMap_set_perm (h : l[i]? = some a) (g : α → Option β) {e : β} (ha : g a = none)
    (hb : g b = some e) : ((l.set i b).filterMap g).Perm (l.filterMap g ++ [e]) := by
  induction l generalizing i with
  | nil => simp at h
  | cons x l ih =>
    cases i with
    | zero =>
      simp only [List.getElem?_cons_zero, Option.some.injEq] at h
      subst h
      simpa [List.filterMap_cons, ha, hb] using (List.perm_append_singleton e _).symm
    | succ i =>
      have := ih (by simpa using h)
      cases hx : g x <;> simp [List.filterMap_cons, hx, this]

/-- A call of the list with one call replaced is the replacement, or was there before. -/
theorem getElem?_set_eq_some {j : Nat} {c : α} (h : (l.set i b)[j]? = some c) :
    (j = i ∧ c = b) ∨ (j ≠ i ∧ l[j]? = some c) := by
  by_cases hj : j = i
  · subst hj
    simp_all [List.getElem?_set]
  · exact .inr ⟨hj, by rwa [List.getElem?_set_ne (Ne.symm hj)] at h⟩

/-- Replacing a call keeps every projection of the list when it keeps the call's own. -/
theorem map_set_of_eq (h : l[i]? = some a) (f : α → β) (hf : f b = f a) :
    (l.set i b).map f = l.map f := by
  simpa [List.filterMap_eq_map] using filterMap_set_of_eq h (some ∘ f) (by simp [hf])

end SetLemmas

namespace DependencyStore

variable (s : DependencyStore) {Dep : Type}

/-- The next request of the call `w` against `c`, which the client fails with `fault` when that
is an error. The two requests of `createIndex` (none under aliases): the existence check, whose
error is returned, and `CreateIndex` when the index is missing, whose error or refusal is
returned. Then `writeDependenciesToIndex` and the return: the bulk processor's `Add` reports no
error. -/
def writerStep (c : Cluster (TimeDependencies Dep)) (w : Writer Dep) (fault : Option String) :
    Cluster (TimeDependencies Dep) × Writer Dep :=
  match w.pc with
  | .checkExists =>
    if s.useReadWriteAliases then (c, { w with pc := .submit })
    else
      match withFault fault (.ok (c.indexExists (s.getWriteIndex w.ts))) with
      | .error err => (c, { w with pc := .returned (some err) })
      | .ok true => (c, { w with pc := .submit })
      | .ok false => (c, { w with pc := .createIndex })
  | .createIndex =>
    match withFault fault (c.createIndex (s.getWriteIndex w.ts)) with
    | .error err => (c, { w with pc := .returned (some err) })
    | .ok c' => (c', { w with pc := .submit })
  | .submit =>
    (c.index (s.getWriteIndex w.ts) ⟨w.ts, w.dependencies⟩, { w with pc := .returned none })
  | .returned _ => (c, w)

/-- One turn: the named call makes its next request; a turn naming no call does nothing. -/
def raceStep (st : RaceState Dep) (t : Turn) : RaceState Dep :=
  match st.writers[t.writer]? with
  | none => st
  | some w =>
    ⟨(s.writerStep st.cluster w t.fault).1,
      st.writers.set t.writer (s.writerStep st.cluster w t.fault).2⟩

/-- The state after the turns of `schedule`, in order. -/
def raceRun (st : RaceState Dep) (schedule : List Turn) : RaceState Dep :=
  schedule.foldl s.raceStep st

/-- The batch a call hands to the bulk processor, with its target. -/
def entry (w : Writer Dep) : String × TimeDependencies Dep :=
  (s.getWriteIndex w.ts, ⟨w.ts, w.dependencies⟩)

/-- The batches of the calls that have returned `nil`. -/
def submitted (writers : List (Writer Dep)) : List (String × TimeDependencies Dep) :=
  writers.filterMap fun w => if w.pc = .returned none then some (s.entry w) else none

@[simp] theorem raceRun_nil (st : RaceState Dep) : s.raceRun st [] = st := rfl

theorem raceRun_cons (st : RaceState Dep) (t : Turn) (schedule : List Turn) :
    s.raceRun st (t :: schedule) = s.raceRun (s.raceStep st t) schedule := rfl

theorem raceRun_append (st : RaceState Dep) (l₁ l₂ : List Turn) :
    s.raceRun st (l₁ ++ l₂) = s.raceRun (s.raceRun st l₁) l₂ :=
  List.foldl_append _ _ _ _

theorem raceStep_of_getElem? {st : RaceState Dep} {t : Turn} {w : Writer Dep}
    (hw : st.writers[t.writer]? = some w) :
    s.raceStep st t =
      ⟨(s.writerStep st.cluster w t.fault).1,
        st.writers.set t.writer (s.writerStep st.cluster w t.fault).2⟩ := by
  simp [raceStep, hw]

/-! ### One request -/

/-- **Everything one request can do.** The existence check moves on to the hand-over (under
aliases, or when the index exists) or to `CreateIndex`. `CreateIndex` is refused on an existing
index, leaving the cluster as it is, or adds the index. The hand-over indexes the batch and
returns `nil`; a returned call does nothing. A request the client fails returns its error and
leaves the cluster as it is. -/
theorem writerStep_cases (c : Cluster (TimeDependencies Dep)) (w : Writer Dep) (f : Option String) :
    (w.pc = .checkExists ∧ s.writerStep c w f = (c, { w with pc := .submit })) ∨
    (w.pc = .checkExists ∧ s.useReadWriteAliases = false ∧ f = none ∧
      s.getWriteIndex w.ts ∉ c.indices ∧
      s.writerStep c w f = (c, { w with pc := .createIndex })) ∨
    (w.pc = .createIndex ∧ f = none ∧ s.getWriteIndex w.ts ∈ c.indices ∧
      s.writerStep c w f =
        (c, { w with pc := .returned (some "resource_already_exists_exception") })) ∨
    (w.pc = .createIndex ∧ f = none ∧ s.getWriteIndex w.ts ∉ c.indices ∧
      s.writerStep c w f = ({ c with indices := c.indices ++ [s.getWriteIndex w.ts] },
        { w with pc := .submit })) ∨
    (w.pc = .submit ∧ s.writerStep c w f = (c.index (s.getWriteIndex w.ts)
      ⟨w.ts, w.dependencies⟩, { w with pc := .returned none })) ∨
    (∃ e, w.pc = .returned e ∧ s.writerStep c w f = (c, w)) ∨
    (∃ err, f = some err ∧ (w.pc = .checkExists ∨ w.pc = .createIndex) ∧
      s.writerStep c w f = (c, { w with pc := .returned (some err) })) := by
  rcases w with ⟨ts, dependencies, pc⟩
  cases pc with
  | checkExists =>
    by_cases ha : s.useReadWriteAliases
    · simp [writerStep, ha]
    cases f <;> by_cases hx : s.getWriteIndex ts ∈ c.indices <;>
      simp [writerStep, withFault, Cluster.indexExists, ha, hx]
  | createIndex =>
    cases f <;> by_cases hx : s.getWriteIndex ts ∈ c.indices <;>
      simp [writerStep, withFault, Cluster.createIndex, hx]
  | submit => simp [writerStep]
  | returned e => simp [writerStep]

/-- A request does not change which call it is. -/
theorem writerStep_call (c : Cluster (TimeDependencies Dep)) (w : Writer Dep) (f : Option String) :
    (s.writerStep c w f).2.ts = w.ts ∧ (s.writerStep c w f).2.dependencies = w.dependencies := by
  rcases s.writerStep_cases c w f with ⟨-, h⟩ | ⟨-, -, -, -, h⟩ | ⟨-, -, -, h⟩ |
    ⟨-, -, -, h⟩ | ⟨-, h⟩ | ⟨e, -, h⟩ | ⟨err, -, -, h⟩ <;> simp [h]

/-- No request removes an index. -/
theorem writerStep_indices (c : Cluster (TimeDependencies Dep)) (w : Writer Dep) (f : Option String)
    {n : String} (hn : n ∈ c.indices) : n ∈ (s.writerStep c w f).1.indices := by
  rcases s.writerStep_cases c w f with ⟨-, h⟩ | ⟨-, -, -, -, h⟩ | ⟨-, -, -, h⟩ |
    ⟨-, -, -, h⟩ | ⟨-, h⟩ | ⟨e, -, h⟩ | ⟨err, -, -, h⟩ <;> simp [h, hn, Cluster.mem_index_indices]

/-- A request leaves the documents and whether the call returned `nil` alone, or it is the
hand-over: it adds the call's batch, and the call returns `nil`. -/
theorem writerStep_docs (c : Cluster (TimeDependencies Dep)) (w : Writer Dep) (f : Option String) :
    ((s.writerStep c w f).1.docs = c.docs ∧
      ((s.writerStep c w f).2.pc = .returned none ↔ w.pc = .returned none)) ∨
    ((s.writerStep c w f).1.docs = c.docs ++ [s.entry w] ∧ w.pc ≠ .returned none ∧
      (s.writerStep c w f).2.pc = .returned none) := by
  rcases s.writerStep_cases c w f with ⟨hpc, h⟩ | ⟨hpc, -, -, -, h⟩ | ⟨hpc, -, -, h⟩ |
    ⟨hpc, -, -, h⟩ | ⟨hpc, h⟩ | ⟨e, hpc, h⟩ | ⟨err, -, hpc | hpc, h⟩
  pick_goal 5
  · -- the hand-over
    exact .inr ⟨by simp [h, entry], by simp [hpc], by simp [h]⟩
  all_goals exact .inl ⟨by simp [h], by simp [h, hpc]⟩

/-- A call returns an error only when `CreateIndex` is refused on an index that exists, or when
the client fails its request with that error. -/
theorem writerStep_error (c : Cluster (TimeDependencies Dep)) (w : Writer Dep) (f : Option String)
    {err : String} (h : (s.writerStep c w f).2.pc = .returned (some err)) :
    w.pc = .returned (some err) ∨
      (err = "resource_already_exists_exception" ∧
        s.getWriteIndex w.ts ∈ (s.writerStep c w f).1.indices) ∨ f = some err := by
  rcases s.writerStep_cases c w f with ⟨-, hs⟩ | ⟨-, -, -, -, hs⟩ | ⟨-, -, hx, hs⟩ |
    ⟨-, -, -, hs⟩ | ⟨-, hs⟩ | ⟨e, -, hs⟩ | ⟨e, hf, -, hs⟩ <;> simp_all

/-- A request brings a call closer to its return. -/
theorem writerStep_remaining (c : Cluster (TimeDependencies Dep)) (w : Writer Dep)
    (f : Option String) : (s.writerStep c w f).2.pc.remaining ≤ w.pc.remaining - 1 := by
  rcases s.writerStep_cases c w f with ⟨hpc, h⟩ | ⟨hpc, -, -, -, h⟩ | ⟨hpc, -, -, h⟩ |
    ⟨hpc, -, -, h⟩ | ⟨hpc, h⟩ | ⟨e, hpc, h⟩ | ⟨err, -, hpc | hpc, h⟩ <;>
    simp [h, hpc, WriterPc.remaining]

/-! ### Over every interleaving -/

/-- What every schedule keeps, from the cluster `c₀` and the calls `calls`, given the errors
`faults` the client has reported so far: the calls in flight are those calls; the cluster holds
the documents it started with and, once each, the batches of the calls that returned `nil`; no
index disappears; and a call that returned an error was refused `CreateIndex` because its index
exists, or was reported that error by the client. -/
structure RaceInv (c₀ : Cluster (TimeDependencies Dep)) (calls : List (Int × List Dep))
    (faults : List (Nat × String)) (st : RaceState Dep) : Prop where
  calls_eq : st.writers.map (fun w => (w.ts, w.dependencies)) = calls
  docs_perm : st.cluster.docs.Perm (c₀.docs ++ s.submitted st.writers)
  indices_mono : ∀ n ∈ c₀.indices, n ∈ st.cluster.indices
  error_eq : ∀ i w, st.writers[i]? = some w → ∀ err, w.pc = .returned (some err) →
    (err = "resource_already_exists_exception" ∧ s.getWriteIndex w.ts ∈ st.cluster.indices) ∨
      (i, err) ∈ faults

theorem start_inv (c₀ : Cluster (TimeDependencies Dep)) (calls : List (Int × List Dep))
    (faults : List (Nat × String)) : s.RaceInv c₀ calls faults (.start c₀ calls) :=
  ⟨by simp [RaceState.start, Function.comp_def],
    by rw [show s.submitted (RaceState.start c₀ calls).writers = [] from
      List.filterMap_eq_nil_iff.2 fun w hw => by obtain ⟨_, _, rfl⟩ := List.mem_map.1 hw; simp,
      List.append_nil]; exact .refl _, fun _ hn => hn,
    fun _ w hw err h => by
      obtain ⟨_, _, rfl⟩ := List.mem_map.1 (List.getElem?_mem hw)
      cases h⟩

/-- One turn keeps the invariant, with the error it reports added to the faults. -/
theorem raceStep_inv {c₀ : Cluster (TimeDependencies Dep)} {calls : List (Int × List Dep)}
    {faults : List (Nat × String)} {st : RaceState Dep} (h : s.RaceInv c₀ calls faults st)
    (t : Turn) : s.RaceInv c₀ calls (faults ++ t.reported.toList) (s.raceStep st t) := by
  cases hw : st.writers[t.writer]? with
  | none =>
    simp only [raceStep, hw]
    exact ⟨h.calls_eq, h.docs_perm, h.indices_mono, fun i w hi err hpc =>
      (h.error_eq i w hi err hpc).imp_right (List.mem_append_left _)⟩
  | some w =>
    rw [raceStep_of_getElem? s hw]
    have hcall := s.writerStep_call st.cluster w t.fault
    -- what an earlier error still says after this request
    have hkeep : ∀ i v, st.writers[i]? = some v → ∀ err, v.pc = .returned (some err) →
        (err = "resource_already_exists_exception" ∧
          s.getWriteIndex v.ts ∈ (s.writerStep st.cluster w t.fault).1.indices) ∨
        (i, err) ∈ faults ++ t.reported.toList := fun i v hv err hpc =>
      (h.error_eq i v hv err hpc).imp (And.imp_right (s.writerStep_indices _ w _))
        (List.mem_append_left _)
    refine ⟨by rw [map_set_of_eq hw _ (by simp [hcall]), h.calls_eq], ?_,
      fun n hn => s.writerStep_indices _ w _ (h.indices_mono n hn), fun i v hv err hpc => ?_⟩
    · -- the documents: only the hand-over adds one, the call's batch, as it returns `nil`
      rcases s.writerStep_docs st.cluster w t.fault with ⟨hd, hret⟩ | ⟨hd, hne, hret⟩
      · rw [hd, submitted, filterMap_set_of_eq hw _ (by simp [hret, entry, hcall])]
        exact h.docs_perm
      · have hset : (s.submitted
            (st.writers.set t.writer (s.writerStep st.cluster w t.fault).2)).Perm
            (s.submitted st.writers ++ [s.entry w]) :=
          filterMap_set_perm hw _ (by simp [hne]) (by simp [hret, entry, hcall])
        rw [hd]
        refine (h.docs_perm.append_right _).trans ?_
        rw [List.append_assoc]
        exact hset.symm.append_left _
    · -- a call that returned an error: in this turn, or before it
      rcases getElem?_set_eq_some hv with ⟨rfl, rfl⟩ | ⟨-, hv⟩
      · rw [hcall.1]
        rcases s.writerStep_error st.cluster w t.fault hpc with hold | hnew | hfault
        · exact hkeep _ w hw err hold
        · exact .inl hnew
        · exact .inr (List.mem_append_right _ (by simp [Turn.reported, hfault]))
      · exact hkeep i v hv err hpc

/-- Every schedule keeps the invariant, with the errors it reports added to the faults. -/
theorem raceRun_inv {c₀ : Cluster (TimeDependencies Dep)} {calls : List (Int × List Dep)}
    {faults : List (Nat × String)} {st : RaceState Dep} (h : s.RaceInv c₀ calls faults st)
    (schedule : List Turn) :
    s.RaceInv c₀ calls (faults ++ reports schedule) (s.raceRun st schedule) := by
  induction schedule generalizing faults st with
  | nil => simpa [reports] using h
  | cons t schedule ih =>
    rw [reports_cons, ← List.append_assoc]
    exact ih (s.raceStep_inv h t)

theorem WriterPc.remaining_eq_zero {pc : WriterPc} :
    pc.remaining = 0 ↔ ∃ e, pc = .returned e := by
  cases pc <;> simp [WriterPc.remaining]

/-- A turn of call `j` brings it closer to its return, and a turn of another call leaves it as
it is. -/
theorem raceStep_getElem? {st : RaceState Dep} {j : Nat} {w : Writer Dep}
    (hw : st.writers[j]? = some w) (t : Turn) :
    ∃ w', (s.raceStep st t).writers[j]? = some w' ∧
      (t.writer = j → w'.pc.remaining ≤ w.pc.remaining - 1) ∧
      (t.writer ≠ j → w' = w) := by
  cases hi : st.writers[t.writer]? with
  | none =>
    exact ⟨w, by simpa [raceStep, hi] using hw, fun h => by subst h; simp_all, fun _ => rfl⟩
  | some v =>
    rw [raceStep_of_getElem? s hi]
    by_cases hij : t.writer = j
    · subst hij
      obtain rfl : v = w := Option.some.inj (hi.symm.trans hw)
      exact ⟨_, List.getElem?_set_self (List.getElem?_eq_some_iff.1 hi).1,
        fun _ => s.writerStep_remaining _ _ _, fun h => absurd rfl h⟩
    · exact ⟨w, by rwa [List.getElem?_set_ne hij], fun h => absurd h hij, fun _ => rfl⟩

/-- Each turn the schedule gives a call brings it one request closer to its return. -/
theorem raceRun_remaining (schedule : List Turn) {st : RaceState Dep} {j : Nat} {w : Writer Dep}
    (hw : st.writers[j]? = some w) :
    ∃ w', (s.raceRun st schedule).writers[j]? = some w' ∧
      w'.pc.remaining ≤ w.pc.remaining - (schedule.map Turn.writer).count j := by
  induction schedule generalizing st w with
  | nil => exact ⟨w, hw, by simp⟩
  | cons t schedule ih =>
    obtain ⟨w₁, hw₁, hself, hother⟩ := s.raceStep_getElem? hw t
    obtain ⟨w', hw', hle⟩ := ih hw₁
    refine ⟨w', hw', ?_⟩
    rw [List.map_cons, List.count_cons]
    by_cases hij : t.writer = j
    · have := hself hij
      simp only [hij, beq_self_eq_true, if_true]
      omega
    · rw [hother hij] at hle
      simpa [hij] using hle

/-- Once every call has returned, no schedule changes anything. -/
theorem raceRun_all_returned {st : RaceState Dep}
    (h : ∀ w ∈ st.writers, w.pc.remaining = 0) (schedule : List Turn) :
    s.raceRun st schedule = st := by
  induction schedule with
  | nil => rfl
  | cons t schedule ih =>
    rw [raceRun_cons]
    suffices hstep : s.raceStep st t = st by rw [hstep, ih]
    cases hi : st.writers[t.writer]? with
    | none => simp [raceStep, hi]
    | some w =>
      obtain ⟨e, he⟩ := WriterPc.remaining_eq_zero.1 (h w (List.getElem?_mem hi))
      rw [raceStep_of_getElem? s hi, show s.writerStep st.cluster w t.fault = (st.cluster, w) by
        simp [writerStep, he], set_of_getElem?_eq hi]

/-! ### The race on a new index -/

/-- **A creation race loses a batch.** Two `WriteDependencies` calls for instants of the same
day, on the daily store with no index yet. When both existence checks run before either
`CreateIndex` (the turns `0, 1, 0, 1`, the client answering), the second `CreateIndex` is
refused and its call returns `resource_already_exists_exception`; the first call hands its batch
over and returns `nil`. Whatever turns follow, the cluster holds the first batch alone. -/
theorem writeDependencies_race_loses_batch (rest : List Turn) :
    dailyDependencyStore.raceRun (.start .empty [(1, ["a"]), (2, ["b"])])
        (answered [0, 1, 0, 1, 0] ++ rest) =
      ⟨⟨["jaeger-dependencies-"], [("jaeger-dependencies-", ⟨1, ["a"]⟩)]⟩,
        [⟨1, ["a"], .returned none⟩,
          ⟨2, ["b"], .returned (some "resource_already_exists_exception")⟩]⟩ := by
  rw [raceRun_append]
  exact raceRun_all_returned _ (by decide) rest

end DependencyStore

end JaegerEsIndex
