import JaegerEsIndex.DependencyRace

namespace JaegerEsIndex

/-!
# When `CreateIndex` is refused

`createIndex` checks that the write index exists and, when it does not, creates it. Another call
can create the index between that check and `CreateIndex`; `CreateIndex` is then refused, and
the call returns the refusal without handing its batch over. This module says when that
happens, over every interleaving and whatever requests the client fails:

* `writerStep_refused` — a request is refused only at `CreateIndex`, on an index that exists;
* `NoRefusal`, `raceRun_noRefusal` — when the calls write to pairwise distinct indices, every
  call that is about to make `CreateIndex` still finds its index missing, whatever the schedule,
  and every call that returned an error returned one the client reported to it;
* `interleavings_distinct_indices_keep_all_batches` — so a schedule that names every call three
  times leaves every call returned, with `nil` or with such an error; when the client answers
  every request, every call returns `nil` and every batch is in the cluster, once;
* `shared_index_refused` — conversely, two calls writing to one missing index whose existence
  checks both run before either `CreateIndex`: the second is refused, and stays so.
-/

namespace DependencyStore

variable (s : DependencyStore) {Dep : Type}

/-! ### What one request does to the indices -/

/-- A request adds no index but the call's own write index. -/
theorem writerStep_indices_subset (c : Cluster (TimeDependencies Dep)) (w : Writer Dep)
    (f : Option String) {n : String} (hn : n ∈ (s.writerStep c w f).1.indices) :
    n ∈ c.indices ∨ n = s.getWriteIndex w.ts := by
  rcases s.writerStep_cases c w f with ⟨-, h⟩ | ⟨-, -, -, -, h⟩ | ⟨-, -, -, h⟩ |
    ⟨-, -, -, h⟩ | ⟨-, h⟩ | ⟨e, -, h⟩ | ⟨err, -, -, h⟩ <;> simp_all [Cluster.mem_index_indices]

/-- A call reaches `CreateIndex` only from an existence check that found its index missing, and
that check leaves the cluster as it is. -/
theorem writerStep_reaches_createIndex (c : Cluster (TimeDependencies Dep)) (w : Writer Dep)
    (f : Option String) (h : (s.writerStep c w f).2.pc = .createIndex) :
    s.getWriteIndex w.ts ∉ c.indices ∧ (s.writerStep c w f).1 = c := by
  rcases s.writerStep_cases c w f with ⟨-, hs⟩ | ⟨-, -, -, hx, hs⟩ | ⟨-, -, -, hs⟩ |
    ⟨-, -, -, hs⟩ | ⟨-, hs⟩ | ⟨e, hpc, hs⟩ | ⟨err, -, -, hs⟩ <;> simp_all

/-- A request is refused only at `CreateIndex`, on an index that exists; otherwise a call
returns an error only when the client fails its request with it. -/
theorem writerStep_refused (c : Cluster (TimeDependencies Dep)) (w : Writer Dep)
    (f : Option String) {err : String} (h : (s.writerStep c w f).2.pc = .returned (some err)) :
    w.pc = .returned (some err) ∨ (w.pc = .createIndex ∧ s.getWriteIndex w.ts ∈ c.indices) ∨
      f = some err := by
  rcases s.writerStep_cases c w f with ⟨-, hs⟩ | ⟨-, -, -, -, hs⟩ | ⟨hpc, -, hx, -⟩ |
    ⟨-, -, -, hs⟩ | ⟨-, hs⟩ | ⟨e, -, hs⟩ | ⟨e, hf, -, hs⟩ <;> simp_all

/-! ### Distinct write indices -/

/-- What a schedule keeps when the calls write to pairwise distinct indices, given the errors
`faults` the client has reported so far: every call about to make `CreateIndex` finds its index
missing, and every call that returned an error was reported it by the client. -/
structure NoRefusal (faults : List (Nat × String)) (st : RaceState Dep) : Prop where
  distinct : (st.writers.map fun w => s.getWriteIndex w.ts).Nodup
  fresh : ∀ w ∈ st.writers, w.pc = .createIndex → s.getWriteIndex w.ts ∉ st.cluster.indices
  reported : ∀ i w, st.writers[i]? = some w → ∀ err, w.pc = .returned (some err) →
    (i, err) ∈ faults

variable {s}

theorem start_noRefusal (c₀ : Cluster (TimeDependencies Dep)) {calls : List (Int × List Dep)}
    (hd : (calls.map fun call => s.getWriteIndex call.1).Nodup) (faults : List (Nat × String)) :
    s.NoRefusal faults (.start c₀ calls) where
  distinct := by simpa [RaceState.start, Function.comp_def] using hd
  fresh w hw hpc := by
    obtain ⟨_, _, rfl⟩ := List.mem_map.1 hw
    cases hpc
  reported _ w hw err hpc := by
    obtain ⟨_, _, rfl⟩ := List.mem_map.1 (List.getElem?_mem hw)
    cases hpc

/-- One turn keeps `NoRefusal`, with the error it reports added to the faults. The stepped call
adds no index but its own, which no other call writes to; a call that reaches `CreateIndex` has
just found its index missing; and a refusal would need the stepped call's index to exist at
`CreateIndex`. -/
theorem raceStep_noRefusal {faults : List (Nat × String)} {st : RaceState Dep}
    (h : s.NoRefusal faults st) (t : Turn) :
    s.NoRefusal (faults ++ t.reported.toList) (s.raceStep st t) := by
  cases hw : st.writers[t.writer]? with
  | none =>
    simp only [raceStep, hw]
    exact ⟨h.distinct, h.fresh, fun i v hv err hpc =>
      List.mem_append_left _ (h.reported i v hv err hpc)⟩
  | some w =>
    rw [raceStep_of_getElem? s hw]
    have hwmem := List.getElem?_mem hw
    have hts := (s.writerStep_call st.cluster w t.fault).1
    have hdistinct : ((st.writers.set t.writer (s.writerStep st.cluster w t.fault).2).map
        fun v => s.getWriteIndex v.ts).Nodup := by
      rw [map_set_of_eq hw _ (by rw [hts])]
      exact h.distinct
    have hself : (s.writerStep st.cluster w t.fault).2 ∈
        st.writers.set t.writer (s.writerStep st.cluster w t.fault).2 :=
      List.mem_set _ _ (List.getElem?_eq_some_iff.1 hw).1 _
    refine ⟨hdistinct, fun v hv hpc => ?_, fun i v hv err hpc => ?_⟩
    · by_cases hsame : s.getWriteIndex v.ts = s.getWriteIndex w.ts
      · -- the only call on that index is the stepped one, which just found it missing
        obtain rfl := List.inj_on_of_nodup_map hdistinct hv hself (by rw [hsame, hts])
        obtain ⟨hmissing, hc⟩ := s.writerStep_reaches_createIndex st.cluster w t.fault hpc
        rw [hc, hts]
        exact hmissing
      · -- any other call at `CreateIndex` was there before, and its index was not added
        rcases List.mem_or_eq_of_mem_set hv with hold | rfl
        · intro hn
          rcases s.writerStep_indices_subset st.cluster w t.fault hn with hn | hn
          · exact h.fresh v hold hpc hn
          · exact hsame hn
        · exact absurd (by rw [hts]) hsame
    · rcases getElem?_set_eq_some hv with ⟨rfl, rfl⟩ | ⟨-, hv⟩
      · -- the stepped call: an earlier error, or one the client reported in this turn
        rcases s.writerStep_refused st.cluster w t.fault hpc with hret | ⟨hcreate, hx⟩ | hf
        · exact List.mem_append_left _ (h.reported _ w hw err hret)
        · exact absurd hx (h.fresh w hwmem hcreate)
        · exact List.mem_append_right _ (by simp [Turn.reported, hf])
      · exact List.mem_append_left _ (h.reported i v hv err hpc)

theorem raceRun_noRefusal {faults : List (Nat × String)} {st : RaceState Dep}
    (h : s.NoRefusal faults st) (schedule : List Turn) :
    s.NoRefusal (faults ++ reports schedule) (s.raceRun st schedule) := by
  induction schedule generalizing faults st with
  | nil => simpa [reports] using h
  | cons t schedule ih =>
    rw [reports_cons, ← List.append_assoc]
    exact ih (raceStep_noRefusal h t)

/-- After a schedule naming each call three times, every call has returned. -/
theorem raceRun_returned_all (c₀ : Cluster (TimeDependencies Dep))
    (calls : List (Int × List Dep)) {schedule : List Turn}
    (hcount : ∀ i < calls.length, 3 ≤ (schedule.map Turn.writer).count i) :
    ∀ w ∈ (s.raceRun (.start c₀ calls) schedule).writers, ∃ e, w.pc = .returned e := by
  intro w hw
  obtain ⟨n, hn⟩ := List.mem_iff_getElem?.1 hw
  have hlen : n < calls.length := by
    rw [← (s.raceRun_inv (s.start_inv c₀ calls []) schedule).calls_eq, List.length_map]
    exact (List.getElem?_eq_some_iff.1 hn).1
  obtain ⟨w', hw', hle⟩ := s.raceRun_remaining schedule
    (show (RaceState.start c₀ calls).writers[n]? = some ⟨calls[n].1, calls[n].2, .checkExists⟩ by
      simp [RaceState.start, hlen])
  obtain rfl : w' = w := Option.some.inj (hw'.symm.trans hn)
  have := hcount n hlen
  exact WriterPc.remaining_eq_zero.1 (by change w'.pc.remaining ≤ 3 - _ at hle; omega)

/-- A schedule that names every call three times, after which no call has returned an error,
leaves every call returned with `nil` and every batch in the cluster, once, in its call's write
index. -/
theorem raceRun_all_nil (c₀ : Cluster (TimeDependencies Dep)) (calls : List (Int × List Dep))
    {schedule : List Turn} (hcount : ∀ i < calls.length, 3 ≤ (schedule.map Turn.writer).count i)
    (hno : ∀ w ∈ (s.raceRun (.start c₀ calls) schedule).writers, ∀ err,
      w.pc ≠ .returned (some err)) :
    (s.raceRun (.start c₀ calls) schedule).writers =
        calls.map (fun call => ⟨call.1, call.2, .returned none⟩) ∧
      (s.raceRun (.start c₀ calls) schedule).cluster.docs.Perm
        (c₀.docs ++ calls.map fun call => (s.getWriteIndex call.1, ⟨call.1, call.2⟩)) := by
  have hinv := s.raceRun_inv (s.start_inv c₀ calls []) schedule
  have hnil : ∀ w ∈ (s.raceRun (.start c₀ calls) schedule).writers, w.pc = .returned none :=
    fun w hw => by
      obtain ⟨e | err, he⟩ := s.raceRun_returned_all c₀ calls hcount w hw
      · exact he
      · exact absurd he (hno w hw err)
  set st := s.raceRun (.start c₀ calls) schedule
  have hwriters : st.writers = calls.map (fun call => ⟨call.1, call.2, .returned none⟩) := by
    rw [← hinv.calls_eq, List.map_map]
    conv_lhs => rw [← List.map_id st.writers]
    exact List.map_congr_left fun w hw => by
      rcases w with ⟨ts, dependencies, pc⟩
      simpa using hnil _ hw
  refine ⟨hwriters, hinv.docs_perm.trans (.of_eq ?_)⟩
  rw [hwriters]
  simp only [submitted, entry, List.filterMap_map, Function.comp_def, if_true]
  exact congrArg (c₀.docs ++ ·) (congrFun (List.filterMap_eq_map _) calls)

/-- **Distinct write indices: no batch lost, over every interleaving.** When the calls write to
pairwise distinct indices (batches of different days, say), `CreateIndex` is never refused:
whatever the schedule and whatever requests the client fails, as soon as the schedule has named
every call three times, every call has returned, with `nil` or with an error the client
reported to it. When the client answered every request, every call has returned `nil` and the
cluster holds the documents it started with and every batch, each once. -/
theorem interleavings_distinct_indices_keep_all_batches (c₀ : Cluster (TimeDependencies Dep))
    (calls : List (Int × List Dep)) (hd : (calls.map fun call => s.getWriteIndex call.1).Nodup)
    (schedule : List Turn)
    (hcount : ∀ i < calls.length, 3 ≤ (schedule.map Turn.writer).count i) :
    (∀ i w, (s.raceRun (.start c₀ calls) schedule).writers[i]? = some w → w.pc = .returned none ∨
      ∃ err, w.pc = .returned (some err) ∧ (i, err) ∈ reports schedule) ∧
    (reports schedule = [] →
      (s.raceRun (.start c₀ calls) schedule).writers =
          calls.map (fun call => ⟨call.1, call.2, .returned none⟩) ∧
        (s.raceRun (.start c₀ calls) schedule).cluster.docs.Perm
          (c₀.docs ++ calls.map fun call => (s.getWriteIndex call.1, ⟨call.1, call.2⟩))) := by
  have hno := raceRun_noRefusal (start_noRefusal c₀ hd []) schedule
  refine ⟨fun i w hw => ?_,
    fun hans => raceRun_all_nil c₀ calls hcount fun w hw err hpc => ?_⟩
  · obtain ⟨e | err, he⟩ := raceRun_returned_all c₀ calls hcount w (List.getElem?_mem hw)
    · exact .inl he
    · exact .inr ⟨err, he, hno.reported i w hw err he⟩
  · obtain ⟨i, hi⟩ := List.mem_iff_getElem?.1 hw
    simpa [hans] using hno.reported i w hi err hpc

theorem interleavings_distinct_indices_keep_all_batches_daily :
    ([((1 : Int), ["a"]), (86400000000001, ["b"])].map fun call =>
        dailyDependencyStore.getWriteIndex call.1).Nodup ∧
      (∀ i < [((1 : Int), ["a"]), (86400000000001, ["b"])].length,
        3 ≤ ((answered [0, 1, 0, 1, 0, 1]).map Turn.writer).count i) ∧
      reports (answered [0, 1, 0, 1, 0, 1]) = [] ∧
      (dailyDependencyStore.raceRun (.start .empty [((1 : Int), ["a"]), (86400000000001, ["b"])])
          (answered [0, 1, 0, 1, 0, 1])).writers =
        [((1 : Int), ["a"]), (86400000000001, ["b"])].map
          (fun call => ⟨call.1, call.2, .returned none⟩) ∧
      (dailyDependencyStore.raceRun (.start .empty [((1 : Int), ["a"]), (86400000000001, ["b"])])
          (answered [0, 1, 0, 1, 0, 1])).cluster.docs.Perm
        ((Cluster.empty : Cluster (TimeDependencies String)).docs ++
          [((1 : Int), ["a"]), (86400000000001, ["b"])].map
            fun call => (dailyDependencyStore.getWriteIndex call.1, ⟨call.1, call.2⟩)) :=
  ⟨by decide, by decide, rfl,
    (interleavings_distinct_indices_keep_all_batches .empty _ (by decide) _ (by decide)).2 rfl⟩

/-! ### A shared missing index -/

/-- A call that has returned stays as it is, whatever is scheduled. -/
theorem raceRun_returned {st : RaceState Dep} {j : Nat} {w : Writer Dep}
    (hw : st.writers[j]? = some w) {e : Option String} (he : w.pc = .returned e)
    (schedule : List Turn) : (s.raceRun st schedule).writers[j]? = some w := by
  induction schedule generalizing st with
  | nil => exact hw
  | cons t schedule ih =>
    refine ih ?_
    cases hi : st.writers[t.writer]? with
    | none => simpa [raceStep, hi] using hw
    | some v =>
      rw [raceStep_of_getElem? s hi]
      by_cases hij : t.writer = j
      · rw [hij] at hi ⊢
        obtain rfl : v = w := Option.some.inj (hi.symm.trans hw)
        rw [show s.writerStep st.cluster v t.fault = (st.cluster, v) by simp [writerStep, he],
          set_of_getElem?_eq hi]
        exact hw
      · rwa [List.getElem?_set_ne hij]

/-- **Two calls on one missing index.** For every store without aliases, every cluster and every
list of calls: when the calls at positions `i ≠ j` write to the same index, missing from the
cluster, and both existence checks run before either `CreateIndex` (the turns `i, j, i, j`, the
client answering), the call at `j` returns `resource_already_exists_exception`, and keeps that
result whatever is scheduled afterwards: its batch is never handed over. -/
theorem shared_index_refused (hrw : s.useReadWriteAliases = false)
    (c₀ : Cluster (TimeDependencies Dep)) (calls : List (Int × List Dep)) (i j : Nat)
    (hi : i < calls.length) (hj : j < calls.length) (hij : i ≠ j)
    (hsame : s.getWriteIndex calls[i].1 = s.getWriteIndex calls[j].1)
    (hmissing : s.getWriteIndex calls[i].1 ∉ c₀.indices) (rest : List Turn) :
    (s.raceRun (.start c₀ calls) (answered [i, j, i, j] ++ rest)).writers[j]? =
      some ⟨calls[j].1, calls[j].2, .returned (some "resource_already_exists_exception")⟩ := by
  rw [raceRun_append]
  refine raceRun_returned ?_ rfl rest
  have hji : j ≠ i := Ne.symm hij
  have hmissing' : s.getWriteIndex calls[j].1 ∉ c₀.indices := hsame ▸ hmissing
  simp [raceRun, answered, raceStep, RaceState.start, writerStep, hrw, withFault,
    Cluster.indexExists, Cluster.createIndex, hi, hj, hij, hji, hmissing, hmissing',
    List.getElem?_set_ne, hsame]

theorem shared_index_refused_daily :
    dailyDependencyStore.useReadWriteAliases = false ∧
      0 < [((1 : Int), ["a"]), (2, ["b"])].length ∧ 1 < [((1 : Int), ["a"]), (2, ["b"])].length ∧
      (0 : Nat) ≠ 1 ∧
      dailyDependencyStore.getWriteIndex 1 = dailyDependencyStore.getWriteIndex 2 ∧
      dailyDependencyStore.getWriteIndex 1 ∉ (Cluster.empty : Cluster (TimeDependencies String)).indices ∧
      (dailyDependencyStore.raceRun (.start .empty [((1 : Int), ["a"]), (2, ["b"])])
          (answered [0, 1, 0, 1] ++ [])).writers[1]? =
        some ⟨2, ["b"], .returned (some "resource_already_exists_exception")⟩ :=
  ⟨rfl, by decide, by decide, by decide, by decide, by decide,
    shared_index_refused rfl .empty [((1 : Int), ["a"]), (2, ["b"])] 0 1
      (by decide) (by decide) (by decide) (by decide) (by decide) []⟩

end DependencyStore

end JaegerEsIndex
