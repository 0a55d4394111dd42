import JaegerEsIndex.Config
import Mathlib.Data.Int.Defs
import Mathlib.Data.List.Nodup
import Mathlib.Data.Nat.Find
import Mathlib.Order.Basic
import Mathlib.Tactic.Ring

namespace JaegerEsIndex

/-!
# The backward date walk of the read-plan builders

`SamplingStore.getReadIndices` and `DependencyStore.getReadIndices` run the same loop: start
from the name of the range's end, append it, step the cursor by a fixed duration, and stop
once the name under the cursor is the name of the range's start, which is appended last. The
two stores only differ in the step they feed it (`r` against `-r`). `readWalk` is that loop,
on `fuel`; a run that has not reached the start's name when the fuel is spent is `none`.

* `readWalk_first_hit` — the loop's exact output once the cursor first lands on the start's
  name; `readWalk_eq_none` — a cursor that never lands there runs forever;
* `readWalk_prefix` — a shared prefix in front of every name commutes with the walk;
* `NamesPeriods` — a naming function that tells instants apart by rollover period exactly;
* `exists_first_period` — a cursor that moves down by at most one period at a time reaches
  every earlier period, and a first time; `walk_period` — with a step of exactly `-P` the
  `i`-th cursor sits in period `e - i`.
-/

/-! ### The loop -/

section Walk

variable (name : Int → String) (first : String) (step : Int)

/-- The `for currentIndex != firstIndex` loop of the read-plan builders, from `cursor`. -/
def readWalk : Nat → Int → Option (List String)
  | 0, _ => none
  | fuel + 1, cursor =>
    if name cursor = first then some [first]
    else (readWalk fuel (cursor + step)).map (name cursor :: ·)

variable {name first step}

/-- The cursor after `i + 1` steps is the cursor after one step, moved `i` steps more. -/
theorem cursor_succ (cursor step : Int) (i : Nat) :
    cursor + step + i * step = cursor + ((i + 1 : Nat) : Int) * step := by
  push_cast; ring

/-- Fuel is only a bound: a walk that finished keeps its result under more fuel. -/
theorem readWalk_mono {fuel : Nat} {cursor : Int} {plan : List String}
    (h : readWalk name first step fuel cursor = some plan) (extra : Nat) :
    readWalk name first step (fuel + extra) cursor = some plan := by
  induction fuel generalizing cursor plan with
  | zero => simp [readWalk] at h
  | succ fuel ih =>
    rw [Nat.add_right_comm, readWalk]
    rw [readWalk] at h
    split at h
    · simp_all
    · obtain ⟨rest, hrest, rfl⟩ := Option.map_eq_some'.1 h
      simp [*, ih hrest]

/-- **The walk's output.** If the `k`-th cursor is the first whose name is `first`, the walk
emits the names of the `k` cursors before it, then `first`. -/
theorem readWalk_first_hit (k : Nat) (cursor : Int)
    (hmiss : ∀ i < k, name (cursor + i * step) ≠ first)
    (hhit : name (cursor + k * step) = first) :
    readWalk name first step (k + 1) cursor =
      some ((List.range k).map (fun i : Nat => name (cursor + i * step)) ++ [first]) := by
  induction k generalizing cursor with
  | zero => simp_all [readWalk]
  | succ k ih =>
    have h0 : name cursor ≠ first := by simpa using hmiss 0 (Nat.succ_pos k)
    rw [readWalk, if_neg h0, ih (cursor + step)
      (fun i hi => cursor_succ cursor step i ▸ hmiss (i + 1) (by omega))
      (cursor_succ cursor step k ▸ hhit)]
    simp [List.range_succ_eq_map, cursor_succ]

/-- A cursor that never lands on `first` keeps the loop running whatever the fuel. -/
theorem readWalk_eq_none {cursor : Int} (h : ∀ i : Nat, name (cursor + i * step) ≠ first)
    (fuel : Nat) : readWalk name first step fuel cursor = none := by
  induction fuel generalizing cursor with
  | zero => rfl
  | succ fuel ih =>
    have h0 : name cursor ≠ first := by simpa using h 0
    simp [readWalk, h0, ih (fun i => cursor_succ cursor step i ▸ h (i + 1))]

/-- A prefix in front of every name (and of `first`) is carried through the walk. -/
theorem readWalk_prefix (pre : String) (format : Int → String) (fuel : Nat) (cursor : Int) :
    readWalk (fun t => pre ++ format t) (pre ++ first) step fuel cursor =
      (readWalk format first step fuel cursor).map (List.map (pre ++ ·)) := by
  induction fuel generalizing cursor with
  | zero => rfl
  | succ fuel ih =>
    have hcancel : pre ++ format cursor = pre ++ first ↔ format cursor = first := by
      simp only [String.ext_iff, String.data_append, List.append_cancel_left_eq]
    by_cases h : format cursor = first
    · simp [readWalk, h]
    · simp [readWalk, h, hcancel, ih, Option.map_map, Function.comp_def]

end Walk

/-! ### The latest-index locator's loop -/

/-- What one run of the latest-index locator did: the names whose existence it checked, in
order, and what `getLatestIndices` returned. -/
structure Scan where
  checked : List String
  result : Except String (List String)

section Locate

variable (name : Int → String) (indexExists : String → Except String Bool)
  (earliestIndex : String) (step : Int)

/-- The `for` loop of `SamplingStore.getLatestIndices`, from the instant `now`: check the name
under the cursor, return it if its index exists, give up at `earliestIndex`, else step. -/
def latestWalk : Nat → Int → Option Scan
  | 0, _ => none
  | fuel + 1, now =>
    match indexExists (name now) with
    | .error err => some ⟨[name now], .error ("failed to check index existence: " ++ err)⟩
    | .ok true => some ⟨[name now], .ok [name now]⟩
    | .ok false =>
      if name now = earliestIndex then some ⟨[name now], .error "falied to find latest index"⟩
      else (latestWalk fuel (now + step)).map fun scan => { scan with checked := name now :: scan.checked }

variable {name indexExists earliestIndex step}

/-- Fuel is only a bound for the locator too. -/
theorem latestWalk_mono {fuel : Nat} {now : Int} {scan : Scan}
    (h : latestWalk name indexExists earliestIndex step fuel now = some scan) (extra : Nat) :
    latestWalk name indexExists earliestIndex step (fuel + extra) now = some scan := by
  induction fuel generalizing now scan with
  | zero => simp [latestWalk] at h
  | succ fuel ih =>
    rw [Nat.add_right_comm, latestWalk]
    rw [latestWalk] at h
    split at h
    · simp_all
    · simp_all
    · split at h
      · simp_all
      · obtain ⟨rest, hrest, rfl⟩ := Option.map_eq_some'.1 h
        simp [*, ih hrest]

/-- **The locator's run.** With an error-free existence check `exists`, if the `k`-th cursor is
the first at which the loop stops (its index exists, or it is `earliestIndex`), the run checks
the names of cursors `0, …, k` and returns the `k`-th name or the not-found error. -/
theorem latestWalk_first_stop (ex : String → Bool) (k : Nat) (now : Int)
    (hgo : ∀ i < k, ex (name (now + i * step)) = false ∧ name (now + i * step) ≠ earliestIndex)
    (hstop : ex (name (now + k * step)) = true ∨ name (now + k * step) = earliestIndex) :
    latestWalk name (fun n => .ok (ex n)) earliestIndex step (k + 1) now =
      some ⟨(List.range (k + 1)).map (fun i : Nat => name (now + i * step)),
        if ex (name (now + k * step)) then .ok [name (now + k * step)]
        else .error "falied to find latest index"⟩ := by
  induction k generalizing now with
  | zero =>
    simp only [Nat.cast_zero, zero_mul, add_zero] at hstop
    rcases hex : ex (name now) with _ | _ <;> simp_all [latestWalk, List.range_succ]
  | succ k ih =>
    obtain ⟨hex0, hne0⟩ : ex (name now) = false ∧ name now ≠ earliestIndex := by
      simpa using hgo 0 (Nat.succ_pos k)
    rw [latestWalk, hex0]
    simp only [if_neg hne0]
    rw [ih (now + step) (fun i hi => cursor_succ now step i ▸ hgo (i + 1) (by omega))
      (cursor_succ now step k ▸ hstop)]
    simp [List.range_succ_eq_map (k + 1), cursor_succ]

end Locate

/-! ### Rollover periods -/

/-- `name` tells instants apart exactly by their rollover period of length `P`: two instants
get one name when, and only when, `t / P` is the same for both. -/
def NamesPeriods (name : Int → String) (P : Int) : Prop :=
  ∀ t t', name t = name t' ↔ t / P = t' / P

/-- A prefix in front of the formatted date keeps the names period-exact. -/
theorem NamesPeriods.indexWithDate {layout : DateLayout} {P : Int}
    (h : NamesPeriods layout.format P) (indexPrefix : String) :
    NamesPeriods (indexWithDate indexPrefix layout) P := fun t t' => by
  rw [indexWithDate_eq_iff, h]

/-- A layout that writes the period index `t / P` in tally marks: one `+` per period after the
epoch's, one `-` per period before it. It names periods exactly, as the layout `2006-01-02`
does days, and stands for such layouts in the examples. -/
def DateLayout.periodTally (P : Int) : DateLayout :=
  ⟨fun t => ⟨List.replicate (t / P).toNat '+' ++ List.replicate (-(t / P)).toNat '-'⟩⟩

theorem DateLayout.periodTally_namesPeriods (P : Int) :
    NamesPeriods (DateLayout.periodTally P).format P := fun t t' => by
  constructor
  · intro h
    have h' := congrArg String.data h
    have c1 := congrArg (List.count '+') h'
    have c2 := congrArg (List.count '-') h'
    simp only [DateLayout.periodTally, List.count_append, List.count_replicate_self,
      List.count_replicate, Char.reduceBEq, Bool.false_eq_true, ↓reduceIte, add_zero,
      zero_add] at c1 c2
    omega
  · intro h
    simp only [DateLayout.periodTally, h]

section Periods

variable {P : Int}

/-- A step of at most one period down lowers the period index by zero or one. -/
theorem period_step (hP : 0 < P) {step : Int} (hlo : -P ≤ step) (hneg : step < 0)
    (t : Int) : t / P - 1 ≤ (t + step) / P ∧ (t + step) / P ≤ t / P := by
  have hdown : (t + -1 * P) / P = t / P - 1 := by
    rw [Int.add_mul_ediv_right _ _ hP.ne']; omega
  exact ⟨hdown ▸ Int.ediv_le_ediv hP (by omega), Int.ediv_le_ediv hP (by omega)⟩

/-- With a step of exactly one period down, the `i`-th cursor sits `i` periods below. -/
theorem walk_period (hP : 0 < P) (t : Int) (i : Nat) : (t + i * -P) / P = t / P - i := by
  rw [show t + i * -P = t + (-(i : Int)) * P by ring, Int.add_mul_ediv_right _ _ hP.ne']
  omega

/-- **Down-crossing.** A cursor that starts at or above the period of `s` and moves down by at
most one period per step lands in the period of `s`, and there is a first step at which it does. -/
theorem exists_first_period (hP : 0 < P) {step : Int} (hlo : -P ≤ step) (hneg : step < 0)
    {c s : Int} (hsc : s / P ≤ c / P) :
    ∃ k : Nat, (∀ i < k, s / P < (c + i * step) / P) ∧ (c + k * step) / P = s / P := by
  have hex : ∃ i : Nat, (c + i * step) / P ≤ s / P := by
    refine ⟨(c - s).toNat, Int.ediv_le_ediv hP ?_⟩
    have h0 : (0 : Int) ≤ (c - s).toNat := Int.natCast_nonneg _
    have : (c - s).toNat * step ≤ (c - s).toNat * (-1 : Int) :=
      Int.mul_le_mul_of_nonneg_left (show step ≤ -1 by omega) h0
    have := Int.self_le_toNat (c - s)
    omega
  classical
  refine ⟨Nat.find hex, fun i hi => lt_of_not_le (Nat.find_min hex hi), ?_⟩
  refine le_antisymm (Nat.find_spec hex) ?_
  cases hk : Nat.find hex with
  | zero => simpa using hsc
  | succ j =>
    have hj : s / P < (c + j * step) / P :=
      lt_of_not_le (Nat.find_min hex (by omega))
    have hstep := (period_step hP hlo hneg (c + j * step)).1
    have hcur : c + j * step + step = c + ((j + 1 : Nat) : Int) * step := by push_cast; ring
    rw [hcur] at hstep
    omega

end Periods

/-! ### Dated read plans -/

section PeriodPlans

variable {name : Int → String} {P : Int}

/-- Every instant is named like the first instant of its period. -/
theorem name_eq_period (hP : 0 < P) (hname : NamesPeriods name P) (t : Int) :
    name t = name (t / P * P) :=
  (hname _ _).2 (Int.mul_ediv_cancel _ hP.ne').symm

/-- The `i`-th cursor of a walk stepping `-P` from `t` is named like period `t / P - i`. -/
theorem name_walk (hP : 0 < P) (hname : NamesPeriods name P) (t : Int) (i : Nat) :
    name (t + i * -P) = name ((t / P - i) * P) :=
  (hname _ _).2 (by rw [walk_period hP, Int.mul_ediv_cancel _ hP.ne'])

/-- Period names are distinct: the names of periods `b` and `b'` agree only for `b = b'`. -/
theorem period_name_inj (hP : 0 < P) (hname : NamesPeriods name P) {b b' : Int}
    (h : name (b * P) = name (b' * P)) : b = b' := by
  simpa [Int.mul_ediv_cancel _ hP.ne'] using (hname _ _).1 h

/-- `plan` is the dated read plan of `[lo, hi]`: the name of every period from that of `hi`
down to that of `lo`, newest first, each once, and no other name. -/
structure IsPeriodPlan (name : Int → String) (P lo hi : Int) (plan : List String) : Prop where
  length_eq : (plan.length : Int) = hi / P - lo / P + 1
  getElem_eq : ∀ i (h : i < plan.length), plan[i] = name ((hi / P - i) * P)
  head_eq : plan.head? = some (name hi)
  getLast_eq : plan.getLast? = some (name lo)
  nodup : plan.Nodup
  mem_iff : ∀ x, x ∈ plan ↔ ∃ t, lo ≤ t ∧ t ≤ hi ∧ name t = x

/-- A read plan finds every instant of its range: one of its patterns matches the name of it. -/
theorem IsPeriodPlan.covers {lo hi : Int} {plan : List String} (h : IsPeriodPlan name P lo hi plan)
    {t : Int} (hlo : lo ≤ t) (hhi : t ≤ hi) : plan.any (matchesTarget · (name t)) = true :=
  List.any_eq_true.2 ⟨_, (h.mem_iff _).2 ⟨t, hlo, hhi, rfl⟩, matchesTarget_self _⟩

/-- Some instant of `[lo, hi]` lies in each period between those of `lo` and `hi`. -/
theorem exists_mem_period (hP : 0 < P) {lo hi b : Int} (hle : lo ≤ hi) (hlo : lo / P ≤ b)
    (hhi : b ≤ hi / P) : ∃ t, lo ≤ t ∧ t ≤ hi ∧ t / P = b := by
  have hbhi : b * P ≤ hi :=
    le_trans (Int.mul_le_mul_of_nonneg_right hhi hP.le) (Int.ediv_mul_le hi hP.ne')
  by_cases hb : b * P ≤ lo
  · exact ⟨lo, le_rfl, hle, le_antisymm hlo (Int.le_ediv_of_mul_le hP hb)⟩
  · exact ⟨b * P, by omega, hbhi, Int.mul_ediv_cancel _ hP.ne'⟩

/-- **The dated read plan.** With period-exact names and a step of exactly one period down,
the walk from `hi` to the name of `lo` stops after `hi / P - lo / P + 1` names, and what it
returns is the dated read plan of `[lo, hi]`. -/
theorem readWalk_periodPlan (hP : 0 < P) (hname : NamesPeriods name P) {lo hi : Int}
    (hle : lo ≤ hi) :
    ∃ plan, readWalk name (name lo) (-P) ((hi / P - lo / P).toNat + 1) hi = some plan ∧
      IsPeriodPlan name P lo hi plan := by
  have hdiv : lo / P ≤ hi / P := Int.ediv_le_ediv hP hle
  obtain ⟨n, hn⟩ : ∃ n : Nat, (n : Int) = hi / P - lo / P :=
    ⟨_, Int.toNat_of_nonneg (by omega)⟩
  rw [show (hi / P - lo / P).toNat = n by omega]
  have hlast : name ((hi / P - n) * P) = name lo := by
    rw [hn, sub_sub_cancel, ← name_eq_period hP hname lo]
  refine ⟨(List.range (n + 1)).map fun i : Nat => name ((hi / P - i) * P),
    ?_, ⟨?_, fun i h => by simp, ?_, ?_, ?_, fun x => ?_⟩⟩
  · rw [readWalk_first_hit _ hi
      (fun i hi' h => by rw [hname, walk_period hP] at h; omega)
      (by rw [hname, walk_period hP]; omega)]
    simp only [name_walk hP hname, List.range_succ, List.map_append, List.map_singleton, hlast]
  · simp [hn]
  · simp [List.range_succ_eq_map, ← name_eq_period hP hname]
  · simp [List.range_succ, hlast]
  · exact List.Nodup.map (fun i j h => by have := period_name_inj hP hname h; omega)
      (List.nodup_range _)
  · simp only [List.mem_map, List.mem_range]
    constructor
    · rintro ⟨i, hi', rfl⟩
      obtain ⟨t, hlo, hhi, ht⟩ := exists_mem_period (b := hi / P - i) hP hle (by omega) (by omega)
      exact ⟨t, hlo, hhi, by rw [name_eq_period hP hname t, ht]⟩
    · rintro ⟨t, hlo, hhi, rfl⟩
      have h1 := Int.ediv_le_ediv hP hlo
      have h2 := Int.ediv_le_ediv hP hhi
      refine ⟨(hi / P - t / P).toNat, by omega, ?_⟩
      rw [name_eq_period hP hname t, Int.toNat_of_nonneg (by omega), sub_sub_cancel]

/-- `scan` is what the locator owes for the periods of `[lo, hi]` under the oracle `ex`: it
checked the periods from that of `hi` downwards, each once and none below that of `lo`, and
returned the newest period whose index exists, or the not-found error when none does. -/
structure IsLatestScan (name : Int → String) (P : Int) (ex : String → Bool) (lo hi : Int)
    (scan : Scan) : Prop where
  checked_eq : scan.checked =
    (List.range scan.checked.length).map fun i : Nat => name ((hi / P - i) * P)
  checked_length_le : (scan.checked.length : Int) ≤ hi / P - lo / P + 1
  checked_nodup : scan.checked.Nodup
  result_eq :
    (∃ b, lo / P ≤ b ∧ b ≤ hi / P ∧ ex (name (b * P)) = true ∧
      (∀ b', b < b' → b' ≤ hi / P → ex (name (b' * P)) = false) ∧
      (scan.checked.length : Int) = hi / P - b + 1 ∧ scan.result = .ok [name (b * P)]) ∨
    ((∀ b, lo / P ≤ b → b ≤ hi / P → ex (name (b * P)) = false) ∧
      scan.result = .error "falied to find latest index")

/-- The locator's run stopping at the `k`-th period below that of `hi`, in period terms. -/
theorem latestWalk_stop_period (hP : 0 < P) (hname : NamesPeriods name P) (ex : String → Bool)
    (lo hi : Int) (k : Nat)
    (hgo : ∀ i < k, ex (name ((hi / P - i) * P)) = false ∧ hi / P - i ≠ lo / P)
    (hstop : ex (name ((hi / P - k) * P)) = true ∨ hi / P - k = lo / P) :
    latestWalk name (fun n => .ok (ex n)) (name lo) (-P) (k + 1) hi =
      some ⟨(List.range (k + 1)).map (fun i : Nat => name ((hi / P - i) * P)),
        if ex (name ((hi / P - k) * P)) then .ok [name ((hi / P - k) * P)]
        else .error "falied to find latest index"⟩ := by
  have hlo : ∀ b : Int, name (b * P) = name lo ↔ b = lo / P := fun b => by
    rw [hname, Int.mul_ediv_cancel _ hP.ne']
  rw [latestWalk_first_stop ex k hi (fun i hi' => by
      rw [name_walk hP hname, ne_eq, hlo]; exact hgo i hi')
    (by rw [name_walk hP hname, hlo]; exact hstop)]
  simp only [name_walk hP hname]

/-- **The locator over periods.** With period-exact names, a step of exactly one period down
and an error-free oracle, the run from `hi` with `earliestIndex` the name of `lo ≤ hi` stops
within `hi / P - lo / P + 1` checks, and its scan is the one `IsLatestScan` describes. -/
theorem latestWalk_latestScan (hP : 0 < P) (hname : NamesPeriods name P) (ex : String → Bool)
    {lo hi : Int} (hle : lo ≤ hi) :
    ∃ scan, latestWalk name (fun n => .ok (ex n)) (name lo) (-P)
        ((hi / P - lo / P).toNat + 1) hi = some scan ∧ IsLatestScan name P ex lo hi scan := by
  have hdiv : lo / P ≤ hi / P := Int.ediv_le_ediv hP hle
  obtain ⟨n, hn⟩ : ∃ n : Nat, (n : Int) = hi / P - lo / P :=
    ⟨_, Int.toNat_of_nonneg (by omega)⟩
  rw [show (hi / P - lo / P).toNat = n by omega]
  have hnodup : ∀ m : Nat, ((List.range m).map fun i : Nat => name ((hi / P - i) * P)).Nodup :=
    fun m => List.Nodup.map (fun i j h => by have := period_name_inj hP hname h; omega)
      (List.nodup_range _)
  -- a period `b` of the window is the `(hi / P - b)`-th one going down
  have hback : ∀ b : Int, b ≤ hi / P → (b : Int) = hi / P - ((hi / P - b).toNat : Nat) :=
    fun b hb => by rw [Int.toNat_of_nonneg (by omega), sub_sub_cancel]
  classical
  by_cases hfound : ∃ i : Nat, i ≤ n ∧ ex (name ((hi / P - i) * P)) = true
  · -- the newest existing period is the first one found going down
    obtain ⟨hkn, hkex⟩ := Nat.find_spec hfound
    have hmin : ∀ i < Nat.find hfound, ex (name ((hi / P - i) * P)) = false := fun i hi' => by
      simpa using fun h => Nat.find_min hfound hi' ⟨by omega, h⟩
    have hrun := latestWalk_stop_period hP hname ex lo hi (Nat.find hfound)
      (fun i hi' => ⟨hmin i hi', by omega⟩) (.inl hkex)
    rw [if_pos hkex] at hrun
    have hmono := latestWalk_mono hrun (n - Nat.find hfound)
    rw [show Nat.find hfound + 1 + (n - Nat.find hfound) = n + 1 by omega] at hmono
    refine ⟨_, hmono, ⟨by rw [List.length_map, List.length_range],
        by rw [List.length_map, List.length_range]; omega, hnodup _,
        .inl ⟨hi / P - Nat.find hfound, by omega, by omega, hkex, fun b' hb' hb'' => ?_, by simp,
          rfl⟩⟩⟩
    rw [hback b' hb'']
    exact hmin _ (by omega)
  · -- no period of the window has an index: the run ends at the name of `lo`
    push_neg at hfound
    have hnone : ∀ i ≤ n, ex (name ((hi / P - i) * P)) = false := fun i hi' => by
      simpa using hfound i hi'
    have hrun := latestWalk_stop_period hP hname ex lo hi n
      (fun i hi' => ⟨hnone i hi'.le, by omega⟩) (.inr (by omega))
    rw [if_neg (by simp [hnone n le_rfl])] at hrun
    refine ⟨_, hrun, ⟨by rw [List.length_map, List.length_range],
        by rw [List.length_map, List.length_range]; omega, hnodup _,
        .inr ⟨fun b hb hb' => ?_, rfl⟩⟩⟩
    rw [hback b hb']
    exact hnone _ (by omega)

/-- **Termination of the read walk.** A walk stepping down by at most one period, from an
instant at or after `lo`, reaches the name of `lo` and stops. -/
theorem readWalk_terminates (hP : 0 < P) (hname : NamesPeriods name P) {step : Int}
    (hlo : -P ≤ step) (hneg : step < 0) {lo hi : Int} (hle : lo ≤ hi) :
    ∃ fuel plan, readWalk name (name lo) step fuel hi = some plan := by
  obtain ⟨k, hmiss, hhit⟩ := exists_first_period hP hlo hneg (Int.ediv_le_ediv hP hle)
  exact ⟨k + 1, _, readWalk_first_hit k hi
    (fun i hi' h => (hmiss i hi').ne' ((hname _ _).1 h)) ((hname _ _).2 hhit)⟩

/-- **Termination of the locator.** Under an error-free oracle, a locator stepping down by at
most one period from `hi` stops at the latest at the name of `lo ≤ hi`. -/
theorem latestWalk_terminates (hP : 0 < P) (hname : NamesPeriods name P) (ex : String → Bool)
    {step : Int} (hlo : -P ≤ step) (hneg : step < 0) {lo hi : Int} (hle : lo ≤ hi) :
    ∃ fuel scan, latestWalk name (fun n => .ok (ex n)) (name lo) step fuel hi = some scan := by
  obtain ⟨k, -, hhit⟩ := exists_first_period hP hlo hneg (Int.ediv_le_ediv hP hle)
  have hstops : ∃ j : Nat, ex (name (hi + j * step)) = true ∨ name (hi + j * step) = name lo :=
    ⟨k, .inr ((hname _ _).2 hhit)⟩
  classical
  refine ⟨Nat.find hstops + 1, _,
    latestWalk_first_stop ex _ hi (fun i hi' => ?_) (Nat.find_spec hstops)⟩
  simpa [not_or] using Nat.find_min hstops hi'

/-- A walk whose cursor never moves down (a step `≥ 0`), from a period above that of `lo`,
never reaches the name of `lo`: the loop runs forever. -/
theorem readWalk_eq_none_of_rising (hP : 0 < P) (hname : NamesPeriods name P) {step : Int}
    (hstep : 0 ≤ step) {lo hi : Int} (hlt : lo / P < hi / P) (fuel : Nat) :
    readWalk name (name lo) step fuel hi = none :=
  readWalk_eq_none (fun i h => by
    have := Int.ediv_le_ediv hP
      (le_add_of_nonneg_right (Int.mul_nonneg (Int.natCast_nonneg i) hstep) : hi ≤ hi + i * step)
    rw [hname] at h
    omega) fuel

/-- A walk whose cursor never moves up (a step `≤ 0`), from a period below that of `lo`, never
reaches the name of `lo`: an inverted range runs forever. -/
theorem readWalk_eq_none_of_falling (hP : 0 < P) (hname : NamesPeriods name P) {step : Int}
    (hstep : step ≤ 0) {lo hi : Int} (hlt : hi / P < lo / P) (fuel : Nat) :
    readWalk name (name lo) step fuel hi = none :=
  readWalk_eq_none (fun i h => by
    have := Int.ediv_le_ediv hP (add_le_of_nonpos_right
      (Int.mul_nonpos_of_nonneg_of_nonpos (Int.natCast_nonneg i) hstep) : hi + i * step ≤ hi)
    rw [hname] at h
    omega) fuel

/-- A walk whose step jumps more than one period down skips a period: from `0` it passes over
the period of `-P` and never reaches its name. -/
theorem readWalk_eq_none_of_skipping (hP : 0 < P) (hname : NamesPeriods name P) {step : Int}
    (hstep : step < -P) (fuel : Nat) : readWalk name (name (-P)) step fuel 0 = none :=
  readWalk_eq_none (fun i h => by
    rw [hname, ← neg_one_mul P, Int.mul_ediv_cancel _ hP.ne'] at h
    rcases Nat.eq_zero_or_pos i with rfl | hi
    · simp at h
    · have hle : (i : Int) * step ≤ 1 * step :=
        Int.mul_le_mul_of_nonpos_right (by exact_mod_cast hi) (by omega)
      have := (Int.ediv_lt_iff_lt_mul hP).2 (show 0 + i * step < -1 * P by omega)
      omega) fuel

/-- The window `[t - L, t]` spans at most `⌈L / P⌉ + 1` periods. -/
theorem periods_in_window (hP : 0 < P) (L t : Int) :
    t / P - (t - L) / P ≤ (L + P - 1) / P := by
  -- `(t / P - (t - L) / P) * P` is at most `t - (t - L - P + 1)`
  have h1 := Int.ediv_mul_le t hP.ne'
  have h2 := Int.lt_ediv_add_one_mul_self (t - L) hP
  rw [add_mul, one_mul] at h2
  exact Int.le_ediv_of_mul_le hP (by rw [sub_mul]; omega)

end PeriodPlans

end JaegerEsIndex
