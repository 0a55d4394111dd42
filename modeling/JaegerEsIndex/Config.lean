import Mathlib.Data.List.Infix

namespace JaegerEsIndex

/-!
# Index naming — the `config` helpers and index patterns

The naming layer every store builds on (`internal/storage/elasticsearch/config/utils.go`):

* `indexWithDate` — a prefix followed by an instant formatted, in UTC, under a date layout;
* `getDataStreamLegacyWildcard` — the first `.` of a data-stream name turned into `-`, then `-*`;
* `IndexPrefix.apply` — the configured prefix in front of a base name (modelled from the spec);
* `wildcardMatch` — how the search engine resolves a search target against an index name:
  `*` stands for any run of characters, every other character for itself.

Instants (`time.Time`) are nanoseconds since the Unix epoch and durations (`time.Duration`)
signed nanoseconds, both as unbounded `Int`s. A `time.Duration` is an `int64`, whose negation
wraps at `-2^63`: the statements about a negated duration exclude that one value. A date layout
is modelled by the formatting it induces, since `time.Format` is Go's library and not this
repository's.
-/

/-- A date layout, given by how `time.Format` renders an instant (nanoseconds since the Unix
epoch) in UTC under it. -/
structure DateLayout where
  format : Int → String

/-- `config.IndexWithDate`: the prefix followed by the formatted UTC date. -/
def indexWithDate (indexPrefix : String) (indexDateLayout : DateLayout) (date : Int) : String :=
  indexPrefix ++ indexDateLayout.format date

/-- Two dated names under one prefix agree exactly when their formatted dates do. -/
theorem indexWithDate_eq_iff (indexPrefix : String) (layout : DateLayout) (t t' : Int) :
    indexWithDate indexPrefix layout t = indexWithDate indexPrefix layout t' ↔
      layout.format t = layout.format t' := by
  simp only [indexWithDate, String.ext_iff, String.data_append, List.append_cancel_left_eq]

/-! ### Prefixes -/

/-- A configured index prefix (`config.IndexPrefix`). -/
abbrev IndexPrefix := String

/-- Modelled from the spec: `config.IndexPrefixSeparator` is not among the sources; the spec
joins a prefix to a base name with `-`. -/
def indexPrefixSeparator : String := "-"

/-- Modelled from the spec: `config.IndexPrefix.Apply` is not among the sources. A non-empty
prefix is put in front of the base name with `indexPrefixSeparator` between them; the empty
prefix leaves the name alone. The spec does not fix what happens to a prefix that already ends
in the separator (the upstream `Apply` adds no second `-` there); this model always adds it.
Every result compares names built by this one function, so none depends on that choice. -/
def IndexPrefix.apply (p : IndexPrefix) (indexName : String) : String :=
  if p = "" then indexName else p ++ indexPrefixSeparator ++ indexName

/-- `apply` puts the same characters in front of every base name: none for the empty prefix,
else the prefix and the separator. -/
theorem IndexPrefix.apply_data (p : IndexPrefix) (indexName : String) :
    (p.apply indexName).data = (if p = "" then [] else p.data ++ ['-']) ++ indexName.data := by
  unfold IndexPrefix.apply
  split <;> simp [indexPrefixSeparator]

/-! ### The legacy wildcard -/

/-- `strings.Replace(s, old, new, 1)` for one-character `old` and `new`: the first
occurrence of `old` becomes `new`. -/
def replaceFirst (old new : Char) : List Char → List Char
  | [] => []
  | c :: s => if c = old then new :: s else c :: replaceFirst old new s

/-- A stretch without `old` is copied, and the replacement happens in what follows it. -/
theorem replaceFirst_append_of_not_mem {old new : Char} {s : List Char} (h : old ∉ s)
    (t : List Char) : replaceFirst old new (s ++ t) = s ++ replaceFirst old new t := by
  induction s with
  | nil => rfl
  | cons c s ih =>
    simp only [List.mem_cons, not_or] at h
    simp [replaceFirst, Ne.symm h.1, ih h.2]

/-- Where the first `old` of a list holding one is: the stretch before it holds none, and the
replacement happens there. -/
theorem replaceFirst_split (old new : Char) {q : List Char} (h : old ∈ q) (r : List Char) :
    ∃ a b, q = a ++ old :: b ∧ old ∉ a ∧ replaceFirst old new (q ++ r) = a ++ new :: (b ++ r) := by
  induction q with
  | nil => simp at h
  | cons x q ih =>
    by_cases hx : x = old
    · exact ⟨[], q, by rw [hx]; rfl, by simp, by simp [replaceFirst, hx]⟩
    · obtain ⟨a, b, rfl, ha, hr⟩ := ih ((List.mem_cons.1 h).resolve_left (Ne.symm hx))
      refine ⟨x :: a, b, rfl, by simp [Ne.symm hx, ha], ?_⟩
      rw [List.cons_append, replaceFirst, if_neg hx, hr, List.cons_append]

/-- `config.GetDataStreamLegacyWildcard`: the first `.` replaced by `-`, then `-*`. -/
def getDataStreamLegacyWildcard (dataStreamName : String) : String :=
  ⟨replaceFirst '.' '-' dataStreamName.data⟩ ++ "-*"

/-! ### Index patterns -/

/-- Matching of a search target against an index name: `*` stands for any run of
characters (it is tried against every suffix of the name), any other character for itself. -/
def wildcardMatch : List Char → List Char → Bool
  | [], name => name.isEmpty
  | '*' :: pattern, name => name.tails.any (wildcardMatch pattern)
  | _ :: _, [] => false
  | c :: pattern, d :: name => c == d && wildcardMatch pattern name

/-- A search target resolves to the index `name`. -/
def matchesTarget (target name : String) : Bool :=
  wildcardMatch target.data name.data

/-- A target ending in `*` resolves to every index whose name extends the target's literal
part, whatever characters (a `*` among them) that part holds. -/
theorem wildcardMatch_append_star (s t : List Char) :
    wildcardMatch (s ++ ['*']) (s ++ t) = true := by
  induction s with
  | nil =>
    simp only [List.nil_append, wildcardMatch, List.any_eq_true]
    exact ⟨[], (List.mem_tails _ _).2 List.nil_suffix, rfl⟩
  | cons c s ih =>
    by_cases hc : c = '*'
    · subst hc
      simp only [List.cons_append, wildcardMatch, List.any_eq_true]
      exact ⟨s ++ t, (List.mem_tails _ _).2 (List.suffix_cons _ _), ih⟩
    · simp [wildcardMatch, hc, ih]

/-- Every index name is matched by itself as a target, a `*` in it matching the `*` itself. -/
theorem wildcardMatch_self (s : List Char) : wildcardMatch s s = true := by
  induction s with
  | nil => rfl
  | cons c s ih =>
    by_cases hc : c = '*'
    · subst hc
      simp only [wildcardMatch, List.any_eq_true]
      exact ⟨s, (List.mem_tails _ _).2 (List.suffix_cons _ _), ih⟩
    · simp [wildcardMatch, hc, ih]

@[simp] theorem matchesTarget_self (name : String) : matchesTarget name name = true :=
  wildcardMatch_self _

/-- Two different characters at the head of target and name: no match. -/
theorem wildcardMatch_cons_ne {c d : Char} (hc : c ≠ '*') (hcd : c ≠ d)
    (pattern name : List Char) : wildcardMatch (c :: pattern) (d :: name) = false := by
  simp [wildcardMatch, hc, hcd]

/-- Target and name that agree on a stretch without `*` and then differ at a character of the
target that is not `*`: no match. -/
theorem wildcardMatch_append_cons_ne (s : List Char) (hs : '*' ∉ s) (c d : Char) (hc : c ≠ '*')
    (hcd : c ≠ d) (pattern name : List Char) :
    wildcardMatch (s ++ c :: pattern) (s ++ d :: name) = false := by
  induction s with
  | nil => exact wildcardMatch_cons_ne hc hcd pattern name
  | cons x s ih =>
    simp only [List.mem_cons, not_or] at hs
    simp [wildcardMatch, Ne.symm hs.1, ih hs.2]

/-- A target with no `*` resolves to exactly the index of its own name. -/
theorem wildcardMatch_of_not_mem_star {pattern : List Char} (h : '*' ∉ pattern)
    (name : List Char) : wildcardMatch pattern name = true ↔ pattern = name := by
  induction pattern generalizing name with
  | nil => cases name <;> simp [wildcardMatch]
  | cons c pattern ih =>
    simp only [List.mem_cons, not_or] at h
    cases name with
    | nil => simp [wildcardMatch, Ne.symm h.1]
    | cons d name => simp [wildcardMatch, Ne.symm h.1, ih h.2 name]

end JaegerEsIndex
