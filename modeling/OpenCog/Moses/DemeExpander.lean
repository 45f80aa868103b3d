import Mathlib.Algebra.BigOperators.Group.List
import Mathlib.Algebra.Ring.Int.Defs
import Mathlib.Data.Finset.Image
import Mathlib.Data.Finset.Range
import Mathlib.Data.Nat.Cast.Basic

/-!
# Creating and optimizing demes

`deme_expander::create_demes` builds one representation, and so one deme, for each feature set
the feature selector returns (or a single one without dynamic feature selection), and records for
each feature set the columns the scorer is to ignore.  `optimize_demes` then hands the `i`-th deme,
the `i`-th representation and the `i`-th column set to the optimizer.  A representation with no
knob is dropped from `_reps`, but nothing is dropped from `_ignore_idxs_seq` nor from the deme
IDs, so that an empty representation shifts every later one against its columns and its ID.

The state is the four members these functions read and write (`DemeExpander`); the feature
selector, the representation builder and the optimizer are not under `src/` and are parameters
(`Config`, and the `optimize` argument of `optimizeDemes`).  This file proves:

* `createDemes_some` : what `create_demes` leaves, when its assertions hold; `createDemes_spec`
  says the same with or without feature selection, in the terms `Moses/Expansion.lean` needs;
  with feature selection it leaves column sets on `_ignore_idxs_seq` whatever it returns
  (`createDemes_ignoreIdxsSeq_ne_nil`);
* `optimizeCalls_eq` : the `i`-th call to the optimizer receives the `i`-th deme, representation
  and column set;
* `optimizeCalls_aligned` : **when no representation is empty**, each optimized deme has its own
  feature set's representation, columns and ID;
* `createDemes_drops_first_rep` : with two feature sets whose first representation is empty,
  the only deme is optimized with the second feature set's representation, but with the first
  one's columns and ID;
* `optimizeCalls_budget` : with a budget that is not negative each deme gets the budget divided
  by the number of demes, truncated, and the shares add up to at most the budget;
  `optimizeCalls_negative_budget` : a negative budget goes through `size_t`, and three demes
  with a budget of `-1` get `1431655765` evaluations each.
-/

namespace OpenCog

namespace Moses

/-- A vertex of a combo tree, as the deme expander reads it: an argument `$idx` (a negative index
is a negated literal) or any other vertex. -/
inductive Vertex
  | argument (idx : ℤ)
  | other (name : String)
  deriving DecidableEq, Repr

/-- `demeID_t`: the expansion that creates the deme, and its index among the demes of a
breadth-first expansion. -/
structure DemeID where
  expansion : ℤ
  breadthFirst : Option ℕ
  deriving DecidableEq, Repr

/-- The feature selector `_params.fstor`, as `create_demes` reads it. -/
structure FeatureSelector (Tree : Type) where
  /-- `params.n_demes`: how many feature sets, and so demes, to make. -/
  nDemes : ℕ
  /-- `params.prune_xmplr`: prune the exemplar from the features not selected. -/
  pruneXmplr : Bool
  /-- `_ctable.get_arity()`: the number of input columns. -/
  arity : ℕ
  /-- `festor(exemplar)`: the selected feature sets, in the order the population is iterated. -/
  select : Tree → List (Finset ℕ)

/-- The parameters `create_demes` and `optimize_demes` read, and the collaborators they call. -/
structure Config (Tree Rep F : Type) where
  /-- `_params.fstor`, `none` for a null pointer: no dynamic feature selection. -/
  fstor : Option (FeatureSelector Tree)
  /-- `_params.ignore_ops`. -/
  ignoreOps : Finset Vertex
  /-- `get_argument_abs_idx_from_zero_set`: the features an exemplar uses. -/
  argumentSet : Tree → Finset ℕ
  /-- `deme_expander::prune_xmplr`. -/
  pruneXmplr : Tree → Finset ℕ → Tree
  /-- `new representation(...)` from an exemplar and the operators to ignore, the other
  arguments being fixed by `_params` and `_type_sig`. -/
  representation : Tree → Finset Vertex → Rep
  /-- `representation::fields()`. -/
  fields : Rep → F
  /-- `field_set::empty()`: the representation has no knob. -/
  fieldsEmpty : F → Bool

/-- `deme_t`, as created: the field set of its representation and its ID. -/
structure Deme (F : Type) where
  fields : F
  id : DemeID
  deriving DecidableEq

/-- The members of `deme_expander` the two functions read and write. -/
structure DemeExpander (Rep F : Type) where
  /-- `_ignore_idxs_seq`: for each feature set, the columns the scorer ignores. -/
  ignoreIdxsSeq : List (Finset ℕ)
  /-- `_reps`. -/
  reps : List Rep
  /-- `_demes`. -/
  demes : List (Deme F)
  /-- The columns `_cscorer` ignores. -/
  cscorerIgnored : Finset ℕ

/-- What the loop over the selected feature sets of `create_demes` makes of one of them. -/
structure FeatureSetDeme (Tree : Type) where
  /-- The exemplar the representation is built from (`xmplr_seq`). -/
  xmplr : Tree
  /-- The columns pushed on `_ignore_idxs_seq`. -/
  ignoreIdxs : Finset ℕ
  /-- The arguments withheld from the representation (`ignore_ops_seq`). -/
  ignoreOps : Finset Vertex

/-- A call `_optimize(_demes[i], cpx_scorer, max_evals_per_deme, max_time)`: the deme, the
representation the scorer wraps, the columns `_cscorer` ignores during the call, and the budget. -/
structure OptimizeCall (Rep F : Type) where
  deme : Deme F
  rep : Rep
  ignored : Finset ℕ
  maxEvals : ℤ
  deriving DecidableEq

variable {Tree Rep F : Type}

/-- The deme IDs of one expansion: one per feature set when the selector asks for several demes,
a single plain one otherwise. -/
def demeIDs (fstor : Option (FeatureSelector Tree)) (nExpansions : ℤ) : List DemeID :=
  match fstor with
  | some festor =>
    if festor.nDemes > 1 then (List.range festor.nDemes).map fun i => ⟨nExpansions + 1, some i⟩
    else [⟨nExpansions + 1, none⟩]
  | none => [⟨nExpansions + 1, none⟩]

/-- `max_evals / _demes.size()`: the `int` is converted to the 64-bit `size_t`, the quotient is
taken there and converted back to `int`, in two's complement. -/
def maxEvalsPerDeme (maxEvals : ℤ) (n : ℕ) : ℤ :=
  let q : ℕ := (maxEvals % 2 ^ 64).toNat / n % 2 ^ 32
  if q < 2 ^ 31 then q else (q : ℤ) - 2 ^ 32

variable (cfg : Config Tree Rep F)

/-- One pass of the loop over the selected feature sets: either prune the exemplar, or add the
exemplar's features to the feature set; then every column `i < arity` not in the feature set is
ignored by the scorer, and its argument `$(i+1)` withheld from the representation. -/
def featureSetDeme (festor : FeatureSelector Tree) (exemplar : Tree) (sf : Finset ℕ) :
    FeatureSetDeme Tree :=
  let (sf, xmplr) :=
    if festor.pruneXmplr then (sf, cfg.pruneXmplr exemplar sf)
    else (sf ∪ cfg.argumentSet exemplar, exemplar)
  let ignoreIdxs := (Finset.range festor.arity).filter (· ∉ sf)
  ⟨xmplr, ignoreIdxs, ignoreIdxs.image fun i : ℕ => .argument ↑(i + 1)⟩

/-- The exemplars and ignored operators of the representations to build, with the columns pushed
on `_ignore_idxs_seq`; `none` where `log_selected_feature_sets` asserts that there are as many
feature sets as deme IDs. -/
def xmplrSeq (exemplar : Tree) (ids : List DemeID) :
    Option (List (Tree × Finset Vertex) × List (Finset ℕ)) :=
  match cfg.fstor with
  | none => some ([(exemplar, cfg.ignoreOps)], [])
  | some festor =>
    let pop := festor.select exemplar
    if pop.length ≠ ids.length then none
    else
      let ds := pop.map (featureSetDeme cfg festor exemplar)
      some (ds.map fun d => (d.xmplr, d.ignoreOps), ds.map (·.ignoreIdxs))

/-- The representation `create_demes` builds for a feature set. -/
def featureSetRep (festor : FeatureSelector Tree) (exemplar : Tree) (sf : Finset ℕ) : Rep :=
  cfg.representation (featureSetDeme cfg festor exemplar sf).xmplr
    (featureSetDeme cfg festor exemplar sf).ignoreOps

/-- The representations `create_demes` keeps: those with a knob. -/
def keptReps (seq : List (Tree × Finset Vertex)) : List Rep :=
  (seq.map fun (x, ops) => cfg.representation x ops).filter fun r => !cfg.fieldsEmpty (cfg.fields r)

/-- `create_demes`: whether it returns `true`, and the state it leaves; `none` where one of its
assertions fails. -/
def createDemes (xp : DemeExpander Rep F) (exemplar : Tree) (nExpansions : ℤ) :
    Option (Bool × DemeExpander Rep F) :=
  if xp.ignoreIdxsSeq.isEmpty && xp.reps.isEmpty && xp.demes.isEmpty then
    let ids := demeIDs cfg.fstor nExpansions
    (xmplrSeq cfg exemplar ids).map fun (seq, ignoreIdxsSeq) =>
      let reps := keptReps cfg seq
      if reps.isEmpty then (false, { xp with ignoreIdxsSeq := ignoreIdxsSeq })
      else
        (true, { xp with
          ignoreIdxsSeq := ignoreIdxsSeq
          reps := reps
          demes := List.zipWith (fun r id => ⟨cfg.fields r, id⟩) reps ids })
  else none

/-- The call `optimize_demes` makes for deme `i`: with feature selection, `_cscorer` first
ignores the deme's columns; `none` for an index past the end of a sequence. -/
def callAt (xp : DemeExpander Rep F) (budget : ℤ) (i : ℕ) : Option (OptimizeCall Rep F) :=
  match xp.demes[i]?, xp.reps[i]?,
      (if cfg.fstor.isSome then xp.ignoreIdxsSeq[i]? else some xp.cscorerIgnored) with
  | some d, some r, some ig => some ⟨d, r, ig, budget⟩
  | _, _, _ => none

/-- The loop of `optimize_demes` over the deme indices `is`. -/
def optimizeCallsAt (xp : DemeExpander Rep F) (budget : ℤ) :
    List ℕ → Option (List (OptimizeCall Rep F))
  | [] => some []
  | i :: is =>
    match callAt cfg xp budget i with
    | some c => (optimizeCallsAt xp budget is).map (c :: ·)
    | none => none

/-- The calls `optimize_demes` makes to `_optimize`; `none` when there is no deme, where
`max_evals / _demes.size()` divides by zero. -/
def optimizeCalls (xp : DemeExpander Rep F) (maxEvals : ℤ) : Option (List (OptimizeCall Rep F)) :=
  if xp.demes.isEmpty then none
  else optimizeCallsAt cfg xp (maxEvalsPerDeme maxEvals xp.demes.length) (List.range xp.demes.length)

/-- `optimize_demes`: the evaluations `_optimize` reports for each deme, and the state after the
scorer is reset to use every column. -/
def optimizeDemes (optimize : OptimizeCall Rep F → ℤ → ℕ) (xp : DemeExpander Rep F)
    (maxEvals maxTime : ℤ) : Option (List ℕ × DemeExpander Rep F) :=
  (optimizeCalls cfg xp maxEvals).map fun calls =>
    (calls.map fun c => optimize c maxTime,
      if cfg.fstor.isSome then { xp with cscorerIgnored := ∅ } else xp)

/-- `free_demes`. -/
def freeDemes (xp : DemeExpander Rep F) : DemeExpander Rep F :=
  { xp with ignoreIdxsSeq := [], demes := [], reps := [] }

/-! ### One feature set -/

variable {cfg}

@[simp] theorem featureSetDeme_ignoreIdxs (festor : FeatureSelector Tree) (exemplar : Tree)
    (sf : Finset ℕ) :
    (featureSetDeme cfg festor exemplar sf).ignoreIdxs = (Finset.range festor.arity).filter
      (· ∉ if festor.pruneXmplr then sf else sf ∪ cfg.argumentSet exemplar) := by
  cases h : festor.pruneXmplr <;> simp [featureSetDeme, h]

@[simp] theorem featureSetDeme_ignoreOps_eq (festor : FeatureSelector Tree) (exemplar : Tree)
    (sf : Finset ℕ) :
    (featureSetDeme cfg festor exemplar sf).ignoreOps =
      (featureSetDeme cfg festor exemplar sf).ignoreIdxs.image fun i : ℕ => .argument ↑(i + 1) := by
  cases h : festor.pruneXmplr <;> simp [featureSetDeme, h]

/-! ### `create_demes` -/

theorem keptReps_map (festor : FeatureSelector Tree) (exemplar : Tree) (pop : List (Finset ℕ)) :
    keptReps cfg (pop.map fun sf => ((featureSetDeme cfg festor exemplar sf).xmplr,
        (featureSetDeme cfg festor exemplar sf).ignoreOps)) =
      (pop.map (featureSetRep cfg festor exemplar)).filter
        fun r => !cfg.fieldsEmpty (cfg.fields r) := by
  simp only [keptReps, List.map_map]
  rfl

/-- **What `create_demes` leaves**, with feature selection, when its assertions hold: one column
set per feature set, the representations with a knob, one deme per kept representation with the
ID of the same position, and `true` exactly when a representation is kept. -/
theorem createDemes_some {festor : FeatureSelector Tree} (hf : cfg.fstor = some festor)
    {xp xp' : DemeExpander Rep F} {exemplar : Tree} {n : ℤ} {b : Bool}
    (h : createDemes cfg xp exemplar n = some (b, xp')) :
    xp.ignoreIdxsSeq = [] ∧ xp.reps = [] ∧ xp.demes = [] ∧
    (festor.select exemplar).length = (demeIDs cfg.fstor n).length ∧
    xp'.ignoreIdxsSeq =
      (festor.select exemplar).map (fun sf => (featureSetDeme cfg festor exemplar sf).ignoreIdxs) ∧
    xp'.reps = ((festor.select exemplar).map (featureSetRep cfg festor exemplar)).filter
      (fun r => !cfg.fieldsEmpty (cfg.fields r)) ∧
    xp'.demes = List.zipWith (fun r id => ⟨cfg.fields r, id⟩) xp'.reps (demeIDs cfg.fstor n) ∧
    xp'.cscorerIgnored = xp.cscorerIgnored ∧ b = !xp'.reps.isEmpty := by
  rw [hf]
  unfold createDemes at h
  split at h
  · rename_i hxp
    simp only [Bool.and_eq_true, List.isEmpty_iff] at hxp
    obtain ⟨⟨hi, hr⟩, hd⟩ := hxp
    simp only [xmplrSeq, hf, ne_eq, ite_not] at h
    split at h
    · rename_i hpop
      simp only [Option.map_some', List.map_map, Option.some.injEq, Function.comp_def] at h
      split at h <;> obtain ⟨rfl, rfl⟩ := Prod.mk.inj h <;> rename_i hne
      · -- no representation is kept
        have h0 := List.isEmpty_iff.1 hne
        rw [keptReps_map] at h0
        exact ⟨hi, hr, hd, hpop, rfl, hr.trans h0.symm, by simp [hr, hd], rfl, by simp [hr]⟩
      · exact ⟨hi, hr, hd, hpop, rfl, keptReps_map _ _ _, rfl, rfl, by simpa using hne⟩
    · simp at h
  · simp at h

/-- After a `true` return there is a representation. -/
theorem createDemes_true {festor : FeatureSelector Tree} (hf : cfg.fstor = some festor)
    {xp xp' : DemeExpander Rep F} {exemplar : Tree} {n : ℤ}
    (h : createDemes cfg xp exemplar n = some (true, xp')) : xp'.reps ≠ [] := by
  intro h0
  have hb := (createDemes_some hf h).2.2.2.2.2.2.2.2
  rw [h0] at hb
  cases hb

/-- `create_demes` fails its first assertion, `_ignore_idxs_seq.empty()`, while column sets are
left from an earlier call. -/
theorem createDemes_of_ignoreIdxsSeq {xp : DemeExpander Rep F} (h : xp.ignoreIdxsSeq ≠ [])
    (exemplar : Tree) (n : ℤ) : createDemes cfg xp exemplar n = none := by
  simp [createDemes, h]

/-- With feature selection, `create_demes` leaves a column set for each selected feature set,
whether it returns `true` or `false`. -/
theorem createDemes_ignoreIdxsSeq_ne_nil {festor : FeatureSelector Tree}
    (hf : cfg.fstor = some festor) {xp xp' : DemeExpander Rep F} {exemplar : Tree} {n : ℤ}
    {b : Bool} (h : createDemes cfg xp exemplar n = some (b, xp'))
    (hne : festor.select exemplar ≠ []) : xp'.ignoreIdxsSeq ≠ [] := by
  rw [(createDemes_some hf h).2.2.2.2.1]
  simpa using hne

theorem keptReps_length_le (seq : List (Tree × Finset Vertex)) :
    (keptReps cfg seq).length ≤ seq.length :=
  (List.length_filter_le _ _).trans (List.length_map _ _).le

/-- The loop over the feature sets makes an exemplar for each deme ID and, with feature
selection, a column set for each exemplar. -/
theorem xmplrSeq_length {exemplar : Tree} {n : ℤ} {seq : List (Tree × Finset Vertex)}
    {igs : List (Finset ℕ)} (h : xmplrSeq cfg exemplar (demeIDs cfg.fstor n) = some (seq, igs)) :
    seq.length = (demeIDs cfg.fstor n).length ∧ (cfg.fstor.isSome → seq.length = igs.length) := by
  unfold xmplrSeq at h
  split at h
  · rename_i hf
    cases h
    simp [hf, demeIDs]
  · rename_i festor _
    dsimp only at h
    split at h
    · cases h
    · rename_i hlen
      cases h
      simpa using hlen

/-- **What `create_demes` leaves**, with or without feature selection: a deme for each kept
representation, with its field set and the ID of the same position; no more representations than
deme IDs nor, with feature selection, than column sets; and the scorer as it was. -/
theorem createDemes_spec {xp xp' : DemeExpander Rep F} {exemplar : Tree} {n : ℤ} {b : Bool}
    (h : createDemes cfg xp exemplar n = some (b, xp')) :
    xp'.demes = List.zipWith (fun r id => ⟨cfg.fields r, id⟩) xp'.reps (demeIDs cfg.fstor n) ∧
    xp'.reps.length ≤ (demeIDs cfg.fstor n).length ∧
    (cfg.fstor.isSome → xp'.reps.length ≤ xp'.ignoreIdxsSeq.length) ∧
    xp'.cscorerIgnored = xp.cscorerIgnored := by
  unfold createDemes at h
  split at h
  · rename_i hxp
    simp only [Bool.and_eq_true, List.isEmpty_iff] at hxp
    obtain ⟨⟨-, hr⟩, hd⟩ := hxp
    obtain ⟨⟨seq, igs⟩, hseq, h⟩ := Option.map_eq_some'.1 h
    obtain ⟨hlen, higs⟩ := xmplrSeq_length hseq
    have hk : (keptReps cfg seq).length ≤ seq.length := keptReps_length_le seq
    dsimp only at h
    split at h <;> obtain ⟨-, rfl⟩ := Prod.mk.inj h
    · simp [hr, hd]
    · exact ⟨rfl, by dsimp only; omega, fun hs => by have := higs hs; dsimp only; omega, rfl⟩
  · cases h

/-! ### `optimize_demes` -/

theorem callAt_eq_some {xp : DemeExpander Rep F} {b : ℤ} {i : ℕ} {c : OptimizeCall Rep F} :
    callAt cfg xp b i = some c ↔ xp.demes[i]? = some c.deme ∧ xp.reps[i]? = some c.rep ∧
      (if cfg.fstor.isSome then xp.ignoreIdxsSeq[i]? else some xp.cscorerIgnored) = some c.ignored ∧
      c.maxEvals = b := by
  unfold callAt
  split
  · rename_i d r ig hd hr hig
    rw [hd, hr, hig]
    obtain ⟨d', r', ig', b'⟩ := c
    simp only [Option.some.injEq, OptimizeCall.mk.injEq]
    tauto
  · rename_i hno
    simp only [reduceCtorEq, false_iff, not_and]
    exact fun hd hr hig _ => hno _ _ _ hd hr hig

theorem callAt_isSome {xp : DemeExpander Rep F} {b : ℤ} {i : ℕ} (hd : i < xp.demes.length)
    (hr : i < xp.reps.length) (hig : cfg.fstor.isSome → i < xp.ignoreIdxsSeq.length) :
    (callAt cfg xp b i).isSome := by
  cases hs : cfg.fstor.isSome
  · simp [callAt, hs, List.getElem?_eq_getElem hd, List.getElem?_eq_getElem hr]
  · simp [callAt, hs, List.getElem?_eq_getElem hd, List.getElem?_eq_getElem hr,
      List.getElem?_eq_getElem (hig hs)]

/-- The `k`-th call of the loop is the call for its `k`-th index. -/
theorem optimizeCallsAt_getElem? {xp : DemeExpander Rep F} {b : ℤ} {is : List ℕ}
    {calls : List (OptimizeCall Rep F)} (h : optimizeCallsAt cfg xp b is = some calls) (k : ℕ) :
    calls[k]? = is[k]?.bind (callAt cfg xp b) := by
  induction is generalizing calls k with
  | nil =>
    cases h
    simp
  | cons i is ih =>
    simp only [optimizeCallsAt] at h
    split at h
    · rename_i c hc
      obtain ⟨rest, hrest, rfl⟩ := Option.map_eq_some'.1 h
      cases k with
      | zero => simp [hc]
      | succ k => simpa using ih hrest k
    · cases h

theorem optimizeCallsAt_length {xp : DemeExpander Rep F} {b : ℤ} {is : List ℕ}
    {calls : List (OptimizeCall Rep F)} (h : optimizeCallsAt cfg xp b is = some calls) :
    calls.length = is.length := by
  induction is generalizing calls with
  | nil =>
    cases h
    rfl
  | cons i is ih =>
    simp only [optimizeCallsAt] at h
    split at h
    · obtain ⟨rest, hrest, rfl⟩ := Option.map_eq_some'.1 h
      simp [ih hrest]
    · cases h

theorem optimizeCallsAt_isSome {xp : DemeExpander Rep F} {b : ℤ} {is : List ℕ}
    (h : ∀ i ∈ is, (callAt cfg xp b i).isSome) : (optimizeCallsAt cfg xp b is).isSome := by
  induction is with
  | nil => rfl
  | cons i is ih =>
    obtain ⟨c, hc⟩ := Option.isSome_iff_exists.1 (h i (.head _))
    obtain ⟨calls, hcs⟩ := Option.isSome_iff_exists.1 (ih fun j hj => h j (.tail _ hj))
    simp [optimizeCallsAt, hc, hcs]

/-- **The `i`-th call gets the `i`-th deme, representation and column set.** On a state with a
deme, and with as many representations (and, with feature selection, column sets) as demes,
`optimize_demes` calls `_optimize` once per deme, in order, and its call for deme `i` is
`callAt i`: `_demes[i]`, `_reps[i]`, a scorer ignoring `_ignore_idxs_seq[i]`, and the budget
`max_evals / _demes.size()`. -/
theorem optimizeCalls_eq {xp : DemeExpander Rep F} (hne : xp.demes ≠ [])
    (hr : xp.demes.length ≤ xp.reps.length)
    (hig : cfg.fstor.isSome → xp.demes.length ≤ xp.ignoreIdxsSeq.length) (maxEvals : ℤ) :
    ∃ calls, optimizeCalls cfg xp maxEvals = some calls ∧ calls.length = xp.demes.length ∧
      ∀ i, calls[i]? = callAt cfg xp (maxEvalsPerDeme maxEvals xp.demes.length) i := by
  have hsome : (optimizeCalls cfg xp maxEvals).isSome := by
    simp only [optimizeCalls, List.isEmpty_iff, hne, ite_false]
    exact optimizeCallsAt_isSome fun i hi => by
      have hi := List.mem_range.1 hi
      exact callAt_isSome hi (by omega) fun hs => by have := hig hs; omega
  obtain ⟨calls, hc⟩ := Option.isSome_iff_exists.1 hsome
  simp only [optimizeCalls, List.isEmpty_iff, hne, ite_false] at hc
  refine ⟨calls, by simp [optimizeCalls, hne, hc], by simpa using optimizeCallsAt_length hc,
    fun i => ?_⟩
  rw [optimizeCallsAt_getElem? hc]
  by_cases hi : i < xp.demes.length
  · simp [List.getElem?_range hi]
  · have hnone : xp.demes[i]? = none := List.getElem?_eq_none (by omega)
    simp [List.getElem?_eq_none (by simpa using hi : (List.range xp.demes.length).length ≤ i),
      callAt, hnone]

/-- After a successful `create_demes` with feature selection, `optimize_demes` makes one call
per deme, the `i`-th with the `i`-th deme, representation and column set. -/
theorem optimizeCalls_created {festor : FeatureSelector Tree} (hf : cfg.fstor = some festor)
    {xp xp' : DemeExpander Rep F} {exemplar : Tree} {n : ℤ}
    (h : createDemes cfg xp exemplar n = some (true, xp')) (maxEvals : ℤ) :
    ∃ calls, optimizeCalls cfg xp' maxEvals = some calls ∧ calls.length = xp'.reps.length ∧
      ∀ (i : ℕ) (c : OptimizeCall Rep F), calls[i]? = some c →
        xp'.demes[i]? = some c.deme ∧ xp'.reps[i]? = some c.rep ∧
        xp'.ignoreIdxsSeq[i]? = some c.ignored ∧
        c.maxEvals = maxEvalsPerDeme maxEvals xp'.reps.length := by
  obtain ⟨-, -, -, hpop, hig, hreps, hdemes, -⟩ := createDemes_some hf h
  have hne := createDemes_true hf h
  have hle : xp'.reps.length ≤ (festor.select exemplar).length := by
    rw [hreps]
    exact (List.length_filter_le _ _).trans (List.length_map _ _).le
  have hlen : xp'.demes.length = xp'.reps.length := by
    rw [hdemes, List.length_zipWith]
    omega
  have hdne : xp'.demes ≠ [] := by
    rw [← List.length_pos, hlen, List.length_pos]
    exact hne
  obtain ⟨calls, hc, hclen, hget⟩ := optimizeCalls_eq hdne hlen.le
    (fun _ => by rw [hig, List.length_map]; omega) maxEvals
  refine ⟨calls, hc, hclen.trans hlen, fun i c hi => ?_⟩
  rw [hget, callAt_eq_some, hf, hlen] at hi
  simpa using hi

/-! ### Alignment -/

/-- **When no representation is empty, each optimized deme keeps its own feature set**: the call
for deme `i` gets the representation built from the `i`-th feature set, a scorer ignoring that
feature set's columns (exactly those whose arguments the representation withholds, by
`featureSetDeme_ignoreOps_eq`), and that feature set's deme ID. -/
theorem optimizeCalls_aligned {festor : FeatureSelector Tree} (hf : cfg.fstor = some festor)
    {xp xp' : DemeExpander Rep F} {exemplar : Tree} {n : ℤ}
    (h : createDemes cfg xp exemplar n = some (true, xp'))
    (hkeep : ∀ sf ∈ festor.select exemplar,
      cfg.fieldsEmpty (cfg.fields (featureSetRep cfg festor exemplar sf)) = false)
    (maxEvals : ℤ) :
    ∃ calls, optimizeCalls cfg xp' maxEvals = some calls ∧
      calls.length = (festor.select exemplar).length ∧
      ∀ (i : ℕ) (c : OptimizeCall Rep F), calls[i]? = some c →
        ∃ sf, (festor.select exemplar)[i]? = some sf ∧
          c.rep = featureSetRep cfg festor exemplar sf ∧
          c.ignored = (featureSetDeme cfg festor exemplar sf).ignoreIdxs ∧
          (demeIDs cfg.fstor n)[i]? = some c.deme.id := by
  obtain ⟨-, -, -, -, hig, hreps, hdemes, -⟩ := createDemes_some hf h
  have hall : xp'.reps = (festor.select exemplar).map (featureSetRep cfg festor exemplar) := by
    rw [hreps, List.filter_eq_self]
    simpa using hkeep
  obtain ⟨calls, hc, hlen, hget⟩ := optimizeCalls_created hf h maxEvals
  refine ⟨calls, hc, by rw [hlen, hall, List.length_map], fun i c hi => ?_⟩
  obtain ⟨hd, hr, higc, -⟩ := hget i c hi
  rw [hall, List.getElem?_map] at hr
  obtain ⟨sf, hsf, hrep⟩ := Option.map_eq_some'.1 hr
  rw [hig, List.getElem?_map, hsf, Option.map_some', Option.some.injEq] at higc
  obtain ⟨r, id, -, hid, hdeme⟩ := List.getElem?_zipWith_eq_some.1 (hdemes ▸ hd)
  exact ⟨sf, hsf, hrep.symm, higc.symm, by rw [hid, ← hdeme]⟩

/-- **An empty first representation shifts the demes against their feature sets.** With feature
sets `sf₁, sf₂, …` where the representation of `sf₁` is empty and that of `sf₂` is not, the first
deme is optimized with the representation of `sf₂`, but with a scorer ignoring the columns of
`sf₁`, and it carries the first deme ID. -/
theorem optimizeCalls_first_rep_empty {festor : FeatureSelector Tree}
    (hf : cfg.fstor = some festor) {xp xp' : DemeExpander Rep F} {exemplar : Tree} {n : ℤ}
    (h : createDemes cfg xp exemplar n = some (true, xp')) {sf₁ sf₂ : Finset ℕ}
    {rest : List (Finset ℕ)} (hpop : festor.select exemplar = sf₁ :: sf₂ :: rest)
    (h₁ : cfg.fieldsEmpty (cfg.fields (featureSetRep cfg festor exemplar sf₁)) = true)
    (h₂ : cfg.fieldsEmpty (cfg.fields (featureSetRep cfg festor exemplar sf₂)) = false)
    (maxEvals : ℤ) :
    ∃ c calls, optimizeCalls cfg xp' maxEvals = some (c :: calls) ∧
      c.rep = featureSetRep cfg festor exemplar sf₂ ∧
      c.ignored = (featureSetDeme cfg festor exemplar sf₁).ignoreIdxs ∧
      (demeIDs cfg.fstor n)[0]? = some c.deme.id := by
  obtain ⟨-, -, -, -, hig, hreps, hdemes, -⟩ := createDemes_some hf h
  obtain ⟨calls, hc, hlen, hget⟩ := optimizeCalls_created hf h maxEvals
  have hr0 : xp'.reps[0]? = some (featureSetRep cfg festor exemplar sf₂) := by
    rw [hreps, hpop]
    simp [h₁, h₂]
  have hd0 : xp'.demes[0]? = (demeIDs cfg.fstor n)[0]?.map
      (⟨cfg.fields (featureSetRep cfg festor exemplar sf₂), ·⟩) := by
    rw [hdemes, List.getElem?_zipWith', hr0]
    cases (demeIDs cfg.fstor n)[0]? <;> rfl
  obtain ⟨c, calls, rfl⟩ := List.exists_cons_of_length_pos (hlen ▸ (List.getElem?_eq_some_iff.1 hr0).1)
  obtain ⟨hd, hr, hi, -⟩ := hget 0 c (by simp)
  refine ⟨c, calls, hc, Option.some.inj (hr0 ▸ hr).symm, ?_, ?_⟩
  · rw [hig, hpop] at hi
    simpa using hi.symm
  · rw [hd0] at hd
    obtain ⟨id, hid, hdeme⟩ := Option.map_eq_some'.1 hd
    rw [hid, ← hdeme]

/-! ### Budgets -/

/-- With a budget in the range of `int` that is not negative, the conversions to `size_t` and
back change nothing: the share is the quotient truncated toward zero. -/
theorem maxEvalsPerDeme_of_nonneg {m : ℤ} (h0 : 0 ≤ m) (h1 : m < 2 ^ 31) (d : ℕ) :
    maxEvalsPerDeme m d = m.tdiv d := by
  obtain ⟨k, rfl⟩ := Int.eq_ofNat_of_zero_le h0
  have hm : (k : ℤ) % 2 ^ 64 = k := Int.emod_eq_of_lt h0 (by omega)
  have hk : k / d < 2 ^ 31 := lt_of_le_of_lt (Nat.div_le_self _ _) (by omega)
  simp only [maxEvalsPerDeme, hm, Int.toNat_ofNat, Nat.mod_eq_of_lt (by omega : k / d < 2 ^ 32),
    hk, if_true]
  exact Int.ofNat_tdiv k d

/-- After a `true` return there is a deme for each representation, and, with feature selection,
a column set for each. -/
theorem createDemes_true_lengths {xp xp' : DemeExpander Rep F} {exemplar : Tree} {n : ℤ}
    (h : createDemes cfg xp exemplar n = some (true, xp')) :
    xp'.reps ≠ [] ∧ xp'.demes.length = xp'.reps.length ∧
      (cfg.fstor.isSome → xp'.reps.length ≤ xp'.ignoreIdxsSeq.length) := by
  cases hf : cfg.fstor with
  | some festor =>
    obtain ⟨-, -, -, hpop, hig, hreps, hdemes, -⟩ := createDemes_some hf h
    have hle : xp'.reps.length ≤ (festor.select exemplar).length := by
      rw [hreps]
      exact (List.length_filter_le _ _).trans (List.length_map _ _).le
    refine ⟨createDemes_true hf h, ?_, fun _ => by rw [hig, List.length_map]; exact hle⟩
    rw [hdemes, List.length_zipWith]
    omega
  | none =>
    unfold createDemes at h
    split at h
    · simp only [xmplrSeq, hf, Option.map_some', Option.some.injEq, keptReps, List.map_cons,
        List.map_nil] at h
      split at h
      · cases h
      · rename_i hne
        obtain ⟨-, rfl⟩ := Prod.mk.inj h
        refine ⟨by simpa using hne, ?_, by simp⟩
        simp only [List.length_zipWith, demeIDs, hf, List.length_singleton]
        have : (List.filter (fun r => !cfg.fieldsEmpty (cfg.fields r))
          [cfg.representation exemplar cfg.ignoreOps]).length ≤ 1 :=
          (List.length_filter_le _ _)
        omega
    · cases h

/-- **With a budget that is not negative, each deme gets its share truncated toward zero, and the
shares add up to at most the budget.**  After a `true` return from `create_demes` there is a
deme, so `optimize_demes` does not divide by zero. -/
theorem optimizeCalls_budget {xp xp' : DemeExpander Rep F} {exemplar : Tree} {n : ℤ}
    (h : createDemes cfg xp exemplar n = some (true, xp')) {maxEvals : ℤ} (h0 : 0 ≤ maxEvals)
    (h1 : maxEvals < 2 ^ 31) :
    ∃ calls, optimizeCalls cfg xp' maxEvals = some calls ∧ 0 < xp'.demes.length ∧
      calls.length = xp'.demes.length ∧
      (∀ c ∈ calls, c.maxEvals = maxEvals.tdiv xp'.demes.length) ∧
      (calls.map (·.maxEvals)).sum ≤ maxEvals := by
  obtain ⟨hne, hlen, hig⟩ := createDemes_true_lengths h
  have hpos : 0 < xp'.demes.length := hlen ▸ List.length_pos.2 hne
  obtain ⟨calls, hc, hclen, hget⟩ := optimizeCalls_eq (List.length_pos.1 hpos) hlen.le
    (fun hs => hlen ▸ hig hs) maxEvals
  have hb : ∀ c ∈ calls, c.maxEvals = maxEvals.tdiv xp'.demes.length := fun c hc' => by
    obtain ⟨i, hi⟩ := List.get_of_mem hc'
    have := hget i
    rw [← maxEvalsPerDeme_of_nonneg h0 h1]
    exact (callAt_eq_some.1 (by rw [← this, List.getElem?_eq_getElem i.2]; simp [← hi])).2.2.2
  refine ⟨calls, hc, hpos, hclen, hb, ?_⟩
  rw [List.map_congr_left hb, List.map_const', List.sum_replicate, hclen,
    Int.tdiv_eq_ediv h0 (by omega)]
  simpa using @Int.mul_ediv_self_le maxEvals xp'.demes.length (by omega)

/-- A selector over two columns returning the feature sets `pop`. -/
def twoColumnsSelector (pop : List (Finset ℕ)) : FeatureSelector Unit :=
  ⟨2, false, 2, fun _ => pop⟩

/-- Two columns; a representation has a knob for every argument not withheld, so that the
representation of a feature set is empty exactly when it withholds both arguments. -/
def twoColumns (pop : List (Finset ℕ)) : Config Unit (Finset Vertex) (Finset ℕ) where
  fstor := some (twoColumnsSelector pop)
  ignoreOps := ∅
  argumentSet _ := ∅
  pruneXmplr x _ := x
  representation _ ops := ops
  fields ops := (Finset.range 2).filter fun j => Vertex.argument ↑(j + 1) ∉ ops
  fieldsEmpty f := decide (f = ∅)

theorem optimizeCalls_aligned_two :
    ∃ xp', createDemes (twoColumns [{0}, {1}]) ⟨[], [], [], ∅⟩ () 0 = some (true, xp') ∧
      ∃ calls, optimizeCalls (twoColumns [{0}, {1}]) xp' 100 = some calls ∧
        calls.length = ((twoColumnsSelector [{0}, {1}]).select ()).length ∧
        ∀ (i : ℕ) (c : OptimizeCall (Finset Vertex) (Finset ℕ)), calls[i]? = some c →
          ∃ sf, ((twoColumnsSelector [{0}, {1}]).select ())[i]? = some sf ∧
            c.rep = featureSetRep (twoColumns [{0}, {1}]) (twoColumnsSelector [{0}, {1}]) () sf ∧
            c.ignored =
              (featureSetDeme (twoColumns [{0}, {1}]) (twoColumnsSelector [{0}, {1}]) () sf).ignoreIdxs ∧
            (demeIDs (twoColumns [{0}, {1}]).fstor 0)[i]? = some c.deme.id :=
  have ⟨xp', h⟩ : ∃ xp', createDemes (twoColumns [{0}, {1}]) ⟨[], [], [], ∅⟩ () 0 =
      some (true, xp') := ⟨_, rfl⟩
  ⟨xp', h, optimizeCalls_aligned rfl h (by decide) 100⟩

theorem optimizeCalls_first_rep_empty_two :
    ∃ xp', createDemes (twoColumns [∅, {1}]) ⟨[], [], [], ∅⟩ () 0 = some (true, xp') ∧
      ∃ c calls, optimizeCalls (twoColumns [∅, {1}]) xp' 100 = some (c :: calls) ∧
        c.rep = featureSetRep (twoColumns [∅, {1}]) (twoColumnsSelector [∅, {1}]) () {1} ∧
        c.ignored =
          (featureSetDeme (twoColumns [∅, {1}]) (twoColumnsSelector [∅, {1}]) () ∅).ignoreIdxs ∧
        (demeIDs (twoColumns [∅, {1}]).fstor 0)[0]? = some c.deme.id :=
  have ⟨xp', h⟩ : ∃ xp', createDemes (twoColumns [∅, {1}]) ⟨[], [], [], ∅⟩ () 0 =
      some (true, xp') := ⟨_, rfl⟩
  ⟨xp', h, optimizeCalls_first_rep_empty rfl h rfl (by decide) (by decide) 100⟩

theorem optimizeCalls_budget_two :
    ∃ xp', createDemes (twoColumns [{0}, {1}]) ⟨[], [], [], ∅⟩ () 0 = some (true, xp') ∧
      (0 : ℤ) ≤ 100 ∧ (100 : ℤ) < 2 ^ 31 ∧
      ∃ calls, optimizeCalls (twoColumns [{0}, {1}]) xp' 100 = some calls ∧
        0 < xp'.demes.length ∧ calls.length = xp'.demes.length ∧
        (∀ c ∈ calls, c.maxEvals = (100 : ℤ).tdiv xp'.demes.length) ∧
        (calls.map (·.maxEvals)).sum ≤ 100 :=
  have ⟨xp', h⟩ : ∃ xp', createDemes (twoColumns [{0}, {1}]) ⟨[], [], [], ∅⟩ () 0 =
      some (true, xp') := ⟨_, rfl⟩
  ⟨xp', h, by decide, by decide, optimizeCalls_budget h (by decide) (by decide)⟩

/-- Feature sets `{}` and `{1}`: the only deme is optimized with the representation of `{1}`,
which keeps the argument `$2`, but with a scorer ignoring both columns, those of `{}`, and with
the ID of the first deme. -/
theorem createDemes_drops_first_rep :
    ∃ xp, createDemes (twoColumns [∅, {1}]) ⟨[], [], [], ∅⟩ () 0 = some (true, xp) ∧
      xp.reps = [{.argument 1}] ∧ xp.ignoreIdxsSeq = [{0, 1}, {0}] ∧
      optimizeCalls (twoColumns [∅, {1}]) xp 100 =
        some [⟨⟨{1}, ⟨1, some 0⟩⟩, {.argument 1}, {0, 1}, 100⟩] :=
  ⟨_, rfl, by decide, by decide, by decide⟩

/-- `k` columns and the feature sets `pop`, one deme for each; as in `twoColumns`, a
representation has a knob for every argument not withheld. -/
def columns (k : ℕ) (pop : List (Finset ℕ)) : Config Unit (Finset Vertex) (Finset ℕ) where
  fstor := some ⟨pop.length, false, k, fun _ => pop⟩
  ignoreOps := ∅
  argumentSet _ := ∅
  pruneXmplr x _ := x
  representation _ ops := ops
  fields ops := (Finset.range k).filter fun j => Vertex.argument ↑(j + 1) ∉ ops
  fieldsEmpty f := decide (f = ∅)

/-- Three demes and a budget of `-1`: the budget, converted to `size_t`, is `2^64 - 1`, and the
low 32 bits of its third are `1431655765`, so each deme gets that many evaluations instead of
`-1 / 3 = 0`, together `2^32 - 1`. -/
theorem optimizeCalls_negative_budget :
    ∃ xp, createDemes (columns 3 [{0}, {1}, {2}]) ⟨[], [], [], ∅⟩ () 0 = some (true, xp) ∧
      ∃ calls, optimizeCalls (columns 3 [{0}, {1}, {2}]) xp (-1) = some calls ∧
        calls.map (·.maxEvals) = [1431655765, 1431655765, 1431655765] ∧
        (calls.map (·.maxEvals)).sum = 4294967295 ∧ (-1 : ℤ).tdiv 3 = 0 :=
  ⟨_, rfl, _, rfl, by decide, by decide, by decide⟩

end Moses

end OpenCog
