import OpenCog.Moses.DemeExpander

/-!
# Runs of a deme expander

The search loop of MOSES, which is not under `src/`, drives a `deme_expander` through its three
methods, in whatever order it likes: `create_demes` on an exemplar, `optimize_demes`, and
`free_demes`.  A call is an `Op`, its effect on the members is `DemeExpander.step` (`none` where
an `OC_ASSERT` fails, or where `optimize_demes` divides by zero or reads past a sequence), and the
states some sequence of calls reaches from the constructor are `DemeExpander.Reachable`.

* `DemeExpander.WF` : the invariant between calls: `_demes[i]` was created with the field set of
  `_reps[i]`, and with feature selection there is a column set for every representation;
* `step_wf`, `Reachable.wf` : every call keeps it, so every reachable state has it;
* `optimizeDemes_eq_none_iff` : **in every reachable state `optimize_demes` fails exactly when
  there is no deme**: it never reads past `_reps` or `_ignore_idxs_seq`;
* `optimizeDemes_calls` : in every reachable state, each deme is optimized with the
  representation it was created from;
* `runFrom_cscorerIgnored` : with feature selection, the first `optimize_demes` of a run leaves
  the scorer ignoring no column, whatever columns it ignored before, and nothing restores them;
  without, no call touches them;
* `runFrom_createDemes_twice` : with feature selection, `create_demes` leaves its column sets
  behind even when it returns `false`, so that a second `create_demes` fails unless `free_demes`
  comes in between.
-/

namespace OpenCog

namespace Moses

/-- A call on a `deme_expander`. -/
inductive Op (Tree : Type)
  /-- `create_demes(exemplar, n_expansions)`. -/
  | createDemes (exemplar : Tree) (nExpansions : ℤ)
  /-- `optimize_demes(max_evals, max_time)`. -/
  | optimizeDemes (maxEvals maxTime : ℤ)
  /-- `free_demes()`. -/
  | freeDemes

/-- Whether the call is `optimize_demes`. -/
def Op.isOptimize {Tree : Type} : Op Tree → Bool
  | .optimizeDemes _ _ => true
  | _ => false

namespace DemeExpander

variable {Tree Rep F : Type} (cfg : Config Tree Rep F) (optimize : OptimizeCall Rep F → ℤ → ℕ)

/-- The constructor: no column set, representation or deme, and the scorer `_cscorer` it is given,
which ignores the columns `ignored`. -/
def init (ignored : Finset ℕ) : DemeExpander Rep F := ⟨[], [], [], ignored⟩

/-- The members after a call; `none` where the call fails. -/
def step (xp : DemeExpander Rep F) : Op Tree → Option (DemeExpander Rep F)
  | .createDemes exemplar n => (createDemes cfg xp exemplar n).map Prod.snd
  | .optimizeDemes maxEvals maxTime => (optimizeDemes cfg optimize xp maxEvals maxTime).map Prod.snd
  | .freeDemes => some (freeDemes xp)

/-- A sequence of calls; `none` if one of them fails. -/
def runFrom (xp : DemeExpander Rep F) (ops : List (Op Tree)) : Option (DemeExpander Rep F) :=
  ops.foldlM (step cfg optimize) xp

/-- The states a sequence of calls reaches from the constructor. -/
inductive Reachable : DemeExpander Rep F → Prop
  | init (ignored : Finset ℕ) : Reachable (init ignored)
  | step {xp xp' : DemeExpander Rep F} {op : Op Tree} :
      Reachable xp → step cfg optimize xp op = some xp' → Reachable xp'

/-- The invariant of a `deme_expander` between calls. -/
structure WF (xp : DemeExpander Rep F) : Prop where
  /-- `_demes[i]` was created with the field set of `_reps[i]`, and there are as many of each. -/
  demes_fields : xp.demes.map Deme.fields = xp.reps.map cfg.fields
  /-- With feature selection there is a column set for every representation. -/
  reps_le : cfg.fstor.isSome → xp.reps.length ≤ xp.ignoreIdxsSeq.length

variable {cfg optimize}

/-! ### Runs -/

theorem runFrom_cons {xp xp' : DemeExpander Rep F} {op : Op Tree} {ops : List (Op Tree)}
    (h : runFrom cfg optimize xp (op :: ops) = some xp') :
    ∃ xp₁, step cfg optimize xp op = some xp₁ ∧ runFrom cfg optimize xp₁ ops = some xp' := by
  simp only [runFrom, List.foldlM_cons] at h
  cases h₁ : step cfg optimize xp op with
  | none => simp [h₁] at h
  | some xp₁ => exact ⟨xp₁, rfl, by simpa [h₁] using h⟩

/-- A run from a reachable state ends in a reachable state. -/
theorem Reachable.runFrom {xp xp' : DemeExpander Rep F} (hr : Reachable cfg optimize xp)
    {ops : List (Op Tree)} (h : runFrom cfg optimize xp ops = some xp') :
    Reachable cfg optimize xp' := by
  induction ops generalizing xp with
  | nil =>
    cases h
    exact hr
  | cons op ops ih =>
    obtain ⟨xp₁, h₁, h⟩ := runFrom_cons h
    exact ih (hr.step h₁) h

/-! ### The invariant -/

theorem WF.length_eq {xp : DemeExpander Rep F} (hw : xp.WF cfg) :
    xp.demes.length = xp.reps.length := by
  simpa using congrArg List.length hw.demes_fields

theorem WF.fields_eq {xp : DemeExpander Rep F} (hw : xp.WF cfg) {i : ℕ} {d : Deme F} {r : Rep}
    (hd : xp.demes[i]? = some d) (hr : xp.reps[i]? = some r) : d.fields = cfg.fields r := by
  simpa [hd, hr] using congrArg (·[i]?) hw.demes_fields

theorem map_fields_zipWith {rs : List Rep} {ids : List DemeID} (h : rs.length ≤ ids.length) :
    (List.zipWith (fun r id => (⟨cfg.fields r, id⟩ : Deme F)) rs ids).map Deme.fields =
      rs.map cfg.fields := by
  induction rs generalizing ids with
  | nil => rfl
  | cons r rs ih =>
    cases ids with
    | nil => cases h
    | cons id ids => simp [ih (Nat.le_of_succ_le_succ h)]

theorem wf_init (ignored : Finset ℕ) : (init ignored : DemeExpander Rep F).WF cfg :=
  ⟨rfl, fun _ => le_rfl⟩

theorem wf_createDemes {xp xp' : DemeExpander Rep F} {exemplar : Tree} {n : ℤ} {b : Bool}
    (h : Moses.createDemes cfg xp exemplar n = some (b, xp')) : xp'.WF cfg := by
  obtain ⟨hd, hlen, hig, -⟩ := createDemes_spec h
  exact ⟨by rw [hd, map_fields_zipWith hlen], hig⟩

theorem optimizeDemes_eq_some {xp xp' : DemeExpander Rep F} {maxEvals maxTime : ℤ}
    {evals : List ℕ} (h : Moses.optimizeDemes cfg optimize xp maxEvals maxTime = some (evals, xp')) :
    xp' = if cfg.fstor.isSome then { xp with cscorerIgnored := ∅ } else xp := by
  obtain ⟨calls, -, h⟩ := Option.map_eq_some'.1 h
  exact (Prod.mk.inj h).2.symm

/-- **One call keeps the invariant.**  `create_demes` makes it from nothing, `optimize_demes`
changes only the scorer, and `free_demes` empties the three sequences. -/
theorem step_wf {xp xp' : DemeExpander Rep F} {op : Op Tree} (hw : xp.WF cfg)
    (h : step cfg optimize xp op = some xp') : xp'.WF cfg := by
  cases op with
  | createDemes exemplar n =>
    obtain ⟨⟨b, xp''⟩, hc, rfl⟩ := Option.map_eq_some'.1 h
    exact wf_createDemes hc
  | optimizeDemes maxEvals maxTime =>
    obtain ⟨⟨evals, xp''⟩, hc, rfl⟩ := Option.map_eq_some'.1 h
    rw [optimizeDemes_eq_some hc]
    split
    · exact ⟨hw.demes_fields, hw.reps_le⟩
    · exact hw
  | freeDemes =>
    cases h
    exact wf_init xp.cscorerIgnored

/-- **Every reachable state has the invariant.** -/
theorem Reachable.wf {xp : DemeExpander Rep F} (h : Reachable cfg optimize xp) : xp.WF cfg := by
  induction h with
  | init ignored => exact wf_init ignored
  | step _ hs ih => exact step_wf ih hs

/-! ### `optimize_demes` in a reachable state -/

/-- On a state with the invariant and a deme, `optimize_demes` makes one call per deme, the
`i`-th with the `i`-th deme and the representation it was created from. -/
theorem WF.optimizeDemes {xp : DemeExpander Rep F} (hw : xp.WF cfg) (hne : xp.demes ≠ [])
    (maxEvals maxTime : ℤ) :
    ∃ calls : List (OptimizeCall Rep F), Moses.optimizeDemes cfg optimize xp maxEvals maxTime =
        some (calls.map (optimize · maxTime),
          if cfg.fstor.isSome then { xp with cscorerIgnored := ∅ } else xp) ∧
      calls.length = xp.demes.length ∧
      ∀ (i : ℕ) (c : OptimizeCall Rep F), calls[i]? = some c →
        xp.demes[i]? = some c.deme ∧ xp.reps[i]? = some c.rep ∧ c.deme.fields = cfg.fields c.rep := by
  obtain ⟨calls, hc, hlen, hget⟩ := optimizeCalls_eq hne hw.length_eq.le
    (fun hs => hw.length_eq ▸ hw.reps_le hs) maxEvals
  refine ⟨calls, by simp [Moses.optimizeDemes, hc], hlen, fun i c hi => ?_⟩
  obtain ⟨hd, hr, -⟩ := callAt_eq_some.1 (hget i ▸ hi)
  exact ⟨hd, hr, hw.fields_eq hd hr⟩

/-- **In every reachable state, `optimize_demes` fails exactly when there is no deme**, where
`max_evals / _demes.size()` divides by zero: whatever the calls before, it never reads past
`_reps` or, with feature selection, past `_ignore_idxs_seq`. -/
theorem optimizeDemes_eq_none_iff {xp : DemeExpander Rep F} (h : Reachable cfg optimize xp)
    (maxEvals maxTime : ℤ) :
    Moses.optimizeDemes cfg optimize xp maxEvals maxTime = none ↔ xp.demes = [] := by
  refine ⟨fun hn => ?_, fun he => by simp [Moses.optimizeDemes, optimizeCalls, he]⟩
  by_contra hne
  obtain ⟨calls, hc, -⟩ := h.wf.optimizeDemes hne maxEvals maxTime
  rw [hc] at hn
  cases hn

theorem optimizeDemes_eq_none_iff_round :
    ∃ xp, Reachable (twoColumns [{0}, {1}]) (fun _ _ => 0) xp ∧ xp.demes ≠ [] ∧
      (Moses.optimizeDemes (twoColumns [{0}, {1}]) (fun _ _ => 0) xp 100 0 = none ↔ xp.demes = []) :=
  have ⟨xp, h⟩ : ∃ xp, runFrom (twoColumns [{0}, {1}]) (fun _ _ => 0) (init ∅)
      [.createDemes () 0, .optimizeDemes 100 0] = some xp := ⟨_, rfl⟩
  have hr := (Reachable.init ∅).runFrom h
  ⟨xp, hr, by cases h; decide, optimizeDemes_eq_none_iff hr 100 0⟩

/-- **In every reachable state each deme is optimized with the representation it was created
from**: `optimize_demes` makes one call per deme, and the `i`-th hands `_optimize` the deme
`_demes[i]` and a scorer over `_reps[i]`, whose field set is the deme's. -/
theorem optimizeDemes_calls {xp : DemeExpander Rep F} (h : Reachable cfg optimize xp)
    (hne : xp.demes ≠ []) (maxEvals maxTime : ℤ) :
    ∃ calls : List (OptimizeCall Rep F), Moses.optimizeDemes cfg optimize xp maxEvals maxTime =
        some (calls.map (optimize · maxTime),
          if cfg.fstor.isSome then { xp with cscorerIgnored := ∅ } else xp) ∧
      calls.length = xp.demes.length ∧
      ∀ (i : ℕ) (c : OptimizeCall Rep F), calls[i]? = some c →
        xp.demes[i]? = some c.deme ∧ xp.reps[i]? = some c.rep ∧ c.deme.fields = cfg.fields c.rep :=
  h.wf.optimizeDemes hne maxEvals maxTime

theorem optimizeDemes_calls_two :
    ∃ xp, Reachable (twoColumns [{0}, {1}]) (fun _ _ => 0) xp ∧ xp.demes ≠ [] ∧
      ∃ calls : List (OptimizeCall (Finset Vertex) (Finset ℕ)),
        Moses.optimizeDemes (twoColumns [{0}, {1}]) (fun _ _ => 0) xp 100 0 =
          some (calls.map fun _ => 0,
            if (twoColumns [{0}, {1}]).fstor.isSome then { xp with cscorerIgnored := ∅ } else xp) ∧
        calls.length = xp.demes.length ∧
        ∀ (i : ℕ) (c : OptimizeCall (Finset Vertex) (Finset ℕ)), calls[i]? = some c →
          xp.demes[i]? = some c.deme ∧ xp.reps[i]? = some c.rep ∧
            c.deme.fields = (twoColumns [{0}, {1}]).fields c.rep :=
  have hr := @Reachable.step _ _ _ (twoColumns [{0}, {1}]) (fun _ _ => 0) _ _ (.createDemes () 0)
    (.init ∅) rfl
  ⟨_, hr, by decide, optimizeDemes_calls hr (by decide) 100 0⟩

/-! ### The scorer over a run -/

/-- One call: only `optimize_demes` with feature selection touches the scorer, and it leaves it
ignoring no column. -/
theorem step_cscorerIgnored {xp xp' : DemeExpander Rep F} {op : Op Tree}
    (h : step cfg optimize xp op = some xp') :
    xp'.cscorerIgnored = if cfg.fstor.isSome && op.isOptimize then ∅ else xp.cscorerIgnored := by
  cases op with
  | createDemes exemplar n =>
    obtain ⟨⟨b, xp''⟩, hc, rfl⟩ := Option.map_eq_some'.1 h
    simpa [Op.isOptimize] using (createDemes_spec hc).2.2.2
  | optimizeDemes maxEvals maxTime =>
    obtain ⟨⟨evals, xp''⟩, hc, rfl⟩ := Option.map_eq_some'.1 h
    rw [optimizeDemes_eq_some hc]
    cases cfg.fstor.isSome <;> rfl
  | freeDemes =>
    cases h
    simp [Op.isOptimize, freeDemes]

/-- **The scorer after a run.**  With feature selection, once a run has called `optimize_demes`
the scorer ignores no column, whatever columns it ignored before (the `FIXME` of
`optimize_demes`), and no later call restores them; without feature selection no call touches
the scorer. -/
theorem runFrom_cscorerIgnored {xp xp' : DemeExpander Rep F} {ops : List (Op Tree)}
    (h : runFrom cfg optimize xp ops = some xp') :
    xp'.cscorerIgnored =
      if cfg.fstor.isSome && ops.any Op.isOptimize then ∅ else xp.cscorerIgnored := by
  induction ops generalizing xp with
  | nil =>
    cases h
    simp
  | cons op ops ih =>
    obtain ⟨xp₁, h₁, h⟩ := runFrom_cons h
    rw [ih h, step_cscorerIgnored h₁, List.any_cons]
    cases cfg.fstor.isSome <;> cases op.isOptimize <;> simp

theorem runFrom_cscorerIgnored_round :
    ∃ xp', runFrom (twoColumns [{0}, {1}]) (fun _ _ => 0) (init {0})
        [.createDemes () 0, .optimizeDemes 100 0, .freeDemes] = some xp' ∧
      xp'.cscorerIgnored =
        if (twoColumns [{0}, {1}]).fstor.isSome &&
          ([.createDemes () 0, .optimizeDemes 100 0, .freeDemes] : List (Op Unit)).any Op.isOptimize
        then ∅ else (init {0} : DemeExpander (Finset Vertex) (Finset ℕ)).cscorerIgnored :=
  have ⟨xp', h⟩ : ∃ xp', runFrom (twoColumns [{0}, {1}]) (fun _ _ => 0) (init {0})
      [.createDemes () 0, .optimizeDemes 100 0, .freeDemes] = some xp' := ⟨_, rfl⟩
  ⟨xp', h, runFrom_cscorerIgnored h⟩

/-! ### Column sets left behind -/

/-- A call other than `free_demes` keeps column sets on `_ignore_idxs_seq`: `create_demes` fails
on them, and `optimize_demes` changes only the scorer. -/
theorem step_ignoreIdxsSeq_ne_nil {xp xp' : DemeExpander Rep F} {op : Op Tree}
    (hne : xp.ignoreIdxsSeq ≠ []) (hop : op ≠ .freeDemes) (h : step cfg optimize xp op = some xp') :
    xp'.ignoreIdxsSeq ≠ [] := by
  cases op with
  | createDemes exemplar n => simp [step, createDemes_of_ignoreIdxsSeq hne] at h
  | optimizeDemes maxEvals maxTime =>
    obtain ⟨⟨evals, xp''⟩, hc, rfl⟩ := Option.map_eq_some'.1 h
    rw [optimizeDemes_eq_some hc]
    split <;> exact hne
  | freeDemes => exact absurd rfl hop

/-- While column sets are left, a run without `free_demes` fails at its next `create_demes`. -/
theorem runFrom_createDemes_of_ne_nil {xp : DemeExpander Rep F} (hne : xp.ignoreIdxsSeq ≠ [])
    {ops : List (Op Tree)} (hfree : .freeDemes ∉ ops) (exemplar : Tree) (n : ℤ) :
    runFrom cfg optimize xp (ops ++ [.createDemes exemplar n]) = none := by
  induction ops generalizing xp with
  | nil => simp [runFrom, step, createDemes_of_ignoreIdxsSeq hne]
  | cons op ops ih =>
    rw [List.mem_cons, not_or] at hfree
    cases h : step cfg optimize xp op with
    | none => simp [runFrom, h]
    | some xp' =>
      simpa [runFrom, h] using ih (step_ignoreIdxsSeq_ne_nil hne (Ne.symm hfree.1) h) hfree.2

/-- **A second `create_demes` needs a `free_demes` first.** With feature selection, a sequence of
calls that runs `create_demes` on an exemplar whose selection is not empty, then any calls but
`free_demes`, then `create_demes` again, fails an assertion: the first call leaves a column set
per feature set on `_ignore_idxs_seq`, whether it returns `true` or `false` (with no deme), and
the second asserts `_ignore_idxs_seq.empty()`. -/
theorem runFrom_createDemes_twice {festor : FeatureSelector Tree} (hf : cfg.fstor = some festor)
    (xp : DemeExpander Rep F) {exemplar : Tree} (hne : festor.select exemplar ≠ []) (n : ℤ)
    {ops : List (Op Tree)} (hfree : .freeDemes ∉ ops) (exemplar' : Tree) (n' : ℤ) :
    runFrom cfg optimize xp (.createDemes exemplar n :: ops ++ [.createDemes exemplar' n']) =
      none := by
  cases h : step cfg optimize xp (.createDemes exemplar n) with
  | none => simp [runFrom, h]
  | some xp₁ =>
    obtain ⟨⟨b, xp₁'⟩, hc, rfl⟩ := Option.map_eq_some'.1 h
    simpa [runFrom, h] using
      runFrom_createDemes_of_ne_nil (createDemes_ignoreIdxsSeq_ne_nil hf hc hne) hfree exemplar' n'

theorem runFrom_createDemes_twice_round :
    ((twoColumns [∅, ∅]).fstor = some (twoColumnsSelector [∅, ∅]) ∧
      (twoColumnsSelector [∅, ∅]).select () ≠ [] ∧ .freeDemes ∉ ([] : List (Op Unit)) ∧
      runFrom (twoColumns [∅, ∅]) (fun _ _ => 0) (init ∅)
        (.createDemes () 0 :: [] ++ [.createDemes () 1]) = none) ∧
    ((twoColumns [{0}, {1}]).fstor = some (twoColumnsSelector [{0}, {1}]) ∧
      (twoColumnsSelector [{0}, {1}]).select () ≠ [] ∧
      .freeDemes ∉ ([.optimizeDemes 100 0] : List (Op Unit)) ∧
      runFrom (twoColumns [{0}, {1}]) (fun _ _ => 0) (init ∅)
        (.createDemes () 0 :: [.optimizeDemes 100 0] ++ [.createDemes () 1]) = none) :=
  ⟨⟨rfl, by decide, List.not_mem_nil _,
    runFrom_createDemes_twice rfl (init ∅) (by decide) 0 (List.not_mem_nil _) () 1⟩,
   ⟨rfl, by decide, by simp,
    runFrom_createDemes_twice rfl (init ∅) (by decide) 0 (by simp) () 1⟩⟩

end DemeExpander

end Moses

end OpenCog
