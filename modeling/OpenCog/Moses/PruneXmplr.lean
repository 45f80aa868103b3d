import OpenCog.Moses.DemeExpander

/-!
# Pruning the exemplar

`deme_expander::prune_xmplr` walks a copy of the exemplar in pre-order and erases every argument
whose feature is not selected, with its subtree, going on from the iterator `erase` returns.  The
tree is a `tree<vertex>` of `tree.hh`, which is not under `src/`: a forest of nodes, each with its
children in order.  Its pre-order iterator is a zipper here:

* `Loc` : the node the iterator points to, its siblings before (nearest first) and after it, and
  the path up to the top (`Frame`);
* `Loc.incr` : `++it`, to the first child, or else to the next sibling of the node or of its
  nearest ancestor that has one, or to `end()` (`climb`);
* `Loc.erase` : `erase(it)`, which unlinks the subtree and returns the iterator `++` reaches after
  skipping the subtree's children.

The loop runs on fuel, one unit per iteration.  This file proves:

* `pruneLoop_step` : one iteration keeps the tree the loop will leave (`Iter.result`) and leaves
  one node less to visit;
* `pruneLoop_eq` : **the loop terminates within one iteration per node of the exemplar, and
  leaves `pruneArgs`**: the exemplar without the unselected arguments and their subtrees, every
  other vertex in its place;
* `pruneXmplr_features` : what `prune_xmplr` returns reads only selected columns the exemplar
  read, or the seed's;
* `featureSetDeme_disjoint` : **for each feature set of `create_demes`, the exemplar handed to the
  representation builder reads no column the scorer ignores**, whether it was pruned or its
  features were added to the feature set.
-/

namespace OpenCog

namespace Moses

/-- A node of `tree<vertex>` with its children, in order. -/
inductive ComboTree
  | node (v : Vertex) (children : List ComboTree)
  deriving Repr

namespace ComboTree

/-- The vertex of a node. -/
def vertex : ComboTree → Vertex
  | .node v _ => v

mutual
/-- The number of nodes of a subtree. -/
def size : ComboTree → ℕ
  | .node _ cs => sizeList cs + 1
/-- The number of nodes of a forest. -/
def sizeList : List ComboTree → ℕ
  | [] => 0
  | t :: ts => size t + sizeList ts
end

theorem size_pos : ∀ t : ComboTree, 0 < t.size
  | .node _ _ => Nat.succ_pos _

end ComboTree

open ComboTree

/-- `get_argument(v).abs_idx_from_zero()`. -/
def absIdxFromZero (idx : ℤ) : ℤ := idx.natAbs - 1

/-- The test of the loop: the vertex is an argument whose feature is not among
`selected_features`. -/
def Vertex.pruned (sel : Finset ℕ) : Vertex → Bool
  | .argument idx => !decide (absIdxFromZero idx ∈ sel.image fun n : ℕ => (n : ℤ))
  | .other _ => false

/-! ### The iterator of `tree.hh` -/

/-- A level of the path from the iterator up to the top: the parent's vertex, and the parent's
children before (nearest first) and after the subtree below. -/
structure Frame where
  /-- The parent's vertex. -/
  vertex : Vertex
  /-- The parent's children before, nearest first. -/
  left : List ComboTree
  /-- The parent's children after. -/
  right : List ComboTree

/-- A `pre_order_iterator` that is not `end()`: the node it points to, its siblings before
(nearest first) and after it, and the path up. -/
structure Loc where
  /-- The node `*it`, with its subtree. -/
  focus : ComboTree
  /-- Its siblings before, nearest first. -/
  left : List ComboTree
  /-- Its siblings after. -/
  right : List ComboTree
  /-- The levels above, nearest first. -/
  up : List Frame

/-- A `pre_order_iterator` with the tree it walks: at a node, or `end()`. -/
inductive Iter
  /-- At a node. -/
  | atNode (l : Loc)
  /-- `end()`, with the tree. -/
  | atEnd (t : List ComboTree)

/-- `skip_children(); ++it` from a finished subtree, with `left` the finished siblings nearest
first: the next sibling, or the next sibling of the nearest ancestor that has one, or `end()`. -/
def climb : List ComboTree → List ComboTree → List Frame → Iter
  | left, r :: rs, up => .atNode ⟨r, left, rs, up⟩
  | left, [], [] => .atEnd left.reverse
  | left, [], f :: up => climb (.node f.vertex left.reverse :: f.left) f.right up

/-- `++it`: to the first child, or on from a leaf as `climb` does. -/
def Loc.incr : Loc → Iter
  | ⟨.node v (c :: cs), l, r, up⟩ => .atNode ⟨c, [], cs, ⟨v, l, r⟩ :: up⟩
  | ⟨.node v [], l, r, up⟩ => climb (.node v [] :: l) r up

/-- `erase(it)`: the node goes with its subtree, and the iterator returned is the node that
followed the subtree. -/
def Loc.erase (l : Loc) : Iter :=
  climb l.left l.right l.up

/-- `begin()`. -/
def begin : List ComboTree → Iter
  | [] => .atEnd []
  | t :: ts => .atNode ⟨t, [], ts, []⟩

/-! ### `prune_xmplr` -/

/-- The erase loop of `prune_xmplr`, one iteration per unit of fuel: what it leaves at `end()`,
`none` when the fuel runs out first. -/
def pruneLoop (sel : Finset ℕ) : ℕ → Iter → Option (List ComboTree)
  | _, .atEnd t => some t
  | 0, .atNode _ => none
  | fuel + 1, .atNode l =>
    pruneLoop sel fuel (if l.focus.vertex.pruned sel then l.erase else l.incr)

/-- `deme_expander::prune_xmplr`: the erase loop, given one iteration per node, then
`simplify_knob_building`, then the seed `type_to_exemplar` gives when nothing is left; these two
are not under `src/` and are parameters. -/
def pruneXmplr (simplify : List ComboTree → List ComboTree) (seed : List ComboTree)
    (xmplr : List ComboTree) (sel : Finset ℕ) : Option (List ComboTree) :=
  (pruneLoop sel (sizeList xmplr) (begin xmplr)).map fun res =>
    let res := simplify res
    if res.isEmpty then seed else res

/-! ### What the loop should leave -/

mutual
/-- A subtree without the arguments whose feature is not selected: nothing for such an argument,
itself with its children pruned otherwise. -/
def pruneTree (sel : Finset ℕ) : ComboTree → List ComboTree
  | .node v cs => if v.pruned sel then [] else [.node v (pruneArgs sel cs)]
/-- A forest without the arguments whose feature is not selected, each with its subtree; every
other vertex stays, in order. -/
def pruneArgs (sel : Finset ℕ) : List ComboTree → List ComboTree
  | [] => []
  | t :: ts => pruneTree sel t ++ pruneArgs sel ts
end

theorem pruneArgs_cons (sel : Finset ℕ) (v : Vertex) (cs ts : List ComboTree) :
    pruneArgs sel (.node v cs :: ts) =
      if v.pruned sel then pruneArgs sel ts else .node v (pruneArgs sel cs) :: pruneArgs sel ts := by
  rw [pruneArgs, pruneTree]
  split <;> rfl

variable (sel : Finset ℕ)

/-- The tree the loop leaves when it finishes the levels `up` with `ts` at the bottom: the levels
above keep what was left of them, and their siblings after are pruned. -/
def closeUp : List ComboTree → List Frame → List ComboTree
  | ts, [] => ts
  | ts, f :: up => closeUp (f.left.reverse ++ .node f.vertex ts :: pruneArgs sel f.right) up

/-- The tree the loop leaves from an iterator: what is before it as it stands, the rest pruned. -/
def Iter.result : Iter → List ComboTree
  | .atEnd t => t
  | .atNode l => closeUp sel (l.left.reverse ++ pruneArgs sel (l.focus :: l.right)) l.up

/-- The nodes after the levels `up`. -/
def framesSize : List Frame → ℕ
  | [] => 0
  | f :: up => sizeList f.right + framesSize up

/-- The nodes the iterator has still to visit. -/
def Iter.remaining : Iter → ℕ
  | .atEnd _ => 0
  | .atNode l => l.focus.size + sizeList l.right + framesSize l.up

variable {sel}

theorem climb_result (left right : List ComboTree) (up : List Frame) :
    (climb left right up).result sel = closeUp sel (left.reverse ++ pruneArgs sel right) up := by
  induction up generalizing left right with
  | nil => cases right <;> simp [climb, Iter.result, closeUp, pruneArgs]
  | cons f up ih =>
    cases right with
    | cons r rs => rfl
    | nil => simp [climb, ih, closeUp, pruneArgs]

theorem climb_remaining (left right : List ComboTree) (up : List Frame) :
    (climb left right up).remaining = sizeList right + framesSize up := by
  induction up generalizing left right with
  | nil => cases right <;> simp [climb, Iter.remaining, sizeList, framesSize]
  | cons f up ih =>
    cases right with
    | cons r rs => simp [climb, Iter.remaining, sizeList]
    | nil => simp [climb, ih, sizeList, framesSize]

/-- **One iteration** keeps the tree the loop will leave, and leaves one node less to visit. -/
theorem pruneLoop_step (l : Loc) :
    (if l.focus.vertex.pruned sel then l.erase else l.incr).result sel = (Iter.atNode l).result sel ∧
    (if l.focus.vertex.pruned sel then l.erase else l.incr).remaining < (Iter.atNode l).remaining := by
  obtain ⟨⟨v, cs⟩, left, right, up⟩ := l
  simp only [vertex]
  by_cases hv : v.pruned sel
  · rw [if_pos hv, Loc.erase, climb_result, climb_remaining]
    simp only [Iter.result, Iter.remaining, pruneArgs_cons, if_pos hv, size, true_and]
    omega
  · rw [if_neg hv]
    cases cs with
    | cons c cs =>
      simp only [Loc.incr, Iter.result, closeUp, pruneArgs_cons, if_neg hv, Iter.remaining, size,
        sizeList, framesSize, List.reverse_nil, List.nil_append, true_and]
      omega
    | nil =>
      rw [Loc.incr, climb_result, climb_remaining]
      simp only [Iter.result, Iter.remaining, pruneArgs, pruneTree, if_neg hv, size, sizeList,
        List.reverse_cons, List.append_assoc, List.singleton_append, true_and]
      omega

theorem pruneLoop_result {fuel : ℕ} {it : Iter} (h : it.remaining ≤ fuel) :
    pruneLoop sel fuel it = some (it.result sel) := by
  induction fuel generalizing it with
  | zero =>
    cases it with
    | atEnd t => rfl
    | atNode l =>
      have := size_pos l.focus
      simp only [Iter.remaining] at h
      omega
  | succ fuel ih =>
    cases it with
    | atEnd t => rfl
    | atNode l =>
      obtain ⟨hr, hlt⟩ := @pruneLoop_step sel l
      rw [pruneLoop, ih (by omega), hr]

theorem begin_remaining (xmplr : List ComboTree) : (begin xmplr).remaining = sizeList xmplr := by
  cases xmplr <;> simp [begin, Iter.remaining, sizeList, framesSize]

theorem begin_result (xmplr : List ComboTree) : (begin xmplr).result sel = pruneArgs sel xmplr := by
  cases xmplr <;> simp [begin, Iter.result, closeUp, pruneArgs]

/-- **The erase loop of `prune_xmplr` terminates**, within one iteration per node of the
exemplar, **and leaves the exemplar without the arguments whose feature is not selected**, each
with its subtree; every other vertex keeps its place. -/
theorem pruneLoop_eq (sel : Finset ℕ) (xmplr : List ComboTree) {fuel : ℕ}
    (h : sizeList xmplr ≤ fuel) : pruneLoop sel fuel (begin xmplr) = some (pruneArgs sel xmplr) := by
  rw [pruneLoop_result (begin_remaining xmplr ▸ h), begin_result]

theorem pruneLoop_eq_and :
    sizeList [.node (.other "and") [.node (.argument 1) [], .node (.argument (-2)) [],
      .node (.argument 3) []]] ≤ 4 ∧
    pruneLoop {0, 2} 4 (begin [.node (.other "and") [.node (.argument 1) [],
        .node (.argument (-2)) [], .node (.argument 3) []]]) =
      some (pruneArgs {0, 2} [.node (.other "and") [.node (.argument 1) [],
        .node (.argument (-2)) [], .node (.argument 3) []]]) :=
  ⟨by decide, pruneLoop_eq _ _ (by decide)⟩

example : pruneLoop {0} 5 (begin [.node (.other "and") [.node (.argument 1) [],
    .node (.argument 2) [], .node (.argument (-2)) [], .node (.argument 3) []]]) =
      some [.node (.other "and") [.node (.argument 1) []]] := rfl

/-- `prune_xmplr` simplifies the exemplar without its unselected arguments, and falls back on the
seed when nothing is left. -/
theorem pruneXmplr_eq (simplify : List ComboTree → List ComboTree) (seed : List ComboTree)
    (xmplr : List ComboTree) (sel : Finset ℕ) :
    pruneXmplr simplify seed xmplr sel =
      some (if (simplify (pruneArgs sel xmplr)).isEmpty then seed
        else simplify (pruneArgs sel xmplr)) := by
  rw [pruneXmplr, pruneLoop_result (begin_remaining xmplr).le, begin_result]
  rfl

/-! ### The features of the exemplar -/

/-- The column an argument reads, `abs_idx_from_zero()`: `$idx` and `$-idx` read column
`idx - 1`; argument indices count from `1`, so that `$0` reads none. -/
def Vertex.columns : Vertex → Finset ℕ
  | .argument idx => if idx = 0 then ∅ else {idx.natAbs - 1}
  | .other _ => ∅

mutual
/-- `get_argument_abs_idx_from_zero_set`, which is not under `src/`: the columns the arguments of
a subtree read. -/
def ComboTree.features : ComboTree → Finset ℕ
  | .node v cs => v.columns ∪ featuresList cs
/-- `features` over a forest. -/
def ComboTree.featuresList : List ComboTree → Finset ℕ
  | [] => ∅
  | t :: ts => t.features ∪ featuresList ts
end

theorem featuresList_append (ts us : List ComboTree) :
    featuresList (ts ++ us) = featuresList ts ∪ featuresList us := by
  induction ts with
  | nil => simp [featuresList]
  | cons t ts ih => rw [List.cons_append, featuresList, featuresList, ih, Finset.union_assoc]

/-- A vertex the loop keeps reads only selected columns. -/
theorem Vertex.columns_subset {v : Vertex} (hv : v.pruned sel = false) : v.columns ⊆ sel := by
  cases v with
  | other name => exact Finset.empty_subset _
  | argument idx =>
    simp only [Vertex.pruned, absIdxFromZero, Bool.not_eq_false', decide_eq_true_eq,
      Finset.mem_image] at hv
    obtain ⟨n, hn, hidx⟩ := hv
    rw [Vertex.columns]
    split_ifs with h0
    · exact Finset.empty_subset _
    · rw [Finset.singleton_subset_iff, show idx.natAbs - 1 = n by omega]
      exact hn

mutual
/-- What pruning leaves of a subtree reads only columns that are selected and that the subtree
reads. -/
theorem featuresList_pruneTree : ∀ t : ComboTree, featuresList (pruneTree sel t) ⊆ sel ∩ t.features
  | .node v cs => by
    have ih := featuresList_pruneArgs cs
    rw [pruneTree]
    split
    · exact Finset.empty_subset _
    · rename_i hv
      rw [featuresList, featuresList, features, Finset.union_empty]
      exact Finset.union_subset
        (Finset.subset_inter (Vertex.columns_subset (by simpa using hv)) Finset.subset_union_left)
        (ih.trans (Finset.inter_subset_inter_left Finset.subset_union_right))
/-- What pruning leaves of a forest reads only columns that are selected and that the forest
reads. -/
theorem featuresList_pruneArgs : ∀ ts : List ComboTree,
    featuresList (pruneArgs sel ts) ⊆ sel ∩ featuresList ts
  | [] => Finset.empty_subset _
  | t :: ts => by
    rw [pruneArgs, featuresList_append, featuresList, Finset.inter_union_distrib_left]
    exact Finset.union_subset_union (featuresList_pruneTree t) (featuresList_pruneArgs ts)
end

variable {simplify : List ComboTree → List ComboTree} {seed : List ComboTree}

theorem featuresList_simplified (hsimp : ∀ ts, featuresList (simplify ts) ⊆ featuresList ts)
    (xmplr : List ComboTree) (sel : Finset ℕ) :
    featuresList (if (simplify (pruneArgs sel xmplr)).isEmpty then seed
      else simplify (pruneArgs sel xmplr)) ⊆ sel ∩ featuresList xmplr ∪ featuresList seed := by
  split
  · exact Finset.subset_union_right
  · exact ((hsimp _).trans (featuresList_pruneArgs xmplr)).trans Finset.subset_union_left

/-- **`prune_xmplr` leaves an exemplar that reads only selected columns** among those the
exemplar read, or the seed's, provided the simplification reads no new column. -/
theorem pruneXmplr_features (hsimp : ∀ ts, featuresList (simplify ts) ⊆ featuresList ts)
    (xmplr : List ComboTree) (sel : Finset ℕ) :
    ∃ res, pruneXmplr simplify seed xmplr sel = some res ∧
      featuresList res ⊆ sel ∩ featuresList xmplr ∪ featuresList seed :=
  ⟨_, pruneXmplr_eq simplify seed xmplr sel, featuresList_simplified hsimp xmplr sel⟩

theorem pruneXmplr_features_and :
    (∀ ts, featuresList (id ts) ⊆ featuresList ts) ∧
    ∃ res, pruneXmplr id [] [.node (.other "and") [.node (.argument 1) [],
        .node (.argument (-2)) [], .node (.argument 3) []]] {0, 2} = some res ∧
      featuresList res ⊆ {0, 2} ∩ featuresList [.node (.other "and") [.node (.argument 1) [],
        .node (.argument (-2)) [], .node (.argument 3) []]] ∪ featuresList [] :=
  ⟨fun _ => subset_rfl, pruneXmplr_features (fun _ => subset_rfl) _ _⟩

/-- **The exemplar of each representation reads no column its scorer ignores.**  Whether
`create_demes` prunes the exemplar to a feature set or adds the exemplar's features to it, no
column the exemplar handed to the representation builder reads is among the columns pushed on
`_ignore_idxs_seq` for it (nor, by `featureSetDeme_ignoreOps_eq`, withheld from the
representation), when `get_argument_abs_idx_from_zero_set` and `prune_xmplr` are the ones above,
the simplification reads no new column and the seed reads none. -/
theorem featureSetDeme_disjoint {Rep F : Type} {cfg : Config (List ComboTree) Rep F}
    (harg : cfg.argumentSet = featuresList)
    (hprune : ∀ x sf, pruneXmplr simplify seed x sf = some (cfg.pruneXmplr x sf))
    (hsimp : ∀ ts, featuresList (simplify ts) ⊆ featuresList ts) (hseed : featuresList seed = ∅)
    (festor : FeatureSelector (List ComboTree)) (exemplar : List ComboTree) (sf : Finset ℕ) :
    Disjoint (featuresList (featureSetDeme cfg festor exemplar sf).xmplr)
      (featureSetDeme cfg festor exemplar sf).ignoreIdxs := by
  have hsub : featuresList (featureSetDeme cfg festor exemplar sf).xmplr ⊆
      if festor.pruneXmplr then sf else sf ∪ cfg.argumentSet exemplar := by
    cases hp : festor.pruneXmplr
    · simp only [featureSetDeme, hp, harg, Bool.false_eq_true, ite_false]
      exact Finset.subset_union_right
    · have hx := Option.some.inj ((hprune exemplar sf).symm.trans (pruneXmplr_eq _ _ exemplar sf))
      have hres := @featuresList_simplified simplify seed hsimp exemplar sf
      rw [hseed, Finset.union_empty, ← hx] at hres
      simpa only [featureSetDeme, hp, ite_true] using hres.trans Finset.inter_subset_left
  rw [featureSetDeme_ignoreIdxs]
  exact Finset.disjoint_left.2 fun j hj hj' => (Finset.mem_filter.1 hj').2 (hsub hj)

/-- Feature selection over `k` columns with the feature sets `pop`, pruning the exemplar with no
simplification and an empty seed; a representation has a knob for every argument not withheld. -/
def pruningColumns (k : ℕ) (pop : List (Finset ℕ)) :
    Config (List ComboTree) (Finset Vertex) (Finset ℕ) where
  fstor := some ⟨pop.length, true, k, fun _ => pop⟩
  ignoreOps := ∅
  argumentSet := featuresList
  pruneXmplr x sf := if (pruneArgs sf x).isEmpty then [] else pruneArgs sf x
  representation _ ops := ops
  fields ops := (Finset.range k).filter fun j => Vertex.argument ↑(j + 1) ∉ ops
  fieldsEmpty f := decide (f = ∅)

theorem featureSetDeme_disjoint_and :
    (pruningColumns 3 [{0, 2}]).argumentSet = featuresList ∧
    (∀ x sf, pruneXmplr id [] x sf = some ((pruningColumns 3 [{0, 2}]).pruneXmplr x sf)) ∧
    (∀ ts, featuresList (id ts) ⊆ featuresList ts) ∧ featuresList [] = ∅ ∧
    Disjoint (featuresList (featureSetDeme (pruningColumns 3 [{0, 2}]) ⟨1, true, 3, fun _ => [{0, 2}]⟩
        [.node (.other "and") [.node (.argument 1) [], .node (.argument (-2)) [],
          .node (.argument 3) []]] {0, 2}).xmplr)
      (featureSetDeme (pruningColumns 3 [{0, 2}]) ⟨1, true, 3, fun _ => [{0, 2}]⟩
        [.node (.other "and") [.node (.argument 1) [], .node (.argument (-2)) [],
          .node (.argument 3) []]] {0, 2}).ignoreIdxs :=
  ⟨rfl, fun x sf => pruneXmplr_eq id [] x sf, fun _ => subset_rfl, rfl,
    featureSetDeme_disjoint rfl (fun x sf => pruneXmplr_eq id [] x sf) (fun _ => subset_rfl) rfl
      _ _ _⟩

end Moses

end OpenCog
