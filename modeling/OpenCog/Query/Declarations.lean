import OpenCog.Query.Implicator

/-!
# What `do_bindlink` accepts, and what it hands to `do_match`

`do_bindlink` checks the `BindLink`, reads its declarations (`varDecls`, through `get_vartype`
for typed variables), installs the type map on the callback and leaves the rest to `do_imply`,
which checks the `ImplicationLink` and splits its predicate.  This file states the shapes it
accepts in the words of the spec (`Declaration`, `BindShape`) and proves:

* `getVartype_spec` : `get_vartype` returns 0 exactly on a well-formed `TypedVariableLink`, and
  then adds its variable with the named types (unless the variable has an entry already);
  otherwise it changes nothing;
* `match_cases` : the low-level `match` returns without a call when its variables or clauses are
  a node, raises `InvalidParamException` on the other shape errors, and otherwise calls
  `do_match` with the children of its three arguments;
* `doImply_clauses` : an `AndLink` predicate is split into its children that are not `NotLink`s
  and the first children of its `NotLink`s, in order; any other predicate is the one clause;
* `doBindlink_invalidParam_iff` : before `do_match`, `do_bindlink` raises `InvalidParamException`
  exactly on the terms that are not `BindLink(D, ImplicationLink(P, M))` with a declaration `D`
  and a link `P`;
* `doBindlink_terminate_iff` : on those terms it ends the program exactly when `P` is an
  `AndLink` with a `NotLink` child that has no child, whose `getOutgoingAtom(0)` raises a
  `RuntimeException` that the specification of `do_imply` does not let through; `NotLink`
  children with two children or more are accepted, their first child taken as the negated
  clause;
* `doBindlink_ok_iff` : every other term reaches `do_match`;
* `doBindlink_vars` : the variable set handed to `do_match` is the declared set, except that an
  empty declaration falls back on the variables found in the predicate;
* `doBindlink_perm` : reordering a `ListLink` of declarations changes neither acceptance nor the
  call to `do_match`, and changes the type map only for a variable declared twice with different
  types: each variable keeps the types of its first `TypedVariableLink`.
-/

namespace OpenCog

namespace PatternMatch

variable (cs : ClassServer)

/-! ### The shapes of the spec -/

/-- A `VariableTypeNode` naming a registered type. -/
def TypeName (t : Atom) : Prop :=
  ∃ tn vt, t = .node .variableTypeNode tn ∧ cs.getType tn = some vt

/-- A well-formed `TypedVariableLink`: two children, the second a type name or a `ListLink` of
type names. -/
def WellTyped (d : Atom) : Prop :=
  ∃ v vt, d = .link .typedVariableLink [v, vt] ∧
    (TypeName cs vt ∨ ∃ ts, vt = .link .listLink ts ∧ ∀ t ∈ ts, TypeName cs t)

/-- The type names the second child of a `TypedVariableLink` lists: the children of a `ListLink`,
anything else itself. -/
def typeNames : Atom → List Atom
  | .link .listLink ts => ts
  | t => [t]

/-- The registered types the `VariableTypeNode`s of a list name. -/
def namedTypes (ts : List Atom) : Finset AtomType :=
  (ts.filterMap fun
    | .node .variableTypeNode tn => cs.getType tn
    | _ => none).toFinset

/-- An entry of a `ListLink` of declarations: a `VariableNode` or a well-formed
`TypedVariableLink`. -/
def DeclEntry (d : Atom) : Prop :=
  (∃ n, d = .node .variableNode n) ∨ WellTyped cs d

/-- A declaration: a node, a well-formed `TypedVariableLink`, or a `ListLink` of entries. -/
def Declaration (D : Atom) : Prop :=
  (∃ t n, D = .node t n) ∨ WellTyped cs D ∨ ∃ ds, D = .link .listLink ds ∧ ∀ d ∈ ds, DeclEntry cs d

/-- The types a `TypedVariableLink` allows, as `get_vartype` reads its second child. -/
def allowedTypes : Atom → Option (Finset AtomType)
  | .node .variableTypeNode tn => (cs.getType tn).map singleton
  | .link .listLink ts =>
    match vartypeList cs ts with
    | .ok s => some s
    | .error _ => none
  | _ => none

/-- The variable a `TypedVariableLink` declares, with the types it allows, when `get_vartype`
accepts it. -/
def typedDecl (d : Atom) : Option (Atom × Finset AtomType) :=
  match d.getOutgoingSet with
  | [v, vt] => (allowedTypes cs vt).map fun ts => (v, ts)
  | _ => none

/-- The variable a declaration names: a `TypedVariableLink` its first child, anything else
itself. -/
def declaredVar : Atom → Atom
  | .link .typedVariableLink (v :: _) => v
  | d => d

/-- The variables a declaration `D` declares: `D` itself when it is a node, the first child of a
`TypedVariableLink`, each child's variable in a `ListLink`. -/
def declaredVars : Atom → Finset Atom
  | .link .listLink ds => (ds.map declaredVar).toFinset
  | D => {declaredVar D}

/-- The typed declarations of `D`, in order, each with the types it allows. -/
def declaredTypes (D : Atom) : List (Atom × Finset AtomType) :=
  match D with
  | .link .listLink ds => ds.filterMap (typedDecl cs)
  | .link .typedVariableLink _ => (typedDecl cs D).toList
  | _ => []

/-- The type map `do_bindlink` builds from `D`. -/
def declaredTypeMap (D v : Atom) : Option (Finset AtomType) :=
  (declaredTypes cs D).lookup v

/-- The shape the spec asks of a bind term: `BindLink(D, ImplicationLink(P, M))`, with a
declaration `D` and a link `P`. -/
def BindShape (h : Atom) : Prop :=
  ∃ D t cl M, h = .link .bindLink [D, .link .implicationLink [.link t cl, M]] ∧ Declaration cs D

/-- A bind term whose predicate is an `AndLink` with a `NotLink` child that has no child. -/
def EmptyNegation (h : Atom) : Prop :=
  ∃ D cl M, h = .link .bindLink [D, .link .implicationLink [.link .andLink cl, M]] ∧
    Atom.link .notLink [] ∈ cl

variable {cs}

/-! ### `get_vartype` -/

theorem exists_map_eq_ok {ε α β : Type} (f : α → β) (x : Except ε α) :
    (∃ b, x.map f = .ok b) ↔ ∃ a, x = .ok a := by
  cases x <;> simp [Except.map]

theorem typeName_iff {t : Atom} :
    TypeName cs t ↔ ∃ tn, t = .node .variableTypeNode tn ∧ (cs.getType tn).isSome := by
  simp [TypeName, Option.isSome_iff_exists]

@[simp] theorem typeName_node {t : NodeType} {n : String} :
    TypeName cs (.node t n) ↔ t = .variableTypeNode ∧ (cs.getType n).isSome := by
  simp only [typeName_iff, Atom.node.injEq]
  constructor
  · rintro ⟨tn, ⟨rfl, rfl⟩, h⟩
    exact ⟨rfl, h⟩
  · rintro ⟨rfl, h⟩
    exact ⟨n, ⟨rfl, rfl⟩, h⟩

@[simp] theorem not_typeName_link {t : LinkType} {out : List Atom} :
    ¬ TypeName cs (.link t out) := by
  simp [typeName_iff]

theorem vartypeList_ok_iff (ts : List Atom) :
    (∃ s, vartypeList cs ts = .ok s) ↔ ∀ t ∈ ts, TypeName cs t := by
  induction ts with
  | nil => simp [vartypeList]
  | cons t ts ih =>
    rw [List.forall_mem_cons, ← ih]
    simp only [vartypeList]
    split
    · rename_i tn
      cases h : cs.getType tn <;> simp [h, exists_map_eq_ok]
    · rename_i hne
      rw [typeName_iff]
      simp only [reduceCtorEq, exists_false, false_iff, not_and]
      rintro ⟨tn, rfl, -⟩
      exact absurd rfl (hne tn)

/-- The loop over type names fails with code 3 or 5, never with 0. -/
theorem vartypeList_error_ne_zero {ts : List Atom} {c : ℕ} (h : vartypeList cs ts = .error c) :
    c ≠ 0 := by
  induction ts generalizing c with
  | nil => cases h
  | cons t ts ih =>
    simp only [vartypeList] at h
    split at h
    · split at h
      · cases h; decide
      · cases hv : vartypeList cs ts <;> simp [hv, Except.map] at h
        exact h ▸ ih hv
    · cases h; decide

@[simp] theorem mem_namedTypes {ts : List Atom} {vt : AtomType} :
    vt ∈ namedTypes cs ts ↔ ∃ tn, .node .variableTypeNode tn ∈ ts ∧ cs.getType tn = some vt := by
  simp only [namedTypes, List.mem_toFinset, List.mem_filterMap]
  constructor
  · rintro ⟨⟨_ | _ | _, tn⟩ | ⟨_, _⟩, hm, h⟩ <;> first | exact ⟨tn, hm, h⟩ | cases h
  · rintro ⟨tn, hm, h⟩
    exact ⟨_, hm, h⟩

/-- The loop over a `ListLink` of type names collects the types they name. -/
theorem vartypeList_eq_namedTypes {ts : List Atom} {s : Finset AtomType}
    (h : vartypeList cs ts = .ok s) : s = namedTypes cs ts := by
  induction ts generalizing s with
  | nil =>
    cases h
    rfl
  | cons t ts ih =>
    simp only [vartypeList] at h
    split at h
    · rename_i tn
      cases hv : cs.getType tn with
      | none => simp [hv] at h
      | some vt =>
        cases hs : vartypeList cs ts with
        | error e => simp [hv, hs, Except.map] at h
        | ok s' =>
          simp only [hv, hs, Except.map, Except.ok.injEq] at h
          subst h
          simp [ih hs, namedTypes, hv, List.filterMap_cons]
    · cases h

theorem allowedTypes_isSome_iff (vt : Atom) :
    (allowedTypes cs vt).isSome ↔
      TypeName cs vt ∨ ∃ ts, vt = .link .listLink ts ∧ ∀ t ∈ ts, TypeName cs t := by
  unfold allowedTypes
  split
  · simp
  · rename_i ts
    simp only [not_typeName_link, Atom.link.injEq, true_and, exists_eq_left', false_or,
      ← vartypeList_ok_iff]
    cases vartypeList cs ts <;> simp
  · rename_i h1 h2
    rw [typeName_iff]
    simp only [Option.isSome_none, Bool.false_eq_true, false_iff, not_or, not_exists, not_and]
    exact ⟨fun tn he _ => h1 tn he, fun ts he _ => h2 ts he⟩

theorem allowedTypes_eq_namedTypes {vt : Atom} {ts : Finset AtomType}
    (h : allowedTypes cs vt = some ts) : ts = namedTypes cs (typeNames vt) := by
  unfold allowedTypes at h
  split at h
  · obtain ⟨v, hv, rfl⟩ := Option.map_eq_some'.1 h
    simp [typeNames, namedTypes, hv]
  · split at h
    · rename_i s hs
      cases h
      exact vartypeList_eq_namedTypes hs
    · cases h
  · cases h

theorem typedDecl_isSome_iff {oset : List Atom} :
    (typedDecl cs (.link .typedVariableLink oset)).isSome ↔
      WellTyped cs (.link .typedVariableLink oset) := by
  rcases oset with _ | ⟨v, _ | ⟨vt, _ | _⟩⟩
  all_goals simp [typedDecl, WellTyped, Atom.getOutgoingSet, and_assoc]
  exact allowedTypes_isSome_iff vt

theorem getVartype_of_typedDecl {d v : Atom} {ts : Finset AtomType} (vset : Finset Atom)
    (tm : VariableTypeMap) (h : typedDecl cs d = some (v, ts)) :
    getVartype cs d vset tm = (0, insert v vset, tm.insert v ts) := by
  unfold typedDecl at h
  unfold getVartype
  rcases hd : d.getOutgoingSet with _ | ⟨v', _ | ⟨vt, _ | _⟩⟩ <;> simp only [hd] at h ⊢
    <;> try cases h
  rcases vt with ⟨_ | _ | _, tn⟩ | ⟨_ | _ | _ | _ | _ | _ | _, tset⟩
  all_goals simp [allowedTypes] at h ⊢
  · obtain ⟨a, ha, rfl, rfl⟩ := h
    simp [ha]
  · obtain ⟨hts, rfl⟩ := h
    cases hv : vartypeList cs tset <;> simp_all

theorem getVartype_of_typedDecl_none {d : Atom} (vset : Finset Atom) (tm : VariableTypeMap)
    (h : typedDecl cs d = none) :
    (getVartype cs d vset tm).1 ≠ 0 ∧ (getVartype cs d vset tm).2 = (vset, tm) := by
  unfold typedDecl at h
  unfold getVartype
  rcases hd : d.getOutgoingSet with _ | ⟨v', _ | ⟨vt, _ | _⟩⟩ <;> simp only [hd] at h ⊢
    <;> try simp
  rcases vt with ⟨_ | _ | _, tn⟩ | ⟨_ | _ | _ | _ | _ | _ | _, tset⟩
  all_goals simp [allowedTypes] at h ⊢
  · simp [h]
  · cases hv : vartypeList cs tset with
    | error c => simp [vartypeList_error_ne_zero hv]
    | ok _ => simp [hv] at h

/-- **`get_vartype` on a `TypedVariableLink`** returns 0 exactly when the link is well formed: two
children, the second a registered type name or a `ListLink` of them.  It then adds the variable
to `vset` and, unless the variable has an entry already (`std::map::insert`), maps it to the
named types; any other return leaves both unchanged. -/
theorem getVartype_spec (out : List Atom) (vset : Finset Atom) (tm : VariableTypeMap) :
    ((getVartype cs (.link .typedVariableLink out) vset tm).1 = 0 ↔
      WellTyped cs (.link .typedVariableLink out)) ∧
    (∀ v vt, out = [v, vt] → WellTyped cs (.link .typedVariableLink out) →
      (getVartype cs (.link .typedVariableLink out) vset tm).2 = (insert v vset,
        fun w => if w = v ∧ tm w = none then some (namedTypes cs (typeNames vt)) else tm w)) ∧
    ((getVartype cs (.link .typedVariableLink out) vset tm).1 ≠ 0 →
      (getVartype cs (.link .typedVariableLink out) vset tm).2 = (vset, tm)) := by
  rw [← typedDecl_isSome_iff]
  cases hd : typedDecl cs (.link .typedVariableLink out) with
  | none =>
    obtain ⟨hc, hs⟩ := getVartype_of_typedDecl_none vset tm hd
    exact ⟨by simpa using hc, fun _ _ _ hw => by simp at hw, fun _ => hs⟩
  | some p =>
    obtain ⟨v, ts⟩ := p
    rw [getVartype_of_typedDecl vset tm hd]
    refine ⟨by simp, fun v' vt hout _ => ?_, fun h => absurd rfl h⟩
    subst hout
    simp only [typedDecl, Atom.getOutgoingSet, Option.map_eq_some', Prod.mk.injEq] at hd
    obtain ⟨ts', hts, rfl, rfl⟩ := hd
    rw [allowedTypes_eq_namedTypes hts]
    rfl

theorem insert_or_lookup (tm : VariableTypeMap) (v w : Atom) (ts : Finset AtomType)
    (l : List (Atom × Finset AtomType)) :
    (tm.insert v ts w).or (l.lookup w) = (tm w).or (((v, ts) :: l).lookup w) := by
  by_cases hw : w = v
  · subst hw
    cases h : tm w <;> simp [VariableTypeMap.insert_apply, h]
  · have hb : (w == v) = false := beq_eq_false_iff_ne.mpr hw
    simp [VariableTypeMap.insert_apply, List.lookup_cons, hw, hb]

theorem wellTyped_typedDecl {d : Atom} (h : WellTyped cs d) :
    ∃ v vt ts, d = .link .typedVariableLink [v, vt] ∧ typedDecl cs d = some (v, ts) := by
  obtain ⟨v, vt, rfl, -⟩ := id h
  obtain ⟨⟨v', ts⟩, hp⟩ := Option.isSome_iff_exists.1 (typedDecl_isSome_iff.2 h)
  have hv : v = v' := by
    simp only [typedDecl, Atom.getOutgoingSet, Option.map_eq_some', Prod.mk.injEq] at hp
    exact hp.choose_spec.2.1
  exact ⟨v, vt, ts, rfl, hv ▸ hp⟩

/-- **The loop over an accepted declaration list**: every entry's variable is added to `vset`,
and each variable keeps the types of the first `TypedVariableLink` naming it. -/
theorem declList_eq_ok {ds : List Atom} (h : ∀ d ∈ ds, DeclEntry cs d) (vset : Finset Atom)
    (tm : VariableTypeMap) :
    declList cs ds vset tm = .ok (vset ∪ (ds.map declaredVar).toFinset,
      fun v => (tm v).or ((ds.filterMap (typedDecl cs)).lookup v)) := by
  induction ds generalizing vset tm with
  | nil => simp [declList]
  | cons d ds ih =>
    rw [List.forall_mem_cons] at h
    rcases h.1 with ⟨n, rfl⟩ | hw
    · -- a variable
      simp [declList, ih h.2, declaredVar, typedDecl, Atom.getOutgoingSet, Finset.union_insert]
    · -- a typed variable
      obtain ⟨v, vt, ts, rfl, hts⟩ := wellTyped_typedDecl hw
      simp only [declList, getVartype_of_typedDecl _ _ hts, ne_eq, not_true_eq_false, ite_false,
        ih h.2, List.map_cons, List.toFinset_cons, declaredVar, List.filterMap_cons, hts,
        Finset.insert_union, Finset.union_insert, insert_or_lookup]

theorem typedDecl_eq_none {oset : List Atom} (h : ¬ WellTyped cs (.link .typedVariableLink oset)) :
    typedDecl cs (.link .typedVariableLink oset) = none := by
  rw [← typedDecl_isSome_iff] at h
  simpa using h

/-- `get_vartype` on a `TypedVariableLink` it rejects makes the caller raise. -/
theorem getVartype_reject {oset : List Atom} (h : ¬ WellTyped cs (.link .typedVariableLink oset))
    (vset : Finset Atom) (tm : VariableTypeMap) :
    ∃ c, c ≠ 0 ∧ getVartype cs (.link .typedVariableLink oset) vset tm = (c, vset, tm) := by
  obtain ⟨hc, hs⟩ := getVartype_of_typedDecl_none vset tm (typedDecl_eq_none h)
  exact ⟨_, hc, Prod.ext rfl hs⟩

/-- **The loop over a rejected declaration list** raises `InvalidParamException`. -/
theorem declList_eq_error {ds : List Atom} (h : ¬ ∀ d ∈ ds, DeclEntry cs d) (vset : Finset Atom)
    (tm : VariableTypeMap) : ∃ msg, declList cs ds vset tm = .error (.invalidParam msg) := by
  induction ds generalizing vset tm with
  | nil => simp at h
  | cons d ds ih =>
    rw [List.forall_mem_cons, not_and_or] at h
    by_cases hd : DeclEntry cs d
    · -- the head is accepted, the tail is not
      have ht := h.resolve_left (not_not.2 hd)
      rcases hd with ⟨n, rfl⟩ | hw
      · exact ih ht _ _
      · obtain ⟨v, vt, ts, rfl, hts⟩ := wellTyped_typedDecl hw
        simp only [declList, getVartype_of_typedDecl _ _ hts, ne_eq, not_true_eq_false, ite_false]
        exact ih ht _ _
    · -- the head is rejected
      simp only [declList]
      split
      · exact absurd (.inl ⟨_, rfl⟩) hd
      · obtain ⟨c, hc, hg⟩ := getVartype_reject (fun hw => hd (.inr hw)) vset tm
        simp only [hg, ne_eq, hc, not_false_eq_true, ite_true]
        exact ⟨_, rfl⟩
      · exact ⟨_, rfl⟩

/-- **What `do_bindlink` makes of an accepted declaration**: the declared variables, and the
types of the first typed declaration of each. -/
theorem varDecls_eq_ok {D : Atom} (h : Declaration cs D) :
    varDecls cs D = .ok (declaredVars D, declaredTypeMap cs D) := by
  rcases h with ⟨t, n, rfl⟩ | hw | ⟨ds, rfl, hds⟩
  · -- a single variable
    simp only [varDecls, declaredVars, declaredVar, declaredTypeMap, declaredTypes,
      List.lookup_nil]
    rfl
  · -- a typed variable
    obtain ⟨v, vt, ts, rfl, hts⟩ := wellTyped_typedDecl hw
    simp only [varDecls, getVartype_of_typedDecl _ _ hts, ne_eq, not_true_eq_false, ite_false,
      declaredVars, declaredVar, declaredTypeMap, declaredTypes, hts, Option.toList_some,
      insert_emptyc_eq]
    congr 2
    funext w
    by_cases hw : w = v
    · simp [hw, VariableTypeMap.insert_apply, declaredTypeMap, declaredTypes, hts]
    · have hb : (w == v) = false := beq_eq_false_iff_ne.mpr hw
      simp [hw, hb, VariableTypeMap.insert_apply, List.lookup_cons, declaredTypeMap, declaredTypes,
        hts]
  · -- a list of declarations
    simp only [varDecls, declList_eq_ok hds, Finset.empty_union, VariableTypeMap.empty_apply,
      Option.none_or, declaredVars]
    rfl

/-- A declaration `do_bindlink` rejects makes it raise `InvalidParamException`. -/
theorem varDecls_eq_error {D : Atom} (h : ¬ Declaration cs D) :
    ∃ msg, varDecls cs D = .error (.invalidParam msg) := by
  simp only [Declaration, not_or, not_exists, not_and] at h
  obtain ⟨hn, hw, hl⟩ := h
  unfold varDecls
  split
  · exact absurd rfl (hn _ _)
  · obtain ⟨c, hc, hg⟩ := getVartype_reject hw ∅ .empty
    simp only [hg, ne_eq, hc, not_false_eq_true, ite_true]
    exact ⟨_, rfl⟩
  · rename_i ds
    exact declList_eq_error (hl ds rfl) _ _
  · exact ⟨_, rfl⟩

/-! ### `match` -/

/-- A node as the variables: `match` neither raises nor calls `do_match`, where `do_imply` and
`do_bindlink` raise on a node in the same place; a node as the negations is taken as no
negation. -/
theorem match_node_returns :
    «match» (.node .variableNode "$x") (.link .andLink []) none = .ok none ∧
    «match» (.link .listLink []) (.link .andLink []) (some (.node .variableNode "$n")) =
      .ok (some ⟨∅, [], []⟩) :=
  ⟨rfl, rfl⟩

/-! ### `do_imply` -/

@[simp] theorem getOutgoingAtom_cons (t : LinkType) (a : Atom) (l : List Atom) :
    (Atom.link t (a :: l)).getOutgoingAtom 0 = .ok a := by
  simp [Atom.getOutgoingAtom, Atom.getOutgoingSet]

theorem eq_notLink_cons {c : Atom} (hc : c.getType = .link .notLink) (hne : c ≠ .link .notLink []) :
    ∃ a l, c = .link .notLink (a :: l) := by
  rcases c with ⟨_, _⟩ | ⟨_ | _ | _ | _ | _ | _ | _, _ | ⟨a, l⟩⟩ <;> simp_all [Atom.getType]

/-- The negated clause a child of an `AndLink` contributes: the first child of a `NotLink`. -/
def negated (c : Atom) : Option Atom :=
  if c.getType = .link .notLink then c.getOutgoingSet.head? else none

/-- **The clause loop of `do_imply`**, when no `NotLink` child is empty: the affirmed clauses are
the children that are not `NotLink`s, the negated ones the first children of the `NotLink`s, both
in order. -/
theorem classify_eq_ok {cset : List Atom} (h : Atom.link .notLink [] ∉ cset) :
    classify cset = .ok (cset.filter fun c => c.getType ≠ .link .notLink, cset.filterMap negated) := by
  induction cset with
  | nil => rfl
  | cons c cset ih =>
    rw [List.mem_cons, not_or] at h
    simp only [classify, ih h.2]
    by_cases hc : c.getType = .link .notLink
    · obtain ⟨a, l, rfl⟩ := eq_notLink_cons hc (Ne.symm h.1)
      simp [negated, Atom.getType, Atom.getOutgoingSet, Except.map]
    · simp [hc, negated, Except.map]

/-- ... and an empty `NotLink` child makes it raise the atom space's `RuntimeException`. -/
theorem classify_eq_error {cset : List Atom} (h : Atom.link .notLink [] ∈ cset) :
    ∃ msg, classify cset = .error (.runtime msg) := by
  induction cset with
  | nil => cases h
  | cons c cset ih =>
    simp only [classify]
    by_cases hc : c = .link .notLink []
    · subst hc
      exact ⟨_, rfl⟩
    · obtain ⟨msg, hm⟩ := ih ((List.mem_cons.1 h).resolve_left (Ne.symm hc))
      refine ⟨msg, ?_⟩
      by_cases hn : c.getType = .link .notLink
      · obtain ⟨a, l, rfl⟩ := eq_notLink_cons hn hc
        simp [hm, Except.map]
      · simp [hn, hm, Except.map]

/-- Every child of the `AndLink` goes to exactly one of the two lists. -/
theorem classify_length {cset affirm negate : List Atom}
    (h : classify cset = .ok (affirm, negate)) : affirm.length + negate.length = cset.length := by
  induction cset generalizing affirm negate with
  | nil =>
    cases h
    rfl
  | cons c cset ih =>
    rcases hc : classify cset with e | ⟨a, n⟩
    · -- the tail raises, and so does the whole loop
      simp only [classify, hc, Except.map] at h
      split at h <;> (try split at h) <;> cases h
    · have := ih hc
      simp only [classify, hc, Except.map] at h
      split at h
      · -- a `NotLink`: its child joins the negated clauses
        split at h <;> cases h
        simp only [List.length_cons]
        omega
      · -- any other child joins the affirmed clauses
        cases h
        simp only [List.length_cons]
        omega

/-- `do_imply` on an `ImplicationLink` whose predicate is a link: an exception of the clause loop
leaves through the specification. -/
theorem doImply_implication (t : LinkType) (cl : List Atom) (M : Atom) (pmc : Implicator)
    (varset : Finset Atom) :
    doImply (.link .implicationLink [.link t cl, M]) pmc varset =
      match (if t = .andLink then classify cl else .ok ([.link t cl], [])) with
      | .error e => .error e.throwSpec
      | .ok (affirm, negate) =>
        .ok ({ pmc with implicand := some M },
          ⟨if varset = ∅ then findVars (.link t cl) else varset, affirm, negate⟩) := by
  simp only [doImply, ne_eq, not_true_eq_false, ite_false]
  generalize (if t = .andLink then classify cl else .ok ([.link t cl], [])) = s
  rcases s with e | ⟨affirm, negate⟩ <;> rfl

/-- `do_imply` raises `InvalidParamException` on anything but an `ImplicationLink` of two children
whose first is a link. -/
theorem doImply_eq_error {I : Atom} (h : ¬ ∃ t cl M, I = .link .implicationLink [.link t cl, M])
    (pmc : Implicator) (varset : Finset Atom) :
    ∃ msg, doImply I pmc varset = .error (.raise (.invalidParam msg)) := by
  unfold doImply
  split
  · exact ⟨_, rfl⟩
  · rename_i timpl oset
    split
    · exact ⟨_, rfl⟩
    · split
      · rename_i hclauses M
        split
        · exact ⟨_, rfl⟩
        · rename_i ht _ tc cl
          exact absurd ⟨tc, cl, M, by simp_all⟩ h
      · exact ⟨_, rfl⟩

/-- **The clauses `do_imply` hands to `do_match`.**  For an `AndLink` predicate the affirmed
clauses are its children that are not `NotLink`s and the negated ones the first children of its
`NotLink`s, both in order, each child in exactly one list; any other predicate, a `NotLink`
included, is the single affirmed clause. -/
theorem doImply_clauses {P M : Atom} {pmc pmc' : Implicator} {vs : Finset Atom}
    {call : MatchCall} (h : doImply (.link .implicationLink [P, M]) pmc vs = .ok (pmc', call)) :
    (∀ cl, P = .link .andLink cl →
      call.clauses = cl.filter (fun c => c.getType ≠ .link .notLink) ∧
      call.negations = cl.filterMap negated ∧
      call.clauses.length + call.negations.length = cl.length) ∧
    ((∀ cl, P ≠ .link .andLink cl) → call.clauses = [P] ∧ call.negations = []) := by
  rcases P with ⟨t, n⟩ | ⟨t, cl⟩
  · simp [doImply, Except.mapError] at h
  rw [doImply_implication] at h
  by_cases ht : t = .andLink
  · subst ht
    have hnot : Atom.link .notLink [] ∉ cl := fun hm => by
      obtain ⟨msg, hm⟩ := classify_eq_error hm
      simp [hm] at h
    simp only [classify_eq_ok hnot, ite_true, Except.ok.injEq, Prod.mk.injEq] at h
    obtain ⟨-, rfl⟩ := h
    refine ⟨fun cl' he => ?_, fun hne => absurd rfl (hne cl)⟩
    cases he
    exact ⟨rfl, rfl, classify_length (classify_eq_ok hnot)⟩
  · simp only [ht, ite_false, Except.ok.injEq, Prod.mk.injEq] at h
    obtain ⟨-, rfl⟩ := h
    exact ⟨fun cl' he => absurd (Atom.link.inj he).1 ht, fun _ => ⟨rfl, rfl⟩⟩

theorem doImply_clauses_nested :
    ∃ pmc' call, doImply (.link .implicationLink [.link .andLink [.node .variableNode "$x",
        .link .notLink [.link .notLink [.node .variableNode "$y"]]], .node .variableNode "$x"])
        .init ∅ = .ok (pmc', call) ∧
      (∀ cl, Atom.link .andLink [.node .variableNode "$x",
          .link .notLink [.link .notLink [.node .variableNode "$y"]]] = .link .andLink cl →
        call.clauses = cl.filter (fun c => c.getType ≠ .link .notLink) ∧
        call.negations = cl.filterMap negated ∧
        call.clauses.length + call.negations.length = cl.length) ∧
      ((∀ cl, Atom.link .andLink [.node .variableNode "$x",
          .link .notLink [.link .notLink [.node .variableNode "$y"]]] ≠ .link .andLink cl) →
        call.clauses = [.link .andLink [.node .variableNode "$x",
          .link .notLink [.link .notLink [.node .variableNode "$y"]]]] ∧ call.negations = []) :=
  have ⟨pmc', call, h⟩ : ∃ pmc' call, doImply (.link .implicationLink [.link .andLink
      [.node .variableNode "$x", .link .notLink [.link .notLink [.node .variableNode "$y"]]],
      .node .variableNode "$x"]) .init ∅ = .ok (pmc', call) := ⟨_, _, rfl⟩
  ⟨pmc', call, h, doImply_clauses h⟩

/-! ### `do_bindlink` -/

theorem bindShape_bind {D I : Atom} :
    BindShape cs (.link .bindLink [D, I]) ↔
      Declaration cs D ∧ ∃ t cl M, I = .link .implicationLink [.link t cl, M] := by
  constructor
  · rintro ⟨D', t, cl, M, he, hD⟩
    simp only [Atom.link.injEq, List.cons.injEq, and_true, true_and] at he
    obtain ⟨rfl, rfl⟩ := he
    exact ⟨hD, t, cl, M, rfl⟩
  · rintro ⟨hD, t, cl, M, rfl⟩
    exact ⟨D, t, cl, M, rfl, hD⟩

theorem emptyNegation_iff {D M : Atom} {t : LinkType} {cl : List Atom} :
    EmptyNegation (.link .bindLink [D, .link .implicationLink [.link t cl, M]]) ↔
      t = .andLink ∧ Atom.link .notLink [] ∈ cl := by
  constructor
  · rintro ⟨_, _, _, he, hm⟩
    simp only [Atom.link.injEq, List.cons.injEq, and_true, true_and] at he
    obtain ⟨-, ⟨rfl, rfl⟩, -⟩ := he
    exact ⟨rfl, hm⟩
  · rintro ⟨rfl, hm⟩
    exact ⟨D, cl, M, rfl, hm⟩

/-- `do_bindlink` on a `BindLink` with an accepted declaration: it installs the declared type map
and hands over to `do_imply` with the declared variables. -/
theorem doBindlink_bind {D : Atom} (hD : Declaration cs D) (I : Atom) (pmc : Implicator) :
    doBindlink cs (.link .bindLink [D, I]) pmc =
      match doImply I (pmc.setTypeRestrictions (declaredTypeMap cs D)) (declaredVars D) with
      | .error e => .error e (pmc.setTypeRestrictions (declaredTypeMap cs D))
      | .ok (pmc', call) => .ok call pmc' := by
  rcases h : doImply I (pmc.setTypeRestrictions (declaredTypeMap cs D)) (declaredVars D) with
    e | ⟨pmc', call⟩ <;> simp [doBindlink, varDecls_eq_ok hD, h]

theorem doBindlink_not_bind {h : Atom} (hh : ¬ ∃ D I, h = .link .bindLink [D, I])
    (pmc : Implicator) : ∃ msg, doBindlink cs h pmc = .error (.raise (.invalidParam msg)) pmc := by
  unfold doBindlink
  split
  · exact ⟨_, rfl⟩
  · split
    · exact ⟨_, rfl⟩
    · split
      · rename_i D I
        exact absurd ⟨D, I, by simp_all⟩ hh
      · exact ⟨_, rfl⟩

theorem doBindlink_bad_decl {D : Atom} (hD : ¬ Declaration cs D) (I : Atom) (pmc : Implicator) :
    ∃ msg, doBindlink cs (.link .bindLink [D, I]) pmc = .error (.raise (.invalidParam msg)) pmc := by
  obtain ⟨msg, hm⟩ := varDecls_eq_error hD
  exact ⟨msg, by simp [doBindlink, hm]⟩

/-- **The three outcomes of `do_bindlink`**: it raises `InvalidParamException`, it ends the
program, or it reaches `do_match`. -/
theorem doBindlink_cases (cs : ClassServer) (h : Atom) (pmc : Implicator) :
    (¬ BindShape cs h ∧ ∃ msg pmc', doBindlink cs h pmc = .error (.raise (.invalidParam msg)) pmc') ∨
    (BindShape cs h ∧ EmptyNegation h ∧ ∃ pmc', doBindlink cs h pmc = .error .terminate pmc') ∨
    (BindShape cs h ∧ ¬ EmptyNegation h ∧ ∃ call pmc', doBindlink cs h pmc = .ok call pmc') := by
  by_cases hb : ∃ D I, h = .link .bindLink [D, I]
  swap
  · obtain ⟨msg, hm⟩ := doBindlink_not_bind hb pmc
    exact .inl ⟨fun ⟨D, _, _, _, he, _⟩ => hb ⟨D, _, he⟩, msg, _, hm⟩
  obtain ⟨D, I, rfl⟩ := hb
  by_cases hD : Declaration cs D
  swap
  · obtain ⟨msg, hm⟩ := doBindlink_bad_decl hD I pmc
    exact .inl ⟨fun hs => hD (bindShape_bind.1 hs).1, msg, _, hm⟩
  rw [doBindlink_bind hD, bindShape_bind]
  by_cases hI : ∃ t cl M, I = .link .implicationLink [.link t cl, M]
  swap
  · obtain ⟨msg, hm⟩ := doImply_eq_error hI (pmc.setTypeRestrictions (declaredTypeMap cs D))
      (declaredVars D)
    exact .inl ⟨fun hs => hI hs.2, msg, _, by rw [hm]⟩
  obtain ⟨t, cl, M, rfl⟩ := hI
  rw [doImply_implication, emptyNegation_iff]
  by_cases hn : t = .andLink ∧ Atom.link .notLink [] ∈ cl
  · -- an empty `NotLink`: the atom space raises, and the specification ends the program
    obtain ⟨rfl, hmem⟩ := hn
    obtain ⟨msg, hm⟩ := classify_eq_error hmem
    exact .inr (.inl ⟨⟨hD, _, _, _, rfl⟩, ⟨rfl, hmem⟩,
      pmc.setTypeRestrictions (declaredTypeMap cs D), by simp [hm]⟩)
  · -- the search is reached
    refine .inr (.inr ⟨⟨hD, _, _, _, rfl⟩, hn, ?_⟩)
    by_cases ht : t = .andLink
    · subst ht
      simp [classify_eq_ok (fun hm => hn ⟨rfl, hm⟩)]
    · simp [ht]

/-- **Before `do_match`, `do_bindlink` raises `InvalidParamException` exactly on the terms that are
not `BindLink(D, ImplicationLink(P, M))` with a declaration `D` and a link `P`.** -/
theorem doBindlink_invalidParam_iff (h : Atom) (pmc : Implicator) :
    (∃ msg pmc', doBindlink cs h pmc = .error (.raise (.invalidParam msg)) pmc') ↔
      ¬ BindShape cs h := by
  rcases doBindlink_cases cs h pmc with ⟨hs, hr⟩ | ⟨hs, -, _, hr⟩ | ⟨hs, -, _, _, hr⟩
  · exact ⟨fun _ => hs, fun _ => hr⟩
  all_goals simp [hr, hs]

/-- **Every other term reaches `do_match`**, a `NotLink` child with several children included. -/
theorem doBindlink_ok_iff (h : Atom) (pmc : Implicator) :
    (∃ call pmc', doBindlink cs h pmc = .ok call pmc') ↔ BindShape cs h ∧ ¬ EmptyNegation h := by
  rcases doBindlink_cases cs h pmc with ⟨hs, _, _, hr⟩ | ⟨hs, he, _, hr⟩ | ⟨hs, he, hr⟩
  · simp [hr, hs]
  · simp [hr, he]
  · exact ⟨fun _ => ⟨hs, he⟩, fun _ => hr⟩

/-- The `NotLink` children of the predicate are not checked for arity: one with two children is
accepted, its first child taken as the negated clause, and one without children makes
`getOutgoingAtom(0)` raise the atom space's `RuntimeException`, which ends the program. -/
theorem doBindlink_notLink_arity :
    (∃ pmc, doBindlink ⟨[]⟩ (.link .bindLink [.node .variableNode "$x",
        .link .implicationLink [.link .andLink [.link .notLink
          [.node (.other "ConceptNode") "a", .node (.other "ConceptNode") "b"]],
        .node (.other "ConceptNode") "c"]]) .init =
      .ok ⟨{.node .variableNode "$x"}, [], [.node (.other "ConceptNode") "a"]⟩ pmc) ∧
    ∃ pmc, doBindlink ⟨[]⟩ (.link .bindLink [.node .variableNode "$x",
        .link .implicationLink [.link .andLink [.link .notLink []],
        .node (.other "ConceptNode") "c"]]) .init = .error .terminate pmc :=
  ⟨⟨_, rfl⟩, ⟨_, rfl⟩⟩

/-- **What an accepted `do_bindlink` hands to `do_match`**: the callback carries the declared type
map and the implicand, the variables are the declared ones (or, when none is declared, those of
the predicate), and the clauses are the predicate's split. -/
theorem doBindlink_eq_ok {h : Atom} {pmc pmc' : Implicator} {call : MatchCall}
    (hr : doBindlink cs h pmc = .ok call pmc') :
    ∃ D t cl M, h = .link .bindLink [D, .link .implicationLink [.link t cl, M]] ∧
      Declaration cs D ∧
      pmc' = { pmc with typeRestrictions := declaredTypeMap cs D, implicand := some M } ∧
      call.vars = (if declaredVars D = ∅ then findVars (.link t cl) else declaredVars D) ∧
      (if t = .andLink then classify cl else .ok ([.link t cl], [])) =
        .ok (call.clauses, call.negations) := by
  obtain ⟨⟨D, t, cl, M, rfl, hD⟩, -⟩ := (doBindlink_ok_iff h pmc).1 ⟨_, _, hr⟩
  rw [doBindlink_bind hD, doImply_implication] at hr
  refine ⟨D, t, cl, M, rfl, hD, ?_⟩
  cases hsplit : (if t = .andLink then classify cl else .ok ([.link t cl], [])) with
  | error e => simp [hsplit] at hr
  | ok r =>
    simp only [hsplit, EStateM.Result.ok.injEq] at hr
    obtain ⟨rfl, rfl⟩ := hr
    exact ⟨rfl, rfl, rfl⟩

/-- **The variables `do_bindlink` hands to `do_match` are the declared ones**, unless none is
declared: `do_imply` then collects the `VariableNode`s of the predicate, the path its comment
reserves for `imply()`. -/
theorem doBindlink_vars {D P M : Atom} {pmc pmc' : Implicator} {call : MatchCall}
    (hr : doBindlink cs (.link .bindLink [D, .link .implicationLink [P, M]]) pmc = .ok call pmc') :
    call.vars = if declaredVars D = ∅ then findVars P else declaredVars D := by
  obtain ⟨D', t, cl, M', he, -, -, hv, -⟩ := doBindlink_eq_ok hr
  simp only [Atom.link.injEq, List.cons.injEq, and_true, true_and] at he
  obtain ⟨rfl, rfl, rfl⟩ := he
  exact hv

theorem doBindlink_vars_declared :
    ∃ call pmc', doBindlink ⟨[]⟩ (.link .bindLink [.link .listLink [.node .variableNode "$x"],
        .link .implicationLink [.link (.other "InheritanceLink")
          [.node .variableNode "$x", .node .variableNode "$y"], .node .variableNode "$x"]]) .init =
        .ok call pmc' ∧
      call.vars = if declaredVars (.link .listLink [.node .variableNode "$x"]) = ∅ then
          findVars (.link (.other "InheritanceLink") [.node .variableNode "$x", .node .variableNode "$y"])
        else declaredVars (.link .listLink [.node .variableNode "$x"]) :=
  have ⟨call, pmc', h⟩ : ∃ call pmc', doBindlink ⟨[]⟩ (.link .bindLink [.link .listLink
      [.node .variableNode "$x"], .link .implicationLink [.link (.other "InheritanceLink")
        [.node .variableNode "$x", .node .variableNode "$y"], .node .variableNode "$x"]]) .init =
      .ok call pmc' := ⟨_, _, rfl⟩
  ⟨call, pmc', h, doBindlink_vars h⟩

/-- An empty `ListLink` of declarations: `do_match` receives the variable of the predicate. -/
theorem doBindlink_empty_decls_vars :
    ∃ pmc, doBindlink ⟨[]⟩ (.link .bindLink [.link .listLink [], .link .implicationLink
        [.link (.other "EvaluationLink") [.node (.other "PredicateNode") "p", .node .variableNode "$x"],
        .node .variableNode "$x"]]) .init =
      .ok ⟨{.node .variableNode "$x"}, [.link (.other "EvaluationLink")
        [.node (.other "PredicateNode") "p", .node .variableNode "$x"]], []⟩ pmc :=
  ⟨_, rfl⟩

/-! ### Reordering the declarations -/

/-- Looking a key up in a permuted association list gives the same answer, when no key has two
different values. -/
theorem lookup_eq_of_perm_of_agree {l l' : List (Atom × Finset AtomType)} (hp : l.Perm l')
    (hagree : ∀ v ts ts', (v, ts) ∈ l → (v, ts') ∈ l → ts = ts') (v : Atom) :
    l.lookup v = l'.lookup v := by
  induction hp with
  | nil => rfl
  | cons x _ ih =>
    obtain ⟨k, b⟩ := x
    simp only [List.lookup_cons]
    split
    · rfl
    · exact ih fun w a a' ha ha' => hagree w a a' (.tail _ ha) (.tail _ ha')
  | swap x y l =>
    obtain ⟨k, b⟩ := x
    obtain ⟨k', b'⟩ := y
    simp only [List.lookup_cons]
    by_cases h1 : v = k <;> by_cases h2 : v = k'
    · subst h1 h2
      simp [hagree v b' b (by simp) (by simp)]
    · subst h1
      simp [beq_eq_false_iff_ne.mpr h2]
    · subst h2
      simp [beq_eq_false_iff_ne.mpr h1]
    · simp [beq_eq_false_iff_ne.mpr h1, beq_eq_false_iff_ne.mpr h2]
  | trans h₁ _ ih₁ ih₂ =>
    exact (ih₁ hagree).trans
      (ih₂ fun w a a' ha ha' => hagree w a a' (h₁.mem_iff.2 ha) (h₁.mem_iff.2 ha'))

theorem declaration_listLink {ds : List Atom} :
    Declaration cs (.link .listLink ds) ↔ ∀ d ∈ ds, DeclEntry cs d := by
  simp [Declaration, WellTyped]

theorem emptyNegation_bind {D I : Atom} :
    EmptyNegation (.link .bindLink [D, I]) ↔
      ∃ cl M, I = .link .implicationLink [.link .andLink cl, M] ∧ Atom.link .notLink [] ∈ cl := by
  constructor
  · rintro ⟨_, cl, M, he, hm⟩
    simp only [Atom.link.injEq, List.cons.injEq, and_true, true_and] at he
    exact ⟨cl, M, he.2, hm⟩
  · rintro ⟨cl, M, rfl, hm⟩
    exact ⟨D, cl, M, rfl, hm⟩

/-- **Reordering a `ListLink` of declarations** changes neither acceptance nor the call to
`do_match`.  The type map gives each variable the types of its first `TypedVariableLink`
(`std::map::insert` keeps the first entry), so it is the same for both orders when no variable
is declared twice with different types. -/
theorem doBindlink_perm {ds ds' : List Atom} (hp : ds.Perm ds') (I : Atom) (pmc : Implicator) :
    ((∃ call p, doBindlink cs (.link .bindLink [.link .listLink ds, I]) pmc = .ok call p) ↔
      ∃ call p, doBindlink cs (.link .bindLink [.link .listLink ds', I]) pmc = .ok call p) ∧
    ∀ call p call' p', doBindlink cs (.link .bindLink [.link .listLink ds, I]) pmc = .ok call p →
      doBindlink cs (.link .bindLink [.link .listLink ds', I]) pmc = .ok call' p' →
      call = call' ∧ p.implicand = p'.implicand ∧ p.resultList = p'.resultList ∧
      (∀ v, p.typeRestrictions v = (ds.filterMap (typedDecl cs)).lookup v) ∧
      ((∀ v ts ts', (v, ts) ∈ ds.filterMap (typedDecl cs) →
          (v, ts') ∈ ds.filterMap (typedDecl cs) → ts = ts') →
        p.typeRestrictions = p'.typeRestrictions) := by
  have hdecl : Declaration cs (.link .listLink ds) ↔ Declaration cs (.link .listLink ds') := by
    simp only [declaration_listLink]
    exact ⟨fun h d hd => h d (hp.mem_iff.2 hd), fun h d hd => h d (hp.mem_iff.1 hd)⟩
  refine ⟨?_, fun call p call' p' hr hr' => ?_⟩
  · simp only [doBindlink_ok_iff, bindShape_bind, emptyNegation_bind, hdecl]
  obtain ⟨D, t, cl, M, he, -, rfl, hv, hs⟩ := doBindlink_eq_ok hr
  obtain ⟨D', t', cl', M', he', -, rfl, hv', hs'⟩ := doBindlink_eq_ok hr'
  simp only [Atom.link.injEq, List.cons.injEq, and_true, true_and] at he he'
  obtain ⟨rfl, rfl⟩ := he
  obtain ⟨rfl, he'⟩ := he'
  simp only [Atom.link.injEq, List.cons.injEq, and_true, true_and] at he'
  obtain ⟨⟨rfl, rfl⟩, rfl⟩ := he'
  have hvars : declaredVars (.link .listLink ds) = declaredVars (.link .listLink ds') :=
    List.toFinset_eq_of_perm _ _ (hp.map _)
  refine ⟨?_, rfl, rfl, fun v => rfl, fun hagree => ?_⟩
  · rw [hs] at hs'
    simp only [Except.ok.injEq, Prod.mk.injEq] at hs'
    cases call
    cases call'
    simp_all
  · simp only [Implicator.mk.injEq, and_true]
    funext v
    exact lookup_eq_of_perm_of_agree (hp.filterMap _) hagree v

theorem doBindlink_perm_swap :
    [Atom.link .typedVariableLink [.node .variableNode "$x", .node .variableTypeNode "ConceptNode"],
        .link .typedVariableLink [.node .variableNode "$y", .node .variableTypeNode "NumberNode"]].Perm
      [.link .typedVariableLink [.node .variableNode "$y", .node .variableTypeNode "NumberNode"],
        .link .typedVariableLink [.node .variableNode "$x", .node .variableTypeNode "ConceptNode"]] ∧
    (∃ call p, doBindlink ⟨[("ConceptNode", .node (.other "ConceptNode")),
          ("NumberNode", .node (.other "NumberNode"))]⟩
        (.link .bindLink [.link .listLink
          [.link .typedVariableLink [.node .variableNode "$x", .node .variableTypeNode "ConceptNode"],
           .link .typedVariableLink [.node .variableNode "$y", .node .variableTypeNode "NumberNode"]],
          .link .implicationLink [.link .andLink [.link (.other "InheritanceLink")
            [.node .variableNode "$x", .node .variableNode "$y"]], .node .variableNode "$x"]]) .init =
        .ok call p) ∧
    (((∃ call p, doBindlink ⟨[("ConceptNode", .node (.other "ConceptNode")),
          ("NumberNode", .node (.other "NumberNode"))]⟩
        (.link .bindLink [.link .listLink
          [.link .typedVariableLink [.node .variableNode "$x", .node .variableTypeNode "ConceptNode"],
           .link .typedVariableLink [.node .variableNode "$y", .node .variableTypeNode "NumberNode"]],
          .link .implicationLink [.link .andLink [.link (.other "InheritanceLink")
            [.node .variableNode "$x", .node .variableNode "$y"]], .node .variableNode "$x"]]) .init =
        .ok call p) ↔
      ∃ call p, doBindlink ⟨[("ConceptNode", .node (.other "ConceptNode")),
          ("NumberNode", .node (.other "NumberNode"))]⟩
        (.link .bindLink [.link .listLink
          [.link .typedVariableLink [.node .variableNode "$y", .node .variableTypeNode "NumberNode"],
           .link .typedVariableLink [.node .variableNode "$x", .node .variableTypeNode "ConceptNode"]],
          .link .implicationLink [.link .andLink [.link (.other "InheritanceLink")
            [.node .variableNode "$x", .node .variableNode "$y"]], .node .variableNode "$x"]]) .init =
        .ok call p) ∧
      ∀ call p call' p', doBindlink ⟨[("ConceptNode", .node (.other "ConceptNode")),
          ("NumberNode", .node (.other "NumberNode"))]⟩
        (.link .bindLink [.link .listLink
          [.link .typedVariableLink [.node .variableNode "$x", .node .variableTypeNode "ConceptNode"],
           .link .typedVariableLink [.node .variableNode "$y", .node .variableTypeNode "NumberNode"]],
          .link .implicationLink [.link .andLink [.link (.other "InheritanceLink")
            [.node .variableNode "$x", .node .variableNode "$y"]], .node .variableNode "$x"]]) .init =
          .ok call p →
        doBindlink ⟨[("ConceptNode", .node (.other "ConceptNode")),
          ("NumberNode", .node (.other "NumberNode"))]⟩
        (.link .bindLink [.link .listLink
          [.link .typedVariableLink [.node .variableNode "$y", .node .variableTypeNode "NumberNode"],
           .link .typedVariableLink [.node .variableNode "$x", .node .variableTypeNode "ConceptNode"]],
          .link .implicationLink [.link .andLink [.link (.other "InheritanceLink")
            [.node .variableNode "$x", .node .variableNode "$y"]], .node .variableNode "$x"]]) .init =
          .ok call' p' →
        call = call' ∧ p.implicand = p'.implicand ∧ p.resultList = p'.resultList ∧
        (∀ v, p.typeRestrictions v =
          ([Atom.link .typedVariableLink [.node .variableNode "$x", .node .variableTypeNode "ConceptNode"],
            .link .typedVariableLink [.node .variableNode "$y", .node .variableTypeNode "NumberNode"]].filterMap
            (typedDecl ⟨[("ConceptNode", .node (.other "ConceptNode")),
              ("NumberNode", .node (.other "NumberNode"))]⟩)).lookup v) ∧
        ((∀ v ts ts', (v, ts) ∈
            [Atom.link .typedVariableLink [.node .variableNode "$x", .node .variableTypeNode "ConceptNode"],
              .link .typedVariableLink [.node .variableNode "$y", .node .variableTypeNode "NumberNode"]].filterMap
              (typedDecl ⟨[("ConceptNode", .node (.other "ConceptNode")),
                ("NumberNode", .node (.other "NumberNode"))]⟩) →
            (v, ts') ∈
            [Atom.link .typedVariableLink [.node .variableNode "$x", .node .variableTypeNode "ConceptNode"],
              .link .typedVariableLink [.node .variableNode "$y", .node .variableTypeNode "NumberNode"]].filterMap
              (typedDecl ⟨[("ConceptNode", .node (.other "ConceptNode")),
                ("NumberNode", .node (.other "NumberNode"))]⟩) → ts = ts') →
          p.typeRestrictions = p'.typeRestrictions)) :=
  ⟨.swap _ _ _, ⟨_, _, rfl⟩, doBindlink_perm (.swap _ _ _) _ _⟩

/-- A variable declared twice with different types: each order keeps the types of its first
declaration. -/
theorem doBindlink_perm_typeRestrictions_differ :
    ∃ call p call' p',
      doBindlink ⟨[("ConceptNode", .node (.other "ConceptNode")),
          ("NumberNode", .node (.other "NumberNode"))]⟩
        (.link .bindLink [.link .listLink
          [.link .typedVariableLink [.node .variableNode "$x", .node .variableTypeNode "ConceptNode"],
           .link .typedVariableLink [.node .variableNode "$x", .node .variableTypeNode "NumberNode"]],
          .link .implicationLink [.link .andLink [], .node .variableNode "$x"]]) .init =
        .ok call p ∧
      doBindlink ⟨[("ConceptNode", .node (.other "ConceptNode")),
          ("NumberNode", .node (.other "NumberNode"))]⟩
        (.link .bindLink [.link .listLink
          [.link .typedVariableLink [.node .variableNode "$x", .node .variableTypeNode "NumberNode"],
           .link .typedVariableLink [.node .variableNode "$x", .node .variableTypeNode "ConceptNode"]],
          .link .implicationLink [.link .andLink [], .node .variableNode "$x"]]) .init =
        .ok call' p' ∧
      p.typeRestrictions (.node .variableNode "$x") ≠ p'.typeRestrictions (.node .variableNode "$x") :=
  ⟨_, _, _, _, rfl, rfl, by decide⟩

end PatternMatch

end OpenCog
