import OpenCog.Query.Declarations

/-!
# The grounding protocol

What the three implicators do with the groundings the search engine delivers, over whole runs of
any length.  One call of `grounding` is described once for the three classes (`grounding_eq`),
and the runs are then handled by induction over the delivered groundings:

* `search_collect` : a callback that never stops the search, fed groundings none of whose
  instantiations raises, collects every defined instantiation, in delivery order;
* `search_single` : the single implicator stops after the first grounding, whether its
  implicand instantiates or not;
* `search_raises` : an exception raised while instantiating leaves the search;
* `search_invariant` : a property kept by one call holds where the search stops, normally or by
  an exception; `CrispFrame` is such a property of the crisp implicator.

The entry points then inherit these: `bindlinkWith_results`, `singleBindlink_first`,
`crispLogicBindlink_truth_values`, `doBindlink_error_frame` and `imply_eq_bindlink`.  An exception
of the search leaves through the specification of `do_imply` (`bindlinkWith_raises`): only an
`InvalidParamException` reaches the caller.  Under groundings that bind every variable of the
query, as the spec's do, `single_bindlink` returns the first result of `bindlink`
(`singleBindlink_head_bindlink`).
-/

namespace OpenCog

variable {inst : Instantiator}

/-! ### One call of `grounding` -/

theorem ground_of_implicand {pmc : Implicator} {M : Atom} (hM : pmc.implicand = some M)
    (g : Grounding) (as : AtomSpace) :
    Implicator.ground inst pmc g as = (inst.instantiate M g, inst.created M g as) := by
  simp [Implicator.ground, hM]

theorem extends_ground (pmc : Implicator) (g : Grounding) (as : AtomSpace) :
    as.Extends (Implicator.ground inst pmc g as).2 := by
  unfold Implicator.ground
  split
  · exact inst.extends_created _ _ _
  · rfl

/-- **One call of `grounding`**, for the three classes: the instantiation is appended when it is
defined, the crisp implicator makes it true and certain, and only the single implicator asks the
engine to stop. -/
theorem grounding_eq (k : ImplicatorKind) (g : Grounding) (pmc : Implicator) (as : AtomSpace) :
    k.grounding inst g (pmc, as) =
      match Implicator.ground inst pmc g as with
      | (.error e, as') => .error e (pmc, as')
      | (.ok none, as') => .ok (decide (k = .singleImplicator)) (pmc, as')
      | (.ok (some h), as') => .ok (decide (k = .singleImplicator))
          (pmc.push h, if k = .crispImplicator then as'.setTruthValue h .trueCertain else as') := by
  rcases hg : Implicator.ground inst pmc g as with ⟨⟨e⟩ | ⟨_ | h⟩, as'⟩ <;>
    cases k <;> simp [ImplicatorKind.grounding, Implicator.grounding, SingleImplicator.grounding,
      CrispImplicator.grounding, hg]

section OneCall

variable (k : ImplicatorKind) {pmc : Implicator} {M : Atom} (hM : pmc.implicand = some M)
  {g : Grounding} (as : AtomSpace)
include hM

theorem grounding_error {e : Exception} (hi : inst.instantiate M g = .error e) :
    k.grounding inst g (pmc, as) = .error e (pmc, inst.created M g as) := by
  simp [grounding_eq, ground_of_implicand hM, hi]

theorem grounding_undefined (hi : inst.instantiate M g = .ok none) :
    k.grounding inst g (pmc, as) =
      .ok (decide (k = .singleImplicator)) (pmc, inst.created M g as) := by
  simp [grounding_eq, ground_of_implicand hM, hi]

theorem grounding_defined {h : Atom} (hi : inst.instantiate M g = .ok (some h)) :
    k.grounding inst g (pmc, as) =
      .ok (decide (k = .singleImplicator)) (pmc.push h,
        if k = .crispImplicator then (inst.created M g as).setTruthValue h .trueCertain
        else inst.created M g as) := by
  simp [grounding_eq, ground_of_implicand hM, hi]

end OneCall

/-- The default and crisp implicators never ask the engine to stop. -/
theorem grounding_ne_true {k : ImplicatorKind} (hk : k ≠ .singleImplicator) (g : Grounding)
    (s s' : Implicator × AtomSpace) : k.grounding inst g s ≠ .ok true s' := by
  obtain ⟨pmc, as⟩ := s
  rw [grounding_eq]
  rcases Implicator.ground inst pmc g as with ⟨⟨e⟩ | ⟨_ | h⟩, as'⟩ <;> simp [hk]

@[simp] theorem push_implicand (pmc : Implicator) (h : Atom) :
    (pmc.push h).implicand = pmc.implicand := rfl

/-! ### Runs -/

@[simp] theorem search_nil (k : ImplicatorKind) (s : Implicator × AtomSpace) :
    search inst k [] s = .ok () s := rfl

/-- **Collect-all runs.** -/
theorem search_collect {k : ImplicatorKind} (hk : k ≠ .singleImplicator) {M : Atom}
    (gs : List Grounding) :
    ∀ (pmc : Implicator) (as : AtomSpace), pmc.implicand = some M →
      (∀ g ∈ gs, ∀ e, inst.instantiate M g ≠ .error e) →
      ∃ as', search inst k gs (pmc, as) =
        .ok () ({ pmc with resultList := pmc.resultList ++ gs.filterMap (inst.value M) }, as') := by
  induction gs with
  | nil => intro pmc as _ _; exact ⟨as, by simp [search]⟩
  | cons g gs ih =>
    intro pmc as hM hraise
    have hrest := fun g' hg' => hraise g' (List.mem_cons_of_mem g hg')
    have hstop : decide (k = .singleImplicator) = false := decide_eq_false hk
    cases hi : inst.instantiate M g with
    | error e => exact absurd hi (hraise g (List.mem_cons_self g gs) e)
    | ok r =>
      cases r with
      | none =>
        obtain ⟨as', h⟩ := ih pmc (inst.created M g as) hM hrest
        refine ⟨as', ?_⟩
        simp [search, grounding_undefined k hM as hi, hstop, h, Instantiator.value, hi]
      | some h =>
        obtain ⟨as', hs⟩ := ih (pmc.push h)
          (if k = .crispImplicator then (inst.created M g as).setTruthValue h .trueCertain
            else inst.created M g as) (by simpa using hM) hrest
        refine ⟨as', ?_⟩
        simp only [search, grounding_defined k hM as hi, hstop, List.filterMap_cons,
          Instantiator.value, hi]
        simpa [Implicator.push] using hs

/-- **The single implicator stops at the first grounding**, keeping its instantiation when it is
defined. -/
theorem search_single {pmc : Implicator} {M : Atom} (hM : pmc.implicand = some M) {g : Grounding}
    (hi : ∀ e, inst.instantiate M g ≠ .error e) (gs : List Grounding) (as : AtomSpace) :
    search inst .singleImplicator (g :: gs) (pmc, as) =
      .ok () ({ pmc with resultList := pmc.resultList ++ (inst.value M g).toList },
        inst.created M g as) := by
  cases hr : inst.instantiate M g with
  | error e => exact absurd hr (hi e)
  | ok r =>
    cases r with
    | none => simp [search, grounding_undefined _ hM as hr, Instantiator.value, hr]
    | some h => simp [search, grounding_defined _ hM as hr, Instantiator.value, hr, Implicator.push]

/-- A run of a callback that never stops the search is the run over a prefix of the groundings,
followed by the run over the rest. -/
theorem search_append {k : ImplicatorKind} (hk : k ≠ .singleImplicator) (pre rest : List Grounding)
    (s : Implicator × AtomSpace) :
    search inst k (pre ++ rest) s =
      match search inst k pre s with
      | .ok () s' => search inst k rest s'
      | .error e s' => .error e s' := by
  induction pre generalizing s with
  | nil => rfl
  | cons g pre ih =>
    simp only [List.cons_append, search]
    rcases h : k.grounding inst g s with ⟨_ | _, s'⟩ | ⟨e, s'⟩
    · exact ih s'
    · exact absurd h (grounding_ne_true hk g s s')
    · rfl

/-- **An exception raised while instantiating leaves the search**, whenever the search reaches
the grounding that raises: the callback never stops it, or that grounding comes first. -/
theorem search_raises {k : ImplicatorKind} {M : Atom} {pre : List Grounding} {g : Grounding}
    {e : Exception} (hreach : k ≠ .singleImplicator ∨ pre = [])
    (hpre : ∀ g' ∈ pre, ∀ e', inst.instantiate M g' ≠ .error e')
    (hg : inst.instantiate M g = .error e) {pmc : Implicator} (hM : pmc.implicand = some M)
    (as : AtomSpace) (post : List Grounding) :
    ∃ s, search inst k (pre ++ g :: post) (pmc, as) = .error e s := by
  rcases hreach with hk | rfl
  · obtain ⟨as', h⟩ := search_collect hk pre pmc as hM hpre
    have hM' : ({ pmc with resultList := pmc.resultList ++ pre.filterMap (inst.value M) } :
        Implicator).implicand = some M := hM
    rw [search_append hk, h]
    exact ⟨_, by simp only [search, grounding_error k hM' as' hg]; rfl⟩
  · exact ⟨_, by simp only [List.nil_append, search, grounding_error k hM as hg]; rfl⟩

/-- **Run invariant.** A property of the callback and the store that one call of `grounding`
keeps, whether the call returns or raises, holds where the search stops. -/
theorem search_invariant {k : ImplicatorKind} (Inv : Implicator × AtomSpace → Prop)
    (hstep : ∀ g s, Inv s → Inv (resultState (k.grounding inst g s))) :
    ∀ (gs : List Grounding) (s : Implicator × AtomSpace), Inv s →
      Inv (resultState (search inst k gs s))
  | [], _, hs => hs
  | g :: gs, s, hs => by
    have h1 := hstep g s hs
    simp only [search]
    rcases h : k.grounding inst g s with ⟨_ | _, s'⟩ | ⟨e, s'⟩ <;> rw [h] at h1
    · exact search_invariant Inv hstep gs s' h1
    · exact h1
    · exact h1

/-! ### Truth values -/

/-- The default and single implicators leave every write to the instantiator. -/
theorem extends_grounding {k : ImplicatorKind} (hk : k ≠ .crispImplicator) (g : Grounding)
    (s : Implicator × AtomSpace) : s.2.Extends (resultState (k.grounding inst g s)).2 := by
  obtain ⟨pmc, as⟩ := s
  have hx : as.Extends (Implicator.ground inst pmc g as).2 := extends_ground pmc g as
  rw [grounding_eq]
  rcases hg : Implicator.ground inst pmc g as with ⟨⟨e⟩ | ⟨_ | h⟩, as'⟩ <;> rw [hg] at hx <;>
    simpa [resultState, hk] using hx

/-- What a crisp run keeps of the store `as₀` it starts on: every collected atom is true and
certain, and every other atom of `as₀` keeps its truth value. -/
def CrispFrame (as₀ : AtomSpace) (s : Implicator × AtomSpace) : Prop :=
  (∀ h ∈ s.1.resultList, s.2.tv h = some .trueCertain) ∧
    ∀ a v, as₀.tv a = some v → a ∉ s.1.resultList → s.2.tv a = some v

theorem CrispFrame.extend {as₀ as as' : AtomSpace} {pmc : Implicator}
    (hF : CrispFrame as₀ (pmc, as)) (hx : as.Extends as') : CrispFrame as₀ (pmc, as') :=
  ⟨fun h hh => hx _ _ (hF.1 h hh), fun a v ha hn => hx _ _ (hF.2 a v ha hn)⟩

theorem CrispFrame.push {as₀ as : AtomSpace} {pmc : Implicator} (hF : CrispFrame as₀ (pmc, as))
    (h : Atom) : CrispFrame as₀ (pmc.push h, as.setTruthValue h .trueCertain) := by
  refine ⟨fun h' hh' => ?_, fun a v ha hn => ?_⟩
  · by_cases he : h' = h
    · simp [he]
    · rw [AtomSpace.setTruthValue_tv_of_ne _ he]
      exact hF.1 h' (by simpa [Implicator.push, he] using hh')
  · simp only [Implicator.push, List.mem_append, List.mem_singleton, not_or] at hn
    rw [AtomSpace.setTruthValue_tv_of_ne _ hn.2]
    exact hF.2 a v ha hn.1

/-- One call of the crisp implicator keeps `CrispFrame`. -/
theorem crispFrame_grounding {as₀ : AtomSpace} (g : Grounding) {s : Implicator × AtomSpace}
    (hF : CrispFrame as₀ s) :
    CrispFrame as₀ (resultState (ImplicatorKind.crispImplicator.grounding inst g s)) := by
  obtain ⟨pmc, as⟩ := s
  have hx : as.Extends (Implicator.ground inst pmc g as).2 := extends_ground pmc g as
  rw [grounding_eq]
  rcases hg : Implicator.ground inst pmc g as with ⟨⟨e⟩ | ⟨_ | h⟩, as'⟩ <;> rw [hg] at hx
  · exact hF.extend hx
  · exact hF.extend hx
  · exact (hF.extend hx).push h

/-! ### The entry points -/

/-- The instantiator of the spec never raises. -/
theorem Instantiator.spec_ne_error (M : Atom) (g : Grounding) (e : Exception) :
    Instantiator.spec.instantiate M g ≠ .error e :=
  nofun

/-- An instantiator every call of which raises `e` and writes nothing, as an evaluation failure
inside the implicand does. -/
def Instantiator.raising (e : Exception) : Instantiator where
  instantiate _ _ := .error e
  created _ _ as := as
  extends_created _ _ as := .refl as

namespace PatternMatch

variable {cs : ClassServer} {eng : Engine}

section Search

variable {k : ImplicatorKind} {call : MatchCall} {pmc : Implicator} {as : AtomSpace}

theorem doMatch_of_ok {s : Implicator × AtomSpace}
    (hs : search inst k (eng k.matchCB pmc.typeRestrictions call as) (pmc, as) = .ok () s) :
    doMatch eng inst k call pmc as = .ok () s := by
  rw [doMatch, hs]

/-- An exception of the search leaves through the specification of `do_imply`. -/
theorem doMatch_of_error {e : Exception} {s : Implicator × AtomSpace}
    (hs : search inst k (eng k.matchCB pmc.typeRestrictions call as) (pmc, as) = .error e s) :
    doMatch eng inst k call pmc as = .error e.throwSpec s := by
  rw [doMatch, hs]

@[simp] theorem resultState_doMatch :
    resultState (doMatch eng inst k call pmc as) =
      resultState (search inst k (eng k.matchCB pmc.typeRestrictions call as) (pmc, as)) := by
  rw [doMatch]
  split <;> rename_i hs <;> rw [hs] <;> rfl

end Search

theorem bindlinkWith_of_ok {k : ImplicatorKind} {h : Atom} {call : MatchCall} {pmc : Implicator}
    (hr : doBindlink cs h .init = .ok call pmc) (as : AtomSpace) :
    bindlinkWith cs eng inst k h as = finish (doMatch eng inst k call pmc as) := by
  simp [bindlinkWith, hr]

theorem bindlinkWith_of_error {k : ImplicatorKind} {h : Atom} {e : Abort} {pmc : Implicator}
    (hr : doBindlink cs h .init = .error e pmc) (as : AtomSpace) :
    bindlinkWith cs eng inst k h as = .error e as := by
  simp [bindlinkWith, hr]

theorem doBindlink_resultList {h : Atom} {pmc pmc' : Implicator} {call : MatchCall}
    (hr : doBindlink cs h pmc = .ok call pmc') : pmc'.resultList = pmc.resultList := by
  obtain ⟨_, _, _, _, -, -, rfl, -⟩ := doBindlink_eq_ok hr
  rfl

theorem doBindlink_implicand {D P M : Atom} {pmc pmc' : Implicator} {call : MatchCall}
    (hr : doBindlink cs (.link .bindLink [D, .link .implicationLink [P, M]]) pmc = .ok call pmc') :
    pmc'.implicand = some M := by
  obtain ⟨_, _, _, M', he, -, rfl, -⟩ := doBindlink_eq_ok hr
  simp only [Atom.link.injEq, List.cons.injEq, and_true, true_and] at he
  obtain ⟨-, -, rfl⟩ := he
  rfl

/-- The store an entry point returns extends the one the search stopped on. -/
theorem extends_finish (r : EStateM.Result Abort (Implicator × AtomSpace) Unit) :
    (resultState r).2.Extends (resultState (finish r)) := by
  rcases r with ⟨⟨⟩, pmc, as⟩ | ⟨e, pmc, as⟩
  · exact AtomSpace.extends_addLink _ _ _
  · rfl

/-- The default and crisp entry points return the defined instantiations, in delivery order. -/
theorem bindlinkWith_collect {k : ImplicatorKind} (hk : k ≠ .singleImplicator) {D P M : Atom}
    {call : MatchCall} {pmc : Implicator}
    (hacc : doBindlink cs (.link .bindLink [D, .link .implicationLink [P, M]]) .init = .ok call pmc)
    (as : AtomSpace)
    (hraise : ∀ g ∈ eng k.matchCB pmc.typeRestrictions call as, ∀ e, inst.instantiate M g ≠ .error e) :
    ∃ as', bindlinkWith cs eng inst k (.link .bindLink [D, .link .implicationLink [P, M]]) as =
      .ok (.link .listLink ((eng k.matchCB pmc.typeRestrictions call as).filterMap (inst.value M)))
        as' := by
  obtain ⟨as', hs⟩ := search_collect hk _ pmc as (doBindlink_implicand hacc) hraise
  rw [bindlinkWith_of_ok hacc, doMatch_of_ok hs, doBindlink_resultList hacc]
  exact ⟨_, rfl⟩

/-- **The default and crisp entry points collect every result.** Both callbacks answer `false` to
every grounding, and the `ListLink` returned holds the defined instantiations of the implicand
under the delivered groundings, in delivery order, duplicates kept. -/
theorem bindlinkWith_results {k : ImplicatorKind} (hk : k ≠ .singleImplicator) {D P M : Atom}
    {call : MatchCall} {pmc : Implicator}
    (hacc : doBindlink cs (.link .bindLink [D, .link .implicationLink [P, M]]) .init = .ok call pmc)
    (as : AtomSpace) (gs : List Grounding) (hgs : eng k.matchCB pmc.typeRestrictions call as = gs)
    (hraise : ∀ g ∈ gs, ∀ e, inst.instantiate M g ≠ .error e) :
    (∀ g s s', k.grounding inst g s ≠ .ok true s') ∧
    ∃ as', bindlinkWith cs eng inst k (.link .bindLink [D, .link .implicationLink [P, M]]) as =
      .ok (.link .listLink (gs.filterMap (inst.value M))) as' := by
  subst hgs
  exact ⟨grounding_ne_true hk, bindlinkWith_collect hk hacc as hraise⟩

theorem bindlinkWith_results_duplicates :
    (∀ g s s', ImplicatorKind.defaultImplicator.grounding Instantiator.spec g s ≠ .ok true s') ∧
    ∃ as', bindlinkWith ⟨[]⟩
        (fun _ _ _ _ =>
          [fun v => if v = .node .variableNode "$x" then some (.node (.other "ConceptNode") "a")
            else none,
           fun v => if v = .node .variableNode "$x" then some (.node (.other "ConceptNode") "b")
            else none,
           fun v => if v = .node .variableNode "$x" then some (.node (.other "ConceptNode") "a")
            else none])
        Instantiator.spec .defaultImplicator
        (.link .bindLink [.node .variableNode "$x", .link .implicationLink
          [.link .andLink [.link (.other "InheritanceLink")
            [.node .variableNode "$x", .node (.other "ConceptNode") "animal"]],
          .node .variableNode "$x"]]) ⟨fun _ => none⟩ =
      .ok (.link .listLink [.node (.other "ConceptNode") "a", .node (.other "ConceptNode") "b",
        .node (.other "ConceptNode") "a"]) as' :=
  bindlinkWith_results (by decide) (by exact rfl) _ _ rfl fun _ _ _ => Instantiator.spec_ne_error _ _ _

/-- The single entry point returns the instantiation of the first grounding, when it is defined. -/
theorem bindlinkWith_single {D P M : Atom} {call : MatchCall} {pmc : Implicator}
    (hacc : doBindlink cs (.link .bindLink [D, .link .implicationLink [P, M]]) .init = .ok call pmc)
    (as : AtomSpace)
    (hraise : ∀ g ∈ (eng .defaultPatternMatchCB pmc.typeRestrictions call as).head?, ∀ e,
      inst.instantiate M g ≠ .error e) :
    ∃ as', bindlinkWith cs eng inst .singleImplicator
        (.link .bindLink [D, .link .implicationLink [P, M]]) as =
      .ok (.link .listLink
        (((eng .defaultPatternMatchCB pmc.typeRestrictions call as).head?.bind (inst.value M)).toList))
        as' := by
  rw [bindlinkWith_of_ok hacc, doMatch]
  simp only [ImplicatorKind.matchCB] at hraise ⊢
  cases hgs : eng .defaultPatternMatchCB pmc.typeRestrictions call as with
  | nil =>
    rw [search_nil]
    exact ⟨_, by rw [finish, doBindlink_resultList hacc]; rfl⟩
  | cons g gs =>
    rw [search_single (doBindlink_implicand hacc) (hraise g (by simp [hgs]))]
    exact ⟨_, by rw [finish, doBindlink_resultList hacc]; rfl⟩

theorem head_bind_prefix_filterMap {α β : Type} (f : α → Option β) :
    ∀ l : List α, (l.head?.bind f).toList <+: l.filterMap f
  | [] => List.prefix_refl _
  | a :: l => by cases h : f a <;> simp [h]

/-- **The single implicator keeps the first grounding only.** `single_bindlink` returns the
instantiation of the first grounding the engine delivers, or the empty `ListLink` when that
instantiation is undefined, whatever the later groundings give; the list it returns is a prefix
of the one `bindlink` returns from the same groundings. -/
theorem singleBindlink_first {D P M : Atom} {call : MatchCall} {pmc : Implicator}
    (hacc : doBindlink cs (.link .bindLink [D, .link .implicationLink [P, M]]) .init = .ok call pmc)
    (as : AtomSpace) (gs : List Grounding)
    (hgs : eng .defaultPatternMatchCB pmc.typeRestrictions call as = gs)
    (hraise : ∀ g ∈ gs, ∀ e, inst.instantiate M g ≠ .error e) :
    (∃ as', singleBindlink cs eng inst (.link .bindLink [D, .link .implicationLink [P, M]]) as =
      .ok (.link .listLink (gs.head?.bind (inst.value M)).toList) as') ∧
    (∃ as', bindlink cs eng inst (.link .bindLink [D, .link .implicationLink [P, M]]) as =
      .ok (.link .listLink (gs.filterMap (inst.value M))) as') ∧
    (gs.head?.bind (inst.value M)).toList <+: gs.filterMap (inst.value M) := by
  subst hgs
  exact ⟨bindlinkWith_single hacc as fun g hg => hraise g (List.mem_of_mem_head? hg),
    bindlinkWith_collect (by decide) hacc as hraise, head_bind_prefix_filterMap _ _⟩

theorem singleBindlink_first_prefix :
    (∃ as', singleBindlink ⟨[]⟩
        (fun _ _ _ _ =>
          [fun v => if v = .node .variableNode "$x" then some (.node (.other "ConceptNode") "a")
            else none,
           fun v => if v = .node .variableNode "$x" then some (.node (.other "ConceptNode") "b")
            else none])
        Instantiator.spec
        (.link .bindLink [.node .variableNode "$x", .link .implicationLink
          [.link .andLink [.link (.other "InheritanceLink")
            [.node .variableNode "$x", .node (.other "ConceptNode") "animal"]],
          .node .variableNode "$x"]]) ⟨fun _ => none⟩ =
      .ok (.link .listLink [.node (.other "ConceptNode") "a"]) as') ∧
    (∃ as', bindlink ⟨[]⟩
        (fun _ _ _ _ =>
          [fun v => if v = .node .variableNode "$x" then some (.node (.other "ConceptNode") "a")
            else none,
           fun v => if v = .node .variableNode "$x" then some (.node (.other "ConceptNode") "b")
            else none])
        Instantiator.spec
        (.link .bindLink [.node .variableNode "$x", .link .implicationLink
          [.link .andLink [.link (.other "InheritanceLink")
            [.node .variableNode "$x", .node (.other "ConceptNode") "animal"]],
          .node .variableNode "$x"]]) ⟨fun _ => none⟩ =
      .ok (.link .listLink [.node (.other "ConceptNode") "a", .node (.other "ConceptNode") "b"])
        as') ∧
    [Atom.node (.other "ConceptNode") "a"] <+:
      [.node (.other "ConceptNode") "a", .node (.other "ConceptNode") "b"] :=
  singleBindlink_first (by exact rfl) _ _ rfl fun _ _ _ => Instantiator.spec_ne_error _ _ _

/-! ### The single implicator under the spec's groundings -/

mutual
/-- A template instantiates exactly when the grounding binds each of its variables. -/
theorem isSome_walkTree_iff (g : Grounding) :
    ∀ a : Atom, (Instantiator.walkTree g a).isSome ↔ ∀ v ∈ findVars a, (g v).isSome
  | .node .variableNode n => by simp [Instantiator.walkTree, findVars]
  | .node .variableTypeNode _ => by simp [Instantiator.walkTree, findVars]
  | .node (.other _) _ => by simp [Instantiator.walkTree, findVars]
  | .link _ out => by
    simp only [Instantiator.walkTree, Option.isSome_map', findVars]
    exact isSome_walkSeq_iff g out
/-- `isSome_walkTree_iff` over an outgoing set. -/
theorem isSome_walkSeq_iff (g : Grounding) :
    ∀ l : List Atom, (Instantiator.walkSeq g l).isSome ↔ ∀ v ∈ findVarsList l, (g v).isSome
  | [] => by simp [Instantiator.walkSeq, findVarsList]
  | a :: l => by
    simp only [findVarsList, Finset.mem_union, or_imp, forall_and, ← isSome_walkTree_iff g a,
      ← isSome_walkSeq_iff g l, Instantiator.walkSeq]
    cases Instantiator.walkTree g a <;> cases Instantiator.walkSeq g l <;> simp
end

@[simp] theorem Instantiator.spec_value (M : Atom) (g : Grounding) :
    Instantiator.spec.value M g = Instantiator.walkTree g M := rfl

/-- Under groundings that all bind the same variables, the spec's instantiator is defined under
all of them or under none, so the first grounding gives the first defined instantiation. -/
theorem head_bind_walkTree {M : Atom} {vars : Finset Atom} {gs : List Grounding}
    (hbind : ∀ g ∈ gs, ∀ v, (g v).isSome ↔ v ∈ vars) :
    (gs.head?.bind (Instantiator.spec.value M)).toList =
      (gs.filterMap (Instantiator.spec.value M)).head?.toList := by
  have huni : ∀ g ∈ gs, (Instantiator.walkTree g M).isSome ↔ ∀ v ∈ findVars M, v ∈ vars :=
    fun g hg => (isSome_walkTree_iff g M).trans (forall₂_congr fun v _ => hbind g hg v)
  cases gs with
  | nil => rfl
  | cons g gs =>
    cases hg : Instantiator.walkTree g M with
    | some x => simp [hg]
    | none =>
      -- undefined under the first grounding, so under every other one
      have hnone : ∀ g' ∈ gs, Instantiator.walkTree g' M = none := fun g' hg' =>
        Option.not_isSome_iff_eq_none.1 fun hs =>
          absurd ((huni g (.head _)).2 ((huni g' (.tail _ hg')).1 hs)) (by simp [hg])
      rw [List.filterMap_cons_none (show Instantiator.spec.value M g = none from hg),
        show gs.filterMap (Instantiator.spec.value M) = [] from List.filterMap_eq_nil_iff.2 hnone]
      simp [hg]

/-- **An exception raised while instantiating ends the entry point.** Nothing catches it, whenever
the search reaches the grounding that raises: for the default and crisp implicators wherever that
grounding comes, and for the single implicator when it comes first.  It leaves through the
specification of `do_imply`: an `InvalidParamException` reaches the caller, and any other
exception ends the program. -/
theorem bindlinkWith_raises {k : ImplicatorKind} {D P M : Atom} {call : MatchCall}
    {pmc : Implicator}
    (hacc : doBindlink cs (.link .bindLink [D, .link .implicationLink [P, M]]) .init = .ok call pmc)
    (as : AtomSpace) {pre post : List Grounding} {g : Grounding} {e : Exception}
    (hgs : eng k.matchCB pmc.typeRestrictions call as = pre ++ g :: post)
    (hreach : k ≠ .singleImplicator ∨ pre = [])
    (hpre : ∀ g' ∈ pre, ∀ e', inst.instantiate M g' ≠ .error e')
    (hg : inst.instantiate M g = .error e) :
    ∃ as', bindlinkWith cs eng inst k (.link .bindLink [D, .link .implicationLink [P, M]]) as =
      .error e.throwSpec as' := by
  obtain ⟨s, hs⟩ := search_raises hreach hpre hg (doBindlink_implicand hacc) as post
  rw [← hgs] at hs
  rw [bindlinkWith_of_ok hacc, doMatch_of_error hs]
  exact ⟨_, rfl⟩

theorem bindlinkWith_raises_first :
    (∃ as', bindlinkWith ⟨[]⟩ (fun _ _ _ _ => [fun _ => none])
        (Instantiator.raising (.eval "evaluation failed")) .singleImplicator
        (.link .bindLink [.node .variableNode "$x", .link .implicationLink
          [.link .andLink [.link (.other "InheritanceLink")
            [.node .variableNode "$x", .node (.other "ConceptNode") "animal"]],
          .node .variableNode "$x"]]) ⟨fun _ => none⟩ =
      .error .terminate as') ∧
    ∃ as', bindlinkWith ⟨[]⟩ (fun _ _ _ _ => [fun _ => none])
        (Instantiator.raising (.invalidParam "invalid implicand")) .defaultImplicator
        (.link .bindLink [.node .variableNode "$x", .link .implicationLink
          [.link .andLink [.link (.other "InheritanceLink")
            [.node .variableNode "$x", .node (.other "ConceptNode") "animal"]],
          .node .variableNode "$x"]]) ⟨fun _ => none⟩ =
      .error (.raise (.invalidParam "invalid implicand")) as' :=
  ⟨@bindlinkWith_raises _ _ _ _ _ _ _ _ _ (by exact rfl) _ _ _ _ (.eval "evaluation failed")
    (show [fun _ => none] = [] ++ (fun _ => none : Grounding) :: [] from rfl) (.inr rfl) (by simp) rfl,
   @bindlinkWith_raises _ _ _ _ _ _ _ _ _ (by exact rfl) _ _ _ _ (.invalidParam "invalid implicand")
    (show [fun _ => none] = [] ++ (fun _ => none : Grounding) :: [] from rfl) (.inl (by decide))
    (by simp) rfl⟩

/-- An instantiator that raises on the only grounding: `bindlink` skips nothing.  An evaluation
error ends the program, and an `InvalidParamException` reaches the caller. -/
theorem bindlink_raising_instantiator :
    bindlink ⟨[]⟩ (fun _ _ _ _ => [fun _ => none])
        (Instantiator.raising (.eval "evaluation failed"))
        (.link .bindLink [.node .variableNode "$x", .link .implicationLink
          [.link .andLink [.link (.other "InheritanceLink")
            [.node .variableNode "$x", .node (.other "ConceptNode") "animal"]],
          .node .variableNode "$x"]]) ⟨fun _ => none⟩ =
      .error .terminate ⟨fun _ => none⟩ ∧
    bindlink ⟨[]⟩ (fun _ _ _ _ => [fun _ => none])
        (Instantiator.raising (.invalidParam "invalid implicand"))
        (.link .bindLink [.node .variableNode "$x", .link .implicationLink
          [.link .andLink [.link (.other "InheritanceLink")
            [.node .variableNode "$x", .node (.other "ConceptNode") "animal"]],
          .node .variableNode "$x"]]) ⟨fun _ => none⟩ =
      .error (.raise (.invalidParam "invalid implicand")) ⟨fun _ => none⟩ :=
  ⟨rfl, rfl⟩

/-- Where `do_bindlink` raises, the callback is as it was, or carries the type map of an accepted
declaration when `do_imply` raised after `set_type_restrictions`. -/
theorem doBindlink_error_state {h : Atom} {pmc pmc' : Implicator} {e : Abort}
    (hr : doBindlink cs h pmc = .error e pmc') :
    pmc' = pmc ∨ ∃ D, Declaration cs D ∧ pmc' = pmc.setTypeRestrictions (declaredTypeMap cs D) := by
  by_cases hb : ∃ D I, h = .link .bindLink [D, I]
  swap
  · obtain ⟨_, hm⟩ := doBindlink_not_bind hb pmc
    rw [hm] at hr
    cases hr
    exact .inl rfl
  obtain ⟨D, I, rfl⟩ := hb
  by_cases hD : Declaration cs D
  · rw [doBindlink_bind hD] at hr
    split at hr
    · cases hr
      exact .inr ⟨D, hD, rfl⟩
    · cases hr
  · obtain ⟨_, hm⟩ := doBindlink_bad_decl hD I pmc
    rw [hm] at hr
    cases hr
    exact .inl rfl

mutual
/-- The variables `find_vars` collects are `VariableNode`s. -/
theorem eq_variableNode_of_mem_findVars {v : Atom} :
    ∀ {a : Atom}, v ∈ findVars a → ∃ n, v = .node .variableNode n
  | .node .variableNode n, h => ⟨n, by simpa [findVars] using h⟩
  | .node .variableTypeNode _, h => by simp [findVars] at h
  | .node (.other _) _, h => by simp [findVars] at h
  | .link _ out, h => eq_variableNode_of_mem_findVarsList (by simpa [findVars] using h)
theorem eq_variableNode_of_mem_findVarsList {v : Atom} :
    ∀ {l : List Atom}, v ∈ findVarsList l → ∃ n, v = .node .variableNode n
  | [], h => by simp [findVarsList] at h
  | _ :: _, h => by
    rw [findVarsList, Finset.mem_union] at h
    exact h.elim eq_variableNode_of_mem_findVars eq_variableNode_of_mem_findVarsList
end

/-- `do_imply` handed the variables of the predicate does what it does with an empty set. -/
theorem doImply_findVars (P M : Atom) (pmc : Implicator) :
    doImply (.link .implicationLink [P, M]) pmc (findVars P) =
      doImply (.link .implicationLink [P, M]) pmc ∅ := by
  cases P with
  | node => rfl
  | link t cl => simp [doImply_implication]

/-- A `ListLink` of untyped variables declares no type. -/
theorem declaredTypeMap_untyped {vs : List Atom} (hvs : ∀ v ∈ vs, ∃ n, v = .node .variableNode n) :
    declaredTypeMap cs (.link .listLink vs) = VariableTypeMap.empty := by
  have hnone : vs.filterMap (typedDecl cs) = [] := List.filterMap_eq_nil_iff.2 fun v hv => by
    obtain ⟨n, rfl⟩ := hvs v hv
    rfl
  funext w
  simp [declaredTypeMap, declaredTypes, hnone]

theorem implyWith_eq_bindlinkWith (k : ImplicatorKind) {P M : Atom} {vs : List Atom}
    (hvs : ∀ v, v ∈ vs ↔ v ∈ findVars P) (as : AtomSpace) :
    implyWith eng inst k (.link .implicationLink [P, M]) as =
      bindlinkWith cs eng inst k (.link .bindLink [.link .listLink vs, .link .implicationLink [P, M]])
        as := by
  have hnode : ∀ v ∈ vs, ∃ n, v = .node .variableNode n := fun v hv =>
    eq_variableNode_of_mem_findVars ((hvs v).1 hv)
  have hD : Declaration cs (.link .listLink vs) := declaration_listLink.2 fun d hd => .inl (hnode d hd)
  have hvars : declaredVars (.link .listLink vs) = findVars P := by
    ext v
    simp only [declaredVars, List.mem_toFinset, List.mem_map, ← hvs]
    constructor
    · rintro ⟨a, ha, rfl⟩
      obtain ⟨n, rfl⟩ := hnode a ha
      exact ha
    · intro hv
      obtain ⟨n, rfl⟩ := hnode v hv
      exact ⟨_, hv, rfl⟩
  have hinit : Implicator.init.setTypeRestrictions (declaredTypeMap cs (.link .listLink vs)) =
      .init := by
    rw [declaredTypeMap_untyped hnode]
    rfl
  rw [bindlinkWith, doBindlink_bind hD, hinit, hvars, doImply_findVars, implyWith]
  rcases doImply (.link .implicationLink [P, M]) .init ∅ with e | ⟨pmc, call⟩ <;> rfl

/-- **The legacy entry points are the declared ones with untyped variables.** `imply(I)` does what
`bindlink(BindLink(ListLink(v₁, …, vₖ), I))` does, for any listing of the variables of the
predicate, and `crisp_logic_imply(I)` what `crisp_logic_bindlink` of that term does: the same
result, the same store, truth values included, and the same exception. -/
theorem imply_eq_bindlink {P M : Atom} {vs : List Atom} (hvs : ∀ v, v ∈ vs ↔ v ∈ findVars P)
    (as : AtomSpace) :
    imply eng inst (.link .implicationLink [P, M]) as =
      bindlink cs eng inst (.link .bindLink [.link .listLink vs, .link .implicationLink [P, M]]) as ∧
    crispLogicImply eng inst (.link .implicationLink [P, M]) as =
      crispLogicBindlink cs eng inst
        (.link .bindLink [.link .listLink vs, .link .implicationLink [P, M]]) as :=
  ⟨implyWith_eq_bindlinkWith _ hvs as, implyWith_eq_bindlinkWith _ hvs as⟩

theorem imply_eq_bindlink_inheritance :
    imply (fun _ _ _ _ => [fun v => if v = .node .variableNode "$x" then
          some (.node (.other "ConceptNode") "a") else none]) Instantiator.spec
        (.link .implicationLink [.link .andLink [.link (.other "InheritanceLink")
          [.node .variableNode "$x", .node (.other "ConceptNode") "animal"]],
          .node .variableNode "$x"]) ⟨fun _ => none⟩ =
      bindlink ⟨[]⟩ (fun _ _ _ _ => [fun v => if v = .node .variableNode "$x" then
          some (.node (.other "ConceptNode") "a") else none]) Instantiator.spec
        (.link .bindLink [.link .listLink [.node .variableNode "$x"],
          .link .implicationLink [.link .andLink [.link (.other "InheritanceLink")
            [.node .variableNode "$x", .node (.other "ConceptNode") "animal"]],
          .node .variableNode "$x"]]) ⟨fun _ => none⟩ ∧
    crispLogicImply (fun _ _ _ _ => [fun v => if v = .node .variableNode "$x" then
          some (.node (.other "ConceptNode") "a") else none]) Instantiator.spec
        (.link .implicationLink [.link .andLink [.link (.other "InheritanceLink")
          [.node .variableNode "$x", .node (.other "ConceptNode") "animal"]],
          .node .variableNode "$x"]) ⟨fun _ => none⟩ =
      crispLogicBindlink ⟨[]⟩ (fun _ _ _ _ => [fun v => if v = .node .variableNode "$x" then
          some (.node (.other "ConceptNode") "a") else none]) Instantiator.spec
        (.link .bindLink [.link .listLink [.node .variableNode "$x"],
          .link .implicationLink [.link .andLink [.link (.other "InheritanceLink")
            [.node .variableNode "$x", .node (.other "ConceptNode") "animal"]],
          .node .variableNode "$x"]]) ⟨fun _ => none⟩ :=
  imply_eq_bindlink (by simp [findVars, findVarsList]) _

/-! ### Truth values at the entry points -/

/-- The default and single entry points change no truth value, whether they return or raise. -/
theorem extends_bindlinkWith {k : ImplicatorKind} (hk : k ≠ .crispImplicator) (h : Atom)
    (as : AtomSpace) : as.Extends (resultState (bindlinkWith cs eng inst k h as)) := by
  rcases hr : doBindlink cs h .init with ⟨call, pmc⟩ | ⟨e, pmc⟩
  · rw [bindlinkWith_of_ok hr]
    refine AtomSpace.Extends.trans ?_ (extends_finish _)
    rw [resultState_doMatch]
    exact search_invariant (fun s => as.Extends s.2)
      (fun g s hs => hs.trans (extends_grounding hk g s)) _ (pmc, as) (.refl as)
  · rw [bindlinkWith_of_error hr]
    rfl

/-- Where a crisp search returns, the `ListLink` of its results keeps `CrispFrame`. -/
theorem crispFrame_finish {as₀ : AtomSpace} {r : EStateM.Result Abort (Implicator × AtomSpace) Unit}
    (hF : CrispFrame as₀ (resultState r)) {a : Atom} {as' : AtomSpace} (hret : finish r = .ok a as') :
    (∀ x ∈ a.getOutgoingSet, as'.tv x = some .trueCertain) ∧
      ∀ x v, as₀.tv x = some v → x ∉ a.getOutgoingSet → as'.tv x = some v := by
  rcases r with ⟨⟨⟩, pmc, as⟩ | ⟨e, s⟩
  · simp only [finish, EStateM.Result.ok.injEq] at hret
    obtain ⟨rfl, rfl⟩ := hret
    exact hF.extend (AtomSpace.extends_addLink _ _ _)
  · cases hret

/-- **Only the crisp implicator writes truth values, and only those of its results.** Where
`crisp_logic_bindlink` returns, every atom of its result is true and certain and every other atom
of the store keeps its truth value; `bindlink` and `single_bindlink` keep every truth value,
whether they return or raise. -/
theorem crispLogicBindlink_truth_values (h : Atom) (as : AtomSpace) :
    (∀ r as', crispLogicBindlink cs eng inst h as = .ok r as' →
      (∀ a ∈ r.getOutgoingSet, as'.tv a = some .trueCertain) ∧
      ∀ a v, as.tv a = some v → a ∉ r.getOutgoingSet → as'.tv a = some v) ∧
    as.Extends (resultState (bindlink cs eng inst h as)) ∧
    as.Extends (resultState (singleBindlink cs eng inst h as)) := by
  refine ⟨fun r as' hret => ?_, extends_bindlinkWith (by decide) h as,
    extends_bindlinkWith (by decide) h as⟩
  rcases hr : doBindlink cs h .init with ⟨call, pmc⟩ | ⟨e, pmc⟩
  · rw [crispLogicBindlink, bindlinkWith_of_ok hr] at hret
    have h0 : CrispFrame as (pmc, as) :=
      ⟨by simp [doBindlink_resultList hr, Implicator.init], fun _ _ ha _ => ha⟩
    refine crispFrame_finish ?_ hret
    rw [resultState_doMatch]
    exact search_invariant _ (fun g _ hs => crispFrame_grounding g hs) _ _ h0
  · rw [crispLogicBindlink, bindlinkWith_of_error hr] at hret
    cases hret

end PatternMatch

end OpenCog
