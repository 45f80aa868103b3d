import OpenCog.Query.PatternMatch

/-!
# Implicators, the grounding protocol and the entry points

The search engine is not part of this code: it walks the atom space and hands every grounding
it finds to the callback's `grounding` method, one at a time and on its own stack, and stops
when the method answers `true`.  It is modelled by the groundings it finds for a query
(`Engine`), and the protocol by `search`, which feeds them to the callback in order.

* `Instantiator` : the instantiator of `Instantiator.h`, which is not under `src/`, as a value,
  a write to the store, and the promise of the spec that it only creates atoms.
  `Instantiator.spec` rebuilds a template under a grounding as §4.5 of the spec describes.
* `Implicator.grounding`, `SingleImplicator.grounding`, `CrispImplicator.grounding` : the three
  callbacks; `ImplicatorKind.grounding` is the virtual call.
* `PatternMatch.bindlink`, `singleBindlink`, `crispLogicBindlink`, `imply`, `crispLogicImply` :
  the entry points, which construct an implicator, run the driver and the search, and add the
  result list to the store as a `ListLink`.  They have no exception handler: an exception raised
  by the callbacks leaves through the specification of `do_imply`, so only an
  `InvalidParamException` reaches their caller and any other ends the program.
-/

namespace OpenCog

/-- The state a result leaves behind, whether it is a value or an exception. -/
def resultState {ε σ α : Type} : EStateM.Result ε σ α → σ
  | .ok _ s => s
  | .error _ s => s

/-- The instantiator as the callbacks use it: what `instantiate(implicand, var_soln)` returns, and
the store after the call, raised or not.  The spec promises that only newly created atoms
change (§3), which is `extends_created`. -/
structure Instantiator where
  /-- The grounded term, `none` for `Handle::UNDEFINED`, or the exception raised. -/
  instantiate : Atom → Grounding → Except Exception (Option Atom)
  /-- The store after the call. -/
  created : Atom → Grounding → AtomSpace → AtomSpace
  /-- Every atom of the store keeps its truth value. -/
  extends_created : ∀ (M : Atom) (g : Grounding) (as : AtomSpace), as.Extends (created M g as)

namespace Instantiator

/-- The defined value of `instantiate(M, g)`: `none` when it is undefined or raises. -/
def value (inst : Instantiator) (M : Atom) (g : Grounding) : Option Atom :=
  match inst.instantiate M g with
  | .ok r => r
  | .error _ => none

mutual
/-- Modelled from the spec: `Instantiator::instantiate` (§4.5).  A variable is replaced by its
grounding and fails without one, other nodes are kept, and a link is rebuilt when every child
is. -/
def walkTree (g : Grounding) : Atom → Option Atom
  | .node .variableNode n => g (.node .variableNode n)
  | .node t n => some (.node t n)
  | .link t out => (walkSeq g out).map (.link t)
/-- `walkTree` over an outgoing set. -/
def walkSeq (g : Grounding) : List Atom → Option (List Atom)
  | [] => some []
  | a :: as =>
    match walkTree g a, walkSeq g as with
    | some b, some bs => some (b :: bs)
    | _, _ => none
end

mutual
/-- Modelled from the spec: the links `Instantiator::instantiate` adds to the store, each child
before its parent, and a link only when every child is rebuilt (§4.5). -/
def createTree (g : Grounding) : Atom → AtomSpace → AtomSpace
  | .node _ _, as => as
  | .link t out, as =>
    match walkSeq g out with
    | some bs => (createSeq g out as).addLink t bs
    | none => createSeq g out as
/-- `createTree` over an outgoing set, left to right. -/
def createSeq (g : Grounding) : List Atom → AtomSpace → AtomSpace
  | [], as => as
  | a :: rest, as => createSeq g rest (createTree g a as)
end

mutual
theorem extends_createTree (g : Grounding) :
    ∀ (a : Atom) (as : AtomSpace), as.Extends (createTree g a as)
  | .node _ _, as => .refl as
  | .link t out, as => by
    have h := extends_createSeq g out as
    unfold createTree
    split
    · exact h.trans (AtomSpace.extends_addLink _ _ _)
    · exact h
theorem extends_createSeq (g : Grounding) :
    ∀ (l : List Atom) (as : AtomSpace), as.Extends (createSeq g l as)
  | [], as => .refl as
  | a :: rest, as => (extends_createTree g a as).trans (extends_createSeq g rest _)
end

/-- The instantiator of the spec: it never raises. -/
def spec : Instantiator where
  instantiate M g := .ok (walkTree g M)
  created M g := createTree g M
  extends_created M g := extends_createTree g M

end Instantiator

/-- The three implicator classes the entry points construct. -/
inductive ImplicatorKind
  | defaultImplicator
  | singleImplicator
  | crispImplicator
  deriving DecidableEq, Repr

/-- The matching callbacks the search engine consults: `DefaultPatternMatchCB` or
`CrispLogicPMCB`. -/
inductive MatchCB
  | defaultPatternMatchCB
  | crispLogicPMCB
  deriving DecidableEq, Repr

/-- The matching callbacks each implicator class inherits. -/
def ImplicatorKind.matchCB : ImplicatorKind → MatchCB
  | .defaultImplicator => .defaultPatternMatchCB
  | .singleImplicator => .defaultPatternMatchCB
  | .crispImplicator => .crispLogicPMCB

/-- The search engine: the groundings it finds for a query, in the order it delivers them, given
the matching callbacks, the type restrictions of the callback, the arguments of `do_match` and the
store when the search starts. -/
abbrev Engine := MatchCB → VariableTypeMap → MatchCall → AtomSpace → List Grounding

namespace Implicator

variable (inst : Instantiator)

/-- `inst.instantiate(implicand, var_soln)`, and the store after it.  (`do_imply` attaches the
implicand before the search, so the search never sees `none`.) -/
def ground (pmc : Implicator) (g : Grounding) (as : AtomSpace) :
    Except Exception (Option Atom) × AtomSpace :=
  match pmc.implicand with
  | some M => (inst.instantiate M g, inst.created M g as)
  | none => (.ok none, as)

/-- `result_list.push_back`. -/
def push (pmc : Implicator) (h : Atom) : Implicator :=
  { pmc with resultList := pmc.resultList ++ [h] }

/-- `Implicator::grounding`: a defined grounded implicand is appended to the result list, and the
search goes on. -/
def grounding (g : Grounding) :
    Implicator × AtomSpace → EStateM.Result Exception (Implicator × AtomSpace) Bool
  | (pmc, as) =>
    match ground inst pmc g as with
    | (.error e, as) => .error e (pmc, as)
    | (.ok none, as) => .ok false (pmc, as)
    | (.ok (some h), as) => .ok false (pmc.push h, as)

end Implicator

/-- `SingleImplicator::grounding`: as `Implicator::grounding`, but the search stops after the
first grounding, whether its implicand is defined or not. -/
def SingleImplicator.grounding (inst : Instantiator) (g : Grounding) :
    Implicator × AtomSpace → EStateM.Result Exception (Implicator × AtomSpace) Bool
  | (pmc, as) =>
    match Implicator.ground inst pmc g as with
    | (.error e, as) => .error e (pmc, as)
    | (.ok none, as) => .ok true (pmc, as)
    | (.ok (some h), as) => .ok true (pmc.push h, as)

/-- `CrispImplicator::grounding`: as `Implicator::grounding`, and a defined grounded implicand is
made true and certain. -/
def CrispImplicator.grounding (inst : Instantiator) (g : Grounding) :
    Implicator × AtomSpace → EStateM.Result Exception (Implicator × AtomSpace) Bool
  | (pmc, as) =>
    match Implicator.ground inst pmc g as with
    | (.error e, as) => .error e (pmc, as)
    | (.ok none, as) => .ok false (pmc, as)
    | (.ok (some h), as) => .ok false (pmc.push h, as.setTruthValue h .trueCertain)

/-- The virtual call `pmc->grounding(var_soln, pred_soln)`. -/
def ImplicatorKind.grounding (inst : Instantiator) : ImplicatorKind → Grounding →
    Implicator × AtomSpace → EStateM.Result Exception (Implicator × AtomSpace) Bool
  | .defaultImplicator => Implicator.grounding inst
  | .singleImplicator => SingleImplicator.grounding inst
  | .crispImplicator => CrispImplicator.grounding inst

/-- The search engine's side of the protocol: it calls `grounding` on each grounding in turn and
stops at the first `true`; an exception from the callback leaves the search. -/
def search (inst : Instantiator) (k : ImplicatorKind) :
    List Grounding → Implicator × AtomSpace → EStateM.Result Exception (Implicator × AtomSpace) Unit
  | [], s => .ok () s
  | g :: gs, s =>
    match k.grounding inst g s with
    | .ok true s => .ok () s
    | .ok false s => search inst k gs s
    | .error e s => .error e s

namespace PatternMatch

variable (cs : ClassServer) (eng : Engine) (inst : Instantiator)

/-- `do_match`: the search over the groundings the engine finds for the query.  `do_imply` runs
it, so an exception the search raises leaves through the specification `throw
(InvalidParamException)` of `do_imply`, and then of `do_bindlink`, which lets the same through. -/
def doMatch (k : ImplicatorKind) (call : MatchCall) (pmc : Implicator) (as : AtomSpace) :
    EStateM.Result Abort (Implicator × AtomSpace) Unit :=
  match search inst k (eng k.matchCB pmc.typeRestrictions call as) (pmc, as) with
  | .ok () s => .ok () s
  | .error e s => .error e.throwSpec s

/-- What every entry point does after the search: the result list becomes a `ListLink` of the
store, which is returned. -/
def finish : EStateM.Result Abort (Implicator × AtomSpace) Unit → EStateM.Result Abort AtomSpace Atom
  | .ok () (pmc, as) => .ok (.link .listLink pmc.resultList) (as.addLink .listLink pmc.resultList)
  | .error e (_, as) => .error e as

/-- `bindlink`, `single_bindlink` and `crisp_logic_bindlink`, which differ only in the class of
the implicator they construct. -/
def bindlinkWith (k : ImplicatorKind) (himplication : Atom) (as : AtomSpace) :
    EStateM.Result Abort AtomSpace Atom :=
  match doBindlink cs himplication .init with
  | .error e _ => .error e as
  | .ok call pmc => finish (doMatch eng inst k call pmc as)

/-- `PatternMatch::bindlink`. -/
def bindlink : Atom → AtomSpace → EStateM.Result Abort AtomSpace Atom :=
  bindlinkWith cs eng inst .defaultImplicator

/-- `PatternMatch::single_bindlink`. -/
def singleBindlink : Atom → AtomSpace → EStateM.Result Abort AtomSpace Atom :=
  bindlinkWith cs eng inst .singleImplicator

/-- `PatternMatch::crisp_logic_bindlink`. -/
def crispLogicBindlink : Atom → AtomSpace → EStateM.Result Abort AtomSpace Atom :=
  bindlinkWith cs eng inst .crispImplicator

/-- `imply` and `crisp_logic_imply`: `do_imply` with an empty variable set. -/
def implyWith (k : ImplicatorKind) (himplication : Atom) (as : AtomSpace) :
    EStateM.Result Abort AtomSpace Atom :=
  match doImply himplication .init ∅ with
  | .error e => .error e as
  | .ok (pmc, call) => finish (doMatch eng inst k call pmc as)

/-- `PatternMatch::imply`. -/
def imply : Atom → AtomSpace → EStateM.Result Abort AtomSpace Atom :=
  implyWith eng inst .defaultImplicator

/-- `PatternMatch::crisp_logic_imply`. -/
def crispLogicImply : Atom → AtomSpace → EStateM.Result Abort AtomSpace Atom :=
  implyWith eng inst .crispImplicator

end PatternMatch


end OpenCog
