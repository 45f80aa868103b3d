import OpenCog.AtomSpace

/-!
# The match driver

`PatternMatch::match`, `do_imply`, `get_vartype` and `do_bindlink` check the shape of a query,
split its predicate into affirmed and negated clauses, collect the declared variables and their
allowed types, and hand the result to the search engine through `do_match`.  Each of them is
modelled up to that call: instead of running the search it returns the arguments of its call
to `do_match` (`MatchCall`), and `do_bindlink` also the callback as it stands then, since it
installs the type restrictions on the callback before `do_imply` runs its own checks.  `match`,
`do_imply` and `do_bindlink` are declared `throw (InvalidParamException)`; `do_imply` and
`do_bindlink` return how a call that does not return ends (`Abort`), since an exception of
another type leaving them ends the program.

The search itself, the callbacks it drives and the entry points `bindlink`, `imply` and their
variants are in `OpenCog.Query.Implicator`.
-/

namespace OpenCog

/-- The arguments `do_match` receives beside the callback. -/
structure MatchCall where
  /-- The bound variables. -/
  vars : Finset Atom
  /-- The clauses that must be grounded. -/
  clauses : List Atom
  /-- The clauses that must not be. -/
  negations : List Atom
  deriving DecidableEq

/-- The state of an implicator callback during one query: the type restrictions it has from
`DefaultPatternMatchCB::set_type_restrictions`, and the fields of `class Implicator`. -/
structure Implicator where
  /-- The allowed types of the variables; the empty map restricts nothing. -/
  typeRestrictions : VariableTypeMap
  /-- The implicand `do_imply` attaches, `none` before (`Handle::UNDEFINED`). -/
  implicand : Option Atom
  /-- The grounded implicands collected so far. -/
  resultList : List Atom

namespace Implicator

/-- A freshly constructed implicator. -/
def init : Implicator := ⟨VariableTypeMap.empty, none, []⟩

/-- `set_type_restrictions`. -/
def setTypeRestrictions (pmc : Implicator) (tm : VariableTypeMap) : Implicator :=
  { pmc with typeRestrictions := tm }

end Implicator

namespace PatternMatch

/-! ### `match` -/

/-- `PatternMatch::match`: `none` when it returns without calling `do_match` (the clauses or the
variables are not a link), otherwise the call it makes.  An undefined `hnegates` is `none`. -/
def «match» (hvarbles hclauses : Atom) (hnegates : Option Atom) :
    Except Exception (Option MatchCall) :=
  match hvarbles, hclauses with
  | .link tvarbles vs, .link tclauses cs =>
    if tvarbles ≠ .listLink then
      .error (.invalidParam "Expected ListLink for bound variable list.")
    else if tclauses ≠ .andLink then
      .error (.invalidParam "Expected AndLink for clause list.")
    else
      match hnegates with
      | some (.link tnegates negs) =>
        if tnegates ≠ .andLink then
          .error (.invalidParam "Expected AndLink holding negated/otional clauses.")
        else .ok (some ⟨vs.toFinset, cs, negs⟩)
      | _ => .ok (some ⟨vs.toFinset, cs, []⟩)
  | _, _ => .ok none

/-! ### `do_imply` -/

mutual
/-- Modelled from the spec: `FindVariables::find_vars` of `PatternUtils.h`, which is not under
`src/`; it collects the variable-typed terms (the `VariableNode`s) anywhere in a term. -/
def findVars : Atom → Finset Atom
  | .node .variableNode n => {.node .variableNode n}
  | .node _ _ => ∅
  | .link _ out => findVarsList out
/-- `findVars` over an outgoing set. -/
def findVarsList : List Atom → Finset Atom
  | [] => ∅
  | a :: as => findVars a ∪ findVarsList as
end

/-- The loop of `do_imply` over the children of an `AndLink`: a `NotLink` contributes its
child at position 0 to the negated clauses, every other child itself to the affirmed ones. -/
def classify : List Atom → Except Exception (List Atom × List Atom)
  | [] => .ok ([], [])
  | h :: cset =>
    if h.getType = .link .notLink then
      match h.getOutgoingAtom 0 with
      | .error e => .error e
      | .ok c => (classify cset).map fun (affirm, negate) => (affirm, c :: negate)
    else (classify cset).map fun (affirm, negate) => (h :: affirm, negate)

/-- `do_imply`: the implicator with its implicand attached, and the call to `do_match`.  An empty
`varset` is replaced by the variables found in the predicate.  Whatever its body throws leaves
through its specification `throw (InvalidParamException)`: the atom space's `RuntimeException`
from a `NotLink` without child ends the program. -/
def doImply (himplication : Atom) (pmc : Implicator) (varset : Finset Atom) :
    Except Abort (Implicator × MatchCall) :=
  Except.mapError Exception.throwSpec <|
  match himplication with
  | .node _ _ => .error (.invalidParam "Expected ImplicationLink")
  | .link timpl oset =>
    if timpl ≠ .implicationLink then .error (.invalidParam "Expected ImplicationLink")
    else match oset with
    | [hclauses, implicand] =>
      match hclauses with
      | .node _ _ =>
        .error (.invalidParam "Expected non-empty set of clauses in the ImplicationLink")
      | .link tclauses cset =>
        let split := if tclauses = .andLink then classify cset else .ok ([hclauses], [])
        match split with
        | .error e => .error e
        | .ok (affirm, negate) =>
          let varset := if varset = ∅ then findVars hclauses else varset
          .ok ({ pmc with implicand := some implicand }, ⟨varset, affirm, negate⟩)
    | _ =>
      let n := oset.length
      .error (.invalidParam s!"ImplicationLink has wrong size: {n}")

/-! ### `get_vartype` and `do_bindlink` -/

variable (cs : ClassServer)

/-- The loop of `get_vartype` over a `ListLink` of type names: the set of named types, or the
code it returns at the first entry that is not a `VariableTypeNode` (3) or names an unknown
type (5). -/
def vartypeList : List Atom → Except ℕ (Finset AtomType)
  | [] => .ok ∅
  | h :: tset =>
    match h with
    | .node .variableTypeNode tn =>
      match cs.getType tn with
      | none => .error 5
      | some vt => (vartypeList tset).map (insert vt)
    | _ => .error 3

/-- `get_vartype`: the code it returns, with `vset` and `typemap` as it leaves them. -/
def getVartype (htypelink : Atom) (vset : Finset Atom) (typemap : VariableTypeMap) :
    ℕ × Finset Atom × VariableTypeMap :=
  match htypelink.getOutgoingSet with
  | [varname, vartype] =>
    match vartype with
    | .node .variableTypeNode tn =>
      match cs.getType tn with
      | none => (4, vset, typemap)
      | some vt => (0, insert varname vset, typemap.insert varname {vt})
    | .link .listLink tset =>
      match vartypeList cs tset with
      | .error code => (code, vset, typemap)
      | .ok ts => (0, insert varname vset, typemap.insert varname ts)
    | _ => (2, vset, typemap)
  | _ => (1, vset, typemap)

/-- The loop of `do_bindlink` over a `ListLink` of declarations. -/
def declList : List Atom → Finset Atom → VariableTypeMap →
    Except Exception (Finset Atom × VariableTypeMap)
  | [], vset, typemap => .ok (vset, typemap)
  | h :: dset, vset, typemap =>
    match h with
    | .node .variableNode _ => declList dset (insert h vset) typemap
    | .link .typedVariableLink _ =>
      let (code, vset, typemap) := getVartype cs h vset typemap
      if code ≠ 0 then .error (.invalidParam "Don't understand the TypedVariableLink")
      else declList dset vset typemap
    | _ => .error (.invalidParam "Expected a VariableNode or a TypedVariableLink")

/-- The declarations of a `BindLink`, as `do_bindlink` reads them: a single variable (any node), a
`TypedVariableLink`, or a `ListLink` of them. -/
def varDecls (hdecls : Atom) : Except Exception (Finset Atom × VariableTypeMap) :=
  match hdecls with
  | .node _ _ => .ok ({hdecls}, .empty)
  | .link .typedVariableLink _ =>
    let (code, vset, typemap) := getVartype cs hdecls ∅ .empty
    if code ≠ 0 then .error (.invalidParam "Cannot understand the typed variable definition")
    else .ok (vset, typemap)
  | .link .listLink dset => declList cs dset ∅ .empty
  | .link _ _ => .error (.invalidParam "Expected a ListLink holding variable declarations")

/-- `do_bindlink`: the call to `do_match` and the callback as it stands then, or how the call ends,
with the callback as it leaves it.  What it throws itself is an `InvalidParamException`, which
its specification `throw (InvalidParamException)` lets through, and `do_imply` lets nothing else
out. -/
def doBindlink (hbindlink : Atom) (pmc : Implicator) :
    EStateM.Result Abort Implicator MatchCall :=
  match hbindlink with
  | .node _ _ => .error (.raise (.invalidParam "Expecting a BindLink")) pmc
  | .link tscope oset =>
    if tscope ≠ .bindLink then
      let tname := (AtomType.link tscope).name
      .error (.raise (.invalidParam s!"Expecting a BindLink, got {tname}")) pmc
    else match oset with
    | [hdecls, himpl] =>
      match varDecls cs hdecls with
      | .error e => .error e.throwSpec pmc
      | .ok (vset, typemap) =>
        let pmc := pmc.setTypeRestrictions typemap
        match doImply himpl pmc vset with
        | .error a => .error a pmc
        | .ok (pmc, call) => .ok call pmc
    | _ =>
      let n := oset.length
      .error (.raise (.invalidParam s!"BindLink has wrong size {n}")) pmc

end PatternMatch

end OpenCog
