import Mathlib.Data.Finset.Basic
import Mathlib.Data.Rat.Defs

/-!
# Atoms and the atom space

The query code of `PatternMatch.cc` works on handles to the atoms of an atom space: typed nodes
with a name, and typed links with an ordered outgoing set.  The atom space deduplicates atoms by
structure (`addLink` returns the link already there when an identical one exists), so an atom is
identified here with its structure: `Atom` is the tree itself, and two handles are equal exactly
when the trees are.

* `NodeType`, `LinkType`, `AtomType` : the types the query code compares against.  Node types and
  link types are kept apart, so that no atom of a node type has an outgoing set.
* `AtomSpace` : which atoms the store holds, each with its truth value.  `addLink` and
  `setTruthValue` are the two writes the query code makes, and `AtomSpace.Extends` says that a
  store keeps every atom of another one with its truth value.
* `ClassServer` : the type registry that turns the name in a `VariableTypeNode` into a type.
* `VariableTypeMap`, `Grounding` : the `std::map`s the query code passes around.
* `Exception` : what the query code and the atom space throw; `Abort` : how a call that does not
  return ends, and `Exception.throwSpec` the exception specification `throw
  (InvalidParamException)`, under which any other exception ends the program.
-/

namespace OpenCog

/-- Node types: the two the query code names, and every other one by its name. -/
inductive NodeType
  | variableNode
  | variableTypeNode
  | other (name : String)
  deriving DecidableEq, Repr

/-- Link types: the six the query code names, and every other one by its name. -/
inductive LinkType
  | listLink
  | andLink
  | notLink
  | implicationLink
  | bindLink
  | typedVariableLink
  | other (name : String)
  deriving DecidableEq, Repr

/-- The type of an atom (`Type`). -/
inductive AtomType
  | node (t : NodeType)
  | link (t : LinkType)
  deriving DecidableEq, Repr

/-- `ClassServer::getTypeName`, for the types that appear in messages. -/
def AtomType.name : AtomType → String
  | .node .variableNode => "VariableNode"
  | .node .variableTypeNode => "VariableTypeNode"
  | .node (.other n) => n
  | .link .listLink => "ListLink"
  | .link .andLink => "AndLink"
  | .link .notLink => "NotLink"
  | .link .implicationLink => "ImplicationLink"
  | .link .bindLink => "BindLink"
  | .link .typedVariableLink => "TypedVariableLink"
  | .link (.other n) => n

/-- What the query code and its collaborators throw. -/
inductive Exception
  /-- `InvalidParamException`, the query code's only error. -/
  | invalidParam (msg : String)
  /-- `RuntimeException` of the atom space. -/
  | runtime (msg : String)
  /-- An error raised while evaluating a term, such as `EvalException`. -/
  | eval (msg : String)
  deriving DecidableEq, Repr

/-- How a call that does not return ends. -/
inductive Abort
  /-- The exception reaches the caller. -/
  | raise (e : Exception)
  /-- `std::terminate`: an exception left a function whose exception specification does not
  list it, and `std::unexpected` ended the program. -/
  | terminate
  deriving DecidableEq, Repr

/-- The exception specification `throw (InvalidParamException)` of `match`, `do_imply` and
`do_bindlink`: an `InvalidParamException` leaves the function, and any other exception ends the
program.  (`InvalidParamException` derives from `RuntimeException`, not the other way round.) -/
def Exception.throwSpec : Exception → Abort
  | .invalidParam msg => .raise (.invalidParam msg)
  | _ => .terminate

@[simp] theorem Exception.throwSpec_invalidParam (msg : String) :
    (Exception.invalidParam msg).throwSpec = .raise (.invalidParam msg) := rfl

@[simp] theorem Exception.throwSpec_runtime (msg : String) :
    (Exception.runtime msg).throwSpec = .terminate := rfl


/-- An atom: a node, or a link with its outgoing set. -/
inductive Atom
  | node (t : NodeType) (name : String)
  | link (t : LinkType) (out : List Atom)
  deriving Repr

namespace Atom

mutual
/-- Equality of atoms is decided structurally (the atom space's deduplication). -/
def decEq : (a b : Atom) → Decidable (a = b)
  | .node t n, .node t' n' =>
    if h : t = t' ∧ n = n' then isTrue (by rw [h.1, h.2])
    else isFalse fun e => by cases e; exact h ⟨rfl, rfl⟩
  | .node _ _, .link _ _ => isFalse fun e => by cases e
  | .link _ _, .node _ _ => isFalse fun e => by cases e
  | .link t out, .link t' out' =>
    if ht : t = t' then
      match decEqList out out' with
      | isTrue ho => isTrue (by rw [ht, ho])
      | isFalse ho => isFalse fun e => by cases e; exact ho rfl
    else isFalse fun e => by cases e; exact ht rfl
/-- Equality of outgoing sets, element by element. -/
def decEqList : (as bs : List Atom) → Decidable (as = bs)
  | [], [] => isTrue rfl
  | [], _ :: _ => isFalse fun e => by cases e
  | _ :: _, [] => isFalse fun e => by cases e
  | a :: as, b :: bs =>
    match decEq a b, decEqList as bs with
    | isTrue hab, isTrue hs => isTrue (by rw [hab, hs])
    | isFalse hab, _ => isFalse fun e => by cases e; exact hab rfl
    | _, isFalse hs => isFalse fun e => by cases e; exact hs rfl
end

instance : DecidableEq Atom := decEq

/-- `getType`. -/
def getType : Atom → AtomType
  | .node t _ => .node t
  | .link t _ => .link t

/-- `getOutgoingSet`; the query code calls it on links only, a node has none. -/
def getOutgoingSet : Atom → List Atom
  | .node _ _ => []
  | .link _ out => out

/-- `Link::getOutgoingAtom` of the atom space: the child at a position, or the atom space's
`RuntimeException` for a position past the end. -/
def getOutgoingAtom (a : Atom) (pos : ℕ) : Except Exception Atom :=
  match a.getOutgoingSet[pos]? with
  | some c => .ok c
  | none => .error (.runtime s!"invalid outgoing set index {pos}")

end Atom

/-- A simple truth value: strength and confidence. -/
structure TruthValue where
  strength : ℚ
  confidence : ℚ
  deriving DecidableEq, Repr

/-- `TruthValue::DEFAULT_TV()`, the truth value of a new atom: false and uncertain. -/
def TruthValue.defaultTV : TruthValue := ⟨0, 0⟩

/-- `SimpleTruthValue::createTV(1, SimpleTruthValue::confidenceToCount(1))`: true and certain. -/
def TruthValue.trueCertain : TruthValue := ⟨1, 1⟩

/-- The atom space as the query code sees it. -/
structure AtomSpace where
  /-- The truth value of each atom the store holds, `none` for an atom it does not hold. -/
  tv : Atom → Option TruthValue

namespace AtomSpace

/-- `AtomSpace::addLink`: the link `t out` is added with the default truth value, unless an
identical link is there already, which is then left as it is. -/
def addLink (as : AtomSpace) (t : LinkType) (out : List Atom) : AtomSpace :=
  ⟨fun a => if a = .link t out ∧ as.tv a = none then some .defaultTV else as.tv a⟩

/-- `setTruthValue`. -/
def setTruthValue (as : AtomSpace) (h : Atom) (v : TruthValue) : AtomSpace :=
  ⟨fun a => if a = h then some v else as.tv a⟩

@[simp] theorem setTruthValue_tv (as : AtomSpace) (h a : Atom) (v : TruthValue) :
    (as.setTruthValue h v).tv a = if a = h then some v else as.tv a := rfl

/-- `as'` holds every atom of `as`, with the same truth value: it was reached from `as` by adding
atoms only. -/
def Extends (as as' : AtomSpace) : Prop :=
  ∀ a v, as.tv a = some v → as'.tv a = some v

@[refl] theorem Extends.refl (as : AtomSpace) : as.Extends as := fun _ _ h => h

@[trans] theorem Extends.trans {as as' as'' : AtomSpace} (h₁ : as.Extends as')
    (h₂ : as'.Extends as'') : as.Extends as'' := fun a v h => h₂ a v (h₁ a v h)

theorem extends_addLink (as : AtomSpace) (t : LinkType) (out : List Atom) :
    as.Extends (as.addLink t out) := by
  intro a v h
  simp [addLink, h]

/-- Setting the truth value of `h` keeps every other atom as it was. -/
theorem setTruthValue_tv_of_ne {as : AtomSpace} {h a : Atom} (v : TruthValue) (ha : a ≠ h) :
    (as.setTruthValue h v).tv a = as.tv a := by
  simp [ha]

end AtomSpace

/-- The type registry (`classserver()`): the registered type names with their types. -/
structure ClassServer where
  types : List (String × AtomType)

/-- `ClassServer::getType`: the type registered under a name, `none` for `NOTYPE`. -/
def ClassServer.getType (cs : ClassServer) (name : String) : Option AtomType :=
  cs.types.lookup name

/-- `VariableTypeMap`: the allowed types of each variable, `none` for a variable without entry. -/
abbrev VariableTypeMap := Atom → Option (Finset AtomType)

namespace VariableTypeMap

/-- The empty map. -/
def empty : VariableTypeMap := fun _ => none

/-- `std::map::insert`: the entry is added unless the variable has one already. -/
def insert (m : VariableTypeMap) (v : Atom) (ts : Finset AtomType) : VariableTypeMap :=
  fun w => if w = v ∧ m w = none then some ts else m w

@[simp] theorem empty_apply (v : Atom) : empty v = none := rfl

theorem insert_apply (m : VariableTypeMap) (v w : Atom) (ts : Finset AtomType) :
    insert m v ts w = if w = v ∧ m w = none then some ts else m w := rfl

end VariableTypeMap

/-- A grounding of the variables (`var_soln`): the term each variable is bound to. -/
abbrev Grounding := Atom → Option Atom

end OpenCog
