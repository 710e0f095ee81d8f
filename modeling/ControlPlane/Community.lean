import ControlPlane.Policy.Walk

/-!
# Communities

A route may carry communities.  Three kinds of community variable stand for them: an exact value, a
regular expression, and for every regular expression the values that only the environment can attach and
that it matches.  A route carries a regular expression exactly when it carries one of its dependencies:
the exact communities it matches, or its companion for other values.
-/
namespace ControlPlane

/-! ## §1. Community variables -/

inductive CommunityKind where
  | exact
  | regex
  /-- Values outside of the network that a regular expression matches. -/
  | other
  deriving DecidableEq, Repr

def CommunityKind.rank : CommunityKind → Nat
  | exact => 0
  | regex => 1
  | other => 2

def CommunityKind.label : CommunityKind → String
  | exact => "EXACT"
  | regex => "REGEX"
  | other => "OTHER"

structure Community where
  kind : CommunityKind
  value : String
  number : Option Nat := none
  /-- Whether the value was given as a text, as only a text is a regular expression. -/
  isText : Bool := true
  deriving DecidableEq, Repr

namespace Community

def le (a b : Community) : Bool :=
  a.kind.rank < b.kind.rank || (a.kind.rank == b.kind.rank && decide (a.value ≤ b.value))

def readNumber (digits : List Char) : Except Failure Nat :=
  (Text.numeral digits).mapError (Failure.ofNumeral digits)

/-- The community that a text `high:low` writes. -/
def exactOfText (s : String) : Except Failure Community :=
  match s.toList.splitOn ':' with
  | [high, low] =>
    if isNumeral high && isNumeral low then do
      let h ← readNumber high
      let l ← readNumber low
      return { kind := .exact, value := toString h ++ ":" ++ toString l, number := some ((h <<< 16) ||| l) }
    else .error (.unsupported (.notLiteralCommunity s))
  | _ => .error (.unsupported (.notLiteralCommunity s))
where
  isNumeral (cs : List Char) : Bool := !cs.isEmpty && cs.all Text.isDigit

def exactOf : Document → Except Failure Community
  | .text s => exactOfText s
  | _ => .error .absent

def ofRegex : Document → Except Failure Community
  | .text s => .ok { kind := .regex, value := s }
  | d => do return { kind := .regex, value := (← d.scalar).shown, isText := false }

def ofSet (r : Router) (set : CommunitySet) : Except Failure (List Community) :=
  match set with
  | .inline communities => communities.mapM exactOf
  | .named name => do (← r.communityList name).lines.mapM fun line => ofRegex line.regex
  | .foreign _ cause => .error cause.failure

/-! ## §2. The communities of a network -/

def setOfNode? : PolicyNode → Option CommunitySet
  | .statement (.addCommunity s) => some s
  | .statement (.deleteCommunity s) => some s
  | .statement (.retainCommunity s) => some s
  | .expression (.matchCommunitySet s) => some s
  | _ => none

def ofRouter (r : Router) : Except Failure (List Community) := do
  let found ← (← inOrder RoutingPolicy.name r.policies).mapM fun p =>
    (r.walk p.statements).collectM fun node => match setOfNode? node with
      | some s => ofSet r s
      | none => .ok []
  return found.flatten

/-- The communities that the policies of some routers refer to, every regular expression with its
companion, each once and in order. -/
def ofRouters (routers : List Router) : Except Failure (List Community) := do
  let found := (← (← inOrder Router.name routers).mapM ofRouter).flatten
  if found.any fun c => !c.isText then throw .shape
  let others := (found.filter fun c => c.kind == .regex).map fun c => { c with kind := .other }
  return sortWith le (found ++ others).eraseDups

def dependenciesOf (pattern : Text.Pattern) (c : Community) (all : List Community) : List Community :=
  all.filter fun d =>
    (d.kind == .exact && pattern.search d.value) || (d.kind == .other && d.value == c.value)

def dependencies (all : List Community) : Except Failure (List (Community × List Community)) :=
  (all.filter fun c => c.kind == .regex).mapM fun c =>
    match Text.Pattern.parse c.value with
    | .ok p => .ok (c, dependenciesOf p c all)
    | .error fault => .error (.ofPattern fault)

end Community

end ControlPlane
