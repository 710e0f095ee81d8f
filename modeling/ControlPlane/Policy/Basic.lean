import ControlPlane.Policy.Construct

/-!
# Routing policies

A routing policy is a list of statements over the attributes of a route.  Guards are boolean expressions,
which may call other policies; integer expressions give new metrics and local preferences.  Names and numbers
in a policy are kept as they are written until they are used.  The sets of constructs are closed: what is none
of them is kept as a `foreign` construct, together with the cause for which it has no meaning.
-/
namespace ControlPlane

/-! ## §1. Expressions -/

/-- Why a construct has no meaning where it stands. -/
inductive StrayCause where
  | shape
  | absent
  | unknown (place : ConstructPlace) (construct : String)

def StrayCause.failure : StrayCause → Failure
  | shape => .shape
  | absent => .absent
  | unknown place construct => .unsupported (.unknownConstruct place construct)

structure PrefixRange where
  subnet : Subnet
  lengths : Range

inductive IntExpr where
  | literal (value : Document)
  | increaseMetric (addend : Document)
  | decreaseMetric (subtrahend : Document)
  | increaseLocalPref (addend : Document)
  | decreaseLocalPref (subtrahend : Document)
  | foreign (construct : Construct)
  deriving Inhabited

inductive AsPathList where
  | literal (items : List Document)
  | repeated (asNumber : Document) (count : IntExpr)
  | foreign (construct : Construct) (cause : StrayCause)
  deriving Inhabited

inductive PrefixSet where
  | explicit (ranges : List PrefixRange)
  /-- A route filter list of the router. -/
  | named (name : Document)
  | foreign (construct : Construct) (cause : StrayCause)
  deriving Inhabited

inductive CommunitySet where
  /-- Communities written as `high:low`. -/
  | inline (communities : List Document)
  /-- A community list of the router. -/
  | named (name : Document)
  | foreign (construct : Construct) (cause : StrayCause)
  deriving Inhabited

/-- A condition on a route. -/
inductive BoolExpr where
  | const (value : Bool)
  | inExprCall
  | inStatementCall
  | matchIpv4
  | matchIpv6
  | conj (conjuncts : List BoolExpr)
  | disj (disjuncts : List BoolExpr)
  | conjChain (subroutines : List BoolExpr)
  | disjChain (subroutines : List BoolExpr)
  | not (expr : BoolExpr)
  | matchProtocol (protocol : Protocol)
  | matchForeignProtocol (protocol : Construct)
  | matchPrefixSet (prefixes : PrefixSet)
  | matchPrefix6Set (prefixes : Document)
  | matchCommunitySet (communities : CommunitySet)
  | call (policy : Document)
  | withEnvironment (expr : BoolExpr)
  | foreign (construct : Construct) (cause : StrayCause)
  deriving Inhabited

/-! ## §2. Statements -/

inductive SimpleStatement where
  | exitAccept
  | exitReject
  | returnTrue
  | returnFalse
  | setDefaultActionAccept
  | setDefaultActionReject
  | setLocalDefaultActionAccept
  | setLocalDefaultActionReject
  | returnLocalDefaultAction
  | fallThrough
  /-- The end of a policy. -/
  | finish
  deriving DecidableEq, Repr

/-- One step of a policy. -/
inductive Statement where
  | simple (kind : SimpleStatement)
  | cond (guard : BoolExpr) (trueBranch falseBranch : List Statement)
  | setDefaultPolicy (policy : Document)
  | setMetric (metric : IntExpr)
  | setLocalPref (localPref : IntExpr)
  | setOspfType (metricType : OspfType)
  | setForeignOspfType (metricType : Construct)
  | addCommunity (communities : CommunitySet)
  | deleteCommunity (communities : CommunitySet)
  | retainCommunity (communities : CommunitySet)
  | prependAsPath (path : AsPathList)
  | setOrigin (origin : Document)
  | foreign (construct : Construct) (cause : StrayCause)
  deriving Inhabited

structure RoutingPolicy where
  name : Name
  statements : List Statement

/-! ## §3. Names -/

namespace SimpleStatement

def all : List SimpleStatement :=
  [exitAccept, exitReject, returnTrue, returnFalse, setDefaultActionAccept, setDefaultActionReject,
   setLocalDefaultActionAccept, setLocalDefaultActionReject, returnLocalDefaultAction, fallThrough, finish]

/-- The name in descriptions. -/
def key : SimpleStatement → String
  | exitAccept => "ExitAccept"
  | exitReject => "ExitReject"
  | returnTrue => "ReturnTrue"
  | returnFalse => "ReturnFalse"
  | setDefaultActionAccept => "SetDefaultActionAccept"
  | setDefaultActionReject => "SetDefaultActionReject"
  | setLocalDefaultActionAccept => "SetLocalDefaultActionAccept"
  | setLocalDefaultActionReject => "SetLocalDefaultActionReject"
  | returnLocalDefaultAction => "ReturnLocalDefaultAction"
  | fallThrough => "FallThrough"
  | finish => "Return"

/-- The name in listings. -/
def label : SimpleStatement → String
  | exitAccept => "EXIT_ACCEPT"
  | exitReject => "EXIT_REJECT"
  | returnTrue => "RETURN_TRUE"
  | returnFalse => "RETURN_FALSE"
  | setDefaultActionAccept => "SET_DEFAULT_ACTION_ACCEPT"
  | setDefaultActionReject => "SET_DEFAULT_ACTION_REJECT"
  | setLocalDefaultActionAccept => "SET_LOCAL_DEFAULT_ACTION_ACCEPT"
  | setLocalDefaultActionReject => "SET_LOCAL_DEFAULT_ACTION_REJECT"
  | returnLocalDefaultAction => "RETURN_LOCAL_DEFAULT_ACTION"
  | fallThrough => "FALL_THROUGH"
  | finish => "RETURN"

end SimpleStatement

/-- Conditions without arguments: their name in descriptions, their name in listings, and what they
are. -/
def simpleConditions : List (String × String × BoolExpr) :=
  [("True", "TRUE", .const true), ("False", "FALSE", .const false),
   ("CallExprContext", "CALL_EXPR_CONTEXT", .inExprCall),
   ("CallStatementContext", "CALL_STATEMENT_CONTEXT", .inStatementCall)]

end ControlPlane
