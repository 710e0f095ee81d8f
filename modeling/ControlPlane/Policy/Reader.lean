import ControlPlane.Policy.Basic
import ControlPlane.Header.Reader

/-!
# Reading policies from descriptions

A policy node is an object whose `type` names the construct.  The descent is on the nesting of the
document: `Document.depth` bounds it, and the readers for boolean expressions and statements start with
that much fuel.
-/
namespace ControlPlane

open Document

/-! ## §1. Nodes -/

def nodeType (node : Document) : Except Failure Document :=
  match node with
  | .object entries => match entries.lookup "type" with
    | some t => .ok t
    | none => .error (.unsupported (.untypedNode node.shown))
  | _ => .error (.unsupported (.untypedNode node.shown))

def unknownNode (place : ConstructPlace) (type : Document) : Failure :=
  .unsupported (.unknownConstruct place type.shown)

/-- Types of statements and boolean expressions are looked up in a table of names, for which they may
be neither lists nor objects. -/
def lookupType (type : Document) : Except Failure Document :=
  match type with
  | .list _ => .error .shape
  | .object _ => .error .shape
  | t => .ok t

mutual
def Document.depth : Document → Nat
  | .list items => depthItems items + 1
  | .object entries => depthEntries entries + 1
  | _ => 1

def Document.depthItems : List Document → Nat
  | [] => 0
  | d :: rest => max d.depth (Document.depthItems rest)

def Document.depthEntries : List (String × Document) → Nat
  | [] => 0
  | (_, d) :: rest => max d.depth (Document.depthEntries rest)
end

/-! ## §2. Expressions without recursion -/

def IntExpr.ofDocument (node : Document) : Except Failure IntExpr :=
  match node with
  | .int n => .ok (.literal (.int n))
  | .bool b => .ok (.literal (.bool b))
  | node => do
    let type ← nodeType node
    match type with
    | .text "LiteralInt" => .literal <$> node.field "value"
    | .text "IncrementMetric" => .increaseMetric <$> node.field "addend"
    | .text "DecrementMetric" => .decreaseMetric <$> node.field "subtrahend"
    | .text "IncrementLocalPreference" => .increaseLocalPref <$> node.field "addend"
    | .text "DecrementLocalPreference" => .decreaseLocalPref <$> node.field "subtrahend"
    | t => throw (unknownNode .integerExpression t)

def AsPathList.ofDocument (node : Document) : Except Failure AsPathList := do
  let type ← nodeType node
  match type with
  | .text "LiteralAsList" => .literal <$> do (← node.field "as_list").elements
  | .text "MultipliedAs" => do
    let asNumber ← node.field "as_num"
    return .repeated asNumber (← IntExpr.ofDocument (← node.field "number"))
  | t => throw (unknownNode .asPathList t)

def orElse (d other : Document) : Document :=
  match d with
  | .null => other
  | d => d

/-- A subnet with the lengths it matches: from `lower`, which is the subnet's own length when left out,
to `upper`, which is `lower` when left out. -/
def PrefixRange.make (subnet : Subnet) (lower upper : Document) : PrefixRange :=
  let low := orElse lower (.int subnet.length)
  ⟨subnet, ⟨low, orElse upper low⟩⟩

def PrefixRange.ofParts (subnet lower upper : Document) : Except Failure PrefixRange := do
  return PrefixRange.make (← Subnet.ofDocument subnet) lower upper

def PrefixSet.ofDocument (node : Document) : Except Failure PrefixSet := do
  let type ← nodeType node
  match type with
  | .text "ExplicitPrefixSet" => do
    let ranges ← (← (← node.field "prefix_ranges").elements).mapM fun r => do
      let subnet ← r.field "prefix"
      PrefixRange.ofParts subnet (← r.fieldD "min_length") (← r.fieldD "max_length")
    return .explicit ranges
  | .text "NamedPrefixSet" => .named <$> node.field "name"
  | t => throw (unknownNode .prefixSet t)

def CommunitySet.ofDocument (node : Document) : Except Failure CommunitySet := do
  let type ← nodeType node
  match type with
  | .text "InlineCommunitySet" => .inline <$> do (← node.field "communities").elements
  | .text "NamedCommunitySet" => .named <$> node.field "name"
  | t => throw (unknownNode .communitySet t)

def Protocol.ofDocument (d : Document) : Except Failure Protocol :=
  match d with
  | .text s => match Protocol.ofKey? s with
    | some p => .ok p
    | none => .error (.unsupported (.unknownMember "Protocol" s))
  | d => .error (.unsupported (.unknownMember "Protocol" d.shown))

def OspfType.ofDocument (d : Document) : Except Failure OspfType :=
  match d with
  | .text s => match OspfType.ofLabel? s with
    | some t => .ok t
    | none => .error (.unsupported (.unknownMember "OspfType" s))
  | .list _ => .error .shape
  | .object _ => .error .shape
  | d => .error (.unsupported (.unknownMember "OspfType" d.shown))

/-! ## §3. Boolean expressions -/

def BoolExpr.read : Nat → Document → Except Failure BoolExpr
  | 0, node => .error (.unsupported (.untypedNode node.shown))
  | fuel + 1, node => do
    let type ← lookupType (← nodeType node)
    let operands := fun name => do
      (← (← node.field name).elements).mapM (BoolExpr.read fuel)
    match type with
    | .text "True" => return .const true
    | .text "False" => return .const false
    | .text "CallExprContext" => return .inExprCall
    | .text "CallStatementContext" => return .inStatementCall
    | .text "MatchIpv4" => return .matchIpv4
    | .text "MatchIpv6" => return .matchIpv6
    | .text "Conjunction" => .conj <$> operands "conjuncts"
    | .text "Disjunction" => .disj <$> operands "disjuncts"
    | .text "ConjunctionChain" => .conjChain <$> operands "subroutines"
    | .text "DisjunctionChain" => .disjChain <$> operands "subroutines"
    | .text "Not" => .not <$> do BoolExpr.read fuel (← node.field "expr")
    | .text "MatchProtocol" => .matchProtocol <$> do Protocol.ofDocument (← node.field "protocol")
    | .text "MatchPrefixSet" => .matchPrefixSet <$> do PrefixSet.ofDocument (← node.field "prefix_set")
    | .text "MatchPrefix6Set" => .matchPrefix6Set <$> node.fieldD "prefix_set"
    | .text "MatchCommunitySet" =>
      .matchCommunitySet <$> do CommunitySet.ofDocument (← node.field "community_set")
    | .text "CallExpr" => .call <$> node.field "policy"
    | .text "WithEnvironmentExpr" => .withEnvironment <$> do BoolExpr.read fuel (← node.field "expr")
    | t => throw (unknownNode .booleanExpression t)

def BoolExpr.ofDocument (node : Document) : Except Failure BoolExpr := BoolExpr.read (node.depth + 1) node

/-! ## §4. Statements -/

def Statement.read : Nat → Document → Except Failure Statement
  | 0, node => .error (.unsupported (.untypedNode node.shown))
  | fuel + 1, node => do
    let type ← lookupType (← nodeType node)
    let branch := fun (d : Document) => do
      if !d.truthy then return [] else (← d.elements).mapM (Statement.read fuel)
    match type with
    | .text "If" => do
      let guard ← BoolExpr.ofDocument (← node.field "guard")
      let yes ← branch (← node.fieldD "true_statements")
      let no ← branch (← node.fieldD "false_statements")
      return .cond guard yes no
    | .text "SetDefaultPolicy" => .setDefaultPolicy <$> node.field "policy"
    | .text "SetMetric" => .setMetric <$> do IntExpr.ofDocument (← node.field "metric")
    | .text "SetLocalPreference" => .setLocalPref <$> do IntExpr.ofDocument (← node.field "local_pref")
    | .text "SetOspfMetricType" =>
      .setOspfType <$> do OspfType.ofDocument (← node.field "metric_type")
    | .text "AddCommunity" =>
      .addCommunity <$> do CommunitySet.ofDocument (← node.field "community_set")
    | .text "DeleteCommunity" =>
      .deleteCommunity <$> do CommunitySet.ofDocument (← node.field "community_set")
    | .text "RetainCommunity" =>
      .retainCommunity <$> do CommunitySet.ofDocument (← node.field "community_set")
    | .text "PrependAsPath" => .prependAsPath <$> do AsPathList.ofDocument (← node.field "as_list")
    | .text "SetOrigin" => .setOrigin <$> node.fieldD "origin"
    | .text s => match SimpleStatement.all.find? fun k => k.key == s with
      | some k => return .simple k
      | none => throw (unknownNode .statement (.text s))
    | t => throw (unknownNode .statement t)

def Statement.ofDocument (node : Document) : Except Failure Statement :=
  Statement.read (node.depth + 1) node

def Statement.listOfDocument (d : Document) : Except Failure (List Statement) := do
  if !d.truthy then return [] else (← d.elements).mapM Statement.ofDocument

end ControlPlane
