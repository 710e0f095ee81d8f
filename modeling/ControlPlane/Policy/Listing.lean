import ControlPlane.Document.Decode
import ControlPlane.Policy.Basic

/-!
# Policies as constructs, and back

`Statement.construct` and its companions list typed policy syntax as constructs.  `Construct.toStatement`
and its companions read constructs as typed syntax; a construct that is not of the kind that its place
asks for is kept as foreign, so nothing is lost.
-/
namespace ControlPlane

open Construct (node document ofProtocol ofOspfType ofRange)

/-! ## §1. Listing -/

def PrefixRange.construct (r : PrefixRange) : Construct :=
  node "PrefixRange" [("prefix", .subnet r.subnet), ("length_range", ofRange r.lengths)]

def IntExpr.construct : IntExpr → Construct
  | literal n => node "LiteralInt" [("value", document n)]
  | increaseMetric n => node "IncrementMetric" [("addend", document n)]
  | decreaseMetric n => node "DecrementMetric" [("subtrahend", document n)]
  | increaseLocalPref n => node "IncrementLocalPreference" [("addend", document n)]
  | decreaseLocalPref n => node "DecrementLocalPreference" [("subtrahend", document n)]
  | foreign c => c

def AsPathList.construct : AsPathList → Construct
  | literal items => node "LiteralAsList" [("as_list", .list (items.map .document))]
  | repeated asNumber count =>
    node "MultipliedAs" [("as_num", .document asNumber), ("number", count.construct)]
  | foreign c _ => c

def PrefixSet.construct : PrefixSet → Construct
  | explicit ranges => node "ExplicitPrefixSet" [("prefix_ranges", .list (ranges.map PrefixRange.construct))]
  | named name => node "NamedPrefixSet" [("name", document name)]
  | foreign c _ => c

def CommunitySet.construct : CommunitySet → Construct
  | inline communities => node "InlineCommunitySet" [("communities", .list (communities.map document))]
  | named name => node "NamedCommunitySet" [("name", document name)]
  | foreign c _ => c

def simpleCondition (label key : String) : Construct :=
  node "StaticBooleanExpr" [("kind", .member "BooleanExprs" label (.text key))]

mutual
def BoolExpr.construct : BoolExpr → Construct
  | .const true => simpleCondition "TRUE" "True"
  | .const false => simpleCondition "FALSE" "False"
  | .inExprCall => simpleCondition "CALL_EXPR_CONTEXT" "CallExprContext"
  | .inStatementCall => simpleCondition "CALL_STATEMENT_CONTEXT" "CallStatementContext"
  | .matchIpv4 => node "MatchIpv4" []
  | .matchIpv6 => node "MatchIpv6" []
  | .conj es => node "Conjunction" [("conjuncts", .list (BoolExpr.constructs es))]
  | .disj es => node "Disjunction" [("disjuncts", .list (BoolExpr.constructs es))]
  | .conjChain es => node "ConjunctionChain" [("subroutines", .list (BoolExpr.constructs es))]
  | .disjChain es => node "DisjunctionChain" [("subroutines", .list (BoolExpr.constructs es))]
  | .not e => node "Not" [("expr", e.construct)]
  | .matchProtocol p => node "MatchProtocol" [("protocol", ofProtocol p)]
  | .matchForeignProtocol c => node "MatchProtocol" [("protocol", c)]
  | .matchPrefixSet s => node "MatchPrefixSet" [("prefix_set", s.construct)]
  | .matchPrefix6Set d => node "MatchPrefix6Set" [("prefix_set", .document d)]
  | .matchCommunitySet s => node "MatchCommunitySet" [("community_set", s.construct)]
  | .call policy => node "CallExpr" [("policy", document policy)]
  | .withEnvironment e => node "WithEnvironmentExpr" [("expr", e.construct)]
  | .foreign c _ => c

def BoolExpr.constructs : List BoolExpr → List Construct
  | [] => []
  | e :: rest => e.construct :: BoolExpr.constructs rest
end

mutual
def Statement.construct : Statement → Construct
  | .simple k => node "StaticStatement" [("kind", .member "Statements" k.label (.text k.key))]
  | .cond guard yes no =>
    node "If" [("guard", guard.construct), ("true_statements", .list (Statement.constructs yes)),
      ("false_statements", .list (Statement.constructs no))]
  | .setDefaultPolicy policy => node "SetDefaultPolicy" [("policy", document policy)]
  | .setMetric e => node "SetMetric" [("metric", e.construct)]
  | .setLocalPref e => node "SetLocalPreference" [("local_pref", e.construct)]
  | .setOspfType t => node "SetOspfMetricType" [("metric_type", ofOspfType t)]
  | .setForeignOspfType c => node "SetOspfMetricType" [("metric_type", c)]
  | .addCommunity s => node "AddCommunity" [("community_set", s.construct)]
  | .deleteCommunity s => node "DeleteCommunity" [("community_set", s.construct)]
  | .retainCommunity s => node "RetainCommunity" [("community_set", s.construct)]
  | .prependAsPath p => node "PrependAsPath" [("as_list", p.construct)]
  | .setOrigin d => node "SetOrigin" [("origin", .document d)]
  | .foreign c _ => c

def Statement.constructs : List Statement → List Construct
  | [] => []
  | s :: rest => s.construct :: Statement.constructs rest
end

/-! ## §2. Reading back -/

namespace Construct

def fieldNames? (kind : String) : Option (List String) :=
  [("MatchIpv4", []), ("MatchIpv6", []), ("Conjunction", ["conjuncts"]), ("Disjunction", ["disjuncts"]),
   ("ConjunctionChain", ["subroutines"]), ("DisjunctionChain", ["subroutines"]), ("Not", ["expr"]),
   ("MatchProtocol", ["protocol"]), ("MatchPrefixSet", ["prefix_set"]),
   ("MatchPrefix6Set", ["prefix_set"]), ("MatchCommunitySet", ["community_set"]),
   ("CallExpr", ["policy"]), ("WithEnvironmentExpr", ["expr"]), ("StaticBooleanExpr", ["kind"]),
   ("ExplicitPrefixSet", ["prefix_ranges"]), ("NamedPrefixSet", ["name"]),
   ("InlineCommunitySet", ["communities"]), ("NamedCommunitySet", ["name"]),
   ("StaticStatement", ["kind"]), ("If", ["guard", "true_statements", "false_statements"]),
   ("SetDefaultPolicy", ["policy"]), ("SetMetric", ["metric"]), ("SetLocalPreference", ["local_pref"]),
   ("SetOspfMetricType", ["metric_type"]), ("AddCommunity", ["community_set"]),
   ("DeleteCommunity", ["community_set"]), ("RetainCommunity", ["community_set"]),
   ("PrependAsPath", ["as_list"]), ("SetOrigin", ["origin"]), ("LiteralInt", ["value"]),
   ("IncrementMetric", ["addend"]), ("DecrementMetric", ["subtrahend"]),
   ("IncrementLocalPreference", ["addend"]), ("DecrementLocalPreference", ["subtrahend"]),
   ("LiteralAsList", ["as_list"]), ("MultipliedAs", ["as_num", "number"])].lookup kind

/-- The closed sets of names. -/
def memberFamilies : List String := ["Statements", "BooleanExprs", "OspfType", "Protocol"]

def memberValue? (family name : String) : Option Document :=
  if family == "Statements" then
    (SimpleStatement.all.find? fun k => k.label == name).map fun k => .text k.key
  else if family == "BooleanExprs" then
    (simpleConditions.find? fun e => e.2.1 == name).map fun e => .text e.1
  else if family == "OspfType" then (OspfType.ofLabel? name).map fun t => .int t.rank
  else if family == "Protocol" then (Protocol.ofLabel? name).map fun p => .text p.key
  else none

/-- What a construct means when it stands where it has no meaning. -/
def strayCause (place : ConstructPlace) (c : Construct) : StrayCause := .unknown place c.shown

def toIntExpr (c : Construct) : IntExpr :=
  match c with
  | node "LiteralInt" [(_, value)] => .literal value.toDocument
  | node "IncrementMetric" [(_, addend)] => .increaseMetric addend.toDocument
  | node "DecrementMetric" [(_, subtrahend)] => .decreaseMetric subtrahend.toDocument
  | node "IncrementLocalPreference" [(_, addend)] => .increaseLocalPref addend.toDocument
  | node "DecrementLocalPreference" [(_, subtrahend)] => .decreaseLocalPref subtrahend.toDocument
  | c => .foreign c

def toAsPathList (c : Construct) : AsPathList :=
  match c with
  | node "LiteralAsList" [(_, items)] => match items.elements? with
    | some items => .literal (items.map toDocument)
    | none => .foreign c .shape
  | node "MultipliedAs" [(_, asNumber), (_, count)] => .repeated asNumber.toDocument count.toIntExpr
  | c => .foreign c (strayCause .asPathList c)

/-- A construct as a prefix set.  Ranges have no construct of their own, so only the empty set can be
given. -/
def toPrefixSet (c : Construct) : PrefixSet :=
  match c with
  | node "NamedPrefixSet" [(_, name)] => .named name.toDocument
  | node "ExplicitPrefixSet" [(_, ranges)] =>
    if !ranges.truthy then .explicit []
    else if ranges.elements?.isSome then .foreign c .absent
    else .foreign c .shape
  | c => .foreign c (strayCause .prefixSet c)

def toCommunitySet (c : Construct) : CommunitySet :=
  match c with
  | node "NamedCommunitySet" [(_, name)] => .named name.toDocument
  | node "InlineCommunitySet" [(_, items)] => match items.elements? with
    | some items => .inline (items.map fun i => match i with
      | document d => d
      | _ => .null)
    | none => .foreign c .shape
  | c => .foreign c (strayCause .communitySet c)

mutual
def toBoolExpr : Construct → BoolExpr
  | node "StaticBooleanExpr" [(_, member "BooleanExprs" name value)] =>
    match simpleConditions.find? fun e => e.2.1 == name with
    | some e => e.2.2
    | none => strayExpr (node "StaticBooleanExpr" [("kind", member "BooleanExprs" name value)])
  | node "MatchIpv4" [] => .matchIpv4
  | node "MatchIpv6" [] => .matchIpv6
  | node "Conjunction" [(_, c)] => .conj (toOperands c)
  | node "Disjunction" [(_, c)] => .disj (toOperands c)
  | node "ConjunctionChain" [(_, c)] => .conjChain (toOperands c)
  | node "DisjunctionChain" [(_, c)] => .disjChain (toOperands c)
  | node "Not" [(_, e)] => .not e.toBoolExpr
  | node "MatchProtocol" [(_, member "Protocol" name value)] =>
    match Protocol.ofLabel? name with
    | some p => .matchProtocol p
    | none => .matchForeignProtocol (member "Protocol" name value)
  | node "MatchProtocol" [(_, c)] => .matchForeignProtocol c
  | node "MatchPrefixSet" [(_, s)] => .matchPrefixSet s.toPrefixSet
  | node "MatchPrefix6Set" [(_, d)] => .matchPrefix6Set d.toDocument
  | node "MatchCommunitySet" [(_, s)] => .matchCommunitySet s.toCommunitySet
  | node "CallExpr" [(_, policy)] => .call policy.toDocument
  | node "WithEnvironmentExpr" [(_, e)] => .withEnvironment e.toBoolExpr
  | c => strayExpr c

/-- The operands that a construct lists.  What cannot be iterated fails in place of an operand. -/
def toOperands : Construct → List BoolExpr
  | list es => toBoolExprs es
  | node _ fields => fieldExprs fields
  | document d => match d.elements? with
    | some items => items.map fun i => strayExpr (document i)
    | none => [.foreign (document d) .shape]
  | c => [.foreign c .shape]

def toBoolExprs : List Construct → List BoolExpr
  | [] => []
  | c :: rest => c.toBoolExpr :: toBoolExprs rest

def fieldExprs : List (String × Construct) → List BoolExpr
  | [] => []
  | (_, c) :: rest => c.toBoolExpr :: fieldExprs rest

def strayExpr (c : Construct) : BoolExpr := .foreign c (strayCause .booleanExpression c)
end

def strayStatement (c : Construct) : Statement := .foreign c (strayCause .statement c)

mutual
def toStatement : Construct → Statement
  | node "StaticStatement" [(_, member "Statements" name value)] =>
    match SimpleStatement.all.find? fun k => k.label == name with
    | some k => .simple k
    | none => strayStatement (node "StaticStatement" [("kind", member "Statements" name value)])
  | node "If" [(_, guard), (_, yes), (_, no)] => .cond guard.toBoolExpr (toBranch yes) (toBranch no)
  | node "SetDefaultPolicy" [(_, policy)] => .setDefaultPolicy policy.toDocument
  | node "SetMetric" [(_, e)] => .setMetric e.toIntExpr
  | node "SetLocalPreference" [(_, e)] => .setLocalPref e.toIntExpr
  | node "SetOspfMetricType" [(_, member "OspfType" name value)] =>
    match OspfType.ofLabel? name with
    | some t => .setOspfType t
    | none => .setForeignOspfType (member "OspfType" name value)
  | node "SetOspfMetricType" [(_, c)] => .setForeignOspfType c
  | node "AddCommunity" [(_, s)] => .addCommunity s.toCommunitySet
  | node "DeleteCommunity" [(_, s)] => .deleteCommunity s.toCommunitySet
  | node "RetainCommunity" [(_, s)] => .retainCommunity s.toCommunitySet
  | node "PrependAsPath" [(_, p)] => .prependAsPath p.toAsPathList
  | node "SetOrigin" [(_, d)] => .setOrigin d.toDocument
  | c => strayStatement c

/-- The statements that a construct lists, none when it is false.  What cannot be iterated fails in place of a
statement. -/
def toBranch : Construct → List Statement
  | list ss => toStatements ss
  | node _ fields => fieldStatements fields
  | document d =>
    if !d.truthy then []
    else match d.elements? with
      | some items => items.map fun i => strayStatement (document i)
      | none => [.foreign (document d) .shape]
  | c => [.foreign c .shape]

def toStatements : List Construct → List Statement
  | [] => []
  | c :: rest => c.toStatement :: toStatements rest

def fieldStatements : List (String × Construct) → List Statement
  | [] => []
  | (_, c) :: rest => c.toStatement :: fieldStatements rest
end

/-! ## §3. Constructs and documents -/

end Construct

mutual
def Document.paired : Document → Document
  | .list items => .list (Document.pairedItems items)
  | .object entries => .list (Document.pairedEntries entries)
  | .null => .null
  | .bool b => .bool b
  | .int n => .int n
  | .real mantissa exponent => .real mantissa exponent
  | .text s => .text s
def Document.pairedItems : List Document → List Document
  | [] => []
  | d :: rest => d.paired :: Document.pairedItems rest
def Document.pairedEntries : List (String × Document) → List Document
  | [] => []
  | (name, d) :: rest => .list [.text name, d.paired] :: Document.pairedEntries rest
end

namespace Construct

mutual
def listing : Construct → Document
  | node kind fields => .list (.text kind :: listingFields fields)
  | list items => .list (listingItems items)
  | member _ name _ => .text name
  | subnet s => .text s.written
  | document d => d.paired
def listingItems : List Construct → List Document
  | [] => []
  | c :: rest => c.listing :: listingItems rest
def listingFields : List (String × Construct) → List Document
  | [] => []
  | (_, c) :: rest => c.listing :: listingFields rest
end

/-- A node, if the first item names a kind; it must have all fields of that kind. -/
def ofItems (names : Option (List String)) (items : List Construct) : Except Failure Construct :=
  match names, items with
  | some names, document (.text kind) :: fields =>
    if names.length == fields.length then .ok (node kind (names.zip fields)) else .error .shape
  | _, _ => .ok (list items)

mutual
/-- Reads a construct: a list that starts with the name of a kind is a node, an object with a family and a
name is a member. -/
def ofDocument : Document → Except Failure Construct
  | .list items => do
    let names := match items.head? with
      | some (.text kind) => fieldNames? kind
      | _ => none
    ofItems names (← ofDocuments items)
  | .object entries => do
    let family ← (Document.object entries).field "enum"
    let name ← (Document.object entries).field "name"
    let family ← family.asName
    if !(memberFamilies.any fun f => Name.text f == family) then throw (.missing family)
    let name ← name.asName
    match memberValue? family.shown name.shown with
    | some v => return member family.shown name.shown v
    | none => throw (.missing name)
  | .null => .ok (document .null)
  | .bool b => .ok (document (.bool b))
  | .int n => .ok (document (.int n))
  | .real mantissa exponent => .ok (document (.real mantissa exponent))
  | .text s => .ok (document (.text s))
def ofDocuments : List Document → Except Failure (List Construct)
  | [] => .ok []
  | d :: rest => do return (← ofDocument d) :: (← ofDocuments rest)
end

end Construct

end ControlPlane
