import ControlPlane.Failure

/-!
# Protocols and the small closed sets of the domain

Routing protocols with their defaults, OSPF route types in order of preference, the two directions of a
route record, and the action of a filter line.
-/
namespace ControlPlane

/-! ## §1. Routing protocols -/

/-- A source of routes. -/
inductive Protocol where
  | connected
  | static
  | ospf
  | bgp
  /-- The overall best route of a router, whatever protocol it came from. -/
  | best
  deriving DecidableEq, Repr

namespace Protocol

/-- The name in messages and variable names. -/
def label : Protocol → String
  | connected => "CONNECTED"
  | static => "STATIC"
  | ospf => "OSPF"
  | bgp => "BGP"
  | best => "BEST"

/-- The name in descriptions. -/
def key : Protocol → String
  | connected => "connected"
  | static => "static"
  | ospf => "ospf"
  | bgp => "bgp"
  | best => "best"

def all : List Protocol := [connected, static, ospf, bgp, best]

def ofKey? (s : String) : Option Protocol := all.find? fun p => p.key == s

def ofLabel? (s : String) : Option Protocol := all.find? fun p => p.label == s

def encodingOrder : List Protocol := [ospf, bgp, connected, static]

/-- Routes of the router's own: they are neither exported nor imported. -/
def isLocal (p : Protocol) : Bool := p == connected || p == static

def internalDistance : Int := 200

def defaultDistance (p : Protocol) (internal : Bool := false) : Int :=
  match p with
  | bgp => if internal then internalDistance else 20
  | ospf => 110
  | static => 1
  | connected => 0
  | best => 0

/-- The multi-exit discriminator of BGP routes that set none. -/
def bgpMed : Int := 100

/-- The multi-exit discriminator when a route carries none. -/
def defaultMed (p : Protocol) : Int := if p == bgp then bgpMed else 0

def maxMetric? : Protocol → Option Int
  | ospf => some 65535
  | bgp => some 255
  | _ => none

end Protocol

def defaultLocalPref : Int := 100

/-! ## §2. OSPF route types -/

inductive OspfType where
  | O
  /-- Inter area. -/
  | OIA
  | E1
  /-- External, the cost inside of the network not counting. -/
  | E2
  deriving DecidableEq, Repr

namespace OspfType

/-- The name. -/
def label : OspfType → String
  | O => "O"
  | OIA => "OIA"
  | E1 => "E1"
  | E2 => "E2"

def rank : OspfType → Nat
  | O => 0
  | OIA => 1
  | E1 => 2
  | E2 => 3

def all : List OspfType := [O, OIA, E1, E2]

def ofLabel? (s : String) : Option OspfType := all.find? fun t => t.label == s

def isExternal (t : OspfType) : Bool := t == E1 || t == E2

end OspfType

/-! ## §3. Directions and actions -/

/-- Which way the route of a record flows. -/
inductive Direction where
  | incoming
  | outgoing
  deriving DecidableEq, Repr

def Direction.label : Direction → String
  | incoming => "IMPORT"
  | outgoing => "EXPORT"

inductive Action where
  | accept
  | reject
  deriving DecidableEq, Repr

def Action.label : Action → String
  | .accept => "ACCEPT"
  | .reject => "REJECT"

def Action.key : Action → String
  | .accept => "accept"
  | .reject => "reject"

def Action.ofKey? (s : String) : Option Action := [Action.accept, .reject].find? fun a => a.key == s

end ControlPlane
