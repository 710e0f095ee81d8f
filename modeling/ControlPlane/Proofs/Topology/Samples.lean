import ControlPlane.Config.Basic

/-!
# Parts of sample networks

The networks that results are applied to are put together from interfaces, sessions and links.
-/
namespace ControlPlane

/-- An interface with an address. -/
def Interface.port (name : String) (address : Subnet.Host) : Interface where
  name := .text name
  address := some address

/-- An interface that takes part in OSPF. -/
def Interface.ospfPort (name : String) (address : Subnet.Host) (cost : Int := 1) : Interface :=
  { Interface.port name address with ospfEnabled := .bool true, ospfCost := .int cost, ospfArea := .int 0 }

/-- A neighbor without policies. -/
def Neighbor.peer (address : Address) (remoteAs localAs : Int) : Neighbor where
  address := address
  remoteAs := .int remoteAs
  localAs := .int localAs

/-- A process with the default settings. -/
def BgpProcess.speaker (routerId : String) (neighbors : List Neighbor) : BgpProcess where
  routerId := .text routerId
  neighbors := neighbors

/-- The list of the networks that a router originates. -/
def FilterList.originating (subnets : List Subnet) : FilterList where
  name := .text "BGP_NETWORK_NETWORKS_FILTER"
  lines := subnets.map fun s => ⟨.accept, s, ⟨.int s.length, .int s.length⟩⟩

/-- A link between named interfaces. -/
def Link.cable (router1 interface1 router2 interface2 : String) : Link :=
  ⟨.text router1, .text interface1, .text router2, .text interface2⟩

/-- A router with a neighbor in another autonomous system. -/
def peeredNetwork : Network where
  routers := [{
    name := .text "A"
    interfaces := [.port "i" (.ofOctets 10 0 0 1 30)]
    bgp := some (.speaker "1.1.1.1" [.peer (.ofOctets 10 0 0 2) 2 1]) }]

end ControlPlane
