import ControlPlane.Main
import ControlPlane.Slice.Listing
import ControlPlane.Text.Digest
import ControlPlane.Verification.Listing
import ControlPlane.Proofs.Slice.ShortestPaths
import ControlPlane.Proofs.Slice.StaticForwarding
import ControlPlane.Proofs.Topology.Links
import ControlPlane.Proofs.Slice.Redistribution
import ControlPlane.Proofs.Slice.MergedExports
import ControlPlane.Proofs.Slice.FailureSets
import ControlPlane.Proofs.Verification.Comparability
import ControlPlane.Proofs.Slice.Slicing
import ControlPlane.Proofs.Verification.PathLengths
import ControlPlane.Proofs.Verification.Loops
import ControlPlane.Proofs.Verification.DeclaredVariables
import ControlPlane.Proofs.Slice.FirstMatch
import ControlPlane.Proofs.Slice.TieBreaks
import ControlPlane.Proofs.Slice.Distances
import ControlPlane.Proofs.Slice.Branches
import ControlPlane.Proofs.Verification.Decoding
import ControlPlane.Proofs.Slice.Registry
import ControlPlane.Proofs.Transfer.CommunityFlags
import ControlPlane.Proofs.Route.Enumerations
