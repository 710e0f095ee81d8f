import ControlPlane.Name
import ControlPlane.Text.Pattern

/-!
# Failures

Why reading a description, building a topology or encoding it can stop.  Each constructor is a cause and
carries what the cause is about; `Failure.message` is the one place where causes are put into words.
-/
namespace ControlPlane

/-! ## §1. Malformed addresses -/

inductive OctetFault where
  | empty
  | notDecimal (octet : String)
  | tooLong (octet : String)
  | leadingZero (octet : String)
  | tooLarge (value : Nat)
  deriving Repr, DecidableEq

def OctetFault.message : OctetFault → String
  | empty => "Empty octet not permitted"
  | notDecimal octet => "Only decimal digits permitted in " ++ Text.quoted octet
  | tooLong octet => "At most 3 characters permitted in " ++ Text.quoted octet
  | leadingZero octet => "Leading zeros are not permitted in " ++ Text.quoted octet
  | tooLarge value => "Octet " ++ toString value ++ " (> 255) not permitted"

inductive AddressFault where
  | empty
  | octetCount (address : String)
  | octet (fault : OctetFault) (address : String)
  /-- A mask where only an address may stand; the address is given in quotes. -/
  | slash (address : String)
  /-- More than one mask; the address is given in quotes. -/
  | slashes (address : String)
  | negative (value : Int)
  | tooLarge (value : Int)
  deriving Repr, DecidableEq

def AddressFault.message : AddressFault → String
  | empty => "Address cannot be empty"
  | octetCount address => "Expected 4 octets in " ++ Text.quoted address
  | octet fault address => fault.message ++ " in " ++ Text.quoted address
  | slash address => "Unexpected '/' in " ++ address
  | slashes address => "Only one '/' permitted in " ++ address
  | negative value => toString value ++ " (< 0) is not permitted as an IPv4 address"
  | tooLarge value => toString value ++ " (>= 2**32) is not permitted as an IPv4 address"

/-! ## §2. Causes -/

inductive ConstructPlace where
  | statement
  | booleanExpression
  | integerExpression
  | asPathList
  | prefixSet
  | communitySet
  deriving Repr, DecidableEq

def ConstructPlace.label : ConstructPlace → String
  | statement => "statement"
  | booleanExpression => "boolean expression"
  | integerExpression => "integer expression"
  | asPathList => "AS path list"
  | prefixSet => "prefix set"
  | communitySet => "community set"

/-- A construct that is not modeled. -/
inductive UnsupportedCause where
  | untypedNode (node : String)
  | unknownMember (family value : String)
  | unknownConstruct (place : ConstructPlace) (construct : String)
  | prependCount (expression : String)
  | notLiteralCommunity (community : String)
  | communityNotCarried (community record : String)
  | ospfMetricType (metricType : String)
  | fallThrough
  | accessListField (accessList field : String)
  | headerSpaceField (field : String)
  deriving Repr, DecidableEq

def UnsupportedCause.message : UnsupportedCause → String
  | untypedNode node => "Policy node without a type: " ++ node
  | unknownMember family value => "Unknown " ++ family ++ ": " ++ value
  | unknownConstruct place construct => "Unknown " ++ place.label ++ ": " ++ construct
  | prependCount expression => "Prepend count must be a literal: " ++ expression
  | notLiteralCommunity community => "Community is not a literal: " ++ community
  | communityNotCarried community record =>
    "Community " ++ community ++ " matched on a route without communities (" ++ record ++ ")"
  | ospfMetricType metricType => "Unknown OSPF metric type: " ++ metricType
  | fallThrough => "FallThrough outside of a policy chain"
  | accessListField accessList field =>
    "ACL " ++ accessList ++ " matches on unsupported field " ++ field
  | headerSpaceField field => "Header space field " ++ field ++ " is not supported"

/-- A reference to something that the configurations do not define. -/
inductive ConfigurationCause where
  | undefinedPolicy (router name : String)
  | undefinedCommunityList (router name : String)
  | undefinedFilterList (router name : String)
  | undefinedAccessList (router name : String)
  | missingInterface (interface router : String)
  | noBandwidth (interface router : String)
  | unknownProtocol (protocol : String)
  | noCommonPolicy (protocol : String)
  | noImportPolicy (protocol : String)
  | noExportPolicy (protocol : String)
  deriving Repr, DecidableEq

def ConfigurationCause.message : ConfigurationCause → String
  | undefinedPolicy router name =>
    "Router '" ++ router ++ "' references undefined routing policy '" ++ name ++ "'"
  | undefinedCommunityList router name =>
    "Router '" ++ router ++ "' references undefined community list '" ++ name ++ "'"
  | undefinedFilterList router name =>
    "Router '" ++ router ++ "' references undefined route filter list '" ++ name ++ "'"
  | undefinedAccessList router name =>
    "Router '" ++ router ++ "' references undefined ACL '" ++ name ++ "'"
  | missingInterface interface router =>
    "Link references missing interface '" ++ interface ++ "' on router '" ++ router ++ "'"
  | noBandwidth interface router =>
    "Interface " ++ interface ++ " of " ++ router ++ " has no bandwidth to derive the OSPF cost"
  | unknownProtocol protocol => "Unknown protocol " ++ protocol
  | noCommonPolicy protocol => "No common routing policy for protocol " ++ protocol
  | noImportPolicy protocol => "No import routing policy for protocol " ++ protocol
  | noExportPolicy protocol => "No export routing policy for protocol " ++ protocol

inductive UnknownNames where
  | tcpFlags (names : List String)
  | headerSpaceFields (names : List String)
  | recordAttributes (names : List String)
  deriving Repr, DecidableEq

def UnknownNames.message : UnknownNames → String
  | tcpFlags names => "Unknown TCP flags " ++ Text.quotedList names
  | headerSpaceFields names => "Unknown header space fields " ++ Text.quotedList names
  | recordAttributes names => "Unknown record attributes " ++ Text.quotedList names

/-- Why a computation stopped. -/
inductive Failure where
  | unsupported (cause : UnsupportedCause)
  | configuration (cause : ConfigurationCause)
  | missing (key : Name)
  /-- An edge has no counterpart at its other end; `edge` describes it. -/
  | missingEdge (edge : String)
  | address (fault : AddressFault)
  /-- A mask that is neither a length, a netmask nor a hostmask; it is given in quotes. -/
  | netmask (mask : String)
  /-- A document does not have the shape that its place requires. -/
  | shape
  | names (unknown : UnknownNames)
  /-- A text that writes no value of the kind that its place requires; `cause` says so in words. -/
  | value (cause : String)
  | untracked
  /-- A process or an operation that the thing asked does not have. -/
  | absent
  | outOfRange
  | divisionByZero
  | pattern
  /-- A value that writes no integer stands where a formula needs one. -/
  | numeral
  /-- A number too large for what is done with it. -/
  | overflow
  /-- A policy whose interpretation calls itself without end. -/
  | endless
  deriving Repr, DecidableEq

def numeralMessage (digits : List Char) : Text.NumeralFault → String
  | .notDecimal => "invalid literal for int() with base 10: " ++ Text.quoted (String.ofList digits)
  | .tooLong n => "Exceeds the limit (" ++ toString Text.maxDigits ++
    " digits) for integer string conversion: value has " ++ toString n ++
    " digits; use sys.set_int_max_str_digits() to increase the limit"

def Failure.ofNumeral (digits : List Char) (fault : Text.NumeralFault) : Failure :=
  .value (numeralMessage digits fault)

def Failure.ofPattern : Text.Pattern.Fault → Failure
  | .malformed => .pattern
  | .tooLarge => .overflow
  | .count digits fault => .ofNumeral digits fault

def Failure.message : Failure → String
  | unsupported cause => cause.message
  | configuration cause => cause.message
  | missing key => key.quoted
  | missingEdge edge => edge
  | address fault => fault.message
  | netmask mask => mask ++ " is not a valid netmask"
  | shape => "unexpected shape"
  | names unknown => unknown.message
  | value cause => cause
  | untracked => "Unsat cores are only tracked in debug mode"
  | absent => "absent"
  | outOfRange => "index out of range"
  | divisionByZero => "division by zero"
  | pattern => "invalid pattern"
  | numeral => "no integer"
  | overflow => "number too large"
  | endless => "endless policy"

end ControlPlane
