import ControlPlane.Topology.Basic

/-!
# OSPF costs

An OSPF interface without a configured cost gets one from its bandwidth: the reference bandwidth divided by
it, without the fraction and at least one.  Interfaces of virtual networks always cost one.  Costs that were
derived before something failed stay, so `Network.deriveCosts` returns the network in any case.
-/
namespace ControlPlane

/-! ## §1. Quotients in double precision -/

/-- A number that is not negative, as a quotient. -/
structure Ratio where
  numerator : Nat
  denominator : Nat
  deriving DecidableEq, Repr

namespace Ratio

def binaryLength (n : Nat) : Nat := if n == 0 then 0 else Nat.log2 n + 1

/-- The nearest whole number, a half going to the even neighbour. -/
def nearest (r : Ratio) : Nat :=
  let whole := r.numerator / r.denominator
  let rest := r.numerator % r.denominator
  if r.denominator < 2 * rest || (2 * rest == r.denominator && whole % 2 == 1) then whole + 1 else whole

def scale (r : Ratio) (power : Int) : Ratio :=
  if 0 ≤ power then { r with numerator := r.numerator * Nat.pow 2 power.toNat }
  else { r with denominator := r.denominator * Nat.pow 2 (-power).toNat }

/-- The power of two below which double precision has no digits. -/
def leastPower : Int := 1074

/-- The nearest number of 53 binary digits, fewer where they would be below the least power of two. -/
def rounded (r : Ratio) : Ratio :=
  if r.numerator == 0 then r
  else
    let guess : Int := 53 - binaryLength r.numerator + binaryLength r.denominator
    let scaled := r.scale guess
    let power := if Nat.pow 2 53 * scaled.denominator ≤ scaled.numerator then guess - 1 else guess
    let power := min power leastPower
    scale ⟨(r.scale power).nearest, 1⟩ (-power)

/-- The quotient of two numbers. -/
def dividedBy (r s : Ratio) : Ratio := ⟨r.numerator * s.denominator, r.denominator * s.numerator⟩

def whole (r : Ratio) : Nat := r.numerator / r.denominator

/-- Whether a number is beyond double precision. -/
def isHuge (r : Ratio) : Bool := Nat.pow 2 1024 * r.denominator ≤ r.numerator

end Ratio

/-! ## §2. Bandwidths -/

inductive Bandwidth where
  | whole (value : Int)
  /-- `mantissa` times ten to the `exponent`. -/
  | real (mantissa exponent : Int)
  deriving DecidableEq, Repr

inductive Magnitude where
  | finite (size : Ratio)
  | infinite
  deriving DecidableEq, Repr

namespace Bandwidth

def ofDocument (d : Document) : Except Failure Bandwidth :=
  match d with
  | .int n => .ok (whole n)
  | .bool b => .ok (whole (if b then 1 else 0))
  | .real mantissa exponent => .ok (real mantissa exponent)
  | _ => .error .shape

def isNegative : Bandwidth → Bool
  | whole n => n < 0
  | real mantissa _ => mantissa < 0

/-- The number of decimal digits in front of the point, far enough out to tell huge and tiny numbers. -/
def decimalOrder (mantissa exponent : Int) : Int := (toString mantissa.natAbs).length + exponent

/-- The size in double precision.  A whole number has to fit, others may be infinite. -/
def magnitude : Bandwidth → Except Failure Magnitude
  | whole n =>
    let size := Ratio.rounded ⟨n.natAbs, 1⟩
    if size.isHuge then .error .overflow else .ok (.finite size)
  | real mantissa exponent =>
    if mantissa == 0 || decimalOrder mantissa exponent < -400 then .ok (.finite ⟨0, 1⟩)
    else if 400 < decimalOrder mantissa exponent then .ok .infinite
    else
      let size := Ratio.rounded (
        if 0 ≤ exponent then ⟨mantissa.natAbs * Nat.pow 10 exponent.toNat, 1⟩
        else ⟨mantissa.natAbs, Nat.pow 10 (-exponent).toNat⟩)
      .ok (if size.isHuge then .infinite else .finite size)

/-- The size of a quotient in double precision. -/
def divide : Magnitude → Magnitude → Except Failure Magnitude
  | _, .finite ⟨0, _⟩ => .error .divisionByZero
  | .finite a, .finite b =>
    let size := (a.dividedBy b).rounded
    .ok (if size.isHuge then .infinite else .finite size)
  | .finite _, .infinite => .ok (.finite ⟨0, 1⟩)
  | .infinite, .finite _ => .ok .infinite
  | .infinite, .infinite => .error (.value "cannot convert float NaN to integer")

/-- The size of the quotient of two bandwidths.  Whole numbers are divided exactly and the quotient is
rounded; otherwise both are rounded first. -/
def quotient : Bandwidth → Bandwidth → Except Failure Magnitude
  | whole a, whole b =>
    if b == 0 then .error .divisionByZero
    else
      let size := Ratio.rounded ⟨a.natAbs, b.natAbs⟩
      if size.isHuge then .error .overflow else .ok (.finite size)
  | a, b => do divide (← a.magnitude) (← b.magnitude)

end Bandwidth

/-- The reference bandwidth when none is configured: 100 Mbit/s. -/
def defaultReference : Document := .real 1 8

def costOf (reference bandwidth : Document) : Except Failure Int := do
  let a ← Bandwidth.ofDocument reference
  let b ← Bandwidth.ofDocument bandwidth
  match ← a.quotient b with
  | .infinite => throw .overflow
  | .finite size => return if a.isNegative != b.isNegative then 1 else max size.whole 1

/-! ## §3. Deriving costs -/

def virtualCost : Int := 1

def costFor (router : Name) (reference : Document) (i : Interface) : Except Failure Int :=
  match i.name.text? with
  | none => .error .absent
  | some name =>
    if Text.startsWith "Vlan" name then .ok virtualCost
    else match i.bandwidth with
      | .null => .error (.configuration (.noBandwidth name router.shown))
      | bandwidth => costOf reference bandwidth

/-- The interfaces of a router that get a cost, in the order of their names, up to the first failure. -/
def derivedCosts (r : Router) : List (Name × Int) × Option Failure :=
  match r.ospf with
  | none => ([], none)
  | some process =>
    let reference := match process.referenceBandwidth with
      | .null => defaultReference
      | d => d
    go reference ((sortNamed Interface.name r.interfaces).filter fun i =>
      i.runsOspf && i.ospfCost.same .null)
where
  go (reference : Document) : List Interface → List (Name × Int) × Option Failure
    | [] => ([], none)
    | i :: rest => match costFor r.name reference i with
      | .error f => ([], some f)
      | .ok cost =>
        let (more, failure) := go reference rest
        ((i.name, cost) :: more, failure)

def Router.setCosts (r : Router) (costs : List (Name × Int)) : Router :=
  { r with interfaces := r.interfaces.map fun i => match costs.lookup i.name with
      | some cost => { i with ospfCost := .int cost }
      | none => i }

/-- Derives the costs of the named routers, in order, up to the first failure. -/
def Network.deriveCosts (n : Network) : List Name → Network × Option Failure
  | [] => (n, none)
  | name :: rest => match n.router? name with
    | none => n.deriveCosts rest
    | some r =>
      let (costs, failure) := derivedCosts r
      let n := { n with routers := n.routers.map fun q => if q.name == name then q.setCosts costs else q }
      match failure with
      | some f => (n, some f)
      | none => n.deriveCosts rest

end ControlPlane
