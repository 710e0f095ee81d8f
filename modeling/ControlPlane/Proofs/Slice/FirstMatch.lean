import ControlPlane.Proofs.Document.Numbers
import ControlPlane.Proofs.Slice.State
import Mathlib.Algebra.Group.Int.Defs
import Mathlib.Tactic.MkIffOfInductiveProp

/-!
# Which packets filters are about

A header has values where a packet has variables.  A header space describes headers: every field that lists something
lists something that holds of the header.  The terms of access lists and header spaces are evaluated to such
descriptions, whatever is left out of the terms because it decides nothing.
-/
namespace ControlPlane

open List Term HeaderSpace

variable {α : Type} {l : AccessLine} {r : Range}

/-! ## §1. Headers -/

/-- What the fields and the flags of a packet hold. -/
structure Header where
  number : PacketField → Int
  flag : TcpFlag → Bool

def Packet.header (p : Packet) (v : Valuation) : Header where
  number f := (p.field f).eval v
  flag f := (p.flag f).eval v

def Range.contains (r : Range) (n : Int) : Bool :=
  match r.start.integer, r.stop.integer with
  | .ok first, .ok last => decide (first ≤ n) && decide (n ≤ last)
  | _, _ => false

def Document.writes (d : Document) (n : Int) : Bool :=
  match d.integer with
  | .ok m => n == m
  | .error _ => false

def FlagMatch.holds (m : FlagMatch) (h : Header) : Bool := m.used.all fun u => h.flag u.1 == u.2.truthy

/-- What a field of a header space says about headers. -/
structure FieldTest where
  isUsed : Bool
  holds : Header → Bool

def FieldTest.of (items : List α) (holds : α → Header → Bool) : FieldTest where
  isUsed := !items.isEmpty
  holds h := items.isEmpty || items.any (holds · h)

def FieldTest.outside (items : List α) (holds : α → Header → Bool) : FieldTest where
  isUsed := !items.isEmpty
  holds h := !items.any (holds · h)

def anyField (fields : List PacketField) (test : α → Int → Bool) (a : α) (h : Header) : Bool :=
  fields.any fun f => test a (h.number f)

namespace HeaderSpace

def matchedNames : List String :=
  ["dst_ips", "src_ips", "dst_ports", "src_ports", "tcp_flags", "icmp_codes", "icmp_types", "ip_protocols"]

def tests (s : HeaderSpace) : List FieldTest :=
  [.of s.dstIps (anyField [.dstIp] Policy.inSubnet), .of s.srcIps (anyField [.srcIp] Policy.inSubnet),
   .of s.dstPorts (anyField [.dstPort] Range.contains), .of s.srcPorts (anyField [.srcPort] Range.contains),
   .of s.tcpFlags FlagMatch.holds, .of s.icmpCodes (anyField [.icmpCode] Range.contains),
   .of s.icmpTypes (anyField [.icmpType] Range.contains), .of s.ipProtocols (anyField [.ipProtocol] Document.writes)]

def allTests (s : HeaderSpace) : List FieldTest :=
  [.of s.dstIps (anyField [.dstIp] Policy.inSubnet), .outside s.notDstIps (anyField [.dstIp] Policy.inSubnet),
   .of s.srcIps (anyField [.srcIp] Policy.inSubnet), .outside s.notSrcIps (anyField [.srcIp] Policy.inSubnet),
   .of s.srcOrDstIps (anyField [.dstIp, .srcIp] Policy.inSubnet),
   .of s.dstPorts (anyField [.dstPort] Range.contains), .outside s.notDstPorts (anyField [.dstPort] Range.contains),
   .of s.srcPorts (anyField [.srcPort] Range.contains), .outside s.notSrcPorts (anyField [.srcPort] Range.contains),
   .of s.srcOrDstPorts (anyField [.dstPort, .srcPort] Range.contains),
   .of s.icmpTypes (anyField [.icmpType] Range.contains), .outside s.notIcmpTypes (anyField [.icmpType] Range.contains),
   .of s.icmpCodes (anyField [.icmpCode] Range.contains), .outside s.notIcmpCodes (anyField [.icmpCode] Range.contains),
   .of s.ipProtocols (anyField [.ipProtocol] Document.writes),
   .outside s.notIpProtocols (anyField [.ipProtocol] Document.writes), .of s.tcpFlags FlagMatch.holds]

def isSelective (s : HeaderSpace) : Bool := s.tests.any (·.isUsed)

def describes (s : HeaderSpace) (h : Header) : Bool := s.tests.all (·.holds h)

def contains (s : HeaderSpace) (h : Header) : Bool := s.allTests.all (·.holds h)

def IsMatchable (s : HeaderSpace) : Prop := ∀ e ∈ s.usedFields, e.1 ∈ matchedNames

instance (s : HeaderSpace) : Decidable s.IsMatchable := inferInstanceAs (Decidable (∀ e ∈ s.usedFields, _))

end HeaderSpace

def AccessLine.isMatch (l : AccessLine) (h : Header) : Bool := l.space.describes h != l.negate.truthy

def AccessList.firstMatch? (l : AccessList) (h : Header) : Option AccessLine := l.lines.find? (·.isMatch h)

/-! ## §2. Numbers that are written -/

def Document.IsNumeral (d : Document) : Prop := d.integer.isOk

/-- Both ends of a range are numbers. -/
@[mk_iff]
structure Range.IsNumeric (r : Range) : Prop where
  start : r.start.IsNumeral
  stop : r.stop.IsNumeral

/-- The numbers of a header space are numbers. -/
@[mk_iff]
structure HeaderSpace.IsNumeric (s : HeaderSpace) : Prop where
  dstPorts : ∀ r ∈ s.dstPorts, r.IsNumeric
  notDstPorts : ∀ r ∈ s.notDstPorts, r.IsNumeric
  srcPorts : ∀ r ∈ s.srcPorts, r.IsNumeric
  notSrcPorts : ∀ r ∈ s.notSrcPorts, r.IsNumeric
  srcOrDstPorts : ∀ r ∈ s.srcOrDstPorts, r.IsNumeric
  icmpTypes : ∀ r ∈ s.icmpTypes, r.IsNumeric
  notIcmpTypes : ∀ r ∈ s.notIcmpTypes, r.IsNumeric
  icmpCodes : ∀ r ∈ s.icmpCodes, r.IsNumeric
  notIcmpCodes : ∀ r ∈ s.notIcmpCodes, r.IsNumeric
  ipProtocols : ∀ d ∈ s.ipProtocols, d.IsNumeral
  notIpProtocols : ∀ d ∈ s.notIpProtocols, d.IsNumeral

instance (d : Document) : Decidable d.IsNumeral := inferInstanceAs (Decidable (d.integer.isOk))

instance (r : Range) : Decidable r.IsNumeric := decidable_of_iff' _ (r.isNumeric_iff)

instance (s : HeaderSpace) : Decidable s.IsNumeric := decidable_of_iff' _ (s.isNumeric_iff)

theorem Document.IsNumeral.exists {d : Document} (h : d.IsNumeral) : ∃ n, d.integer = .ok n := by
  unfold IsNumeral at h
  cases hd : d.integer with
  | ok n => exact ⟨n, rfl⟩
  | error f =>
    rw [hd] at h
    cases h

theorem Document.integer_of_same {c d : Document} {m n : Int} (hc : c.integer = .ok m) (hd : d.integer = .ok n)
    (h : c.same d) : m = n := by
  have hscalar : d.isScalar := by cases d <;> simp_all [integer, isScalar]
  exact Means.unique (means_of_same hc h (same_self hscalar)) (.inl hd)

theorem Range.contains_eq {first last : Int} (hfirst : r.start.integer = .ok first)
    (hlast : r.stop.integer = .ok last) (n : Int) : r.contains n = (decide (first ≤ n) && decide (n ≤ last)) := by
  rw [contains, hfirst, hlast]

/-! ## §3. Terms about a packet -/

variable {p : Packet}

theorem Term.eval_anyKept (v : Valuation) (ts : List (Term .bool)) :
    (anyKept ts).eval v = ts.any fun t => t.eval v := by
  unfold anyKept
  split
  · rfl
  · rw [any_cons, any_nil, Bool.or_false]
  · rw [eval_or]

namespace Packet

variable {test : α → Header → Bool} {items : List α}

def Decides (p : Packet) (e : Except Failure (Term .bool)) (holds : Header → Bool) : Prop :=
  ∃ t, e = .ok t ∧ ∀ v, t.eval v = holds (p.header v)

/-- Conditions that can be computed say together what fields say; there are none where no field is used. -/
def Lists (p : Packet) (e : Except Failure (List (Term .bool))) (fields : List FieldTest) : Prop :=
  ∃ ts, e = .ok ts ∧ ts.isEmpty = !fields.any (·.isUsed) ∧
    ∀ v, (ts.all fun t => t.eval v) = fields.all (·.holds (p.header v))

theorem exists_mapM {f : α → Except Failure (Term .bool)} (h : ∀ a ∈ items, p.Decides (f a) (test a)) :
    ∃ ts, items.mapM f = .ok ts ∧ ∀ v, (ts.any fun t => t.eval v) = items.any (test · (p.header v)) := by
  induction items with
  | nil => exact ⟨[], rfl, fun _ => rfl⟩
  | cons a rest ih =>
    obtain ⟨ha, hrest⟩ := forall_mem_cons.1 h
    obtain ⟨t, ht, hval⟩ := ha
    obtain ⟨ts, hts, hvals⟩ := ih hrest
    refine ⟨t :: ts, ?_, fun v => ?_⟩
    · rw [mapM_cons, ht, hts]
      rfl
    · rw [any_cons, any_cons, hval, hvals]

theorem decides_anyKept {f : α → Except Failure (Term .bool)} (h : ∀ a ∈ items, p.Decides (f a) (test a)) :
    p.Decides (do return .anyKept (← items.mapM f)) fun x => items.any (test · x) := by
  obtain ⟨ts, hts, hval⟩ := exists_mapM h
  refine ⟨.anyKept ts, ?_, fun v => ?_⟩
  · rw [hts]
    rfl
  · rw [eval_anyKept, hval]

theorem decides_isNumber {d : Document} (hd : d.IsNumeral) (f : PacketField) :
    p.Decides ((p.field f).isNumber d) fun h => d.writes (h.number f) := by
  obtain ⟨n, hn⟩ := hd.exists
  have hterm : (p.field f).isNumber d = .ok ((p.field f).is n) := by
    cases d with
    | null => cases hn
    | _ => simp only [Term.isNumber, hn, ok_bind]; rfl
  refine ⟨_, hterm, fun v => ?_⟩
  show _ = d.writes ((p.field f).eval v)
  rw [Document.writes, hn, Bool.eq_iff_iff, eval_is, beq_iff_eq]

theorem decides_boundsOf (hr : r.IsNumeric) (f : PacketField) :
    p.Decides (r.boundsOf (p.field f)) fun h => r.contains (h.number f) := by
  obtain ⟨first, hfirst⟩ := hr.start.exists
  obtain ⟨last, hlast⟩ := hr.stop.exists
  refine ⟨.and [.ge (p.field f) (.intLit first), .le (p.field f) (.intLit last)], ?_, fun v => ?_⟩
  · rw [Range.boundsOf, hfirst, hlast]
    rfl
  · show _ = r.contains ((p.field f).eval v)
    rw [Range.contains_eq hfirst hlast, eval_and, all_cons, all_cons, all_nil, Bool.and_true]
    rfl

/-- A range of one number is an equation, and says the same as its two bounds. -/
theorem decides_holdsOf (hr : r.IsNumeric) (f : PacketField) :
    p.Decides (r.holdsOf (p.field f)) fun h => r.contains (h.number f) := by
  unfold Range.holdsOf
  split
  next hsingle =>
    obtain ⟨first, hfirst⟩ := hr.start.exists
    obtain ⟨last, hlast⟩ := hr.stop.exists
    obtain rfl := Document.integer_of_same hfirst hlast hsingle
    obtain ⟨t, ht, hval⟩ := decides_isNumber (p := p) hr.start f
    refine ⟨t, ht, fun v => ?_⟩
    show _ = r.contains ((p.field f).eval v)
    rw [hval, Range.contains_eq hfirst hlast]
    show r.start.writes ((p.field f).eval v) = _
    rw [Document.writes, hfirst, Bool.eq_iff_iff, beq_iff_eq, Bool.and_eq_true, decide_eq_true_eq, decide_eq_true_eq]
    omega
  next => exact decides_boundsOf hr f

theorem decides_matchesFlags (items : List FlagMatch) :
    p.Decides (.ok (p.matchesFlags items)) fun h => items.any (·.holds h) := by
  refine ⟨_, rfl, fun v => ?_⟩
  rw [matchesFlags, eval_anyOf, any_map]
  refine congrArg items.any (funext fun m => ?_)
  rw [Function.comp, eval_allOf, all_map]
  rfl

theorem anyField_singleton (f : PacketField) (test : α → Int → Bool) :
    anyField [f] test = fun a h => test a (h.number f) := by
  funext a h
  exact Bool.or_false _

/-- Looking at several fields of one thing after the other is looking for one of the things in some field. -/
theorem any_anyField (fields : List PacketField) (items : List α) (test : α → Int → Bool) (h : Header) :
    (fields.any fun f => items.any fun a => test a (h.number f)) = items.any (anyField fields test · h) := by
  unfold anyField
  rw [Bool.eq_iff_iff]
  simp only [any_eq_true]
  exact ⟨fun ⟨f, hf, a, ha, h⟩ => ⟨a, ha, f, hf, h⟩, fun ⟨a, ha, f, hf, h⟩ => ⟨f, hf, a, ha, h⟩⟩

theorem decides_inSubnets (fields : List PacketField) (items : List Subnet) :
    p.Decides (HeaderSpace.inSubnets p fields items) fun h => items.any (anyField fields Policy.inSubnet · h) := by
  refine ⟨_, rfl, fun v => ?_⟩
  rw [eval_anyOf, any_flatMap]
  refine Eq.trans (congrArg fields.any (funext fun f => ?_)) (any_anyField fields items _ _)
  rw [any_map]
  exact congrArg items.any (funext fun s => Subnet.eval_holdsOf v s _)

theorem decides_subnets (f : PacketField) (items : List Subnet) :
    p.Decides (.ok (.anyOf (items.map fun s => s.holdsOf (p.field f)))) fun h =>
      items.any (anyField [f] Policy.inSubnet · h) := by
  have h := decides_inSubnets (p := p) [f] items
  rwa [HeaderSpace.inSubnets, flatMap_singleton] at h

theorem decides_ranges {items : List Range} (h : ∀ r ∈ items, r.IsNumeric) (f : PacketField) :
    p.Decides (do return Term.anyKept (← items.mapM fun r => r.holdsOf (p.field f))) fun x =>
      items.any (anyField [f] Range.contains · x) := by
  rw [anyField_singleton]
  exact decides_anyKept fun r hr => decides_holdsOf (h r hr) f

theorem decides_inRanges {items : List Range} (h : ∀ r ∈ items, r.IsNumeric) (fields : List PacketField) :
    p.Decides (HeaderSpace.inRanges p fields items) fun x => items.any (anyField fields Range.contains · x) := by
  have hall : ∃ ts, (fields.flatMapM fun f => items.mapM fun r => r.boundsOf (p.field f)) = .ok ts ∧
      ∀ v, (ts.any fun t => t.eval v) =
        fields.any fun f => items.any fun r => r.contains ((p.header v).number f) := by
    induction fields with
    | nil => exact ⟨[], rfl, fun _ => rfl⟩
    | cons f rest ih =>
      obtain ⟨ts, hts, hval⟩ := exists_mapM fun r hr => decides_boundsOf (p := p) (h r hr) f
      obtain ⟨us, hus, hvals⟩ := ih
      refine ⟨ts ++ us, ?_, fun v => by rw [any_append, any_cons, hval, hvals]⟩
      rw [flatMapM_cons, hts, hus]
      rfl
  obtain ⟨ts, hts, hval⟩ := hall
  refine ⟨.anyOf ts, ?_, fun v => ?_⟩
  · rw [HeaderSpace.inRanges, hts]
    rfl
  · rw [eval_anyOf, hval]
    exact any_anyField fields items _ _

theorem decides_inProtocols {items : List Document} (h : ∀ d ∈ items, d.IsNumeral) :
    p.Decides (AccessLine.inProtocols p items) fun x => items.any (anyField [.ipProtocol] Document.writes · x) := by
  rw [anyField_singleton]
  exact decides_anyKept fun d hd => decides_isNumber (h d hd) .ipProtocol

/-! ## §4. Conditions on fields -/

/-- A field is looked at when it lists something. -/
theorem lists_whenListed {condition : List α → Except Failure (Term .bool)}
    (h : p.Decides (condition items) fun x => items.any (test · x)) :
    p.Lists (AccessLine.whenListed items condition) [.of items test] := by
  unfold AccessLine.whenListed
  cases hempty : items.isEmpty with
  | true => exact ⟨[], rfl, by simp [FieldTest.of, hempty], fun v => by simp [FieldTest.of, hempty]⟩
  | false =>
    obtain ⟨t, ht, hval⟩ := h
    refine ⟨[t], ?_, by simp [FieldTest.of, hempty], fun v => by simp [FieldTest.of, hempty, hval]⟩
    rw [ht]
    rfl

/-- A field that excludes what it lists is looked at when it lists something. -/
theorem lists_outside {condition : List α → Except Failure (Term .bool)}
    (h : p.Decides (condition items) fun x => items.any (test · x)) :
    p.Lists (AccessLine.whenListed items (HeaderSpace.outside condition)) [.outside items test] := by
  unfold AccessLine.whenListed
  cases hempty : items.isEmpty with
  | true =>
    obtain rfl := isEmpty_iff.1 hempty
    exact ⟨[], rfl, rfl, fun _ => rfl⟩
  | false =>
    obtain ⟨t, ht, hval⟩ := h
    refine ⟨[.not t], ?_, by simp [FieldTest.outside, hempty], fun v => by simp [FieldTest.outside, hval]⟩
    rw [HeaderSpace.outside, ht]
    rfl

theorem lists_flatten {groups : List (Except Failure (List (Term .bool)))} {fields : List (List FieldTest)}
    (h : List.Forall₂ p.Lists groups fields) : p.Lists (do return (← groups.mapM id).flatten) fields.flatten := by
  induction h with
  | nil => exact ⟨[], rfl, rfl, fun _ => rfl⟩
  | @cons e field groups fields he _ ih =>
    obtain ⟨ts, rfl, hempty, hval⟩ := he
    obtain ⟨us, hus, hempty', hval'⟩ := ih
    obtain ⟨tss, htss, hus⟩ := bind_eq_ok.1 hus
    cases hus
    refine ⟨ts ++ tss.flatten, ?_, ?_, fun v => ?_⟩
    · rw [mapM_cons, htss]
      rfl
    · rw [flatten_cons, any_append, Bool.not_or, ← hempty, ← hempty']
      cases ts <;> rfl
    · rw [all_append, hval, hval', flatten_cons, all_append]

end Packet

open Packet

theorem AccessLine.lists_conditions (h : l.space.IsNumeric) : p.Lists (l.conditions p) l.space.tests := by
  show p.Lists _ (l.space.tests.map ([·])).flatten
  refine lists_flatten ?_
  exact .cons (lists_whenListed (decides_subnets .dstIp _))
    (.cons (lists_whenListed (decides_subnets .srcIp _))
    (.cons (lists_whenListed (decides_ranges h.dstPorts .dstPort))
    (.cons (lists_whenListed (decides_ranges h.srcPorts .srcPort))
    (.cons (lists_whenListed (decides_matchesFlags _))
    (.cons (lists_whenListed (decides_ranges h.icmpCodes .icmpCode))
    (.cons (lists_whenListed (decides_ranges h.icmpTypes .icmpType))
    (.cons (lists_whenListed (decides_inProtocols h.ipProtocols)) .nil)))))))

/-! ## §5. Fields that cannot be matched on -/

namespace HeaderSpace

variable {s : HeaderSpace}

/-- The fields that list nothing in a header space that can be matched on. -/
@[mk_iff]
structure IsPlain (s : HeaderSpace) : Prop where
  unmodeled : ∀ e ∈ s.unmodeled, e.2 = []
  notDstIps : s.notDstIps = []
  notSrcIps : s.notSrcIps = []
  srcOrDstIps : s.srcOrDstIps = []
  notDstPorts : s.notDstPorts = []
  notSrcPorts : s.notSrcPorts = []
  srcOrDstPorts : s.srcOrDstPorts = []
  notIcmpTypes : s.notIcmpTypes = []
  notIcmpCodes : s.notIcmpCodes = []
  notIpProtocols : s.notIpProtocols = []

theorem key_not_mem_matchedNames (f : UnmodeledField) : f.key ∉ matchedNames := by
  cases f <;> decide

/-- Nothing else is listed when the fields that cannot be matched on list nothing. -/
theorem isMatchable_iff : s.IsMatchable ↔ s.IsPlain := by
  have hunmodeled : (∀ e ∈ s.unmodeled.map fun e => (e.1.key, FieldValues.documents e.2),
      (!e.2.isEmpty) → e.1 ∈ matchedNames) ↔ ∀ e ∈ s.unmodeled, e.2 = [] := by
    rw [forall_mem_map]
    simp [FieldValues.isEmpty, key_not_mem_matchedNames]
  unfold IsMatchable usedFields
  rw [forall_mem_filter, forall_mem_append, hunmodeled, and_comm, isPlain_iff]
  simp [modeledFields, matchedNames, FieldValues.isEmpty]

theorem IsPlain.allTests_eq (h : s.IsPlain) : (s.allTests.any (·.isUsed)) = s.isSelective ∧
    ∀ x, s.contains x = s.describes x := by
  unfold contains describes isSelective allTests tests
  rw [h.notDstIps, h.notSrcIps, h.srcOrDstIps, h.notDstPorts, h.notSrcPorts, h.srcOrDstPorts, h.notIcmpTypes,
    h.notIcmpCodes, h.notIpProtocols]
  simp only [FieldTest.outside, FieldTest.of, any_cons, all_cons, any_nil, all_nil, isEmpty_nil, Bool.not_true,
    Bool.not_false, Bool.false_or, Bool.true_and, Bool.and_true, Bool.or_false]
  -- flags are the last ones in header spaces, and types come before codes
  exact ⟨by ac_rfl, fun x => by ac_rfl⟩

end HeaderSpace

theorem AccessLine.unsupported_eq_none : l.unsupported? = none ↔ l.space.IsMatchable := by
  rw [isMatchable_iff, isPlain_iff]
  unfold unsupported?
  split
  next e he =>
    have hlisted : e.2 ≠ [] := by simpa using find?_some he
    exact ⟨nofun, fun h => absurd (h.1 e (mem_of_find?_eq_some he)) hlisted⟩
  next hunmodeled =>
    have hnone : ∀ e ∈ l.space.unmodeled, e.2 = [] := by simpa using hunmodeled
    rw [and_iff_right hnone]
    simp [unsupportedFields]

theorem HeaderSpace.lists_constraints {s : HeaderSpace} (hs : ∀ e ∈ s.unmodeled, e.2 = []) (h : s.IsNumeric) :
    p.Lists (s.constraints p) s.allTests := by
  have hnone : (s.unmodeled.find? fun e => !e.2.isEmpty) = none :=
    List.find?_eq_none.2 fun e he => by simp [hs e he]
  unfold constraints
  rw [hnone]
  exact lists_flatten
    (.cons (lists_whenListed (decides_inSubnets [.dstIp] _))
    (.cons (lists_outside (decides_inSubnets [.dstIp] _))
    (.cons (lists_whenListed (decides_inSubnets [.srcIp] _))
    (.cons (lists_outside (decides_inSubnets [.srcIp] _))
    (.cons (lists_whenListed (decides_inSubnets [.dstIp, .srcIp] _))
    (.cons (lists_whenListed (decides_inRanges h.dstPorts [.dstPort]))
    (.cons (lists_outside (decides_inRanges h.notDstPorts [.dstPort]))
    (.cons (lists_whenListed (decides_inRanges h.srcPorts [.srcPort]))
    (.cons (lists_outside (decides_inRanges h.notSrcPorts [.srcPort]))
    (.cons (lists_whenListed (decides_inRanges h.srcOrDstPorts [.dstPort, .srcPort]))
    (.cons (lists_whenListed (decides_inRanges h.icmpTypes [.icmpType]))
    (.cons (lists_outside (decides_inRanges h.notIcmpTypes [.icmpType]))
    (.cons (lists_whenListed (decides_inRanges h.icmpCodes [.icmpCode]))
    (.cons (lists_outside (decides_inRanges h.notIcmpCodes [.icmpCode]))
    (.cons (lists_whenListed (decides_inProtocols h.ipProtocols))
    (.cons (lists_outside (decides_inProtocols h.notIpProtocols))
    (.cons (lists_whenListed (decides_matchesFlags _)) .nil)))))))))))))))))

/-! ## §6. Access lists -/

namespace AccessList

theorem addLine_ok (name : Document) (hl : l.space.IsMatchable) (hnumeric : l.space.IsNumeric) (acc : Term .bool) :
    ∃ t, addLine p name l acc = .ok t ∧ (l.space.isSelective = false → t = acc) ∧ (l.space.isSelective →
      ∀ v, t.eval v = if l.isMatch (p.header v) then l.action == .accept else acc.eval v) := by
  obtain ⟨ts, hts, hempty, hval⟩ := AccessLine.lists_conditions (p := p) hnumeric
  have hempty : ts.isEmpty = !l.space.isSelective := hempty
  unfold addLine
  rw [AccessLine.unsupported_eq_none.2 hl]
  rw [hts]
  cases ts with
  | nil =>
    have hopen : l.space.isSelective = false := by simpa using hempty
    exact ⟨acc, rfl, fun _ => rfl, fun h => absurd (h.symm.trans hopen) (by decide)⟩
  | cons t rest =>
    have hselective : l.space.isSelective := by simpa using hempty
    refine ⟨_, rfl, fun h => absurd (h.symm.trans hselective) (by decide), fun _ v => ?_⟩
    have hholds : (Term.allOf (t :: rest)).eval v = l.space.describes (p.header v) :=
      (eval_allOf v _).trans (hval v)
    rw [AccessLine.isMatch]
    cases l.negate.truthy <;> simp [hholds]

theorem addLine_refuses (name : Document) (hl : ¬ l.space.IsMatchable) (acc : Term .bool) :
    ∃ field, addLine p name l acc = .error (.unsupported (.accessListField name.shown field)) := by
  obtain ⟨field, hfield⟩ := Option.ne_none_iff_exists'.1 fun h => hl (AccessLine.unsupported_eq_none.1 h)
  refine ⟨field, ?_⟩
  unfold addLine
  rw [hfield]
  rfl

theorem exists_permits (name : Document) {lines : List AccessLine} (hl : ∀ l ∈ lines, l.space.IsMatchable)
    (hnumeric : ∀ l ∈ lines, l.space.IsNumeric) :
    ∃ t, lines.foldrM (addLine p name) .no = .ok t ∧ ((∀ l ∈ lines, l.space.isSelective) →
      ∀ v, (t.eval v ↔ ∃ l, lines.find? (·.isMatch (p.header v)) = some l ∧ l.action = .accept)) := by
  induction lines with
  | nil => exact ⟨.no, rfl, fun _ v => by simp⟩
  | cons l rest ih =>
    obtain ⟨hl, hrest⟩ := forall_mem_cons.1 hl
    obtain ⟨hln, hrestn⟩ := forall_mem_cons.1 hnumeric
    obtain ⟨acc, hacc, hval⟩ := ih hrest hrestn
    obtain ⟨t, ht, -, hline⟩ := addLine_ok (p := p) name hl hln acc
    refine ⟨t, by rw [foldrM_cons, hacc, ok_bind, ht], fun hselective v => ?_⟩
    obtain ⟨hls, hrests⟩ := forall_mem_cons.1 hselective
    rw [hline hls v, List.find?_cons]
    cases l.isMatch (p.header v) with
    | true => simp
    | false => simpa using hval hrests v

theorem refuses_iff (name : Document) {lines : List AccessLine} (hnumeric : ∀ l ∈ lines, l.space.IsNumeric) :
    (∃ cause, lines.foldrM (addLine p name) .no = .error (.unsupported cause)) ↔
      ∃ l ∈ lines, ¬ l.space.IsMatchable := by
  induction lines with
  | nil => exact ⟨fun ⟨_, h⟩ => (nomatch h), fun ⟨_, h, _⟩ => (nomatch h)⟩
  | cons l rest ih =>
    obtain ⟨hln, hrestn⟩ := forall_mem_cons.1 hnumeric
    simp only [foldrM_cons, mem_cons, exists_eq_or_imp]
    by_cases hrest : ∃ l ∈ rest, ¬ l.space.IsMatchable
    · obtain ⟨cause, hcause⟩ := (ih hrestn).2 hrest
      rw [hcause]
      exact ⟨fun _ => .inr hrest, fun _ => ⟨cause, rfl⟩⟩
    · have hmatchable : ∀ l ∈ rest, l.space.IsMatchable := by simpa using hrest
      obtain ⟨acc, hacc, -⟩ := exists_permits (p := p) name hmatchable hrestn
      rw [hacc, or_iff_left hrest]
      constructor
      · rintro ⟨cause, hcause⟩ hl
        obtain ⟨t, ht, -⟩ := addLine_ok (p := p) name hl hln acc
        exact nomatch ht.symm.trans hcause
      · intro hl
        obtain ⟨field, hfield⟩ := addLine_refuses (p := p) name hl acc
        exact ⟨_, hfield⟩

end AccessList

/-- **Access lists are first-match.**  If every line matches on something, and on nothing but what lines can match on,
the list permits the packets whose first matching line accepts them.  It is refused exactly when some line matches on
anything else. -/
theorem AccessList.permits_isFirstMatch (p : Packet) (l : AccessList)
    (hnumeric : ∀ line ∈ l.lines, line.space.IsNumeric) :
    ((∀ line ∈ l.lines, line.space.IsMatchable ∧ line.space.isSelective) → ∃ t, l.permits p = .ok t ∧
      ∀ v, (t.eval v ↔ ∃ line, l.firstMatch? (p.header v) = some line ∧ line.action = .accept)) ∧
    ((∃ cause, l.permits p = .error (.unsupported cause)) ↔ ∃ line ∈ l.lines, ¬ line.space.IsMatchable) := by
  refine ⟨fun h => ?_, refuses_iff l.name hnumeric⟩
  obtain ⟨t, ht, hval⟩ := exists_permits (p := p) l.name (fun line hline => (h line hline).1) hnumeric
  exact ⟨t, ht, hval fun line hline => (h line hline).2⟩

/-- Sessions of one kind are refused, and whatever else is bound for low ports or keeps a session open. -/
def sessionFilter : AccessList where
  name := .text "SESSIONS"
  lines := [
    { space := { dstPorts := [⟨.int 22, .int 22⟩], ipProtocols := [.int 6] }, action := .reject },
    { space := { dstPorts := [⟨.int 1024, .int 65535⟩], tcpFlags := [⟨[(.fin, .bool true)]⟩] }
      action := .accept, negate := .bool true }]

theorem sessionFilter_isFirstMatch : (∀ line ∈ sessionFilter.lines, line.space.IsNumeric) ∧
    (∀ line ∈ sessionFilter.lines, line.space.IsMatchable ∧ line.space.isSelective) ∧
    ∃ t, sessionFilter.permits ⟨"SLICE-MAIN_"⟩ = .ok t ∧ ∀ v, (t.eval v ↔
      ∃ line, sessionFilter.firstMatch? (Packet.header ⟨"SLICE-MAIN_"⟩ v) = some line ∧ line.action = .accept) := by
  have hnumeric : ∀ line ∈ sessionFilter.lines, line.space.IsNumeric := by decide
  have hselective : ∀ line ∈ sessionFilter.lines, line.space.IsMatchable ∧ line.space.isSelective := by decide
  exact ⟨hnumeric, hselective, (AccessList.permits_isFirstMatch _ _ hnumeric).1 hselective⟩

/-- **One accepting line and a header space with the same fields are about the same packets**, if any field lists
something.  A line that matches on nothing is passed over, so that nothing is permitted, while a header space without
fields restricts nothing. -/
theorem AccessList.accepting_isHeaderSpace (p : Packet) (name : Document) {s : HeaderSpace} (hs : s.IsMatchable)
    (hnumeric : s.IsNumeric) :
    ∃ t cs, (AccessList.mk name [{ space := s, action := .accept }]).permits p = .ok t ∧ s.constraints p = .ok cs ∧
      (s.isSelective → ∀ v, (t.eval v ↔ ∀ c ∈ cs, c.eval v)) ∧
      (s.isSelective = false → t = .no ∧ cs = []) := by
  have hplain := isMatchable_iff.1 hs
  obtain ⟨hused, hsame⟩ := hplain.allTests_eq
  obtain ⟨cs, hcs, hempty, hval⟩ := lists_constraints (p := p) hplain.unmodeled hnumeric
  obtain ⟨t, ht, hopen, hline⟩ := addLine_ok (p := p) name
    (l := { space := s, action := .accept }) hs hnumeric .no
  rw [hused] at hempty
  refine ⟨t, cs, by rw [permits, foldrM_cons]; exact ht, hcs, fun hselective v => ?_, fun hnone => ⟨hopen hnone, ?_⟩⟩
  · have hall : (∀ c ∈ cs, c.eval v) ↔ s.describes (p.header v) := by
      rw [← all_eq_true, hval, ← hsame]
      rfl
    rw [hline hselective v, hall]
    simp [AccessLine.isMatch, Document.truthy]
  · simpa [hnone] using hempty

def webSpace : HeaderSpace := { dstPorts := [⟨.int 80, .int 80⟩, ⟨.int 443, .int 443⟩], ipProtocols := [.int 6] }

theorem webSpace_accepting_isHeaderSpace : webSpace.IsMatchable ∧ webSpace.IsNumeric ∧ webSpace.isSelective ∧
    ∃ t cs, (AccessList.mk (.text "WEB") [{ space := webSpace, action := .accept }]).permits ⟨"SLICE-MAIN_"⟩ = .ok t ∧
      webSpace.constraints ⟨"SLICE-MAIN_"⟩ = .ok cs ∧ ∀ v, (t.eval v ↔ ∀ c ∈ cs, c.eval v) := by
  have hmatchable : webSpace.IsMatchable := by decide
  have hnumeric : webSpace.IsNumeric := by decide
  obtain ⟨t, cs, ht, hcs, hsame, -⟩ :=
    AccessList.accepting_isHeaderSpace ⟨"SLICE-MAIN_"⟩ (.text "WEB") hmatchable hnumeric
  exact ⟨hmatchable, hnumeric, rfl, t, cs, ht, hcs, hsame rfl⟩

theorem open_line_isNoHeaderSpace : ∃ t cs,
    (AccessList.mk (.text "ANY") [{ space := {}, action := .accept }]).permits ⟨"SLICE-MAIN_"⟩ = .ok t ∧
      HeaderSpace.constraints {} ⟨"SLICE-MAIN_"⟩ = .ok cs ∧
      ∀ v, ¬ (t.eval v ↔ ∀ c ∈ cs, c.eval v) :=
  ⟨.no, [], rfl, rfl, fun v h => absurd (h.2 nofun) (by simp)⟩

/-! ## §7. Packets of a slice -/

def PacketField.width : PacketField → Nat
  | .dstIp | .srcIp => 32
  | .dstPort | .srcPort => 16
  | .icmpCode | .icmpType | .ipProtocol => 8

def Header.IsWellFormed (h : Header) : Prop := ∀ f, 0 ≤ h.number f ∧ h.number f < 2 ^ f.width

theorem Slice.holds_packetLimits {v : Valuation} :
    (∀ l ∈ packetLimits, 0 ≤ (p.field l.1).eval v ∧ (p.field l.1).eval v < l.2) ↔
      (p.header v).IsWellFormed ∧ (p.header v).number .icmpCode < 16 := by
  unfold packetLimits
  simp only [forall_mem_cons, not_mem_nil, false_implies, implies_true, and_true]
  constructor
  · rintro ⟨hdst, hsrc, hdstPort, hsrcPort, htype, hprotocol, hcode, hlimit⟩
    refine ⟨fun f => ?_, hlimit⟩
    cases f with
    | icmpCode => exact ⟨hcode, Int.lt_trans hlimit (by decide)⟩
    | _ => assumption
  · rintro ⟨h, hlimit⟩
    exact ⟨h .dstIp, h .srcIp, h .dstPort, h .srcPort, h .icmpType, h .ipProtocol, (h .icmpCode).1, hlimit⟩

/-- **A slice is about the packets of its header space whose ICMP code is below 16.**  Where no field is listed that
cannot be expressed, the bounds on the packet and the constraints of the header space hold together exactly of the
headers that fit the fields and are in the space; codes from 16 on, which fit their field as well, are left out. -/
theorem Slice.packets_areThoseOfSpace (s : Slice) (hs : ∀ e ∈ s.space.unmodeled, e.2 = [])
    (hnumeric : s.space.IsNumeric) :
    ∃ bounds cs, s.boundConstraints = bounds ++ s.records.flatMap recordBounds ∧
      s.space.constraints s.packet = .ok cs ∧ ∀ v, (∀ c ∈ bounds ++ cs, c.eval v) ↔
        (s.packet.header v).IsWellFormed ∧ (s.packet.header v).number .icmpCode < 16 ∧
          s.space.contains (s.packet.header v) := by
  obtain ⟨cs, hcs, -, hval⟩ := lists_constraints (p := s.packet) hs hnumeric
  refine ⟨_, cs, rfl, hcs, fun v => ?_⟩
  have hbounds : (∀ c ∈ packetLimits.map fun l => below (s.packet.field l.1) l.2, c.eval v) ↔
      (s.packet.header v).IsWellFormed ∧ (s.packet.header v).number .icmpCode < 16 := by
    rw [forall_mem_map, ← holds_packetLimits]
    exact forall₂_congr fun l _ => Record.holds_below
  rw [forall_mem_append, hbounds, ← all_eq_true, hval, and_assoc]
  rfl

/-- Packets from or to a web server that open no session, or that tell of trouble with one of them. -/
def troubleSpace : HeaderSpace where
  srcOrDstIps := [.ofOctets 10 9 0 0 24]
  notDstIps := [.ofOctets 10 9 0 0 32]
  srcOrDstPorts := [⟨.int 80, .int 80⟩, ⟨.int 443, .int 443⟩]
  icmpCodes := [⟨.int 0, .int 40⟩]
  notIpProtocols := [.int 17]
  tcpFlags := [⟨[(.syn, .bool false)]⟩, ⟨[(.ack, .bool true), (.fin, .bool true)]⟩]

theorem troubleSpace_packets : ∃ e, (Encoding.encode {} { space := troubleSpace }).result = .ok e ∧
    (∀ f ∈ e.slice.space.unmodeled, f.2 = []) ∧ e.slice.space.IsNumeric ∧
    ∃ bounds cs, e.slice.boundConstraints = bounds ++ e.slice.records.flatMap Slice.recordBounds ∧
      e.slice.space.constraints e.slice.packet = .ok cs ∧ ∀ v, (∀ c ∈ bounds ++ cs, c.eval v) ↔
        (e.slice.packet.header v).IsWellFormed ∧ (e.slice.packet.header v).number .icmpCode < 16 ∧
          e.slice.space.contains (e.slice.packet.header v) := by
  have htrouble : ∃ e, (Encoding.encode {} { space := troubleSpace }).result = .ok e ∧
      (∀ f ∈ e.slice.space.unmodeled, f.2 = []) ∧ e.slice.space.IsNumeric := by
    decide +kernel
  obtain ⟨e, he, hs, hnumeric⟩ := htrouble
  exact ⟨e, he, hs, hnumeric, Slice.packets_areThoseOfSpace e.slice hs hnumeric⟩

end ControlPlane
