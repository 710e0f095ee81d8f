import ControlPlane.Proofs.Slice.Transfers
import ControlPlane.Proofs.Text.Joined
import ControlPlane.Proofs.Topology.Samples

/-!
# The names of fresh variables

The transfers of an encoding draw numbers for their variables, and no number is drawn twice.  A name is a base name
followed by the number, with nothing in between, so two variables can only have the same name where one base name is
the other one followed by digits (`Fresh.isNumbered_of_name_eq`).  The base names of numbers and of OSPF types do not
end in digits; those of communities may.
-/
namespace ControlPlane

open List

variable {d : Fresh} {cs : List Community} {ds : List Fresh} {label : String} {c : Term .bool}

/-! ## §1. Transfers of a slice -/

namespace Frame

variable {f : Frame} {rs : List Redistribution} {r : Router} {m : Lane} {best x : Record}

def freshLabel (f : Frame) : String := f.name ++ "SSA_"

theorem carriesOnly_of_mem (hx : x ∈ f.records) : x.CarriesOnly f.communities := by
  obtain ⟨⟨name, router, p, history, rfl, -⟩, -⟩ := isPlanned_of_mem hx
  intro e he
  have he : e ∈ Record.communitiesOf f (f.planFor router) name p := he
  unfold Record.communitiesOf at he
  split at he
  · obtain ⟨c, hc, rfl⟩ := mem_map.1 he
    exact hc
  · cases he

/-- Routes of networks are put before other requirements. -/
theorem isEquation_foldlM_ite {α : Type} {cond : α → Term .bool} {g : α → Except Failure (Term .bool)} {xs : List α}
    {init : Term .bool} (hinit : init.isEquation = false)
    (h : xs.foldlM (fun acc a => do return .ite (cond a) (← g a) acc) init = Except.ok c) : c.isEquation = false := by
  induction xs generalizing init with
  | nil =>
    cases h
    exact hinit
  | cons a rest ih =>
    obtain ⟨y, hy, h⟩ := bind_eq_ok.1 h
    obtain ⟨t, -, hy⟩ := bind_eq_ok.1 hy
    cases hy
    exact ih rfl h

theorem transfer_draws (t : Transfer) (policy : List Statement) (hx : t.source ∈ f.records) :
    (t.compute policy).Draws False t.freshLabel f.communities fun _ => True := by
  have hcs := Record.carriesOnly_isInvariant f.communities
  exact Transfer.compute_draws hcs (carriesOnly_of_mem hx) fun p hp =>
    Transfer.body_draws hcs (Transfer.callPolicy_draws hcs t False.elim _) policy False.elim hp

theorem import_draws :
    ((f.slice rs).importConstraint r m).Draws False f.freshLabel f.communities fun _ => True := by
  unfold Slice.importConstraint
  split
  · exact .pure trivial
  · split
    · refine .lift False.elim fun c hc => .require ?_
      unfold Slice.connectedConstraint at hc
      split at hc
      · cases hc
        rfl
      · obtain ⟨route, -, hc⟩ := bind_eq_ok.1 hc
        cases hc
        rfl
    · exact .lift False.elim fun c hc => .require (isEquation_foldlM_ite rfl hc)
    · cases hsource : (f.slice rs).across? m .incoming with
      | none => exact .require rfl
      | some source =>
        exact .lift False.elim fun _ _ => .lift False.elim fun _ _ =>
          .bind (transfer_draws _ _ (mem_across hsource)) fun _ _ => .require rfl

theorem export_draws (hbest : best ∈ f.records) (subnets : List Subnet) :
    ((f.slice rs).exportConstraint r best subnets m).Draws False f.freshLabel f.communities
      fun _ => True := by
  unfold Slice.exportConstraint
  dsimp only
  split
  · exact .require rfl
  · refine .lift False.elim fun _ _ => .bind (transfer_draws _ _ hbest) fun _ _ => ?_
    intro l result l' hrun
    cases result with
    | error cause => exact False.elim
    | ok x =>
      obtain ⟨c, l₁, hfold, hrun⟩ := Build.runOn_bind_ok.1 hrun
      obtain ⟨hroutes, rfl⟩ := Build.runOn_foldlM_lift hfold
      exact (Build.Draws.require (isEquation_foldlM_ite rfl hroutes)).ok hrun

theorem lanes_draws (hname : r.name ∈ f.topology.names) (p : Protocol) :
    ((f.slice rs).laneConstraints r p).Draws False f.freshLabel f.communities fun _ => True := by
  refine .lift False.elim fun subnets _ => .lift False.elim fun best hbest => ?_
  rw [slice_overall hname] at hbest
  cases hbest
  refine .bind (P := fun _ => True) (.foldlM (fun m _ exported _ => ?_) trivial) fun exported _ => ?_
  · refine .bind import_draws fun _ _ => ?_
    split
    · exact .pure trivial
    · exact .bind (export_draws (mem_overall hname) subnets) fun _ _ => .pure trivial
  · split
    · exact .require rfl
    · exact .pure trivial

/-- **The transfers of a slice only add fresh variables.** -/
theorem transfers_draws :
    (f.slice rs).transferConstraints.Draws False f.freshLabel f.communities fun _ => True := by
  refine .forM fun r hr => .forM fun p _ => lanes_draws ?_ p
  obtain ⟨site, hsite, rfl⟩ := mem_map.1 hr
  exact mem_map_of_mem hsite

end Frame

/-! ## §2. Names -/

theorem endsInDigit_verdict : ∀ b ∈ ["RETURN", "RETURN-ASSIGNED"], endsInDigit b = false := by decide +kernel

theorem endsInDigit_attributeName (a : IntAttribute) : endsInDigit (Transfer.attributeName a) = false := by
  cases a <;> decide +kernel

theorem endsInDigit_ospfTypeName : endsInDigit Transfer.ospfTypeName = false := by decide +kernel

/-- No community has the value of another base name followed by digits. -/
def Community.areSeparated (cs : List Community) : Bool :=
  cs.all fun c => (["RETURN", "RETURN-ASSIGNED"] ++ cs.map Community.value).all fun base => !isNumbered base c.value

namespace Fresh

variable {d' : Fresh}

def ExtendsName (cs : List Community) (d d' : Fresh) : Prop :=
  d.sort = .bool ∧ d'.sort = .bool ∧ (∃ c ∈ cs, d'.base = c.value) ∧ isNumbered d.base d'.base

theorem extendsName_of_isNumbered (hd' : d'.IsNamed cs) (hsort : d.sort = d'.sort)
    (h : isNumbered d.base d'.base) : d.ExtendsName cs d' := by
  have hends := endsInDigit_of_isNumbered h
  cases d' with
  | bool b i value =>
    refine ⟨hsort, rfl, hd'.resolve_left fun hverdict => ?_, h⟩
    exact Bool.false_ne_true ((endsInDigit_verdict b hverdict).symm.trans hends)
  | int b i value =>
    obtain ⟨a, rfl⟩ := hd'
    cases (endsInDigit_attributeName a).symm.trans hends
  | bits b width i value =>
    obtain ⟨rfl, -⟩ := hd'
    cases endsInDigit_ospfTypeName.symm.trans hends

/-- **Two fresh variables of one name.** -/
theorem extendsName_of_declared_eq (hd : d.IsNamed cs) (hd' : d'.IsNamed cs) (hid : d.id ≠ d'.id)
    (h : d.declared label = d'.declared label) : d.ExtendsName cs d' ∨ d'.ExtendsName cs d := by
  obtain ⟨hname, hsort⟩ := Variable.mk.inj h
  obtain hb | hb := isNumbered_of_append hid hname
  · rw [isNumbered_append_left] at hb
    exact .inl (extendsName_of_isNumbered hd' hsort hb)
  · rw [isNumbered_append_left] at hb
    exact .inr (extendsName_of_isNumbered hd hsort.symm hb)

theorem not_extendsName (hcs : Community.areSeparated cs) (hd : d.IsNamed cs) : ¬ d.ExtendsName cs d' := by
  rintro ⟨hbool, -, ⟨c, hc, hbase⟩, h⟩
  have hseparated := all_eq_true.1 (all_eq_true.1 hcs c hc) d.base
  rw [hbase] at h
  rw [h] at hseparated
  refine Bool.false_ne_true (hseparated ?_)
  cases d with
  | bool b i value =>
    refine mem_append.2 (hd.imp_right ?_)
    rintro ⟨c', hc', rfl⟩
    exact mem_map_of_mem hc'
  | int _ _ _ => cases hbool
  | bits _ _ _ _ => cases hbool

end Fresh

/-! ## §3. Fresh variables of an encoding -/

namespace Ledger.Draws

variable {l l' : Ledger}

/-- **No number is drawn twice**, and names are only repeated where one base name extends another. -/
theorem pairwise (h : Draws label cs l ds l') : ds.Pairwise fun d d' =>
    d.declared label = d'.declared label → d.ExtendsName cs d' ∨ d'.ExtendsName cs d := by
  have hids : ds.Pairwise fun d d' => d.id ≠ d'.id :=
    pairwise_map.1 (h.ids.2 ▸ nodup_range')
  exact hids.imp_of_mem fun hd hd' hid => Fresh.extendsName_of_declared_eq (h.isNamed _ hd) (h.isNamed _ hd') hid

theorem nodup (h : Draws label cs l ds l') (hcs : Community.areSeparated cs) :
    (ds.map (Fresh.declared label)).Nodup := by
  refine pairwise_map.2 (h.pairwise.imp_of_mem fun hd hd' hclash heq => ?_)
  obtain hextends | hextends := hclash heq
  · exact Fresh.not_extendsName hcs (h.isNamed _ hd) hextends
  · exact Fresh.not_extendsName hcs (h.isNamed _ hd') hextends

end Ledger.Draws

def Term.defined? : Term .bool → Option Variable
  | .eq x _ => x.variable?
  | _ => none

theorem Term.isEquation_of_defined? {x : Variable} (h : c.defined? = some x) : c.isEquation := by
  unfold Term.defined? at h
  split at h
  · rfl
  · cases h

theorem Fresh.defined?_equation (label : String) (d : Fresh) :
    (d.equation label).defined? = some (d.declared label) := by
  cases d <;> rfl

theorem filter_eq_singleton {α β : Type} [BEq β] [LawfulBEq β] {g : α → β} {xs : List α} {a : α}
    (hxs : (xs.map g).Nodup) (ha : a ∈ xs) : (xs.filter fun y => g y == g a) = [a] := by
  induction xs with
  | nil => cases ha
  | cons y rest ih =>
    obtain ⟨hy, hrest⟩ := nodup_cons.1 hxs
    obtain rfl | ha := mem_cons.1 ha
    · rw [filter_cons, if_pos (beq_self_eq_true (g a)), filter_eq_nil_iff.2]
      exact fun z hz hg => hy (beq_iff_eq.1 hg ▸ mem_map_of_mem hz)
    · rw [filter_cons_of_neg, ih hrest ha]
      exact fun hg => hy (beq_iff_eq.1 hg ▸ mem_map_of_mem ha)

theorem Fresh.filter_defined? {since : List (Term .bool)} (hds : (ds.map (Fresh.declared label)).Nodup)
    (hsince : since.filter Term.isEquation = ds.map (Fresh.equation label)) (hd : d ∈ ds) :
    (since.filter fun c => c.defined? == some (d.declared label)) = [d.equation label] := by
  have hequations : (since.filter fun c => c.defined? == some (d.declared label)) =
      (since.filter Term.isEquation).filter fun c => c.defined? == some (d.declared label) := by
    rw [filter_filter]
    refine filter_congr fun c _ => ?_
    cases hc : c.defined? == some (d.declared label) with
    | false => rfl
    | true => rw [Term.isEquation_of_defined? (beq_iff_eq.1 hc), Bool.and_self]
  have hmap : (ds.filter fun d' => ((d'.equation label).defined? == some (d.declared label))) =
      ds.filter fun d' => d'.declared label == d.declared label :=
    filter_congr fun d' _ => by rw [defined?_equation, Option.some_beq_some]
  rw [hequations, hsince, filter_map]
  exact congrArg (List.map _) (hmap.trans (filter_eq_singleton hds hd))

namespace Encoding

structure TransfersBetween (e : Encoding) (before after : Ledger) : Prop where
  run : e.slice.transferConstraints.runOn before = (.ok (), after)
  layout : before.vars = e.slice.layoutVariables
  /-- Nothing is declared afterwards. -/
  vars : e.ledger.vars = after.vars
  required : after.required <+: e.ledger.required

theorem encode_transfers {n : Network} {req : Request} {e : Encoding} (h : (encode n req).result = .ok e) :
    ∃ before after ds, e.TransfersBetween before after ∧
      before.Draws e.slice.freshLabel e.slice.communities ds after := by
  rw [encode_result] at h
  obtain ⟨t, -, h⟩ := bind_eq_ok.1 h
  obtain ⟨tag, f, failures, rs, l₁, l₂, cs, -, hbuild, -, -, hslice, hvars, -, htransfers, -,
    hledger⟩ := ofTopology_ok h
  obtain ⟨-, -, -, rfl, rfl, -⟩ := Frame.build_ok hbuild
  have hdraws := hslice ▸ htransfers
  obtain ⟨⟨ds, hds⟩, -⟩ := Frame.transfers_draws.ok hdraws
  refine ⟨l₁, l₂, ds, ⟨htransfers, ?_, ?_, ?_⟩, ?_⟩
  · rw [hslice]
    exact hvars
  · rw [hledger.vars, append_nil]
  · rw [hledger.required]
    exact prefix_append _ _
  · rw [hslice]
    exact hds

/-- **Fresh variables are pairwise distinct where base names can be told from the numbers behind them.**  Transfers
declare nothing but fresh variables, and require one equation for each and no other.  Two of them are only the same
variable when both are boolean and the base name of one is the value of a community that extends the base name of the
other by digits; where no community does so, every fresh variable is defined by exactly one equation. -/
theorem fresh_isDistinct {n : Network} {req : Request} {e : Encoding} (h : (encode n req).result = .ok e) :
    ∃ (before after : Ledger) (since : List (Term .bool)) (ds : List Fresh), e.TransfersBetween before after ∧
      after.vars = before.vars ++ ds.map (Fresh.declared e.slice.freshLabel) ∧
      after.required = before.required ++ since ∧
      since.filter Term.isEquation = ds.map (Fresh.equation e.slice.freshLabel) ∧
      (ds.Pairwise fun d d' => d.declared e.slice.freshLabel = d'.declared e.slice.freshLabel →
        d.ExtendsName e.slice.communities d' ∨ d'.ExtendsName e.slice.communities d) ∧
      (Community.areSeparated e.slice.communities →
        (ds.map (Fresh.declared e.slice.freshLabel)).Nodup ∧
        ∀ d ∈ ds, (since.filter fun c => c.defined? == some (d.declared e.slice.freshLabel)) =
          [d.equation e.slice.freshLabel]) := by
  obtain ⟨before, after, ds, htransfers, hds⟩ := encode_transfers h
  obtain ⟨since, hrequired, hequations⟩ := hds.equations
  exact ⟨before, after, since, ds, htransfers, hds.vars, hrequired, hequations, hds.pairwise, fun hcs =>
    ⟨hds.nodup hcs, fun d hd => Fresh.filter_defined? (hds.nodup hcs) hequations hd⟩⟩

/-- A router that marks what its neighbor announces with communities. -/
def markingNetwork : Network where
  routers := [{
    name := .text "A"
    interfaces := [.port "i" (.ofOctets 10 0 0 1 30)]
    bgp := some (.speaker "1.1.1.1" [
      { Neighbor.peer (.ofOctets 10 0 0 2) 2 1 with importPolicy := .text "mark" }])
    policies := [⟨.text "mark", [.addCommunity (.inline [.text "65000:1"]),
      .deleteCommunity (.inline [.text "65000:2"]), .simple .exitAccept]⟩] }]

theorem marking_fresh_isDistinct : ∃ e, (encode markingNetwork {}).result = .ok e ∧
    Community.areSeparated e.slice.communities ∧
    ∃ ds : List Fresh, ds.length = 6 ∧
      e.ledger.vars = e.slice.layoutVariables ++ ds.map (Fresh.declared e.slice.freshLabel) ∧
      (ds.map (Fresh.declared e.slice.freshLabel)).Nodup := by
  have hmarking : ∃ e, (encode markingNetwork {}).result = .ok e ∧
      Community.areSeparated e.slice.communities ∧
      e.ledger.vars.length = e.slice.layoutVariables.length + 6 := by
    decide +kernel
  obtain ⟨e, he, hseparated, hlength⟩ := hmarking
  obtain ⟨before, after, since, ds, htransfers, hvars, -, -, -, hdistinct⟩ := fresh_isDistinct he
  rw [htransfers.layout, ← htransfers.vars] at hvars
  refine ⟨e, he, hseparated, ds, ?_, hvars, (hdistinct hseparated).1⟩
  rw [hvars, List.length_append, List.length_map] at hlength
  exact Nat.add_left_cancel hlength

end Encoding

end ControlPlane
