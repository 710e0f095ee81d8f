import ControlPlane.Proofs.Slice.FreshNames
import ControlPlane.Proofs.Slice.Scope
import ControlPlane.Proofs.Slice.VariableNames
import ControlPlane.Proofs.Verification.Instruments
import Std.Data.String.ToInt

/-!
# Encodings that do not interfere

Encodings that are checked together are told apart by their ids, which all of their names start with.  The names of
routers, interfaces, access lists and communities may be any text, but they only stand behind the tag, and no tag is
the beginning of a name with another tag.
-/
namespace ControlPlane

open Document

variable {f : Frame} {tag tag' : String}

/-! ## §1. Tags -/

theorem isDigit_of_mem_repr {k : Nat} {c : Char} (hc : c ∈ k.repr.toList) : c.isDigit := by
  rw [Nat.toList_repr] at hc
  exact Nat.isDigit_of_mem_toDigits (by decide) (by decide) hc

theorem mem_toString_int {n : Int} {c : Char} (hc : c ∈ (toString n).toList) : c.isDigit ∨ c = '-' := by
  have hc : c ∈ n.repr.toList := hc
  rw [Int.repr_eq_if] at hc
  split at hc
  · exact .inl (isDigit_of_mem_repr hc)
  · rw [String.toList_append, List.mem_append] at hc
    exact hc.symm.imp isDigit_of_mem_repr (by simp)

def IsTag (tag : String) : Prop := tag = "" ∨ ∃ n : Int, tag = toString n ++ "_"

/-- A name with a tag: that of a link, of something in a slice, or of a tracked constraint. -/
def Tagged (tag x : String) : Prop :=
  ∃ label ∈ ["FAILED-EDGE_", "FAILED-INTERNAL_", "SLICE-MAIN_", "constraint-"], ∃ rest, x = tag ++ (label ++ rest)

theorem not_tagged_of_number {x : String} {n : Int} (h : Tagged "" x) : ¬ Tagged (toString n ++ "_") x := by
  rintro ⟨label', -, rest', hx'⟩
  obtain ⟨label, hlabel, rest, rfl⟩ := h
  -- both texts are read from the front: a letter here, and a digit, a sign or a line there
  obtain ⟨c, cs, hcs⟩ := List.exists_cons_of_ne_nil (l := (toString n ++ "_").toList) (by simp)
  have hc : c.isDigit ∨ c = '-' ∨ c = '_' := by
    have hmem : c ∈ (toString n ++ "_").toList := hcs ▸ List.mem_cons_self
    rw [String.toList_append, List.mem_append] at hmem
    exact hmem.elim (fun h => (mem_toString_int h).imp_right .inl) fun h => .inr (.inr (by simpa using h))
  have hx := congrArg (fun s => s.toList.head?) hx'
  rw [String.toList_append (s := toString n ++ "_"), hcs, String.empty_append, String.toList_append] at hx
  simp only [List.mem_cons, List.not_mem_nil, or_false] at hlabel
  rcases hlabel with rfl | rfl | rfl | rfl <;> obtain rfl := Option.some.inj hx <;> exact absurd hc (by decide)

/-- **A name has at most one tag.** -/
theorem tagged_disjoint {x : String} (h : IsTag tag) (h' : IsTag tag') (hne : tag ≠ tag') (hx : Tagged tag x) :
    ¬ Tagged tag' x := by
  have hplain : ∀ n : Int, '_' ∉ (toString n).toList := fun n hmem =>
    (mem_toString_int hmem).elim (nofun) fun hsign => absurd hsign (by decide)
  obtain rfl | ⟨n, rfl⟩ := h
  · obtain rfl | ⟨m, rfl⟩ := h'
    · exact absurd rfl hne
    · exact not_tagged_of_number hx
  · obtain rfl | ⟨m, rfl⟩ := h'
    · exact fun hx' => not_tagged_of_number hx' hx
    · rintro ⟨label', -, rest', hx'⟩
      obtain ⟨label, -, rest, rfl⟩ := hx
      obtain ⟨hnm, -⟩ := joined_inj (hplain n) (hplain m) hx'
      exact hne (congrArg (· ++ "_") hnm)

theorem isTag_of_tagOf {id : Document} (h : Frame.tagOf id = .ok tag) : IsTag tag := by
  unfold Frame.tagOf at h
  split at h
  · exact .inl (Except.ok.inj h).symm
  · obtain ⟨n, -, h⟩ := bind_eq_ok.1 h
    exact .inr ⟨n, (Except.ok.inj h).symm⟩

/-- **Different ids have different tags.** -/
theorem tagOf_ne {id id' : Document} (hid : id.same id' = false) (h : Frame.tagOf id = .ok tag)
    (h' : Frame.tagOf id' = .ok tag') : tag ≠ tag' := by
  rintro rfl
  have hnumber : ∀ {d : Document} {n : Int}, d.asInt = .ok n → d.number? = some (n, 0) := by
    intro d n hd
    cases d <;> simp_all [Document.asInt, Document.number?]
  have hempty : ∀ n : Int, toString n ++ "_" ≠ "" := by
    intro n hn
    simpa using congrArg String.toList hn
  refine Bool.false_ne_true (hid.symm.trans ?_)
  unfold Frame.tagOf at h h'
  split at h <;> split at h'
  next hzero hzero' =>
    -- both are zero, however they are written
    obtain ⟨m, hm, hm0⟩ := (same_of_number rfl).1 hzero
    obtain ⟨k, hk, hk0⟩ := (same_of_number rfl).1 hzero'
    exact (same_of_number hk).2 ⟨m, hm, numberEq_trans hk0 hm0⟩
  next =>
    obtain ⟨n, -, h'⟩ := bind_eq_ok.1 h'
    exact absurd ((Except.ok.inj h').trans (Except.ok.inj h).symm) (hempty n)
  next =>
    obtain ⟨n, -, h⟩ := bind_eq_ok.1 h
    exact absurd ((Except.ok.inj h).trans (Except.ok.inj h').symm) (hempty n)
  next =>
    obtain ⟨n, hn, h⟩ := bind_eq_ok.1 h
    obtain ⟨m, hm, h'⟩ := bind_eq_ok.1 h'
    have htexts : toString n ++ "_" = toString m ++ "_" := (Except.ok.inj h).trans (Except.ok.inj h').symm
    obtain rfl : n = m := Int.repr_injective (String.append_left_inj _ |>.1 htexts)
    exact (same_of_number (hnumber hm)).2 ⟨(n, 0), hnumber hn, by simp [Document.numberEq]⟩

/-! ## §2. Variables of a frame -/

theorem Record.planned_name {name : String} {router : Name} {p : Protocol} {history : Option (Enumeration Protocol)}
    {z : Variable} (hz : z ∈ (planned f name router p history).ownDeclarations) : ∃ rest, z.name = name ++ rest := by
  have hnumber : ∀ wanted a, z ∈ optional (numberIf wanted name a) → ∃ rest, z.name = name ++ rest := by
    intro wanted a hz
    cases wanted <;> simp [optional, numberIf, Term.variable?] at hz
    exact ⟨"_" ++ a.suffix, by rw [hz, String.append_assoc]⟩
  have henumeration : ∀ {α : Type} (suffix : String) (values : List α),
      z ∈ (Enumeration.planned (name ++ suffix) values).declarations → ∃ rest, z.name = name ++ rest := by
    intro α suffix values hz
    unfold Enumeration.planned at hz
    split at hz <;> simp [Enumeration.declarations, Term.variable?] at hz
    exact ⟨suffix, by rw [hz]⟩
  unfold ownDeclarations at hz
  simp only [List.mem_append] at hz
  obtain hz | hz | hz | hz | hz | hz | hz | hz | hz | hz | hz := hz
  · simp [optional, planned, Term.variable?] at hz
    exact ⟨"_permitted", by rw [hz]⟩
  · exact hnumber true .prefixLength hz
  · exact hnumber _ .metric hz
  · exact hnumber _ .localPref hz
  · exact hnumber _ .adminDist hz
  · exact hnumber _ .med hz
  · simp only [planned, internalIf] at hz
    split at hz <;> simp [optional, Term.variable?] at hz
    exact ⟨"_bgpInternal", by rw [hz]⟩
  · simp only [planned, typeIf] at hz
    split at hz
    · exact henumeration _ _ hz
    · simp at hz
  · simp only [planned, areaOf] at hz
    split at hz
    · exact henumeration _ _ hz
    · simp at hz
  · exact hnumber _ .routerId hz
  · obtain ⟨e, he, hz⟩ := List.mem_flatMap.1 hz
    simp only [planned, communitiesOf] at he
    split at he
    · obtain ⟨c, -, rfl⟩ := List.mem_map.1 he
      simp [optional, Term.variable?] at hz
      exact ⟨communitySuffix c, by rw [hz]⟩
    · cases he

namespace Frame

theorem tagged_name (f : Frame) (rest : String) : Tagged f.tag (f.name ++ rest) :=
  ⟨"SLICE-MAIN_", by simp, rest, String.append_assoc ..⟩

theorem tagged_failureName (f : Frame) (e : Edge) : Tagged f.tag (failureName f.tag e) := by
  unfold failureName
  split
  · exact ⟨"FAILED-EDGE_", by simp, _, by simp only [String.append_assoc]; rfl⟩
  · exact ⟨"FAILED-INTERNAL_", by simp, _, by simp only [String.append_assoc]; rfl⟩

theorem tagged_accessName (router interface : Name) (d : Direction) (list : Document) :
    Tagged f.tag (f.accessName router interface d list) := by
  unfold accessName
  simpa only [String.append_assoc] using f.tagged_name _

theorem tagged_recordName (router : Name) (protocol place kind rest : String) :
    Tagged f.tag (f.recordName router protocol place kind ++ rest) := by
  unfold recordName
  simpa only [String.append_assoc] using f.tagged_name _

theorem tagged_planned {router : Name} {protocol place kind : String} {p : Protocol} {z : Variable}
    (hz : z ∈ (Record.planned f (f.recordName router protocol place kind) router p).declarations) :
    Tagged f.tag z.name := by
  obtain ⟨rest, hrest⟩ := @Record.planned_name f _ router p none z hz
  exact hrest ▸ tagged_recordName ..

theorem tagged_bestRecord {router : Name} {label : String} {p : Protocol} {z : Variable}
    (hz : z ∈ (f.bestRecord router label p).declarations) : Tagged f.tag z.name := by
  obtain hz | hz := List.mem_append.1 hz
  · have hz : z ∈ (Enumeration.planned (f.recordName router label "none" "BEST" ++ "_history")
        (f.protocols router)).declarations := hz
    unfold Enumeration.planned at hz
    split at hz <;> simp [Enumeration.declarations, Term.variable?] at hz
    exact hz ▸ tagged_recordName ..
  · obtain ⟨rest, hrest⟩ := Record.planned_name hz
    exact hrest ▸ tagged_recordName ..

theorem tagged_record {x : Record} (hx : x ∈ f.records) {z : Variable} (hz : z ∈ x.declarations) :
    Tagged f.tag z.name := by
  obtain hx | ⟨l, hl, hx⟩ | ⟨a, ha, rfl⟩ := mem_records hx
  · obtain ⟨router, -, hx⟩ := List.mem_flatMap.1 hx
    obtain rfl | ⟨p, -, rfl⟩ := mem_bestRecords hx <;> exact tagged_bestRecord hz
  · obtain ⟨d, -, q, -, e, -, rfl⟩ := mem_allLanes.1 hl
    obtain rfl | ⟨hused, rfl⟩ := hx
    · have hz : z ∈ (f.exportRecord d.router q e).declarations := hz
      unfold exportRecord sharedExport at hz
      split at hz <;> exact tagged_planned hz
    · have hz : z ∈ (f.importRecord d.router q e).declarations := hz
      rw [(importRecord_eq hused).2] at hz
      exact tagged_planned hz
  · obtain ⟨m, -, hm⟩ := List.mem_filterMap.1 ha
    obtain ⟨-, -, neighbor, -, rfl⟩ := announcementOf_eq hm
    exact tagged_planned hz

/-- **The variables of a frame** have its tag. -/
theorem tagged_layout {z : Variable} (hz : z ∈ f.layoutVariables) : Tagged f.tag z.name := by
  have hz := layoutVariables_perm.subset hz
  unfold commonVariables at hz
  simp only [List.mem_append] at hz
  obtain (hz | hz | hz | hz | hz) | hz := hz
  · obtain ⟨e, -, rfl⟩ := List.mem_map.1 hz
    exact f.tagged_failureName e
  · obtain hz | hz := List.mem_append.1 hz
    · obtain ⟨a, -, rfl⟩ := List.mem_map.1 hz
      exact f.tagged_name _
    · obtain ⟨a, -, rfl⟩ := List.mem_map.1 hz
      show Tagged f.tag (f.name ++ "tcp-" ++ a.label)
      simpa only [String.append_assoc] using f.tagged_name _
  · obtain ⟨site, -, hz⟩ := List.mem_flatMap.1 hz
    obtain ⟨e, -, hz⟩ := List.mem_flatMap.1 hz
    simp only [List.mem_cons, List.not_mem_nil, or_false] at hz
    obtain rfl | rfl := hz <;> simpa only [String.append_assoc] using f.tagged_name _
  · obtain ⟨l, hl, rfl⟩ := List.mem_map.1 hz
    rw [incoming_name hl]
    exact tagged_recordName ..
  · obtain ⟨site, -, hz⟩ := List.mem_flatMap.1 hz
    obtain ⟨e, -, hz⟩ := List.mem_flatMap.1 hz
    -- an access list has one variable, and no list has none
    have haccess : ∀ d list, z ∈ f.accessVariables e d list → Tagged f.tag z.name := by
      intro d list hz
      cases list with
      | none => cases hz
      | some a =>
        obtain rfl := List.mem_singleton.1 hz
        exact tagged_accessName ..
    exact (List.mem_append.1 hz).elim (haccess _ _) (haccess _ _)
  · obtain ⟨x, hx, hz⟩ := List.mem_flatMap.1 hz
    exact tagged_record hx hz

end Frame

/-! ## §3. Ledgers and instruments -/

abbrev Term.IsTagged {ty : Ty} (tag : String) (t : Term ty) : Prop := t.Within fun x => Tagged tag x.name

/-- The declared variables have a tag, and so have those that the required terms are about. -/
structure Ledger.IsTagged (tag : String) (l : Ledger) : Prop where
  vars : ∀ x ∈ l.vars, Tagged tag x.name
  required : ∀ c ∈ l.required, c.IsTagged tag

theorem Ledger.IsTagged.extend {l l' : Ledger} {vs : List Variable} {cs : List (Term .bool)} (hl : l.IsTagged tag)
    (h : l.Extends l' vs cs) (hvs : ∀ x ∈ vs, Tagged tag x.name) (hcs : ∀ c ∈ cs, c.IsTagged tag) :
    l'.IsTagged tag where
  vars := h.vars ▸ List.forall_mem_append.2 ⟨hl.vars, hvs⟩
  required := h.required ▸ List.forall_mem_append.2 ⟨hl.required, hcs⟩

theorem Frame.dataForwarding_isTagged (f : Frame) (e : Edge) : (f.dataForwarding e).IsTagged f.tag := by
  simpa only [dataForwarding, Term.within_boolVar, String.append_assoc] using f.tagged_name _

/-- **An instrument** measures with variables of its slice. -/
theorem Instrument.add_isTagged {s : Slice} (hs : IsClosed s) (known : List Name) (i : Instrument) {l : Ledger}
    (hl : l.IsTagged s.tag) : ((i.add s known).runOn l).2.IsTagged s.tag := by
  have hname : ∀ kind target r, Tagged s.tag (variableName s kind target r) := by
    intro kind target r
    unfold variableName
    simpa only [String.append_assoc] using s.tagged_name _
  have hmeasured : ∀ label, ∀ x ∈ measuredVariables s label, Tagged s.tag x.name := by
    intro label x hx
    obtain ⟨r, -, hx⟩ := List.mem_flatMap.1 hx
    simp only [List.mem_cons, List.not_mem_nil, or_false] at hx
    obtain rfl | rfl := hx <;> exact hname ..
  have hscope : IsInScope s fun x => Tagged s.tag x.name := ⟨hs, fun _ e _ => s.dataForwarding_isTagged e,
    fun _ e _ => within_forwardsAcross (s.dataForwarding_isTagged e) fun _ _ _ _ => Frame.tagged_accessName ..⟩
  obtain ⟨vs, cs, hext, hadds⟩ := add_adds s known i l
  have hvs : ∀ x ∈ vs, Tagged s.tag x.name := by
    intro x hx
    obtain ⟨kind, target, r, hx⟩ := hadds.own x hx
    exact hx ▸ hname kind target r
  exact hl.extend hext hvs
    (hadds.within _ hscope (fun e _ => s.dataForwarding_isTagged e) (fun t _ => hmeasured t.shown) hvs)

/-! ## §4. Encodings -/

namespace Encoding

def measure (e : Encoding) (is : List (List Name × Instrument)) : Encoding :=
  is.foldl (fun e i => (e.extend (i.2.add e.slice i.1)).2) e

variable {n n' : Network} {req req' : Request} {d e : Encoding}

section

variable (h : (encode n req).result = .ok e)
include h

theorem vars_areTagged : ∀ x ∈ e.ledger.vars, Tagged e.slice.tag x.name := by
  obtain ⟨before, after, ds, hbetween, hdraws⟩ := encode_transfers h
  rw [hbetween.vars, hdraws.vars, hbetween.layout]
  refine List.forall_mem_append.2 ⟨fun x hx => Frame.tagged_layout hx, fun x hx => ?_⟩
  -- a fresh variable stands behind the label of the transfers
  obtain ⟨d, -, rfl⟩ := List.mem_map.1 hx
  show Tagged e.slice.tag (e.slice.name ++ "SSA_" ++ d.base ++ toString d.id)
  simpa only [String.append_assoc] using e.slice.tagged_name _

theorem ledger_isTagged : e.ledger.IsTagged e.slice.tag := by
  obtain ⟨n', t, -, ht⟩ := encode_ok h
  have hvars := vars_areTagged h
  exact ⟨hvars, fun c hc x hx => hvars x (ofTopology_isClosed ht c hc x hx)⟩

/-- **Adding instruments keeps the tag**, whether or not they can all be added. -/
theorem measure_isTagged (is : List (List Name × Instrument)) :
    (e.measure is).slice = e.slice ∧ (e.measure is).ledger.IsTagged e.slice.tag := by
  -- one instrument after the other, on the same slice
  have hrun : ∀ (is : List (List Name × Instrument)) (d : Encoding), d.slice = e.slice →
      d.ledger.IsTagged e.slice.tag →
      (d.measure is).slice = e.slice ∧ (d.measure is).ledger.IsTagged e.slice.tag := by
    intro is
    induction is with
    | nil => exact fun d hd hl => ⟨hd, hl⟩
    | cons i rest ih =>
      intro d hd hl
      refine ih _ hd ?_
      rw [← hd] at hl ⊢
      exact Instrument.add_isTagged (hd ▸ Instrument.isClosed_of_encode h) i.1 i.2 hl
  exact hrun is e rfl (ledger_isTagged h)

theorem tagOf_id : Frame.tagOf req.id = .ok e.slice.tag := by
  obtain ⟨n', t, -, ht⟩ := encode_ok h
  obtain ⟨tag, f, _, _, _, _, _, htag, hbuild, -, -, hslice, -⟩ := ofTopology_ok ht
  obtain ⟨-, -, -, rfl, -⟩ := Frame.build_ok hbuild
  rw [hslice]
  exact htag

end

theorem tagged_trackingNames {name : String} (h : name ∈ e.trackingNames) : Tagged e.slice.tag name := by
  obtain ⟨i, -, rfl⟩ := List.mem_map.1 h
  exact ⟨"constraint-", by simp, toString (i + 1), String.append_assoc ..⟩

theorem exists_joined (hapart : ∀ x, Tagged tag x → ¬ Tagged tag' x) (v w : Valuation) :
    ∃ u, (∀ c : Term .bool, c.IsTagged tag → c.eval u = c.eval v) ∧
      ∀ c : Term .bool, c.IsTagged tag' → c.eval u = c.eval w := by
  classical
  let u : Valuation :=
    { bool := fun x => if Tagged tag x then v.bool x else w.bool x
      int := fun x => if Tagged tag x then v.int x else w.int x
      bits := fun x => if Tagged tag x then v.bits x else w.bits x }
  refine ⟨u, fun c hc => c.eval_of_mentioned fun x hx => ?_, fun c hc => c.eval_of_mentioned fun x hx => ?_⟩
  · have hx := hc x hx
    cases hsort : x.sort <;> simp [Valuation.AgreesAt, hsort, u, hx]
  · have hx : ¬ Tagged tag x.name := fun h => hapart x.name h (hc x hx)
    cases hsort : x.sort <;> simp [Valuation.AgreesAt, hsort, u, hx]

/-- **Encodings of different ids do not interfere**, of whatever networks and after whatever instruments were added to
them: they share no variable, no constraint of one is about a variable of the other, and no two constraints are tracked
under one name.  So neither restricts the other. -/
theorem measure_isApart (hd : (encode n req).result = .ok d) (he : (encode n' req').result = .ok e)
    (hid : req.id.same req'.id = false) (is js : List (List Name × Instrument)) :
    (∀ x ∈ (d.measure is).ledger.vars, ∀ y ∈ (e.measure js).ledger.vars, x.name ≠ y.name) ∧
    (∀ x ∈ (d.measure is).ledger.vars, ∀ c ∈ (e.measure js).ledger.required, ∀ y ∈ c.mentioned, x.name ≠ y.name) ∧
    (∀ y ∈ (e.measure js).ledger.vars, ∀ c ∈ (d.measure is).ledger.required, ∀ x ∈ c.mentioned, x.name ≠ y.name) ∧
    (∀ a ∈ (d.measure is).trackingNames, ∀ b ∈ (e.measure js).trackingNames, a ≠ b) ∧
    ∀ v w, ∃ u, (∀ c ∈ (d.measure is).ledger.required, c.eval u = c.eval v) ∧
      ∀ c ∈ (e.measure js).ledger.required, c.eval u = c.eval w := by
  obtain ⟨hslice, hfirst⟩ := measure_isTagged hd is
  obtain ⟨hslice', hsecond⟩ := measure_isTagged he js
  have hd := tagOf_id hd
  have he := tagOf_id he
  have hapart : ∀ x, Tagged d.slice.tag x → ¬ Tagged e.slice.tag x := fun x hx hy =>
    tagged_disjoint (isTag_of_tagOf hd) (isTag_of_tagOf he) (tagOf_ne hid hd he) hx hy
  refine ⟨fun x hx y hy hxy => ?_, fun x hx c hc y hy hxy => ?_, fun y hy c hc x hx hxy => ?_,
    fun a ha b hb hab => ?_, fun v w => ?_⟩
  · exact hapart _ (hfirst.vars x hx) (hxy ▸ hsecond.vars y hy)
  · exact hapart _ (hfirst.vars x hx) (hxy ▸ hsecond.required c hc y hy)
  · exact hapart _ (hfirst.required c hc x hx) (hxy ▸ hsecond.vars y hy)
  · have ha := tagged_trackingNames ha
    have hb := tagged_trackingNames hb
    rw [hslice] at ha
    rw [hslice'] at hb
    exact hapart a ha (hab ▸ hb)
  · obtain ⟨u, hu, hu'⟩ := exists_joined hapart v w
    exact ⟨u, fun c hc => hu c (hfirst.required c hc), fun c hc => hu' c (hsecond.required c hc)⟩

theorem linked_measure_isApart : ∃ d e, (encode linkedNetwork {}).result = .ok d ∧
    (encode linkedNetwork { routers := .list [.text "A"], id := .int 1 }).result = .ok e ∧
    (d.measure [([], .routerReachability (.text "B"))]).ledger.vars.length = 73 ∧
    (e.measure [([], .loop (.text "A"))]).ledger.vars.length = 60 ∧
    ∀ x ∈ (d.measure [([], .routerReachability (.text "B"))]).ledger.vars,
      ∀ y ∈ (e.measure [([], .loop (.text "A"))]).ledger.vars, x.name ≠ y.name := by
  have hfirst : ∃ d, (encode linkedNetwork {}).result = .ok d ∧
      (d.measure [([], .routerReachability (.text "B"))]).ledger.vars.length = 73 := by
    decide +kernel
  have hsecond : ∃ e, (encode linkedNetwork { routers := .list [.text "A"], id := .int 1 }).result = .ok e ∧
      (e.measure [([], .loop (.text "A"))]).ledger.vars.length = 60 := by
    decide +kernel
  obtain ⟨d, hd, hcount⟩ := hfirst
  obtain ⟨e, he, hcount'⟩ := hsecond
  exact ⟨d, e, hd, he, hcount, hcount', (measure_isApart hd he (by decide +kernel) _ _).1⟩

end Encoding

end ControlPlane
