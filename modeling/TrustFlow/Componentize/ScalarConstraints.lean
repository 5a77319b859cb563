import TrustFlow.Componentize.Component
import TrustFlow.Componentize.ReaderSpec

/-! # Constraints of single values

A declaration writes its constraint into the message of the attribute, and the reader reads
it from there.  Allowed values arrive as they were declared.  A bound never does: the
declaration sets a flag that the message does not have, and fails.

* `accepts_iff` — parameters that are valid but for the constraint of one attribute are
  accepted exactly if that attribute passes its checks;
* `scalar_constraints_enforced_iff` — when a declared constraint is what the reader enforces. -/

namespace TrustFlow.Componentize

variable {F α : Type}

/-- The values that a constraint admits. -/
structure Constraint.Admits [LT α] (con : Constraint α) (v : α) : Prop where
  allowed : ∀ values, con.allowedValues = some values → v ∈ values
  lower : ∀ bound, con.lowerBound = some bound →
    bound < v ∨ con.lowerBoundInclusive = true ∧ v = bound
  upper : ∀ bound, con.upperBound = some bound →
    v < bound ∨ con.upperBoundInclusive = true ∧ v = bound

theorem Constraint.admits_iff [LT α] {con : Constraint α} (hlower : con.lowerBound = none)
    (hupper : con.upperBound = none) {v : α} :
    con.Admits v ↔ ∀ values, con.allowedValues = some values → v ∈ values :=
  ⟨fun h => h.allowed, fun h => ⟨h, by simp [hlower], by simp [hupper]⟩⟩

/-! ## Parameters that are otherwise valid -/

def Accepts (py : PyLibs F) (d : ComponentDef F) (p : NodeEvalParam F) : Prop :=
  ∃ reader, EvalParamReader.new py p d = .ok reader

/-- The parameters give this message for the path. -/
def NodeEvalParam.Gives (p : NodeEvalParam F) (path : String) (message : Attribute F) : Prop :=
  (path, message) ∈ p.attrPaths.zip p.attrs ∧ message.isNa = false

def AttributeDef.unconstrained (py : PyLibs F) (attr : AttributeDef F) : AttributeDef F :=
  { attr with atomic := { attr.atomic with
    allowedValues := .new py, lowerBoundEnabled := false, upperBoundEnabled := false } }

/-- The definition without the constraint of one attribute. -/
def ComponentDef.unconstrain (py : PyLibs F) (d : ComponentDef F) (attr : AttributeDef F) :
    ComponentDef F :=
  { d with attrs := d.attrs.map fun b =>
    if b.fullName = attr.fullName then b.unconstrained py else b }

theorem passes_unconstrained (py : PyLibs F) (slot : Slot F) (attr : AttributeDef F) :
    Passes py slot (attr.unconstrained py) := by
  refine ⟨?_, rfl, rfl⟩
  cases htype : attr.type <;>
    simp [checkAllowedValues, AttributeDef.unconstrained, htype, Attribute.new]

theorem attrReads_iff_unconstrained {py : PyLibs F} {attr : AttributeDef F}
    {message : Attribute F} {v : Value F} :
    AttrReads py (some (.message message)) attr v ↔
      AttrReads py (some (.message message)) (attr.unconstrained py) v ∧
        Passes py (.message message) attr := by
  constructor
  · rintro ⟨htype, message', hentry | hentry, hpasses, hv⟩
    · cases hentry
      exact ⟨⟨htype, message, .inl rfl, passes_unconstrained py _ attr, hv⟩, hpasses⟩
    · cases hentry.1
  · rintro ⟨⟨htype, message', hentry | hentry, _, hv⟩, hpasses⟩
    · cases hentry
      exact ⟨htype, message, .inl rfl, hpasses, hv⟩
    · cases hentry.1

section Unconstrain

variable {py : PyLibs F} {d : ComponentDef F} {attr : AttributeDef F} {p : NodeEvalParam F}

theorem fullName_unconstrain :
    (d.unconstrain py attr).attrs.map AttributeDef.fullName =
      d.attrs.map AttributeDef.fullName := by
  simp only [ComponentDef.unconstrain, List.map_map]
  apply List.map_congr_left
  intro b _
  by_cases hname : b.fullName = attr.fullName
  · simp only [Function.comp_apply, if_pos hname]
    rfl
  · simp only [Function.comp_apply, if_neg hname]

theorem ioMatches_unconstrain : IoMatches p (d.unconstrain py attr) ↔ IoMatches p d :=
  ⟨fun h => ⟨h.1, h.2, h.3, h.4, h.5⟩, fun h => ⟨h.1, h.2, h.3, h.4, h.5⟩⟩

/-- Among the attributes of a definition, the constraint of one of them matters only for the
    message that was given for it. -/
theorem reads_unconstrain {message : Attribute F}
    (hnodup : (d.attrs.map AttributeDef.fullName).Nodup) (hattr : attr ∈ d.attrs)
    (hslot : p.slot attr.fullName = some (.message message)) :
    (∀ b ∈ d.attrs, ∃ v, AttrReads py (p.slot b.fullName) b v) ↔
      (∀ b ∈ (d.unconstrain py attr).attrs, ∃ v, AttrReads py (p.slot b.fullName) b v) ∧
        Passes py (.message message) attr := by
  have hown : ∀ b ∈ d.attrs, b.fullName = attr.fullName → b = attr := fun b hb hname =>
    List.inj_on_of_nodup_map hnodup hb hattr hname
  simp only [ComponentDef.unconstrain, List.forall_mem_map]
  constructor
  · intro h
    refine ⟨fun b hb => ?_, ?_⟩
    · by_cases hname : b.fullName = attr.fullName
      · obtain rfl := hown b hb hname
        obtain ⟨v, hv⟩ := h b hb
        rw [hslot, attrReads_iff_unconstrained] at hv
        rw [if_pos rfl]
        exact ⟨v, hslot.symm ▸ hv.1⟩
      · rw [if_neg hname]
        exact h b hb
    · obtain ⟨v, hv⟩ := h attr hattr
      rw [hslot, attrReads_iff_unconstrained] at hv
      exact hv.2
  · rintro ⟨h, hpasses⟩ b hb
    have hb' := h b hb
    by_cases hname : b.fullName = attr.fullName
    · obtain rfl := hown b hb hname
      rw [if_pos rfl] at hb'
      obtain ⟨v, hv⟩ := hb'
      refine ⟨v, ?_⟩
      rw [hslot, attrReads_iff_unconstrained]
      exact ⟨hslot ▸ hv, hpasses⟩
    · rwa [if_neg hname] at hb'

end Unconstrain

theorem accepts_iff {py : PyLibs F} {d : ComponentDef F} (hd : d.WellNamed)
    {attr : AttributeDef F} (hattr : attr ∈ d.attrs) {p : NodeEvalParam F}
    {message : Attribute F} (hgives : p.Gives attr.fullName message) :
    Accepts py d p ↔ Accepts py (d.unconstrain py attr) p ∧ Passes py (.message message) attr := by
  simp only [Accepts, EvalParamReader.exists_new_iff, fullName_unconstrain, ioMatches_unconstrain]
  by_cases honce : GivenOnce p.given
  · have hslot : p.slot attr.fullName = some (.message message) := by
      rw [NodeEvalParam.slot, available_of_mem honce hgives.1 hgives.2, Option.map_some]
    rw [reads_unconstrain hd.fullName_nodup hattr hslot]
    constructor
    · rintro ⟨hheader, hio, honce, hnodup, ⟨hreads, hpasses⟩, hcols⟩
      exact ⟨⟨hheader, hio, honce, hnodup, hreads, hcols⟩, hpasses⟩
    · rintro ⟨⟨hheader, hio, honce, hnodup, hreads, hcols⟩, hpasses⟩
      exact ⟨hheader, hio, honce, hnodup, ⟨hreads, hpasses⟩, hcols⟩
  · simp [honce]

/-! ## Exactly the declared constraint -/

/-- The declaration succeeds, and in every definition that lists the attribute, parameters that
    are otherwise valid and give it a message are accepted exactly if the message is admitted. -/
def ExactlyEnforced (py : PyLibs F)
    (declare : Component F → Except CompError (Component F)) (admits : Attribute F → Prop) :
    Prop :=
  ∃ attr, (∀ c, declare c = .ok (c.append attr)) ∧
    ∀ c d, Component.Reachable py c → c.definition.1 = .ok d → attr ∈ d.attrs →
      ∀ p message, p.Gives attr.fullName message → Accepts py (d.unconstrain py attr) p →
        (Accepts py d p ↔ admits message)

/-- A declaration is enforced exactly as soon as it succeeds, if its checks are those of the
    constraint. -/
theorem exactlyEnforced_iff (py : PyLibs F) (kind : ScalarKind F α) (args : AttrArgs α)
    (con : Constraint α) {admits : Attribute F → Prop}
    (hpasses : ∀ attr, kind.Stored py args con attr →
      ∀ message, Passes py (.message message) attr ↔ admits message) :
    ExactlyEnforced py (fun c => c.append <$> kind.attributeDef py args con) admits ↔
      ∃ attr, kind.attributeDef py args con = .ok attr := by
  constructor
  · rintro ⟨attr, hdeclare, _⟩
    have hnew := hdeclare (Component.new py "" "" "" "")
    cases hdef : kind.attributeDef py args con with
    | error e =>
      rw [hdef] at hnew
      cases hnew
    | ok attr => exact ⟨attr, rfl⟩
  · rintro ⟨attr, hattr⟩
    refine ⟨attr, fun c => by rw [hattr]; rfl, ?_⟩
    intro c d hc hd hmem p message hgives hvalid
    have hnamed := (Component.definition_wellNamed hc.wellNamed).2 d hd
    rw [accepts_iff hnamed hmem hgives, and_iff_right hvalid]
    exact hpasses attr (kind.stored_of_attributeDef hattr) message

theorem exists_createPb_iff {py : PyLibs F} {kind : ScalarKind F α} {args : AttrArgs α}
    {con : Constraint α} (hlist : args.isList = false)
    (hchecks : kind.sanityChecks args con = .ok ()) :
    (∃ attr, kind.attributeDef py args con = .ok attr) ↔
      con.lowerBound = none ∧ con.upperBound = none ∧
        (∃ d, kind.storeDefault py args = .ok d) ∧ ∃ a, kind.storeAllowed py con = .ok a := by
  simp only [kind.attributeDef_eq_ok, kind.createPb_eq_ok, hchecks, true_and]
  constructor
  · rintro ⟨attr, hlower, hupper, d, hd, a, ha, _⟩
    exact ⟨hlower, hupper, ⟨d, hd⟩, a, ha⟩
  · rintro ⟨hlower, hupper, ⟨d, hd⟩, a, ha⟩
    exact ⟨_, hlower, hupper, d, hd, a, ha, _, ScalarKind.storeListLimits_of_scalar hlist _, rfl⟩

theorem ScalarKind.Stored.type_of_scalar {py : PyLibs F} {kind : ScalarKind F α}
    {args : AttrArgs α} {con : Constraint α} {attr : AttributeDef F}
    (h : kind.Stored py args con attr) (hlist : args.isList = false) :
    attr.type = kind.oneType := by
  rw [h.type, hlist]
  rfl

/-- Of a declaration that was stored, only the allowed values are left to check. -/
theorem ScalarKind.Stored.passes_iff [LT α] {py : PyLibs F} {kind : ScalarKind F α}
    {args : AttrArgs α} {con : Constraint α} {attr : AttributeDef F}
    (h : kind.Stored py args con attr) (slot : Slot F) {v : α}
    (hallowed : checkAllowedValues py slot attr = .ok true ↔
      ∀ values, con.allowedValues = some values → v ∈ values) :
    Passes py slot attr ↔ con.Admits v := by
  have hlower : checkLowerBound py slot attr = .ok true := by
    simp [checkLowerBound, h.noLowerBound.2]
  have hupper : checkUpperBound py slot attr = .ok true := by
    simp [checkUpperBound, h.noUpperBound.2]
  rw [Constraint.admits_iff h.noLowerBound.1 h.noUpperBound.1, ← hallowed]
  exact and_iff_left ⟨hlower, hupper⟩

/-! ## Integers -/

abbrev InInt64 (x : Int) : Prop := -2 ^ 63 ≤ x ∧ x < 2 ^ 63

theorem passes_int_iff {py : PyLibs F} {args : AttrArgs Int} {con : Constraint Int}
    (hlist : args.isList = false) (hempty : con.allowedValues ≠ some [])
    {attr : AttributeDef F} (h : (intKind F).Stored py args con attr) (message : Attribute F) :
    Passes py (.message message) attr ↔ con.Admits message.i64.toInt := by
  have htype : attr.type = .int := h.type_of_scalar hlist
  refine h.passes_iff _ ?_
  have hstored := h.allowedValues
  cases hallowed : con.allowedValues with
  | none =>
    simp only [ScalarKind.storeAllowed, hallowed, Except.ok.injEq] at hstored
    simp [checkAllowedValues, htype, ← hstored, Attribute.new]
  | some values =>
    simp only [ScalarKind.storeAllowed, hallowed, intKind, bind_eq_ok] at hstored
    obtain ⟨xs, hxs, heq⟩ := hstored
    have hi64s : attr.atomic.allowedValues.i64s = xs := by
      rw [← Except.ok.inj heq]
      rfl
    have hvalues : xs.map Int64.toInt = values := map_eq_of_mapM toInt64_eq_ok hxs
    have hlength : xs.length ≠ 0 := by
      intro hzero
      rw [List.length_eq_zero_iff.mp hzero] at hvalues
      exact hempty (by rw [hallowed, ← hvalues]; rfl)
    have hmem : message.i64 ∈ xs ↔ message.i64.toInt ∈ values := by
      rw [← hvalues, List.mem_map]
      constructor
      · intro hx
        exact ⟨_, hx, rfl⟩
      · rintro ⟨x, hx, heq⟩
        rwa [← Int64.toInt_inj.mp heq]
    simp [checkAllowedValues, htype, hi64s, hlength, Slot.field, hmem, pure, Except.pure]

theorem exists_storeDefault_int_iff {py : PyLibs F} {args : AttrArgs Int}
    (hlist : args.isList = false) :
    (∃ d, (intKind F).storeDefault py args = .ok d) ↔
      ∀ d, args.defaultValue = some d → ∃ x, d = .one x ∧ InInt64 x := by
  cases hdefault : args.defaultValue with
  | none => simp [ScalarKind.storeDefault, hdefault]
  | some d =>
    cases d with
    | many xs => simp [ScalarKind.storeDefault, hdefault, hlist]
    | one x =>
      simp only [ScalarKind.storeDefault, hdefault, hlist, intKind, bind_eq_ok]
      constructor
      · rintro ⟨_, y, hy, _⟩ d hd
        cases hd
        exact ⟨x, rfl, exists_toInt64_iff.mp ⟨y, hy⟩⟩
      · intro h
        obtain ⟨_, heq, hx⟩ := h _ rfl
        cases heq
        obtain ⟨y, hy⟩ := exists_toInt64_iff.mpr hx
        exact ⟨_, y, hy, rfl⟩

theorem exists_storeAllowed_int_iff {py : PyLibs F} {con : Constraint Int} :
    (∃ a, (intKind F).storeAllowed py con = .ok a) ↔
      ∀ values, con.allowedValues = some values → ∀ x ∈ values, InInt64 x := by
  cases hallowed : con.allowedValues with
  | none => simp [ScalarKind.storeAllowed, hallowed]
  | some values =>
    have hrange : (∃ xs, values.mapM toInt64 = .ok xs) ↔ ∀ x ∈ values, InInt64 x := by
      rw [exists_mapM_eq_ok]
      exact forall₂_congr fun _ _ => exists_toInt64_iff
    simp only [ScalarKind.storeAllowed, hallowed, intKind, bind_eq_ok, Option.some.injEq,
      forall_eq', ← hrange]
    constructor
    · rintro ⟨_, xs, hxs, _⟩
      exact ⟨xs, hxs⟩
    · rintro ⟨xs, hxs⟩
      exact ⟨_, xs, hxs, rfl⟩

/-- What an integer attribute must be declared with for its message to be stored: no bound,
    and integers of 64 bits. -/
structure Storable (args : AttrArgs Int) (con : Constraint Int) : Prop where
  noLowerBound : con.lowerBound = none
  noUpperBound : con.upperBound = none
  default : ∀ d, args.defaultValue = some d → ∃ x, d = .one x ∧ InInt64 x
  allowed : ∀ values, con.allowedValues = some values → ∀ x ∈ values, InInt64 x

theorem int_enforced_iff {py : PyLibs F} {args : AttrArgs Int} {con : Constraint Int}
    (hlist : args.isList = false) (hempty : con.allowedValues ≠ some [])
    (hchecks : (intKind F).sanityChecks args con = .ok ()) :
    ExactlyEnforced py (fun c => c.intAttr py args con)
      (fun message => con.Admits message.i64.toInt) ↔ Storable args con := by
  refine (exactlyEnforced_iff py (intKind F) args con fun attr hattr =>
    passes_int_iff hlist hempty hattr).trans ?_
  rw [exists_createPb_iff hlist hchecks, exists_storeDefault_int_iff hlist,
    exists_storeAllowed_int_iff]
  constructor
  · rintro ⟨hlower, hupper, hdefault, hallowed⟩
    exact ⟨hlower, hupper, hdefault, hallowed⟩
  · rintro ⟨hlower, hupper, hdefault, hallowed⟩
    exact ⟨hlower, hupper, hdefault, hallowed⟩

/-! ## Texts -/

theorem passes_str_iff {py : PyLibs F} {args : AttrArgs String} {con : Constraint String}
    (hlist : args.isList = false) (hempty : con.allowedValues ≠ some [])
    {attr : AttributeDef F} (h : (strKind py).Stored py args con attr) (message : Attribute F) :
    Passes py (.message message) attr ↔ con.Admits message.s := by
  have htype : attr.type = .string := h.type_of_scalar hlist
  refine h.passes_iff _ ?_
  have hstored := h.allowedValues
  cases hallowed : con.allowedValues with
  | none =>
    simp only [ScalarKind.storeAllowed, hallowed, Except.ok.injEq] at hstored
    simp [checkAllowedValues, htype, ← hstored, Attribute.new]
  | some values =>
    simp only [ScalarKind.storeAllowed, hallowed, strKind, Except.ok.injEq] at hstored
    have hne : values ≠ [] := fun h => hempty (by rw [hallowed, h])
    simp [checkAllowedValues, htype, ← hstored, Attribute.new, hne, Slot.field, pure, Except.pure]

theorem str_enforced_iff {py : PyLibs F} {args : AttrArgs String}
    {allowedValues : Option (List String)} (hlist : args.isList = false)
    (hempty : allowedValues ≠ some [])
    (hchecks : (strKind py).sanityChecks args { allowedValues := allowedValues } = .ok ()) :
    ExactlyEnforced py (fun c => c.strAttr py args allowedValues)
        (fun message => ∀ values, allowedValues = some values → message.s ∈ values) ↔
      ∀ d, args.defaultValue = some d → ∃ x, d = .one x := by
  have hpasses : ∀ attr,
      (strKind py).Stored py args { allowedValues := allowedValues } attr → ∀ message,
        Passes py (.message message) attr ↔
          ∀ values, allowedValues = some values → message.s ∈ values :=
    fun attr hattr message => (passes_str_iff hlist hempty hattr message).trans
      (Constraint.admits_iff rfl rfl)
  refine (exactlyEnforced_iff py (strKind py) args _ hpasses).trans ?_
  rw [exists_createPb_iff hlist hchecks]
  have hallowed : ∃ a, (strKind py).storeAllowed py { allowedValues := allowedValues } = .ok a := by
    cases allowedValues with
    | none => exact ⟨_, rfl⟩
    | some values => exact ⟨_, rfl⟩
  simp only [true_and, hallowed, and_true]
  cases hdefault : args.defaultValue with
  | none => simp [ScalarKind.storeDefault, hdefault]
  | some d => cases d <;> simp [ScalarKind.storeDefault, hdefault, hlist, strKind]

/-! ## Scalar constraints -/

/-- A constraint of an integer attribute is enforced exactly as declared if and only if it has no
    bound and its integers have 64 bits; a constraint of a text attribute always is, if its
    default value is not a list.  Names and texts are `String`s, which protobuf can encode; it
    refuses a Python text with a lone surrogate. -/
theorem scalar_constraints_enforced_iff (py : PyLibs F) :
    (∀ (args : AttrArgs Int) (con : Constraint Int), args.isList = false →
      con.allowedValues ≠ some [] → (intKind F).sanityChecks args con = .ok () →
      (ExactlyEnforced py (fun c => c.intAttr py args con)
        (fun message => con.Admits message.i64.toInt) ↔ Storable args con)) ∧
    (∀ (args : AttrArgs String) (allowedValues : Option (List String)), args.isList = false →
      allowedValues ≠ some [] →
      (strKind py).sanityChecks args { allowedValues := allowedValues } = .ok () →
      (ExactlyEnforced py (fun c => c.strAttr py args allowedValues)
          (fun message => ∀ values, allowedValues = some values → message.s ∈ values) ↔
        ∀ d, args.defaultValue = some d → ∃ x, d = .one x)) :=
  ⟨fun _ _ hlist hempty hchecks => int_enforced_iff hlist hempty hchecks,
    fun _ _ hlist hempty hchecks => str_enforced_iff hlist hempty hchecks⟩

/-- Floats as integers, and texts as they are. -/
def plainPy : PyLibs Int where
  cleanText x _ := x
  repr x := "'" ++ x ++ "'"
  reprFloat x := toString x
  zero := 0
  eq x y := x == y
  lt x y := x < y
  isClose x y := x == y
  toSingle x := x

/-- An integer from 1 to 16, with the default 6. -/
def maxDepth : AttrArgs Int where
  name := "max_depth"
  desc := "Maximum depth of a tree."
  isList := false
  isOptional := true
  defaultValue := some (.one 6)

def maxDepthBounds : Constraint Int where
  lowerBound := some 1
  upperBound := some 16
  lowerBoundInclusive := true
  upperBoundInclusive := true

/-- Without bounds the same attribute may have allowed values. -/
def maxDepthValues : Constraint Int where
  allowedValues := some [3, 6, 9]

def objective : AttrArgs String where
  name := "objective"
  desc := "Learning objective."
  isList := false
  isOptional := false

theorem scalar_constraints_enforced_allowed :
    ExactlyEnforced plainPy (fun c => c.intAttr plainPy maxDepth maxDepthValues)
        (fun message => maxDepthValues.Admits message.i64.toInt) ∧
      ExactlyEnforced plainPy
        (fun c => c.strAttr plainPy objective (some ["linear", "logistic"]))
        (fun message => ∀ values, some ["linear", "logistic"] = some values →
          message.s ∈ values) := by
  have hdefault : ∀ d, maxDepth.defaultValue = some d → ∃ x, d = .one x ∧ InInt64 x := by
    rintro d ⟨⟩
    exact ⟨6, rfl, by decide⟩
  have hallowed : ∀ values, maxDepthValues.allowedValues = some values →
      ∀ x ∈ values, InInt64 x := by
    rintro values ⟨⟩
    decide
  exact ⟨((scalar_constraints_enforced_iff plainPy).1 maxDepth maxDepthValues rfl
      (by simp [maxDepthValues]) rfl).mpr ⟨rfl, rfl, hdefault, hallowed⟩,
    ((scalar_constraints_enforced_iff plainPy).2 objective _ rfl (by simp) rfl).mpr
      (by simp [objective])⟩

/-- The arguments pass the sanity checks, and the declaration fails. -/
theorem bounded_declaration_fails :
    (intKind Int).sanityChecks maxDepth maxDepthBounds = .ok () ∧
      (∀ c, Component.intAttr plainPy c maxDepth maxDepthBounds =
        .error (.attributeError "has_lower_bound")) ∧
      ¬ ExactlyEnforced plainPy (fun c => c.intAttr plainPy maxDepth maxDepthBounds)
        (fun message => maxDepthBounds.Admits message.i64.toInt) := by
  refine ⟨rfl, fun c => rfl, ?_⟩
  rintro ⟨attr, hdeclare, _⟩
  cases hdeclare (Component.new plainPy "" "" "" "")

end TrustFlow.Componentize
