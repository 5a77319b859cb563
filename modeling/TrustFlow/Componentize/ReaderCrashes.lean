import TrustFlow.Componentize.Definition
import TrustFlow.Componentize.ListConstraints
import TrustFlow.Componentize.ReaderSpec

/-! # Crashes of the reader

The reader keeps messages and values that it has read in one dictionary.  It asks for a field
of what it finds, so an entry that is read a second time is an AttributeError.  A definition
keeps the names of attributes apart, but not the full names of columns.

* `crashFree_of_readable` — no crash, if the columns have names of their own;
* `crash_of_clash` — parameters that crash the reader, if one of them has not;
* `readerCrashFree_iff` — the definitions that never crash the reader. -/

namespace TrustFlow.Componentize

variable {F α : Type}

def IsEvalParamError (e : CompError) : Prop := ∃ msg, e = .evalParamError msg

/-- Whatever parameters are given, the reader is constructed or raises `EvalParamError`. -/
def CrashFree (py : PyLibs F) (d : ComponentDef F) : Prop :=
  ∀ p, ThrowsOnly IsEvalParamError (EvalParamReader.new py p d)

/-! ## Columns that can be read -/

/-- Some number of columns is within the limits, where a maximum of 0 is none. -/
def Column.Fillable (col : Column F) : Prop :=
  col.attr.colMaxCntInclusive.toInt = 0 ∨
    0 ≤ col.attr.colMaxCntInclusive.toInt ∧
      col.attr.colMinCntInclusive.toInt ≤ col.attr.colMaxCntInclusive.toInt

/-- As few columns as the minimum asks for. -/
def Column.filling (py : PyLibs F) (col : Column F) : Attribute F :=
  { Attribute.new py with ss := List.replicate col.attr.colMinCntInclusive.toInt.toNat "" }

theorem Column.Fillable.filling {col : Column F} (h : col.Fillable) (py : PyLibs F) :
    checkTableAttrColCnt (.message (col.filling py)) col.attr = .ok true := by
  rw [checkTableAttrColCnt_iff]
  simp only [Column.filling, List.length_replicate]
  rcases h with h | ⟨h, h'⟩ <;> omega

theorem fillable_of_columnReads {py : PyLibs F} {entry : Option (Slot F)} {col : Column F}
    {v : Value F} (h : ColumnReads py entry col v) : col.Fillable := by
  obtain ⟨_, message, _, hcount, _⟩ := h
  rw [checkTableAttrColCnt_iff] at hcount
  unfold Column.Fillable
  omega

/-- A column that is reached has a full name that is none of `names` and no earlier column has. -/
def Readable (names : List String) (cols : List (Column F)) : Prop :=
  ∀ before col after, cols = before ++ col :: after → (∀ b ∈ before, b.Fillable) →
    col.fullName ∉ names ∧ ∀ b ∈ before, col.fullName ≠ b.fullName

theorem readable_nil (names : List String) : Readable names ([] : List (Column F)) := by
  intro before col after heq
  simp at heq

theorem readable_cons {names : List String} {col : Column F} {cols : List (Column F)} :
    Readable names (col :: cols) ↔
      col.fullName ∉ names ∧ (col.Fillable → Readable (col.fullName :: names) cols) := by
  constructor
  · intro h
    refine ⟨(h [] col cols rfl (by simp)).1, fun hcol before col' after heq hbefore => ?_⟩
    obtain ⟨hnames, hearlier⟩ := h (col :: before) col' after (by rw [heq]; rfl)
      (List.forall_mem_cons.mpr ⟨hcol, hbefore⟩)
    rw [List.forall_mem_cons] at hearlier
    exact ⟨List.not_mem_cons_of_ne_of_not_mem hearlier.1 hnames, hearlier.2⟩
  · rintro ⟨hnew, hrest⟩ before col' after heq hbefore
    cases before with
    | nil =>
      cases heq
      exact ⟨hnew, by simp⟩
    | cons b before =>
      cases heq
      rw [List.forall_mem_cons] at hbefore
      obtain ⟨hnames, hearlier⟩ := hrest hbefore.1 before col' after rfl hbefore.2
      rw [List.mem_cons, not_or] at hnames
      exact ⟨hnames.2, List.forall_mem_cons.mpr ⟨hnames.1, hearlier⟩⟩

/-! ## No crash -/

theorem throwsOnly_ensure (cond : Bool) (msg : String) :
    ThrowsOnly IsEvalParamError (ensure cond msg) := by
  cases cond with
  | true => exact .of_ok rfl
  | false => exact .of_error ⟨msg, rfl⟩

theorem throwsOnly_checkHeader (p : NodeEvalParam F) (d : ComponentDef F) :
    ThrowsOnly IsEvalParamError (EvalParamReader.checkHeader p d) :=
  (throwsOnly_ensure _ _).bind fun _ _ => (throwsOnly_ensure _ _).bind fun _ _ =>
    throwsOnly_ensure _ _

theorem throwsOnly_collectAttrs (given : List (String × Attribute F))
    (slots : Dict String (Slot F)) : ThrowsOnly IsEvalParamError (collectAttrs given slots) := by
  induction given generalizing slots with
  | nil => exact .of_ok rfl
  | cons pair given ih =>
    obtain ⟨path, attr⟩ := pair
    simp only [collectAttrs]
    split
    · exact .of_error ⟨_, rfl⟩
    · exact ih _

/-- The entry of the name is not a value that was read before. -/
def Unread (slots : Dict String (Slot F)) (name : String) : Prop :=
  ∀ v, Dict.get? slots name ≠ some (.value v)

theorem checks_message (py : PyLibs F) (message : Attribute F) (attr : AttributeDef F) :
    (∃ b, checkAllowedValues py (.message message) attr = .ok b) ∧
      (∃ b, checkLowerBound py (.message message) attr = .ok b) ∧
      ∃ b, checkUpperBound py (.message message) attr = .ok b := by
  refine ⟨?_, ?_, ?_⟩
  · unfold checkAllowedValues
    split
    · split <;> exact ⟨_, rfl⟩
    · split <;> exact ⟨_, rfl⟩
    · split <;> exact ⟨_, rfl⟩
    · exact ⟨_, rfl⟩
  · unfold checkLowerBound
    split
    · exact ⟨_, rfl⟩
    · split <;> exact ⟨_, rfl⟩
  · unfold checkUpperBound
    split
    · exact ⟨_, rfl⟩
    · split <;> exact ⟨_, rfl⟩

theorem throwsOnly_getValue (message : Attribute F) (type : AttrType) :
    ThrowsOnly IsEvalParamError (getValue (.message message) type) := by
  cases type with
  | unspecified => exact .of_error ⟨_, rfl⟩
  | other number => exact .of_error ⟨_, rfl⟩
  | _ => exact .of_ok rfl

theorem throwsOnly_readAttr {py : PyLibs F} {slots : Dict String (Slot F)}
    {attr : AttributeDef F} (h : Unread slots attr.fullName) :
    ThrowsOnly IsEvalParamError (readAttr py slots attr) := by
  have hgiven : ThrowsOnly IsEvalParamError (givenOrDefault slots attr) := by
    unfold givenOrDefault
    split
    · exact .of_ok rfl
    · split
      · exact .of_ok rfl
      · exact .of_error ⟨_, rfl⟩
  refine (throwsOnly_ensure _ _).bind fun _ _ => hgiven.bind fun slot hslot => ?_
  obtain ⟨message, rfl⟩ : ∃ message, slot = .message message := by
    cases slot with
    | message message => exact ⟨message, rfl⟩
    | value v =>
      rcases givenOrDefault_eq_ok.mp hslot with hvalue | ⟨_, _, hvalue⟩
      · exact absurd hvalue (h v)
      · cases hvalue
  obtain ⟨⟨b, hallowed⟩, ⟨b', hlower⟩, b'', hupper⟩ := checks_message py message attr
  exact (ThrowsOnly.of_ok hallowed).bind fun _ _ => (throwsOnly_ensure _ _).bind fun _ _ =>
    (ThrowsOnly.of_ok hlower).bind fun _ _ => (throwsOnly_ensure _ _).bind fun _ _ =>
    (ThrowsOnly.of_ok hupper).bind fun _ _ => (throwsOnly_ensure _ _).bind fun _ _ =>
    (throwsOnly_getValue message attr.type).bind fun _ _ => .of_ok rfl

theorem throwsOnly_readAttrs {py : PyLibs F} {slots : Dict String (Slot F)}
    {attrs : List (AttributeDef F)} (hnodup : (attrs.map AttributeDef.fullName).Nodup)
    (hunread : ∀ name, Unread slots name) :
    ThrowsOnly IsEvalParamError (attrs.foldlM (readAttr py) slots) := by
  let I (rest : List (AttributeDef F)) (slots : Dict String (Slot F)) : Prop :=
    (rest.map AttributeDef.fullName).Nodup ∧ ∀ attr ∈ rest, Unread slots attr.fullName
  refine ThrowsOnly.foldlM I (fun h => throwsOnly_readAttr (h.2 _ List.mem_cons_self)) ?_
    ⟨hnodup, fun attr _ => hunread attr.fullName⟩
  rintro attr rest slots slots' ⟨hnodup, hunread⟩ hturn
  rw [List.map_cons, List.nodup_cons] at hnodup
  refine ⟨hnodup.2, fun b hb v => ?_⟩
  have hne : b.fullName ≠ attr.fullName := fun heq => hnodup.1 (heq ▸ List.mem_map_of_mem hb)
  rw [readAttr_frame hturn hne]
  exact hunread b (List.mem_cons_of_mem attr hb) v

theorem throwsOnly_readColumn {py : PyLibs F} {slots : Dict String (Slot F)} {col : Column F}
    (h : Unread slots col.fullName) : ThrowsOnly IsEvalParamError (readColumn py slots col) := by
  unfold readColumn readInputAttr
  refine (throwsOnly_ensure _ _).bind fun _ _ => ?_
  have hmessage : ∃ message, (Dict.get? slots (inputAttrName col.input col.attr.name)).getD
      (.message (.new py)) = .message message := by
    cases hslot : Dict.get? slots (inputAttrName col.input col.attr.name) with
    | none => exact ⟨.new py, rfl⟩
    | some slot =>
      cases slot with
      | message message => exact ⟨message, rfl⟩
      | value v => exact absurd hslot (h v)
  obtain ⟨message, hmessage⟩ := hmessage
  simp only [hmessage]
  have hcount : ∃ b, checkTableAttrColCnt (.message message) col.attr = .ok b := by
    simp only [checkTableAttrColCnt, Slot.field, ok_bind]
    split
    · exact ⟨false, rfl⟩
    · split <;> exact ⟨_, rfl⟩
  obtain ⟨b, hcount⟩ := hcount
  exact (ThrowsOnly.of_ok hcount).bind fun _ _ => (throwsOnly_ensure _ _).bind fun _ _ => .of_ok rfl

/-- What was read before has one of the names that no column to come may have. -/
def Ahead (cols : List (Column F)) (slots : Dict String (Slot F)) : Prop :=
  ∃ names, (∀ name, name ∉ names → Unread slots name) ∧ Readable names cols

theorem Ahead.unread {col : Column F} {cols : List (Column F)} {slots : Dict String (Slot F)}
    (h : Ahead (col :: cols) slots) : Unread slots col.fullName := by
  obtain ⟨names, hunread, hreadable⟩ := h
  exact hunread _ (readable_cons.mp hreadable).1

theorem Ahead.step {py : PyLibs F} {col : Column F} {cols : List (Column F)}
    {slots slots' : Dict String (Slot F)} (h : Ahead (col :: cols) slots)
    (hturn : readColumn py slots col = .ok slots') : Ahead cols slots' := by
  obtain ⟨names, hunread, hreadable⟩ := h
  obtain ⟨_, ⟨v, rfl, hv⟩, rfl⟩ := (readColumn_writesOnce py).ok_iff.mp hturn
  refine ⟨col.fullName :: names, fun name hname w => ?_,
    (readable_cons.mp hreadable).2 (fillable_of_columnReads hv)⟩
  rw [List.mem_cons, not_or] at hname
  rw [Dict.get?_set, if_neg hname.1]
  exact hunread name hname.2 w

theorem throwsOnly_readInputs {py : PyLibs F} {l : List (DistData × IoDef F)}
    {slots : Dict String (Slot F)} {inputs : Dict String DistData}
    (h : Ahead (columns (l.map Prod.snd)) slots) :
    ThrowsOnly IsEvalParamError (l.foldlM (readInput py) (slots, inputs)) := by
  let I (rest : List (DistData × IoDef F)) (state : Dict String (Slot F) × Dict String DistData) :=
    Ahead (columns (rest.map Prod.snd)) state.1
  -- within one input, with the columns of the inputs to come still ahead
  let J (rest : List (DistData × IoDef F)) (cols : List (Column F))
      (slots : Dict String (Slot F)) :=
    Ahead (cols ++ columns (rest.map Prod.snd)) slots
  refine ThrowsOnly.foldlM I ?_ ?_ h
  · intro x rest state hstate
    simp only [I, List.map_cons, columns_cons] at hstate
    refine (throwsOnly_ensure _ _).bind fun _ _ => (throwsOnly_ensure _ _).bind fun _ _ => ?_
    rw [foldlM_readInputAttr]
    refine (ThrowsOnly.foldlM (J rest) (fun h => throwsOnly_readColumn h.unread)
      (fun h hturn => h.step hturn) hstate).bind fun _ _ => .of_ok rfl
  · intro x rest state state' hstate hturn
    simp only [I, List.map_cons, columns_cons] at hstate
    obtain ⟨_, _, slots', hslots', rfl⟩ := readInput_eq_ok.mp hturn
    rw [foldlM_readInputAttr] at hslots'
    exact foldlM_rest (J rest) (fun h hturn => h.step hturn) hstate hslots'

theorem throwsOnly_readOutputs (l : List (String × IoDef F)) (outputs : Dict String String) :
    ThrowsOnly IsEvalParamError (l.foldlM readOutput outputs) :=
  ThrowsOnly.foldlM (fun _ _ => True)
    (fun _ => (throwsOnly_ensure _ _).bind fun _ _ => .of_ok rfl) (fun _ _ => trivial) trivial

theorem Ahead.of_length {p : NodeEvalParam F} {d : ComponentDef F}
    {slots : Dict String (Slot F)} (hlen : p.inputs.length = d.inputs.length)
    (h : Ahead (columns d.inputs) slots) :
    Ahead (columns ((p.inputs.zip d.inputs).map Prod.snd)) slots := by
  rw [List.map_snd_zip hlen.ge]
  exact h

theorem crashFree_of_readable {py : PyLibs F} {d : ComponentDef F}
    (hnodup : (d.attrs.map AttributeDef.fullName).Nodup)
    (h : Readable (d.attrs.map AttributeDef.fullName) (columns d.inputs)) : CrashFree py d := by
  intro p
  refine (throwsOnly_checkHeader p d).bind fun _ _ =>
    (throwsOnly_collectAttrs _ _).bind fun given hgiven => ?_
  have hunread : ∀ name, Unread given name := by
    intro name v
    rw [EvalParamReader.get?_given hgiven, NodeEvalParam.slot]
    cases available p.given name <;> simp
  refine (throwsOnly_readAttrs hnodup hunread).bind fun slots hslots => ?_
  have hahead : Ahead (columns d.inputs) slots := by
    refine ⟨d.attrs.map AttributeDef.fullName, fun name hname v => ?_, h⟩
    rw [((readAttr_writesOnce py).of_foldlM hslots).2.2 name hname]
    exact hunread name v
  refine (throwsOnly_ensure _ _).bind fun _ hlen => ?_
  rw [ensure_eq_ok, decide_eq_true_eq] at hlen
  exact (throwsOnly_readInputs (hahead.of_length hlen)).bind fun _ _ =>
    (throwsOnly_ensure _ _).bind fun _ _ => (throwsOnly_readOutputs _ _).bind fun _ _ => .of_ok rfl

/-! ## A crash -/

/-- The first column that may not have its name, with all columns before it. -/
theorem exists_first_clash {names : List String} (hnames : names.Nodup) {cols : List (Column F)}
    (h : ¬ Readable names cols) :
    ∃ before col after, cols = before ++ col :: after ∧ (∀ b ∈ before, b.Fillable) ∧
      (names ++ before.map Column.fullName).Nodup ∧
      col.fullName ∈ names ++ before.map Column.fullName := by
  induction cols generalizing names with
  | nil => exact absurd (readable_nil names) h
  | cons col cols ih =>
    by_cases hcol : col.fullName ∈ names
    · exact ⟨[], col, cols, rfl, by simp, by simpa using hnames, by simpa using hcol⟩
    · rw [readable_cons, not_and, Classical.not_imp] at h
      obtain ⟨hfillable, hrest⟩ := h hcol
      obtain ⟨before, col', after, rfl, hbefore, hnodup, hclash⟩ :=
        ih (List.nodup_cons.mpr ⟨hcol, hnames⟩) hrest
      refine ⟨col :: before, col', after, rfl, List.forall_mem_cons.mpr ⟨hfillable, hbefore⟩,
        ?_, ?_⟩
      · rw [List.map_cons, List.nodup_middle]
        exact hnodup
      · rw [List.map_cons, List.mem_append, List.mem_cons]
        rw [List.cons_append, List.mem_cons, List.mem_append] at hclash
        tauto

/-- Some message passes the checks of the attribute. -/
def AttributeDef.Satisfiable (py : PyLibs F) (attr : AttributeDef F) : Prop :=
  attr.type ∈ atomicTypes ∧ ∃ message : Attribute F, message.isNa = false ∧
    Passes py (.message message) attr

theorem exists_getValue {type : AttrType} (h : type ∈ atomicTypes) (message : Attribute F) :
    ∃ v, getValue (.message message) type = .ok v := by
  cases type with
  | unspecified => simp [atomicTypes] at h
  | other number => simp [atomicTypes] at h
  | _ => exact ⟨_, rfl⟩

theorem readColumn_of_value {py : PyLibs F} {slots : Dict String (Slot F)} {col : Column F}
    {v : Value F} (hattrs : col.attr.attrs = [])
    (h : Dict.get? slots col.fullName = some (.value v)) :
    readColumn py slots col = .error (.attributeError "ss") := by
  rw [Column.fullName] at h
  simp [readColumn, readInputAttr, h, hattrs, ensure, checkTableAttrColCnt, Slot.field]

theorem readInputs_eq_error {py : PyLibs F} {e : CompError} {l : List (DistData × IoDef F)}
    {slots : Dict String (Slot F)} {inputs : Dict String DistData}
    (hnodup : (l.map fun x => x.2.name).Nodup)
    (hl : ∀ x ∈ l, x.2.name ∉ Dict.keys inputs ∧ TypeMatches x)
    (h : (columns (l.map Prod.snd)).foldlM (readColumn py) slots = .error e) :
    l.foldlM (readInput py) (slots, inputs) = .error e := by
  induction l generalizing slots inputs with
  | nil => cases h
  | cons x l ih =>
    rw [List.map_cons, List.nodup_cons] at hnodup
    rw [List.forall_mem_cons] at hl
    obtain ⟨⟨hname, htype⟩, hl⟩ := hl
    rw [List.map_cons, columns_cons, List.foldlM_append, ← foldlM_readInputAttr] at h
    rw [List.foldlM_cons]
    cases hcols : x.2.attrs.foldlM (readInputAttr py x.2.name) slots with
    | error e' =>
      rw [hcols, error_bind] at h
      cases h
      have htype' : (x.2.types.isEmpty || decide (x.1.type ∈ x.2.types)) = true := by
        simpa [TypeMatches] using htype
      simp [readInput, hname, htype', ensure, hcols]
    | ok slots₁ =>
      rw [hcols, ok_bind] at h
      have hturn : readInput py (slots, inputs) x =
          .ok (slots₁, Dict.set inputs x.2.name x.1) :=
        readInput_eq_ok.mpr ⟨hname, htype, slots₁, hcols, rfl⟩
      rw [hturn, ok_bind]
      refine ih hnodup.2 (fun y hy => ⟨?_, (hl y hy).2⟩) h
      rw [Dict.mem_keys_set, not_or]
      exact ⟨fun heq => hnodup.1 (heq ▸ List.mem_map_of_mem hy), (hl y hy).1⟩

/-- Parameters that give a message for each path, and a table of a fitting type for each input. -/
def fittingParam (d : ComponentDef F) (given : List (String × Attribute F)) : NodeEvalParam F where
  domain := d.domain
  name := d.name
  version := d.version
  attrPaths := given.map Prod.fst
  attrs := given.map Prod.snd
  inputs := d.inputs.map fun io => ⟨"", io.types.headD ""⟩
  outputUris := []

theorem given_fittingParam (d : ComponentDef F) (given : List (String × Attribute F)) :
    (fittingParam d given).given = given := by
  simp [NodeEvalParam.given, fittingParam, List.zip_map']

theorem givenOnce_of_nodup {given : List (String × Attribute F)}
    (h : (given.map Prod.fst).Nodup) : GivenOnce given := by
  rw [List.Nodup, List.pairwise_map] at h
  exact h.imp fun hne _ => hne.symm

theorem slot_fittingParam {d : ComponentDef F} {given : List (String × Attribute F)}
    (hnodup : (given.map Prod.fst).Nodup) {path : String} {message : Attribute F}
    (hmem : (path, message) ∈ given) (hna : message.isNa = false) :
    (fittingParam d given).slot path = some (.message message) := by
  rw [NodeEvalParam.slot, given_fittingParam,
    available_of_mem (givenOnce_of_nodup hnodup) hmem hna]
  rfl

theorem typeMatches_fittingParam {d : ComponentDef F} {given : List (String × Attribute F)}
    {x : DistData × IoDef F} (hx : x ∈ (fittingParam d given).inputs.zip d.inputs) :
    TypeMatches x := by
  have hzip : (fittingParam d given).inputs.zip d.inputs =
      d.inputs.map fun io => (⟨"", io.types.headD ""⟩, io) := by
    rw [fittingParam, List.zip_map_left, List.zip_eq_zipWith, List.zipWith_self, List.map_map]
    rfl
  rw [hzip, List.mem_map] at hx
  obtain ⟨io, _, rfl⟩ := hx
  cases htypes : io.types with
  | nil => exact Or.inl htypes
  | cons t types => exact Or.inr (by simp [htypes])

/-- The loop over the columns stops at one whose entry is a value already. -/
theorem readColumns_eq_error {py : PyLibs F} {slots : Dict String (Slot F)}
    {before after : List (Column F)} {col : Column F}
    (hnodup : (before.map Column.fullName).Nodup)
    (hbefore : ∀ b ∈ before, ∃ v, ColumnReads py (Dict.get? slots b.fullName) b v)
    (hattrs : col.attr.attrs = [])
    (hcol : col.fullName ∈ before.map Column.fullName ∨
      ∃ v, Dict.get? slots col.fullName = some (.value v)) :
    (before ++ col :: after).foldlM (readColumn py) slots = .error (.attributeError "ss") := by
  have hreads : ∀ b ∈ before, ∃ slot, ∃ v, slot = Slot.value v ∧
      ColumnReads py (Dict.get? slots b.fullName) b v := by
    intro b hb
    obtain ⟨v, hv⟩ := hbefore b hb
    exact ⟨.value v, v, rfl, hv⟩
  obtain ⟨slots₁, hslots₁⟩ := (readColumn_writesOnce py).exists_foldlM hnodup hreads
  obtain ⟨_, hread, hframe⟩ := (readColumn_writesOnce py).of_foldlM hslots₁
  have hvalue : ∃ v, Dict.get? slots₁ col.fullName = some (.value v) := by
    by_cases hmem : col.fullName ∈ before.map Column.fullName
    · obtain ⟨b, hb, hname⟩ := List.mem_map.mp hmem
      obtain ⟨_, ⟨v, rfl, _⟩, hget⟩ := hread b hb
      exact ⟨v, hname ▸ hget⟩
    · rw [hframe _ hmem]
      exact hcol.resolve_left hmem
  obtain ⟨v, hv⟩ := hvalue
  rw [List.foldlM_append, hslots₁, ok_bind, List.foldlM_cons, readColumn_of_value hattrs hv,
    error_bind]

/-- A message for each attribute is enough for the loop over the attributes, and it leaves every
    other entry as it was given. -/
theorem exists_readAttrs {py : PyLibs F} {d : ComponentDef F}
    (hnodup : (d.attrs.map AttributeDef.fullName).Nodup) {given : List (String × Attribute F)}
    (hpaths : (given.map Prod.fst).Nodup)
    (hgiven : ∀ attr ∈ d.attrs, attr.type ∈ atomicTypes ∧ ∃ message,
      (attr.fullName, message) ∈ given ∧ message.isNa = false ∧
        Passes py (.message message) attr) :
    ∃ collected slots, collectAttrs (fittingParam d given).given [] = .ok collected ∧
      d.attrs.foldlM (readAttr py) collected = .ok slots ∧
      (∀ attr ∈ d.attrs, ∃ v, Dict.get? slots attr.fullName = some (.value v)) ∧
      ∀ name ∉ d.attrs.map AttributeDef.fullName,
        Dict.get? slots name = (fittingParam d given).slot name := by
  obtain ⟨collected, hcollected⟩ :
      ∃ collected, collectAttrs (fittingParam d given).given [] = .ok collected := by
    refine collectAttrs_ok_iff.mpr ⟨?_, fun _ _ => by simp [Dict.keys]⟩
    rw [given_fittingParam]
    exact givenOnce_of_nodup hpaths
  have hslot := EvalParamReader.get?_given hcollected
  obtain ⟨slots, hslots⟩ : ∃ slots, d.attrs.foldlM (readAttr py) collected = .ok slots := by
    refine (readAttr_writesOnce py).exists_foldlM hnodup fun attr hattr => ?_
    obtain ⟨htype, message, hmem, hna, hpasses⟩ := hgiven attr hattr
    obtain ⟨v, hv⟩ := exists_getValue htype message
    rw [hslot, slot_fittingParam hpaths hmem hna]
    exact ⟨_, v, rfl, htype, message, Or.inl rfl, hpasses, hv⟩
  obtain ⟨_, hread, hframe⟩ := (readAttr_writesOnce py).of_foldlM hslots
  refine ⟨collected, slots, hcollected, hslots, fun attr hattr => ?_, fun name hname => ?_⟩
  · obtain ⟨_, ⟨v, rfl, _⟩, hget⟩ := hread attr hattr
    exact ⟨v, hget⟩
  · rw [hframe _ hname, hslot]

/-- With fitting parameters, the first error is the one of the loop over the columns. -/
theorem new_fittingParam_eq_error {py : PyLibs F} {d : ComponentDef F}
    (hinputs : (d.inputs.map IoDef.name).Nodup) {given : List (String × Attribute F)}
    {collected slots : Dict String (Slot F)} {e : CompError}
    (hcollected : collectAttrs (fittingParam d given).given [] = .ok collected)
    (hslots : d.attrs.foldlM (readAttr py) collected = .ok slots)
    (herror : (columns d.inputs).foldlM (readColumn py) slots = .error e) :
    EvalParamReader.new py (fittingParam d given) d = .error e := by
  have hlen : (fittingParam d given).inputs.length = d.inputs.length := by simp [fittingParam]
  have hheader : EvalParamReader.checkHeader (fittingParam d given) d = .ok () := by
    simp [EvalParamReader.checkHeader, fittingParam, ensure]
  have hreadInputs : ((fittingParam d given).inputs.zip d.inputs).foldlM (readInput py)
      (slots, []) = .error e := by
    refine readInputs_eq_error ?_
      (fun x hx => ⟨by simp [Dict.keys], typeMatches_fittingParam hx⟩) ?_
    · rw [map_name_zip hlen]
      exact hinputs
    · rw [List.map_snd_zip hlen.ge]
      exact herror
  rw [NodeEvalParam.given] at hcollected
  simp [EvalParamReader.new, hheader, hcollected, hslots, EvalParamReader.readIo, hlen, ensure,
    hreadInputs]

/-- The parameters of a crash fill the attributes and the columns before the first one whose name
    was used. -/
theorem crash_of_clash {py : PyLibs F} {d : ComponentDef F}
    (hnodup : (d.attrs.map AttributeDef.fullName).Nodup)
    (hattrs : ∀ attr ∈ d.attrs, attr.Satisfiable py)
    (hinputs : (d.inputs.map IoDef.name).Nodup)
    (hcols : ∀ col ∈ columns d.inputs, col.attr.attrs = [])
    (h : ¬ Readable (d.attrs.map AttributeDef.fullName) (columns d.inputs)) :
    ∃ p, EvalParamReader.new py p d = .error (.attributeError "ss") := by
  obtain ⟨before, col, after, heq, hfill, hnames, hclash⟩ := exists_first_clash hnodup h
  rw [heq] at hcols
  have : Nonempty (Attribute F) := ⟨.new py⟩
  choose! message hna hpasses using fun attr hattr => (hattrs attr hattr).2
  let given := d.attrs.map (fun attr => (attr.fullName, message attr)) ++
    before.map fun b => (b.fullName, b.filling py)
  have hpaths : (given.map Prod.fst).Nodup := by
    simpa [given, Function.comp_def] using hnames
  obtain ⟨collected, slots, hcollected, hslots, hread, hframe⟩ :=
    exists_readAttrs hnodup hpaths fun attr hattr => ⟨(hattrs attr hattr).1, message attr,
      List.mem_append_left _ (List.mem_map.mpr ⟨attr, hattr, rfl⟩), hna attr hattr,
      hpasses attr hattr⟩
  refine ⟨fittingParam d given, new_fittingParam_eq_error hinputs hcollected hslots ?_⟩
  rw [heq]
  refine readColumns_eq_error (List.nodup_append.mp hnames).2.1 (fun b hb => ?_)
    (hcols col (by simp)) ?_
  · have hother := fun hmem =>
      List.disjoint_of_nodup_append hnames hmem (List.mem_map_of_mem hb)
    have hmem : (b.fullName, b.filling py) ∈ given :=
      List.mem_append_right _ (List.mem_map.mpr ⟨b, hb, rfl⟩)
    rw [hframe _ hother, slot_fittingParam hpaths hmem rfl]
    exact ⟨_, hcols b (by simp [hb]), b.filling py, rfl, (hfill b hb).filling py, rfl⟩
  · rcases List.mem_append.mp hclash with hattr | hmem
    · obtain ⟨attr, hattr, hname⟩ := List.mem_map.mp hattr
      exact Or.inr (hname ▸ hread attr hattr)
    · exact Or.inl hmem

/-! ## Definitions of components -/

/-- Numbers, texts and booleans always have a message that passes: any, or an allowed one. -/
theorem satisfiable_of_unbounded {py : PyLibs F} {attr : AttributeDef F}
    (htype : attr.type ∈ atomicTypes) (hfloat : attr.type ≠ .float)
    (hlower : attr.atomic.lowerBoundEnabled = false)
    (hupper : attr.atomic.upperBoundEnabled = false) : attr.Satisfiable py := by
  refine ⟨htype, ?_⟩
  suffices hallowed : ∃ message : Attribute F, message.isNa = false ∧
      checkAllowedValues py (.message message) attr = .ok true by
    obtain ⟨message, hna, hallowed⟩ := hallowed
    exact ⟨message, hna, hallowed, by simp [checkLowerBound, hlower],
      by simp [checkUpperBound, hupper]⟩
  cases hkind : attr.type with
  | float => exact absurd hkind hfloat
  | int =>
    cases hvalues : attr.atomic.allowedValues.i64s with
    | nil => exact ⟨.new py, rfl, by simp [checkAllowedValues, hkind, hvalues]⟩
    | cons x xs =>
      exact ⟨{ Attribute.new py with i64 := x }, rfl,
        by simp [checkAllowedValues, hkind, hvalues, Slot.field, pure, Except.pure]⟩
  | string =>
    cases hvalues : attr.atomic.allowedValues.ss with
    | nil => exact ⟨.new py, rfl, by simp [checkAllowedValues, hkind, hvalues]⟩
    | cons x xs =>
      exact ⟨{ Attribute.new py with s := x }, rfl,
        by simp [checkAllowedValues, hkind, hvalues, Slot.field, pure, Except.pure]⟩
  | _ => exact ⟨.new py, rfl, by simp [checkAllowedValues, hkind]⟩

theorem ScalarKind.Stored.satisfiable {py : PyLibs F} {kind : ScalarKind F α}
    {args : AttrArgs α} {con : Constraint α} {attr : AttributeDef F}
    (h : kind.Stored py args con attr) (hone : kind.oneType ∈ [.int, .string, .bool])
    (hlist : kind.listType ∈ listTypes) : attr.Satisfiable py := by
  have htype : attr.type ∈ [.int, .string, .bool] ∨ attr.type ∈ listTypes := by
    rw [h.type]
    split
    · exact Or.inr hlist
    · exact Or.inl hone
  refine satisfiable_of_unbounded ?_ ?_ h.noLowerBound.2 h.noUpperBound.2
  · revert htype
    cases attr.type <;> simp [listTypes, atomicTypes]
  · rintro hfloat
    rw [hfloat] at htype
    simp [listTypes] at htype

/-- What the reader can work with: attributes that can be given, and columns without attributes
    of their own. -/
def Declaration.Plain (py : PyLibs F) : Declaration F → Prop
  | .attr a => a.prefixes = [] ∧ a.Satisfiable py
  | .input io => ∀ col ∈ io.attrs, col.attrs = []
  | .output _ => True

def Call.isFloatAttr : Call F → Bool
  | .floatAttr _ _ => true
  | _ => false

theorem attr_plain {py : PyLibs F} {kind : ScalarKind F α} {args : AttrArgs α}
    {con : Constraint α} (hone : kind.oneType ∈ [.int, .string, .bool])
    (hlist : kind.listType ∈ listTypes) {decl : Declaration F}
    (h : (kind.attributeDef py args con).toOption.map .attr = some decl) : decl.Plain py := by
  cases hattr : kind.attributeDef py args con with
  | error e =>
    rw [hattr] at h
    cases h
  | ok attr =>
    rw [hattr] at h
    cases h
    have hstored := kind.stored_of_attributeDef hattr
    exact ⟨hstored.prefixes, hstored.satisfiable hone hlist⟩

theorem io_plain {py : PyLibs F} {args : IoArgs} {decl : Declaration F}
    (h : (ioDef py args).toOption.map args.ioType.declaration = some decl) : decl.Plain py := by
  cases hio : ioDef py args with
  | error e =>
    rw [hio] at h
    cases h
  | ok io =>
    rw [hio] at h
    cases h
    simp only [ioDef, bind_eq_ok] at hio
    obtain ⟨_, _, attrs, hattrs, _, _, hreturn⟩ := hio
    cases hreturn
    have hcols : ∀ col ∈ attrs, col.attrs = [] := by
      intro col hcol
      obtain ⟨colParam, _, hcolParam⟩ := exists_of_mem_mapM hattrs hcol
      exact (tableAttrDef_eq_ok hcolParam).1
    cases args.ioType with
    | input => exact hcols
    | output => trivial

theorem Call.declaration_plain {py : PyLibs F} {call : Call F} (hcall : call.isFloatAttr = false)
    {decl : Declaration F} (h : call.declaration py = some decl) : decl.Plain py := by
  cases call with
  | floatAttr args con => cases hcall
  | intAttr args con => exact attr_plain (by simp [intKind]) (by simp [intKind, listTypes]) h
  | strAttr args allowedValues =>
    exact attr_plain (by simp [strKind]) (by simp [strKind, listTypes]) h
  | boolAttr args => exact attr_plain (by simp [boolKind]) (by simp [boolKind, listTypes]) h
  | io args => exact io_plain h
  | definition => cases h

/-- Of the definitions that are declared without `float_attr`, those never crash the reader in
    which each column that can be reached has a full name of its own. -/
theorem readerCrashFree_iff {py : PyLibs F} {name domain version desc : String}
    {calls : List (Call F)} (hcalls : ∀ call ∈ calls, call.isFloatAttr = false)
    {d : ComponentDef F}
    (hd : (calls.foldl (Call.run py) (.new py name domain version desc)).definition.1 = .ok d) :
    CrashFree py d ↔ Readable (d.attrs.map AttributeDef.fullName) (columns d.inputs) := by
  obtain ⟨hlists, hnames, hinputs⟩ := Component.definition_lists (P := Declaration.Plain py)
    (fun call hcall decl hdecl => Call.declaration_plain (hcalls call hcall) hdecl) hd
  have hnamed : d.WellNamed := ⟨fun attr hattr => (hlists.attrs attr hattr).1, hnames⟩
  constructor
  · intro hfree
    by_contra hclash
    have hcols : ∀ col ∈ columns d.inputs, col.attr.attrs = [] := by
      intro col hcol
      obtain ⟨io, hio, hmem⟩ := List.mem_flatMap.mp hcol
      obtain ⟨attr, hattr, rfl⟩ := List.mem_map.mp hmem
      exact hlists.inputs io hio attr hattr
    obtain ⟨p, hp⟩ := crash_of_clash hnamed.fullName_nodup
      (fun attr hattr => (hlists.attrs attr hattr).2) hinputs hcols hclash
    obtain ⟨msg, hmsg⟩ := hfree p _ hp
    cases hmsg
  · exact crashFree_of_readable hnamed.fullName_nodup

/-- An attribute, and an input `t` with columns. -/
def tableCalls (attrName : String) (columns : List String) : List (Call Int) :=
  [.intAttr { maxDepth with name := attrName } {}, .io (tableInput "t" columns)]

def tableComponent (attrName : String) (columns : List String) : Component Int :=
  (tableCalls attrName columns).foldl (Call.run plainPy) (.new plainPy "" "" "" "")

theorem readerCrashFree_table : CrashFree plainPy (tableComponent "max_depth" ["ids"]).compDef := by
  have hcalls : ∀ call ∈ tableCalls "max_depth" ["ids"], call.isFloatAttr = false := by
    simp [tableCalls, Call.isFloatAttr]
  have hd : (tableComponent "max_depth" ["ids"]).definition.1 =
      .ok (tableComponent "max_depth" ["ids"]).compDef := rfl
  exact (readerCrashFree_iff hcalls hd).mpr
    (readable_cons.mpr ⟨by decide, fun _ => readable_nil _⟩)

/-- An attribute with the full name of a column, and two columns of one name. -/
theorem reader_crashes :
    (tableComponent "input/t/ids" ["ids"]).definition.1 =
        .ok (tableComponent "input/t/ids" ["ids"]).compDef ∧
      EvalParamReader.new plainPy (plainParam [] [⟨"", ""⟩])
        (tableComponent "input/t/ids" ["ids"]).compDef = .error (.attributeError "ss") ∧
      (tableComponent "max_depth" ["ids", "ids"]).definition.1 =
        .ok (tableComponent "max_depth" ["ids", "ids"]).compDef ∧
      EvalParamReader.new plainPy (plainParam [] [⟨"", ""⟩])
        (tableComponent "max_depth" ["ids", "ids"]).compDef = .error (.attributeError "ss") :=
  ⟨rfl, rfl, rfl, rfl⟩

end TrustFlow.Componentize
