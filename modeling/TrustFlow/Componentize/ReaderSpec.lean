import TrustFlow.Componentize.EvalParamReader
import TrustFlow.Data.WriteOnce

/-! # What the reader accepts

The reader fills one dictionary in three loops: over the given attributes, over the declared
ones, and over the columns of the inputs.  Every entry is read once, so whether parameters are
accepted can be said of each attribute and of each column for itself.

* `get?_collectAttrs` — the entry for a path is the message that is given for it;
* `EvalParamReader.exists_new_iff` — the parameters that are accepted;
* `EvalParamReader.getAttr_eq_ok` — what `get_attr` answers then. -/

namespace TrustFlow.Componentize

variable {F : Type}

/-! ## The given attributes -/

def NodeEvalParam.given (p : NodeEvalParam F) : List (String × Attribute F) :=
  p.attrPaths.zip p.attrs

/-- The first message for a path that is available. -/
def available : List (String × Attribute F) → String → Option (Attribute F)
  | [], _ => none
  | (path, attr) :: given, name =>
    if path = name ∧ attr.isNa = false then some attr else available given name

/-- No path comes again after an available message for it. -/
def GivenOnce (given : List (String × Attribute F)) : Prop :=
  given.Pairwise fun a b => a.2.isNa = false → b.1 ≠ a.1

theorem available_of_mem {given : List (String × Attribute F)} (honce : GivenOnce given)
    {path : String} {message : Attribute F} (hmem : (path, message) ∈ given)
    (hna : message.isNa = false) : available given path = some message := by
  induction given with
  | nil => cases hmem
  | cons pair given ih =>
    obtain ⟨path', attr⟩ := pair
    obtain ⟨hfirst, hrest⟩ := List.pairwise_cons.mp honce
    simp only [available]
    rcases List.mem_cons.mp hmem with heq | hmem
    · cases heq
      rw [if_pos ⟨rfl, hna⟩]
    · have hpair : ¬ (path' = path ∧ attr.isNa = false) := fun hpair =>
        hfirst _ hmem hpair.2 hpair.1.symm
      rw [if_neg hpair, ih hrest hmem]

theorem available_eq_none_iff {given : List (String × Attribute F)} {path : String} :
    available given path = none ↔ ∀ message, (path, message) ∈ given → message.isNa = true := by
  induction given with
  | nil => simp [available]
  | cons pair given ih =>
    obtain ⟨path', attr⟩ := pair
    simp only [available]
    by_cases hpair : path' = path ∧ attr.isNa = false
    · rw [if_pos hpair]
      constructor
      · intro h
        cases h
      · intro h
        have hna := h attr (hpair.1 ▸ List.mem_cons_self)
        rw [hpair.2] at hna
        cases hna
    · rw [if_neg hpair, ih]
      constructor
      · intro h message hmem
        rcases List.mem_cons.mp hmem with heq | hmem
        · cases heq
          simpa using hpair
        · exact h message hmem
      · exact fun h message hmem => h message (List.mem_cons_of_mem _ hmem)

theorem collectAttrs_ok_iff {given : List (String × Attribute F)} {slots : Dict String (Slot F)} :
    (∃ slots', collectAttrs given slots = .ok slots') ↔
      GivenOnce given ∧ ∀ pair ∈ given, pair.1 ∉ Dict.keys slots := by
  induction given generalizing slots with
  | nil => simp [collectAttrs, GivenOnce]
  | cons pair given ih =>
    obtain ⟨path, attr⟩ := pair
    simp only [collectAttrs, GivenOnce, List.pairwise_cons, List.forall_mem_cons]
    by_cases hpath : path ∈ Dict.keys slots
    · simp [hpath]
    · rw [if_neg hpath, ih, and_iff_right hpath]
      cases hna : attr.isNa with
      | true => simp [GivenOnce]
      | false =>
        simp only [Bool.false_eq_true, if_false, forall_true_left, Dict.mem_keys_set, not_or,
          GivenOnce]
        constructor
        · rintro ⟨honce, hkeys⟩
          exact ⟨⟨fun b hb => (hkeys b hb).1, honce⟩, fun b hb => (hkeys b hb).2⟩
        · rintro ⟨⟨hne, honce⟩, hkeys⟩
          exact ⟨honce, fun b hb => ⟨hne b hb, hkeys b hb⟩⟩

theorem get?_collectAttrs {given : List (String × Attribute F)}
    {slots slots' : Dict String (Slot F)} (h : collectAttrs given slots = .ok slots')
    (name : String) :
    Dict.get? slots' name =
      (Dict.get? slots name).or ((available given name).map Slot.message) := by
  induction given generalizing slots with
  | nil =>
    cases h
    simp [available]
  | cons pair given ih =>
    obtain ⟨path, attr⟩ := pair
    simp only [collectAttrs] at h
    split at h
    next => cases h
    next hnew =>
      rw [ih h]
      cases hna : attr.isNa with
      | true => simp [available, hna]
      | false =>
        simp only [Bool.false_eq_true, if_false, Dict.get?_set, available, hna, and_true]
        by_cases hname : path = name
        · subst hname
          simp [Dict.get?_eq_none_iff.mpr hnew]
        · simp [hname, Ne.symm hname]

/-- The entry that the loop over the declared attributes begins with. -/
def NodeEvalParam.slot (p : NodeEvalParam F) (name : String) : Option (Slot F) :=
  (available p.given name).map Slot.message

/-! ## The declared attributes -/

/-- The turn of the attribute takes a message that passes the checks, the entry or else the
    default value, and writes its value. -/
def AttrReads (py : PyLibs F) (entry : Option (Slot F)) (attr : AttributeDef F) (v : Value F) :
    Prop :=
  attr.type ∈ atomicTypes ∧ ∃ message,
    (entry = some (.message message) ∨
      entry = none ∧ attr.atomic.isOptional = true ∧ message = attr.atomic.defaultValue) ∧
    Passes py (.message message) attr ∧ getValue (.message message) attr.type = .ok v

theorem givenOrDefault_eq_ok {slots : Dict String (Slot F)} {attr : AttributeDef F}
    {slot : Slot F} :
    givenOrDefault slots attr = .ok slot ↔ Dict.get? slots attr.fullName = some slot ∨
      Dict.get? slots attr.fullName = none ∧ attr.atomic.isOptional = true ∧
        slot = .message attr.atomic.defaultValue := by
  unfold givenOrDefault
  split
  next s hs => simp [hs]
  next hs =>
    cases hoptional : attr.atomic.isOptional with
    | true => simp [hs, eq_comm]
    | false => simp [hs]

theorem readAttr_writesOnce (py : PyLibs F) :
    Dict.WritesOnce (readAttr py) AttributeDef.fullName
      fun entry attr slot => ∃ v, slot = .value v ∧ AttrReads py entry attr v := by
  refine ⟨fun {slots attr slots'} => ?_, ?_⟩
  · simp only [readAttr_eq_ok, givenOrDefault_eq_ok]
    constructor
    · rintro ⟨htype, slot, hslot, hpasses, v, hv, rfl⟩
      obtain ⟨message, rfl⟩ := exists_message_of_getValue hv
      simp only [Slot.message.injEq] at hslot
      exact ⟨_, ⟨v, rfl, htype, message, hslot, hpasses, hv⟩, rfl⟩
    · rintro ⟨_, ⟨v, rfl, htype, message, hslot, hpasses, hv⟩, rfl⟩
      refine ⟨htype, .message message, ?_, hpasses, v, hv, rfl⟩
      simpa only [Slot.message.injEq] using hslot
  · rintro entry attr _ attr' _ ⟨v, rfl, _⟩ ⟨w, rfl, _, message, hentry | hentry, _⟩
    · cases hentry
    · cases hentry.1

/-! ## The columns -/

/-- An attribute of an input: the columns of a table that play a role. -/
structure Column (F : Type) where
  input : String
  attr : TableAttrDef F

def Column.fullName (col : Column F) : String := inputAttrName col.input col.attr.name

/-- The columns of the inputs, in the order in which they are read. -/
def columns (ios : List (IoDef F)) : List (Column F) :=
  ios.flatMap fun io => io.attrs.map (Column.mk io.name)

def readColumn (py : PyLibs F) (slots : Dict String (Slot F)) (col : Column F) :
    Except CompError (Dict String (Slot F)) :=
  readInputAttr py col.input slots col.attr

/-- The turn of the column takes a message with as many columns as it must have. -/
def ColumnReads (py : PyLibs F) (entry : Option (Slot F)) (col : Column F) (v : Value F) : Prop :=
  col.attr.attrs = [] ∧ ∃ message, entry.getD (.message (.new py)) = .message message ∧
    checkTableAttrColCnt (.message message) col.attr = .ok true ∧ v = .strs message.ss

theorem readColumn_writesOnce (py : PyLibs F) :
    Dict.WritesOnce (readColumn py) Column.fullName
      fun entry col slot => ∃ v, slot = .value v ∧ ColumnReads py entry col v := by
  refine ⟨fun {slots col slots'} => ?_, ?_⟩
  · simp only [readColumn, readInputAttr_eq_ok]
    constructor
    · rintro ⟨hattrs, message, hmessage, hcount, rfl⟩
      exact ⟨_, ⟨_, rfl, hattrs, message, hmessage, hcount, rfl⟩, rfl⟩
    · rintro ⟨_, ⟨_, rfl, hattrs, message, hmessage, hcount, rfl⟩, rfl⟩
      exact ⟨hattrs, message, hmessage, hcount, rfl⟩
  · rintro entry col _ col' _ ⟨v, rfl, _⟩ ⟨w, rfl, _, message, hmessage, _⟩
    cases hmessage

theorem columns_cons (io : IoDef F) (ios : List (IoDef F)) :
    columns (io :: ios) = io.attrs.map (Column.mk io.name) ++ columns ios := by
  simp [columns]

theorem foldlM_readInputAttr (py : PyLibs F) (io : IoDef F) (slots : Dict String (Slot F)) :
    io.attrs.foldlM (readInputAttr py io.name) slots =
      (io.attrs.map (Column.mk io.name)).foldlM (readColumn py) slots := by
  rw [List.foldlM_map]
  rfl

/-! ## Inputs and outputs -/

/-- The table is of a type that the input takes. -/
def TypeMatches (input : DistData × IoDef F) : Prop :=
  input.2.types = [] ∨ input.1.type ∈ input.2.types

theorem readInputs_ok_iff {py : PyLibs F} {l : List (DistData × IoDef F)}
    {slots slots' : Dict String (Slot F)} {inputs : Dict String DistData} :
    (∃ inputs', l.foldlM (readInput py) (slots, inputs) = .ok (slots', inputs')) ↔
      (l.map fun x => x.2.name).Nodup ∧
      (∀ x ∈ l, x.2.name ∉ Dict.keys inputs ∧ TypeMatches x) ∧
      (columns (l.map Prod.snd)).foldlM (readColumn py) slots = .ok slots' := by
  induction l generalizing slots inputs with
  | nil => simp [columns, pure, Except.pure]
  | cons x l ih =>
    simp only [List.foldlM_cons, bind_eq_ok, readInput_eq_ok, List.map_cons, columns_cons,
      List.foldlM_append, ← foldlM_readInputAttr, List.nodup_cons, List.forall_mem_cons]
    constructor
    · rintro ⟨inputs', _, ⟨hname, htype, slots₁, hslots₁, rfl⟩, hrest⟩
      obtain ⟨hnodup, hl, hcols⟩ := ih.mp ⟨inputs', hrest⟩
      simp only [Dict.mem_keys_set, not_or] at hl
      refine ⟨⟨?_, hnodup⟩, ⟨⟨hname, htype⟩, fun y hy => ⟨(hl y hy).1.2, (hl y hy).2⟩⟩,
        slots₁, hslots₁, hcols⟩
      intro hmem
      obtain ⟨y, hy, heq⟩ := List.mem_map.mp hmem
      exact (hl y hy).1.1 heq
    · rintro ⟨⟨hnew, hnodup⟩, ⟨⟨hname, htype⟩, hl⟩, slots₁, hslots₁, hcols⟩
      have hl' : ∀ y ∈ l, y.2.name ∉ Dict.keys (Dict.set inputs x.2.name x.1) ∧
          TypeMatches y := by
        intro y hy
        rw [Dict.mem_keys_set, not_or]
        exact ⟨⟨fun heq => hnew (heq ▸ List.mem_map_of_mem hy), (hl y hy).1⟩, (hl y hy).2⟩
      obtain ⟨inputs', hrest⟩ := ih.mpr ⟨hnodup, hl', hcols⟩
      exact ⟨inputs', _, ⟨hname, htype, slots₁, hslots₁, rfl⟩, hrest⟩

theorem readOutput_writesOnce :
    Dict.WritesOnce (readOutput (F := F)) (fun x => x.2.name)
      fun entry x uri => entry = none ∧ uri = x.1 := by
  refine ⟨fun {outputs x outputs'} => ?_, ?_⟩
  · simp only [readOutput, bind_eq_ok, ensure_eq_ok, exists_const, decide_eq_true_eq,
      ← Dict.get?_eq_none_iff, pure, Except.pure, Except.ok.injEq]
    constructor
    · rintro ⟨hname, rfl⟩
      exact ⟨x.1, ⟨hname, rfl⟩, rfl⟩
    · rintro ⟨_, ⟨hname, rfl⟩, rfl⟩
      exact ⟨hname, rfl⟩
  · rintro entry x uri y uri' _ ⟨hnone, _⟩
    cases hnone

/-- The tables and output URIs are as many as declared, under different names, and the tables
    have the types that the inputs take. -/
structure IoMatches (p : NodeEvalParam F) (d : ComponentDef F) : Prop where
  inputs_length : p.inputs.length = d.inputs.length
  inputs_nodup : (d.inputs.map IoDef.name).Nodup
  types : ∀ x ∈ p.inputs.zip d.inputs, TypeMatches x
  outputs_length : p.outputUris.length = d.outputs.length
  outputs_nodup : (d.outputs.map IoDef.name).Nodup

theorem map_name_zip {β : Type} {l : List β} {ios : List (IoDef F)}
    (hlen : l.length = ios.length) : ((l.zip ios).map fun x => x.2.name) = ios.map IoDef.name := by
  have hsnd : (l.zip ios).map Prod.snd = ios := List.map_snd_zip hlen.ge
  calc ((l.zip ios).map fun x => x.2.name) = ((l.zip ios).map Prod.snd).map IoDef.name := by simp
    _ = ios.map IoDef.name := by rw [hsnd]

namespace EvalParamReader

theorem readIo_ok_iff {py : PyLibs F} {p : NodeEvalParam F} {d : ComponentDef F}
    {slots slots' : Dict String (Slot F)} :
    (∃ reader, readIo py p d slots = .ok reader ∧ reader.attrs = slots') ↔
      IoMatches p d ∧ (columns d.inputs).foldlM (readColumn py) slots = .ok slots' := by
  simp only [readIo_eq_ok]
  constructor
  · rintro ⟨_, ⟨hinputs, state, hstate, houtputs, outputs, hread, rfl⟩, rfl⟩
    obtain ⟨hnodup, hl, hcols⟩ := readInputs_ok_iff.mp ⟨state.2, hstate⟩
    obtain ⟨hnodup', _⟩ := readOutput_writesOnce.of_foldlM hread
    rw [map_name_zip hinputs] at hnodup
    rw [map_name_zip houtputs] at hnodup'
    rw [List.map_snd_zip hinputs.ge] at hcols
    exact ⟨⟨hinputs, hnodup, fun x hx => (hl x hx).2, houtputs, hnodup'⟩, hcols⟩
  · rintro ⟨hio, hcols⟩
    have hinputs : ∃ inputs, (p.inputs.zip d.inputs).foldlM (readInput py) (slots, []) =
        .ok (slots', inputs) := by
      refine readInputs_ok_iff.mpr ⟨?_, fun x hx => ⟨by simp [Dict.keys], hio.types x hx⟩, ?_⟩
      · rw [map_name_zip hio.inputs_length]
        exact hio.inputs_nodup
      · rw [List.map_snd_zip hio.inputs_length.ge]
        exact hcols
    have houtputs : ∃ outputs, (p.outputUris.zip d.outputs).foldlM readOutput [] =
        .ok outputs := by
      refine readOutput_writesOnce.exists_foldlM ?_ fun x _ => ⟨x.1, rfl, rfl⟩
      rw [map_name_zip hio.outputs_length]
      exact hio.outputs_nodup
    obtain ⟨inputs, hread⟩ := hinputs
    obtain ⟨outputs, hread'⟩ := houtputs
    exact ⟨_, ⟨hio.inputs_length, (slots', inputs), hread, hio.outputs_length, outputs, hread',
      rfl⟩, rfl⟩

/-! ## The reader -/

theorem new_ok_iff {py : PyLibs F} {p : NodeEvalParam F} {d : ComponentDef F}
    {attrs : Dict String (Slot F)} :
    (∃ reader, new py p d = .ok reader ∧ reader.attrs = attrs) ↔
      checkHeader p d = .ok () ∧ IoMatches p d ∧
      ∃ given, collectAttrs p.given [] = .ok given ∧
        ∃ slots, d.attrs.foldlM (readAttr py) given = .ok slots ∧
          (columns d.inputs).foldlM (readColumn py) slots = .ok attrs := by
  simp only [new_eq_ok]
  constructor
  · rintro ⟨reader, ⟨hheader, given, hgiven, slots, hslots, hreader⟩, hattrs⟩
    obtain ⟨hio, hcols⟩ := readIo_ok_iff.mp ⟨reader, hreader, hattrs⟩
    exact ⟨hheader, hio, given, hgiven, slots, hslots, hcols⟩
  · rintro ⟨hheader, hio, given, hgiven, slots, hslots, hcols⟩
    obtain ⟨reader, hreader, hattrs⟩ := readIo_ok_iff.mpr ⟨hio, hcols⟩
    exact ⟨reader, ⟨hheader, given, hgiven, slots, hslots, hreader⟩, hattrs⟩

theorem get?_given {p : NodeEvalParam F} {given : Dict String (Slot F)}
    (h : collectAttrs p.given [] = .ok given) (name : String) :
    Dict.get? given name = p.slot name := by
  rw [get?_collectAttrs h]
  rfl

/-- The parameters are accepted if and only if each declared attribute and each column can be
    read from what is given for it, and no two of them have the same full name. -/
theorem exists_new_iff {py : PyLibs F} {p : NodeEvalParam F} {d : ComponentDef F} :
    (∃ reader, new py p d = .ok reader) ↔
      checkHeader p d = .ok () ∧ IoMatches p d ∧ GivenOnce p.given ∧
      (d.attrs.map AttributeDef.fullName).Nodup ∧
      (∀ attr ∈ d.attrs, ∃ v, AttrReads py (p.slot attr.fullName) attr v) ∧
      ((columns d.inputs).map Column.fullName).Nodup ∧
      ∀ col ∈ columns d.inputs, col.fullName ∉ d.attrs.map AttributeDef.fullName ∧
        ∃ v, ColumnReads py (p.slot col.fullName) col v := by
  constructor
  · rintro ⟨reader, hreader⟩
    obtain ⟨hheader, hio, given, hgiven, slots, hslots, hcols⟩ :=
      new_ok_iff.mp ⟨reader, hreader, rfl⟩
    obtain ⟨hnodup, hread, hframe⟩ := (readAttr_writesOnce py).of_foldlM hslots
    obtain ⟨hnodup', hread', _⟩ := (readColumn_writesOnce py).of_foldlM hcols
    refine ⟨hheader, hio, (collectAttrs_ok_iff.mp ⟨given, hgiven⟩).1, hnodup, ?_, hnodup', ?_⟩
    · intro attr hattr
      obtain ⟨_, ⟨v, _, hv⟩, _⟩ := hread attr hattr
      exact ⟨v, get?_given hgiven _ ▸ hv⟩
    · intro col hcol
      obtain ⟨_, ⟨v, _, hv⟩, _⟩ := hread' col hcol
      -- the entry of an attribute is a value by now
      have hnew : col.fullName ∉ d.attrs.map AttributeDef.fullName := by
        intro hmem
        obtain ⟨attr, hattr, hname⟩ := List.mem_map.mp hmem
        obtain ⟨_, ⟨w, rfl, _⟩, hw⟩ := hread attr hattr
        obtain ⟨_, message, hmessage, _⟩ := hv
        rw [← hname, hw] at hmessage
        cases hmessage
      rw [hframe _ hnew, get?_given hgiven] at hv
      exact ⟨hnew, v, hv⟩
  · rintro ⟨hheader, hio, honce, hnodup, hread, hnodup', hread'⟩
    obtain ⟨given, hgiven⟩ : ∃ given, collectAttrs p.given [] = .ok given :=
      collectAttrs_ok_iff.mpr ⟨honce, fun _ _ => by simp [Dict.keys]⟩
    obtain ⟨slots, hslots⟩ : ∃ slots, d.attrs.foldlM (readAttr py) given = .ok slots := by
      refine (readAttr_writesOnce py).exists_foldlM hnodup fun attr hattr => ?_
      obtain ⟨v, hv⟩ := hread attr hattr
      exact ⟨_, v, rfl, (get?_given hgiven _).symm ▸ hv⟩
    obtain ⟨attrs, hattrs⟩ : ∃ attrs,
        (columns d.inputs).foldlM (readColumn py) slots = .ok attrs := by
      refine (readColumn_writesOnce py).exists_foldlM hnodup' fun col hcol => ?_
      obtain ⟨hnew, v, hv⟩ := hread' col hcol
      have hframe := ((readAttr_writesOnce py).of_foldlM hslots).2.2 _ hnew
      rw [hframe, get?_given hgiven]
      exact ⟨_, v, rfl, hv⟩
    obtain ⟨reader, hreader, _⟩ :=
      new_ok_iff.mpr ⟨hheader, hio, given, hgiven, slots, hslots, hattrs⟩
    exact ⟨reader, hreader⟩

/-- What `get_attr` answers for a declared attribute. -/
theorem getAttr_eq_ok {py : PyLibs F} {p : NodeEvalParam F} {d : ComponentDef F}
    {reader : EvalParamReader F} (h : new py p d = .ok reader) {attr : AttributeDef F}
    (hattr : attr ∈ d.attrs) :
    ∃ v, AttrReads py (p.slot attr.fullName) attr v ∧
      reader.getAttr attr.fullName = .ok (.value v) := by
  obtain ⟨_, _, given, hgiven, slots, hslots, hcols⟩ := new_ok_iff.mp ⟨reader, h, rfl⟩
  obtain ⟨_, hread, _⟩ := (readAttr_writesOnce py).of_foldlM hslots
  obtain ⟨_, _, hframe⟩ := (readColumn_writesOnce py).of_foldlM hcols
  obtain ⟨_, _, _, _, _, _, hnew⟩ := exists_new_iff.mp ⟨reader, h⟩
  have hother : attr.fullName ∉ (columns d.inputs).map Column.fullName := by
    intro hmem
    obtain ⟨col, hcol, hname⟩ := List.mem_map.mp hmem
    exact (hnew col hcol).1 (hname ▸ List.mem_map_of_mem hattr)
  obtain ⟨_, ⟨v, rfl, hv⟩, hget⟩ := hread attr hattr
  refine ⟨v, get?_given hgiven _ ▸ hv, ?_⟩
  rw [getAttr, hframe _ hother, hget]

end EvalParamReader

end TrustFlow.Componentize
