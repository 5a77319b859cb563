import TrustFlow.Componentize.ScalarConstraints
import Mathlib.Data.List.Induction

/-! # The definition and the declarations

`definition` keeps its first answer, and keeps the names that it has seen when it fails.  It
also takes the names that it derives from the columns of an input for names of their own.

* `Call.run_cases` — what one call does to a component;
* `run_history` — a component knows of every declaration, or was declared more after its
  definition was asked for;
* `definitionFaithful_iff` — when the answer is that for the declarations so far. -/

namespace TrustFlow.Componentize

variable {F β : Type}

/-! ## What one call does -/

inductive Declaration (F : Type) where
  | attr (attr : AttributeDef F)
  | input (io : IoDef F)
  | output (io : IoDef F)

def Component.declare (c : Component F) : Declaration F → Component F
  | .attr attr => c.append attr
  | .input io => { c with inputDecls := c.inputDecls ++ [io] }
  | .output io => { c with outputDecls := c.outputDecls ++ [io] }

/-- The message that `io` makes of its arguments. -/
def ioDef (py : PyLibs F) (args : IoArgs) : Except CompError (IoDef F) := do
  checkReservedWords args.name
  let attrs ← (args.colParams.getD []).mapM (tableAttrDef py)
  let ioDef : IoDef F :=
    { name := args.name, desc := py.cleanText args.desc true, types := args.types, attrs := attrs }
  checkIoDef ioDef
  return ioDef

def IoType.declaration : IoType → IoDef F → Declaration F
  | .input => .input
  | .output => .output

/-- What the call declares, if it is a declaration and succeeds.  It does not depend on the
    component. -/
def Call.declaration (py : PyLibs F) : Call F → Option (Declaration F)
  | .floatAttr args con => ((floatKind py).attributeDef py args con).toOption.map .attr
  | .intAttr args con => ((intKind F).attributeDef py args con).toOption.map .attr
  | .strAttr args allowedValues =>
    ((strKind py).attributeDef py args { allowedValues := allowedValues }).toOption.map .attr
  | .boolAttr args => ((boolKind F).attributeDef py args {}).toOption.map .attr
  | .io args => (ioDef py args).toOption.map args.ioType.declaration
  | .definition => none

theorem Component.io_eq (py : PyLibs F) (c : Component F) (args : IoArgs) :
    c.io py args = (fun io => c.declare (args.ioType.declaration io)) <$> ioDef py args := by
  unfold Component.io ioDef
  cases checkReservedWords args.name with
  | error e => rfl
  | ok =>
    cases (args.colParams.getD []).mapM (tableAttrDef py) with
    | error e => rfl
    | ok attrs =>
      simp only [ok_bind]
      cases checkIoDef (F := F) ⟨args.name, py.cleanText args.desc true, args.types, attrs⟩ with
      | error e => rfl
      | ok => cases args.ioType <;> rfl

/-- A declaration adds its message if it succeeds, and leaves the component alone if not. -/
theorem Component.orUnchanged_cases (c : Component F) (result : Except CompError β)
    (toDecl : β → Declaration F) :
    (∃ decl, result.toOption.map toDecl = some decl ∧
      orUnchanged ((fun x => c.declare (toDecl x)) <$> result) c = c.declare decl) ∨
    (result.toOption.map toDecl = none ∧
      orUnchanged ((fun x => c.declare (toDecl x)) <$> result) c = c) := by
  cases result with
  | error e => exact Or.inr ⟨rfl, rfl⟩
  | ok x => exact Or.inl ⟨toDecl x, rfl, rfl⟩

theorem Call.run_cases (py : PyLibs F) (c : Component F) (call : Call F) :
    call = .definition ∨
      (∃ decl, call.declaration py = some decl ∧ call.run py c = c.declare decl) ∨
      (call.declaration py = none ∧ call.run py c = c) := by
  cases call with
  | floatAttr args con => exact Or.inr (c.orUnchanged_cases _ .attr)
  | intAttr args con => exact Or.inr (c.orUnchanged_cases _ .attr)
  | strAttr args allowedValues => exact Or.inr (c.orUnchanged_cases _ .attr)
  | boolAttr args => exact Or.inr (c.orUnchanged_cases _ .attr)
  | io args =>
    simp only [Call.run, c.io_eq]
    exact Or.inr (c.orUnchanged_cases _ args.ioType.declaration)
  | definition => exact Or.inl rfl

namespace Component

theorem cached_declare (c : Component F) (decl : Declaration F) :
    (c.declare decl).cached = c.cached := by
  cases decl <;> rfl

theorem argnames_declare (c : Component F) (decl : Declaration F) :
    (c.declare decl).argnames = c.argnames := by
  cases decl <;> rfl

/-- A declaration goes to the end of its kind, so the order of the others stays. -/
theorem sublist_declare (c : Component F) (decl : Declaration F) :
    List.Sublist c.nameDecls (c.declare decl).nameDecls := by
  cases decl with
  | attr attr =>
    simp only [nameDecls, declare, append, List.map_append]
    exact ((List.sublist_append_left _ _).append_right _).append_right _
  | input io =>
    simp only [nameDecls, declare, List.map_append]
    exact ((List.sublist_append_left _ _).append_left _).append_right _
  | output io =>
    simp only [nameDecls, declare, List.map_append]
    exact (List.sublist_append_left _ _).append_left _

theorem length_declare (c : Component F) (decl : Declaration F) :
    (c.declare decl).nameDecls.length = c.nameDecls.length + 1 := by
  cases decl <;> simp [nameDecls, declare, append] <;> omega

/-! ## The names that a failed call leaves behind -/

theorem addNames_eq_error {decls : List NameDecl} {argnames argnames' : List String}
    {e : CompError} (h : addNames decls argnames = (.error e, argnames')) :
    (∃ msg, e = .compDeclError msg) ∧ ∃ d ∈ decls, d.name ∈ argnames' := by
  induction decls generalizing argnames with
  | nil => cases h
  | cons d decls ih =>
    simp only [addNames] at h
    split at h
    next hd =>
      cases h
      exact ⟨⟨_, rfl⟩, d, List.mem_cons_self, hd⟩
    next =>
      obtain ⟨hmsg, e, he, hmem⟩ := ih h
      exact ⟨hmsg, e, List.mem_cons_of_mem d he, hmem⟩

/-- Names are left behind only by a call that failed, and what made it fail is still there. -/
def NamesKept (c : Component F) : Prop :=
  c.cached = none → c.argnames = [] ∨
    ¬ Distinct c.nameDecls ∧ ∃ d ∈ c.nameDecls, d.name ∈ c.argnames

/-- The answer is for the declarations so far, if it is not an old one. -/
theorem definition_cases {c : Component F} (hkept : c.NamesKept) (hcached : c.cached = none) :
    (Distinct c.nameDecls ∧ ∃ argnames,
      c.definition = (.ok c.compDef, { c with cached := some c.compDef, argnames := argnames })) ∨
    (¬ Distinct c.nameDecls ∧ ∃ msg argnames,
      c.definition = (.error (.compDeclError msg), { c with argnames := argnames }) ∧
        ∃ d ∈ c.nameDecls, d.name ∈ argnames) := by
  have hok : (∃ argnames, addNames c.nameDecls c.argnames = (.ok (), argnames)) ↔
      Distinct c.nameDecls := by
    rw [addNames_ok_iff]
    rcases hkept hcached with hnil | ⟨hsame, d, hd, hmem⟩
    · simp [hnil]
    · exact ⟨And.left, fun hdistinct => absurd hdistinct hsame⟩
  cases hnames : addNames c.nameDecls c.argnames with
  | mk result argnames =>
    cases result with
    | ok =>
      exact Or.inl ⟨hok.mp ⟨argnames, hnames⟩, argnames, by simp [definition, hcached, hnames]⟩
    | error e =>
      obtain ⟨⟨msg, rfl⟩, hleft⟩ := addNames_eq_error hnames
      refine Or.inr ⟨fun hdistinct => ?_, msg, argnames,
        by simp [definition, hcached, hnames], hleft⟩
      obtain ⟨argnames', hnames'⟩ := hok.mpr hdistinct
      rw [hnames] at hnames'
      cases hnames'

theorem definition_of_cached {c : Component F} {d : ComponentDef F} (h : c.cached = some d) :
    c.definition = (.ok d, c) := by
  simp [definition, h]

theorem namesKept_declare {c : Component F} (hkept : c.NamesKept) (decl : Declaration F) :
    (c.declare decl).NamesKept := by
  intro hcached
  rw [argnames_declare]
  rw [cached_declare] at hcached
  have hsub := c.sublist_declare decl
  rcases hkept hcached with hnil | ⟨hsame, d, hd, hmem⟩
  · exact Or.inl hnil
  · exact Or.inr ⟨fun hdistinct => hsame (hdistinct.sublist hsub), d, hsub.mem hd, hmem⟩

theorem namesKept_definition {c : Component F} (hkept : c.NamesKept) :
    c.definition.2.NamesKept := by
  cases hcached : c.cached with
  | some d =>
    rw [definition_of_cached hcached]
    exact hkept
  | none =>
    rcases definition_cases hkept hcached with ⟨_, _, hdef⟩ | ⟨hsame, _, _, hdef, hleft⟩
    · rw [hdef]
      exact fun hnone => by cases hnone
    · rw [hdef]
      exact fun _ => Or.inr ⟨hsame, hleft⟩

/-! ## Old answers -/

/-- An answer that was kept is the one for the declarations so far. -/
def Fresh (c : Component F) : Prop :=
  ∀ d, c.cached = some d → d = c.compDef ∧ Distinct c.nameDecls

/-- The answer that was kept lists fewer declarations than there are. -/
def Stale (c : Component F) : Prop :=
  ∃ d, c.cached = some d ∧
    d.attrs.length + d.inputs.length + d.outputs.length < c.nameDecls.length

theorem length_nameDecls (c : Component F) :
    c.nameDecls.length = c.attrDecls.length + c.inputDecls.length + c.outputDecls.length := by
  simp [nameDecls]
  omega

theorem stale_declare {c : Component F} (hfresh : c.Fresh) (hcached : c.cached.isSome = true)
    (decl : Declaration F) : (c.declare decl).Stale := by
  obtain ⟨d, hd⟩ := Option.isSome_iff_exists.mp hcached
  obtain ⟨rfl, _⟩ := hfresh d hd
  refine ⟨c.compDef, (c.cached_declare decl).trans hd, ?_⟩
  have hlen := c.length_declare decl
  rw [length_nameDecls c] at hlen
  simp only [compDef]
  omega

theorem fresh_declare {c : Component F} (hcached : c.cached = none) (decl : Declaration F) :
    (c.declare decl).Fresh := by
  intro d hd
  rw [cached_declare, hcached] at hd
  cases hd

theorem fresh_definition {c : Component F} (hkept : c.NamesKept) (hfresh : c.Fresh) :
    c.definition.2.Fresh := by
  cases hcached : c.cached with
  | some d =>
    rw [definition_of_cached hcached]
    exact hfresh
  | none =>
    rcases definition_cases hkept hcached with ⟨hdistinct, _, hdef⟩ | ⟨_, _, _, hdef, _⟩
    · rw [hdef]
      rintro d ⟨⟩
      exact ⟨rfl, hdistinct⟩
    · rw [hdef]
      intro d hd
      rw [hcached] at hd
      cases hd

theorem Stale.run {py : PyLibs F} {c : Component F} (h : c.Stale) (call : Call F) :
    (call.run py c).Stale := by
  obtain ⟨d, hd, hlt⟩ := h
  rcases call.run_cases py c with rfl | ⟨decl, _, hrun⟩ | ⟨_, hrun⟩
  · refine ⟨d, ?_⟩
    simp only [Call.run, definition_of_cached hd]
    exact ⟨hd, hlt⟩
  · rw [hrun]
    exact ⟨d, (c.cached_declare decl).trans hd, hlt.trans_le (c.sublist_declare decl).length_le⟩
  · rw [hrun]
    exact ⟨d, hd, hlt⟩

/-! ## Histories -/

end Component

/-- Along the calls, something is declared when `definition` has succeeded before. -/
def declaresAfterDefinition (py : PyLibs F) : Component F → List (Call F) → Bool
  | _, [] => false
  | c, call :: calls =>
    (c.cached.isSome && (call.declaration py).isSome) ||
      declaresAfterDefinition py (call.run py c) calls

namespace Component

theorem Stale.run_history {py : PyLibs F} {c : Component F} (h : c.Stale) (calls : List (Call F)) :
    (calls.foldl (Call.run py) c).Stale := by
  induction calls generalizing c with
  | nil => exact h
  | cons call calls ih => exact ih (h.run call)

theorem namesKept_run {py : PyLibs F} {c : Component F} (h : c.NamesKept) (call : Call F) :
    (call.run py c).NamesKept := by
  rcases call.run_cases py c with rfl | ⟨decl, _, hrun⟩ | ⟨_, hrun⟩
  · exact namesKept_definition h
  · rw [hrun]
    exact namesKept_declare h decl
  · rwa [hrun]

theorem fresh_run {py : PyLibs F} {c : Component F} (hkept : c.NamesKept) (hfresh : c.Fresh)
    {call : Call F} (h : (c.cached.isSome && (call.declaration py).isSome) = false) :
    (call.run py c).Fresh := by
  rcases call.run_cases py c with rfl | ⟨decl, hdecl, hrun⟩ | ⟨_, hrun⟩
  · exact fresh_definition hkept hfresh
  · rw [hdecl, Option.isSome_some, Bool.and_true, Option.isSome_eq_false_iff,
      Option.isNone_iff_eq_none] at h
    rw [hrun]
    exact fresh_declare h decl
  · rwa [hrun]

theorem stale_run {py : PyLibs F} {c : Component F} (hfresh : c.Fresh) {call : Call F}
    (h : (c.cached.isSome && (call.declaration py).isSome) = true) : (call.run py c).Stale := by
  rw [Bool.and_eq_true] at h
  rcases call.run_cases py c with rfl | ⟨decl, _, hrun⟩ | ⟨hnone, _⟩
  · cases h.2
  · rw [hrun]
    exact stale_declare hfresh h.1 decl
  · rw [hnone] at h
    cases h.2

theorem run_history {py : PyLibs F} {c : Component F} (hkept : c.NamesKept) (hfresh : c.Fresh)
    (calls : List (Call F)) :
    (calls.foldl (Call.run py) c).NamesKept ∧
      (declaresAfterDefinition py c calls = false → (calls.foldl (Call.run py) c).Fresh) ∧
      (declaresAfterDefinition py c calls = true → (calls.foldl (Call.run py) c).Stale) := by
  induction calls generalizing c with
  | nil => exact ⟨hkept, fun _ => hfresh, fun h => by cases h⟩
  | cons call calls ih =>
    simp only [declaresAfterDefinition, List.foldl_cons]
    cases hnow : c.cached.isSome && (call.declaration py).isSome with
    | false =>
      simp only [Bool.false_or]
      exact ih (namesKept_run hkept call) (fresh_run hkept hfresh hnow)
    | true =>
      have hstale : (calls.foldl (Call.run py) (call.run py c)).Stale :=
        (stale_run hfresh hnow).run_history calls
      refine ⟨?_, fun h => absurd h (by simp), fun _ => hstale⟩
      -- an old answer is never dropped, so nothing is said of the names
      intro hnone
      obtain ⟨d, hd, _⟩ := hstale
      rw [hnone] at hd
      cases hd

theorem Reachable.history {py : PyLibs F} {c : Component F} (h : Reachable py c)
    (calls : List (Call F)) : Reachable py (calls.foldl (Call.run py) c) := by
  induction calls generalizing c with
  | nil => exact h
  | cons call calls ih => exact ih (.call call h)

/-! ## The answer of `definition` -/

/-- The names of the attributes, inputs and outputs declared so far. -/
def names (c : Component F) : List String := c.nameDecls.map NameDecl.name

/-- No input or output has the name that is derived from a column of an earlier input. -/
def DerivedApart (c : Component F) : Prop :=
  c.nameDecls.Pairwise fun d e => e.name ∉ d.derived

/-- A call of `definition` lists the declarations so far or raises `CompDeclError`, and raises
    exactly if two names coincide. -/
def Faithful (c : Component F) : Prop :=
  match c.definition.1 with
  | .ok d => (d.attrs = c.attrDecls ∧ d.inputs = c.inputDecls ∧ d.outputs = c.outputDecls) ∧
      c.names.Nodup
  | .error e => (∃ msg, e = .compDeclError msg) ∧ ¬ c.names.Nodup

theorem distinct_iff {c : Component F} :
    Distinct c.nameDecls ↔ c.names.Nodup ∧ c.DerivedApart := by
  rw [Distinct, names, List.Nodup, List.pairwise_map, DerivedApart, ← List.pairwise_and_iff]
  simp only [ne_comm]

theorem not_faithful_of_stale {c : Component F} (h : c.Stale) : ¬ c.Faithful := by
  obtain ⟨d, hd, hlt⟩ := h
  rw [Faithful, definition_of_cached hd]
  rintro ⟨⟨hattrs, hinputs, houtputs⟩, _⟩
  rw [length_nameDecls, hattrs, hinputs, houtputs] at hlt
  exact lt_irrefl _ hlt

theorem faithful_iff_of_fresh {c : Component F} (hkept : c.NamesKept) (hfresh : c.Fresh) :
    c.Faithful ↔ (c.names.Nodup → c.DerivedApart) := by
  cases hcached : c.cached with
  | some d =>
    obtain ⟨rfl, hdistinct⟩ := hfresh d hcached
    obtain ⟨hnodup, hderived⟩ := distinct_iff.mp hdistinct
    rw [Faithful, definition_of_cached hcached]
    exact ⟨fun _ _ => hderived, fun _ => ⟨⟨rfl, rfl, rfl⟩, hnodup⟩⟩
  | none =>
    rcases definition_cases hkept hcached with ⟨hdistinct, _, hdef⟩ | ⟨hsame, msg, _, hdef, _⟩
    · obtain ⟨hnodup, hderived⟩ := distinct_iff.mp hdistinct
      rw [Faithful, hdef]
      exact ⟨fun _ _ => hderived, fun _ => ⟨⟨rfl, rfl, rfl⟩, hnodup⟩⟩
    · rw [distinct_iff, not_and] at hsame
      rw [Faithful, hdef]
      constructor
      · rintro ⟨_, hdup⟩ hnodup
        exact absurd hnodup hdup
      · intro hderived
        exact ⟨⟨msg, rfl⟩, fun hnodup => hsame hnodup (hderived hnodup)⟩

/-- After every sequence of calls, `definition` answers for the declarations so far if and only
    if none of them came after a definition, and no name is one that was only derived. -/
theorem definitionFaithful_iff (py : PyLibs F) (name domain version desc : String)
    (calls : List (Call F)) :
    (calls.foldl (Call.run py) (.new py name domain version desc)).Faithful ↔
      declaresAfterDefinition py (.new py name domain version desc) calls = false ∧
      ((calls.foldl (Call.run py) (.new py name domain version desc)).names.Nodup →
        (calls.foldl (Call.run py) (.new py name domain version desc)).DerivedApart) := by
  have hkept : (Component.new py name domain version desc).NamesKept := fun _ => Or.inl rfl
  have hfresh : (Component.new py name domain version desc).Fresh := fun d hd => by cases hd
  obtain ⟨hkept, hfresh, hstale⟩ := run_history hkept hfresh calls
  cases hafter : declaresAfterDefinition py (.new py name domain version desc) calls with
  | false => rw [faithful_iff_of_fresh hkept (hfresh hafter), and_iff_right rfl]
  | true =>
    refine ⟨fun hfaithful => absurd hfaithful (not_faithful_of_stale (hstale hafter)), fun h => ?_⟩
    cases h.1

/-! ## Where an answer comes from -/

theorem definition_compDef (c : Component F) : c.definition.2.compDef = c.compDef := by
  unfold definition
  split
  next => rfl
  next => split <;> rfl

theorem definition_eq_ok {c : Component F} {d : ComponentDef F} (h : c.definition.1 = .ok d) :
    c.cached = some d ∨ d = c.compDef ∧ Distinct c.nameDecls := by
  unfold definition at h
  split at h
  next d' hcached =>
    cases h
    exact Or.inl hcached
  next =>
    split at h
    next argnames hnames =>
      cases h
      exact Or.inr ⟨rfl, (addNames_ok_iff.mp ⟨argnames, hnames⟩).1⟩
    next => cases h

theorem definition_cached {c : Component F} {d : ComponentDef F}
    (h : c.definition.2.cached = some d) : c.definition.1 = .ok d := by
  unfold definition at h ⊢
  split at h
  next d' hcached =>
    rw [hcached] at h
    cases h
    simp
  next hcached =>
    simp only [hcached]
    split at h
    next argnames hnames =>
      cases h
      rfl
    next =>
      rw [hcached] at h
      cases h

/-- Every answer was that for the declarations at some point of the history. -/
theorem cached_origin {py : PyLibs F} {c : Component F} (hc : c.cached = none)
    {calls : List (Call F)} {d : ComponentDef F}
    (h : (calls.foldl (Call.run py) c).cached = some d) :
    ∃ before, List.IsPrefix before calls ∧ d = (before.foldl (Call.run py) c).compDef ∧
      Distinct (before.foldl (Call.run py) c).nameDecls := by
  induction calls using List.reverseRecOn with
  | nil =>
    rw [List.foldl_nil, hc] at h
    cases h
  | append_singleton calls call ih =>
    have hlonger := List.prefix_append calls [call]
    have hprefix : (calls.foldl (Call.run py) c).cached = some d →
        ∃ before, List.IsPrefix before (calls ++ [call]) ∧
          d = (before.foldl (Call.run py) c).compDef ∧
          Distinct (before.foldl (Call.run py) c).nameDecls := by
      intro hcached
      obtain ⟨before, hbefore, horigin⟩ := ih hcached
      exact ⟨before, hbefore.trans hlonger, horigin⟩
    rw [List.foldl_concat] at h
    rcases call.run_cases py (calls.foldl (Call.run py) c) with rfl | ⟨decl, _, hrun⟩ | ⟨_, hrun⟩
    · rcases definition_eq_ok (definition_cached h) with hcached | horigin
      · exact hprefix hcached
      · exact ⟨calls, hlonger, horigin⟩
    · rw [hrun, cached_declare] at h
      exact hprefix h
    · rw [hrun] at h
      exact hprefix h

theorem definition_origin {py : PyLibs F} {c : Component F} (hc : c.cached = none)
    {calls : List (Call F)} {d : ComponentDef F}
    (h : (calls.foldl (Call.run py) c).definition.1 = .ok d) :
    ∃ before, List.IsPrefix before calls ∧ d = (before.foldl (Call.run py) c).compDef ∧
      Distinct (before.foldl (Call.run py) c).nameDecls := by
  rcases definition_eq_ok h with hcached | horigin
  · exact cached_origin hc hcached
  · exact ⟨calls, List.prefix_rfl, horigin⟩

end Component

/-- All that the definition lists, as a property of declarations. -/
structure ComponentDef.Lists (P : Declaration F → Prop) (d : ComponentDef F) : Prop where
  attrs : ∀ attr ∈ d.attrs, P (.attr attr)
  inputs : ∀ io ∈ d.inputs, P (.input io)
  outputs : ∀ io ∈ d.outputs, P (.output io)

namespace Component

theorem lists_declare {P : Declaration F → Prop} {c : Component F} (h : c.compDef.Lists P)
    {decl : Declaration F} (hdecl : P decl) : (c.declare decl).compDef.Lists P := by
  obtain ⟨hattrs, hinputs, houtputs⟩ := h
  cases decl with
  | attr attr =>
    exact ⟨List.forall_mem_append.mpr ⟨hattrs, by simpa using hdecl⟩, hinputs, houtputs⟩
  | input io =>
    exact ⟨hattrs, List.forall_mem_append.mpr ⟨hinputs, by simpa using hdecl⟩, houtputs⟩
  | output io =>
    exact ⟨hattrs, hinputs, List.forall_mem_append.mpr ⟨houtputs, by simpa using hdecl⟩⟩

theorem lists_run {py : PyLibs F} {P : Declaration F → Prop} {c : Component F}
    (h : c.compDef.Lists P) {call : Call F}
    (hcall : ∀ decl, call.declaration py = some decl → P decl) :
    (call.run py c).compDef.Lists P := by
  rcases call.run_cases py c with rfl | ⟨decl, hdecl, hrun⟩ | ⟨_, hrun⟩
  · rw [Call.run, definition_compDef]
    exact h
  · rw [hrun]
    exact lists_declare h (hcall decl hdecl)
  · rwa [hrun]

theorem lists_history {py : PyLibs F} {P : Declaration F → Prop} {calls : List (Call F)}
    {c : Component F} (h : c.compDef.Lists P)
    (hcalls : ∀ call ∈ calls, ∀ decl, call.declaration py = some decl → P decl) :
    (calls.foldl (Call.run py) c).compDef.Lists P := by
  induction calls generalizing c with
  | nil => exact h
  | cons call calls ih =>
    rw [List.forall_mem_cons] at hcalls
    exact ih (lists_run h hcalls.1) hcalls.2

/-- What every call declares, an answer of `definition` lists, under different names. -/
theorem definition_lists {py : PyLibs F} {P : Declaration F → Prop}
    {name domain version desc : String} {calls : List (Call F)} {d : ComponentDef F}
    (hcalls : ∀ call ∈ calls, ∀ decl, call.declaration py = some decl → P decl)
    (h : (calls.foldl (Call.run py) (.new py name domain version desc)).definition.1 = .ok d) :
    d.Lists P ∧ (d.attrs.map AttributeDef.name).Nodup ∧ (d.inputs.map IoDef.name).Nodup := by
  obtain ⟨before, ⟨after, rfl⟩, rfl, hdistinct⟩ := definition_origin rfl h
  have hempty : (Component.new py name domain version desc).compDef.Lists P :=
    ⟨fun _ hattr => absurd hattr List.not_mem_nil, fun _ hio => absurd hio List.not_mem_nil,
      fun _ hio => absurd hio List.not_mem_nil⟩
  have hnodup := hdistinct.nodup
  simp only [nameDecls, List.map_append, List.map_map] at hnodup
  obtain ⟨hattrs, hinputs, _⟩ := List.nodup_append.mp (List.nodup_append.mp hnodup).1
  exact ⟨lists_history hempty fun call hcall => hcalls call (List.mem_append_left _ hcall),
    hattrs, hinputs⟩

end Component

def tableInput (name : String) (columns : List String) : IoArgs where
  ioType := .input
  name := name
  desc := ""
  types := []
  colParams := some (columns.map fun column => ⟨column, "", none, none⟩)

def plainOutput (name : String) : IoArgs where
  ioType := .output
  name := name
  desc := ""
  types := []

/-- An attribute that is declared after the definition was asked for is never listed, and a
    column `ids` of the input `t` rules out an output `t_ids`. -/
theorem definition_ignores_declaration :
    (∃ c : Component Int, [Call.definition, .intAttr maxDepth {}].foldl (Call.run plainPy)
        (.new plainPy "" "" "" "") = c ∧
      c.attrDecls.map AttributeDef.name = ["max_depth"] ∧
      ∃ d, c.definition.1 = .ok d ∧ d.attrs = []) ∧
    (∃ c : Component Int, [Call.io (tableInput "t" ["ids"]), .io (plainOutput "t_ids")].foldl
        (Call.run plainPy) (.new plainPy "" "" "" "") = c ∧
      c.names = ["t", "t_ids"] ∧
      c.definition.1 = .error (.compDeclError "output t_ids is duplicate.")) :=
  ⟨⟨_, rfl, rfl, _, rfl, rfl⟩, ⟨_, rfl, rfl, rfl⟩⟩

end TrustFlow.Componentize
