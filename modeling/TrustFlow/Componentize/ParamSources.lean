import TrustFlow.Componentize.ListConstraints
import TrustFlow.Componentize.ReaderSpec

/-! # Where a parameter comes from

Paths and attributes arrive as two lists.  The reader pairs them up to the end of the shorter
one, and an attribute that is not available leaves no trace of its path.  Of what is paired,
each declared attribute gets the one message that is available for it.

* `takesGiven` — the value of a declared attribute, of all parameters that are accepted;
* `paramSources_iff` — when accepted parameters are unambiguous. -/

namespace TrustFlow.Componentize

variable {F : Type}

/-- A declared attribute has the value of an available message that is paired with its path, and
    the default value if there is none. -/
def TakesGiven (d : ComponentDef F) (p : NodeEvalParam F) (reader : EvalParamReader F) : Prop :=
  ∀ attr ∈ d.attrs,
    (∀ message, (attr.fullName, message) ∈ p.given → message.isNa = false →
      reader.getAttr attr.fullName = Slot.value <$> getValue (.message message) attr.type) ∧
    ((∀ message, (attr.fullName, message) ∈ p.given → message.isNa = true) →
      reader.getAttr attr.fullName =
        Slot.value <$> getValue (.message attr.atomic.defaultValue) attr.type)

/-- Each path has an attribute, no path is repeated, and the values are those of the pairs. -/
structure Unambiguous (d : ComponentDef F) (p : NodeEvalParam F) (reader : EvalParamReader F) :
    Prop where
  length_eq : p.attrPaths.length = p.attrs.length
  nodup : p.attrPaths.Nodup
  takesGiven : TakesGiven d p reader

theorem takesGiven {py : PyLibs F} {d : ComponentDef F} {p : NodeEvalParam F}
    {reader : EvalParamReader F} (h : EvalParamReader.new py p d = .ok reader) :
    TakesGiven d p reader := by
  intro attr hattr
  obtain ⟨_, _, honce, _⟩ := EvalParamReader.exists_new_iff.mp ⟨reader, h⟩
  obtain ⟨v, ⟨_, message, hmessage, _, hv⟩, hget⟩ := EvalParamReader.getAttr_eq_ok h hattr
  refine ⟨fun given hgiven hna => ?_, fun hnone => ?_⟩
  · have hslot : p.slot attr.fullName = some (.message given) := by
      rw [NodeEvalParam.slot, available_of_mem honce hgiven hna]
      rfl
    rw [hslot] at hmessage
    rcases hmessage with heq | ⟨hnone, _⟩
    · cases heq
      rw [hget, hv]
      rfl
    · cases hnone
  · have hslot : p.slot attr.fullName = none := by
      rw [NodeEvalParam.slot, available_eq_none_iff.mpr hnone]
      rfl
    rw [hslot] at hmessage
    rcases hmessage with hsome | ⟨_, _, rfl⟩
    · cases hsome
    · rw [hget, hv]
      rfl

theorem nodup_attrPaths_iff {p : NodeEvalParam F} (hlen : p.attrPaths.length = p.attrs.length) :
    p.attrPaths.Nodup ↔
      GivenOnce p.given ∧ p.given.Pairwise fun a b => a.2.isNa = true → b.1 ≠ a.1 := by
  have hpaths : p.given.map Prod.fst = p.attrPaths := List.map_fst_zip hlen.le
  rw [← hpaths, List.Nodup, List.pairwise_map, GivenOnce, ← List.pairwise_and_iff]
  refine ⟨List.Pairwise.imp ?_, List.Pairwise.imp ?_⟩
  · intro a b hne
    exact ⟨fun _ => hne.symm, fun _ => hne.symm⟩
  · rintro a b ⟨havailable, habsent⟩
    cases hna : a.2.isNa with
    | false => exact (havailable hna).symm
    | true => exact (habsent hna).symm

/-- Accepted parameters are unambiguous if and only if the lists are of one length and the path
    of an attribute that is not available does not come again. -/
theorem paramSources_iff {py : PyLibs F} {d : ComponentDef F} {p : NodeEvalParam F}
    {reader : EvalParamReader F} (h : EvalParamReader.new py p d = .ok reader) :
    Unambiguous d p reader ↔ p.attrPaths.length = p.attrs.length ∧
      p.given.Pairwise fun a b => a.2.isNa = true → b.1 ≠ a.1 := by
  obtain ⟨_, _, honce, _⟩ := EvalParamReader.exists_new_iff.mp ⟨reader, h⟩
  constructor
  · intro hp
    exact ⟨hp.length_eq, ((nodup_attrPaths_iff hp.length_eq).mp hp.nodup).2⟩
  · rintro ⟨hlen, habsent⟩
    exact ⟨hlen, (nodup_attrPaths_iff hlen).mpr ⟨honce, habsent⟩, takesGiven h⟩

/-- The component that declares `max_depth` only. -/
def depthComponent : Component Int :=
  Call.run plainPy (Component.new plainPy "" "" "" "") (.intAttr maxDepth {})

def depthReader (depth : Int64) : EvalParamReader Int :=
  ⟨[("max_depth", .value (.int depth))], [], []⟩

theorem paramSources_depth :
    Unambiguous depthComponent.compDef
      (plainParam [("max_depth", { f := 0, i64 := 9 })] []) (depthReader 9) := by
  have hnew : EvalParamReader.new plainPy (plainParam [("max_depth", { f := 0, i64 := 9 })] [])
      depthComponent.compDef = .ok (depthReader 9) := rfl
  exact (paramSources_iff hnew).mpr ⟨rfl, List.pairwise_singleton _ _⟩

/-- A path without an attribute is dropped and the default value takes effect, and a path that
    is given twice is accepted. -/
theorem parameter_dropped :
    depthComponent.definition.1 = .ok depthComponent.compDef ∧
      EvalParamReader.new plainPy { plainParam [] [] with attrPaths := ["max_depth"] }
        depthComponent.compDef = .ok (depthReader 6) ∧
      EvalParamReader.new plainPy
        (plainParam [("max_depth", { f := 0, isNa := true }), ("max_depth", { f := 0, i64 := 9 })]
          []) depthComponent.compDef = .ok (depthReader 9) :=
  ⟨rfl, rfl, rfl⟩

end TrustFlow.Componentize
