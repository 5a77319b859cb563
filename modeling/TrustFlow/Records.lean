import TrustFlow.Exception

/-! # Records, member by member

A format writes a record as a list of named members, and a reader takes them into an empty
record one after the other.  The writer may leave members out, and it need not be the library
that reads.

* `foldlM_members` — a reader that takes every member for the field it was written for, and
  whose empty record has the values that are left out, ends with all fields copied;
* `foldlM_ne_ok` — a member that is refused wherever it comes is the end of a reader. -/

namespace TrustFlow.Records

variable {K V ε α : Type}

/-- A field as it is written, or left out.  `copy a b` is `b` with the field of `a`. -/
structure Member (K V α : Type) where
  name : K
  write : α → Option V
  copy : α → α → α

def members (fields : List (Member K V α)) (a : α) : List (K × V) :=
  fields.filterMap fun f => (f.write a).map fun v => (f.name, v)

def copyAll (fields : List (Member K V α)) (a b : α) : α :=
  fields.foldl (fun b f => f.copy a b) b

theorem keys_members_sublist (fields : List (Member K V α)) (a : α) :
    ((members fields a).map Prod.fst).Sublist (fields.map Member.name) := by
  induction fields with
  | nil => exact List.Sublist.refl []
  | cons f fields ih =>
    cases hwrite : f.write a with
    | none => simpa [members, hwrite] using ih.cons f.name
    | some v => simpa [members, hwrite] using ih.cons_cons f.name

/-- Two different fields. -/
def Apart (f g : Member K V α) : Prop :=
  ∀ a a' b, g.copy a' (f.copy a b) = f.copy a (g.copy a' b)

/-- A reader takes the field of a record over into one that has the field empty. -/
structure Taken (step : α → K × V → Except ε α) (empty a : α) (f : Member K V α) : Prop where
  written : ∀ v b, f.write a = some v → f.copy empty b = b →
    step b (f.name, v) = .ok (f.copy a b)
  leftOut : f.write a = none → ∀ b, f.copy empty b = b → f.copy a b = b

theorem foldlM_members {step : α → K × V → Except ε α} {empty a b : α}
    {fields : List (Member K V α)} (htaken : ∀ f ∈ fields, Taken step empty a f)
    (hapart : fields.Pairwise Apart) (hempty : ∀ f ∈ fields, f.copy empty b = b) :
    (members fields a).foldlM step b = .ok (copyAll fields a b) := by
  induction fields generalizing b with
  | nil => rfl
  | cons f fields ih =>
    obtain ⟨hf, hrest⟩ := List.forall_mem_cons.mp htaken
    obtain ⟨hfirst, hpairs⟩ := List.pairwise_cons.mp hapart
    obtain ⟨hb, hothers⟩ := List.forall_mem_cons.mp hempty
    -- The fields that are still to come stay empty.
    have hnext : ∀ g ∈ fields, g.copy empty (f.copy a b) = f.copy a b := by
      intro g hg
      rw [hfirst g hg, hothers g hg]
    have hcopied := ih hrest hpairs hnext
    cases hwrite : f.write a with
    | none =>
      rw [hf.leftOut hwrite b hb] at hcopied
      simpa [members, copyAll, hwrite, hf.leftOut hwrite b hb] using hcopied
    | some v =>
      have hstep := hf.written v b hwrite hb
      simp only [members, List.filterMap_cons, hwrite, Option.map_some, List.foldlM_cons, hstep,
        ok_bind]
      exact hcopied

theorem foldlM_ne_ok {β : Type} {step : α → β → Except ε α} {x : β}
    (hx : ∀ b b', step b x ≠ .ok b') {xs : List β} (hmem : x ∈ xs) (b b' : α) :
    xs.foldlM step b ≠ .ok b' := by
  induction xs generalizing b with
  | nil => cases hmem
  | cons y xs ih =>
    intro hfold
    obtain ⟨c, hc, hfold⟩ := bind_eq_ok.mp hfold
    rcases List.mem_cons.mp hmem with rfl | hmem
    · exact hx b c hc
    · exact ih hmem c hfold

end TrustFlow.Records
