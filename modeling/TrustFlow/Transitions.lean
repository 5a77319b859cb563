import Mathlib.Data.List.Chain
import Mathlib.Logic.Function.Basic
import Mathlib.Logic.Relation

/-! # Transition systems

Rules about what all runs of a system have in common, and all states of a run.

* `EndsIn` — every run ends, and in a state that meets a postcondition.  It follows
  from an invariant and a size that every step makes smaller.
* `forall_mem_iff_isChain` — a run is safe throughout exactly if each of its steps
  meets a condition.
* `Parties` — parties with states of their own that share a state and take their
  steps in any order.  A property of each party holds throughout if neither its own
  steps nor those of another party break it.
-/

namespace TrustFlow

/-! ## Runs that end -/

def Stuck {α : Type} (R : α → α → Prop) (a : α) : Prop := ∀ b, ¬ R a b

inductive EndsIn {α : Type} (R : α → α → Prop) (Q : α → Prop) : α → Prop where
  | done {a} : Stuck R a → Q a → EndsIn R Q a
  | later {a} : (∃ b, R a b) → (∀ b, R a b → EndsIn R Q b) → EndsIn R Q a

section EndsIn

variable {α : Type} {R : α → α → Prop} {Q : α → Prop} {a b : α}

theorem endsIn_of_invariant (size : α → Nat) (hsize : ∀ {a b}, R a b → size b < size a)
    (Inv : α → Prop) (hstep : ∀ {a b}, R a b → Inv a → Inv b)
    (hend : ∀ {a}, Stuck R a → Inv a → Q a) (h : Inv a) : EndsIn R Q a := by
  -- The size of the state bounds the rest of the run.
  induction hn : size a using Nat.strongRecOn generalizing a with
  | ind n ih =>
    by_cases hnext : ∃ b, R a b
    · refine .later hnext fun b hb => ?_
      exact ih (size b) (hn ▸ hsize hb) (hstep hb h) rfl
    · have hstuck : Stuck R a := fun b hb => hnext ⟨b, hb⟩
      exact .done hstuck (hend hstuck h)

/-- Where there is one next state only, the run goes on from there. -/
theorem EndsIn.of_next (hnext : R a b) (honly : ∀ c, R a c → c = b) (h : EndsIn R Q b) :
    EndsIn R Q a := by
  refine .later ⟨b, hnext⟩ fun c hc => ?_
  rw [honly c hc]
  exact h

theorem EndsIn.mono {Q' : α → Prop} (himp : ∀ a, Q a → Q' a) (h : EndsIn R Q a) :
    EndsIn R Q' a := by
  induction h with
  | done hstuck hQ => exact .done hstuck (himp _ hQ)
  | later hnext _ ih => exact .later hnext ih

theorem EndsIn.exists_end (Inv : α → Prop) (hstep : ∀ {a b}, R a b → Inv a → Inv b)
    (h : EndsIn R Q a) (hinv : Inv a) : ∃ b, Stuck R b ∧ Q b ∧ Inv b := by
  induction h with
  | done hstuck hQ => exact ⟨_, hstuck, hQ, hinv⟩
  | later hnext _ ih =>
    obtain ⟨b, hb⟩ := hnext
    exact ih b hb (hstep hb hinv)

/-- There is a run to the end, and it meets the postcondition. -/
theorem EndsIn.exists_run (h : EndsIn R Q a) :
    ∃ b, Relation.ReflTransGen R a b ∧ Stuck R b ∧ Q b := by
  obtain ⟨b, hstuck, hQ, hrun⟩ := h.exists_end (Relation.ReflTransGen R a)
    (fun hstep hrun => hrun.tail hstep) .refl
  exact ⟨b, hrun, hstuck, hQ⟩

theorem EndsIn.of_run (h : EndsIn R Q a) (hrun : Relation.ReflTransGen R a b)
    (hstuck : Stuck R b) : Q b := by
  induction h with
  | done hdone hQ =>
    rcases hrun.cases_head with rfl | ⟨c, hc, _⟩
    · exact hQ
    · exact absurd hc (hdone c)
  | later hnext _ ih =>
    rcases hrun.cases_head with rfl | ⟨c, hc, hrest⟩
    · obtain ⟨c, hc⟩ := hnext
      exact absurd hc (hstuck c)
    · exact ih c hc hrest

end EndsIn

/-! ## Conditions on steps -/

/-- If a step from a safe state is safe exactly if it meets a condition, then a run is safe
    throughout exactly if all its steps meet it. -/
theorem forall_mem_iff_isChain {α : Type} {R C : α → α → Prop} {Safe : α → Prop}
    (Inv : α → Prop) (hinv : ∀ {a b}, R a b → Inv a → Inv b)
    (hsafe : ∀ {a b}, R a b → Inv a → Safe a → (Safe b ↔ C a b)) {a : α} {run : List α}
    (hrun : (a :: run).IsChain R) (ha : Inv a) (ha' : Safe a) :
    (∀ b ∈ a :: run, Safe b) ↔ (a :: run).IsChain C := by
  induction run generalizing a with
  | nil => simp [ha']
  | cons b run ih =>
    obtain ⟨hstep, hrest⟩ := List.isChain_cons_cons.mp hrun
    have hb := hsafe hstep ha ha'
    rw [List.isChain_cons_cons, List.forall_mem_cons]
    constructor
    · rintro ⟨_, hall⟩
      have hb' := hall b List.mem_cons_self
      exact ⟨hb.mp hb', (ih hrest (hinv hstep ha) hb').mp hall⟩
    · rintro ⟨hC, hchain⟩
      exact ⟨ha', (ih hrest (hinv hstep ha) (hb.mpr hC)).mpr hchain⟩

/-! ## Parties that share a state -/

/-- For each party, its steps: from the shared state and its own to new ones. -/
structure Parties (κ σ ρ : Type) where
  step : κ → σ → ρ → σ → ρ → Prop

namespace Parties

variable {κ σ ρ : Type} [DecidableEq κ]

structure Config (κ σ ρ : Type) where
  shared : σ
  own : κ → ρ

def Turn (P : Parties κ σ ρ) (k : κ) (c c' : Config κ σ ρ) : Prop :=
  ∃ r', P.step k c.shared (c.own k) c'.shared r' ∧ c'.own = Function.update c.own k r'

/-- Any number of turns, each by a party that is allowed to take it. -/
def Reaches (P : Parties κ σ ρ) (allowed : Config κ σ ρ → κ → Prop) :
    Config κ σ ρ → Config κ σ ρ → Prop :=
  Relation.ReflTransGen fun c c' => ∃ k, allowed c k ∧ P.Turn k c c'

variable {P : Parties κ σ ρ} {allowed : Config κ σ ρ → κ → Prop} {c c' : Config κ σ ρ}

theorem Reaches.invariant (Inv : κ → σ → ρ → Prop)
    (hown : ∀ {c k s' r'}, allowed c k → Inv k c.shared (c.own k) →
      P.step k c.shared (c.own k) s' r' → Inv k s' r')
    (hother : ∀ {c k j s' r'}, allowed c k → j ≠ k → Inv j c.shared (c.own j) →
      P.step k c.shared (c.own k) s' r' → Inv j s' (c.own j))
    (h : P.Reaches allowed c c') (hinit : ∀ k, Inv k c.shared (c.own k)) :
    ∀ k, Inv k c'.shared (c'.own k) := by
  induction h with
  | refl => exact hinit
  | tail _ hturn ih =>
    obtain ⟨k, hallowed, r', hstep, hown'⟩ := hturn
    intro j
    rw [hown']
    by_cases hj : j = k
    · subst hj
      rw [Function.update_self]
      exact hown hallowed (ih j) hstep
    · rw [Function.update_of_ne hj]
      exact hother hallowed hj (ih j) hstep

/-- A property of the own state alone is out of the reach of the others. -/
theorem Reaches.invariant_own (Inv : κ → ρ → Prop)
    (hstep : ∀ {c k s' r'}, allowed c k → Inv k (c.own k) →
      P.step k c.shared (c.own k) s' r' → Inv k r')
    (h : P.Reaches allowed c c') (hinit : ∀ k, Inv k (c.own k)) : ∀ k, Inv k (c'.own k) :=
  h.invariant (fun k _ r => Inv k r) hstep (fun _ _ hinv _ => hinv) hinit

/-- A run whose steps are all of another kind as well is a run of that kind. -/
theorem Reaches.strengthen {allowed' : Config κ σ ρ → κ → Prop} (h : P.Reaches allowed c c')
    (himp : ∀ {b k}, P.Reaches allowed c b → allowed b k → allowed' b k) :
    P.Reaches allowed' c c' := by
  induction h with
  | refl => exact .refl
  | tail hbefore hturn ih =>
    obtain ⟨k, hallowed, hturn⟩ := hturn
    exact .tail ih ⟨k, himp hbefore hallowed, hturn⟩

/-- A run of one party, with the others at rest. -/
theorem Reaches.alone {k : κ} {s : σ} {r : ρ}
    (h : Relation.ReflTransGen (fun a b : σ × ρ => P.step k a.1 a.2 b.1 b.2)
      (c.shared, c.own k) (s, r)) :
    P.Reaches (fun _ _ => True) c ⟨s, Function.update c.own k r⟩ := by
  have hall : ∀ b, Relation.ReflTransGen (fun a b : σ × ρ => P.step k a.1 a.2 b.1 b.2)
      (c.shared, c.own k) b →
        P.Reaches (fun _ _ => True) c ⟨b.1, Function.update c.own k b.2⟩ := by
    intro b hb
    induction hb with
    | refl =>
      rw [Function.update_eq_self]
      exact .refl
    | @tail b d _ hstep ih =>
      refine .tail ih ⟨k, trivial, d.2, ?_, (Function.update_idem b.2 d.2 c.own).symm⟩
      show P.step k b.1 (Function.update c.own k b.2 k) d.1 d.2
      rwa [Function.update_self]
  exact hall _ h

/-- If a party can take its steps from every shared state that looks the same to it, and does not
    see the steps of the others, then its own states are those of a run that it has alone. -/
theorem Reaches.project (See : κ → σ → σ → Prop) (Inv : κ → ρ → Prop)
    (hinv : ∀ {k s r s' r'}, Inv k r → P.step k s r s' r' → Inv k r')
    (hown : ∀ {k s r s' r' u}, Inv k r → P.step k s r s' r' → See k s u →
      ∃ u', P.step k u r u' r' ∧ See k s' u')
    (hother : ∀ {j k s r s' r' u}, j ≠ k → Inv k r → P.step k s r s' r' → See j s u →
      See j s' u)
    (h : P.Reaches allowed c c') (hinit : ∀ k, Inv k (c.own k))
    (hsee : ∀ k, See k c.shared c.shared) (k : κ) :
    ∃ u, Relation.ReflTransGen (fun a b : σ × ρ => P.step k a.1 a.2 b.1 b.2)
      (c.shared, c.own k) (u, c'.own k) ∧ See k c'.shared u := by
  have hinv' : P.Reaches (fun c k => Inv k (c.own k)) c c' := by
    refine h.strengthen fun hbefore _ => ?_
    exact hbefore.invariant_own Inv (fun _ => hinv) hinit _
  refine hinv'.invariant (fun k s r => ∃ u, Relation.ReflTransGen
      (fun a b : σ × ρ => P.step k a.1 a.2 b.1 b.2) (c.shared, c.own k) (u, r) ∧ See k s u)
    ?_ ?_ (fun k => ⟨c.shared, .refl, hsee k⟩) k
  · rintro c k s' r' hk ⟨u, hrun, hu⟩ hstep
    obtain ⟨u', hstep', hu'⟩ := hown hk hstep hu
    exact ⟨u', hrun.tail hstep', hu'⟩
  · rintro c k j s' r' hk hne ⟨u, hrun, hu⟩ hstep
    exact ⟨u, hrun, hother hne hk hstep hu⟩

/-! ### Schedules -/

/-- The parties named in the list take their turns in its order. -/
def Config.run (f : σ → ρ → σ × ρ) : List κ → Config κ σ ρ → Config κ σ ρ
  | [], c => c
  | k :: ks, c =>
    Config.run f ks ⟨(f c.shared (c.own k)).1, Function.update c.own k (f c.shared (c.own k)).2⟩

theorem Reaches.run {f : σ → ρ → σ × ρ}
    (hf : ∀ k s r, P.step k s r (f s r).1 (f s r).2 ∨ f s r = (s, r)) (ks : List κ)
    (c : Config κ σ ρ) : P.Reaches (fun _ _ => True) c (c.run f ks) := by
  induction ks generalizing c with
  | nil => exact .refl
  | cons k ks ih =>
    rcases hf k c.shared (c.own k) with hstep | hsame
    · exact .head ⟨k, trivial, _, hstep, rfl⟩ (ih _)
    · have hstay : (⟨(f c.shared (c.own k)).1,
          Function.update c.own k (f c.shared (c.own k)).2⟩ : Config κ σ ρ) = c := by
        rw [hsame, Function.update_eq_self]
      rw [Config.run, hstay]
      exact ih c

end Parties

end TrustFlow
