import Mathlib.Data.List.Perm.Basic
import TrustFlow.Transitions

/-! # Loops that start asynchronous tasks

A loop goes through a list of items.  Its body either does the work for an item or
starts a task for it, and an exception ends the loop; the tasks work on the same
state and take effect in any order, before or after the rest of the loop.  At the
end all tasks are waited for, and an exception is rethrown.

* `TaskPool` — the body of the loop and the tasks;
* `TaskPool.Runs` — a number of steps of the loop and the tasks;
* `TaskPool.EndsIn` — every run ends, and in a state that meets a postcondition;
* `TaskPool.Tracks` — what bodies and tasks do for their items and leave to the others;
* `TaskPool.Tracks.done_of_endsIn` — when nothing is rethrown, every item was done;
* `TaskPool.Works.endsIn` — when nothing can fail, every run does every item.
-/

namespace TrustFlow

structure TaskPool (ι σ ε : Type) where
  /-- One iteration, and whether it started a task for the item. -/
  body : ι → σ → Except ε Bool × σ
  task : ι → σ → Except ε Unit → σ → Prop
  task_total : ∀ i s, ∃ result s', task i s result s'

/-- The items that the loop has still to reach, the tasks that have still to take effect, and the
    exception that is rethrown at the end: of the loop, or of the first task to fail. -/
structure PoolState (ι ε : Type) where
  todo : List ι
  tasks : List ι := []
  error : Option ε := none

namespace TaskPool

variable {ι σ ε : Type}

inductive Step (P : TaskPool ι σ ε) : σ → PoolState ι ε → σ → PoolState ι ε → Prop where
  | launch {i s s' todo tasks error} :
      P.body i s = (.ok true, s') →
      Step P s ⟨i :: todo, tasks, error⟩ s' ⟨todo, tasks ++ [i], error⟩
  | inline {i s s' todo tasks error} :
      P.body i s = (.ok false, s') →
      Step P s ⟨i :: todo, tasks, error⟩ s' ⟨todo, tasks, error⟩
  | throws {i s s' todo tasks error e} :
      P.body i s = (.error e, s') →
      Step P s ⟨i :: todo, tasks, error⟩ s' ⟨[], tasks, some e⟩
  | complete {i s s' todo error} (before after : List ι) :
      P.task i s (.ok ()) s' →
      Step P s ⟨todo, before ++ i :: after, error⟩ s' ⟨todo, before ++ after, error⟩
  | fails {i s s' todo error e} (before after : List ι) :
      P.task i s (.error e) s' →
      Step P s ⟨todo, before ++ i :: after, error⟩ s' ⟨todo, before ++ after, error.or (some e)⟩

def Next (P : TaskPool ι σ ε) (a b : σ × PoolState ι ε) : Prop := P.Step a.1 a.2 b.1 b.2

def Runs (P : TaskPool ι σ ε) (s : σ) (p : PoolState ι ε) (s' : σ) (p' : PoolState ι ε) : Prop :=
  Relation.ReflTransGen P.Next (s, p) (s', p')

/-- Every run from here ends, and in a state that meets `Q`. -/
def EndsIn (P : TaskPool ι σ ε) (Q : σ → Option ε → Prop) (s : σ) (p : PoolState ι ε) : Prop :=
  TrustFlow.EndsIn P.Next (fun a => Q a.1 a.2.error) (s, p)

variable {P : TaskPool ι σ ε} {s s' : σ} {p p' : PoolState ι ε} {Q : σ → Option ε → Prop}

theorem Runs.refl (P : TaskPool ι σ ε) (s : σ) (p : PoolState ι ε) : P.Runs s p s p :=
  Relation.ReflTransGen.refl

theorem Runs.head {s'' : σ} {p'' : PoolState ι ε} (hstep : P.Step s p s' p')
    (hrun : P.Runs s' p' s'' p'') : P.Runs s p s'' p'' :=
  Relation.ReflTransGen.head (show P.Next (s, p) (s', p') from hstep) hrun

/-! ## Runs end -/

def size (p : PoolState ι ε) : Nat := 2 * p.todo.length + p.tasks.length

theorem size_lt_of_step (h : P.Step s p s' p') : size p' < size p := by
  cases h with
  | launch | inline | throws | complete | fails =>
    simp only [size, List.length_cons, List.length_append, List.length_nil]
    omega

theorem exists_step (h : p.todo ≠ [] ∨ p.tasks ≠ []) : ∃ s' p', P.Step s p s' p' := by
  obtain ⟨todo, tasks, error⟩ := p
  cases todo with
  | cons i todo =>
    cases hbody : P.body i s with
    | mk result s' =>
      cases result with
      | error e => exact ⟨_, _, .throws hbody⟩
      | ok launched =>
        cases launched with
        | true => exact ⟨_, _, .launch hbody⟩
        | false => exact ⟨_, _, .inline hbody⟩
  | nil =>
    cases tasks with
    | nil => simp at h
    | cons i tasks =>
      obtain ⟨result, s', htask⟩ := P.task_total i s
      cases result with
      | ok u => exact ⟨s', _, .complete [] tasks htask⟩
      | error e => exact ⟨s', _, .fails [] tasks htask⟩

theorem stuck_iff : Stuck P.Next (s, p) ↔ p = ⟨[], [], p.error⟩ := by
  constructor
  · intro hstuck
    obtain ⟨todo, tasks, error⟩ := p
    by_contra hrest
    have hsome : todo ≠ [] ∨ tasks ≠ [] := by
      by_contra hnone
      simp only [ne_eq, not_or, not_not] at hnone
      exact hrest (by rw [hnone.1, hnone.2])
    obtain ⟨s', p', hstep⟩ := exists_step (P := P) (s := s) (p := ⟨todo, tasks, error⟩) hsome
    exact hstuck (s', p') hstep
  · rintro heq ⟨s', p'⟩ hstep
    have hlt : size p' < size p := size_lt_of_step hstep
    rw [heq] at hlt
    simp [size] at hlt

theorem EndsIn.of_runs {error : Option ε} (h : P.EndsIn Q s p)
    (hrun : P.Runs s p s' ⟨[], [], error⟩) : Q s' error :=
  h.of_run hrun (stuck_iff.mpr rfl)

theorem EndsIn.mono {Q' : σ → Option ε → Prop} (himp : ∀ s error, Q s error → Q' s error)
    (h : P.EndsIn Q s p) : P.EndsIn Q' s p :=
  TrustFlow.EndsIn.mono (fun a => himp a.1 a.2.error) h

theorem EndsIn.exists_of (h : P.EndsIn Q s p) : ∃ s' error, Q s' error := by
  obtain ⟨b, _, hQ, _⟩ := TrustFlow.EndsIn.exists_end (fun _ => True) (fun _ _ => trivial) h trivial
  exact ⟨_, _, hQ⟩

/-! ## Single steps -/

theorem Step.mem {i : ι} (h : P.Step s p s' p') (hi : i ∈ p'.todo ++ p'.tasks) :
    i ∈ p.todo ++ p.tasks := by
  cases h with
  | launch | inline | throws | complete | fails =>
    simp only [List.mem_append, List.mem_cons, List.not_mem_nil] at hi ⊢
    tauto

/-- A step can be taken from every state that looks the same to the bodies and the tasks. -/
theorem Step.simulate {See : σ → σ → Prop} {u : σ} (h : P.Step s p s' p')
    (hbody : ∀ i ∈ p.todo, ∀ {r}, P.body i s = (r, s') → ∃ u', P.body i u = (r, u') ∧ See s' u')
    (htask : ∀ i ∈ p.tasks, ∀ {r}, P.task i s r s' → ∃ u', P.task i u r u' ∧ See s' u') :
    ∃ u', P.Step u p u' p' ∧ See s' u' := by
  cases h with
  | launch h =>
    obtain ⟨u', hu, hsee⟩ := hbody _ List.mem_cons_self h
    exact ⟨u', .launch hu, hsee⟩
  | inline h =>
    obtain ⟨u', hu, hsee⟩ := hbody _ List.mem_cons_self h
    exact ⟨u', .inline hu, hsee⟩
  | throws h =>
    obtain ⟨u', hu, hsee⟩ := hbody _ List.mem_cons_self h
    exact ⟨u', .throws hu, hsee⟩
  | complete before after h =>
    obtain ⟨u', hu, hsee⟩ := htask _ (by simp) h
    exact ⟨u', .complete before after hu, hsee⟩
  | fails before after h =>
    obtain ⟨u', hu, hsee⟩ := htask _ (by simp) h
    exact ⟨u', .fails before after hu, hsee⟩

/-! ## Work on the items -/

/-- From `s` to `s'` the invariant is kept, and what is prepared or done stays so. -/
structure Keeps (items : List ι) (Inv : σ → Prop) (Ready Done : ι → σ → Prop) (s' s : σ) :
    Prop where
  inv : Inv s'
  ready : ∀ i ∈ items, Ready i s → Ready i s'
  done : ∀ i ∈ items, Done i s → Done i s'

/-- A body prepares the task of its item or does the work itself, a task does the work, and both
    leave the other items alone. -/
structure Tracks (P : TaskPool ι σ ε) (items : List ι) (Inv : σ → Prop)
    (Ready Done : ι → σ → Prop) : Prop where
  body : ∀ i ∈ items, ∀ {s r s'}, Inv s → P.body i s = (r, s') →
    Keeps items Inv Ready Done s' s ∧ (r = .ok true → Ready i s') ∧ (r = .ok false → Done i s')
  task : ∀ i ∈ items, ∀ {s r s'}, Inv s → Ready i s → P.task i s r s' →
    Keeps items Inv Ready Done s' s ∧ (r = .ok () → Done i s')

/-- As `Tracks`, and no body throws and no task fails. -/
structure Works (P : TaskPool ι σ ε) (items : List ι) (Inv : σ → Prop)
    (Ready Done : ι → σ → Prop) : Prop where
  body : ∀ i ∈ items, ∀ {s}, Inv s → ∃ s', Keeps items Inv Ready Done s' s ∧
    (P.body i s = (.ok true, s') ∧ Ready i s' ∨ P.body i s = (.ok false, s') ∧ Done i s')
  task : ∀ i ∈ items, ∀ {s r s'}, Inv s → Ready i s → P.task i s r s' →
    r = .ok () ∧ Keeps items Inv Ready Done s' s ∧ Done i s'

/-- Every item is still to be reached, in the hands of its task, or done. -/
structure Tracked (items : List ι) (Inv : σ → Prop) (Ready Done : ι → σ → Prop) (s : σ)
    (p : PoolState ι ε) : Prop where
  inv : Inv s
  mem : ∀ i ∈ p.todo ++ p.tasks, i ∈ items
  ready : ∀ i ∈ p.tasks, Ready i s
  done : p.error = none → ∀ i ∈ items, i ∈ p.todo ∨ i ∈ p.tasks ∨ Done i s

section Tracks

variable {items : List ι} {Inv : σ → Prop} {Ready Done : ι → σ → Prop}

theorem Tracked.start {todo : List ι} (hperm : todo.Perm items) (h : Inv s) :
    Tracked (ε := ε) items Inv Ready Done s ⟨todo, [], none⟩ where
  inv := h
  mem i hi := hperm.mem_iff.mp (by simpa using hi)
  ready i hi := absurd hi List.not_mem_nil
  done _ i hi := .inl (hperm.mem_iff.mpr hi)

theorem Tracked.body {i : ι} {todo tasks : List ι} {error : Option ε}
    (hkeeps : Keeps items Inv Ready Done s' s)
    (h : Tracked items Inv Ready Done s ⟨i :: todo, tasks, error⟩) :
    Inv s' ∧ (∀ k ∈ todo ++ tasks, k ∈ items) ∧ (∀ k ∈ tasks, Ready k s') ∧
      (error = none → ∀ k ∈ items, k = i ∨ k ∈ todo ∨ k ∈ tasks ∨ Done k s') := by
  refine ⟨hkeeps.inv, fun k hk => h.mem k (by simp_all), fun k hk => ?_, fun herror k hk => ?_⟩
  · exact hkeeps.ready k (h.mem k (by simp [hk])) (h.ready k hk)
  · rcases h.done herror k hk with htodo | htask | hdone
    · exact (List.mem_cons.mp htodo).imp_right .inl
    · exact .inr (.inr (.inl htask))
    · exact .inr (.inr (.inr (hkeeps.done k hk hdone)))

theorem Tracked.task {i : ι} {todo before after : List ι} {error : Option ε}
    (hkeeps : Keeps items Inv Ready Done s' s)
    (h : Tracked items Inv Ready Done s ⟨todo, before ++ i :: after, error⟩) :
    Inv s' ∧ (∀ k ∈ todo ++ (before ++ after), k ∈ items) ∧
      (∀ k ∈ before ++ after, Ready k s') ∧
      (error = none → ∀ k ∈ items, k = i ∨ k ∈ todo ∨ k ∈ before ++ after ∨ Done k s') := by
  have htask : ∀ {k}, k ∈ before ++ after → k ∈ before ++ i :: after := by
    intro k hk
    simp only [List.mem_append, List.mem_cons] at hk ⊢
    exact hk.imp_right .inr
  refine ⟨hkeeps.inv, fun k hk => h.mem k ?_, fun k hk => ?_, fun herror k hk => ?_⟩
  · exact List.mem_append.mpr ((List.mem_append.mp hk).imp_right htask)
  · exact hkeeps.ready k (h.mem k (List.mem_append_right _ (htask hk))) (h.ready k (htask hk))
  · rcases h.done herror k hk with htodo | hrunning | hdone
    · exact .inr (.inl htodo)
    · simp only [List.mem_append, List.mem_cons] at hrunning ⊢
      tauto
    · exact .inr (.inr (.inr (hkeeps.done k hk hdone)))

theorem Tracks.step (hP : P.Tracks items Inv Ready Done) (hstep : P.Step s p s' p')
    (h : Tracked items Inv Ready Done s p) : Tracked items Inv Ready Done s' p' := by
  cases hstep with
  | @launch i _ _ todo tasks error hbody =>
    obtain ⟨hkeeps, hready, _⟩ := hP.body i (h.mem i (by simp)) h.inv hbody
    obtain ⟨hinv, hmem, htasks, hdone⟩ := h.body hkeeps
    refine ⟨hinv, fun k hk => ?_, fun k hk => ?_, fun herror k hk => ?_⟩
    · simp only [List.mem_append, List.mem_singleton] at hk
      rcases hk with hk | hk | rfl
      · exact hmem k (List.mem_append_left _ hk)
      · exact hmem k (List.mem_append_right _ hk)
      · exact h.mem k (by simp)
    · rcases List.mem_append.mp hk with hk | hk
      · exact htasks k hk
      · exact List.mem_singleton.mp hk ▸ hready rfl
    · simp only [List.mem_append, List.mem_singleton]
      rcases hdone herror k hk with rfl | hk | hk | hk
      · exact .inr (.inl (.inr rfl))
      · exact .inl hk
      · exact .inr (.inl (.inl hk))
      · exact .inr (.inr hk)
  | @inline i _ _ todo tasks error hbody =>
    obtain ⟨hkeeps, _, hworked⟩ := hP.body i (h.mem i (by simp)) h.inv hbody
    obtain ⟨hinv, hmem, htasks, hdone⟩ := h.body hkeeps
    refine ⟨hinv, hmem, htasks, fun herror k hk => ?_⟩
    rcases hdone herror k hk with rfl | hk
    · exact .inr (.inr (hworked rfl))
    · exact hk
  | @throws i _ _ todo tasks error e hbody =>
    obtain ⟨hkeeps, _⟩ := hP.body i (h.mem i (by simp)) h.inv hbody
    obtain ⟨hinv, hmem, htasks, _⟩ := h.body hkeeps
    exact ⟨hinv, fun k hk => hmem k (List.mem_append_right _ hk), htasks,
      fun herror => nomatch herror⟩
  | @complete i _ _ todo error before after htask =>
    obtain ⟨hkeeps, hworked⟩ := hP.task i (h.mem i (by simp)) h.inv (h.ready i (by simp)) htask
    obtain ⟨hinv, hmem, htasks, hdone⟩ := h.task hkeeps
    refine ⟨hinv, hmem, htasks, fun herror k hk => ?_⟩
    rcases hdone herror k hk with rfl | hk
    · exact .inr (.inr (hworked rfl))
    · exact hk
  | @fails i _ _ todo error e before after htask =>
    obtain ⟨hkeeps, _⟩ := hP.task i (h.mem i (by simp)) h.inv (h.ready i (by simp)) htask
    obtain ⟨hinv, hmem, htasks, _⟩ := h.task hkeeps
    exact ⟨hinv, hmem, htasks, fun herror => by cases error <;> cases herror⟩

theorem Works.tracks (hP : P.Works items Inv Ready Done) : P.Tracks items Inv Ready Done where
  body i hi s r s' hinv hbody := by
    obtain ⟨s'', hkeeps, hworks⟩ := hP.body i hi hinv
    rcases hworks with ⟨hlaunched, hready⟩ | ⟨hinline, hdone⟩
    · cases hbody.symm.trans hlaunched
      exact ⟨hkeeps, fun _ => hready, fun h => nomatch h⟩
    · cases hbody.symm.trans hinline
      exact ⟨hkeeps, (fun h => nomatch h), fun _ => hdone⟩
  task i hi s r s' hinv hready htask :=
    have ⟨_, hkeeps, hdone⟩ := hP.task i hi hinv hready htask
    ⟨hkeeps, fun _ => hdone⟩

theorem Works.endsIn (hP : P.Works items Inv Ready Done) {todo : List ι}
    (hperm : todo.Perm items) (h : Inv s) :
    P.EndsIn (fun s' error => error = none ∧ Inv s' ∧ ∀ i ∈ items, Done i s') s
      ⟨todo, [], none⟩ := by
  refine endsIn_of_invariant (R := P.Next) (fun a => size a.2) size_lt_of_step
    (fun a => a.2.error = none ∧ Tracked items Inv Ready Done a.1 a.2) ?_ ?_ ⟨rfl, .start hperm h⟩
  · rintro ⟨s, p⟩ ⟨s', p'⟩ hstep ⟨herror, htracked⟩
    refine ⟨?_, hP.tracks.step hstep htracked⟩
    cases hstep with
    | launch | inline | complete => exact herror
    | @throws i _ _ _ _ _ _ hbody =>
      obtain ⟨s'', _, hworks⟩ := hP.body i (htracked.mem i (by simp)) htracked.inv
      simp [hbody] at hworks
    | fails before after htask =>
      have hok := (hP.task _ (htracked.mem _ (by simp)) htracked.inv
        (htracked.ready _ (by simp)) htask).1
      cases hok
  · rintro ⟨s, p⟩ hstuck ⟨herror, htracked⟩
    refine ⟨herror, htracked.inv, fun i hi => ?_⟩
    have hdone := htracked.done herror i hi
    rw [stuck_iff.mp hstuck] at hdone
    simpa using hdone

/-- Whether anything fails or not, every run ends with the invariant, and with every item done if
    nothing is rethrown. -/
theorem Tracks.endsIn (hP : P.Tracks items Inv Ready Done) {todo : List ι}
    (hperm : todo.Perm items) (h : Inv s) :
    P.EndsIn (fun s' error => Inv s' ∧ (error = none → ∀ i ∈ items, Done i s')) s
      ⟨todo, [], none⟩ := by
  refine endsIn_of_invariant (R := P.Next) (fun a => size a.2) size_lt_of_step
    (fun a => Tracked items Inv Ready Done a.1 a.2) (fun hstep => hP.step hstep) ?_
    (.start hperm h)
  rintro ⟨s, p⟩ hstuck htracked
  refine ⟨htracked.inv, fun herror i hi => ?_⟩
  have hdone := htracked.done herror i hi
  rw [stuck_iff.mp hstuck] at hdone
  simpa using hdone

theorem Tracks.done_of_endsIn (hP : P.Tracks items Inv Ready Done) {todo : List ι}
    (hperm : todo.Perm items) (h : Inv s) (hends : P.EndsIn Q s ⟨todo, [], none⟩) :
    ∃ s' error, Q s' error ∧ Inv s' ∧ (error = none → ∀ i ∈ items, Done i s') := by
  obtain ⟨⟨s', p'⟩, hstuck, hQ, htracked⟩ := TrustFlow.EndsIn.exists_end
    (fun a : σ × PoolState ι ε => Tracked items Inv Ready Done a.1 a.2)
    (fun hstep => hP.step hstep) hends (.start hperm h)
  refine ⟨s', p'.error, hQ, htracked.inv, fun herror i hi => ?_⟩
  have hdone := htracked.done herror i hi
  rw [stuck_iff.mp hstuck] at hdone
  simpa using hdone

end Tracks

end TaskPool

end TrustFlow
