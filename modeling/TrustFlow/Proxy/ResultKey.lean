import TrustFlow.Proxy.SequentialRequests

/-! # The key of a result

A result is encrypted under the key of the request or, if it has none, under a
random one.  The key is sent to the Capsule Manager only if the request has a
resource URI.  A request with neither returns OK, and its key is gone. -/

namespace TrustFlow.Proxy

/-! ## Where the key is -/

def Phase.heldKey : Phase → Option Bytes
  | .received | .failed _ => none
  | .keyed dataKey | .encrypting dataKey _ _ _ | .encrypted dataKey | .uploading dataKey _
  | .uploaded dataKey | .stored dataKey | .succeeded dataKey => some dataKey

def registeredIn (q : PutResultDataRequest) : Phase → List ResultDataKey
  | .succeeded dataKey =>
    if q.cmResultConfig.resourceUri = [] then []
    else [⟨q.cmResultConfig.scope, q.cmResultConfig.resourceUri, base64Encode dataKey,
      q.cmResultConfig.ancestorUuids⟩]
  | _ => []

section Step

variable {env : ProxyEnv} {q : PutResultDataRequest} {fs fs' : FileSystem} {r r' : RequestState}

theorem step_heldKey (hstep : Step env q fs r fs' r') {dataKey : Bytes}
    (h : r'.phase.heldKey = some dataKey) :
    r.phase.heldKey = some dataKey ∨ q.dataKeyB64 = [] ∨
      env.base64Decode q.dataKeyB64 = .ok dataKey := by
  cases hstep with
  | randomKey _ _ hnone => exact .inr (.inl hnone)
  | decodeKey _ _ hdecode =>
    cases h
    exact .inr (.inr hdecode)
  | encryptDone hphase =>
    rw [hphase]
    dsimp only at h
    split at h <;> exact .inl h
  | encryptFailed | removeFault | throws | fault => cases h
  | startEncrypt hphase | launch hphase | launchFault _ hphase | complete hphase
  | taskFault _ hphase | startUpload hphase | uploadFile hphase | upload hphase
  | uploadSkip hphase | uploadDone hphase | remove hphase | finish hphase | register hphase =>
    rw [hphase]
    exact .inl h

theorem step_registered (hstep : Step env q fs r fs' r')
    (h : r.registered = registeredIn q r.phase) : r'.registered = registeredIn q r'.phase := by
  cases hstep with
  | finish hphase huri =>
    rw [hphase] at h
    simp only [registeredIn, if_pos huri]
    exact h
  | register hphase huri _ =>
    rw [hphase] at h
    simp only [registeredIn, if_neg huri, h, List.nil_append]
  | encryptDone hphase =>
    rw [hphase] at h
    dsimp only
    split <;> exact h
  -- An exception ends the request before it has registered anything.
  | throws hbefore | fault _ hbefore =>
    cases hphase : r.phase with
    | succeeded dataKey =>
      rw [hphase] at hbefore
      cases hbefore
    | _ =>
      rw [hphase] at h
      exact h
  | randomKey _ hphase | decodeKey hphase | startEncrypt hphase | launch hphase
  | launchFault _ hphase | complete hphase | taskFault _ hphase | encryptFailed hphase
  | startUpload hphase | uploadFile hphase | upload hphase | uploadSkip hphase
  | uploadDone hphase | remove hphase | removeFault _ hphase =>
    rw [hphase] at h
    exact h

end Step

/-! ## A request that returns OK -/

/-- The key of the result is the one of the request, or the Capsule Manager has it. -/
def Recoverable (env : ProxyEnv) (q : PutResultDataRequest) (r : RequestState)
    (dataKey : Bytes) : Prop :=
  q.dataKeyB64 ≠ [] ∧ env.base64Decode q.dataKeyB64 = .ok dataKey ∨
    ∃ k ∈ r.registered, k.resourceUri = q.cmResultConfig.resourceUri ∧
      k.dataKeyB64 = base64Encode dataKey

/-- The result of a request that returns OK can be recovered exactly if the request has a key or
    a resource URI. -/
theorem recoverable_iff (env : ProxyEnv) (q : PutResultDataRequest) (fs fs' : FileSystem)
    (r : RequestState) (dataKey : Bytes) (hrun : Runs env q fs {} fs' r)
    (hphase : r.phase = .succeeded dataKey) :
    Recoverable env q r dataKey ↔ q.dataKeyB64 ≠ [] ∨ q.cmResultConfig.resourceUri ≠ [] := by
  obtain ⟨hkey, hregistered⟩ := hrun.invariant
    (fun _ r => (∀ key, r.phase.heldKey = some key →
        q.dataKeyB64 = [] ∨ env.base64Decode q.dataKeyB64 = .ok key) ∧
      r.registered = registeredIn q r.phase)
    (fun _ _ _ _ hstep h => ⟨fun key hheld => (step_heldKey hstep hheld).elim (h.1 key) id,
      step_registered hstep h.2⟩)
    ⟨fun _ hheld => (nomatch hheld), rfl⟩
  rw [hphase] at hkey hregistered
  constructor
  · rintro (⟨hsupplied, _⟩ | ⟨k, hk, _⟩)
    · exact .inl hsupplied
    · -- Without a resource URI nothing was registered.
      refine .inr fun huri => ?_
      rw [hregistered, registeredIn, if_pos huri] at hk
      exact absurd hk List.not_mem_nil
  · rintro (hsupplied | huri)
    · exact .inl ⟨hsupplied, (hkey dataKey rfl).resolve_left hsupplied⟩
    · rw [registeredIn, if_neg huri] at hregistered
      refine .inr ⟨_, hregistered ▸ List.mem_singleton_self _, rfl, rfl⟩

def sampleRegistered : PutResultDataRequest :=
  { sampleRequest with cmResultConfig := ⟨str "default", str "join", [str "alice"]⟩ }

theorem recoverable_iff_registered :
    ∃ fs r, Runs sampleEnv sampleRegistered sampleFs {} fs r ∧
      r.phase = .succeeded sampleKey.bytes ∧
      Recoverable sampleEnv sampleRegistered r sampleKey.bytes := by
  obtain ⟨uploads, hstored⟩ := sample_stored (q := sampleRegistered) rfl rfl rfl
  have hrun := hstored.step (.register rfl (by decide) (by decide))
  exact ⟨_, _, hrun, rfl,
    (recoverable_iff sampleEnv sampleRegistered sampleFs _ _ _ hrun rfl).mpr (.inr (by decide))⟩

/-- The request has neither a key nor a resource URI: it uploads the result under a random key,
    removes the staging directory and returns OK. -/
theorem result_key_lost :
    ∃ fs r, Runs sampleEnv sampleRequest sampleFs {} fs r ∧
      r.phase = .succeeded sampleKey.bytes ∧
      ¬ Recoverable sampleEnv sampleRequest r sampleKey.bytes := by
  obtain ⟨uploads, hrun⟩ := sample_succeeded
  refine ⟨_, _, hrun, rfl, ?_⟩
  rintro (⟨hsupplied, _⟩ | ⟨k, hk, _⟩)
  · exact hsupplied rfl
  · exact absurd hk List.not_mem_nil

end TrustFlow.Proxy
