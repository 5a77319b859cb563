import TrustFlow.Proxy.CapsulePipeline
import TrustFlow.Proxy.RequestView

/-! # Isolation of concurrent requests

The service works on any number of `PutResultData` and `GetInputData` requests at the
same time, all of them on one file system.  Where no request writes to a directory
that another one reads or writes, none of them can tell that the others are there.

* `requests_isolated` — in every interleaving, each request goes through states
  that it could go through alone, and finds its directories as it would then;
* `concurrent_uploads_exact` — so a request that returns OK has uploaded its source,
  whatever else the service was doing.
-/

namespace TrustFlow.Proxy

open FileTree

/-! ## The service -/

inductive ProxyRequest where
  | put (q : PutResultDataRequest)
  | get (q : GetInputDataRequest)

inductive ProxyState where
  | put (r : RequestState)
  | get (phase : InputPhase)

inductive ProxyStep (env : InputEnv) :
    ProxyRequest → FileSystem → ProxyState → FileSystem → ProxyState → Prop where
  | put {q fs r fs' r'} : Step env.toProxyEnv q fs r fs' r' →
      ProxyStep env (.put q) fs (.put r) fs' (.put r')
  | get {q fs phase fs' phase'} : InputStep env q (fs, phase) (fs', phase') →
      ProxyStep env (.get q) fs (.get phase) fs' (.get phase')

namespace ProxyRequest

def start : ProxyRequest → ProxyState
  | .put _ => .put {}
  | .get _ => .get .received

def writes (env : InputEnv) : ProxyRequest → List (Location Name)
  | .put q => putWrites env.toProxyEnv q
  | .get q => inputRoots env q

/-- The directories that a request reads or writes. -/
def roots (env : InputEnv) : ProxyRequest → List (Location Name)
  | .put q => putRoots env.toProxyEnv q
  | .get q => getRoots env q

/-- What the second request writes is apart from all directories of the first. -/
def Unaffected (env : InputEnv) (a b : ProxyRequest) : Prop :=
  ∀ w ∈ b.writes env, ∀ root ∈ a.roots env, Apart w root

/-- For a download: paths lead where their texts say, and the objects lie below the source path,
    so that they are written to the staging directory. -/
def SafeKeys (env : InputEnv) : ProxyRequest → Prop
  | .put _ => True
  | .get q => env.Plain ∧ ∀ s3, q.s3Config = some s3 → KeysBelow (env.oss s3) s3.path

def Within (env : InputEnv) : ProxyRequest → ProxyState → Prop
  | .put q, .put r => PhaseWithin env.toProxyEnv q r.phase
  | .get q, .get phase => InputWithin env q phase
  | _, _ => False

end ProxyRequest

section Service

variable {env : InputEnv} {q : ProxyRequest} {t t' u : FileSystem} {r r' : ProxyState}

theorem within_start (env : InputEnv) (q : ProxyRequest) : q.Within env q.start := by
  cases q with
  | put q => trivial
  | get q => trivial

theorem proxyStep_within (hstep : ProxyStep env q t r t' r') (h : q.Within env r) :
    q.Within env r' := by
  cases hstep with
  | put hstep => exact step_within hstep h
  | get hstep => exact inputStep_within hstep h

theorem proxyStep_seen (hkeys : q.SafeKeys env)
    (hstep : ProxyStep env q t r t' r') (hwithin : q.Within env r)
    (h : AgreeOn (q.roots env) t u) :
    ∃ u', ProxyStep env q u r u' r' ∧ AgreeOn (q.roots env) t' u' := by
  cases hstep with
  | put hstep =>
    obtain ⟨u', hstep', hagree⟩ := step_seen hstep hwithin h
    exact ⟨u', .put hstep', hagree⟩
  | get hstep =>
    obtain ⟨u', hstep', hagree⟩ := inputStep_seen hkeys.1 hkeys.2 hstep hwithin h
    exact ⟨u', .get hstep', hagree⟩

theorem proxyStep_keepsOutside (hkeys : q.SafeKeys env)
    (hstep : ProxyStep env q t r t' r') (hwithin : q.Within env r) :
    t.KeepsOutside (q.writes env) t' := by
  cases hstep with
  | put hstep => exact step_keepsOutside hstep hwithin
  | get hstep => exact inputStep_keepsOutside hkeys.1 hkeys.2 hstep hwithin

variable {κ : Type} [DecidableEq κ]

/-- Any number of requests at the same time. -/
def service (env : InputEnv) (q : κ → ProxyRequest) : Parties κ FileSystem ProxyState :=
  ⟨fun k => ProxyStep env (q k)⟩

/-- The requests as they arrive, on a file system. -/
def arrivals (q : κ → ProxyRequest) (fs : FileSystem) : Parties.Config κ FileSystem ProxyState :=
  ⟨fs, fun k => (q k).start⟩

/-- The steps of a request that is alone. -/
def SoloRun (env : InputEnv) (q : ProxyRequest) (fs : FileSystem) (fs' : FileSystem)
    (r' : ProxyState) : Prop :=
  Relation.ReflTransGen (fun a b : FileSystem × ProxyState => ProxyStep env q a.1 a.2 b.1 b.2)
    (fs, q.start) (fs', r')

theorem soloRun_of_reaches {q : κ → ProxyRequest} {fs : FileSystem}
    {c : Parties.Config κ FileSystem ProxyState} (hkeys : ∀ k, (q k).SafeKeys env)
    (hapart : ∀ j k, j ≠ k → (q j).Unaffected env (q k))
    (hrun : (service env q).Reaches (fun _ _ => True) (arrivals q fs) c) (k : κ) :
    ∃ fs', SoloRun env (q k) fs fs' (c.own k) ∧ AgreeOn ((q k).roots env) c.shared fs' :=
  hrun.project (fun k t u => AgreeOn ((q k).roots env) t u)
    (fun k r => (q k).Within env r) (fun hwithin hstep => proxyStep_within hstep hwithin)
    (fun {k} _ _ _ _ _ hwithin hstep hsee => proxyStep_seen (hkeys k) hstep hwithin hsee)
    (fun {j k} _ _ _ _ _ hne hwithin hstep hsee => hsee.of_keepsOutside
      (proxyStep_keepsOutside (hkeys k) hstep hwithin) (hapart j k hne))
    (fun k => within_start env (q k)) (fun _ => .refl _ fs) k

/-- A run of a request for a result alone, as a run of that request. -/
theorem SoloRun.runs {q : PutResultDataRequest} {fs fs' : FileSystem} {r' : RequestState}
    (h : SoloRun env (.put q) fs fs' (.put r')) : Runs env.toProxyEnv q fs {} fs' r' := by
  have hall : ∀ b : FileSystem × ProxyState, Relation.ReflTransGen
      (fun a b : FileSystem × ProxyState => ProxyStep env (.put q) a.1 a.2 b.1 b.2)
      (fs, .put {}) b → ∃ r, b.2 = .put r ∧ Runs env.toProxyEnv q fs {} b.1 r := by
    intro b hb
    induction hb with
    | refl => exact ⟨{}, rfl, .refl _ _ _ _⟩
    | @tail b d _ hstep ih =>
      obtain ⟨r, hr, hrun⟩ := ih
      obtain ⟨fs₁, r₁⟩ := b
      obtain ⟨fs₂, r₂⟩ := d
      cases hr
      cases hstep with
      | put hstep => exact ⟨_, rfl, hrun.step hstep⟩
  obtain ⟨r, hr, hrun⟩ := hall _ h
  cases hr
  exact hrun

/-- In every interleaving of requests of which none writes to the directories of another one, each
    request is in a state of a run that it has alone on the file system of the beginning, and the
    shared file system has at and below its directories what that run has left there. -/
theorem requests_isolated (env : InputEnv) (q : κ → ProxyRequest) (fs : FileSystem)
    (c : Parties.Config κ FileSystem ProxyState) (hkeys : ∀ k, (q k).SafeKeys env)
    (hapart : ∀ j k, j ≠ k → (q j).Unaffected env (q k))
    (hrun : (service env q).Reaches (fun _ _ => True) (arrivals q fs) c) (k : κ) :
    ∃ fs', SoloRun env (q k) fs fs' (c.own k) ∧
      ∀ root ∈ (q k).roots env, ∀ p, root <+: p → c.shared.node p = fs'.node p := by
  obtain ⟨fs', hsolo, hagree⟩ := soloRun_of_reaches hkeys hapart hrun k
  exact ⟨fs', hsolo, fun root hroot p hp => hagree.node_eq hroot hp⟩

/-- Whatever else the service does at the same time: if a request for the object store returns OK,
    it has uploaded the files that its source had when the requests arrived, once each and under
    its key, and nothing else. -/
theorem concurrent_uploads_exact (env : InputEnv) (q : κ → ProxyRequest) (fs : FileSystem)
    (c : Parties.Config κ FileSystem ProxyState) (hkeys : ∀ k, (q k).SafeKeys env)
    (hapart : ∀ j k, j ≠ k → (q j).Unaffected env (q k))
    (hrun : (service env q).Reaches (fun _ _ => True) (arrivals q fs) c) (hgcm : env.gcm.Inverts)
    (k : κ) (put : PutResultDataRequest) (r : RequestState) (hk : q k = .put put)
    (hr : c.own k = .put r) (hready : ReadyStaging env.toProxyEnv fs put) :
    UploadsItsSource env.toProxyEnv fs put r := by
  obtain ⟨fs', hsolo, _⟩ := soloRun_of_reaches hkeys hapart hrun k
  rw [hk, hr] at hsolo
  exact uploadsItsSource_of_ready hgcm hready hsolo.runs

end Service

/-! ### A concrete service -/

def sampleService : InputEnv := { sampleInputEnv with toProxyEnv := sampleEnv }

/-- A request for the object store, and one for a local directory. -/
def sampleArrivals : Bool → ProxyRequest
  | true => .put sampleRequest
  | false => .put { srcPath := str "/other", localFsConfig := some (str "/copy") }

theorem sampleArrivals_safeKeys (k : Bool) : (sampleArrivals k).SafeKeys sampleService := by
  cases k <;> trivial

theorem sampleArrivals_apart (j k : Bool) (h : j ≠ k) :
    (sampleArrivals j).Unaffected sampleService (sampleArrivals k) := by
  unfold ProxyRequest.Unaffected Apart
  cases j <;> cases k
  · exact absurd rfl h
  · decide
  · decide
  · exact absurd rfl h

/-- The second request has chosen its key when the first one runs to its end. -/
theorem sample_interleaving : ∃ c,
    (service sampleService sampleArrivals).Reaches (fun _ _ => True)
      (arrivals sampleArrivals sampleFs) c ∧
    c.own true = .put { phase := .succeeded sampleKey.bytes, uploads := [sampleUpload] } ∧
    c.own false = .put { phase := .keyed sampleKey.bytes } := by
  obtain ⟨fs, hrun⟩ := sample_uploaded
  have hfirst : (service sampleService sampleArrivals).Reaches (fun _ _ => True)
      (arrivals sampleArrivals sampleFs) ⟨sampleFs, Function.update
        (arrivals sampleArrivals sampleFs).own false (.put { phase := .keyed sampleKey.bytes })⟩ :=
    .alone (k := false) (.single (.put (.randomKey sampleKey rfl rfl)))
  have hlift : Relation.ReflTransGen (fun a b : FileSystem × ProxyState =>
      ProxyStep sampleService (.put sampleRequest) a.1 a.2 b.1 b.2) (sampleFs, .put {})
      (fs, .put { phase := .succeeded sampleKey.bytes, uploads := [sampleUpload] }) :=
    hrun.lift (fun a => (a.1, ProxyState.put a.2)) fun a b hstep => .put hstep
  have hsecond := Parties.Reaches.alone (P := service sampleService sampleArrivals) (k := true)
    (c := ⟨sampleFs, Function.update (arrivals sampleArrivals sampleFs).own false
      (.put { phase := .keyed sampleKey.bytes })⟩) hlift
  exact ⟨_, Relation.ReflTransGen.trans hfirst hsecond, rfl, rfl⟩

theorem requests_isolated_sample :
    ∃ c, (service sampleService sampleArrivals).Reaches (fun _ _ => True)
      (arrivals sampleArrivals sampleFs) c ∧
    ∀ k, ∃ fs', SoloRun sampleService (sampleArrivals k) sampleFs fs' (c.own k) ∧
      ∀ root ∈ (sampleArrivals k).roots sampleService, ∀ p, root <+: p →
        c.shared.node p = fs'.node p := by
  obtain ⟨c, hrun, _⟩ := sample_interleaving
  exact ⟨c, hrun, requests_isolated sampleService sampleArrivals sampleFs c
    sampleArrivals_safeKeys sampleArrivals_apart hrun⟩

theorem concurrent_uploads_exact_sample :
    ∃ items, sourceItems sampleEnv sampleFs (str "/data") = .ok items ∧
      UploadedExactly sampleEnv sampleS3 sampleFs items sampleKey.bytes [sampleUpload] := by
  obtain ⟨c, hrun, hown, _⟩ := sample_interleaving
  exact concurrent_uploads_exact sampleService sampleArrivals sampleFs c sampleArrivals_safeKeys
    sampleArrivals_apart hrun ⟨keyTagGcm_inverts, keyTagGcm_inverts⟩ true sampleRequest _ rfl hown
    sampleFs_ready sampleS3 sampleKey.bytes rfl rfl

end TrustFlow.Proxy
