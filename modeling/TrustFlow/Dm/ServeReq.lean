import TrustFlow.Dm.ConcurrentRequests
import TrustFlow.Dm.HandleDownload

/-! # Serving a request

`serve_req` of `service.rs`: the routes of the server and the status of its responses.  An upload
is handled in the steps of `handle_upload`; what it does outside, the copy and the creation of a
record, is kept in a log.  The mesh may answer a creation as it likes, and what others do
between two steps is a parameter. -/

namespace TrustFlow.Dm

open Proxy (Name)

/-! ## Requests and responses -/

inductive Method where
  | post
  | other (name : Bytes)
deriving DecidableEq

structure HttpRequest where
  method : Method
  path : Bytes
  headers : List (Bytes × Bytes)
  body : Bytes
deriving DecidableEq

structure HttpResponse where
  status : Nat
  body : Bytes
deriving DecidableEq

/-- What serving is built on besides the handlers: `Multipart::try_from_request`, the texts of
    library errors and the JSON of a record. -/
structure ServiceEnv extends DownloadEnv where
  tryFromRequest : HttpRequest → Option (List Field)
  libraryText : Error → Bytes
  domainDataJson : DomainData → Bytes

def ServiceEnv.errorText (env : ServiceEnv) : Error → Bytes
  | .text message => message
  | e => env.libraryText e

/-- The response for what a handler returns. -/
def ServiceEnv.respond (env : ServiceEnv) : Except Error HttpResponse → HttpResponse
  | .ok response => response
  | .error e => ⟨400, env.errorText e⟩

def notFound : HttpResponse := ⟨404, str "Not Found"⟩

inductive Route where
  | upload
  | download
  | getDomainData
  | shutdown
  | none
deriving DecidableEq

def route (q : HttpRequest) : Route :=
  if q.method = .post then
    if q.path = str "/upload" then .upload
    else if q.path = str "/download" then .download
    else if q.path = str "/get_domain_data" then .getDomainData
    else if q.path = str "/shutdown" then .shutdown
    else .none
  else .none

/-! ## The short handlers -/

def getDomainData (env : ServiceEnv) (body : Bytes) : Except Error HttpResponse := do
  let uri ← okOr (env.parseRequestParams body) .json
  let url ← okOr (env.parseUrl uri) .url
  if url.scheme = str "dm" then do
    let qs ← okOr url.query (.text (str "lack query"))
    let params ← okOr (env.parseInputQuery qs) .query
    let domainData ← DataMeshClient.getDomainData env.toDownloadEnv params.id
    return ⟨200, env.domainDataJson domainData⟩
  else .error (.text (str "Unsupport scheme"))

/-- The status of a download is sent before its body, which may break off. -/
def downloadResponse : DownloadAnswer → HttpResponse
  | .content body => ⟨200, body⟩
  | .broken => ⟨200, []⟩
  | .notFound => notFound

/-- `shutdown`, with whether the signal is still to be sent. -/
def shutdown (pending : Bool) : Except Error HttpResponse :=
  if pending then .ok ⟨200, str "start to shut down"⟩
  else .error (.text (str "shutdown failed."))

/-! ## An upload and its log -/

/-- What a request did outside of the server's memory. -/
inductive Event where
  /-- `fs::copy` returned; the temporary file had `content` before it. -/
  | copied (temp dest : Location Name) (content : Bytes)
  /-- `create_domain_data` returned `Ok`. -/
  | created (id : Bytes)
deriving DecidableEq

def eventsOf (env : ServerEnv) (w : World) (u u' : Upload) : List Event :=
  match u.phase, u'.phase with
  | .storing loc, .registering _ =>
    [.copied (env.resolve loc.tempPath) (env.resolve loc.destPath)
      ((w.fs.fileAt (env.resolve loc.tempPath)).getD [])]
  | .registering loc, .answered _ => [.created loc.params.id]
  | _, _ => []

/-- The phase after `create_domain_data` got a response. -/
def afterCreate (loc : Located) (response : Response Bytes) : Phase :=
  match response.result (str "data is none") with
  | .ok _ => .answered loc
  | .error e => .failed e

/-- A step of the handler.  The mesh may answer a creation with any response, whatever it does to
    its records. -/
inductive Move (env : ServerEnv) : World → Upload → World → Upload → Prop where
  | step {w u w' u'} (hstep : Step env w u w' u') : Move env w u w' u'
  | create {w u loc} (hphase : u.phase = .registering loc) (response : Response Bytes)
      (registered : List DomainData) :
      Move env w u { w with registered := registered } (u.goto (afterCreate loc response))

/-- What others do to the world while a request is being handled. -/
abbrev Interference := World → Upload → World → Prop

/-- Nobody else does anything. -/
def alone : Interference := fun _ _ _ => False

/-- The stages in the handling of an upload, each with the log up to there. -/
inductive Handling (env : ServerEnv) (others : Interference) (fields : List Field) :
    World → Upload → List Event → Prop where
  | start (w : World) : Handling env others fields w (Upload.start fields) []
  | own {w u log w' u'} (h : Handling env others fields w u log) (hmove : Move env w u w' u') :
      Handling env others fields w' u' (log ++ eventsOf env w u u')
  | others {w u log w'} (h : Handling env others fields w u log) (hothers : others w u w') :
      Handling env others fields w' u log

def uploadResponse (env : ServiceEnv) : Phase → Option HttpResponse
  | .answered _ => some ⟨200, str "successful request!"⟩
  | .failed e => some ⟨400, env.errorText e⟩
  | _ => none

/-- `serve_req`: a response and the log of what was done for it. -/
inductive ServeReq (env : ServiceEnv) (others : Interference) (q : HttpRequest) :
    HttpResponse → List Event → Prop where
  | upload {fields w u log response} (hroute : route q = .upload)
      (hmultipart : env.tryFromRequest q = some fields)
      (hrun : Handling env.toServerEnv others fields w u log)
      (hresponse : uploadResponse env u.phase = some response) : ServeReq env others q response log
  | notMultipart (hroute : route q = .upload) (hmultipart : env.tryFromRequest q = none) :
      ServeReq env others q ⟨200, str "expecting multipart/form-data"⟩ []
  | download (w : World) (hroute : route q = .download) :
      ServeReq env others q
        (env.respond ((handleDownload env.toDownloadEnv w.fs q.body).map downloadResponse)) []
  | getDomainData (hroute : route q = .getDomainData) :
      ServeReq env others q (env.respond (getDomainData env q.body)) []
  | shutdown (pending : Bool) (hroute : route q = .shutdown) :
      ServeReq env others q (env.respond (shutdown pending)) []
  | notFound (hroute : route q = .none) : ServeReq env others q notFound []

/-! ## What the log shows -/

/-- The log of an upload at each stage. -/
def Recorded (env : ServerEnv) (u : Upload) (log : List Event) : Prop :=
  match u.phase with
  | .registering loc => ∃ content,
      log = [.copied (env.resolve loc.tempPath) (env.resolve loc.destPath) content]
  | .answered loc => ∃ content,
      log = [.copied (env.resolve loc.tempPath) (env.resolve loc.destPath) content,
        .created loc.params.id]
  | .failed _ => ∀ id, .created id ∉ log
  | _ => log = []

section Log

variable {env : ServerEnv} {others : Interference} {fields : List Field} {w w' : World}
  {u u' : Upload} {log : List Event}

theorem eventsOf_fail (env : ServerEnv) (w : World) (u : Upload) (e : Error) :
    eventsOf env w u (u.fail e) = [] := by
  rw [eventsOf]
  cases u.phase <;> rfl

theorem Recorded.not_created (h : Recorded env u log) (hphase : ∀ loc, u.phase ≠ .answered loc)
    (id : Bytes) : .created id ∉ log := by
  unfold Recorded at h
  split at h
  next =>
    obtain ⟨content, rfl⟩ := h
    simp
  next hanswered => exact absurd hanswered (hphase _)
  next => exact h id
  next =>
    rw [h]
    exact List.not_mem_nil

theorem Recorded.fail (h : Recorded env u log) (hphase : ∀ loc, u.phase ≠ .answered loc)
    (e : Error) : Recorded env (u.fail e) (log ++ eventsOf env w u (u.fail e)) := by
  rw [eventsOf_fail, List.append_nil]
  exact h.not_created hphase

theorem unanswered_of_unfinished (h : u.phase.finished = false) (loc : Located) :
    u.phase ≠ .answered loc := by
  intro hphase
  rw [hphase] at h
  cases h

theorem afterCreate_cases (loc : Located) (response : Response Bytes) :
    afterCreate loc response = .answered loc ∨ ∃ e, afterCreate loc response = .failed e := by
  rw [afterCreate]
  cases response.result (str "data is none") with
  | ok id => exact .inl rfl
  | error e => exact .inr ⟨e, rfl⟩

theorem Move.recorded (hmove : Move env w u w' u') (h : Recorded env u log) :
    Recorded env u' (log ++ eventsOf env w u u') := by
  -- A creation that succeeds, whichever way it is modelled, ends the log.
  have hcreated : ∀ {loc}, u.phase = .registering loc →
      Recorded env (u.goto (.answered loc))
        (log ++ eventsOf env w u (u.goto (.answered loc))) := by
    intro loc hphase
    simp only [Recorded, hphase] at h
    obtain ⟨content, rfl⟩ := h
    exact ⟨content, by simp [eventsOf, hphase, Upload.goto]⟩
  cases hmove with
  | @create loc hphase response registered =>
    obtain hok | ⟨e, herror⟩ := afterCreate_cases loc response
    · rw [hok]
      exact hcreated hphase
    · rw [herror]
      exact h.fail (by simp [hphase]) e
  | step hstep =>
    cases hstep with
    | fault e hunfinished _ => exact h.fail (unanswered_of_unfinished hunfinished) e
    | registerLost e hphase => exact h.fail (by simp [hphase]) e
    | register hphase _ => exact hcreated hphase
    | read hphase | makeTemp hphase | openTemp hphase | writeChunk hphase | closeTemp hphase
    | prepare hphase | store hphase =>
      simp only [Recorded, hphase] at h
      simp [Recorded, Upload.goto, eventsOf, hphase, h]

theorem Move.follows (hmove : Move env w u w' u') (h : Follows env fields u) :
    Follows env fields u' := by
  cases hmove with
  | step hstep => exact Step.follows hstep h
  | @create loc hphase response _ =>
    obtain hok | ⟨e, herror⟩ := afterCreate_cases loc response
    · rw [hok]
      exact h.locate_of_registering hphase
    · rw [herror]
      trivial

theorem Handling.recorded (h : Handling env others fields w u log) : Recorded env u log := by
  induction h with
  | start => rfl
  | own _ hmove ih => exact hmove.recorded ih
  | others _ _ ih => exact ih

theorem Handling.follows (h : Handling env others fields w u log) : Follows env fields u := by
  induction h with
  | start => exact follows_start env fields
  | own _ hmove ih => exact hmove.follows ih
  | others _ _ ih => exact ih

theorem Move.holds (hmove : Move env w u w' u') (h : Holds env fields w u) :
    Holds env fields w' u' := by
  cases hmove with
  | step hstep => exact Step.holds hstep h
  | @create loc hphase response _ =>
    obtain hok | ⟨e, herror⟩ := afterCreate_cases loc response
    · rw [hok]
      simp only [Holds, hphase] at h
      exact h
    · rw [herror]
      trivial

theorem Move.copies (hmove : Move env w u w' u') {temp dest : Location Name} {content : Bytes}
    (hcopied : .copied temp dest content ∈ eventsOf env w u u') :
    ∃ loc, u.phase = .storing loc ∧ temp = env.resolve loc.tempPath ∧
      dest = env.resolve loc.destPath ∧ w.fs.fileAt temp = some content := by
  unfold eventsOf at hcopied
  split at hcopied
  next loc loc' hphase hphase' =>
    simp only [List.mem_singleton, Event.copied.injEq] at hcopied
    obtain ⟨rfl, rfl, rfl⟩ := hcopied
    refine ⟨loc, hphase, rfl, rfl, ?_⟩
    -- Of the steps out of this phase, only the copy leads to a registration.
    cases hmove with
    | create hregistering => simp [hphase] at hregistering
    | step hstep =>
      cases hstep with
      | store hstoring hcontent _ =>
        obtain rfl := Phase.storing.inj (hphase.symm.trans hstoring)
        rw [hcontent, Option.getD_some]
      | registerLost | fault => cases hphase'
      | read h | makeTemp h | openTemp h | writeChunk h | closeTemp h | prepare h | register h =>
        simp [hphase] at h
  next => simp at hcopied
  next => cases hcopied

/-- From every stage the handler can come to its end. -/
theorem Handling.exists_finished (h : Handling env others fields w u log) :
    ∃ w' u' log', Handling env others fields w' u' log' ∧ log <+: log' ∧
      u'.phase.finished = true := by
  induction hsize : u.phase.size using Nat.strong_induction_on generalizing w u log with
  | _ size ih =>
    by_cases hfinished : u.phase.finished = true
    · exact ⟨w, u, log, h, List.prefix_rfl, hfinished⟩
    · have hstep := @step_next env w u (Bool.not_eq_true _ ▸ hfinished)
      obtain ⟨w', u', log', hrun, hlog, hend⟩ :=
        ih _ (hsize ▸ Step.size_lt hstep) (h.own (.step hstep)) rfl
      exact ⟨w', u', log', hrun, (List.prefix_append _ _).trans hlog, hend⟩

end Log

/-! ## Responses -/

section Responses

variable {env : ServiceEnv} {others : Interference} {q : HttpRequest} {log : List Event}
  {response : HttpResponse}

/-- A request on the path of uploads is handled as one, or has no multipart body. -/
theorem ServeReq.of_upload (hserve : ServeReq env others q response log)
    (hroute : route q = .upload) :
    (∃ fields w u, env.tryFromRequest q = some fields ∧
        Handling env.toServerEnv others fields w u log ∧
        uploadResponse env u.phase = some response) ∨
      env.tryFromRequest q = none ∧ response.status = 200 ∧ log = [] := by
  cases hserve with
  | upload _ hmultipart hrun hresponse => exact .inl ⟨_, _, _, hmultipart, hrun, hresponse⟩
  | notMultipart _ hmultipart => exact .inr ⟨hmultipart, rfl, rfl⟩
  | download _ hroute' | getDomainData hroute' | shutdown _ hroute' | notFound hroute' =>
    rw [hroute] at hroute'
    cases hroute'

/-- Every request gets a response. -/
theorem serveReq_total (env : ServiceEnv) (others : Interference) (q : HttpRequest) :
    ∃ response log, ServeReq env others q response log := by
  cases hroute : route q with
  | upload =>
    cases hmultipart : env.tryFromRequest q with
    | none => exact ⟨_, _, .notMultipart hroute hmultipart⟩
    | some fields =>
      obtain ⟨w', u', log, hrun, -, hend⟩ :=
        (@Handling.start env.toServerEnv others fields emptyWorld).exists_finished
      cases hphase : u'.phase with
      | answered loc => exact ⟨_, log, .upload hroute hmultipart hrun (by rw [hphase]; rfl)⟩
      | failed e => exact ⟨_, log, .upload hroute hmultipart hrun (by rw [hphase]; rfl)⟩
      | _ => simp [hphase, Phase.finished] at hend
  | download => exact ⟨_, _, .download emptyWorld hroute⟩
  | getDomainData => exact ⟨_, _, .getDomainData hroute⟩
  | shutdown => exact ⟨_, _, .shutdown true hroute⟩
  | none => exact ⟨_, _, .notFound hroute⟩

end Responses

end TrustFlow.Dm
