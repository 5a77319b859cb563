import TrustFlow.Dm.ConcurrentRequests

/-! # Registered places

Two flows of the component register a file that they have written: `handle_upload`
on the server, and `eval_data_export` on the receiver of an export.  A record says
where its file is by a data source and a path relative to it.

The mesh gives an upload without an id one of its own, and an upload without a data
source the default one. -/

namespace TrustFlow.Dm

open Proxy (Name pathAppend slash)

/-- A data source of the mesh and a relative path name the file at a path. -/
def NamesPlace (mesh : DataMesh) (datasourceId relativeUri path : Bytes) : Prop :=
  ∃ base, mesh.localfsPath datasourceId = some base ∧ pathAppend base relativeUri = path

/-- There is a file at the path, and the record of the id names it. -/
def PointsAtFile (mesh : DataMesh) (resolve : Bytes → Location Name) (w : World)
    (id path : Bytes) : Prop :=
  (∃ content, w.fs.fileAt (resolve path) = some content) ∧
    ∃ r, record w.registered id = some r ∧ NamesPlace mesh r.datasourceId r.relativeUri path

/-- The data source of a record that is created with this one. -/
def DataMesh.datasourceOf (mesh : DataMesh) (datasourceId : Bytes) : Bytes :=
  if datasourceId = [] then mesh.defaultDatasourceId else datasourceId

namespace Datamesh

/-- Reading through an unset field of a message gives the default of what is read. -/
def localPath (datasource : DomainDataSource) : Bytes :=
  ((datasource.info.bind DataSourceInfo.localfs).map LocalDataSourceInfo.path).getD []

end Datamesh

/-- The path that the mesh gives for a data source, the empty one if it gives none. -/
def DataMesh.basePath (mesh : DataMesh) (datasourceId : Bytes) : Bytes :=
  Datamesh.localPath ((mesh.queryDomainDataSource datasourceId).data.getD ⟨none⟩)

/-- A path as the first part of a longer one. -/
def asDirectory (path : Bytes) : Bytes :=
  if path = [] ∨ path.getLast? = some slash then path else path ++ [slash]

/-- The data source that is written to and the one that is recorded have the same local path, up
    to a slash at its end, or `uri` is absolute and replaces both. -/
def SourcesAgree (mesh : DataMesh) (written recorded uri : Bytes) : Prop :=
  ∃ base, mesh.localfsPath (mesh.datasourceOf recorded) = some base ∧
    (uri.head? = some slash ∨ asDirectory (mesh.basePath written) = asDirectory base)

theorem pathAppend_eq_iff {a b uri : Bytes} :
    pathAppend a uri = pathAppend b uri ↔
      uri.head? = some slash ∨ asDirectory a = asDirectory b := by
  have happend : ∀ base, pathAppend base uri =
      if uri.head? = some slash then uri else asDirectory base ++ uri := by
    intro base
    rw [pathAppend, asDirectory]
    split
    · rfl
    · split <;> rfl
  rw [happend, happend]
  by_cases habsolute : uri.head? = some slash
  · simp [habsolute]
  · simp [habsolute]

theorem DataMesh.basePath_of_localfsPath {mesh : DataMesh} {datasourceId base : Bytes}
    (h : mesh.localfsPath datasourceId = some base) : mesh.basePath datasourceId = base := by
  unfold DataMesh.localfsPath at h
  dsimp only at h
  split at h
  · rw [DataMesh.basePath, Datamesh.localPath]
    cases hdata : (mesh.queryDomainDataSource datasourceId).data with
    | none => simp [hdata] at h
    | some datasource =>
      simp only [hdata, Option.bind_some] at h
      simp [h]
  · cases h

/-- A record that was made of a request names the path at which its file was written exactly if
    the two data sources agree. -/
theorem namesPlace_iff {mesh : DataMesh} {body : CreateDomainDataRequest} {r : DomainData}
    (h : Completes mesh.defaultDatasourceId body r) (written : Bytes) :
    NamesPlace mesh r.datasourceId r.relativeUri
        (pathAppend (mesh.basePath written) body.relativeUri) ↔
      SourcesAgree mesh written body.datasourceId body.relativeUri := by
  have hsource : r.datasourceId = mesh.datasourceOf body.datasourceId := h.datasourceId
  rw [NamesPlace, SourcesAgree, hsource, h.relativeUri]
  refine exists_congr fun base => and_congr_right fun _ => ?_
  rw [eq_comm, pathAppend_eq_iff]

/-! ## Uploads -/

section Uploads

variable {env : ServerEnv} {w w' : World} {u u' : Upload}

/-- A file that was stored stays a file, and its record stays. -/
def Registered (env : ServerEnv) (w : World) (u : Upload) : Prop :=
  match u.phase with
  | .registering loc => ∃ content, w.fs.fileAt (env.resolve loc.destPath) = some content
  | .answered loc => (∃ content, w.fs.fileAt (env.resolve loc.destPath) = some content) ∧
      ∃ r, Completes env.mesh.defaultDatasourceId loc.request r ∧
        record w.registered r.domaindataId = some r
  | _ => True

theorem Step.fileAt_kept (h : Step env w u w' u') {p : Location Name}
    (hp : ∃ content, w.fs.fileAt p = some content) :
    ∃ content, w'.fs.fileAt p = some content := by
  obtain ⟨content, hcontent⟩ := hp
  obtain ⟨content', hcontent'⟩ := h.on.kindsKept.file (FileTree.fileAt_eq_some.mp hcontent)
  exact ⟨content', FileTree.fileAt_eq_some.mpr hcontent'⟩

theorem Step.registered_own (hstep : Step env w u w' u') (h : Registered env w u) :
    Registered env w' u' := by
  cases hstep with
  | store hphase _ hwrite =>
    exact ⟨_, by rw [FileTree.fileAt_writeFile hwrite, if_pos rfl]⟩
  | register hphase hcreate =>
    simp only [Registered, hphase] at h
    obtain ⟨r, ⟨hcompletes, hfresh⟩, happend⟩ := DataMeshClient.createDomainData_ok hcreate
    refine ⟨h, r, hcompletes, ?_⟩
    rw [happend]
    exact record_concat_self hfresh
  | _ => trivial

theorem Step.registered_other {u₁ u₁' : Upload} (hstep : Step env w u₁ w' u₁')
    (h : Registered env w u) : Registered env w' u := by
  obtain ⟨vars, phase⟩ := u
  cases phase with
  | registering loc => exact hstep.fileAt_kept h
  | answered loc =>
    obtain ⟨hfile, r, hcompletes, hr⟩ := h
    exact ⟨hstep.fileAt_kept hfile, r, hcompletes, hstep.record_kept hr⟩
  | _ => trivial

theorem registered_of_reaches {κ : Type} [DecidableEq κ] {requests : κ → List Field}
    {c : Parties.Config κ World Upload} {allowed : Parties.Config κ World Upload → κ → Prop}
    (h : (server env κ).Reaches allowed (started w requests) c) :
    ∀ k, Registered env c.shared (c.own k) := by
  refine h.invariant (fun _ w u => Registered env w u) ?_ ?_ fun k => trivial
  · intro c k w' u' _ hk hstep
    exact Step.registered_own hstep hk
  · intro c k j w' u' _ _ hinv hstep
    exact Step.registered_other hstep hinv

/-- No record has an empty id. -/
def IdsSet (registered : List DomainData) : Prop := ∀ r ∈ registered, r.domaindataId ≠ []

theorem idsSet_of_reaches {κ : Type} [DecidableEq κ] {requests : κ → List Field}
    {c : Parties.Config κ World Upload} {allowed : Parties.Config κ World Upload → κ → Prop}
    (h : (server env κ).Reaches allowed (started w requests) c) (hw : IdsSet w.registered) :
    IdsSet c.shared.registered := by
  induction h with
  | refl => exact hw
  | tail _ hturn ih =>
    obtain ⟨k, _, u', hstep, _⟩ := hturn
    rcases hstep.registered with hsame | ⟨loc, r, _, ⟨hcompletes, _⟩, happend⟩
    · rwa [hsame]
    · rw [happend]
      intro r' hr'
      rcases List.mem_append.mp hr' with hold | hnew
      · exact ih r' hold
      · obtain rfl := List.mem_singleton.mp hnew
        exact hcompletes.generated

theorem upload_pointsAtFile_iff {κ : Type} [DecidableEq κ] {requests : κ → List Field}
    {c : Parties.Config κ World Upload} {allowed : Parties.Config κ World Upload → κ → Prop}
    (h : (server env κ).Reaches allowed (started w requests) c) (hw : IdsSet w.registered)
    {k : κ} {loc : Located} (hphase : (c.own k).phase = .answered loc) :
    PointsAtFile env.mesh env.resolve c.shared loc.params.id loc.destPath ↔
      loc.params.id ≠ [] ∧
        SourcesAgree env.mesh loc.params.datasourceId loc.params.datasourceId loc.params.uri := by
  have hregistered := registered_of_reaches h k
  simp only [Registered, hphase] at hregistered
  obtain ⟨hfile, r, hcompletes, hr⟩ := hregistered
  obtain ⟨path, hpath, hdest⟩ :=
    (locate_spec ((follows_of_reaches h k).locate_of_answered hphase)).2.2
  have hplace : NamesPlace env.mesh r.datasourceId r.relativeUri loc.destPath ↔
      SourcesAgree env.mesh loc.params.datasourceId loc.params.datasourceId loc.params.uri := by
    rw [← hdest, ← DataMesh.basePath_of_localfsPath hpath]
    exact namesPlace_iff hcompletes loc.params.datasourceId
  constructor
  · rintro ⟨_, r', hr', hnames⟩
    have hid : loc.params.id ≠ [] := by
      rw [← record_id hr']
      exact idsSet_of_reaches h hw r' (mem_of_record hr')
    have hsame : r.domaindataId = loc.params.id := hcompletes.domaindataId hid
    rw [hsame] at hr
    cases hr.symm.trans hr'
    exact ⟨hid, hplace.mp hnames⟩
  · rintro ⟨hid, hagree⟩
    have hsame : r.domaindataId = loc.params.id := hcompletes.domaindataId hid
    exact ⟨hfile, r, hsame ▸ hr, hplace.mpr hagree⟩

end Uploads

/-! ## `eval_data_export` -/

/-- `urllib.parse` of the Python library.  Blank values are left out of a query. -/
structure UrllibParse where
  urlsplit : Bytes → Url
  parseQsl : Bytes → List (Bytes × Bytes)
  parseQsl_ne_nil : ∀ query, ∀ kv ∈ parseQsl query, kv.2 ≠ []

/-- What the receiver of an export is built on. -/
structure ExportEnv where
  mesh : DataMesh
  resolve : Bytes → Location Name
  parse : UrllibParse
  decryptFile : Bytes → Bytes → Option Bytes

/-- What the receiver gets from the Capsule Manager and from its peer, after all retries. -/
structure ExportPeer where
  exportDataKey : Option Bytes
  download : Option Bytes
  domainData : Option DomainData
  shutdown : Bool

namespace Datamesh

def getDomainDataSource (mesh : DataMesh) (id : Bytes) : Except Error DomainDataSource :=
  let ret := mesh.queryDomainDataSource id
  if ret.code ≠ 0 then .error .request else .ok (ret.data.getD ⟨none⟩)

theorem getDomainDataSource_ok {mesh : DataMesh} {id : Bytes} {datasource : DomainDataSource}
    (h : getDomainDataSource mesh id = .ok datasource) :
    datasource = (mesh.queryDomainDataSource id).data.getD ⟨none⟩ := by
  simp only [getDomainDataSource] at h
  split at h
  next => cases h
  next => exact (Except.ok.inj h).symm

/-- The request takes every field from the record; the partition and the file format are not
    passed on. -/
def createRequest (data : DomainData) : CreateDomainDataRequest where
  domaindataId := data.domaindataId
  name := data.name
  type := data.type
  relativeUri := data.relativeUri
  datasourceId := data.datasourceId
  attributes := data.attributes
  partition := none
  columns := data.columns
  vendor := data.vendor
  fileFormat := .unknown

def createDomainData (mesh : DataMesh) (registered : List DomainData) (data : DomainData) :
    Except Error Unit × List DomainData :=
  let answer := mesh.createDomainData registered (createRequest data)
  (if answer.1.code ≠ 0 then .error .request else .ok (), answer.2)

theorem createDomainData_ok {mesh : DataMesh} {registered registered' : List DomainData}
    {data : DomainData} (h : createDomainData mesh registered data = (.ok (), registered')) :
    ∃ r, Creates mesh (createRequest data) registered r ∧ registered' = registered ++ [r] := by
  by_cases hcode : (mesh.createDomainData registered (createRequest data)).1.code = 0
  · obtain ⟨r, hcompletes, hfresh, happend⟩ := mesh.created registered _ hcode
    refine ⟨r, ⟨hcompletes, hfresh⟩, ?_⟩
    rw [← happend]
    exact (congrArg Prod.snd h).symm
  · simp [createDomainData, hcode] at h

end Datamesh

/-- The value of a key in `dict(parse_qsl(..))`: of several pairs the last one counts. -/
def queryValue (pairs : List (Bytes × Bytes)) (key : Bytes) : Except Error Bytes :=
  okOr (pairs.reverse.lookup key) .query

/-- The query of a URI of the mesh. -/
def dmQuery (parse : UrllibParse) (uri : Bytes) : Except Error (List (Bytes × Bytes)) :=
  let splitUri := parse.urlsplit uri
  if splitUri.scheme = str "dm" then .ok (parse.parseQsl (splitUri.query.getD []))
  else .error (.text (str "only support dm sheme uri"))

def getDomainDataId (parse : UrllibParse) (uri : Bytes) : Except Error Bytes := do
  let query ← dmQuery parse uri
  queryValue query (str "id")

def outputParams (parse : UrllibParse) (outputUri : Bytes) :
    Except Error DmOutputUriQueryParams := do
  let query ← dmQuery parse outputUri
  let uri ← queryValue query (str "uri")
  let id ← queryValue query (str "id")
  let datasourceId ← queryValue query (str "datasource_id")
  return ⟨datasourceId, id, uri⟩

/-- The downloaded file, under its relative path in the working directory. -/
def downloadFile (env : ExportEnv) (peer : ExportPeer) (localFilename : Bytes) (w : World) :
    Except Error Unit × World :=
  match peer.download with
  | none => (.error .request, w)
  | some content =>
    match w.fs.writeFile (env.resolve localFilename) content with
    | none => (.error .io, w)
    | some fs => (.ok (), { w with fs := fs })

def decryptTo (env : ExportEnv) (source dest dataKey : Bytes) (w : World) :
    Except Error Unit × World :=
  match w.fs.fileAt (env.resolve source) with
  | none => (.error .io, w)
  | some content =>
    match env.decryptFile content dataKey with
    | none => (.error .io, w)
    | some plain =>
      match w.fs.writeFile (env.resolve dest) plain with
      | none => (.error .io, w)
      | some fs => (.ok (), { w with fs := fs })

/-- The record of the peer under the id and the path of the receiver. -/
def exportedData (params : DmOutputUriQueryParams) (domainData : DomainData) : DomainData :=
  { domainData with domaindataId := params.id, relativeUri := params.uri }

def registerExported (env : ExportEnv) (peer : ExportPeer) (params : DmOutputUriQueryParams)
    (w : World) : Except Error Unit × World :=
  match peer.domainData with
  | none => (.error .request, w)
  | some domainData =>
    let answer := Datamesh.createDomainData env.mesh w.registered (exportedData params domainData)
    (answer.1, { w with registered := answer.2 })

/-- What is done if the step before it returned. -/
def andThen (result : Except Error Unit × World) (rest : World → Except Error Unit × World) :
    Except Error Unit × World :=
  match result with
  | (.error e, w) => (.error e, w)
  | (.ok (), w) => rest w

theorem andThen_eq_ok {result : Except Error Unit × World}
    {rest : World → Except Error Unit × World} {w : World} :
    andThen result rest = (.ok (), w) ↔ ∃ w₁, result = (.ok (), w₁) ∧ rest w₁ = (.ok (), w) := by
  obtain ⟨result, w₁⟩ := result
  cases result with
  | error e => simp [andThen]
  | ok => simp [andThen]

def evalDataExport (env : ExportEnv) (peer : ExportPeer) (outputUri : Bytes) (w : World) :
    Except Error Unit × World :=
  match peer.exportDataKey with
  | none => (.error .request, w)
  | some dataKey =>
    match outputParams env.parse outputUri with
    | .error e => (.error e, w)
    | .ok params =>
      andThen (downloadFile env peer params.uri w) fun w =>
        match Datamesh.getDomainDataSource env.mesh params.datasourceId with
        | .error e => (.error e, w)
        | .ok datasource =>
          andThen (decryptTo env params.uri (pathAppend (Datamesh.localPath datasource) params.uri)
              dataKey w) fun w =>
            andThen (registerExported env peer params w) fun w =>
              (if peer.shutdown then .ok () else .error .request, w)

section Export

variable {env : ExportEnv} {peer : ExportPeer} {w w' : World} {params : DmOutputUriQueryParams}

/-- Where an export writes the decrypted file. -/
def exportPath (env : ExportEnv) (params : DmOutputUriQueryParams) : Bytes :=
  pathAppend (env.mesh.basePath params.datasourceId) params.uri

theorem decryptTo_ok {source dest dataKey : Bytes}
    (h : decryptTo env source dest dataKey w = (.ok (), w')) :
    ∃ content plain, w.fs.fileAt (env.resolve source) = some content ∧
      env.decryptFile content dataKey = some plain ∧
      w'.fs.fileAt (env.resolve dest) = some plain := by
  unfold decryptTo at h
  split at h
  next => cases h
  next content hcontent =>
    split at h
    next => cases h
    next plain hplain =>
      split at h
      next => cases h
      next hwrite =>
        cases h
        exact ⟨content, plain, hcontent, hplain, by
          rw [FileTree.fileAt_writeFile hwrite, if_pos rfl]⟩

/-- The record that an export has registered. -/
def RecordsExported (env : ExportEnv) (params : DmOutputUriQueryParams) (domainData : DomainData)
    (registered : List DomainData) : Prop :=
  ∃ r, Completes env.mesh.defaultDatasourceId
      (Datamesh.createRequest (exportedData params domainData)) r ∧
    record registered r.domaindataId = some r

theorem registerExported_ok (h : registerExported env peer params w = (.ok (), w')) :
    w'.fs = w.fs ∧ ∃ domainData, peer.domainData = some domainData ∧
      RecordsExported env params domainData w'.registered := by
  unfold registerExported at h
  split at h
  next => cases h
  next domainData hdomainData =>
    simp only [Prod.mk.injEq] at h
    obtain ⟨r, ⟨hcompletes, hfresh⟩, happend⟩ :=
      Datamesh.createDomainData_ok (Prod.ext h.1 rfl)
    have hrecord := record_concat_self hfresh
    rw [← happend] at hrecord
    rw [← h.2]
    exact ⟨rfl, domainData, hdomainData, r, hcompletes, hrecord⟩

/-- An export that succeeds has been through its three steps. -/
theorem evalDataExport_steps {outputUri : Bytes}
    (h : evalDataExport env peer outputUri w = (.ok (), w')) :
    ∃ dataKey params w₁ w₂, peer.exportDataKey = some dataKey ∧
      outputParams env.parse outputUri = .ok params ∧
      downloadFile env peer params.uri w = (.ok (), w₁) ∧
      decryptTo env params.uri (exportPath env params) dataKey w₁ = (.ok (), w₂) ∧
      registerExported env peer params w₂ = (.ok (), w') := by
  unfold evalDataExport at h
  split at h
  next => cases h
  next dataKey hkey =>
    split at h
    next => cases h
    next params hparams =>
      obtain ⟨w₁, hdownload, h⟩ := andThen_eq_ok.mp h
      split at h
      next => cases h
      next datasource hdatasource =>
        obtain ⟨w₂, hdecrypt, h⟩ := andThen_eq_ok.mp h
        obtain ⟨w₃, hregister, h⟩ := andThen_eq_ok.mp h
        obtain rfl : w₃ = w' := congrArg Prod.snd h
        rw [Datamesh.getDomainDataSource_ok hdatasource] at hdecrypt
        exact ⟨dataKey, params, w₁, w₂, hkey, hparams, hdownload, hdecrypt, hregister⟩

theorem evalDataExport_ok {outputUri : Bytes}
    (h : evalDataExport env peer outputUri w = (.ok (), w')) :
    ∃ params domainData, outputParams env.parse outputUri = .ok params ∧
      peer.domainData = some domainData ∧
      (∃ content, w'.fs.fileAt (env.resolve (exportPath env params)) = some content) ∧
      RecordsExported env params domainData w'.registered := by
  obtain ⟨_, params, _, _, _, hparams, _, hdecrypt, hregister⟩ := evalDataExport_steps h
  obtain ⟨hfs, domainData, hdomainData, hrecord⟩ := registerExported_ok hregister
  obtain ⟨_, plain, _, _, hplain⟩ := decryptTo_ok hdecrypt
  exact ⟨params, domainData, hparams, hdomainData, ⟨plain, hfs ▸ hplain⟩, hrecord⟩

end Export

theorem queryValue_ne_nil {parse : UrllibParse} {uri key value : Bytes}
    {query : List (Bytes × Bytes)} (hquery : dmQuery parse uri = .ok query)
    (h : queryValue query key = .ok value) : value ≠ [] := by
  simp only [dmQuery] at hquery
  split at hquery
  · cases hquery
    rw [queryValue, okOr_eq_ok] at h
    obtain ⟨before, after, hpairs, _⟩ := List.lookup_eq_some_iff.mp h
    refine parse.parseQsl_ne_nil ((parse.urlsplit uri).query.getD []) (key, value) ?_
    rw [← List.mem_reverse, hpairs]
    simp
  · cases hquery

theorem outputParams_id {parse : UrllibParse} {outputUri : Bytes}
    {params : DmOutputUriQueryParams} (h : outputParams parse outputUri = .ok params) :
    params.id ≠ [] := by
  obtain ⟨query, hquery, h⟩ := bind_eq_ok.mp h
  obtain ⟨uri, _, h⟩ := bind_eq_ok.mp h
  obtain ⟨id, hid, h⟩ := bind_eq_ok.mp h
  obtain ⟨datasourceId, _, h⟩ := bind_eq_ok.mp h
  cases h
  exact queryValue_ne_nil hquery hid

/-- An upload that is answered with success is registered at the place of its file exactly if it
    names an id and the data source that the mesh records has the path that the server wrote to.
    An export that succeeds is so exactly if the data source of the peer's record has, in the mesh
    of the receiver, the path of the data source that the output URI names. -/
theorem registration_pointsAtFile_iff {κ : Type} [DecidableEq κ] (senv : ServerEnv)
    (requests : κ → List Field) (w : World) (hw : IdsSet w.registered)
    (c : Parties.Config κ World Upload)
    (hrun : (server senv κ).Reaches (fun _ _ => True) (started w requests) c)
    (xenv : ExportEnv) (peer : ExportPeer) (outputUri : Bytes) (params : DmOutputUriQueryParams)
    (domainData : DomainData) (x x' : World)
    (hparams : outputParams xenv.parse outputUri = .ok params)
    (hpeer : peer.domainData = some domainData)
    (hexport : evalDataExport xenv peer outputUri x = (.ok (), x')) :
    (∀ k loc, (c.own k).phase = .answered loc →
        (PointsAtFile senv.mesh senv.resolve c.shared loc.params.id loc.destPath ↔
          loc.params.id ≠ [] ∧ SourcesAgree senv.mesh loc.params.datasourceId
            loc.params.datasourceId loc.params.uri)) ∧
      (PointsAtFile xenv.mesh xenv.resolve x' params.id (exportPath xenv params) ↔
        SourcesAgree xenv.mesh params.datasourceId domainData.datasourceId params.uri) := by
  refine ⟨fun k loc hphase => upload_pointsAtFile_iff hrun hw hphase, ?_⟩
  obtain ⟨params', domainData', hparams', hpeer', hfile, r, hcompletes, hr⟩ :=
    evalDataExport_ok hexport
  cases hparams.symm.trans hparams'
  cases hpeer.symm.trans hpeer'
  have hid : r.domaindataId = params.id := hcompletes.domaindataId (outputParams_id hparams)
  rw [hid] at hr
  have hplace : NamesPlace xenv.mesh r.datasourceId r.relativeUri (exportPath xenv params) ↔
      SourcesAgree xenv.mesh params.datasourceId domainData.datasourceId params.uri :=
    namesPlace_iff hcompletes params.datasourceId
  constructor
  · rintro ⟨_, r', hr', hnames⟩
    cases hr.symm.trans hr'
    exact hplace.mp hnames
  · intro hagree
    exact ⟨hfile, r, hr, hplace.mpr hagree⟩

/-! ## An export with two data sources -/

/-- The data source `ds1` is at `/a`, any other one at `/b`. -/
def twoSources : DataMesh :=
  .keeping (fun id =>
    ⟨some ⟨0, []⟩, some ⟨some ⟨some ⟨if id = str "ds1" then str "/a" else str "/b"⟩⟩⟩⟩) (str "ds1")

theorem plainPairs_ne_nil (query : Bytes) : ∀ kv ∈ plainPairs query, kv.2 ≠ [] := by
  intro kv hkv
  simpa using (List.mem_filter.mp hkv).2

def plainParse : UrllibParse where
  urlsplit := plainUrl
  parseQsl := plainPairs
  parseQsl_ne_nil := plainPairs_ne_nil

def sampleExportEnv : ExportEnv where
  mesh := twoSources
  resolve := Proxy.pathComponents
  parse := plainParse
  decryptFile content _ := some content

def exportUri : Bytes := str "dm://output/?datasource_id=ds2&id=bob-table&uri=t"

def peerData (datasourceId : Bytes) : DomainData :=
  ⟨str "alice-table", str "alice", str "table", str "x", datasourceId, [], none, [], [], .csv, []⟩

def samplePeer (datasourceId : Bytes) : ExportPeer where
  exportDataKey := some (str "key")
  download := some (str "content")
  domainData := some (peerData datasourceId)
  shutdown := true

/-- The directories of both data sources. -/
def exportWorld : World :=
  ⟨((FileTree.empty.createDirectories [str "a"]).bind
    (·.createDirectories [str "b"])).getD .empty, []⟩

def sampleParams : DmOutputUriQueryParams := ⟨str "ds2", str "bob-table", str "t"⟩

def sampleExported : DomainData :=
  (Datamesh.createRequest (exportedData sampleParams (peerData (str "ds1")))).completed
    (str "bob-table") (str "ds1")

theorem registration_pointsAtFile_iff_sample :
    evalDataExport sampleExportEnv (samplePeer (str "ds2")) exportUri exportWorld =
        (.ok (),
          (evalDataExport sampleExportEnv (samplePeer (str "ds2")) exportUri exportWorld).2) ∧
      ((sampleAfter (str "f") (str "g")).own true).phase =
        .answered (sampleLocated (str "f") (str "a")) ∧
      PointsAtFile sampleEnv.mesh sampleEnv.resolve (sampleAfter (str "f") (str "g")).shared
        (str "a") (str "/data/a") ∧
      PointsAtFile twoSources Proxy.pathComponents
        (evalDataExport sampleExportEnv (samplePeer (str "ds2")) exportUri exportWorld).2
        (str "bob-table") (str "/b/t") := by
  have hexport : evalDataExport sampleExportEnv (samplePeer (str "ds2")) exportUri exportWorld =
      (.ok (), (evalDataExport sampleExportEnv (samplePeer (str "ds2")) exportUri exportWorld).2) :=
    Prod.ext (by decide) rfl
  have hanswered : ((sampleAfter (str "f") (str "g")).own true).phase =
      .answered (sampleLocated (str "f") (str "a")) := by
    decide
  obtain ⟨huploads, hexports⟩ := registration_pointsAtFile_iff sampleEnv
    (sampleRequests (str "f") (str "g")) emptyWorld (List.forall_mem_nil _) _ (reaches_next _ _)
    sampleExportEnv (samplePeer (str "ds2")) exportUri sampleParams _ _ _ (by decide) rfl hexport
  refine ⟨hexport, hanswered, (huploads true _ hanswered).mpr ⟨by decide, ?_⟩, hexports.mpr ?_⟩
  · exact ⟨str "/data", by decide, .inr (by decide)⟩
  · exact ⟨str "/b", by decide, .inr (by decide)⟩

/-- The record of the peer names a data source of its own.  The export succeeds, and the record
    that it registers names `/a/t`, where there is no file; the file is at `/b/t`. -/
theorem export_pointsElsewhere :
    ∃ x', evalDataExport sampleExportEnv (samplePeer (str "ds1")) exportUri exportWorld =
        (.ok (), x') ∧
      x'.fs.fileAt (Proxy.pathComponents (str "/b/t")) = some (str "content") ∧
      x'.fs.fileAt (Proxy.pathComponents (str "/a/t")) = none ∧
      exportPath sampleExportEnv sampleParams = str "/b/t" ∧
      ∃ r, record x'.registered (str "bob-table") = some r ∧
        NamesPlace twoSources r.datasourceId r.relativeUri (str "/a/t") ∧
        ¬ PointsAtFile twoSources Proxy.pathComponents x' (str "bob-table") (str "/b/t") := by
  refine ⟨(evalDataExport sampleExportEnv (samplePeer (str "ds1")) exportUri exportWorld).2,
    Prod.ext (by decide) rfl, by decide, by decide, by decide, ?_⟩
  have hrecord : record (evalDataExport sampleExportEnv (samplePeer (str "ds1")) exportUri
      exportWorld).2.registered (str "bob-table") = some sampleExported := by
    decide
  have hlocalfs : twoSources.localfsPath sampleExported.datasourceId = some (str "/a") := by
    decide
  refine ⟨sampleExported, hrecord, ⟨str "/a", hlocalfs, by decide⟩, ?_⟩
  rintro ⟨_, r, hr, base, hbase, hpath⟩
  cases hr.symm.trans hrecord
  cases hbase.symm.trans hlocalfs
  revert hpath
  decide

end TrustFlow.Dm
