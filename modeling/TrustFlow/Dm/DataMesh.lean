import TrustFlow.Exception

/-! # The data mesh

The records of a data mesh and the client with which the server of the data
management component asks it.  The mesh itself is not part of the repository.  It
answers queries for data sources as it likes; of its creations no more is known than
what `domaindata.proto` says. -/

namespace TrustFlow.Dm

/-- What the server and the uploader report: an error with a text of their own, or one that a
    library hands them. -/
inductive Error where
  | text (message : Bytes)
  | io
  | multipart
  | request
  | url
  | query
  | json
deriving DecidableEq

def okOr {α : Type} (x : Option α) (e : Error) : Except Error α :=
  match x with
  | none => .error e
  | some a => .ok a

theorem okOr_eq_ok {α : Type} {x : Option α} {e : Error} {a : α} :
    okOr x e = .ok a ↔ x = some a := by
  cases x with
  | none => simp [okOr]
  | some b => simp [okOr]

/-! ## Records -/

structure DataColumn where
  name : Bytes
  type : Bytes
  comment : Bytes
deriving DecidableEq

structure Partition where
  type : Bytes
  fields : List DataColumn
deriving DecidableEq

inductive FileFormat where
  | unknown
  | csv
deriving DecidableEq

structure DomainData where
  domaindataId : Bytes
  name : Bytes
  type : Bytes
  relativeUri : Bytes
  datasourceId : Bytes
  attributes : List (Bytes × Bytes)
  partition : Option Partition
  columns : List DataColumn
  vendor : Bytes
  fileFormat : FileFormat
  author : Bytes
deriving DecidableEq

structure CreateDomainDataRequest where
  domaindataId : Bytes
  name : Bytes
  type : Bytes
  relativeUri : Bytes
  datasourceId : Bytes
  attributes : List (Bytes × Bytes)
  partition : Option Partition
  columns : List DataColumn
  vendor : Bytes
  fileFormat : FileFormat
deriving DecidableEq

structure LocalDataSourceInfo where
  path : Bytes
deriving DecidableEq

structure DataSourceInfo where
  localfs : Option LocalDataSourceInfo
deriving DecidableEq

structure DomainDataSource where
  info : Option DataSourceInfo
deriving DecidableEq

structure Status where
  code : Int
  message : Bytes
deriving DecidableEq

structure Response (α : Type) where
  status : Option Status
  data : Option α
deriving DecidableEq

/-- The status code as a reader of the message gets it: a missing status has code zero. -/
def Response.code {α : Type} (response : Response α) : Int :=
  (response.status.map Status.code).getD 0

/-! ## The mesh -/

/-- The record of an id among those created so far. -/
def record (registered : List DomainData) (id : Bytes) : Option DomainData :=
  registered.find? fun r => r.domaindataId = id

/-- A record that a mesh makes of a request.  An empty id is replaced by a generated one, an empty
    data source and an unknown file format by a default.  Partitions are not supported, and the
    author is not part of a request. -/
structure Completes (defaultDatasourceId : Bytes) (body : CreateDomainDataRequest)
    (r : DomainData) : Prop where
  domaindataId : body.domaindataId ≠ [] → r.domaindataId = body.domaindataId
  generated : r.domaindataId ≠ []
  datasourceId : r.datasourceId =
    if body.datasourceId = [] then defaultDatasourceId else body.datasourceId
  name : r.name = body.name
  type : r.type = body.type
  relativeUri : r.relativeUri = body.relativeUri
  attributes : r.attributes = body.attributes
  columns : r.columns = body.columns
  vendor : r.vendor = body.vendor
  fileFormat : body.fileFormat ≠ .unknown → r.fileFormat = body.fileFormat

/-- A mesh with the behaviour that `domaindata.proto` documents. -/
structure DataMesh where
  queryDomainDataSource : Bytes → Response DomainDataSource
  defaultDatasourceId : Bytes
  /-- The answer to a creation, and the records after it. -/
  createDomainData : List DomainData → CreateDomainDataRequest → Response Bytes × List DomainData
  /-- A creation that succeeds adds a record under an id that no record had. -/
  created : ∀ registered body, (createDomainData registered body).1.code = 0 →
    ∃ r, Completes defaultDatasourceId body r ∧ record registered r.domaindataId = none ∧
      (createDomainData registered body).2 = registered ++ [r]
  /-- One that fails leaves the records as they are. -/
  refused : ∀ registered body, (createDomainData registered body).1.code ≠ 0 →
    (createDomainData registered body).2 = registered

section Records

variable {registered : List DomainData} {r : DomainData} {id : Bytes}

theorem mem_of_record (h : record registered id = some r) : r ∈ registered :=
  List.mem_of_find?_eq_some h

theorem record_id (h : record registered id = some r) : r.domaindataId = id := by
  simpa using List.find?_some h

theorem record_append (h : record registered id = some r) (more : List DomainData) :
    record (registered ++ more) id = some r := by
  rw [record] at h
  simp [record, List.find?_append, h]

theorem record_concat_self (h : record registered r.domaindataId = none) :
    record (registered ++ [r]) r.domaindataId = some r := by
  rw [record] at h
  simp [record, List.find?_append, h]

/-- One record more, which a mesh made of the request. -/
def Creates (mesh : DataMesh) (body : CreateDomainDataRequest) (registered : List DomainData)
    (r : DomainData) : Prop :=
  Completes mesh.defaultDatasourceId body r ∧ record registered r.domaindataId = none

/-- Whatever a mesh answers, it has left its records as they were or added the requested one. -/
theorem DataMesh.createDomainData_cases (mesh : DataMesh) (registered : List DomainData)
    (body : CreateDomainDataRequest) :
    (mesh.createDomainData registered body).2 = registered ∨
      ∃ r, Creates mesh body registered r ∧
        (mesh.createDomainData registered body).2 = registered ++ [r] := by
  by_cases hcode : (mesh.createDomainData registered body).1.code = 0
  · obtain ⟨r, hcompletes, hfresh, happend⟩ := mesh.created registered body hcode
    exact .inr ⟨r, ⟨hcompletes, hfresh⟩, happend⟩
  · exact .inl (mesh.refused registered body hcode)

end Records

/-- The path of a data source in the local file system, as the mesh gives it. -/
def DataMesh.localfsPath (mesh : DataMesh) (datasourceId : Bytes) : Option Bytes :=
  let response := mesh.queryDomainDataSource datasourceId
  if response.code = 0 then
    ((response.data.bind DomainDataSource.info).bind DataSourceInfo.localfs).map
      LocalDataSourceInfo.path
  else none

/-! ## The client of the server -/

/-- A signed number under the format `{}`. -/
def signedText (n : Int) : Bytes :=
  if n < 0 then str "-" ++ decimal n.natAbs else decimal n.natAbs

/-- The checks that the client makes on every response. -/
def Response.result {α : Type} (response : Response α) (lacksData : Bytes) : Except Error α := do
  let status ← okOr response.status (.text (str "status is empty"))
  if status.code ≠ 0 then
    .error (.text (str "status code: " ++ signedText status.code ++ str ", err msg: " ++
      status.message))
  else okOr response.data (.text lacksData)

theorem Response.result_eq_ok {α : Type} {response : Response α} {lacksData : Bytes} {a : α} :
    response.result lacksData = .ok a ↔
      (∃ status, response.status = some status ∧ status.code = 0) ∧ response.data = some a := by
  simp only [Response.result, bind_eq_ok, okOr_eq_ok]
  constructor
  · rintro ⟨status, hstatus, h⟩
    split at h
    next => cases h
    next hcode => exact ⟨⟨status, hstatus, not_not.mp hcode⟩, okOr_eq_ok.mp h⟩
  · rintro ⟨⟨status, hstatus, hcode⟩, hdata⟩
    refine ⟨status, hstatus, ?_⟩
    rw [if_neg (not_not.mpr hcode), okOr_eq_ok, hdata]

namespace DataMeshClient

def getDomainDatasource (mesh : DataMesh) (datasourceId : Bytes) : Except Error DomainDataSource :=
  (mesh.queryDomainDataSource datasourceId).result (str "datasource data is empty")

/-- The request of `create_domain_data`: where the data is comes from the arguments, what it is
    from the record. -/
def createRequest (domaindataId relativeUri datasourceId : Bytes) (domainData : DomainData) :
    CreateDomainDataRequest where
  domaindataId := domaindataId
  name := domainData.name
  type := domainData.type
  relativeUri := relativeUri
  datasourceId := datasourceId
  attributes := domainData.attributes
  partition := domainData.partition
  columns := domainData.columns
  vendor := domainData.vendor
  fileFormat := domainData.fileFormat

def createDomainData (mesh : DataMesh) (registered : List DomainData)
    (domaindataId relativeUri datasourceId : Bytes) (domainData : DomainData) :
    Except Error Bytes × List DomainData :=
  let answer := mesh.createDomainData registered
    (createRequest domaindataId relativeUri datasourceId domainData)
  (answer.1.result (str "data is none"), answer.2)

/-- If the client returns, the mesh has added the record. -/
theorem createDomainData_ok {mesh : DataMesh} {registered registered' : List DomainData}
    {domaindataId relativeUri datasourceId id : Bytes} {domainData : DomainData}
    (h : createDomainData mesh registered domaindataId relativeUri datasourceId domainData =
      (.ok id, registered')) :
    ∃ r, Creates mesh (createRequest domaindataId relativeUri datasourceId domainData) registered
        r ∧ registered' = registered ++ [r] := by
  simp only [createDomainData, Prod.mk.injEq] at h
  obtain ⟨⟨status, hstatus, hcode⟩, _⟩ := Response.result_eq_ok.mp h.1
  have hzero : (mesh.createDomainData registered
      (createRequest domaindataId relativeUri datasourceId domainData)).1.code = 0 := by
    simp [Response.code, hstatus, hcode]
  obtain ⟨r, hcompletes, hfresh, happend⟩ := mesh.created registered _ hzero
  exact ⟨r, ⟨hcompletes, hfresh⟩, h.2.symm.trans happend⟩

variable {mesh : DataMesh}

theorem localfsPath_of_ok {datasourceId : Bytes} {datasource : DomainDataSource}
    {info : DataSourceInfo} {localfs : LocalDataSourceInfo}
    (h : getDomainDatasource mesh datasourceId = .ok datasource)
    (hinfo : datasource.info = some info) (hlocalfs : info.localfs = some localfs) :
    mesh.localfsPath datasourceId = some localfs.path := by
  obtain ⟨⟨status, hstatus, hcode⟩, hdata⟩ := Response.result_eq_ok.mp h
  simp [DataMesh.localfsPath, Response.code, hstatus, hcode, hdata, hinfo, hlocalfs]

end DataMeshClient

/-! ## A mesh -/

/-- The record of a request, under an id and with a data source that are not empty. -/
def CreateDomainDataRequest.completed (body : CreateDomainDataRequest)
    (domaindataId datasourceId : Bytes) : DomainData where
  domaindataId := domaindataId
  name := body.name
  type := body.type
  relativeUri := body.relativeUri
  datasourceId := datasourceId
  attributes := body.attributes
  partition := body.partition
  columns := body.columns
  vendor := body.vendor
  fileFormat := if body.fileFormat = .unknown then .csv else body.fileFormat
  author := []

/-- Generated ids are numbered by the records. -/
def generatedId (registered : List DomainData) : Bytes :=
  str "domaindata-" ++ decimal registered.length

/-- Creation at a mesh that has a default data source and refuses ids that are taken. -/
def keepRecord (defaultDatasourceId : Bytes) (registered : List DomainData)
    (body : CreateDomainDataRequest) : Response Bytes × List DomainData :=
  let id := if body.domaindataId = [] then generatedId registered else body.domaindataId
  match record registered id with
  | some _ => (⟨some ⟨1, str "duplicate"⟩, none⟩, registered)
  | none => (⟨some ⟨0, []⟩, some id⟩, registered ++ [body.completed id
      (if body.datasourceId = [] then defaultDatasourceId else body.datasourceId)])

theorem generatedId_ne_nil (registered : List DomainData) : generatedId registered ≠ [] := by
  have hprefix : str "domaindata-" ≠ [] := by decide
  simp [generatedId, hprefix]

theorem keepRecord_created (defaultDatasourceId : Bytes) (registered : List DomainData)
    (body : CreateDomainDataRequest)
    (h : (keepRecord defaultDatasourceId registered body).1.code = 0) :
    ∃ r, Completes defaultDatasourceId body r ∧ record registered r.domaindataId = none ∧
      (keepRecord defaultDatasourceId registered body).2 = registered ++ [r] := by
  unfold keepRecord at h ⊢
  dsimp only at h ⊢
  split at h
  next => cases h
  next hfresh =>
    refine ⟨_, ⟨?_, ?_, rfl, rfl, rfl, rfl, rfl, rfl, rfl, ?_⟩, hfresh, rfl⟩
    · exact fun hid => if_neg hid
    · simp only [CreateDomainDataRequest.completed]
      split
      next => exact generatedId_ne_nil registered
      next hid => exact hid
    · exact fun hformat => if_neg hformat

theorem keepRecord_refused (defaultDatasourceId : Bytes) (registered : List DomainData)
    (body : CreateDomainDataRequest)
    (h : (keepRecord defaultDatasourceId registered body).1.code ≠ 0) :
    (keepRecord defaultDatasourceId registered body).2 = registered := by
  unfold keepRecord at h ⊢
  dsimp only at h ⊢
  split at h
  next => rfl
  next => exact absurd rfl h

/-- A mesh with the given data sources. -/
def DataMesh.keeping (queryDomainDataSource : Bytes → Response DomainDataSource)
    (defaultDatasourceId : Bytes) : DataMesh where
  queryDomainDataSource := queryDomainDataSource
  defaultDatasourceId := defaultDatasourceId
  createDomainData := keepRecord defaultDatasourceId
  created := keepRecord_created defaultDatasourceId
  refused := keepRecord_refused defaultDatasourceId

end TrustFlow.Dm
