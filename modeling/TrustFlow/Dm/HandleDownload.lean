import TrustFlow.Dm.HandleUpload

/-! # The download handler

`handle_download` of the server.  A request names a URI; for one of the scheme `dm` the
handler asks the mesh for the record of an id and for the data source of the record, and
opens the file that the two name. -/

namespace TrustFlow.Dm

open Proxy (Name pathAppend)

structure DmInputUriQueryParams where
  id : Bytes
deriving DecidableEq

/-- What the download handler is built on besides what it shares with uploads: the answers of the
    mesh for records, the path of a URL, and the parsers of its requests. -/
structure DownloadEnv extends ServerEnv where
  queryDomainData : Bytes → Response DomainData
  urlPath : Bytes → Bytes
  parseRequestParams : Bytes → Option Bytes
  parseInputQuery : Bytes → Option DmInputUriQueryParams

def DataMeshClient.getDomainData (env : DownloadEnv) (domaindataId : Bytes) :
    Except Error DomainData :=
  (env.queryDomainData domaindataId).result (str "datasource data is empty")

/-- What the handler opens: the file of a record, or the path of the URL. -/
inductive DownloadPlace where
  | dm (domainData : DomainData) (localfsPath : Bytes)
  | file (path : Bytes)
deriving DecidableEq

def DownloadPlace.filename : DownloadPlace → Bytes
  | .dm domainData localfsPath => pathAppend localfsPath domainData.relativeUri
  | .file path => path

/-- The part of the handler before the file is opened. -/
def locateDownload (env : DownloadEnv) (body : Bytes) : Except Error DownloadPlace := do
  let uri ← okOr (env.parseRequestParams body) .json
  let url ← okOr (env.parseUrl uri) .url
  if url.scheme = str "dm" then do
    let qs ← okOr url.query (.text (str "lack query"))
    let params ← okOr (env.parseInputQuery qs) .query
    let domainData ← DataMeshClient.getDomainData env params.id
    let domainDataSource ← DataMeshClient.getDomainDatasource env.mesh domainData.datasourceId
    let info ← okOr domainDataSource.info (.text (str "lack datasource info"))
    let infoLocalfs ← okOr info.localfs (.text (str "lack localfs config"))
    return .dm domainData infoLocalfs.path
  else if url.scheme = str "file" then return .file (env.urlPath uri)
  else .error (.text (str "Unsupport scheme"))

inductive DownloadAnswer where
  | content (body : Bytes)
  /-- A directory opens like a file, and reading it breaks the body off. -/
  | broken
  | notFound
deriving DecidableEq

def openForDownload (fs : FileSystem) (p : Location Name) : DownloadAnswer :=
  match fs.node p with
  | none => .notFound
  | some (.file content) => .content content
  | some _ => .broken

def handleDownload (env : DownloadEnv) (fs : FileSystem) (body : Bytes) :
    Except Error DownloadAnswer := do
  let place ← locateDownload env body
  return openForDownload fs (env.resolve place.filename)

/-- The record that a download opens is the mesh's answer, and its data source has a path. -/
theorem locateDownload_dm {env : DownloadEnv} {body localfsPath : Bytes} {domainData : DomainData}
    (h : locateDownload env body = .ok (.dm domainData localfsPath)) :
    (∃ id, (env.queryDomainData id).data = some domainData) ∧
      env.mesh.localfsPath domainData.datasourceId = some localfsPath := by
  simp only [locateDownload, bind_eq_ok, okOr_eq_ok] at h
  obtain ⟨uri, _, url, _, h⟩ := h
  split at h
  next =>
    simp only [bind_eq_ok, okOr_eq_ok] at h
    obtain ⟨_, _, params, _, data, hdata, datasource, hdatasource, info, hinfo, localfs, hlocalfs,
      h⟩ := h
    cases h
    exact ⟨⟨params.id, (Response.result_eq_ok.mp hdata).2⟩,
      DataMeshClient.localfsPath_of_ok hdatasource hinfo hlocalfs⟩
  next =>
    split at h
    · cases h
    · cases h

end TrustFlow.Dm
