import TrustFlow.Data.Bytes
import TrustFlow.Data.Hex
import TrustFlow.Attestation.Attributes
import TrustFlow.Attestation.AttrsIsMatch
import TrustFlow.Attestation.VerifyAttributes
import TrustFlow.Attestation.Dcap
import TrustFlow.Attestation.Sgx2Verifier
import TrustFlow.Attestation.TdxVerifier
import TrustFlow.Data.Words
import TrustFlow.Attestation.CsvVerifier
import TrustFlow.Attestation.CsvSignedBytes
import TrustFlow.Attestation.CsvUnmasking
import TrustFlow.Attestation.Verifier
import TrustFlow.Attestation.DebugFlag
import TrustFlow.Attestation.ParserBounds
import TrustFlow.CString
import TrustFlow.Attestation.CApi
import TrustFlow.Attestation.UnifiedJson
import TrustFlow.Attestation.Collateral
import TrustFlow.Attestation.PolicyCoverage
import TrustFlow.Attestation.Generation
import TrustFlow.Attestation.PublicKeyBinding
import TrustFlow.Data.Stoi
import TrustFlow.Attestation.MinSvn
import TrustFlow.Attestation.MeasurementRules
import TrustFlow.Stream
import TrustFlow.Proxy.DataBlock
import TrustFlow.Proxy.EncryptedFile
import TrustFlow.Proxy.FileRoundTrip
import TrustFlow.Proxy.BlockTampering
import TrustFlow.Proxy.DecryptGrammar
import TrustFlow.Proxy.BlockFields
import TrustFlow.Data.Base64
import TrustFlow.Data.Base64Decode
import TrustFlow.FileTree
import TrustFlow.LexicalPath
import TrustFlow.Proxy.Paths
import TrustFlow.Proxy.StagingDir
import TrustFlow.Proxy.PutResultData
import TrustFlow.Proxy.StagedUpload
import TrustFlow.Proxy.SequentialRequests
import TrustFlow.Proxy.ConcurrentUploads
import TrustFlow.Proxy.ResultKey
import TrustFlow.Attestation.ReportDataBinding
import TrustFlow.Attestation.ReportDataReadback
import TrustFlow.Proxy.RaCert
import TrustFlow.Proxy.RaHandshake
import TrustFlow.Proxy.EncryptedResponse
import TrustFlow.Proxy.EncryptedRequest
import TrustFlow.Proxy.CapsuleManagerCalls
import TrustFlow.FilePlacement
import TrustFlow.Footprint
import TrustFlow.Transitions
import TrustFlow.TaskPool
import TrustFlow.Proxy.DirectoryCrypto
import TrustFlow.Proxy.DecryptScheduling
import TrustFlow.Proxy.DecryptFailure
import TrustFlow.Proxy.DirectoryRoundTrip
import TrustFlow.Proxy.OssDownload
import TrustFlow.Proxy.OssPlacement
import TrustFlow.LinkedTree
import TrustFlow.FreeGround
import TrustFlow.Proxy.LinkedDirectory
import TrustFlow.Proxy.LinkedConfinement
import TrustFlow.Proxy.LinkedEscape
import TrustFlow.Records
import TrustFlow.Dm.DataMesh
import TrustFlow.Dm.HandleUpload
import TrustFlow.Dm.ConcurrentRequests
import TrustFlow.Dm.Registration
import TrustFlow.Dm.UploadRetries
import TrustFlow.Dm.UploadProtocol
import TrustFlow.Dm.UploadExport
import TrustFlow.Dm.HandleDownload
import TrustFlow.Dm.ServeReq
import TrustFlow.Dm.UploadStatus
import TrustFlow.Dm.Confinement
import TrustFlow.Dm.KusciaProto
import TrustFlow.Dm.RecordFlow
import TrustFlow.Data.Dict
import TrustFlow.Data.WriteOnce
import TrustFlow.PyValue
import TrustFlow.ProtoJson
import TrustFlow.Pylib.Common
import TrustFlow.Pylib.RoundTrip
import TrustFlow.Pylib.Messages
import TrustFlow.Componentize.Spec
import TrustFlow.Componentize.Component
import TrustFlow.Componentize.EvalParamReader
import TrustFlow.Componentize.ScalarConstraints
import TrustFlow.Componentize.ListConstraints
import TrustFlow.Componentize.Definition
import TrustFlow.Componentize.ReaderSpec
import TrustFlow.Componentize.ParamSources
import TrustFlow.Componentize.ReaderCrashes
import TrustFlow.Componentize.Defaults
import TrustFlow.Proxy.GetInputData
import TrustFlow.Proxy.SealedDirectory
import TrustFlow.Proxy.CapsulePipeline
import TrustFlow.Proxy.RequestView
import TrustFlow.Proxy.ServiceIsolation
import TrustFlow.Attestation.Generators
import TrustFlow.Attestation.GeneratedReports
import TrustFlow.Attestation.Bindings
import TrustFlow.Pylib.ReportApi
import TrustFlow.Attestation.QuoteContent
import TrustFlow.PyJson
import TrustFlow.PyJsonRoundTrip
import TrustFlow.Proxy.LinkedEscape
