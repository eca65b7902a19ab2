import Tamga.Library.Text
import Tamga.Library.Base64
import Tamga.Library.Serde
import Tamga.Library.Canonical
import Tamga.Library.JsonText
import Tamga.Library.JsonTree
import Tamga.Library.SignedFile
import Tamga.Crypto
import Tamga.Models
import Tamga.Envelope
import Tamga.KeySet
import Tamga.LicenseFile
import Tamga.MachineFile
import Tamga.LicenseAcceptance
import Tamga.MachineAcceptance
import Tamga.KeySetRefinement
import Tamga.ServerFiles
import Tamga.PayloadJson
import Tamga.OfflineSoundness
import Tamga.FailureLabels
import Tamga.UnsignedAlg
import Tamga.FormatSeparation
import Tamga.Fingerprint
import Tamga.OfflineProof
import Tamga.Library.Interaction
import Tamga.ApiErrors
import Tamga.Client
import Tamga.RetryBounds
import Tamga.ActivationFlow
import Tamga.ActivationAgreement
import Tamga.ServerResponses
import Tamga.ActivationSafety
import Tamga.RollbackDecision
import Tamga.Library.Paging
import Tamga.MachineSearch
import Tamga.SearchRace
import Tamga.Library.Interleaving
import Tamga.ProcessSweep
import Tamga.ConcurrentActivation
import Tamga.EmptyKeySet
import Tamga.SigningKeys
import Tamga.ErrorDocuments
import Tamga.AlgGrammar
import Tamga.ExpiryDecision
import Tamga.FingerprintErrors
import Tamga.ArtifactDownload
import Tamga.SearchProgress
import Tamga.SweepTermination
import Tamga.Library.CheckedSums
import Tamga.PageArithmetic
import Tamga.LabelOrder
import Tamga.Library.Binary64
import Tamga.Policies
import Tamga.OverageLimits
import Tamga.ClientReads
import Tamga.HeartbeatSchedule
import Tamga.Library.Linearization
import Tamga.MeterUsage
import Tamga.KeyRotation
import Tamga.MachineUpdates
import Tamga.CheckOut
import Tamga.Entitlements
import Tamga.RequestSetup
import Tamga.SystemClock
import Tamga.ProofGeneration
import Tamga.Library.Layering
import Tamga.Throttling
import Tamga.RetriedCalls
