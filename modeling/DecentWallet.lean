import DecentWallet.Lib.Bytes
import DecentWallet.Lib.Utf8
import DecentWallet.Lib.Cbor
import DecentWallet.Lib.CborRead
import DecentWallet.Lib.CborDict
import DecentWallet.Lib.Base64
import DecentWallet.Lib.Json
import DecentWallet.Lib.JsonText
import DecentWallet.Lib.JsonSize
import DecentWallet.Lib.JsonLength
import DecentWallet.Lib.Assoc
import DecentWallet.Lib.Prog
import DecentWallet.Lib.Trace
import DecentWallet.Spec.Envelope
import DecentWallet.Spec.Transport
import DecentWallet.Spec.History
import DecentWallet.Spec.Bundle
import DecentWallet.Spec.Adapter
import DecentWallet.Spec.Publish
import DecentWallet.Spec.KotlinCbor
import DecentWallet.Sanity.KotlinCbor
import DecentWallet.Spec.KotlinHistory
import DecentWallet.Sanity.KotlinHistory
import DecentWallet.Sanity.KotlinResolve
import DecentWallet.Spec.Payload
import DecentWallet.Spec.Container
import DecentWallet.Spec.Storage
import DecentWallet.Spec.Signer
import DecentWallet.Spec.Wallet
import DecentWallet.Spec.Rotation
import DecentWallet.Spec.WalletRun
import DecentWallet.Spec.System
import DecentWallet.Sanity.Envelope
import DecentWallet.Sanity.History
import DecentWallet.Sanity.Canonical
import DecentWallet.Sanity.Bundle
import DecentWallet.Sanity.Merge
import DecentWallet.Sanity.Frame
import DecentWallet.Sanity.Fence
import DecentWallet.Sanity.Publish
import DecentWallet.Sanity.Reference
import DecentWallet.Sanity.Payload
import DecentWallet.Sanity.Container
import DecentWallet.Sanity.Storage
import DecentWallet.Sanity.Secrets
import DecentWallet.Sanity.Session
import DecentWallet.Sanity.Persist
import DecentWallet.Sanity.Latches
import DecentWallet.Sanity.Operations
import DecentWallet.Sanity.Opening
import DecentWallet.Sanity.Lengths
import DecentWallet.Sanity.WalletRun
import DecentWallet.Sanity.SessionRun
import DecentWallet.Sanity.Writing
import DecentWallet.Proofs.HistorySoundness
import DecentWallet.Proofs.HistoryAgreement
import DecentWallet.Proofs.SessionDisk
import DecentWallet.Proofs.Resealing
import DecentWallet.Proofs.Reopening
import DecentWallet.Proofs.HostileContainers
import DecentWallet.Proofs.Creation
import DecentWallet.Proofs.Merging
import DecentWallet.Proofs.DraftHistory
import DecentWallet.Proofs.Exchange
import DecentWallet.Proofs.EnvironmentFence
import DecentWallet.Proofs.HostileRegistry
import DecentWallet.Proofs.TamperEvidence
import DecentWallet.Proofs.Authoring
import DecentWallet.Proofs.SingleSigner
import DecentWallet.Proofs.Migration
import DecentWallet.Proofs.KotlinCodec
import DecentWallet.Proofs.LoginProofs
import DecentWallet.Proofs.LoginThreads
import DecentWallet.Proofs.ReplayJournal
import DecentWallet.Proofs.DirectDht
import DecentWallet.Proofs.SignerAgreement
import DecentWallet.Proofs.RotationVerifies
import DecentWallet.Proofs.RotationAuthoring
import DecentWallet.Proofs.LatchRegistry
import DecentWallet.Proofs.OrdinaryWrites
