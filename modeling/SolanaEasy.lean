import SolanaEasy.Token.Multisig
import SolanaEasy.Token.TlvEntries
import SolanaEasy.Token.TlvBuffer
import SolanaEasy.Token.View
import SolanaEasy.Token.Packed
import SolanaEasy.Token.Book
import SolanaEasy.Token.Storage
import SolanaEasy.Lib.Register
import SolanaEasy.Lib.Whole
import SolanaEasy.Lib.Schedule
import SolanaEasy.Token.Core
import SolanaEasy.Token.Governance
import SolanaEasy.Token.Call
import SolanaEasy.Token.Move
import SolanaEasy.Token.Refine.Basic
import SolanaEasy.Token.Refine.Settings
import SolanaEasy.Token.Refine.Authority
import SolanaEasy.Token.Refine.Lamports
import SolanaEasy.Token.Refine.Initialize
import SolanaEasy.Token.Refine.Transfer
import SolanaEasy.Token.Refine.TransferFee
import SolanaEasy.Token.Refine.ConfidentialTransfer
import SolanaEasy.Token.Refine.ConfidentialTransferTokens
import SolanaEasy.Token.Refine.ConfidentialTransferFee
import SolanaEasy.Token.Refine.ConfidentialMintBurn
import SolanaEasy.Token.Refine.MintExtension
import SolanaEasy.Token.Refine.TokenMetadata
import SolanaEasy.Token.Refine.Process
import SolanaEasy.Token.Effect
import SolanaEasy.Token.Run
import SolanaEasy.Token.Law.Kinds
import SolanaEasy.Token.Law.Authorities
import SolanaEasy.Token.Law.FeeSchedule
import SolanaEasy.Token.Law.TransferHook
import SolanaEasy.Token.Hidden
import SolanaEasy.Token.Law.Frozen
import SolanaEasy.Token.Law.Markers
import SolanaEasy.Token.Law.Native
import SolanaEasy.Token.Law.Paused
import SolanaEasy.Token.Holdings
import SolanaEasy.Token.Bookkeeping
import SolanaEasy.Token.Law.Conservation
import SolanaEasy.Token.Law.SecretIssue
import SolanaEasy.Token.Law.Closing
import SolanaEasy.Lib.Bucket
import SolanaEasy.Oft.RateLimiter
import SolanaEasy.Lib.Slice
import SolanaEasy.Oft.Message
import SolanaEasy.Token.Law.Transfers
import SolanaEasy.Oft.Store
import SolanaEasy.Oft.Program
import SolanaEasy.Oft.Solvency
import SolanaEasy.Token.Law.MultiplierSchedule
import SolanaEasy.Lib.Roster
import SolanaEasy.Token.Law.TokenGroup
import SolanaEasy.Token.Law.ConfidentialFee
import SolanaEasy.Lib.Wire
import SolanaEasy.Token.Pack
import SolanaEasy.Token.TokenInstruction
import SolanaEasy.Token.PodInstruction
import SolanaEasy.Lib.ElGamal
import SolanaEasy.Token.Confidential.Curve
import SolanaEasy.Token.Confidential.Generation
import SolanaEasy.Token.Law.ProofGeneration
import SolanaEasy.Oft.PreFeeAmount
import SolanaEasy.Token.Law.Signers
import SolanaEasy.Token.Law.TlvMutators
import SolanaEasy.Token.Law.AccountSize
import SolanaEasy.Token.Law.Reallocate
import SolanaEasy.Lib.Sweep
import SolanaEasy.Token.Overwrite
import SolanaEasy.Token.Law.Withheld
import SolanaEasy.Lib.Numeral
import SolanaEasy.Token.UiAmount
import SolanaEasy.Token.Law.UiAmount
import SolanaEasy.Lib.Average
import SolanaEasy.Token.Law.InterestRates
import SolanaEasy.Oft.Amounts
import SolanaEasy.Oft.Quote
import SolanaEasy.Oft.LzReceiveTypes
import SolanaEasy.Token.Law.ClientReader
import SolanaEasy.Token.Confidential.AccountInfo
import SolanaEasy.Token.Law.DecryptableSupply
import SolanaEasy.Token.Honest
import SolanaEasy.Token.Law.PendingBalance
import SolanaEasy.Token.Law.Spending
import SolanaEasy.Token.Law.TlvLookup
import SolanaEasy.Token.Onchain
import SolanaEasy.Token.Law.Onchain
import SolanaEasy.Token.Law.ClientSizes
import SolanaEasy.Token.Law.Soulbound
import SolanaEasy.Token.Law.Backing
import SolanaEasy.Token.Law.CpiGuard
import SolanaEasy.Token.ElGamalRegistry
import SolanaEasy.Token.Law.KeyProvenance
import SolanaEasy.Token.Law.ApplyPending
import SolanaEasy.Token.Law.SilentOwner
import SolanaEasy.Lib.Network
import SolanaEasy.Oft.Issue
import SolanaEasy.Oft.Mesh
import SolanaEasy.Oft.Governance
import SolanaEasy.Oft.PeerLimits
import SolanaEasy.Token.Law.ValidFees
import SolanaEasy.Oft.QuoteOft
import SolanaEasy.Lib.Dispatch
import SolanaEasy.Lib.Format
import SolanaEasy.Token.ExtensionInstruction
import SolanaEasy.Token.SplInterface
import SolanaEasy.Token.Input
import SolanaEasy.Token.Entrypoint
import SolanaEasy.Token.Law.Input
import SolanaEasy.Token.Law.Answers
import SolanaEasy.Token.Law.ProofLocations
