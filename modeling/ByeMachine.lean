import ByeMachine.Base.Best
import ByeMachine.Base.Borsh
import ByeMachine.Base.Bytes
import ByeMachine.Base.Fallible
import ByeMachine.Base.Fenwick
import ByeMachine.Base.Floors
import ByeMachine.Base.Replay
import ByeMachine.Base.Sha256
import ByeMachine.Base.Store
import ByeMachine.Chain
import ByeMachine.Client.Anchor
import ByeMachine.Client.Builders
import ByeMachine.Client.Decoders
import ByeMachine.Client.Encoders
import ByeMachine.Client.EventDecoders
import ByeMachine.Client.Node
import ByeMachine.Client.Reads
import ByeMachine.Client.TierResolve
import ByeMachine.Common.Constants
import ByeMachine.Common.CoreAsset
import ByeMachine.Common.Discriminators
import ByeMachine.Common.Errors
import ByeMachine.Common.Escrow
import ByeMachine.Common.EventLayout
import ByeMachine.Common.Events
import ByeMachine.Common.ExitAccounting
import ByeMachine.Common.Guards
import ByeMachine.Common.Math
import ByeMachine.Common.Programs
import ByeMachine.Common.Rebalance
import ByeMachine.Common.Seeds
import ByeMachine.Common.Standards
import ByeMachine.Common.Tier
import ByeMachine.Common.VrfQueue
import ByeMachine.Common.Wire
import ByeMachine.Entry
import ByeMachine.Exec
import ByeMachine.Instructions.Admin
import ByeMachine.Instructions.Deposit
import ByeMachine.Instructions.Exit
import ByeMachine.Instructions.Roll
import ByeMachine.Instructions.Tier
import ByeMachine.Instructions.UpdateConfig
import ByeMachine.Instructions.Value
import ByeMachine.Invariants.Accounted
import ByeMachine.Invariants.Entitled
import ByeMachine.Invariants.Evolution
import ByeMachine.Invariants.Lives
import ByeMachine.Invariants.Ranked
import ByeMachine.Invariants.Runs
import ByeMachine.Invariants.Settlement
import ByeMachine.Invariants.Stamped
import ByeMachine.Invariants.Synced
import ByeMachine.Invariants.Timed
import ByeMachine.Invariants.Traces
import ByeMachine.Laws.BorshCodec
import ByeMachine.Laws.IndexRuns
import ByeMachine.Laws.Rebalance
import ByeMachine.Laws.Tier
import ByeMachine.Laws.TierArray
import ByeMachine.Laws.VrfQueue
import ByeMachine.Laws.WeightIndex
import ByeMachine.Laws.Wire
import ByeMachine.Ledger
import ByeMachine.Properties.Admission
import ByeMachine.Properties.AuditTrail
import ByeMachine.Properties.BlankIndex
import ByeMachine.Properties.BorshRoundTrip
import ByeMachine.Properties.CardLog
import ByeMachine.Properties.Census
import ByeMachine.Properties.Configuration
import ByeMachine.Properties.ConfigurationViews
import ByeMachine.Properties.Controller
import ByeMachine.Properties.ControllerOptimum
import ByeMachine.Properties.Custody
import ByeMachine.Properties.Departures
import ByeMachine.Properties.Displacement
import ByeMachine.Properties.EventWire
import ByeMachine.Properties.ExitAvailability
import ByeMachine.Properties.FeeShares
import ByeMachine.Properties.Freeze
import ByeMachine.Properties.Freshness
import ByeMachine.Properties.Gate
import ByeMachine.Properties.IndexOperations
import ByeMachine.Properties.InstructionWire
import ByeMachine.Properties.Isolation
import ByeMachine.Properties.Lifecycle
import ByeMachine.Properties.Payout
import ByeMachine.Properties.PoolLog
import ByeMachine.Properties.PrefixSearch
import ByeMachine.Properties.QueueTotality
import ByeMachine.Properties.RawLog
import ByeMachine.Properties.RefundEvidence
import ByeMachine.Properties.RollLedger
import ByeMachine.Properties.Rotation
import ByeMachine.Properties.SeasonLock
import ByeMachine.Properties.Solvency
import ByeMachine.Properties.Stranded
import ByeMachine.Properties.Succession
import ByeMachine.Properties.Sweeps
import ByeMachine.Properties.Synchronisation
import ByeMachine.Properties.TierAccrual
import ByeMachine.Properties.TierConvergence
import ByeMachine.Properties.TopTier
import ByeMachine.Properties.VaultLog
import ByeMachine.Properties.WireAuthority
import ByeMachine.Properties.WireFormat
import ByeMachine.Refinement.Accounting
import ByeMachine.Refinement.Accounts
import ByeMachine.Refinement.Admin
import ByeMachine.Refinement.Cards
import ByeMachine.Refinement.Deposits
import ByeMachine.Refinement.Events
import ByeMachine.Refinement.Exec
import ByeMachine.Refinement.Exits
import ByeMachine.Refinement.Fate
import ByeMachine.Refinement.Footprint
import ByeMachine.Refinement.Frame
import ByeMachine.Refinement.Handlers
import ByeMachine.Refinement.Payments
import ByeMachine.Refinement.Pools
import ByeMachine.Refinement.Stints
import ByeMachine.Refinement.TierLog
import ByeMachine.Refinement.TierMoves
import ByeMachine.Refinement.Values
import ByeMachine.Script
import ByeMachine.State.Accounts
import ByeMachine.State.InPlace
import ByeMachine.State.Layout
import ByeMachine.State.WeightIndex
