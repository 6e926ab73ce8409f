import Interbtc.Accounting.Books
import Interbtc.Accounting.Calls
import Interbtc.Accounting.Coverage
import Interbtc.Accounting.Effects
import Interbtc.Accounting.Invariants
import Interbtc.Accounting.Issuing
import Interbtc.Accounting.Records
import Interbtc.Accounting.Redeeming
import Interbtc.Accounting.Refinement
import Interbtc.Accounting.Registry
import Interbtc.Accounting.Replaceability
import Interbtc.Accounting.Replacing
import Interbtc.Accounting.Supply
import Interbtc.Annuity.Solvency
import Interbtc.Bitcoin.Address
import Interbtc.Bitcoin.Compact
import Interbtc.Bitcoin.CompactSize
import Interbtc.Bitcoin.Formatter
import Interbtc.Bitcoin.Grammar
import Interbtc.Bitcoin.Identity
import Interbtc.Bitcoin.Layout
import Interbtc.Bitcoin.Merkle
import Interbtc.Bitcoin.MerkleComplete
import Interbtc.Bitcoin.MerklePositions
import Interbtc.Bitcoin.MerkleProof
import Interbtc.Bitcoin.Parser
import Interbtc.Bitcoin.Pow
import Interbtc.Bitcoin.RoundTrip
import Interbtc.Bitcoin.Serialization
import Interbtc.Bitcoin.Totality
import Interbtc.Bitcoin.Transaction
import Interbtc.Bitcoin.Types
import Interbtc.Bridge.Chain
import Interbtc.Bridge.Collateral
import Interbtc.Bridge.Dispatch
import Interbtc.Bridge.Frames
import Interbtc.Bridge.Issue
import Interbtc.Bridge.Nomination
import Interbtc.Bridge.Redeem
import Interbtc.Bridge.Replace
import Interbtc.Bridge.Vaults
import Interbtc.BtcRelay.Confirmations
import Interbtc.BtcRelay.History
import Interbtc.BtcRelay.Inclusion
import Interbtc.BtcRelay.Ordering
import Interbtc.BtcRelay.Overtake
import Interbtc.BtcRelay.Pallet
import Interbtc.BtcRelay.Payments
import Interbtc.BtcRelay.Queue
import Interbtc.BtcRelay.Reorg
import Interbtc.BtcRelay.Retarget
import Interbtc.BtcRelay.Sortedness
import Interbtc.BtcRelay.Soundness
import Interbtc.BtcRelay.Steps
import Interbtc.BtcRelay.Structure
import Interbtc.BtcRelay.Swap
import Interbtc.BtcRelay.Targets
import Interbtc.Core.Baskets
import Interbtc.Core.Call
import Interbtc.Core.Checked
import Interbtc.Core.ConstantProduct
import Interbtc.Core.Exchange
import Interbtc.Core.Fees
import Interbtc.Core.FixedPoint
import Interbtc.Core.GeometricShares
import Interbtc.Core.IndexedDebts
import Interbtc.Core.Interpolation
import Interbtc.Core.Listing
import Interbtc.Core.Loops
import Interbtc.Core.Median
import Interbtc.Core.MerkleOpening
import Interbtc.Core.MerkleTree
import Interbtc.Core.Moves
import Interbtc.Core.Obligations
import Interbtc.Core.OrderedMap
import Interbtc.Core.PrefixCode
import Interbtc.Core.Premiums
import Interbtc.Core.Reader
import Interbtc.Core.RewardLedger
import Interbtc.Core.Run
import Interbtc.Core.ShareLedger
import Interbtc.Core.SlashOrder
import Interbtc.Core.SquareRoot
import Interbtc.Core.StakeLedger
import Interbtc.Core.Sums
import Interbtc.Core.Triple
import Interbtc.Currency.Actions
import Interbtc.Currency.Amount
import Interbtc.Currency.Flows
import Interbtc.Currency.Tokens
import Interbtc.Currency.Withdrawal
import Interbtc.Democracy.Deposits
import Interbtc.Democracy.Dispatch
import Interbtc.Democracy.Pallet
import Interbtc.Democracy.Tallies
import Interbtc.Democracy.Thresholds
import Interbtc.Democracy.Types
import Interbtc.DexGeneral.Audit
import Interbtc.DexGeneral.Bootstrap
import Interbtc.DexGeneral.Claims
import Interbtc.DexGeneral.Contributions
import Interbtc.DexGeneral.Dispatch
import Interbtc.DexGeneral.Effects
import Interbtc.DexGeneral.Lifecycle
import Interbtc.DexGeneral.Liquidity
import Interbtc.DexGeneral.Liveness
import Interbtc.DexGeneral.Pallet
import Interbtc.DexGeneral.Paths
import Interbtc.DexGeneral.Quotes
import Interbtc.DexGeneral.Shares
import Interbtc.DexGeneral.Solvency
import Interbtc.DexGeneral.Structure
import Interbtc.DexStable.Amplification
import Interbtc.DexStable.Backing
import Interbtc.DexStable.Base
import Interbtc.DexStable.Calls
import Interbtc.DexStable.Computations
import Interbtc.DexStable.Curve
import Interbtc.DexStable.Custody
import Interbtc.DexStable.Delivery
import Interbtc.DexStable.Dispatch
import Interbtc.DexStable.Evolution
import Interbtc.DexStable.Execution
import Interbtc.DexStable.Governance
import Interbtc.DexStable.Guards
import Interbtc.DexStable.Layout
import Interbtc.DexStable.Lifecycle
import Interbtc.DexStable.Meta
import Interbtc.DexStable.Pallet
import Interbtc.DexStable.Payouts
import Interbtc.DexStable.Pool
import Interbtc.DexStable.Quotes
import Interbtc.DexStable.Ramp
import Interbtc.DexStable.Safety
import Interbtc.DexStable.Surplus
import Interbtc.DexStable.Trades
import Interbtc.DexStable.Underlying
import Interbtc.Environment
import Interbtc.Escrow.Additivity
import Interbtc.Escrow.Future
import Interbtc.Escrow.Pace
import Interbtc.Escrow.Pallet
import Interbtc.Escrow.Point
import Interbtc.Escrow.Staked
import Interbtc.Escrow.Steps
import Interbtc.Escrow.VotingPower
import Interbtc.Escrow.Walk
import Interbtc.Farming.Solvency
import Interbtc.Guarantees.Collateralization
import Interbtc.Guarantees.PaidIssue
import Interbtc.Guarantees.PremiumBound
import Interbtc.Guarantees.PremiumRedeem
import Interbtc.Loans.Books
import Interbtc.Loans.Conversion
import Interbtc.Loans.Debts
import Interbtc.Loans.Dispatch
import Interbtc.Loans.Effects
import Interbtc.Loans.Farming
import Interbtc.Loans.Hooks
import Interbtc.Loans.Interest
import Interbtc.Loans.Lending
import Interbtc.Loans.Models
import Interbtc.Loans.Moves
import Interbtc.Loans.Pallet
import Interbtc.Loans.Parameters
import Interbtc.Loans.Rates
import Interbtc.Loans.Steps
import Interbtc.Loans.Terms
import Interbtc.Loans.Toggle
import Interbtc.Oracle.Medians
import Interbtc.Oracle.Pallet
import Interbtc.Primitives
import Interbtc.Reward.Pallet
import Interbtc.Reward.ProRata
import Interbtc.Reward.Solvency
import Interbtc.Reward.Steps
import Interbtc.Staking.Api
import Interbtc.Staking.Conservation
import Interbtc.Staking.Exact
import Interbtc.Staking.Exit
import Interbtc.Staking.Pallet
import Interbtc.Staking.Pool
import Interbtc.Staking.Proportionality
import Interbtc.Staking.Ranges
import Interbtc.Staking.Refinement
import Interbtc.Staking.Rewards
import Interbtc.Staking.Soundness
import Interbtc.Staking.Steps
import Interbtc.SwapRouter.Delivery
import Interbtc.SwapRouter.Pallet
import Interbtc.Vault.Calls
import Interbtc.Vault.Registry
