import Interbtc.Democracy.Pallet

/-!
# The calls of the democracy pallet

What the dispatchable calls do, who may make them, and the steps that a chain takes: a call,
the beginning of a block, or a change of balances and known calls in other pallets.
-/

namespace Interbtc

open Core

/-- Who makes a call: the root of the chain, the committee that may fast-track, or an account. -/
inductive DemocracyOrigin (AccountId : Type)
  | root
  | fastTrack
  | signed (who : AccountId)
  deriving DecidableEq

namespace Democracy

variable {AccountId Proposal : Type} [DecidableEq AccountId]

/-! ## Origins -/

/-- Only an account may call. -/
def ensureSigned : DemocracyOrigin AccountId → Except DemocracyError AccountId
  | .signed who => .ok who
  | _ => .error .badOrigin

/-- Only the root may call. -/
def ensureRoot : DemocracyOrigin AccountId → Except DemocracyError Unit
  | .root => .ok ()
  | _ => .error .badOrigin

/-- The root may fast-track too. -/
def ensureFastTrack : DemocracyOrigin AccountId → Except DemocracyError Unit
  | .signed _ => .error .badOrigin
  | _ => .ok ()

/-- An account, or none for the root. -/
def ensureSignedOrRoot : DemocracyOrigin AccountId → Except DemocracyError (Option AccountId)
  | .signed who => .ok (some who)
  | .root => .ok none
  | .fastTrack => .error .badOrigin

/-! ## Calls -/

section Calls

variable [DemocracyConfig]

open DemocracyConfig

/-- Propose a sensitive action to be taken. -/
def propose (origin : DemocracyOrigin AccountId) (proposal : Proposal) (value : ℕ) :
    DemocracyCall AccountId Proposal Unit := do
  let who ← Call.ofExcept (ensureSigned origin)
  Call.ensure (minimumDeposit ≤ value) .valueLow
  let s ← get
  let index := s.publicPropCount
  Call.ensure (s.publicProps.length < maxProposals) .tooMany
  Call.ensure (s.preimages proposal) .preimageMissing
  reserve who value
  Call.ensure (index + 1 ≤ maxU32) .panic
  modify fun s => { s with
    publicPropCount := index + 1
    depositOf := Function.update s.depositOf index (some ([who].take maxDeposits, value))
    publicProps := s.publicProps ++ [(index, proposal, who)] }

/-- Signals agreement with a particular proposal. -/
def second (origin : DemocracyOrigin AccountId) (proposal : ℕ) :
    DemocracyCall AccountId Proposal Unit := do
  let who ← Call.ofExcept (ensureSigned origin)
  let s ← get
  let deposit ← Call.ofOption .proposalMissing (s.depositOf proposal)
  Call.ensure (deposit.1.length < maxDeposits) .tooMany
  reserve who deposit.2
  modify fun s => { s with
    depositOf := Function.update s.depositOf proposal (some (deposit.1 ++ [who], deposit.2)) }

/-- An account votes on a referendum. -/
def vote (origin : DemocracyOrigin AccountId) (refIndex : ℕ) (vote : Vote) :
    DemocracyCall AccountId Proposal Unit := do
  let who ← Call.ofExcept (ensureSigned origin)
  tryVote who refIndex vote

/-- Schedule a proposal to be tabled immediately with the shorter voting period. -/
def fastTrack (origin : DemocracyOrigin AccountId) (propIndex delay : ℕ) :
    DemocracyCall AccountId Proposal Unit := do
  Call.ofExcept (ensureFastTrack origin)
  fastTrackWithVotingPeriod propIndex delay fastTrackVotingPeriod

/-- Same as `fastTrack` but with the default voting period. -/
def tableProposal (origin : DemocracyOrigin AccountId) (propIndex delay : ℕ) :
    DemocracyCall AccountId Proposal Unit := do
  Call.ofExcept (ensureFastTrack origin)
  fastTrackWithVotingPeriod propIndex delay votingPeriod

/-- Reduces the voting period of an existing referendum. -/
def fastTrackReferendum (origin : DemocracyOrigin AccountId) (refIndex : ℕ) :
    DemocracyCall AccountId Proposal Unit := do
  Call.ofExcept (ensureFastTrack origin)
  let s ← get
  let status ← Call.ofExcept (s.referendumStatus refIndex)
  let endBlock := saturatingAdd maxU32 s.blockNumber fastTrackVotingPeriod
  Call.ensure (status.endBlock > endBlock) .referendumFastTrackFailed
  modify fun s => { s with
    referendumInfoOf := Function.update s.referendumInfoOf refIndex
      (some (.ongoing { status with endBlock := endBlock })) }

/-- The root cancels a referendum. -/
def cancelReferendum (origin : DemocracyOrigin AccountId) (refIndex : ℕ) :
    DemocracyCall AccountId Proposal Unit := do
  Call.ofExcept (ensureRoot origin)
  internalCancelReferendum refIndex

/-- Clears all public proposals. -/
def clearPublicProposals (origin : DemocracyOrigin AccountId) :
    DemocracyCall AccountId Proposal Unit := do
  Call.ofExcept (ensureRoot origin)
  modify fun s => { s with publicProps := [] }

/-- Remove a proposal, which only its proposer and the root may do. -/
def cancelProposal (origin : DemocracyOrigin AccountId) (propIndex : ℕ) :
    DemocracyCall AccountId Proposal Unit := do
  let who ← Call.ofExcept (ensureSignedOrRoot origin)
  let s ← get
  let removed ← Call.ofOption .proposalMissing
    (s.publicProps.zipIdx.find? fun entry => entry.1.1 = propIndex)
  Call.ensure (who = none ∨ who = some removed.1.2.2) .notProposer
  modify fun s => { s with publicProps := s.publicProps.eraseIdx removed.2 }
  let _ ← refundDepositors propIndex

/-- An account takes its vote back. -/
def removeVote (origin : DemocracyOrigin AccountId) (index : ℕ) :
    DemocracyCall AccountId Proposal Unit := do
  let who ← Call.ofExcept (ensureSigned origin)
  tryRemoveVote who index

end Calls

/-! ## Steps -/

/-- What happens to the storage of the pallet. -/
inductive Op (AccountId Proposal : Type)
  | propose (origin : DemocracyOrigin AccountId) (proposal : Proposal) (value : ℕ)
  | second (origin : DemocracyOrigin AccountId) (proposal : ℕ)
  | vote (origin : DemocracyOrigin AccountId) (refIndex : ℕ) (vote : Vote)
  | fastTrack (origin : DemocracyOrigin AccountId) (propIndex delay : ℕ)
  | tableProposal (origin : DemocracyOrigin AccountId) (propIndex delay : ℕ)
  | fastTrackReferendum (origin : DemocracyOrigin AccountId) (refIndex : ℕ)
  | cancelReferendum (origin : DemocracyOrigin AccountId) (refIndex : ℕ)
  | clearPublicProposals (origin : DemocracyOrigin AccountId)
  | cancelProposal (origin : DemocracyOrigin AccountId) (propIndex : ℕ)
  | removeVote (origin : DemocracyOrigin AccountId) (index : ℕ)
  /-- A block begins, at a time in seconds. -/
  | beginBlock (now time : ℕ)
  /-- Other pallets change the voting power and the calls that are known. -/
  | environment (balanceAt : AccountId → Balance) (totalSupply : Balance)
    (preimages : Proposal → Bool)

section Step

variable [DemocracyConfig]

/-- What each call does. -/
def dispatch : Op AccountId Proposal → DemocracyCall AccountId Proposal Unit
  | .propose origin proposal value => propose origin proposal value
  | .second origin proposal => second origin proposal
  | .vote origin refIndex v => vote origin refIndex v
  | .fastTrack origin propIndex delay => fastTrack origin propIndex delay
  | .tableProposal origin propIndex delay => tableProposal origin propIndex delay
  | .fastTrackReferendum origin refIndex => fastTrackReferendum origin refIndex
  | .cancelReferendum origin refIndex => cancelReferendum origin refIndex
  | .clearPublicProposals origin => clearPublicProposals origin
  | .cancelProposal origin propIndex => cancelProposal origin propIndex
  | .removeVote origin index => removeVote origin index
  | .beginBlock now time => do
    modify fun s => { s with blockNumber := now }
    beginBlock now time
  | .environment balanceAt totalSupply preimages =>
    modify fun s => { s with
      balanceAt := fun who => balanceAt who
      totalSupply := totalSupply
      preimages := preimages }

/-- Each call is a transaction; a block that panics is not produced. -/
def step (s : Democracy AccountId Proposal) (op : Op AccountId Proposal) :
    Democracy AccountId Proposal := (dispatch op).commit s

end Step

end Democracy

end Interbtc
