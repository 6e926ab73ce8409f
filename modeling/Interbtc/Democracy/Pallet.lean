import Interbtc.Core.Run
import Interbtc.Democracy.Types

/-!
# The storage and the functions of the democracy pallet

Proposals wait in a public list, each with the accounts that deposited for it, until they are
tabled as a referendum or removed. Referenda are voted on until they end. Deposits and votes
are of the voting power in escrow, of which a part can be reserved.
-/

namespace Interbtc

open Core

/-- Errors of the pallet. -/
inductive DemocracyError
  | badOrigin
  | valueLow
  | proposalMissing
  | preimageMissing
  | referendumInvalid
  | referendumFastTrackFailed
  | noneWaiting
  | notProposer
  | notVoter
  | insufficientFunds
  | maxVotesReached
  | tooMany
  | underflow
  | overflow
  /-- An index that does not fit 32 bits. -/
  | panic
  deriving DecidableEq

/-- The constants of the runtime. -/
class DemocracyConfig where
  enactmentPeriod : ℕ
  votingPeriod : ℕ
  fastTrackVotingPeriod : ℕ
  minimumDeposit : ℕ
  maxVotes : ℕ
  maxProposals : ℕ
  maxDeposits : ℕ
  maxDeposits_pos : 0 < maxDeposits
  launchPeriod : ℕ
  launchPeriod_pos : 0 < launchPeriod

/-- The storage of the pallet, and what it reads of other pallets. -/
structure Democracy (AccountId Proposal : Type) where
  /-- The number of (public) proposals that have been made so far. -/
  publicPropCount : ℕ
  /-- The public proposals. Unsorted. -/
  publicProps : List (ℕ × Proposal × AccountId)
  /-- Those who have locked a deposit. -/
  depositOf : ℕ → Option (List AccountId × ℕ)
  /-- The next free referendum index. -/
  referendumCount : ℕ
  lowestUnbaked : ℕ
  referendumInfoOf : ℕ → Option (Democracy.ReferendumInfo Proposal)
  /-- All votes for a particular voter. -/
  votingOf : AccountId → Democracy.Voting
  nextLaunchTimestamp : ℕ
  /-- The voting power of an account at this moment. -/
  balanceAt : AccountId → ℕ
  /-- What an account reserved of its voting power. -/
  reserved : AccountId → ℕ
  totalSupply : ℕ
  /-- The proposals whose call is known. -/
  preimages : Proposal → Bool
  blockNumber : ℕ

/-- A call of the pallet. -/
abbrev DemocracyCall (AccountId Proposal α : Type) : Type :=
  Call DemocracyError (Democracy AccountId Proposal) α

namespace Democracy

variable {AccountId Proposal : Type} [DecidableEq AccountId]

/-- The storage before the first block. -/
def genesis (nextLaunchTimestamp : ℕ) : Democracy AccountId Proposal where
  publicPropCount := 0
  publicProps := []
  depositOf _ := none
  referendumCount := 0
  lowestUnbaked := 0
  referendumInfoOf _ := none
  votingOf _ := .empty
  nextLaunchTimestamp := nextLaunchTimestamp
  balanceAt _ := 0
  reserved _ := 0
  totalSupply := 0
  preimages _ := false
  blockNumber := 0

/-! ## The currency -/

/-- What is not reserved. -/
def freeBalance (s : Democracy AccountId Proposal) (who : AccountId) : ℕ :=
  s.balanceAt who - s.reserved who

/-- Reserve what is free. -/
def reserve (who : AccountId) (value : ℕ) : DemocracyCall AccountId Proposal Unit := do
  let s ← get
  Call.ensure (value ≤ s.freeBalance who) .insufficientFunds
  modify fun s => { s with
    reserved := Function.update s.reserved who (min (s.reserved who + value) maxU128) }

/-- Give back what is reserved, as much as there is. -/
def unreserve (who : AccountId) (value : ℕ) : DemocracyCall AccountId Proposal Unit :=
  modify fun s => { s with
    reserved := Function.update s.reserved who (s.reserved who - value) }

/-! ## Saturating arithmetic -/

/-- The sum, cut at a bound. -/
def saturatingAdd (bound a b : ℕ) : ℕ := min (a + b) bound

/-- The product, cut at a bound. -/
def saturatingMul (bound a b : ℕ) : ℕ := min (a * b) bound

/-! ## Lists -/

/-- Remove an element, and put the last one in its place. -/
def swapRemove {α : Type} (xs : List α) (i : ℕ) : List α :=
  match xs.getLast? with
  | some last => (xs.set i last).dropLast
  | none => []

/-- The last of the elements with the largest key. -/
def maxByKey {α : Type} (key : α → ℕ) : List α → Option α
  | [] => none
  | x :: xs => some (xs.foldl (fun best y => if key best ≤ key y then y else best) x)

/-! ## Referenda -/

section Config

variable [DemocracyConfig]

open DemocracyConfig

/-- Start a referendum. -/
def injectReferendum (endBlock : ℕ) (proposal : Proposal) (threshold : VoteThreshold)
    (delay : ℕ) : DemocracyCall AccountId Proposal Unit := do
  let s ← get
  let refIndex := s.referendumCount
  Call.ensure (refIndex + 1 ≤ maxU32) .panic
  let status : ReferendumStatus Proposal :=
    { endBlock := endBlock
      proposal := proposal
      threshold := threshold
      delay := delay
      tally := ⟨0, 0, 0⟩ }
  modify fun s => { s with
    referendumCount := refIndex + 1
    referendumInfoOf := Function.update s.referendumInfoOf refIndex (some (.ongoing status)) }

/-- Forget a referendum. -/
def internalCancelReferendum (refIndex : ℕ) : DemocracyCall AccountId Proposal Unit :=
  modify fun s => { s with
    referendumInfoOf := Function.update s.referendumInfoOf refIndex none }

/-- The status of an active referendum. -/
def referendumStatus (s : Democracy AccountId Proposal) (refIndex : ℕ) :
    Except DemocracyError (ReferendumStatus Proposal) :=
  match s.referendumInfoOf refIndex with
  | some (.ongoing status) => .ok status
  | _ => .error .referendumInvalid

/-! ## Proposals -/

/-- The amount locked in support of a proposal. -/
def backingFor (s : Democracy AccountId Proposal) (proposal : ℕ) : Option ℕ :=
  (s.depositOf proposal).map fun deposit =>
    saturatingMul maxU128 deposit.2 deposit.1.length

/-- Give the depositors of a proposal their deposits back. -/
def refundDepositors (propIndex : ℕ) : DemocracyCall AccountId Proposal Bool := do
  let s ← get
  match s.depositOf propIndex with
  | some (depositors, deposit) => do
    modify fun s => { s with depositOf := Function.update s.depositOf propIndex none }
    depositors.forM fun who => unreserve who deposit
    pure true
  | none => pure false

/-- Make a public proposal a referendum at once. -/
def fastTrackWithVotingPeriod (propIndex delay votingPeriod : ℕ) :
    DemocracyCall AccountId Proposal Unit := do
  let s ← get
  let winner ← Call.ofOption .proposalMissing
    (s.publicProps.zipIdx.find? fun entry => entry.1.1 = propIndex)
  modify fun s => { s with publicProps := swapRemove s.publicProps winner.2 }
  let _ ← refundDepositors propIndex
  injectReferendum (saturatingAdd maxU32 s.blockNumber votingPeriod) winner.1.2.1
    .superMajorityApprove delay

/-- Table the waiting public proposal with the highest backing for a vote. -/
def launchPublic (now : ℕ) : DemocracyCall AccountId Proposal Unit := do
  let s ← get
  let winner ← Call.ofOption .noneWaiting
    (maxByKey (fun entry => (s.backingFor entry.1.1).getD 0) s.publicProps.zipIdx)
  modify fun s => { s with publicProps := swapRemove s.publicProps winner.2 }
  let tabled ← refundDepositors winner.1.1
  if tabled then
    injectReferendum (saturatingAdd maxU32 now votingPeriod) winner.1.2.1 .superMajorityApprove
      enactmentPeriod
  else pure ()

/-! ## Votes -/

/-- The tally with a vote, and without the one that it replaces. -/
def revoted (tally : Tally) (votes : Voting) (refIndex : ℕ) (vote : Vote) :
    Except DemocracyError Tally :=
  match votes.lookup refIndex with
  | some old => do
    let rest ← okOr .underflow (tally.remove old)
    okOr .overflow (rest.add vote)
  | none =>
    if votes.size < maxVotes then okOr .overflow (tally.add vote) else .error .maxVotesReached

/-- Actually enact a vote, if legit. -/
def tryVote (who : AccountId) (refIndex : ℕ) (vote : Vote) :
    DemocracyCall AccountId Proposal Unit := do
  let s ← get
  let status ← Call.ofExcept (s.referendumStatus refIndex)
  Call.ensure (vote.balance ≤ s.freeBalance who) .insufficientFunds
  let tally ← Call.ofExcept (revoted status.tally (s.votingOf who) refIndex vote)
  modify fun s => { s with
    votingOf := Function.update s.votingOf who ((s.votingOf who).insert refIndex vote)
    referendumInfoOf := Function.update s.referendumInfoOf refIndex
      (some (.ongoing { status with tally := tally })) }

/-- Only the tally of an ongoing referendum changes, not of one that is finished or cancelled. -/
def uncount (refIndex : ℕ) (old : Vote) : DemocracyCall AccountId Proposal Unit := do
  let s ← get
  match s.referendumInfoOf refIndex with
  | some (.ongoing status) => do
    let tally ← Call.ofOption .underflow (status.tally.remove old)
    modify fun s => { s with
      referendumInfoOf := Function.update s.referendumInfoOf refIndex
        (some (.ongoing { status with tally := tally })) }
  | _ => pure ()

/-- Remove the account's vote for the given referendum. -/
def tryRemoveVote (who : AccountId) (refIndex : ℕ) : DemocracyCall AccountId Proposal Unit := do
  let s ← get
  let old ← Call.ofOption .notVoter ((s.votingOf who).lookup refIndex)
  uncount refIndex old
  modify fun s => { s with
    votingOf := Function.update s.votingOf who ((s.votingOf who).erase refIndex) }

/-! ## Blocks -/

/-- Whether a new referendum is to be launched. -/
def shouldLaunch (now : ℕ) : DemocracyCall AccountId Proposal Bool := do
  let s ← get
  if now < s.nextLaunchTimestamp then pure false
  else do
    let periods := saturatingAdd maxU64 ((now - s.nextLaunchTimestamp) / launchPeriod) 1
    modify fun s => { s with
      nextLaunchTimestamp :=
        saturatingAdd maxU64 s.nextLaunchTimestamp (saturatingMul maxU64 periods launchPeriod) }
    pure true

/-- The referenda in a range that end in a block. -/
def maturingReferendaAt (s : Democracy AccountId Proposal) (n : ℕ) (range : List ℕ) :
    List (ℕ × ReferendumStatus Proposal) :=
  range.filterMap fun i =>
    match s.referendumInfoOf i with
    | some (.ongoing status) => if status.endBlock = n then some (i, status) else none
    | _ => none

/-- A referendum that ends is approved or not. -/
def bakeReferendum (now : ℕ) (entry : ℕ × ReferendumStatus Proposal) :
    DemocracyCall AccountId Proposal Unit :=
  modify fun s => { s with
    referendumInfoOf := Function.update s.referendumInfoOf entry.1
      (some (.finished (entry.2.threshold.approved entry.2.tally s.totalSupply) now)) }

/-- Errors of a launch come from the queue being empty; then nothing was written. -/
def launchNext (now : ℕ) : DemocracyCall AccountId Proposal Bool := do
  let s ← get
  if s.publicProps.isEmpty then pure false
  else do
    launchPublic now
    pure true

/-- When it is time, pick out another public referendum, and then one more. -/
def launchDue (now time : ℕ) : DemocracyCall AccountId Proposal Unit := do
  if ← shouldLaunch time then
    if ← launchNext now then
      let _ ← launchNext now

/-- Tally up votes for any expiring referenda. -/
def bakeMaturing (now : ℕ) (range : List ℕ) : DemocracyCall AccountId Proposal Unit := do
  let s ← get
  (s.maturingReferendaAt now range).forM (bakeReferendum now)

/-- The range of referenda is read before a new one is launched. -/
def beginBlock (now time : ℕ) : DemocracyCall AccountId Proposal Unit := do
  let s ← get
  launchDue now time
  bakeMaturing now (List.range' s.lowestUnbaked (s.referendumCount - s.lowestUnbaked))

end Config

end Democracy

end Interbtc
