import Interbtc.Bitcoin.Pow
import Interbtc.Core.Listing
import Interbtc.Core.Run

/-!
# The Bitcoin relay

Relayers submit block headers. The relay keeps them as a main chain and forks of it, the
forks in a queue by their heights, and makes a fork the main chain once it is far enough
ahead.
-/

namespace Interbtc

open Core

/-- A header with its place among the stored ones. -/
structure RichBlockHeader where
  blockHeader : BlockHeader
  blockHeight : ℕ
  chainId : ℕ
  paraHeight : ℕ
  deriving DecidableEq

/-- What is read where nothing is stored. -/
def RichBlockHeader.default : RichBlockHeader := ⟨.default, 0, 0, 0⟩

/-- The storage of the relay, and the block number that the security pallet counts. -/
structure BtcRelay where
  blockHeaders : H256Le → Option RichBlockHeader
  chains : PositionMap ℕ
  chainsIndex : ℕ → Option BlockChain
  chainsHashes : ℕ → ℕ → Option H256Le
  bestBlock : Option H256Le
  bestBlockHeight : ℕ
  startBlockHeight : Option ℕ
  chainCounter : ℕ
  stableBitcoinConfirmations : ℕ
  stableParachainConfirmations : ℕ
  disableDifficultyCheck : Bool
  activeBlockNumber : ℕ

/-- The blocks between two retargets. -/
def difficultyAdjustmentInterval : ℕ := 2016

/-- The main chain has the first id. -/
def mainChainId : ℕ := 0

/-- A call on the relay. -/
abbrev RelayCall (α : Type) : Type := Call DispatchError BtcRelay α

namespace BtcRelay

/-- The storage before the first header. -/
def genesis (bitcoinConfirmations parachainConfirmations : ℕ) (disableDifficultyCheck : Bool) :
    BtcRelay where
  blockHeaders _ := none
  chains := .empty
  chainsIndex _ := none
  chainsHashes _ _ := none
  bestBlock := none
  bestBlockHeight := 0
  startBlockHeight := none
  chainCounter := 0
  stableBitcoinConfirmations := bitcoinConfirmations
  stableParachainConfirmations := parachainConfirmations
  disableDifficultyCheck := disableDifficultyCheck
  activeBlockNumber := 0

/-! ## Storage -/

/-- The chain at a position of the queue. -/
def getChainIdFromPosition (position : ℕ) : RelayCall ℕ := do
  let s ← get
  Call.ofOption (.btcRelay .invalidChainID) (s.chains.lookup position)

/-- The position of a chain in the queue. -/
def getChainPositionFromChainId (chainId : ℕ) : RelayCall ℕ := do
  let s ← get
  let e ← Call.ofOption (.btcRelay .forkIdNotFound) (s.chains.iter.find? fun e => e.2 = chainId)
  pure e.1

/-- A chain by its id. -/
def getBlockChainFromId (chainId : ℕ) : RelayCall BlockChain := do
  let s ← get
  Call.ofOption (.btcRelay .invalidChainID) (s.chainsIndex chainId)

/-- A block hash by chain and height. -/
def getBlockHash (chainId blockHeight : ℕ) : RelayCall H256Le := do
  let s ← get
  Call.ofOption (.btcRelay .missingBlockHeight) (s.chainsHashes chainId blockHeight)

/-- A stored header by its hash. -/
def getBlockHeaderFromHash (blockHash : H256Le) : RelayCall RichBlockHeader := do
  let s ← get
  Call.ofOption (.btcRelay .blockNotFound) (s.blockHeaders blockHash)

/-- A stored header by chain and height. -/
def getBlockHeaderFromHeight (blockchain : BlockChain) (blockHeight : ℕ) :
    RelayCall RichBlockHeader := do
  let blockHash ← getBlockHash blockchain.chainId blockHeight
  getBlockHeaderFromHash blockHash

/-- Queue a chain at a position. -/
def setChain (position : ℕ) (chainId : ℕ) (s : BtcRelay) : BtcRelay :=
  { s with chains := s.chains.put position (some chainId) }

/-- Exchange two positions of the queue. -/
def swapChain (pos₁ pos₂ : ℕ) (s : BtcRelay) : BtcRelay :=
  { s with chains := s.chains.swap pos₁ pos₂ }

/-- Store a chain. -/
def setBlockChain (chainId : ℕ) (chain : BlockChain) (s : BtcRelay) : BtcRelay :=
  { s with chainsIndex := Function.update s.chainsIndex chainId (some chain) }

/-- Store the hash of a chain at a height, or remove it. -/
def setBlockHash (chainId blockHeight : ℕ) (hash : Option H256Le) (s : BtcRelay) : BtcRelay :=
  { s with
    chainsHashes := Function.update s.chainsHashes chainId
      (Function.update (s.chainsHashes chainId) blockHeight hash) }

/-- Store a header. -/
def setBlockHeader (hash : H256Le) (header : RichBlockHeader) (s : BtcRelay) : BtcRelay :=
  { s with blockHeaders := Function.update s.blockHeaders hash (some header) }

/-- Change the chain of a stored header. -/
def setChainRef (hash : H256Le) (chainId : ℕ) (s : BtcRelay) : BtcRelay :=
  s.setBlockHeader hash { (s.blockHeaders hash).getD .default with chainId := chainId }

/-- The next id, which must not overflow. -/
def incrementChainCounter : RelayCall ℕ := do
  let s ← get
  let ret := s.chainCounter
  Call.ensure (ret + 1 ≤ maxU32) (.btcRelay .arithmeticOverflow)
  modify fun s => { s with chainCounter := ret + 1 }
  pure ret

/-- Store a header with its height, its chain and the block it came in. -/
def storeRichHeader (basicBlockHeader : BlockHeader) (blockHeight chainId : ℕ) (s : BtcRelay) :
    BtcRelay :=
  s.setBlockHeader basicBlockHeader.hash
    ⟨basicBlockHeader, blockHeight, chainId, s.activeBlockNumber⟩

/-- The best block, and its height. -/
def updateChainHead (basicBlockHeader : BlockHeader) (blockHeight : ℕ) (s : BtcRelay) :
    BtcRelay :=
  { s with bestBlock := some basicBlockHeader.hash, bestBlockHeight := blockHeight }

/-! ## The queue of chains -/

/-- The position of the first of some entries with a lower chain. -/
def lowerPosition (maxHeight : ℕ) : List (ℕ × ℕ) → (default : ℕ) → RelayCall ℕ
  | [], default => pure default
  | (currPosition, currChainId) :: chains, default => do
    let chain ← getBlockChainFromId currChainId
    if chain.maxHeight < maxHeight then pure currPosition else lowerPosition maxHeight chains default

/-- Move the last entry forward to a position, past the `count` entries from there on. -/
def bubbleForward (position : ℕ) : (count : ℕ) → BtcRelay → BtcRelay
  | 0, s => s
  | count + 1, s =>
    bubbleForward position count (s.swapChain (position + count + 1) (position + count))

/-- Insert a new fork into the queue, which is sorted by height. The main chain stays first. -/
def insertSorted (blockchain : BlockChain) : RelayCall Unit := do
  let s ← get
  let chains := s.chains.sorted
  let maxChainElement := chains.length
  let position ← lowerPosition blockchain.maxHeight (chains.drop 1) maxChainElement
  modify (setChain maxChainElement blockchain.chainId)
  modify (bubbleForward position (maxChainElement - position))

/-- Move the chain at a position back past the higher ones. -/
def bubbleBack : (fuel position : ℕ) → RelayCall Unit
  | 0, _ => pure ()
  | fuel + 1, position => do
    let s ← get
    if (s.chains.lookup (position + 1)).isSome then do
      let id₁ ← getChainIdFromPosition position
      let chain₁ ← getBlockChainFromId id₁
      let id₂ ← getChainIdFromPosition (position + 1)
      let chain₂ ← getBlockChainFromId id₂
      if chain₁.maxHeight < chain₂.maxHeight then do
        modify (swapChain position (position + 1))
        bubbleBack fuel (position + 1)
      else pure ()
    else pure ()

/-! ## Reorganisations -/

/-- A block with its parent. -/
def linkOf (s : BtcRelay) (child : RichBlockHeader) :
    Except DispatchError (RichBlockHeader × RichBlockHeader) := do
  let parent ← okOr (.btcRelay .blockNotFound) (s.blockHeaders child.blockHeader.hashPrevBlock)
  pure (child, parent)

/-- The first of the links from a block down. -/
def firstLink (s : BtcRelay) (start : H256Le) :
    Except DispatchError (RichBlockHeader × RichBlockHeader) := do
  let child ← okOr (.btcRelay .blockNotFound) (s.blockHeaders start)
  s.linkOf child

/-- Move a block to the main chain, and the block of the main chain at its height, if there is
one, to another chain. -/
def swapBlockToMainchain (block : RichBlockHeader) (chainIdForOldMainBlocks : ℕ) (s : BtcRelay) :
    BtcRelay :=
  let blockHeight := block.blockHeight
  let replacedBlockHash := s.chainsHashes mainChainId blockHeight
  let s := s.setBlockHash block.chainId blockHeight none
  let s := s.setBlockHash mainChainId blockHeight (some block.blockHeader.hash)
  let s := s.setChainRef block.blockHeader.hash mainChainId
  match replacedBlockHash with
  | some replacedBlockHash =>
    let s := s.setBlockHash chainIdForOldMainBlocks blockHeight (some replacedBlockHash)
    s.setChainRef replacedBlockHash chainIdForOldMainBlocks
  | none => s

/-- The blocks of a parent's chain that stay in it start above the parent. Those of the main chain
go to the fork. -/
def updateForkStart (fork : BlockChain) (parent : RichBlockHeader) : RelayCall Unit := do
  let newFork ← getBlockChainFromId parent.chainId
  Call.ensure (parent.blockHeight + 1 ≤ maxU32) (.btcRelay .arithmeticOverflow)
  let newFork := { newFork with startHeight := parent.blockHeight + 1 }
  let newFork :=
    if parent.chainId = mainChainId then { newFork with chainId := fork.chainId } else newFork
  modify (setBlockChain newFork.chainId newFork)

/-- Move the blocks from a link on down to the main chain, until it is reached. The next link is
read before the blocks of this one are moved. Each link is one block lower, so `fuel` bounds
them. -/
def moveToMainchain (fork : BlockChain) :
    (fuel : ℕ) → Except DispatchError (RichBlockHeader × RichBlockHeader) → RelayCall Unit
  | 0, _ => pure ()
  | fuel + 1, pair => do
    let (child, parent) ← Call.ofExcept pair
    let s ← get
    let next := s.linkOf parent
    (if parent.chainId ≠ child.chainId then updateForkStart fork parent else pure ())
    modify (swapBlockToMainchain child fork.chainId)
    if parent.chainId = mainChainId then pure () else moveToMainchain fork fuel next

/-- Swap the main chain with a fork, which may be a fork of another one. -/
def swapMainBlockchain (fork : BlockChain) : RelayCall (H256Le × ℕ) := do
  let newBestBlock ← getBlockHash fork.chainId fork.maxHeight
  modify fun s => { s with bestBlock := some newBestBlock, bestBlockHeight := fork.maxHeight }
  let s ← get
  moveToMainchain fork (fork.maxHeight + 1) (s.firstLink newBestBlock)
  let main ← getBlockChainFromId mainChainId
  modify (setBlockChain mainChainId { main with maxHeight := fork.maxHeight })
  let start ← getChainPositionFromChainId fork.chainId
  bubbleBack (maxU32 - 1 - start) start
  pure (newBestBlock, fork.maxHeight)

/-- Move a fork forward in the queue. A missing entry is filled and the position tried again, so
there are at most two tries for each position. -/
def reorganizeFrom (fork : BlockChain) : (fuel currentPosition currentHeight : ℕ) → RelayCall Unit
  | 0, _, _ => pure ()
  | fuel + 1, currentPosition, currentHeight =>
    if currentPosition = 0 then pure ()
    else do
      let prevPosition := currentPosition - 1
      let s ← get
      match s.chains.lookup prevPosition with
      | none => do
        modify (swapChain prevPosition currentPosition)
        reorganizeFrom fork fuel currentPosition currentHeight
      | some prevBlockchainId => do
        let prevBlockchain ← getBlockChainFromId prevBlockchainId
        let prevHeight := prevBlockchain.maxHeight
        if prevHeight < currentHeight then
          if prevBlockchainId = mainChainId then
            if min (prevHeight + s.stableBitcoinConfirmations) maxU32 ≤ currentHeight then do
              let _ ← swapMainBlockchain fork
              pure ()
            else pure ()
          else do
            modify (swapChain prevPosition currentPosition)
            reorganizeFrom fork fuel prevPosition prevHeight
        else pure ()

/-- Move a fork to its place in the queue after it was extended. -/
def reorganizeChains (fork : BlockChain) : RelayCall Unit := do
  let forkPosition ← getChainPositionFromChainId fork.chainId
  reorganizeFrom fork (2 * forkPosition) forkPosition fork.maxHeight

/-! ## Headers -/

/-- A new chain of one block. -/
def generateBlockchain (chainId blockHeight : ℕ) (blockHash : H256Le) : RelayCall BlockChain := do
  modify (setBlockHash chainId blockHeight (some blockHash))
  pure ⟨chainId, blockHeight, blockHeight⟩

/-- A new fork, queued at its place. -/
def createAndStoreBlockchain (blockHeight : ℕ) (basicBlockHeader : BlockHeader) : RelayCall ℕ := do
  let chainId ← incrementChainCounter
  let blockchain ← generateBlockchain chainId blockHeight basicBlockHeader.hash
  modify (setBlockChain blockchain.chainId blockchain)
  insertSorted blockchain
  modify (storeRichHeader basicBlockHeader blockHeight blockchain.chainId)
  pure blockchain.chainId

/-- One more block of a chain. -/
def extendBlockchain (blockHeight : ℕ) (basicBlockHeader : BlockHeader)
    (prevBlockchain : BlockChain) : RelayCall BlockChain := do
  let s ← get
  Call.ensure ((s.chainsHashes prevBlockchain.chainId blockHeight).isSome = false)
    (.btcRelay .duplicateBlock)
  modify (setBlockHash prevBlockchain.chainId blockHeight (some basicBlockHeader.hash))
  let blockchain := { prevBlockchain with maxHeight := blockHeight }
  modify (setBlockChain blockchain.chainId blockchain)
  modify (storeRichHeader basicBlockHeader blockHeight blockchain.chainId)
  pure blockchain

/-- The time of the last retarget, read from the chain of the previous block. -/
def getLastRetargetTime (chainId blockHeight : ℕ) : RelayCall ℕ := do
  let blockChain ← getBlockChainFromId chainId
  let periodStartHeight := blockHeight - difficultyAdjustmentInterval
  let lastRetargetHeader ← getBlockHeaderFromHeight blockChain periodStartHeight
  pure lastRetargetHeader.blockHeader.timestamp

/-- The target after a retarget, from the times of the last period. -/
def computeNewTarget (prevBlockHeader : RichBlockHeader) (blockHeight : ℕ) : RelayCall ℕ := do
  let firstBlockTime ← getLastRetargetTime prevBlockHeader.chainId blockHeight
  let bits ← Call.ofExcept ((calculateNextWorkRequired prevBlockHeader.blockHeader.target
    firstBlockTime prevBlockHeader.blockHeader.timestamp).mapError fun e => .btcRelay (.ofBitcoin e))
  Call.ofOption (.btcRelay .invalidCompact) (setCompact bits)

/-- The target that a header after a block has to have. -/
def expectedTarget (prevBlockHeader : RichBlockHeader) (blockHeight : ℕ) : RelayCall ℕ :=
  if difficultyAdjustmentInterval ≤ blockHeight ∧ blockHeight % difficultyAdjustmentInterval = 0
  then computeNewTarget prevBlockHeader blockHeight
  else pure prevBlockHeader.blockHeader.target

/-- A header has to be new, its hash below its target, and its target the one that is required. -/
def verifyBlockHeader (blockHeader : BlockHeader) (blockHeight : ℕ)
    (prevBlockHeader : RichBlockHeader) : RelayCall Unit := do
  let s ← get
  Call.ensure ((s.blockHeaders blockHeader.hash).isSome = false) (.btcRelay .duplicateBlock)
  Call.ensure (blockHeader.hash.asU256 < blockHeader.target) (.btcRelay .lowDiff)
  if s.disableDifficultyCheck = true then pure ()
  else do
    let target ← expectedTarget prevBlockHeader blockHeight
    Call.ensure (blockHeader.target = target) (.btcRelay .diffTargetHeader)

/-- The header with its hash computed from its other fields, if its version is accepted. -/
def validateBlockHeader (sha256d : List UInt8 → H256Le) (blockHeader : BlockHeader) :
    RelayCall BlockHeader :=
  Call.ofExcept ((do
    blockHeader.ensureVersion
    blockHeader.updateHash sha256d).mapError fun e => .btcRelay (.ofBitcoin e))

/-- Initialize the relay with its first header. -/
def initializeWith (basicBlockHeader : BlockHeader) (blockHeight : ℕ) : RelayCall Unit := do
  let s ← get
  Call.ensure (s.bestBlock.isSome = false) (.btcRelay .alreadyInitialized)
  Call.ensure (s.disableDifficultyCheck = true ∨ blockHeight % difficultyAdjustmentInterval = 0)
    (.btcRelay .invalidStartHeight)
  let _ ← createAndStoreBlockchain blockHeight basicBlockHeader
  modify (updateChainHead basicBlockHeader blockHeight)
  modify fun s => { s with startBlockHeight := some blockHeight }

/-- Store a header on top of a stored one. -/
def storeHeader (basicBlockHeader : BlockHeader) : RelayCall Unit := do
  let prevHeader ← getBlockHeaderFromHash basicBlockHeader.hashPrevBlock
  let prevBlockHeight := prevHeader.blockHeight
  Call.ensure (prevBlockHeight + 1 ≤ maxU32) (.btcRelay .arithmeticOverflow)
  let currentBlockHeight := prevBlockHeight + 1
  let prevBlockchain ← getBlockChainFromId prevHeader.chainId
  verifyBlockHeader basicBlockHeader currentBlockHeight prevHeader
  if prevBlockchain.maxHeight ≠ prevBlockHeight then do
    let _ ← createAndStoreBlockchain currentBlockHeight basicBlockHeader
    pure ()
  else do
    let blockchain ← extendBlockchain currentBlockHeight basicBlockHeader prevBlockchain
    if blockchain.chainId ≠ mainChainId then reorganizeChains blockchain
    else modify (updateChainHead basicBlockHeader currentBlockHeight)

/-- A header submitted by a relayer as the first one. -/
def initializeRelay (sha256d : List UInt8 → H256Le) (blockHeader : BlockHeader) (blockHeight : ℕ) :
    RelayCall Unit := do
  let blockHeader ← validateBlockHeader sha256d blockHeader
  initializeWith blockHeader blockHeight

/-- A header submitted by a relayer, with a bound for the number of forks. -/
def storeBlockHeader (sha256d : List UInt8 → H256Le) (blockHeader : BlockHeader)
    (forkBound : ℕ) : RelayCall Unit := do
  let s ← get
  Call.ensure (min (s.chainCounter + 1) maxU32 ≤ forkBound) (.btcRelay .wrongForkBound)
  let blockHeader ← validateBlockHeader sha256d blockHeader
  storeHeader blockHeader

/-! ## Inclusion -/

/-- A block has to be the confirmations below the best one. -/
def checkBitcoinConfirmations (mainChainHeight : ℕ) (reqConfs : Option ℕ) (txBlockHeight : ℕ) :
    RelayCall Unit := do
  let s ← get
  let requiredConfirmations := reqConfs.getD s.stableBitcoinConfirmations
  Call.ensure (txBlockHeight + requiredConfirmations ≤ maxU32) (.btcRelay .arithmeticOverflow)
  let requiredMainchainHeight := txBlockHeight + requiredConfirmations - 1
  Call.ensure (requiredMainchainHeight ≤ mainChainHeight) (.btcRelay .bitcoinConfirmations)

/-- The sum of the height and the confirmations wraps around. -/
def checkParachainConfirmations (paraHeight : ℕ) : RelayCall Unit := do
  let s ← get
  Call.ensure ((paraHeight + s.stableParachainConfirmations) % 2 ^ 32 ≤ s.activeBlockNumber)
    (.btcRelay .parachainConfirmations)

/-- The sum of a fork's height and the confirmations wraps around. -/
def ensureNoOngoingFork (bestBlockHeight : ℕ) : RelayCall Unit := do
  let s ← get
  match s.chains.lookup 1 with
  | some id => do
    let nextBest ← getBlockChainFromId id
    Call.ensure ((nextBest.maxHeight + s.stableBitcoinConfirmations) % 2 ^ 32 ≤ bestBlockHeight)
      (.btcRelay .ongoingFork)
  | none => pure ()

/-- A block has to be on the main chain, confirmed, and no fork close. -/
def verifyBlockHeaderInclusion (blockHash : H256Le) (confirmations : Option ℕ) :
    RelayCall BlockHeader := do
  let s ← get
  let bestBlockHeight := s.bestBlockHeight
  ensureNoOngoingFork bestBlockHeight
  let richHeader ← getBlockHeaderFromHash blockHash
  Call.ensure (richHeader.chainId = mainChainId) (.btcRelay .invalidChainID)
  checkBitcoinConfirmations bestBlockHeight confirmations richHeader.blockHeight
  checkParachainConfirmations richHeader.paraHeight
  pure richHeader.blockHeader

/-! ## Operations -/

/-- A header submitted by a relayer, or a parachain block that passes. -/
inductive Op
  | initializeRelay (blockHeader : BlockHeader) (blockHeight : ℕ)
  | storeBlockHeader (blockHeader : BlockHeader) (forkBound : ℕ)
  | toBlock (activeBlockNumber : ℕ)

/-- What each call does. -/
def Op.call (sha256d : List UInt8 → H256Le) : Op → RelayCall Unit
  | .initializeRelay blockHeader blockHeight =>
    BtcRelay.initializeRelay sha256d blockHeader blockHeight
  | .storeBlockHeader blockHeader forkBound =>
    BtcRelay.storeBlockHeader sha256d blockHeader forkBound
  | .toBlock activeBlockNumber => modify fun s => { s with activeBlockNumber := activeBlockNumber }

/-- One operation as a transaction: a failed one changes nothing. -/
def step (sha256d : List UInt8 → H256Le) (s : BtcRelay) (op : Op) : BtcRelay :=
  (op.call sha256d).commit s

end BtcRelay

end Interbtc
