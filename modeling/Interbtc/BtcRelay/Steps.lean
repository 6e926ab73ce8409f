import Interbtc.BtcRelay.Overtake

/-!
# What a header changes

A header that is accepted starts a new chain or extends one. An extended fork then moves in
the queue.
-/

namespace Interbtc.BtcRelay

open Core Core.PositionMap

variable {s s' : BtcRelay} {u : Unit} {order : List ℕ} {header : BlockHeader} {height : ℕ}
  {prev : RichBlockHeader} {prevChain : BlockChain} {sha256d : List UInt8 → H256Le}

/-- A header with its place as it is stored. -/
def placed (s : BtcRelay) (header : BlockHeader) (height chainId : ℕ) : RichBlockHeader :=
  ⟨header, height, chainId, s.activeBlockNumber⟩

/-- What storing a header, apart from its chain in the queue, leaves alone. -/
structure SameRest (s s' : BtcRelay) : Prop where
  start : s'.startBlockHeight = s.startBlockHeight
  bitcoinConfirmations : s'.stableBitcoinConfirmations = s.stableBitcoinConfirmations
  parachainConfirmations : s'.stableParachainConfirmations = s.stableParachainConfirmations
  difficulty : s'.disableDifficultyCheck = s.disableDifficultyCheck
  time : s'.activeBlockNumber = s.activeBlockNumber

/-- What two calls leave alone they leave alone in sequence. -/
theorem SameRest.trans {s₁ : BtcRelay} (h : SameRest s s₁) (h' : SameRest s₁ s') : SameRest s s'
    where
  start := h'.start.trans h.start
  bitcoinConfirmations := h'.bitcoinConfirmations.trans h.bitcoinConfirmations
  parachainConfirmations := h'.parachainConfirmations.trans h.parachainConfirmations
  difficulty := h'.difficulty.trans h.difficulty
  time := h'.time.trans h.time

/-- Requeueing leaves the parameters alone. -/
theorem Requeued.rest (h : Requeued s s' order) : SameRest s s' := by
  rw [h.1]
  exact ⟨rfl, rfl, rfl, rfl, rfl⟩

/-- A new chain of one block is stored. -/
structure Creates (s : BtcRelay) (header : BlockHeader) (height : ℕ) (order : List ℕ)
    (s' : BtcRelay) : Prop where
  adds : Adds s header.hash (s.placed header height s.chainCounter)
    ⟨s.chainCounter, height, height⟩ s'
  counter : s'.chainCounter = s.chainCounter + 1
  bound : s.chainCounter + 1 ≤ maxU32
  best : s'.bestBlock = s.bestBlock ∧ s'.bestBlockHeight = s.bestBlockHeight
  rest : SameRest s s'
  queue : (order = [] ∧ s'.chains.Lists [s.chainCounter]) ∨
    ∃ main t₁ t₂, order = main :: (t₁ ++ t₂) ∧
      s'.chains.Lists (main :: (t₁ ++ s.chainCounter :: t₂)) ∧
      (∀ c ∈ t₁, height ≤ s'.heightOf c) ∧ ∀ c ∈ t₂.head?, s'.heightOf c < height

/-- A chain is extended by one block. -/
structure Extends (s : BtcRelay) (header : BlockHeader) (height : ℕ) (chain : BlockChain)
    (s' : BtcRelay) : Prop where
  adds : Adds s header.hash (s.placed header height chain.chainId)
    { chain with maxHeight := height } s'
  empty : s.chainsHashes chain.chainId height = none
  counter : s'.chainCounter = s.chainCounter
  best : s'.bestBlock = s.bestBlock ∧ s'.bestBlockHeight = s.bestBlockHeight
  rest : SameRest s s'
  queue : s'.chains = s.chains

/-- A new fork starts at its block. -/
theorem Creates.index_apply (h : Creates s header height order s') (c : ℕ) :
    s'.chainsIndex c =
      if c = s.chainCounter then some ⟨s.chainCounter, height, height⟩ else s.chainsIndex c :=
  h.adds.index_apply c

/-- An extended chain ends at its new block. -/
theorem Extends.index_apply {chain : BlockChain} (h : Extends s header height chain s') (c : ℕ) :
    s'.chainsIndex c =
      if c = chain.chainId then some { chain with maxHeight := height } else s.chainsIndex c :=
  h.adds.index_apply c

private theorem run_createAndStoreBlockchain {c : ℕ} (hl : s.chains.Lists order)
    (h : (createAndStoreBlockchain height header).run s = .ok c s') :
    Creates s header height order s' := by
  simp only [createAndStoreBlockchain, incrementChainCounter, generateBlockchain,
    Call.run_bind_eq_ok, Call.run_get_eq_ok, Call.run_ensure_eq_ok, Call.run_modify_eq_ok,
    Call.run_pure_eq_ok] at h
  obtain ⟨_, _, ⟨_, s₀, ⟨rfl, rfl⟩, _, _, ⟨hbound, rfl⟩, _, _, rfl, rfl, rfl⟩, _, _,
    ⟨_, _, rfl, rfl, rfl⟩, _, _, rfl, _, s₁, hinsert, _, _, rfl, rfl, rfl⟩ := h
  rcases run_insertSorted hinsert hl with ⟨rfl, heq, hnew⟩ |
    ⟨main, t₁, t₂, rfl, ⟨heq, hnew⟩, hhigh, hlow⟩
  · rw [heq]
    exact ⟨⟨rfl, rfl, rfl, rfl⟩, rfl, hbound, ⟨rfl, rfl⟩, ⟨rfl, rfl, rfl, rfl, rfl⟩,
      .inl ⟨rfl, hnew⟩⟩
  · rw [heq]
    exact ⟨⟨rfl, rfl, rfl, rfl⟩, rfl, hbound, ⟨rfl, rfl⟩, ⟨rfl, rfl, rfl, rfl, rfl⟩,
      .inr ⟨main, t₁, t₂, rfl, hnew, hhigh, hlow⟩⟩

private theorem run_extendBlockchain {chain chain' : BlockChain}
    (h : (extendBlockchain height header chain).run s = .ok chain' s') :
    chain' = { chain with maxHeight := height } ∧ Extends s header height chain s' := by
  simp only [extendBlockchain, Call.run_bind_eq_ok, Call.run_get_eq_ok, Call.run_ensure_eq_ok,
    Call.run_modify_eq_ok, Call.run_pure_eq_ok] at h
  obtain ⟨_, _, ⟨rfl, rfl⟩, _, _, ⟨hempty, rfl⟩, _, _, rfl, _, _, rfl, _, _, rfl, rfl, rfl⟩ := h
  refine ⟨rfl, ⟨rfl, rfl, rfl, rfl⟩, ?_, rfl, ⟨rfl, rfl⟩, ⟨rfl, rfl, rfl, rfl, rfl⟩, rfl⟩
  exact Option.not_isSome_iff_eq_none.mp (Bool.eq_false_iff.mp hempty)

/-! ## Acceptance -/

/-- The target is only read. -/
theorem expectedTarget_keeps (prev : RichBlockHeader) (height : ℕ) :
    Keeps id (expectedTarget prev height) := by
  refine .ite (.bind ?_ fun _ => .bind (.ofExcept _) fun _ => .ofOption _ _) (.pure _)
  refine .bind (.bind .get fun _ => .ofOption _ _) fun _ => .bind ?_ fun _ => .pure _
  exact .bind (.bind .get fun _ => .ofOption _ _) fun _ => .bind .get fun _ => .ofOption _ _

private theorem run_verifyBlockHeader
    (h : (verifyBlockHeader header height prev).run s = .ok u s') :
    s' = s ∧ s.blockHeaders header.hash = none ∧ header.hash.asU256 < header.target ∧
      (s.disableDifficultyCheck = false →
        (expectedTarget prev height).run s = .ok header.target s) := by
  simp only [verifyBlockHeader, Call.run_bind_eq_ok, Call.run_get_eq_ok,
    Call.run_ensure_eq_ok] at h
  obtain ⟨_, _, ⟨rfl, rfl⟩, _, _, ⟨hfresh, rfl⟩, _, _, ⟨hwork, rfl⟩, h⟩ := h
  have hnone : s.blockHeaders header.hash = none :=
    Option.not_isSome_iff_eq_none.mp (Bool.eq_false_iff.mp hfresh)
  by_cases hdisabled : s.disableDifficultyCheck = true
  · rw [if_pos hdisabled] at h
    obtain ⟨-, rfl⟩ := Call.run_pure_eq_ok.mp h
    refine ⟨rfl, hnone, hwork, fun hfalse => ?_⟩
    rw [hdisabled] at hfalse
    cases hfalse
  · rw [if_neg hdisabled] at h
    simp only [Call.run_bind_eq_ok, Call.run_ensure_eq_ok] at h
    obtain ⟨target, s₂, hread, htarget, rfl⟩ := h
    have hkeep : s₂ = s := expectedTarget_keeps _ _ _ _ _ hread
    rw [hkeep] at hread ⊢
    exact ⟨rfl, hnone, hwork, fun _ => htarget ▸ hread⟩

/-- A header may be stored on top of a block. -/
structure Accepted (s : BtcRelay) (header : BlockHeader) (prev : RichBlockHeader)
    (prevChain : BlockChain) : Prop where
  parent : s.blockHeaders header.hashPrevBlock = some prev
  chain : s.chainsIndex prev.chainId = some prevChain
  bound : prev.blockHeight + 1 ≤ maxU32
  fresh : s.blockHeaders header.hash = none
  work : header.hash.asU256 < header.target
  target : s.disableDifficultyCheck = false →
    (expectedTarget prev (prev.blockHeight + 1)).run s = .ok header.target s

/-- Where a header is stored. -/
inductive Stores (s : BtcRelay) (header : BlockHeader) (prev : RichBlockHeader)
    (prevChain : BlockChain) (order : List ℕ) (s' : BtcRelay) : Prop
  | forks (hne : prevChain.maxHeight ≠ prev.blockHeight)
      (hnew : Creates s header (prev.blockHeight + 1) order s')
  | extendsMain (hmax : prevChain.maxHeight = prev.blockHeight)
      (hmain : prevChain.chainId = mainChainId) (s₁ : BtcRelay)
      (hnew : Extends s header (prev.blockHeight + 1) prevChain s₁)
      (hbest : s' = s₁.withBest header.hash (prev.blockHeight + 1))
  | extendsFork (hmax : prevChain.maxHeight = prev.blockHeight)
      (hfork : prevChain.chainId ≠ mainChainId) (s₁ : BtcRelay)
      (hnew : Extends s header (prev.blockHeight + 1) prevChain s₁)
      (hmove : (reorganizeChains { prevChain with maxHeight := prev.blockHeight + 1 }).run s₁ =
        .ok () s')

private theorem run_storeHeader (hl : s.chains.Lists order)
    (h : (storeHeader header).run s = .ok u s') :
    ∃ prev prevChain, Accepted s header prev prevChain ∧
      Stores s header prev prevChain order s' := by
  simp only [storeHeader, getBlockHeaderFromHash, Call.run_bind_eq_ok, Call.run_get_eq_ok,
    Call.run_ensure_eq_ok, Call.run_ofOption_eq_ok, run_getBlockChainFromId] at h
  obtain ⟨prev, _, ⟨_, _, ⟨rfl, rfl⟩, hprev, rfl⟩, _, _, ⟨hbound, rfl⟩, prevChain, _,
    ⟨hchain, rfl⟩, _, s₁, hverify, h⟩ := h
  obtain ⟨rfl, hfresh, hwork, htarget⟩ := run_verifyBlockHeader hverify
  refine ⟨prev, prevChain, ⟨hprev, hchain, hbound, hfresh, hwork, htarget⟩, ?_⟩
  by_cases hmax : prevChain.maxHeight = prev.blockHeight
  · rw [if_neg (not_not_intro hmax)] at h
    simp only [Call.run_bind_eq_ok] at h
    obtain ⟨chain, s₂, hextend, h⟩ := h
    obtain ⟨rfl, hnew⟩ := run_extendBlockchain hextend
    by_cases hmain : prevChain.chainId = mainChainId
    · rw [if_neg (not_not_intro hmain), Call.run_modify_eq_ok] at h
      exact .extendsMain hmax hmain s₂ hnew h.symm
    · rw [if_pos hmain] at h
      exact .extendsFork hmax hmain s₂ hnew h
  · rw [if_pos hmax] at h
    simp only [Call.run_bind_eq_ok, Call.run_pure_eq_ok] at h
    obtain ⟨_, s₂, hcreate, -, rfl⟩ := h
    exact .forks hmax (run_createAndStoreBlockchain hl hcreate)

/-- The relay is given its first header. -/
structure Initializes (s : BtcRelay) (header : BlockHeader) (height : ℕ) (order : List ℕ)
    (s₁ : BtcRelay) : Prop where
  uninitialized : s.bestBlock = none
  start : s.disableDifficultyCheck = true ∨ height % difficultyAdjustmentInterval = 0
  creates : Creates s header height order s₁

private theorem run_initializeWith (hl : s.chains.Lists order)
    (h : (initializeWith header height).run s = .ok u s') :
    ∃ s₁, Initializes s header height order s₁ ∧
      s' = { s₁.withBest header.hash height with startBlockHeight := some height } := by
  simp only [initializeWith, Call.run_bind_eq_ok, Call.run_get_eq_ok, Call.run_ensure_eq_ok,
    Call.run_modify_eq_ok] at h
  obtain ⟨_, _, ⟨rfl, rfl⟩, _, _, ⟨hnone, rfl⟩, _, _, ⟨hstart, rfl⟩, _, s₁, hcreate, _, _, rfl,
    rfl⟩ := h
  exact ⟨s₁, ⟨Option.not_isSome_iff_eq_none.mp (Bool.eq_false_iff.mp hnone), hstart,
    run_createAndStoreBlockchain hl hcreate⟩, rfl⟩

private theorem run_validateBlockHeader {header' : BlockHeader}
    (h : (validateBlockHeader sha256d header).run s = .ok header' s') :
    s' = s ∧ ∃ hash, header' = { header with hash := hash } ∧
      header.updateHash sha256d = .ok { header with hash := hash } := by
  obtain ⟨hok, rfl⟩ := Call.run_ofExcept_eq_ok.mp h
  refine ⟨rfl, ?_⟩
  cases hcheck : (do header.ensureVersion; header.updateHash sha256d : Except _ BlockHeader) with
  | error e =>
    rw [hcheck] at hok
    cases hok
  | ok header₁ =>
    rw [hcheck] at hok
    obtain rfl := Except.ok.inj hok
    obtain ⟨_, -, hupdate⟩ := except_bind_eq_ok.mp hcheck
    obtain ⟨hash, rfl⟩ := BlockHeader.updateHash_eq_ok hupdate
    exact ⟨hash, rfl, hupdate⟩

/-! ## Operations -/

/-- What a successful operation does. -/
inductive Changes (sha256d : List UInt8 → H256Le) (s : BtcRelay) (order : List ℕ) :
    Op → BtcRelay → Prop
  | initializes (header : BlockHeader) (height : ℕ) (hash : H256Le) (s₁ : BtcRelay)
      (h : Initializes s { header with hash := hash } height order s₁)
      (hvalid : header.updateHash sha256d = .ok { header with hash := hash }) :
      Changes sha256d s order (.initializeRelay header height)
        { s₁.withBest hash height with startBlockHeight := some height }
  | stores (header : BlockHeader) (forkBound : ℕ) (hash : H256Le) (prev : RichBlockHeader)
      (prevChain : BlockChain) (s' : BtcRelay)
      (ha : Accepted s { header with hash := hash } prev prevChain)
      (h : Stores s { header with hash := hash } prev prevChain order s')
      (hvalid : header.updateHash sha256d = .ok { header with hash := hash }) :
      Changes sha256d s order (.storeBlockHeader header forkBound) s'
  | passes (n : ℕ) : Changes sha256d s order (.toBlock n) { s with activeBlockNumber := n }

/-- A call that succeeds changes what it says. -/
theorem changes_of_succeeds {op : Op} (hl : s.chains.Lists order)
    (h : (op.call sha256d).succeeds s = true) : Changes sha256d s order op (step sha256d s op) := by
  have hrun := Call.run_eq_ok_commit h
  change (op.call sha256d).run s = .ok () (step sha256d s op) at hrun
  cases op with
  | initializeRelay header height =>
    simp only [Op.call, initializeRelay, Call.run_bind_eq_ok] at hrun
    obtain ⟨header', s₁, hvalidate, hrun⟩ := hrun
    obtain ⟨rfl, hash, rfl, hvalid⟩ := run_validateBlockHeader hvalidate
    obtain ⟨s₂, hinit, heq⟩ := run_initializeWith hl hrun
    rw [heq]
    exact .initializes header height hash s₂ hinit hvalid
  | storeBlockHeader header forkBound =>
    simp only [Op.call, storeBlockHeader, Call.run_bind_eq_ok, Call.run_get_eq_ok,
      Call.run_ensure_eq_ok] at hrun
    obtain ⟨_, _, ⟨rfl, rfl⟩, _, _, ⟨-, rfl⟩, header', s₁, hvalidate, hrun⟩ := hrun
    obtain ⟨rfl, hash, rfl, hvalid⟩ := run_validateBlockHeader hvalidate
    obtain ⟨prev, prevChain, ha, hstores⟩ := run_storeHeader hl hrun
    exact .stores header forkBound hash prev prevChain _ ha hstores hvalid
  | toBlock n =>
    rw [Op.call, Call.run_modify_eq_ok] at hrun
    rw [← hrun]
    exact .passes n

/-- An operation that fails changes nothing. -/
theorem step_cases (op : Op) (hl : s.chains.Lists order) :
    step sha256d s op = s ∨
      (op.call sha256d).succeeds s = true ∧ Changes sha256d s order op (step sha256d s op) := by
  cases h : (op.call sha256d).succeeds s with
  | false =>
    rcases Call.commit_cases (op.call sha256d) s with ⟨_, hrun⟩ | ⟨-, heq⟩
    · have hsucceeds := Call.succeeds_iff.mpr ⟨_, _, hrun⟩
      rw [h] at hsucceeds
      cases hsucceeds
    · exact .inl heq
  | true => exact .inr ⟨rfl, changes_of_succeeds hl h⟩

end Interbtc.BtcRelay
