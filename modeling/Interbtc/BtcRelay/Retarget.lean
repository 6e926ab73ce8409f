import Interbtc.BtcRelay.Targets

/-!
# The target a branch requires

At a retarget, the time at the start of the period is that of an ancestor. The relay looks
for it in the chain of the previous block only, so it misses it where that chain branched off
within the period.
-/

namespace Interbtc.BtcRelay

open Core Core.PositionMap

variable {s s' : BtcRelay} {header : BlockHeader} {prev : RichBlockHeader} {chain : BlockChain}
  {x : H256Le} {c height first : ℕ} {sha256d : List UInt8 → H256Le}

/-- The difficulty changes at a height. -/
def RetargetsAt (height : ℕ) : Prop :=
  difficultyAdjustmentInterval ≤ height ∧ height % difficultyAdjustmentInterval = 0

instance (height : ℕ) : Decidable (RetargetsAt height) := inferInstanceAs (Decidable (_ ∧ _))

/-- The target that follows from the ancestors of a header on top of a block: that of the block, or
at a retarget the one adjusted by the time from the block's ancestor at the start of the period. -/
def requiredTarget (s : BtcRelay) (x : H256Le) (prev : RichBlockHeader) : Option ℕ :=
  if RetargetsAt (prev.blockHeight + 1) then
    (s.ancestor (difficultyAdjustmentInterval - 1) x).bind fun y =>
      (s.blockHeaders y).map fun first => adjustedTarget prev.blockHeader.target
        first.blockHeader.timestamp prev.blockHeader.timestamp
  else some prev.blockHeader.target

private theorem run_getLastRetargetTime :
    (getLastRetargetTime c height).run s = .ok first s ↔
      ∃ chain, s.chainsIndex c = some chain ∧ ∃ y b,
        s.chainsHashes chain.chainId (height - difficultyAdjustmentInterval) = some y ∧
          s.blockHeaders y = some b ∧ b.blockHeader.timestamp = first := by
  simp only [getLastRetargetTime, getBlockHeaderFromHeight, getBlockHeaderFromHash,
    Call.run_bind_eq_ok, run_getBlockChainFromId, run_getBlockHash, Call.run_get_eq_ok,
    Call.run_ofOption_eq_ok, Call.run_pure_eq_ok]
  constructor
  · rintro ⟨chain, _, ⟨hchain, rfl⟩, b, _, ⟨y, _, ⟨hy, rfl⟩, _, _, ⟨rfl, rfl⟩, hb, rfl⟩, htime, -⟩
    exact ⟨chain, hchain, y, b, hy, hb, htime⟩
  · rintro ⟨chain, hchain, y, b, hy, hb, htime⟩
    exact ⟨chain, s, ⟨hchain, rfl⟩, b, s, ⟨y, s, ⟨hy, rfl⟩, s, s, ⟨rfl, rfl⟩, hb, rfl⟩, htime, rfl⟩

private theorem run_computeNewTarget_of_fits
    (hfirst : (getLastRetargetTime prev.chainId height).run s = .ok first s)
    (hfits : prev.blockHeader.target *
      (countedTimespan first prev.blockHeader.timestamp).toNat < 2 ^ 256) :
    (computeNewTarget prev height).run s =
      .ok (adjustedTarget prev.blockHeader.target first prev.blockHeader.timestamp) s := by
  obtain ⟨bits, hbits, hset⟩ := calculateNextWorkRequired_of_fits hfits
  simp only [computeNewTarget, Call.run_bind_eq_ok, Call.run_ofExcept_eq_ok,
    Call.run_ofOption_eq_ok]
  refine ⟨first, s, hfirst, bits, s, ⟨?_, rfl⟩, hset, rfl⟩
  rw [hbits]
  rfl

/-- The start of the period, in the chain of the previous block. -/
theorem Linked.period_start (hs : Linked s) (hx : s.blockHeaders x = some prev)
    (hchain : s.chainsIndex prev.chainId = some chain)
    (hstart : chain.startHeight + difficultyAdjustmentInterval ≤ prev.blockHeight + 1) :
    ∃ y b, s.ancestor (difficultyAdjustmentInterval - 1) x = some y ∧
      s.chainsHashes prev.chainId (prev.blockHeight + 1 - difficultyAdjustmentInterval) = some y ∧
      s.blockHeaders y = some b := by
  have hentry := (hs.named _ _ x).mpr ⟨prev, hx, rfl, rfl⟩
  have hheight : prev.blockHeight - (difficultyAdjustmentInterval - 1) =
      prev.blockHeight + 1 - difficultyAdjustmentInterval := by
    unfold difficultyAdjustmentInterval at hstart ⊢
    omega
  have hancestor := hs.ancestor_eq hchain hentry (n := difficultyAdjustmentInterval - 1) (by
    unfold difficultyAdjustmentInterval at hstart ⊢
    omega)
  rw [hheight] at hancestor
  obtain ⟨y, hy⟩ := Option.isSome_iff_exists.mp ((hs.entries prev.chainId
    (prev.blockHeight + 1 - difficultyAdjustmentInterval)).mpr ⟨chain, hchain, by omega, by
      obtain ⟨own, hown, -, hmax⟩ := hs.chain_of hx
      obtain rfl := Option.some.inj (hown.symm.trans hchain)
      unfold difficultyAdjustmentInterval
      omega⟩)
  obtain ⟨b, hb, -⟩ := (hs.named _ _ _).mp hy
  exact ⟨y, b, hancestor.trans hy, hy, hb⟩

private theorem Linked.expectedTarget_iff (hs : Linked s) (hx : s.blockHeaders x = some prev)
    (hchain : s.chainsIndex prev.chainId = some chain) :
    (∃ target, s.requiredTarget x prev = some target ∧
        (expectedTarget prev (prev.blockHeight + 1)).run s = .ok target s) ↔
      (RetargetsAt (prev.blockHeight + 1) →
        chain.startHeight + difficultyAdjustmentInterval ≤ prev.blockHeight + 1 ∧
          ∀ y b, s.ancestor (difficultyAdjustmentInterval - 1) x = some y →
            s.blockHeaders y = some b → prev.blockHeader.target *
              (countedTimespan b.blockHeader.timestamp prev.blockHeader.timestamp).toNat <
                2 ^ 256) := by
  by_cases hretarget : RetargetsAt (prev.blockHeight + 1)
  · have hexpected : expectedTarget prev (prev.blockHeight + 1) =
        computeNewTarget prev (prev.blockHeight + 1) := if_pos hretarget
    rw [requiredTarget, if_pos hretarget, hexpected]
    obtain ⟨hid, -⟩ := hs.index _ _ hchain
    constructor
    · rintro ⟨target, -, hrun⟩ -
      obtain ⟨first, hfirst, hfits, -⟩ := run_computeNewTarget hrun
      obtain ⟨own, hown, y, b, hy, hb, rfl⟩ := run_getLastRetargetTime.mp hfirst
      obtain rfl := Option.some.inj (hown.symm.trans hchain)
      obtain ⟨_, hentry, hlow, -⟩ := (hs.entries _ _).mp (Option.isSome_iff_exists.mpr ⟨y, hy⟩)
      rw [hid, hchain] at hentry
      obtain rfl := Option.some.inj hentry
      have hstart : own.startHeight + difficultyAdjustmentInterval ≤ prev.blockHeight + 1 := by
        have hle := hretarget.1
        omega
      refine ⟨hstart, fun y' b' hy' hb' => ?_⟩
      obtain ⟨y'', b'', hancestor, hentry, -⟩ := hs.period_start hx hchain hstart
      obtain rfl := Option.some.inj (hy'.symm.trans hancestor)
      rw [hid] at hy
      obtain rfl := Option.some.inj (hy.symm.trans hentry)
      obtain rfl := Option.some.inj (hb'.symm.trans hb)
      exact hfits
    · intro hcond
      obtain ⟨hstart, hfits⟩ := hcond hretarget
      obtain ⟨y, b, hancestor, hentry, hb⟩ := hs.period_start hx hchain hstart
      refine ⟨_, ?_, run_computeNewTarget_of_fits (run_getLastRetargetTime.mpr
        ⟨chain, hchain, y, b, hid ▸ hentry, hb, rfl⟩) (hfits y b hancestor hb)⟩
      rw [hancestor, Option.bind_some, hb, Option.map_some]
  · have hexpected : expectedTarget prev (prev.blockHeight + 1) =
        pure prev.blockHeader.target := if_neg hretarget
    rw [requiredTarget, if_neg hretarget, hexpected]
    exact ⟨fun _ h => absurd h hretarget, fun _ => ⟨_, rfl, rfl⟩⟩

/-- In every state with a check of the difficulty, the target that the relay expects on top of a
stored block is the one that follows from its ancestors if and only if the height is none of a
retarget, or the chain of the block holds the start of the period and the product with the
timespan fits in 256 bits. -/
theorem expectedTarget_eq_required (sha256d : List UInt8 → H256Le) (k p : ℕ) (ops : List Op) :
    let s := run (BtcRelay.step sha256d) (BtcRelay.genesis k p false) ops
    ∀ x prev chain, s.blockHeaders x = some prev → s.chainsIndex prev.chainId = some chain →
      ((∃ target, s.requiredTarget x prev = some target ∧
          (expectedTarget prev (prev.blockHeight + 1)).run s = .ok target s) ↔
        (RetargetsAt (prev.blockHeight + 1) →
          chain.startHeight + difficultyAdjustmentInterval ≤ prev.blockHeight + 1 ∧
            ∀ y b, s.ancestor (difficultyAdjustmentInterval - 1) x = some y →
              s.blockHeaders y = some b → prev.blockHeader.target *
                (countedTimespan b.blockHeader.timestamp prev.blockHeader.timestamp).toNat <
                  2 ^ 256)) := by
  intro s x prev chain hx hchain
  have hs : Sound s := (Sound.genesis k p false).run ops
  exact hs.toLinked.expectedTarget_iff hx hchain

/-- A header with its nonce as its hash. -/
def nonceBlock (nonce prev : ℕ) : BlockHeader :=
  { nonceHeader nonce prev with hash := .fromInteger nonce }

/-! ## A branch within a period -/

private theorem updateHash_nonceHeader {nonce prev : ℕ} (hnonce : nonce < 2 ^ 32) :
    (nonceHeader nonce prev).updateHash nonceHash = .ok (nonceBlock nonce prev) := by
  obtain ⟨bits, hbits⟩ : ∃ bits, getCompact (2 ^ 220) = some bits :=
    Option.isSome_iff_exists.mp (by decide +kernel)
  have hbytes : ∀ pre : List UInt8, pre.length = 76 →
      nonceHash (pre ++ toLeBytes 4 nonce) = .fromInteger nonce := by
    intro pre hpre
    rw [nonceHash, ← hpre, List.drop_left, foldr_toLeBytes, Nat.mod_eq_of_lt (by omega)]
  refine except_bind_eq_ok.mpr ⟨_, except_bind_eq_ok.mpr ⟨bits, okOr_eq_ok.mpr hbits, rfl⟩, ?_⟩
  rw [except_pure_eq_ok, nonceBlock]
  congr 1
  exact hbytes _ (by simp)

/-- The main chain grew by headers of ascending nonces. -/
structure Straight (n : ℕ) (s : BtcRelay) : Prop extends Sound s where
  tip : ∃ time, s.blockHeaders (.fromInteger (n + 1)) = some ⟨nonceBlock (n + 1) n, n, 0, time⟩
  below : 0 < n → ∃ time, s.blockHeaders (.fromInteger n) =
    some ⟨nonceBlock n (n - 1), n - 1, 0, time⟩
  chain : s.chainsIndex mainChainId = some ⟨0, 0, n⟩
  fresh : ∀ m, n + 1 < m → m < 2 ^ 32 → s.blockHeaders (.fromInteger m) = none
  counter : s.chainCounter = 1
  difficulty : s.disableDifficultyCheck = false

private theorem run_verifyBlockHeader_of (hfresh : s.blockHeaders header.hash = none)
    (hwork : header.hash.asU256 < header.target)
    (htarget : (expectedTarget prev height).run s = .ok header.target s) :
    (verifyBlockHeader header height prev).run s = .ok () s := by
  simp only [verifyBlockHeader, Call.run_bind_eq_ok, Call.run_get_eq_ok, Call.run_ensure_eq_ok]
  refine ⟨s, s, ⟨rfl, rfl⟩, (), s, ⟨by rw [hfresh]; rfl, rfl⟩, (), s, ⟨hwork, rfl⟩, ?_⟩
  split
  · rfl
  · simp only [Call.run_bind_eq_ok, Call.run_ensure_eq_ok]
    exact ⟨_, s, htarget, rfl, rfl⟩

/-- A header is accepted on top of a block whose height is none of a retarget. -/
theorem succeeds_storeBlockHeader {nonce p forkBound : ℕ} (hnonce : nonce < 2 ^ 32)
    (hbound : min (s.chainCounter + 1) maxU32 ≤ forkBound)
    (hstore : (storeHeader (nonceBlock nonce p)).succeeds s = true) :
    ((Op.storeBlockHeader (nonceHeader nonce p) forkBound).call nonceHash).succeeds s = true := by
  obtain ⟨_, s', hrun⟩ := Call.succeeds_iff.mp hstore
  refine Call.succeeds_iff.mpr ⟨(), s', ?_⟩
  simp only [Op.call, storeBlockHeader, validateBlockHeader, Call.run_bind_eq_ok,
    Call.run_get_eq_ok, Call.run_ensure_eq_ok, Call.run_ofExcept_eq_ok]
  refine ⟨s, s, ⟨rfl, rfl⟩, (), s, ⟨hbound, rfl⟩, nonceBlock nonce p, s, ⟨?_, rfl⟩, hrun⟩
  have hvalid : (do (nonceHeader nonce p).ensureVersion
                    (nonceHeader nonce p).updateHash nonceHash : Except BitcoinError BlockHeader) =
      .ok (nonceBlock nonce p) := updateHash_nonceHeader hnonce
  rw [hvalid]
  rfl

/-- On top of a block, a header with its target and enough work is verified between retargets. -/
theorem run_verifyBlockHeader_nonce {nonce time n : ℕ} {q : BlockHeader}
    (hfresh : s.blockHeaders (.fromInteger nonce) = none) (hnonce : nonce < 2 ^ 32)
    (hn : n + 1 < difficultyAdjustmentInterval) (hq : q.target = 2 ^ 220) {p : ℕ} :
    (verifyBlockHeader (nonceBlock nonce p) (n + 1) ⟨q, n, c, time⟩).run s = .ok () s := by
  refine run_verifyBlockHeader_of hfresh ?_ ?_
  · change (H256Le.fromInteger nonce).asU256 < 2 ^ 220
    rw [H256Le.asU256_fromInteger, Nat.mod_eq_of_lt (by omega)]
    exact hnonce.trans (by decide)
  · rw [expectedTarget, if_neg (by omega)]
    exact Call.run_pure_eq_ok.mpr ⟨hq, rfl⟩

private theorem succeeds_storeHeader (hprev : s.blockHeaders header.hashPrevBlock = some prev)
    (hbound : prev.blockHeight + 1 ≤ maxU32)
    (hchain : s.chainsIndex prev.chainId = some chain)
    (hverify : (verifyBlockHeader header (prev.blockHeight + 1) prev).run s = .ok () s)
    (hforks : chain.maxHeight ≠ prev.blockHeight →
      (createAndStoreBlockchain (prev.blockHeight + 1) header).succeeds s = true)
    (hextends : chain.maxHeight = prev.blockHeight → chain.chainId = mainChainId ∧
      s.chainsHashes chain.chainId (prev.blockHeight + 1) = none) :
    (storeHeader header).succeeds s = true := by
  have hread : (getBlockHeaderFromHash header.hashPrevBlock).run s = .ok prev s := by
    simp only [getBlockHeaderFromHash, Call.run_bind_eq_ok, Call.run_get_eq_ok,
      Call.run_ofOption_eq_ok]
    exact ⟨s, s, ⟨rfl, rfl⟩, hprev, rfl⟩
  have hensure : (Call.ensure (prev.blockHeight + 1 ≤ maxU32) (.btcRelay .arithmeticOverflow) :
      RelayCall Unit).run s = .ok () s := Call.run_ensure_eq_ok.mpr ⟨hbound, rfl⟩
  unfold storeHeader
  refine Call.succeeds_bind_of_ok hread (Call.succeeds_bind_of_ok hensure
    (Call.succeeds_bind_of_ok (run_getBlockChainFromId.mpr ⟨hchain, rfl⟩)
      (Call.succeeds_bind_of_ok hverify ?_)))
  by_cases hmax : chain.maxHeight = prev.blockHeight
  · obtain ⟨hmain, hempty⟩ := hextends hmax
    rw [if_neg (not_not_intro hmax)]
    obtain ⟨s', hextend⟩ : ∃ s', (extendBlockchain (prev.blockHeight + 1) header chain).run s =
        .ok { chain with maxHeight := prev.blockHeight + 1 } s' := by
      simp only [extendBlockchain, Call.run_bind_eq_ok, Call.run_get_eq_ok,
        Call.run_ensure_eq_ok, Call.run_modify_eq_ok, Call.run_pure_eq_ok]
      exact ⟨_, s, s, ⟨rfl, rfl⟩, (), s, ⟨by rw [hempty]; rfl, rfl⟩, (), _, rfl, (), _, rfl, (), _,
        rfl, trivial, rfl⟩
    refine Call.succeeds_bind_of_ok hextend ?_
    rw [if_neg (not_not_intro hmain)]
    rfl
  · rw [if_pos hmax]
    obtain ⟨c, s', hrun⟩ := Call.succeeds_iff.mp (hforks hmax)
    exact Call.succeeds_bind_of_ok hrun rfl

/-- A second chain can be created. -/
theorem succeeds_createAndStoreBlockchain (hl : s.chains.Lists [c])
    (hbound : s.chainCounter + 1 ≤ maxU32) :
    (createAndStoreBlockchain height header).succeeds s = true := by
  have hsorted : s.chains.sorted = [(0, c)] := hl.sorted
  have hinsert : ∀ chain (t : BtcRelay), t.chains = s.chains →
      ∃ t', (insertSorted chain).run t = .ok () t' := by
    intro chain t ht
    simp only [insertSorted, Call.run_bind_eq_ok, Call.run_get_eq_ok, Call.run_modify_eq_ok]
    refine ⟨_, t, t, ⟨rfl, rfl⟩, 1, t, ?_, (), _, rfl, rfl⟩
    rw [ht, hsorted]
    rfl
  obtain ⟨t', hrun⟩ := hinsert ⟨s.chainCounter, height, height⟩
    ((setBlockChain s.chainCounter ⟨s.chainCounter, height, height⟩
      (setBlockHash s.chainCounter height (some header.hash)
        { s with chainCounter := s.chainCounter + 1 }))) rfl
  refine Call.succeeds_iff.mpr ⟨s.chainCounter, ?_⟩
  simp only [createAndStoreBlockchain, incrementChainCounter, generateBlockchain,
    Call.run_bind_eq_ok, Call.run_get_eq_ok, Call.run_ensure_eq_ok, Call.run_modify_eq_ok,
    Call.run_pure_eq_ok]
  exact ⟨_, _, _, ⟨s, s, ⟨rfl, rfl⟩, (), s, ⟨hbound, rfl⟩, (), _, rfl, rfl, rfl⟩, _, _,
    ⟨(), _, rfl, rfl, rfl⟩, (), _, rfl, (), t', hrun, (), _, rfl, rfl, rfl⟩

/-! The main chain before the first retarget. -/

private theorem Straight.lists {n : ℕ} (hs : Straight n s) : s.chains.Lists [mainChainId] := by
  obtain ⟨order, ha⟩ := hs.arranged
  obtain ⟨tail, rfl⟩ := ha.cons (by rw [hs.counter]; exact Nat.zero_lt_one)
  cases tail with
  | nil => exact ha.lists
  | cons d tail =>
    have hlt := (ha.ids d).mp (List.mem_cons_of_mem _ List.mem_cons_self)
    rw [hs.counter, Nat.lt_one_iff] at hlt
    subst hlt
    exact absurd List.mem_cons_self (List.nodup_cons.mp ha.nodup).1

private theorem Straight.step {n : ℕ} (hs : Straight n s)
    (hn : n + 1 < difficultyAdjustmentInterval) :
    Straight (n + 1) (BtcRelay.step nonceHash s
      (.storeBlockHeader (nonceHeader (n + 2) (n + 1)) 100)) := by
  have hnonce : n + 2 < 2 ^ 32 := by
    unfold difficultyAdjustmentInterval at hn
    omega
  obtain ⟨time, htip⟩ := hs.tip
  have hempty : s.chainsHashes mainChainId (n + 1) = none := by
    rw [← Option.not_isSome_iff_eq_none, hs.entries, hs.chain, exists_some_eq]
    exact fun h => absurd h.2 (Nat.not_succ_le_self n)
  have hbound : n + 1 ≤ maxU32 := by
    unfold maxU32
    omega
  have hstore : (storeHeader (nonceBlock (n + 2) (n + 1))).succeeds s = true :=
    succeeds_storeHeader htip hbound hs.chain
      (run_verifyBlockHeader_nonce (hs.fresh _ (Nat.lt_succ_self _) hnonce) hnonce hn rfl)
      (fun hne => absurd rfl hne) fun _ => ⟨rfl, hempty⟩
  have hsucceeds : ((Op.storeBlockHeader (nonceHeader (n + 2) (n + 1)) 100).call
      nonceHash).succeeds s = true :=
    succeeds_storeBlockHeader hnonce (by rw [hs.counter]; decide) hstore
  have hchanges := changes_of_succeeds hs.lists hsucceeds
  have hsound : Sound (BtcRelay.step nonceHash s
    (.storeBlockHeader (nonceHeader (n + 2) (n + 1)) 100)) := hs.toSound.step _
  generalize BtcRelay.step nonceHash s
    (.storeBlockHeader (nonceHeader (n + 2) (n + 1)) 100) = s' at hchanges hsound ⊢
  cases hchanges with
  | stores _ _ hash prev prevChain _ ha h hvalid =>
    obtain rfl : H256Le.fromInteger (n + 2) = hash :=
      congrArg BlockHeader.hash (Except.ok.inj ((updateHash_nonceHeader hnonce).symm.trans hvalid))
    obtain rfl := Option.some.inj (htip.symm.trans ha.parent)
    obtain rfl := Option.some.inj (hs.chain.symm.trans ha.chain)
    cases h with
    | forks hne hnew => exact absurd rfl hne
    | extendsFork hmax hfork s₁ hnew hmove => exact absurd rfl hfork
    | extendsMain hmax hmain s₁ hnew hbest =>
      have hheaders : ∀ y, s'.blockHeaders y = if y = .fromInteger (n + 2) then
          some ⟨nonceBlock (n + 2) (n + 1), n + 1, 0, s.activeBlockNumber⟩
          else s.blockHeaders y := by
        intro y
        rw [hbest]
        exact hnew.adds.headers_apply y
      refine ⟨hsound, ⟨s.activeBlockNumber, ?_⟩, fun _ => ⟨time, ?_⟩, ?_, fun m hlow hhigh => ?_,
        ?_, ?_⟩
      · rw [hheaders, if_pos rfl]
      · rw [hheaders, if_neg]
        · exact htip
        · rw [H256Le.fromInteger_inj (by omega) (by omega)]
          omega
      · rw [hbest]
        exact (hnew.index_apply mainChainId).trans (if_pos rfl)
      · rw [hheaders, if_neg]
        · exact hs.fresh m (by omega) hhigh
        · rw [H256Le.fromInteger_inj (by omega) (by omega)]
          omega
      · rw [hbest]
        exact hnew.counter.trans hs.counter
      · rw [hbest]
        exact hnew.rest.difficulty.trans hs.difficulty

private theorem Straight.initial :
    Straight 0 (run (BtcRelay.step nonceHash) (BtcRelay.genesis 3 0 false) (nonceOps [])) := by
  have hops : nonceOps [] = [.initializeRelay (nonceHeader 1 0) 0] := rfl
  have hsound : Sound (BtcRelay.step nonceHash (BtcRelay.genesis 3 0 false)
    (.initializeRelay (nonceHeader 1 0) 0)) := (Sound.genesis 3 0 false).step _
  have hsucceeds : ((Op.initializeRelay (nonceHeader 1 0) 0).call nonceHash).succeeds
      (BtcRelay.genesis 3 0 false) = true := by
    decide +kernel
  have hchanges := changes_of_succeeds .empty hsucceeds
  rw [hops, run_cons, run_nil]
  generalize BtcRelay.step nonceHash (BtcRelay.genesis 3 0 false)
    (.initializeRelay (nonceHeader 1 0) 0) = s' at hchanges hsound ⊢
  cases hchanges with
  | initializes _ _ hash s₁ h hvalid =>
    obtain rfl : H256Le.fromInteger 1 = hash := congrArg BlockHeader.hash
      (Except.ok.inj ((updateHash_nonceHeader (by decide)).symm.trans hvalid))
    refine ⟨hsound, ⟨0, ?_⟩, fun hlt => absurd hlt (Nat.lt_irrefl 0), ?_, fun m hlow hhigh => ?_,
      h.creates.counter, h.creates.rest.difficulty⟩
    · exact (h.creates.adds.headers_apply (.fromInteger 1)).trans (if_pos rfl)
    · exact (h.creates.adds.index_apply mainChainId).trans (if_pos rfl)
    · refine (h.creates.adds.headers_apply (.fromInteger m)).trans (if_neg ?_)
      change H256Le.fromInteger m ≠ .fromInteger 1
      rw [Ne, H256Le.fromInteger_inj (by omega) (by omega)]
      omega

/-- The main chain up to a height, each header on the one before it. -/
def mainLinks (n : ℕ) : List (ℕ × ℕ) := (List.range n).map fun i => (i + 2, i + 1)

private theorem Straight.run {n : ℕ} (hn : n < difficultyAdjustmentInterval) :
    Straight n (Core.run (BtcRelay.step nonceHash) (BtcRelay.genesis 3 0 false)
      (nonceOps (mainLinks n))) := by
  induction n with
  | zero => exact .initial
  | succ n ih =>
    have hops : nonceOps (mainLinks (n + 1)) = nonceOps (mainLinks n) ++
        [.storeBlockHeader (nonceHeader (n + 2) (n + 1)) 100] := by
      simp only [nonceOps, mainLinks, List.range_succ, List.map_append, List.map_cons, List.map_nil,
        List.cons_append]
    rw [hops, run_append, run_cons, run_nil]
    exact (ih (by omega)).step hn

/-- At the first retarget of a chain without forks, and on a fork that overtook the main chain. -/
theorem expectedTarget_eq_required_mainLinks :
    (∃ n, RetargetsAt (n + 1) ∧
      let s := run (BtcRelay.step nonceHash) (BtcRelay.genesis 3 0 false) (nonceOps (mainLinks n))
      ∃ time target,
        s.requiredTarget (.fromInteger (n + 1)) ⟨nonceBlock (n + 1) n, n, 0, time⟩ = some target ∧
        (expectedTarget ⟨nonceBlock (n + 1) n, n, 0, time⟩ (n + 1)).run s = .ok target s) ∧
    let s := run (BtcRelay.step nonceHash) (BtcRelay.genesis 3 0 false) (nonceOps tiedForks)
    ∃ target, s.requiredTarget (.fromInteger 24) ⟨nonceBlock 24 23, 5, 0, 0⟩ = some target ∧
      (expectedTarget ⟨nonceBlock 24 23, 5, 0, 0⟩ 6).run s = .ok target s := by
  constructor
  · obtain ⟨n, hn⟩ : ∃ n, n + 1 = difficultyAdjustmentInterval := ⟨2015, rfl⟩
    have hstraight := Straight.run (n := n) (by omega)
    obtain ⟨time, htip⟩ := hstraight.tip
    refine ⟨n, by rw [hn]; decide, time, ?_⟩
    refine (expectedTarget_eq_required nonceHash 3 0 (nonceOps (mainLinks n)) _ _ _ htip
      hstraight.chain).mpr fun _ => ⟨by dsimp only; omega, fun y b _ _ => ?_⟩
    -- every timespan is counted as at most eight weeks
    refine (Nat.mul_le_mul_left _ (countedTimespan_le _ _)).trans_lt ?_
    change 2 ^ 220 * (targetTimespan * targetTimespanDivisor) < 2 ^ 256
    decide
  · exact (expectedTarget_eq_required nonceHash 3 0 (nonceOps tiedForks) (.fromInteger 24)
      ⟨nonceBlock 24 23, 5, 0, 0⟩ ⟨0, 0, 5⟩ (by decide +kernel) (by decide +kernel)).mpr
        fun h => absurd h (by decide)

/-- A header on the block before the last one starts a new chain. -/
theorem Straight.fork {n nonce : ℕ} (hs : Straight (n + 1) s)
    (hn : n + 1 < difficultyAdjustmentInterval) (hlow : n + 2 < nonce) (hnonce : nonce < 2 ^ 32) :
    Creates s (nonceBlock nonce (n + 1)) (n + 1) [mainChainId] (BtcRelay.step nonceHash s
      (.storeBlockHeader (nonceHeader nonce (n + 1)) 100)) := by
  obtain ⟨time, hprev⟩ := hs.below (Nat.succ_pos n)
  have hbound : n + 1 ≤ maxU32 := by
    unfold maxU32
    unfold difficultyAdjustmentInterval at hn
    omega
  have hstore : (storeHeader (nonceBlock nonce (n + 1))).succeeds s = true :=
    succeeds_storeHeader hprev hbound hs.chain
      (run_verifyBlockHeader_nonce (hs.fresh _ hlow hnonce) hnonce hn rfl)
      (fun _ => succeeds_createAndStoreBlockchain hs.lists (by rw [hs.counter]; decide))
      fun hmax => absurd hmax (Nat.succ_ne_self n)
  have hsucceeds : ((Op.storeBlockHeader (nonceHeader nonce (n + 1)) 100).call
      nonceHash).succeeds s = true :=
    succeeds_storeBlockHeader hnonce (by rw [hs.counter]; decide) hstore
  have hchanges := changes_of_succeeds hs.lists hsucceeds
  generalize BtcRelay.step nonceHash s
    (.storeBlockHeader (nonceHeader nonce (n + 1)) 100) = s' at hchanges ⊢
  cases hchanges with
  | stores _ _ hash prev prevChain _ ha h hvalid =>
    obtain rfl : H256Le.fromInteger nonce = hash :=
      congrArg BlockHeader.hash (Except.ok.inj ((updateHash_nonceHeader hnonce).symm.trans hvalid))
    obtain rfl := Option.some.inj (hprev.symm.trans ha.parent)
    obtain rfl := Option.some.inj (hs.chain.symm.trans ha.chain)
    cases h with
    | extendsMain hmax => exact absurd hmax (Nat.succ_ne_self n)
    | extendsFork hmax => exact absurd hmax (Nat.succ_ne_self n)
    | forks hne hnew => exact hnew

/-- On top of the new chain, the start of the period is on the main chain. -/
theorem Straight.required {n nonce : ℕ} (hs : Straight (n + 1) s) (hs' : Linked s')
    (hn : n + 2 = difficultyAdjustmentInterval) (hlow : n + 2 < nonce) (hnonce : nonce < 2 ^ 32)
    (h : Creates s (nonceBlock nonce (n + 1)) (n + 1) [mainChainId] s') :
    ∃ target, s'.requiredTarget (.fromInteger nonce)
      (s.placed (nonceBlock nonce (n + 1)) (n + 1) s.chainCounter) = some target := by
  obtain ⟨time, hprev⟩ := hs.below (Nat.succ_pos n)
  have hx := (h.adds.headers_apply (.fromInteger nonce)).trans (if_pos rfl)
  have hp : s'.blockHeaders (.fromInteger (n + 1)) = some ⟨nonceBlock (n + 1) n, n, 0, time⟩ := by
    refine (h.adds.headers_apply (.fromInteger (n + 1))).trans ((if_neg ?_).trans hprev)
    change H256Le.fromInteger (n + 1) ≠ .fromInteger nonce
    rw [Ne, H256Le.fromInteger_inj (by omega) (by omega)]
    omega
  have hmain : s'.chainsIndex mainChainId = some ⟨0, 0, n + 1⟩ := by
    refine (h.index_apply mainChainId).trans ((if_neg ?_).trans hs.chain)
    rw [hs.counter]
    exact Nat.zero_ne_one
  have hentry : s'.chainsHashes mainChainId n = some (.fromInteger (n + 1)) :=
    (hs'.named _ _ _).mpr ⟨_, hp, rfl, rfl⟩
  obtain ⟨y, hy⟩ := Option.isSome_iff_exists.mp ((hs'.entries mainChainId 0).mpr
    ⟨_, hmain, Nat.zero_le _, Nat.zero_le _⟩)
  obtain ⟨b, hb, -⟩ := (hs'.named _ _ _).mp hy
  have hancestor : s'.ancestor (n + 1) (.fromInteger nonce) = some y := by
    rw [ancestor, hx, Option.bind_some]
    exact (hs'.ancestor_eq hmain hentry (by dsimp only; omega)).trans
      ((Nat.sub_self n).symm ▸ hy)
  have hperiod : difficultyAdjustmentInterval - 1 = n + 1 := by omega
  have hretarget : RetargetsAt (n + 1 + 1) := by
    rw [hn]
    decide
  refine Option.isSome_iff_exists.mp ?_
  dsimp only [requiredTarget, placed]
  rw [if_pos hretarget, hperiod, hancestor, Option.bind_some, hb]
  rfl

/-- Not every run requires the target of its own chain. -/
theorem not_expectedTarget_eq_required :
    ¬∀ (sha256d : List UInt8 → H256Le) (k p : ℕ) (ops : List Op),
      let s := run (BtcRelay.step sha256d) (BtcRelay.genesis k p false) ops
      ∀ x prev, s.blockHeaders x = some prev → ∀ target, s.requiredTarget x prev = some target →
        (expectedTarget prev (prev.blockHeight + 1)).run s = .ok target s := by
  intro h
  obtain ⟨n, hn⟩ : ∃ n, n + 2 = difficultyAdjustmentInterval := ⟨2014, rfl⟩
  have hlow : n + 2 < 5000 := hn ▸ (by decide)
  have hstraight := Straight.run (n := n + 1) (by omega)
  have hnew := hstraight.fork (by omega) hlow (by decide)
  have hlinked : Linked (BtcRelay.step nonceHash (run (BtcRelay.step nonceHash)
      (BtcRelay.genesis 3 0 false) (nonceOps (mainLinks (n + 1))))
        (.storeBlockHeader (nonceHeader 5000 (n + 1)) 100)) :=
    (hstraight.toSound.step _).toLinked
  obtain ⟨target, hrequired⟩ := hstraight.required hlinked hn hlow (by decide) hnew
  have hstored := (hnew.adds.headers_apply (.fromInteger 5000)).trans (if_pos rfl)
  have hchain := (hnew.index_apply _).trans (if_pos rfl)
  have hexpected := h nonceHash 3 0 (nonceOps (mainLinks (n + 1)) ++
    [.storeBlockHeader (nonceHeader 5000 (n + 1)) 100])
  rw [run_append, run_cons, run_nil] at hexpected
  have hstart := ((hlinked.expectedTarget_iff hstored hchain).mp
    ⟨target, hrequired, hexpected _ _ hstored target hrequired⟩ ?_).1
  · dsimp only [placed] at hstart
    unfold difficultyAdjustmentInterval at hn hstart
    omega
  · dsimp only [placed]
    rw [hn]
    decide

end Interbtc.BtcRelay
