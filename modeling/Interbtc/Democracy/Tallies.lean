import Interbtc.Core.Sums
import Interbtc.Democracy.Dispatch

/-!
# The tallies of referenda

The tally of an ongoing referendum is the sum of the votes that the voters have recorded for
it. A step changes the votes of one voter for one referendum, and the tally by the difference.
-/

namespace Interbtc.Democracy

open Core

variable {AccountId Proposal : Type} [DecidableEq AccountId] {s : Democracy AccountId Proposal}
  {who : AccountId} {r : ℕ} {status : ReferendumStatus Proposal}

/-! ## Recorded votes -/

/-- What a voter has recorded for a referendum. -/
def recorded (voting : Voting) (r : ℕ) : Tally := (voting.lookup r).elim 0 .ofVote

private theorem recorded_insert (voting : Voting) (r : ℕ) (vote : Vote) :
    recorded (voting.insert r vote) r = .ofVote vote := by
  rw [recorded, OrderedMap.lookup_insert, if_pos rfl]
  rfl

private theorem recorded_erase (voting : Voting) (r : ℕ) : recorded (voting.erase r) r = 0 := by
  rw [recorded, OrderedMap.lookup_erase, if_pos rfl]
  rfl

/-! ## Votes -/

section Votes

variable [DemocracyConfig] {s' : Democracy AccountId Proposal} {vote : Vote} {u : Unit}

omit [DecidableEq AccountId] [DemocracyConfig] in
private theorem referendumStatus_eq_ok :
    s.referendumStatus r = .ok status ↔ s.referendumInfoOf r = some (.ongoing status) := by
  rw [referendumStatus]
  split
  · rename_i status' h
    rw [h, Except.ok.injEq, Option.some.injEq, ReferendumInfo.ongoing.injEq]
  · rename_i h
    exact iff_of_false nofun fun hstatus => h status hstatus

private theorem revoted_eq_ok {tally tally' : Tally} {votes : Voting}
    (h : revoted tally votes r vote = .ok tally') :
    tally' + recorded votes r = tally + .ofVote vote := by
  unfold revoted at h
  cases hold : votes.lookup r with
  | some old =>
    rw [hold] at h
    obtain ⟨rest, hrest, hadd⟩ := except_bind_eq_ok.mp h
    rw [Tally.add_eq_some (okOr_eq_ok.mp hadd), Tally.remove_eq_some (okOr_eq_ok.mp hrest),
      recorded, hold]
    exact add_right_comm _ _ _
  | none =>
    rw [hold] at h
    obtain ⟨-, hadd⟩ | ⟨-, hnone⟩ := except_ite_eq_ok.mp h
    · rw [Tally.add_eq_some (okOr_eq_ok.mp hadd), recorded, hold]
      exact add_zero _
    · exact nomatch hnone

private theorem run_tryVote (h : (tryVote who r vote).run s = .ok u s') :
    ∃ status tally, s.referendumInfoOf r = some (.ongoing status) ∧
      revoted status.tally (s.votingOf who) r vote = .ok tally ∧
      s' = { s with
        votingOf := Function.update s.votingOf who ((s.votingOf who).insert r vote)
        referendumInfoOf := Function.update s.referendumInfoOf r
          (some (.ongoing { status with tally := tally })) } := by
  obtain ⟨_, _, hget, hcall⟩ := Call.run_bind_eq_ok.mp h
  obtain ⟨rfl, rfl⟩ := Call.run_get_eq_ok.mp hget
  obtain ⟨status, _, hread, hcall⟩ := Call.run_bind_eq_ok.mp hcall
  obtain ⟨hstatus, rfl⟩ := Call.run_ofExcept_eq_ok.mp hread
  obtain ⟨_, _, hensure, hcall⟩ := Call.run_bind_eq_ok.mp hcall
  obtain ⟨_, rfl⟩ := Call.run_ensure_eq_ok.mp hensure
  obtain ⟨tally, _, hread, hcall⟩ := Call.run_bind_eq_ok.mp hcall
  obtain ⟨htally, rfl⟩ := Call.run_ofExcept_eq_ok.mp hread
  exact ⟨status, tally, referendumStatus_eq_ok.mp hstatus, htally,
    (Call.run_modify_eq_ok.mp hcall).symm⟩

omit [DecidableEq AccountId] [DemocracyConfig] in
private theorem run_uncount {old : Vote} (h : (uncount r old).run s = .ok u s') :
    (∃ status rest, s.referendumInfoOf r = some (.ongoing status) ∧
      status.tally.remove old = some rest ∧
      s' = { s with
        referendumInfoOf := Function.update s.referendumInfoOf r
          (some (.ongoing { status with tally := rest })) }) ∨
    (∀ status, s.referendumInfoOf r ≠ some (.ongoing status)) ∧ s' = s := by
  obtain ⟨_, _, hget, hcall⟩ := Call.run_bind_eq_ok.mp h
  obtain ⟨rfl, rfl⟩ := Call.run_get_eq_ok.mp hget
  split at hcall
  · rename_i status hstatus
    obtain ⟨rest, _, hread, hcall⟩ := Call.run_bind_eq_ok.mp hcall
    obtain ⟨hrest, rfl⟩ := Call.run_ofOption_eq_ok.mp hread
    exact .inl ⟨status, rest, hstatus, hrest, (Call.run_modify_eq_ok.mp hcall).symm⟩
  · rename_i hstatus
    exact .inr ⟨hstatus, (Call.run_pure_eq_ok.mp hcall).2.symm⟩

omit [DemocracyConfig] in
private theorem run_tryRemoveVote (h : (tryRemoveVote who r).run s = .ok u s') :
    ∃ old t, (s.votingOf who).lookup r = some old ∧ (uncount r old).run s = .ok () t ∧
      s' = { t with
        votingOf := Function.update t.votingOf who ((t.votingOf who).erase r) } := by
  obtain ⟨_, _, hget, hcall⟩ := Call.run_bind_eq_ok.mp h
  obtain ⟨rfl, rfl⟩ := Call.run_get_eq_ok.mp hget
  obtain ⟨old, _, hread, hcall⟩ := Call.run_bind_eq_ok.mp hcall
  obtain ⟨hold, rfl⟩ := Call.run_ofOption_eq_ok.mp hread
  obtain ⟨_, t, huncount, hcall⟩ := Call.run_bind_eq_ok.mp hcall
  exact ⟨old, t, hold, huncount, (Call.run_modify_eq_ok.mp hcall).symm⟩

end Votes

/-! ## The invariant -/

section Counted

variable [Fintype AccountId]

/-- The tallies count what is recorded, and there are no votes on referenda to come. -/
structure Counted (s : Democracy AccountId Proposal) : Prop where
  tally : ∀ r status, s.referendumInfoOf r = some (.ongoing status) →
    status.tally = ∑ who, recorded (s.votingOf who) r
  started : ∀ r, s.referendumInfoOf r ≠ none → r < s.referendumCount
  voted : ∀ who r, (s.votingOf who).lookup r ≠ none → r < s.referendumCount

namespace Counted

omit [DecidableEq AccountId] in
private theorem genesis (nextLaunchTimestamp : ℕ) :
    Counted (genesis nextLaunchTimestamp : Democracy AccountId Proposal) where
  tally _ _ h := nomatch h
  started _ h := absurd rfl h
  voted _ _ h := absurd rfl h

omit [DecidableEq AccountId] in
/-- Only the referenda and the votes matter. -/
theorem congr {s' : Democracy AccountId Proposal} (h : Counted s)
    (hcount : s'.referendumCount = s.referendumCount)
    (hinfo : s'.referendumInfoOf = s.referendumInfoOf) (hvoting : s'.votingOf = s.votingOf) :
    Counted s' where
  tally := by
    rw [hinfo, hvoting]
    exact h.tally
  started := by
    rw [hinfo, hcount]
    exact h.started
  voted := by
    rw [hvoting, hcount]
    exact h.voted

/-- The vote of one voter for one referendum changes with the tally. -/
theorem revote (h : Counted s) (hstatus : s.referendumInfoOf r = some (.ongoing status))
    {voting : Voting} {tally : Tally}
    (hother : ∀ q, q ≠ r → voting.lookup q = (s.votingOf who).lookup q)
    (htally : tally + recorded (s.votingOf who) r = status.tally + recorded voting r) :
    Counted { s with
      votingOf := Function.update s.votingOf who voting
      referendumInfoOf := Function.update s.referendumInfoOf r
        (some (.ongoing { status with tally := tally })) } where
  tally := by
    intro q status' hq
    change Function.update _ _ _ _ = _ at hq
    change _ = ∑ w, recorded (Function.update s.votingOf who voting w) q
    have hsum := sum_update_add (fun _ voting => recorded voting q) s.votingOf who voting
    rcases eq_or_ne q r with rfl | hne
    · rw [Function.update_self] at hq
      cases hq
      apply add_right_cancel (b := recorded (s.votingOf who) q)
      rw [hsum, htally, h.tally q status hstatus]
    · rw [Function.update_of_ne hne] at hq
      have hsame : recorded voting q = recorded (s.votingOf who) q := by
        rw [recorded, recorded, hother q hne]
      rw [hsame] at hsum
      rw [h.tally q status' hq, add_right_cancel hsum]
  started := by
    intro q hq
    rcases eq_or_ne q r with rfl | hne
    · exact h.started q (by rw [hstatus]; exact Option.some_ne_none _)
    · refine h.started q ?_
      rwa [← Function.update_of_ne hne (some (.ongoing _)) s.referendumInfoOf]
  voted := by
    intro w q hq
    change (Function.update s.votingOf who voting w).lookup q ≠ none at hq
    rcases eq_or_ne q r with rfl | hne
    · exact h.started q (by rw [hstatus]; exact Option.some_ne_none _)
    · rcases eq_or_ne w who with rfl | hw
      · rw [Function.update_self, hother q hne] at hq
        exact h.voted w q hq
      · rw [Function.update_of_ne hw] at hq
        exact h.voted w q hq

/-- A vote for a referendum that is not ongoing is not counted. -/
theorem forget (h : Counted s)
    (hstatus : ∀ status, s.referendumInfoOf r ≠ some (.ongoing status)) :
    Counted { s with
      votingOf := Function.update s.votingOf who ((s.votingOf who).erase r) } where
  tally := by
    intro q status hq
    have hne : q ≠ r := by
      rintro rfl
      exact hstatus status hq
    have hsum := sum_update_add (fun _ voting => recorded voting q) s.votingOf who
      ((s.votingOf who).erase r)
    have hsame : recorded ((s.votingOf who).erase r) q = recorded (s.votingOf who) q := by
      rw [recorded, recorded, OrderedMap.lookup_erase, if_neg hne]
    rw [hsame] at hsum
    exact (h.tally q status hq).trans (add_right_cancel hsum).symm
  started := h.started
  voted := by
    intro w q hq
    change (Function.update s.votingOf who _ w).lookup q ≠ none at hq
    rcases eq_or_ne w who with rfl | hw
    · rw [Function.update_self, OrderedMap.lookup_erase] at hq
      split at hq
      · exact absurd rfl hq
      · exact h.voted w q hq
    · rw [Function.update_of_ne hw] at hq
      exact h.voted w q hq

omit [DecidableEq AccountId] in
/-- A referendum can stop to be ongoing, or go on with its tally. -/
theorem replace (h : Counted s) {info : Option (ReferendumInfo Proposal)}
    (hstarted : info ≠ none → r < s.referendumCount)
    (htally : ∀ status, info = some (.ongoing status) →
      status.tally = ∑ who, recorded (s.votingOf who) r) :
    Counted { s with referendumInfoOf := Function.update s.referendumInfoOf r info } where
  tally := by
    intro q status hq
    change Function.update _ _ _ _ = _ at hq
    rcases eq_or_ne q r with rfl | hne
    · rw [Function.update_self] at hq
      exact htally status hq
    · rw [Function.update_of_ne hne] at hq
      exact h.tally q status hq
  started := by
    intro q hq
    change Function.update _ _ _ _ ≠ _ at hq
    rcases eq_or_ne q r with rfl | hne
    · rw [Function.update_self] at hq
      exact hstarted hq
    · rw [Function.update_of_ne hne] at hq
      exact h.started q hq
  voted := h.voted

omit [DecidableEq AccountId] in
/-- A new referendum starts with no votes. -/
theorem start (h : Counted s) (hzero : status.tally = 0) :
    Counted { s with
      referendumCount := s.referendumCount + 1
      referendumInfoOf := Function.update s.referendumInfoOf s.referendumCount
        (some (.ongoing status)) } where
  tally := by
    intro q status' hq
    change Function.update _ _ _ _ = _ at hq
    rcases eq_or_ne q s.referendumCount with rfl | hne
    · rw [Function.update_self] at hq
      cases hq
      refine hzero.trans (Finset.sum_eq_zero fun w _ => ?_).symm
      have hnone : (s.votingOf w).lookup s.referendumCount = none := by
        by_contra hsome
        exact Nat.lt_irrefl _ (h.voted w _ hsome)
      rw [recorded, hnone]
      rfl
    · rw [Function.update_of_ne hne] at hq
      exact h.tally q status' hq
  started := by
    intro q hq
    change Function.update _ _ _ _ ≠ _ at hq
    rcases eq_or_ne q s.referendumCount with rfl | hne
    · exact Nat.lt_succ_self _
    · rw [Function.update_of_ne hne] at hq
      exact (h.started q hq).trans (Nat.lt_succ_self _)
  voted w q hq := (h.voted w q hq).trans (Nat.lt_succ_self _)

/-- The tally has every recorded vote in it. -/
theorem tally_remove (h : Counted s) (hstatus : s.referendumInfoOf r = some (.ongoing status))
    {old : Vote} (hold : (s.votingOf who).lookup r = some old) :
    ∃ rest, status.tally.remove old = some rest := by
  have hvote : recorded (s.votingOf who) r = .ofVote old := by
    rw [recorded, hold]
    rfl
  have hsum := Finset.add_sum_erase Finset.univ (fun w => recorded (s.votingOf w) r)
    (Finset.mem_univ who)
  refine ⟨∑ w ∈ Finset.univ.erase who, recorded (s.votingOf w) r, ?_⟩
  rw [h.tally r status hstatus, ← hsum, hvote, add_comm]
  exact Tally.remove_add

end Counted

/-! ## Steps -/

private theorem reserve_counted (who : AccountId) (value : ℕ) :
    Maintains Counted (reserve who value : DemocracyCall AccountId Proposal Unit) :=
  .get_bind fun _ => .bind (.ensure _ _) fun _ => .modify fun _ hs => hs.congr rfl rfl rfl

private theorem unreserve_counted (who : AccountId) (value : ℕ) :
    Maintains Counted (unreserve who value : DemocracyCall AccountId Proposal Unit) :=
  .modify fun _ hs => hs.congr rfl rfl rfl

private theorem refundDepositors_counted (propIndex : ℕ) :
    Maintains Counted (refundDepositors propIndex : DemocracyCall AccountId Proposal Bool) := by
  refine .get_bind fun s => ?_
  cases s.depositOf propIndex with
  | none => exact .pure _
  | some deposit =>
    exact .bind (.modify fun _ hs => hs.congr rfl rfl rfl) fun _ =>
      .bind (.forM (fun _ => unreserve_counted _ _) _) fun _ => .pure _

omit [DecidableEq AccountId] in
private theorem injectReferendum_counted (endBlock : ℕ) (proposal : Proposal)
    (threshold : VoteThreshold)
    (delay : ℕ) : Maintains Counted
      (injectReferendum endBlock proposal threshold delay :
        DemocracyCall AccountId Proposal Unit) := by
  intro s _ s' h hs
  obtain ⟨_, _, hget, h⟩ := Call.run_bind_eq_ok.mp h
  obtain ⟨rfl, rfl⟩ := Call.run_get_eq_ok.mp hget
  obtain ⟨_, _, hensure, h⟩ := Call.run_bind_eq_ok.mp h
  obtain ⟨_, rfl⟩ := Call.run_ensure_eq_ok.mp hensure
  rw [← Call.run_modify_eq_ok.mp h]
  exact hs.start rfl

private theorem fastTrackWithVotingPeriod_counted (propIndex delay votingPeriod : ℕ) :
    Maintains Counted (fastTrackWithVotingPeriod propIndex delay votingPeriod :
      DemocracyCall AccountId Proposal Unit) :=
  .get_bind fun _ => .bind (.ofOption _ _) fun _ =>
    .bind (.modify fun _ hs => hs.congr rfl rfl rfl) fun _ =>
      .bind (refundDepositors_counted _) fun _ => injectReferendum_counted _ _ _ _

private theorem tryVote_counted [DemocracyConfig] (who : AccountId) (refIndex : ℕ) (vote : Vote) :
    Maintains Counted (tryVote who refIndex vote : DemocracyCall AccountId Proposal Unit) := by
  intro s _ s' h hs
  obtain ⟨status, tally, hstatus, htally, rfl⟩ := run_tryVote h
  refine hs.revote hstatus (fun q hq => ?_) ?_
  · rw [OrderedMap.lookup_insert, if_neg hq]
  · rw [recorded_insert, revoted_eq_ok htally]

private theorem tryRemoveVote_counted (who : AccountId) (refIndex : ℕ) :
    Maintains Counted (tryRemoveVote who refIndex : DemocracyCall AccountId Proposal Unit) := by
  intro s _ s' h hs
  obtain ⟨old, t, hold, huncount, rfl⟩ := run_tryRemoveVote h
  rcases run_uncount huncount with ⟨status, rest, hstatus, hrest, rfl⟩ | ⟨hstatus, rfl⟩
  · refine hs.revote hstatus (fun q hq => ?_) ?_
    · rw [OrderedMap.lookup_erase, if_neg hq]
    · rw [recorded_erase, recorded, hold, Tally.remove_eq_some hrest, add_zero]
      rfl
  · exact hs.forget hstatus

omit [DecidableEq AccountId] in
private theorem fastTrackReferendum_counted [DemocracyConfig] (origin : DemocracyOrigin AccountId)
    (refIndex : ℕ) :
    Maintains Counted (fastTrackReferendum origin refIndex :
      DemocracyCall AccountId Proposal Unit) := by
  refine .bind (.ofExcept _) fun _ => ?_
  intro s _ s' h hs
  obtain ⟨_, _, hget, hcall⟩ := Call.run_bind_eq_ok.mp h
  obtain ⟨rfl, rfl⟩ := Call.run_get_eq_ok.mp hget
  obtain ⟨status, _, hread, hcall⟩ := Call.run_bind_eq_ok.mp hcall
  obtain ⟨hstatus, rfl⟩ := Call.run_ofExcept_eq_ok.mp hread
  obtain ⟨_, _, hensure, hcall⟩ := Call.run_bind_eq_ok.mp hcall
  obtain ⟨_, rfl⟩ := Call.run_ensure_eq_ok.mp hensure
  rw [← Call.run_modify_eq_ok.mp hcall]
  have hongoing := referendumStatus_eq_ok.mp hstatus
  refine hs.replace (fun _ => hs.started refIndex ?_) fun status' hstatus' => ?_
  · rw [hongoing]
    exact Option.some_ne_none _
  · cases hstatus'
    exact hs.tally refIndex status hongoing

omit [DecidableEq AccountId] in
private theorem internalCancelReferendum_counted (refIndex : ℕ) :
    Maintains Counted (internalCancelReferendum refIndex :
      DemocracyCall AccountId Proposal Unit) :=
  .modify fun _ hs => hs.replace (fun h => absurd rfl h) fun _ h => nomatch h

/-! ## Blocks -/

private theorem launchPublic_counted [DemocracyConfig] (now : ℕ) :
    Maintains Counted (launchPublic now : DemocracyCall AccountId Proposal Unit) :=
  .get_bind fun _ => .bind (.ofOption _ _) fun _ =>
    .bind (.modify fun _ hs => hs.congr rfl rfl rfl) fun _ =>
      .bind (refundDepositors_counted _) fun _ =>
        .ite (injectReferendum_counted _ _ _ _) (.pure _)

private theorem launchNext_counted [DemocracyConfig] (now : ℕ) :
    Maintains Counted (launchNext now : DemocracyCall AccountId Proposal Bool) :=
  .get_bind fun _ => .ite (.pure _) (.bind (launchPublic_counted now) fun _ => .pure _)

omit [DecidableEq AccountId] [Fintype AccountId] in
private theorem mem_maturingReferendaAt {n : ℕ} {range : List ℕ}
    {entry : ℕ × ReferendumStatus Proposal}
    (h : entry ∈ s.maturingReferendaAt n range) :
    s.referendumInfoOf entry.1 = some (.ongoing entry.2) := by
  obtain ⟨i, -, hi⟩ := List.mem_filterMap.mp h
  split at hi
  · rename_i status hstatus
    split at hi
    · cases hi
      exact hstatus
    · exact nomatch hi
  · exact nomatch hi

omit [DecidableEq AccountId] in
/-- What is baked was started. -/
theorem bakeMaturing_counted (now : ℕ) (range : List ℕ) :
    Maintains Counted (bakeMaturing now range : DemocracyCall AccountId Proposal Unit) := by
  intro s _ s' h hs
  obtain ⟨_, _, hget, hbake⟩ := Call.run_bind_eq_ok.mp h
  obtain ⟨rfl, rfl⟩ := Call.run_get_eq_ok.mp hget
  have hstarted : ∀ entry ∈ s.maturingReferendaAt now range, entry.1 < s.referendumCount := by
    intro entry hentry
    refine hs.started _ ?_
    rw [mem_maturingReferendaAt hentry]
    exact Option.some_ne_none _
  have hbaked : ∀ entries : List (ℕ × ReferendumStatus Proposal), ∀ {n : ℕ},
      (∀ entry ∈ entries, entry.1 < n) →
      Maintains (fun s : Democracy AccountId Proposal => Counted s ∧ s.referendumCount = n)
        (entries.forM (bakeReferendum now)) := by
    intro entries n hlt
    induction entries with
    | nil => exact .pure PUnit.unit
    | cons entry entries ih =>
      refine .bind (.modify fun t ht => ?_) fun _ =>
        ih fun later hlater => hlt later (List.mem_cons_of_mem _ hlater)
      have hentry := hlt entry List.mem_cons_self
      exact ⟨ht.1.replace (fun _ => ht.2.symm ▸ hentry) fun _ hinfo => (nomatch hinfo), ht.2⟩
  exact (hbaked _ hstarted s _ s' hbake ⟨hs, rfl⟩).1

omit [DecidableEq AccountId] in
private theorem shouldLaunch_counted [DemocracyConfig] (now : ℕ) :
    Maintains Counted (shouldLaunch now : DemocracyCall AccountId Proposal Bool) :=
  .get_bind fun _ => .ite (.pure _)
    (.bind (.modify fun _ hs => hs.congr rfl rfl rfl) fun _ => .pure _)

private theorem launchDue_counted [DemocracyConfig] (now time : ℕ) :
    Maintains Counted (launchDue now time : DemocracyCall AccountId Proposal Unit) :=
  .bind (shouldLaunch_counted time) fun _ => .ite
    (.bind (launchNext_counted now) fun _ => .ite
      (.bind (launchNext_counted now) fun _ => .pure _) (.pure _)) (.pure _)

private theorem beginBlock_counted [DemocracyConfig] (now time : ℕ) :
    Maintains Counted (beginBlock now time : DemocracyCall AccountId Proposal Unit) :=
  .get_bind fun _ => .bind (launchDue_counted now time) fun _ => bakeMaturing_counted now _

private theorem dispatch_counted [DemocracyConfig] (op : Op AccountId Proposal) :
    Maintains Counted (dispatch op) := by
  cases op with
  | propose origin proposal value =>
    exact .bind (.ofExcept _) fun _ => .bind (.ensure _ _) fun _ => .get_bind fun _ =>
      .bind (.ensure _ _) fun _ => .bind (.ensure _ _) fun _ => .bind (reserve_counted _ _)
        fun _ => .bind (.ensure _ _) fun _ => .modify fun _ hs => hs.congr rfl rfl rfl
  | second origin proposal =>
    exact .bind (.ofExcept _) fun _ => .get_bind fun _ => .bind (.ofOption _ _) fun _ =>
      .bind (.ensure _ _) fun _ => .bind (reserve_counted _ _) fun _ =>
        .modify fun _ hs => hs.congr rfl rfl rfl
  | vote origin refIndex vote =>
    exact .bind (.ofExcept _) fun _ => tryVote_counted _ _ _
  | fastTrack origin propIndex delay =>
    exact .bind (.ofExcept _) fun _ => fastTrackWithVotingPeriod_counted _ _ _
  | tableProposal origin propIndex delay =>
    exact .bind (.ofExcept _) fun _ => fastTrackWithVotingPeriod_counted _ _ _
  | fastTrackReferendum origin refIndex => exact fastTrackReferendum_counted origin refIndex
  | cancelReferendum origin refIndex =>
    exact .bind (.ofExcept _) fun _ => internalCancelReferendum_counted refIndex
  | clearPublicProposals origin =>
    exact .bind (.ofExcept _) fun _ => .modify fun _ hs => hs.congr rfl rfl rfl
  | cancelProposal origin propIndex =>
    exact .bind (.ofExcept _) fun _ => .get_bind fun _ => .bind (.ofOption _ _) fun _ =>
      .bind (.ensure _ _) fun _ => .bind (.modify fun _ hs => hs.congr rfl rfl rfl) fun _ =>
        .bind (refundDepositors_counted propIndex) fun _ => .pure _
  | removeVote origin index =>
    exact .bind (.ofExcept _) fun _ => tryRemoveVote_counted _ _
  | beginBlock now time =>
    exact .bind (.modify fun _ hs => hs.congr rfl rfl rfl) fun _ => beginBlock_counted now time
  | environment balanceAt totalSupply preimages =>
    exact .modify fun _ hs => hs.congr rfl rfl rfl

private theorem step_counted [DemocracyConfig] (s : Democracy AccountId Proposal)
    (op : Op AccountId Proposal) (hs : Counted s) : Counted (step s op) :=
  (dispatch_counted op).commit hs

/-! ## Exact tallies -/

/-- Each number of a tally is the sum of the balances recorded in the votes, and no vote that is
recorded is too large to be removed. -/
structure TalliesExact [DemocracyConfig] (s : Democracy AccountId Proposal) : Prop where
  ayes : ∀ r status, s.referendumInfoOf r = some (.ongoing status) →
    status.tally.ayes =
      ∑ who, ((s.votingOf who).lookup r).elim 0 fun v => if v.aye then v.balance else 0
  nays : ∀ r status, s.referendumInfoOf r = some (.ongoing status) →
    status.tally.nays =
      ∑ who, ((s.votingOf who).lookup r).elim 0 fun v => if v.aye then 0 else v.balance
  turnout : ∀ r status, s.referendumInfoOf r = some (.ongoing status) →
    status.tally.turnout = ∑ who, ((s.votingOf who).lookup r).elim 0 Vote.balance
  replaces : ∀ who r v, (tryVote who r v).error? s ≠ some .underflow
  removes : ∀ who r, (tryRemoveVote who r).succeeds s = ((s.votingOf who).lookup r).isSome

omit [DecidableEq AccountId] in
/-- A number of a sum of tallies is the sum of this number over the votes. -/
theorem sum_recorded (part : Tally → ℕ) (hzero : part 0 = 0)
    (hadd : ∀ t t', part (t + t') = part t + part t') (votingOf : AccountId → Voting) (r : ℕ) :
    part (∑ who, recorded (votingOf who) r) =
      ∑ who, ((votingOf who).lookup r).elim 0 fun v => part (.ofVote v) := by
  have hsum := map_sum (⟨⟨part, hzero⟩, hadd⟩ : Tally →+ ℕ) (fun who => recorded (votingOf who) r)
    Finset.univ
  refine hsum.trans (Finset.sum_congr rfl fun who _ => ?_)
  rw [recorded]
  cases (votingOf who).lookup r with
  | none => exact hzero
  | some v => rfl

private theorem revoted_ne_underflow [DemocracyConfig] (hs : Counted s)
    (hstatus : s.referendumInfoOf r = some (.ongoing status)) (vote : Vote) :
    revoted status.tally (s.votingOf who) r vote ≠ .error .underflow := by
  unfold revoted
  cases hold : (s.votingOf who).lookup r with
  | some old =>
    obtain ⟨rest, hrest⟩ := hs.tally_remove hstatus hold
    intro h
    rcases except_bind_eq_error.mp h with h | ⟨_, -, h⟩
    · exact nomatch hrest.symm.trans (okOr_eq_error.mp h).1
    · exact nomatch (okOr_eq_error.mp h).2
  | none =>
    intro h
    rcases except_ite_eq_error.mp h with ⟨-, h⟩ | ⟨-, h⟩
    · exact nomatch (okOr_eq_error.mp h).2
    · exact nomatch h

private theorem tryVote_ne_underflow [DemocracyConfig] (hs : Counted s) (who : AccountId) (r : ℕ)
    (vote : Vote) : (tryVote who r vote).error? s ≠ some .underflow := by
  refine RaisesOnly.error?_ne (.get_bind (.ofExcept_bind (fun e he => ?_) fun status hstatus =>
    .ensure_bind (fun _ => nofun) fun _ => .ofExcept_bind (fun e he => ?_) fun _ _ =>
      .of_neverFails (.modify _)))
  · unfold referendumStatus at he
    split at he
    · exact nomatch he
    · cases he
      exact nofun
  · rintro rfl
    exact revoted_ne_underflow hs (referendumStatus_eq_ok.mp hstatus) vote he

private theorem tryRemoveVote_succeeds (hs : Counted s) (who : AccountId) (r : ℕ) :
    (tryRemoveVote who r).succeeds s = ((s.votingOf who).lookup r).isSome := by
  cases hold : (s.votingOf who).lookup r with
  | none =>
    have hfails : ¬ (tryRemoveVote who r).succeeds s = true := by
      intro h
      obtain ⟨_, s', h⟩ := Call.succeeds_iff.mp h
      obtain ⟨old, _, hsome, _⟩ := run_tryRemoveVote h
      exact nomatch hold.symm.trans hsome
    rw [Bool.not_eq_true] at hfails
    rw [hfails]
    rfl
  | some old =>
    have huncount : RaisesOnly (fun _ => False) (uncount r old) s := by
      refine .get_bind ?_
      cases hinfo : s.referendumInfoOf r with
      | none => exact .pure ()
      | some info =>
        cases info with
        | finished approved endBlock => exact .pure ()
        | ongoing status =>
          obtain ⟨rest, hrest⟩ := hs.tally_remove hinfo hold
          dsimp only
          rw [hrest]
          exact .bind (.pure rest) fun _ _ _ => .of_neverFails (.modify _)
    have hraises : RaisesOnly (fun _ => False) (tryRemoveVote who r) s := by
      refine .get_bind ?_
      rw [hold]
      refine .bind (.pure old) fun a t ha => ?_
      obtain ⟨rfl, rfl⟩ := Call.run_pure_eq_ok.mp ha
      exact .bind huncount fun _ _ _ => .of_neverFails (.modify _)
    rw [hraises.succeeds]
    rfl

/-- What is counted is exact. -/
theorem Counted.exact [DemocracyConfig] (hs : Counted s) : TalliesExact s where
  ayes r status hstatus := (congrArg Tally.ayes (hs.tally r status hstatus)).trans
    (sum_recorded Tally.ayes rfl (fun _ _ => rfl) s.votingOf r)
  nays r status hstatus := (congrArg Tally.nays (hs.tally r status hstatus)).trans
    (sum_recorded Tally.nays rfl (fun _ _ => rfl) s.votingOf r)
  turnout r status hstatus := (congrArg Tally.turnout (hs.tally r status hstatus)).trans
    (sum_recorded Tally.turnout rfl (fun _ _ => rfl) s.votingOf r)
  replaces := tryVote_ne_underflow hs
  removes := tryRemoveVote_succeeds hs

/-- In every state that a chain reaches from its genesis, with any votes, cancellations and
blocks and with balances that change in any way between them, the tallies of the ongoing
referenda are exact. -/
theorem run_tallies_exact [DemocracyConfig] (nextLaunchTimestamp : ℕ)
    (ops : List (Op AccountId Proposal)) :
    TalliesExact (run step (genesis nextLaunchTimestamp) ops) :=
  (run_preserves step_counted (Counted.genesis nextLaunchTimestamp) ops).exact

end Counted

end Interbtc.Democracy
