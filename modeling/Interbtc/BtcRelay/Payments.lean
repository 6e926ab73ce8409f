import Interbtc.Bitcoin.Address
import Mathlib.Data.List.Permutation

/-!
# Payments

A payment names its request in an output that carries data. The relay reads the outputs of a
transaction one after the other. Then it looks for the payment to the recipient.
-/

namespace Interbtc

open Core

/-- The outputs a payment can have. -/
def ACCEPTED_MAX_TRANSACTION_OUTPUTS : ℕ := 3

/-- An amount as a 64-bit number, where it fits. -/
def tryIntoI64 (n : ℤ) : Option Int64 :=
  if -2 ^ 63 ≤ n ∧ n < 2 ^ 63 then some (Int64.ofInt n) else none

private theorem tryIntoI64_eq_some {n : ℤ} {value : Int64} :
    tryIntoI64 n = some value ↔ value.toInt = n := by
  unfold tryIntoI64
  constructor
  · intro h
    split_ifs at h with hn
    cases h
    exact Int64.toInt_ofInt_of_le hn.1 hn.2
  · rintro rfl
    rw [if_pos ⟨value.le_toInt, value.toInt_lt⟩, Int64.ofInt_toInt]

/-- What the outputs of a transaction pay, and the data that one of them carries. -/
structure OpReturnPaymentData where
  opReturn : H256
  payments : List (Int64 × Address)

namespace OpReturnPaymentData

/-- One round of the loop over the outputs: a payment or an amount of nothing with 32 bytes of
data. -/
def collect (found : List (Int64 × Address) × List H256) (output : TransactionOutput) :
    Except BtcRelayError (List (Int64 × Address) × List H256) :=
  match output.extractAddress with
  | .ok address => .ok (found.1 ++ [(output.value, address)], found.2)
  | .error _ =>
    match output.script.extractOpReturnData with
    | .ok data =>
      if output.value ≠ 0 then .error .invalidOpReturnTransaction
      else if h : data.length = 32 then .ok (found.1, found.2 ++ [⟨data.toArray, h⟩])
      else .error .invalidOpReturnTransaction
    | .error _ => .error .invalidOpReturnTransaction

/-- One output carries data. There is one payment, or there are two to different addresses. -/
def ofFound (payments : List (Int64 × Address)) (opReturns : List H256) :
    Except BtcRelayError OpReturnPaymentData :=
  match opReturns with
  | [opReturn] =>
    match payments with
    | [_] => .ok ⟨opReturn, payments⟩
    | [p, q] =>
      if p.2 ≠ q.2 then .ok ⟨opReturn, payments⟩ else .error .invalidOpReturnTransaction
    | _ => .error .invalidOpReturnTransaction
  | _ => .error .invalidOpReturnTransaction

/-- The payments and the data of a transaction of few outputs. -/
def tryFrom (tx : Transaction) : Except BtcRelayError OpReturnPaymentData :=
  if ACCEPTED_MAX_TRANSACTION_OUTPUTS < tx.outputs.length then .error .invalidOpReturnTransaction
  else do
    let found ← tx.outputs.foldlM collect ([], [])
    ofFound found.1 found.2

/-- The payment has to be the first one to its recipient. The address of another payment is
handed back. -/
def ensureValidPaymentTo (data : OpReturnPaymentData) (expectedAmount : Int64)
    (recipient : Address) (opReturn : Option H256) : Except BtcRelayError (Option Address) :=
  if opReturn.any (fun id => id ≠ data.opReturn) then .error .invalidPayment
  else do
    let paidAmount ← okOr .invalidPayment
      (data.payments.findSome? fun p => if p.2 = recipient then some p.1 else none)
    if paidAmount ≠ expectedAmount then .error .invalidPaymentAmount
    else .ok (data.payments.findSome? fun p => if p.2 ≠ recipient then some p.2 else none)

end OpReturnPaymentData

/-- Whether a transaction is the payment that a request asks for. -/
def validateOpReturnTransaction (tx : Transaction) (recipientBtcAddress : Address)
    (expectedBtc : ℤ) (opReturnId : H256) : Except BtcRelayError (Option Address) := do
  let paymentData ← OpReturnPaymentData.tryFrom tx
  let expected ← okOr .invalidPaymentAmount (tryIntoI64 expectedBtc)
  paymentData.ensureValidPaymentTo expected recipientBtcAddress (some opReturnId)

/-! ## The shape of a payment -/

open OpReturnPaymentData TransactionOutput

/-- The outputs with the given data and payments. -/
def outputsOf (payments : List (Int64 × Address)) (opReturns : List H256) :
    List TransactionOutput :=
  opReturns.map (fun id => .opReturn 0 id.toList) ++ payments.map fun p => .payment p.1 p.2

private theorem outputsOf_perm {payments payments' : List (Int64 × Address)}
    {opReturns opReturns' : List H256}
    (hpayments : payments.Perm payments') (hopReturns : opReturns.Perm opReturns') :
    (outputsOf payments opReturns).Perm (outputsOf payments' opReturns') :=
  (hopReturns.map _).append (hpayments.map _)

private theorem outputsOf_cons_payment (p : Int64 × Address) (payments : List (Int64 × Address))
    (opReturns : List H256) :
    (outputsOf (p :: payments) opReturns).Perm (.payment p.1 p.2 :: outputsOf payments opReturns) :=
  List.perm_middle

namespace OpReturnPaymentData

variable {found found' : List (Int64 × Address) × List H256} {output : TransactionOutput}

/-- An output is a payment, or it carries 32 bytes and pays nothing. -/
theorem collect_eq_ok : collect found output = .ok found' ↔
    (∃ p : Int64 × Address, output = .payment p.1 p.2 ∧ found' = (found.1 ++ [p], found.2)) ∨
      ∃ id : H256, output = .opReturn 0 id.toList ∧ found' = (found.1, found.2 ++ [id]) := by
  unfold collect
  cases haddress : output.extractAddress with
  | ok address =>
    have hpayment := extractAddress_eq_ok.mp haddress
    constructor
    · intro h
      cases h
      exact .inl ⟨(output.value, address), hpayment, rfl⟩
    · rintro (⟨p, rfl, rfl⟩ | ⟨id, rfl, rfl⟩)
      · cases haddress.symm.trans (extractAddress_eq_ok.mpr rfl)
        rfl
      · exact absurd (congrArg script hpayment.symm) Address.toScriptPubKey_ne_opReturn
  | error e =>
    constructor
    · intro h
      right
      cases hdata : output.script.extractOpReturnData with
      | error e => simp [hdata] at h
      | ok data =>
        simp only [hdata] at h
        split_ifs at h with hvalue hlength
        cases h
        obtain ⟨hscript, -⟩ := Script.extractOpReturnData_eq_ok.mp hdata
        refine ⟨⟨data.toArray, hlength⟩, ?_, rfl⟩
        rcases output with ⟨value, script⟩
        rw [not_ne_iff] at hvalue
        cases hvalue
        cases hscript
        rfl
    · rintro (⟨p, rfl, rfl⟩ | ⟨id, rfl, rfl⟩)
      · cases haddress.symm.trans (extractAddress_eq_ok.mpr rfl)
      · have hdata : (TransactionOutput.opReturn 0 id.toList).script.extractOpReturnData =
            .ok id.toList :=
          Script.extractOpReturnData_eq_ok.mpr ⟨rfl, by rw [Vector.length_toList]; decide⟩
        have hvalue : (TransactionOutput.opReturn 0 id.toList).value = 0 := rfl
        simp only [hdata]
        rw [if_neg (not_not.mpr hvalue), dif_pos Vector.length_toList]
        rfl

/-- The loop finds every output, the payments and the data each in their order. -/
theorem foldlM_collect_eq_ok {outputs : List TransactionOutput}
    (h : outputs.foldlM collect found = .ok found') :
    ∃ payments opReturns, found' = (found.1 ++ payments, found.2 ++ opReturns) ∧
      outputs.Perm (outputsOf payments opReturns) := by
  induction outputs generalizing found with
  | nil =>
    cases h
    exact ⟨[], [], by rw [List.append_nil, List.append_nil], .nil⟩
  | cons output outputs ih =>
    rw [List.foldlM_cons] at h
    obtain ⟨next, hnext, h⟩ := except_bind_eq_ok.mp h
    obtain ⟨payments, opReturns, rfl, hperm⟩ := ih h
    rcases collect_eq_ok.mp hnext with ⟨p, rfl, rfl⟩ | ⟨id, rfl, rfl⟩
    · refine ⟨p :: payments, opReturns, by rw [List.append_assoc]; rfl, ?_⟩
      exact (hperm.cons _).trans (outputsOf_cons_payment p payments opReturns).symm
    · exact ⟨payments, id :: opReturns, by rw [List.append_assoc]; rfl, hperm.cons _⟩

/-- Outputs in any order are found, whatever else was found before. -/
theorem foldlM_collect_of_perm {outputs : List TransactionOutput}
    {payments : List (Int64 × Address)} {opReturns : List H256}
    (h : outputs.Perm (outputsOf payments opReturns)) :
    ∃ payments' opReturns', payments'.Perm payments ∧ opReturns'.Perm opReturns ∧
      outputs.foldlM collect found = .ok (found.1 ++ payments', found.2 ++ opReturns') := by
  induction outputs generalizing found payments opReturns with
  | nil =>
    obtain ⟨hopReturns, hpayments⟩ := List.append_eq_nil_iff.mp h.nil_eq.symm
    cases List.map_eq_nil_iff.mp hopReturns
    cases List.map_eq_nil_iff.mp hpayments
    exact ⟨[], [], .nil, .nil, by rw [List.append_nil, List.append_nil]; rfl⟩
  | cons output outputs ih =>
    have hmem : output ∈ outputsOf payments opReturns := h.mem_iff.mp List.mem_cons_self
    rcases List.mem_append.mp hmem with hmem | hmem
    · obtain ⟨id, hid, rfl⟩ := List.mem_map.mp hmem
      have herase := List.perm_cons_erase hid
      have hrest : outputs.Perm (outputsOf payments (opReturns.erase id)) :=
        (h.trans (outputsOf_perm (.refl _) herase)).cons_inv
      obtain ⟨payments', opReturns', hpayments, hopReturns, hfold⟩ :=
        @ih (found.1, found.2 ++ [id]) _ _ hrest
      refine ⟨payments', id :: opReturns', hpayments, (hopReturns.cons id).trans herase.symm, ?_⟩
      rw [List.foldlM_cons]
      refine except_bind_eq_ok.mpr ⟨_, collect_eq_ok.mpr (.inr ⟨id, rfl, rfl⟩), ?_⟩
      rw [hfold, List.append_assoc]
      rfl
    · obtain ⟨p, hp, rfl⟩ := List.mem_map.mp hmem
      have herase := List.perm_cons_erase hp
      have hrest : outputs.Perm (outputsOf (payments.erase p) opReturns) :=
        ((h.trans (outputsOf_perm herase (.refl _))).trans
          (outputsOf_cons_payment p _ opReturns)).cons_inv
      obtain ⟨payments', opReturns', hpayments, hopReturns, hfold⟩ :=
        @ih (found.1 ++ [p], found.2) _ _ hrest
      refine ⟨p :: payments', opReturns', (hpayments.cons p).trans herase.symm, hopReturns, ?_⟩
      rw [List.foldlM_cons]
      refine except_bind_eq_ok.mpr ⟨_, collect_eq_ok.mpr (.inl ⟨p, rfl, rfl⟩), ?_⟩
      rw [hfold, List.append_assoc]
      rfl

/-- One payment, or two to different addresses. -/
def Payable (payments : List (Int64 × Address)) : Prop :=
  (∃ p, payments = [p]) ∨ ∃ p q, payments = [p, q] ∧ p.2 ≠ q.2

private theorem Payable.of_perm {payments payments' : List (Int64 × Address)} (h : Payable payments)
    (hperm : payments'.Perm payments) : Payable payments' := by
  rcases h with ⟨p, rfl⟩ | ⟨p, q, rfl, hne⟩
  · exact .inl ⟨p, hperm.eq_singleton⟩
  · rcases List.perm_pair.mp hperm with rfl | rfl
    · exact .inr ⟨p, q, rfl, hne⟩
    · exact .inr ⟨q, p, rfl, hne.symm⟩

private theorem ofFound_eq_ok {payments : List (Int64 × Address)} {opReturns : List H256}
    {data : OpReturnPaymentData} : ofFound payments opReturns = .ok data ↔
      opReturns = [data.opReturn] ∧ payments = data.payments ∧ Payable payments := by
  constructor
  · intro h
    unfold ofFound at h
    split at h
    · split at h
      · cases h
        exact ⟨rfl, rfl, .inl ⟨_, rfl⟩⟩
      · split_ifs at h with hne
        cases h
        exact ⟨rfl, rfl, .inr ⟨_, _, rfl, hne⟩⟩
      · cases h
    · cases h
  · rcases data with ⟨id, payments⟩
    rintro ⟨rfl, rfl, ⟨p, rfl⟩ | ⟨p, q, rfl, hne⟩⟩
    · rfl
    · exact if_pos hne

private theorem tryFrom_eq_ok {tx : Transaction} {data : OpReturnPaymentData}
    (h : tryFrom tx = .ok data) :
    tx.outputs.Perm (outputsOf data.payments [data.opReturn]) ∧ Payable data.payments := by
  unfold tryFrom at h
  split_ifs at h
  obtain ⟨found, hfound, h⟩ := except_bind_eq_ok.mp h
  obtain ⟨payments, opReturns, rfl, hperm⟩ := foldlM_collect_eq_ok hfound
  obtain ⟨hopReturns, hpayments, hpayable⟩ :
      opReturns = [data.opReturn] ∧ payments = data.payments ∧ Payable payments :=
    ofFound_eq_ok.mp h
  rw [← hopReturns, ← hpayments]
  exact ⟨hperm, hpayable⟩

private theorem tryFrom_of_perm {tx : Transaction} {payments : List (Int64 × Address)} {id : H256}
    (h : tx.outputs.Perm (outputsOf payments [id])) (hpayable : Payable payments) :
    ∃ payments', payments'.Perm payments ∧ tryFrom tx = .ok ⟨id, payments'⟩ := by
  obtain ⟨payments', opReturns, hpayments, hopReturns, hfold⟩ := @foldlM_collect_of_perm ([], []) _ _ _ h
  cases hopReturns.eq_singleton
  refine ⟨payments', hpayments, ?_⟩
  have hlength : payments.length ≤ 2 := by
    rcases hpayable with ⟨p, rfl⟩ | ⟨p, q, rfl, -⟩ <;> simp
  unfold tryFrom
  rw [if_neg]
  · refine except_bind_eq_ok.mpr ⟨_, hfold, ofFound_eq_ok.mpr ⟨rfl, rfl, ?_⟩⟩
    exact hpayable.of_perm hpayments
  · rw [h.length_eq, outputsOf, List.length_append, List.length_map, List.length_map,
      List.length_singleton, ACCEPTED_MAX_TRANSACTION_OUTPUTS]
    omega

/-- The check finds the payment to the recipient in either place. -/
theorem ensureValidPaymentTo_eq_ok {data : OpReturnPaymentData} (hpayable : Payable data.payments)
    {value : Int64} {recipient : Address} {id : H256} {address : Option Address} :
    data.ensureValidPaymentTo value recipient (some id) = .ok address ↔
      id = data.opReturn ∧ ∃ further : Option (Int64 × Address),
        (∀ p ∈ further, p.2 ≠ recipient) ∧ further.map Prod.snd = address ∧
          data.payments.Perm ((value, recipient) :: further.toList) := by
  rcases data with ⟨id', payments⟩
  have hid : (some id).any (fun i => i ≠ id') = true ↔ id ≠ id' := decide_eq_true_iff
  unfold ensureValidPaymentTo
  rw [except_ite_eq_ok]
  constructor
  · rintro (⟨-, h⟩ | ⟨hany, h⟩)
    · cases h
    · rw [hid, not_not] at hany
      refine ⟨hany, ?_⟩
      obtain ⟨paid, hpaid, h⟩ := except_bind_eq_ok.mp h
      rw [okOr_eq_ok] at hpaid
      split_ifs at h with hvalue
      rw [not_ne_iff] at hvalue
      cases hvalue
      cases h
      rcases hpayable with ⟨⟨value, target⟩, rfl⟩ | ⟨⟨value, target⟩, ⟨value', target'⟩, rfl, hne⟩
      · by_cases htarget : target = recipient
        · cases htarget
          simp only [List.findSome?_cons, if_true, Option.some.injEq] at hpaid
          cases hpaid
          exact ⟨none, fun _ h => (nomatch h), by simp, .refl _⟩
        · simp [htarget] at hpaid
      · by_cases htarget : target = recipient
        · cases htarget
          simp only [List.findSome?_cons, if_true, Option.some.injEq] at hpaid
          cases hpaid
          refine ⟨some (value', target'), ?_, by simp [hne.symm], .refl _⟩
          rintro p ⟨⟩
          exact hne.symm
        · by_cases htarget' : target' = recipient
          · cases htarget'
            simp only [List.findSome?_cons, htarget, if_true, if_false, Option.some.injEq] at hpaid
            cases hpaid
            refine ⟨some (value, target), ?_, by simp [htarget], .swap _ _ _⟩
            rintro p ⟨⟩
            exact htarget
          · simp [htarget, htarget'] at hpaid
  · rintro ⟨rfl, further, hne, rfl, hperm⟩
    refine .inr ⟨(hid.not.mpr (not_not.mpr rfl)), except_bind_eq_ok.mpr ⟨value, ?_, ?_⟩⟩
    · rw [okOr_eq_ok]
      cases further with
      | none =>
        cases hperm.eq_singleton
        simp
      | some p =>
        have hp : p.2 ≠ recipient := hne p rfl
        rcases List.perm_pair.mp hperm with h | h <;> cases h <;> simp [hp]
    · rw [if_neg (not_not.mpr rfl)]
      cases further with
      | none =>
        cases hperm.eq_singleton
        simp
      | some p =>
        have hp : p.2 ≠ recipient := hne p rfl
        rcases List.perm_pair.mp hperm with h | h <;> cases h <;> simp [hp]

end OpReturnPaymentData

/-- The outputs carry the id, pay the amount to the recipient, and pay at most once more to
another address. -/
def PaysTo (tx : Transaction) (recipient : Address) (amount : ℤ) (id : H256)
    (further : Option (Int64 × Address)) : Prop :=
  (∀ p ∈ further, p.2 ≠ recipient) ∧ ∃ value : Int64, value.toInt = amount ∧
    tx.outputs.Perm (.opReturn 0 id.toList :: .payment value recipient ::
      further.toList.map fun p => .payment p.1 p.2)

/-- A transaction is accepted when its outputs pay as they should. -/
theorem validateOpReturnTransaction_eq_ok {tx : Transaction} {recipient : Address} {amount : ℤ}
    {id : H256} {address : Option Address} :
    validateOpReturnTransaction tx recipient amount id = .ok address ↔
      ∃ further, PaysTo tx recipient amount id further ∧ further.map Prod.snd = address := by
  constructor
  · intro h
    obtain ⟨data, hdata, h⟩ := except_bind_eq_ok.mp h
    obtain ⟨value, hvalue, h⟩ := except_bind_eq_ok.mp h
    obtain ⟨hperm, hpayable⟩ := tryFrom_eq_ok hdata
    obtain ⟨rfl, further, hne, haddress, hpayments⟩ := (ensureValidPaymentTo_eq_ok hpayable).mp h
    refine ⟨further, ⟨hne, value, tryIntoI64_eq_some.mp (okOr_eq_ok.mp hvalue), ?_⟩, haddress⟩
    exact hperm.trans (outputsOf_perm hpayments (.refl _))
  · rintro ⟨further, ⟨hne, value, hvalue, hperm⟩, haddress⟩
    have hpayable : Payable ((value, recipient) :: further.toList) := by
      cases further with
      | none => exact .inl ⟨_, rfl⟩
      | some p => exact .inr ⟨_, _, rfl, (hne p rfl).symm⟩
    obtain ⟨payments, hpayments, hdata⟩ := tryFrom_of_perm hperm hpayable
    refine except_bind_eq_ok.mpr ⟨_, hdata, except_bind_eq_ok.mpr ⟨value, ?_, ?_⟩⟩
    · exact okOr_eq_ok.mpr (tryIntoI64_eq_some.mpr hvalue)
    · exact (ensureValidPaymentTo_eq_ok (hpayable.of_perm hpayments)).mpr
        ⟨rfl, further, hne, haddress, hpayments⟩

/-- A payment is accepted exactly if its outputs have the shape that was asked for, in whatever
order they stand. -/
theorem validateOpReturnTransaction_exact (tx : Transaction) (recipient : Address) (amount : ℤ)
    (id : H256) :
    ((∃ address, validateOpReturnTransaction tx recipient amount id = .ok address) ↔
      ∃ further, PaysTo tx recipient amount id further) ∧
    ∀ tx' : Transaction, tx'.outputs.Perm tx.outputs →
      (validateOpReturnTransaction tx' recipient amount id).toOption =
        (validateOpReturnTransaction tx recipient amount id).toOption := by
  refine ⟨?_, ?_⟩
  · simp only [validateOpReturnTransaction_eq_ok]
    exact ⟨fun ⟨_, further, h, _⟩ => ⟨further, h⟩, fun ⟨further, h⟩ => ⟨_, further, h, rfl⟩⟩
  · intro tx' hperm
    have hiff : ∀ address, validateOpReturnTransaction tx' recipient amount id = .ok address ↔
        validateOpReturnTransaction tx recipient amount id = .ok address := by
      intro address
      simp only [validateOpReturnTransaction_eq_ok, PaysTo, hperm.congr_left]
    cases htx' : validateOpReturnTransaction tx' recipient amount id with
    | ok address => rw [(hiff address).mp htx']
    | error e' =>
      cases htx : validateOpReturnTransaction tx recipient amount id with
      | ok address => exact nomatch htx'.symm.trans ((hiff address).mpr htx)
      | error e => rfl

end Interbtc
