import Interbtc.Bitcoin.Transaction
import Mathlib.Data.List.Basic

/-!
# Addresses and output scripts

A script that pays to an address holds a hash between fixed bytes. The kind of the address is
read from these bytes. A script that carries data begins with its own code.
-/

namespace Interbtc

open Core

/-! ## Bytes between fixed bytes -/

/-- The `len` bytes that stand between the given first and last ones. -/
def bytesBetween (pre post : List UInt8) (len : ℕ) (bytes : List UInt8) :
    Option (Vector UInt8 len) := do
  let rest ← bytes.dropPrefix? pre
  let addr ← rest.dropSuffix? post
  if h : addr.length = len then some ⟨addr.toArray, h⟩ else none

/-- Each byte is pinned: the fixed ones by the pattern, the others by what is read. -/
theorem bytesBetween_eq_some {pre post : List UInt8} {len : ℕ} {bytes : List UInt8}
    {addr : Vector UInt8 len} :
    bytesBetween pre post len bytes = some addr ↔ bytes = pre ++ (addr.toList ++ post) := by
  constructor
  · intro h
    obtain ⟨rest, hrest, hbind⟩ := Option.bind_eq_some_iff.mp h
    obtain ⟨mid, hmid, hsome⟩ := Option.bind_eq_some_iff.mp hbind
    obtain ⟨pre', rfl, hpre⟩ := List.dropPrefix?_eq_some_iff.mp hrest
    obtain ⟨post', rfl, hpost⟩ := List.dropSuffix?_eq_some_iff.mp hmid
    rw [eq_of_beq hpre, eq_of_beq hpost]
    split at hsome
    · cases hsome
      rfl
    · cases hsome
  · rintro rfl
    have hpre : (pre ++ (addr.toList ++ post)).dropPrefix? pre = some (addr.toList ++ post) :=
      List.dropPrefix?_eq_some_iff.mpr ⟨pre, rfl, beq_self_eq_true pre⟩
    have hpost : (addr.toList ++ post).dropSuffix? post = some addr.toList :=
      List.dropSuffix?_eq_some_iff.mpr ⟨post, rfl, beq_self_eq_true post⟩
    refine Option.bind_eq_some_iff.mpr ⟨_, hpre, Option.bind_eq_some_iff.mpr ⟨_, hpost, ?_⟩⟩
    rw [dif_pos (Vector.length_toList)]
    rfl

/-- One byte that differs from the pattern is enough to refuse it. -/
theorem bytesBetween_of_ne {pre post : List UInt8} {len : ℕ} {bytes : List UInt8} (i : ℕ)
    (hi : i < pre.length) (hne : bytes[i]? ≠ pre[i]?) : bytesBetween pre post len bytes = none := by
  rw [Option.eq_none_iff_forall_ne_some]
  intro addr h
  rw [bytesBetween_eq_some.mp h, List.getElem?_append_left hi] at hne
  exact hne rfl

/-- A length and the bytes at fixed places pin the bytes around the hash. -/
private theorem exists_between {pre post : List UInt8} {len : ℕ} {bytes : List UInt8} :
    (∃ addr : Vector UInt8 len, bytes = pre ++ (addr.toList ++ post)) ↔
      bytes.length = pre.length + len + post.length ∧
        (∀ i < pre.length, bytes[i]? = pre[i]?) ∧
        ∀ i < post.length, bytes[pre.length + len + i]? = post[i]? := by
  constructor
  · rintro ⟨addr, rfl⟩
    refine ⟨?_, ?_, ?_⟩
    · simp only [List.length_append, Vector.length_toList]
      omega
    · intro i hi
      rw [List.getElem?_append_left hi]
    · intro i _
      rw [← List.append_assoc, List.getElem?_append_right, List.length_append,
        Vector.length_toList, Nat.add_sub_cancel_left]
      rw [List.length_append, Vector.length_toList]
      omega
  · rintro ⟨hlength, hpre, hpost⟩
    refine ⟨⟨((bytes.drop pre.length).take len).toArray, ?_⟩, ?_⟩
    · rw [List.size_toArray, List.length_take, List.length_drop]
      omega
    · have hfirst : bytes.take pre.length = pre := by
        apply List.ext_getElem?
        intro i
        by_cases hi : i < pre.length
        · rw [List.getElem?_take_of_lt hi, hpre i hi]
        · rw [List.getElem?_eq_none (by rw [List.length_take]; omega),
            List.getElem?_eq_none (by omega)]
      have hlast : (bytes.drop pre.length).drop len = post := by
        apply List.ext_getElem?
        intro i
        rw [List.drop_drop, List.getElem?_drop]
        by_cases hi : i < post.length
        · exact hpost i hi
        · rw [List.getElem?_eq_none (by omega), List.getElem?_eq_none (by omega)]
      change bytes = pre ++ ((bytes.drop pre.length).take len ++ post)
      conv_lhs => rw [← List.take_append_drop pre.length bytes, hfirst,
        ← List.take_append_drop len (bytes.drop pre.length), hlast]

/-! ## Scripts -/

/-- The codes of the operations that the scripts below use. -/
inductive OpCode
  | op0
  | opReturn
  | opDup
  | opEqual
  | opEqualVerify
  | opHash160
  | opCheckSig
  deriving DecidableEq

/-- The byte of an operation. -/
def OpCode.toU8 : OpCode → UInt8
  | .op0 => 0x00
  | .opReturn => 0x6a
  | .opDup => 0x76
  | .opEqual => 0x87
  | .opEqualVerify => 0x88
  | .opHash160 => 0xa9
  | .opCheckSig => 0xac

/-- The length of a script that pays to a public key hash. -/
def P2PKH_SCRIPT_SIZE : ℕ := 25

/-- The length of a script that pays to a script hash. -/
def P2SH_SCRIPT_SIZE : ℕ := 23

/-- The length of a script that pays to a witness public key hash. -/
def P2WPKH_V0_SCRIPT_SIZE : ℕ := 22

/-- The length of a script that pays to a witness script hash. -/
def P2WSH_V0_SCRIPT_SIZE : ℕ := 34

/-- The byte that pushes 20 bytes. -/
def HASH160_SIZE_HEX : UInt8 := 0x14

/-- The byte that pushes 32 bytes. -/
def HASH256_SIZE_HEX : UInt8 := 0x20

/-- The length an `OP_RETURN` script can have. -/
def MAX_OPRETURN_SIZE : ℕ := 83

/-- A hash of 20 bytes. -/
abbrev H160 : Type := Vector UInt8 20

/-- A hash of 32 bytes. -/
abbrev H256 : Type := Vector UInt8 32

namespace Script

/-- The empty script. -/
def new : Script := ⟨[]⟩

/-- More bytes at the end of a script. -/
def append (script : Script) (bytes : List UInt8) : Script := ⟨script.bytes ++ bytes⟩

/-- The length of a script. -/
def len (script : Script) : ℕ := script.bytes.length

/-- A script that carries data. The length is cut to one byte. -/
def opReturn (returnContent : List UInt8) : Script :=
  new |>.append [OpCode.opReturn.toU8] |>.append [UInt8.ofNat returnContent.length]
    |>.append returnContent

/-- Whether a script starts and is as long as one that pays to a witness public key hash. -/
def isP2wpkhV0 (script : Script) : Bool :=
  script.len = P2WPKH_V0_SCRIPT_SIZE && script.bytes[0]? = some OpCode.op0.toU8 &&
    script.bytes[1]? = some HASH160_SIZE_HEX

/-- Whether a script starts and is as long as one that pays to a witness script hash. -/
def isP2wshV0 (script : Script) : Bool :=
  script.len = P2WSH_V0_SCRIPT_SIZE && script.bytes[0]? = some OpCode.op0.toU8 &&
    script.bytes[1]? = some HASH256_SIZE_HEX

/-- Whether a script has the fixed bytes of one that pays to a public key hash. -/
def isP2pkh (script : Script) : Bool :=
  script.len = P2PKH_SCRIPT_SIZE && script.bytes[0]? = some OpCode.opDup.toU8 &&
    script.bytes[1]? = some OpCode.opHash160.toU8 && script.bytes[2]? = some HASH160_SIZE_HEX &&
    script.bytes[23]? = some OpCode.opEqualVerify.toU8 &&
    script.bytes[24]? = some OpCode.opCheckSig.toU8

/-- Whether a script has the fixed bytes of one that pays to a script hash. -/
def isP2sh (script : Script) : Bool :=
  script.len = P2SH_SCRIPT_SIZE && script.bytes[0]? = some OpCode.opHash160.toU8 &&
    script.bytes[1]? = some HASH160_SIZE_HEX && script.bytes[22]? = some OpCode.opEqual.toU8

/-- The data that a script carries after its code and the length of the data. The second byte
is there whenever the bytes after it are. -/
def extractOpReturnData (script : Script) : Except BitcoinError (List UInt8) := do
  let first ← okOr .endOfFile script.bytes[0]?
  if first ≠ OpCode.opReturn.toU8 then .error .malformedOpReturnOutput
  else if MAX_OPRETURN_SIZE < script.bytes.length then .error .malformedOpReturnOutput
  else do
    let result ← okOr .endOfFile
      (if 2 ≤ script.bytes.length then some (script.bytes.drop 2) else none)
    let length ← okOr .endOfFile script.bytes[1]?
    if result.length ≠ length.toNat then .error .malformedOpReturnOutput else .ok result

end Script

/-! ## Addresses -/

/-- An address is the kind of a script and the hash that the script pays to. -/
inductive Address
  | p2pkh (hash : H160)
  | p2sh (hash : H160)
  | p2wpkhv0 (hash : H160)
  | p2wshv0 (hash : H256)
  deriving DecidableEq

namespace Address

/-- The length of the longest script below. -/
def MAX_ADDRESS_BYTES : ℕ := HASH256_SIZE_HEX.toNat + 2

/-- The address a script pays to, by the first kind that fits. -/
def fromScriptPubKey (script : Script) : Except BitcoinError Address :=
  if MAX_ADDRESS_BYTES < script.bytes.length then .error .invalidBtcAddress
  else
    match bytesBetween [OpCode.opDup.toU8, OpCode.opHash160.toU8, HASH160_SIZE_HEX]
      [OpCode.opEqualVerify.toU8, OpCode.opCheckSig.toU8] 20 script.bytes with
    | some addr => .ok (.p2pkh addr)
    | none =>
    match bytesBetween [OpCode.opHash160.toU8, HASH160_SIZE_HEX] [OpCode.opEqual.toU8] 20
      script.bytes with
    | some addr => .ok (.p2sh addr)
    | none =>
    match bytesBetween [OpCode.op0.toU8, HASH256_SIZE_HEX] [] 32 script.bytes with
    | some addr => .ok (.p2wshv0 addr)
    | none =>
    match bytesBetween [OpCode.op0.toU8, HASH160_SIZE_HEX] [] 20 script.bytes with
    | some addr => .ok (.p2wpkhv0 addr)
    | none => .error .invalidBtcAddress

open Script in
/-- The script that pays to an address. -/
def toScriptPubKey : Address → Script
  | .p2pkh pubKeyHash =>
    new |>.append [OpCode.opDup.toU8] |>.append [OpCode.opHash160.toU8]
      |>.append [HASH160_SIZE_HEX] |>.append pubKeyHash.toList
      |>.append [OpCode.opEqualVerify.toU8] |>.append [OpCode.opCheckSig.toU8]
  | .p2sh scriptHash =>
    new |>.append [OpCode.opHash160.toU8] |>.append [HASH160_SIZE_HEX]
      |>.append scriptHash.toList |>.append [OpCode.opEqual.toU8]
  | .p2wpkhv0 pubKeyHash =>
    new |>.append [OpCode.op0.toU8] |>.append [HASH160_SIZE_HEX] |>.append pubKeyHash.toList
  | .p2wshv0 scriptHash =>
    new |>.append [OpCode.op0.toU8] |>.append [HASH256_SIZE_HEX] |>.append scriptHash.toList

/-- The fixed bytes before the hash of an address, and those after it. -/
def fixedBytes : Address → List UInt8 × List UInt8
  | .p2pkh _ => ([0x76, 0xa9, 0x14], [0x88, 0xac])
  | .p2sh _ => ([0xa9, 0x14], [0x87])
  | .p2wpkhv0 _ => ([0x00, 0x14], [])
  | .p2wshv0 _ => ([0x00, 0x20], [])

/-- The hash of an address. -/
def hashBytes : Address → List UInt8
  | .p2pkh hash | .p2sh hash | .p2wpkhv0 hash => hash.toList
  | .p2wshv0 hash => hash.toList

private theorem toScriptPubKey_eq (a : Address) :
    a.toScriptPubKey = ⟨a.fixedBytes.1 ++ (a.hashBytes ++ a.fixedBytes.2)⟩ := by
  cases a with
  | p2pkh hash => simp [toScriptPubKey, Script.append, fixedBytes, hashBytes]; rfl
  | p2sh hash => simp [toScriptPubKey, Script.append, fixedBytes, hashBytes]; rfl
  | p2wpkhv0 hash => simp [toScriptPubKey, Script.append, fixedBytes, hashBytes]; rfl
  | p2wshv0 hash => simp [toScriptPubKey, Script.append, fixedBytes, hashBytes]; rfl

/-- An address is read from its own script and from no other. -/
theorem fromScriptPubKey_eq_ok {script : Script} {a : Address} :
    fromScriptPubKey script = .ok a ↔ script = a.toScriptPubKey := by
  constructor
  · intro h
    rw [toScriptPubKey_eq]
    unfold fromScriptPubKey at h
    split_ifs at h
    split at h
    · next addr heq => cases h; exact congrArg Script.mk (bytesBetween_eq_some.mp heq)
    split at h
    · next addr heq => cases h; exact congrArg Script.mk (bytesBetween_eq_some.mp heq)
    split at h
    · next addr heq => cases h; exact congrArg Script.mk (bytesBetween_eq_some.mp heq)
    split at h
    · next addr heq => cases h; exact congrArg Script.mk (bytesBetween_eq_some.mp heq)
    · cases h
  · rintro rfl
    rw [toScriptPubKey_eq, fromScriptPubKey, if_neg (by
      cases a <;> simp [MAX_ADDRESS_BYTES, fixedBytes, hashBytes, HASH256_SIZE_HEX])]
    cases a with
    | p2pkh hash =>
      have hread := (@bytesBetween_eq_some [0x76, 0xa9, 0x14] [0x88, 0xac] 20 _ hash).mpr rfl
      simp only [fixedBytes, hashBytes, OpCode.toU8, HASH160_SIZE_HEX, hread]
    | p2sh hash =>
      have hread := (@bytesBetween_eq_some [0xa9, 0x14] [0x87] 20 _ hash).mpr rfl
      simp only [fixedBytes, hashBytes, OpCode.toU8, HASH160_SIZE_HEX, hread]
      rw [bytesBetween_of_ne 0 (by decide) (by simp)]
    | p2wshv0 hash =>
      have hread := (@bytesBetween_eq_some [0x00, 0x20] [] 32 _ hash).mpr rfl
      simp only [fixedBytes, hashBytes, OpCode.toU8, HASH256_SIZE_HEX, HASH160_SIZE_HEX, hread]
      rw [bytesBetween_of_ne 0 (by decide) (by simp), bytesBetween_of_ne 0 (by decide) (by simp)]
    | p2wpkhv0 hash =>
      have hread := (@bytesBetween_eq_some [0x00, 0x14] [] 20 _ hash).mpr rfl
      simp only [fixedBytes, hashBytes, OpCode.toU8, HASH256_SIZE_HEX, HASH160_SIZE_HEX, hread]
      rw [bytesBetween_of_ne 0 (by decide) (by simp), bytesBetween_of_ne 0 (by decide) (by simp),
        bytesBetween_of_ne 1 (by decide) (by simp)]

private theorem toScriptPubKey_injective : Function.Injective toScriptPubKey := by
  intro a b h
  have ha : fromScriptPubKey a.toScriptPubKey = .ok a := fromScriptPubKey_eq_ok.mpr rfl
  rw [h, fromScriptPubKey_eq_ok.mpr rfl] at ha
  cases ha
  rfl

/-- The first byte of a script that carries data begins no address. -/
theorem toScriptPubKey_ne_opReturn {a : Address} {data : List UInt8} :
    a.toScriptPubKey ≠ Script.opReturn data := by
  intro h
  have hbytes := congrArg Script.bytes h
  cases a with
  | p2pkh hash => exact absurd (List.cons.inj hbytes).1 (by decide)
  | p2sh hash => exact absurd (List.cons.inj hbytes).1 (by decide)
  | p2wpkhv0 hash => exact absurd (List.cons.inj hbytes).1 (by decide)
  | p2wshv0 hash => exact absurd (List.cons.inj hbytes).1 (by decide)

end Address

/-! ## Kinds of scripts -/

namespace Script

variable {script : Script}

private theorem eq_mk_iff {bytes : List UInt8} : script = ⟨bytes⟩ ↔ script.bytes = bytes := by
  cases script
  exact mk.injEq _ _ ▸ Iff.rfl

private theorem isP2pkh_iff : script.isP2pkh ↔ ∃ hash, script =
    (Address.p2pkh hash).toScriptPubKey := by
  simp only [Address.toScriptPubKey_eq, Address.fixedBytes, Address.hashBytes, eq_mk_iff]
  rw [exists_between]
  simp only [isP2pkh, Bool.and_eq_true, decide_eq_true_eq, List.length_cons, List.length_nil,
    Nat.forall_lt_succ_right]
  simp [len, OpCode.toU8, HASH160_SIZE_HEX, P2PKH_SCRIPT_SIZE, and_assoc]

private theorem isP2sh_iff : script.isP2sh ↔ ∃ hash, script = (Address.p2sh hash).toScriptPubKey :=
    by
  simp only [Address.toScriptPubKey_eq, Address.fixedBytes, Address.hashBytes, eq_mk_iff]
  rw [exists_between]
  simp only [isP2sh, Bool.and_eq_true, decide_eq_true_eq, List.length_cons, List.length_nil,
    Nat.forall_lt_succ_right]
  simp [len, OpCode.toU8, HASH160_SIZE_HEX, P2SH_SCRIPT_SIZE, and_assoc]

private theorem isP2wpkhV0_iff : script.isP2wpkhV0 ↔ ∃ hash, script =
    (Address.p2wpkhv0 hash).toScriptPubKey := by
  simp only [Address.toScriptPubKey_eq, Address.fixedBytes, Address.hashBytes, eq_mk_iff]
  rw [exists_between]
  simp only [isP2wpkhV0, Bool.and_eq_true, decide_eq_true_eq, List.length_cons, List.length_nil,
    Nat.forall_lt_succ_right]
  simp [len, OpCode.toU8, HASH160_SIZE_HEX, P2WPKH_V0_SCRIPT_SIZE, and_assoc]

private theorem isP2wshV0_iff : script.isP2wshV0 ↔ ∃ hash, script =
    (Address.p2wshv0 hash).toScriptPubKey := by
  simp only [Address.toScriptPubKey_eq, Address.fixedBytes, Address.hashBytes, eq_mk_iff]
  rw [exists_between]
  simp only [isP2wshV0, Bool.and_eq_true, decide_eq_true_eq, List.length_cons, List.length_nil,
    Nat.forall_lt_succ_right]
  simp [len, OpCode.toU8, HASH256_SIZE_HEX, P2WSH_V0_SCRIPT_SIZE, and_assoc]

/-- Data that is carried is all that a script holds, after its code and the length of the data. -/
theorem extractOpReturnData_eq_ok {data : List UInt8} :
    script.extractOpReturnData = .ok data ↔
      script = opReturn data ∧ data.length + 2 ≤ MAX_OPRETURN_SIZE := by
  unfold extractOpReturnData
  constructor
  · intro h
    obtain ⟨first, hfirst, h⟩ := except_bind_eq_ok.mp h
    split_ifs at h with hcode hsize htwo
    · obtain ⟨result, hresult, h⟩ := except_bind_eq_ok.mp h
      obtain ⟨length, hlength, h⟩ := except_bind_eq_ok.mp h
      split_ifs at h with hdata
      cases h
      rw [okOr_eq_ok] at hfirst hresult hlength
      rcases script with ⟨_ | ⟨b, _ | ⟨l, rest⟩⟩⟩
      · cases hfirst
      · cases hlength
      · cases hfirst
        cases hlength
        cases hresult
        rw [not_ne_iff] at hcode hdata
        refine ⟨?_, Nat.le_of_not_lt hsize⟩
        have hlength : UInt8.ofNat rest.length = length :=
          (congrArg UInt8.ofNat hdata).trans UInt8.ofNat_toNat
        change (⟨first :: length :: rest⟩ : Script) =
          ⟨OpCode.opReturn.toU8 :: UInt8.ofNat rest.length :: rest⟩
        rw [hcode, hlength]
    · obtain ⟨result, hresult, -⟩ := except_bind_eq_ok.mp h
      cases hresult
  · rintro ⟨rfl, hsize⟩
    have hbytes : (opReturn data).bytes.length = data.length + 2 := rfl
    have hlength : (UInt8.ofNat data.length).toNat = data.length := by
      rw [UInt8.toNat_ofNat', Nat.mod_eq_of_lt]
      exact (by omega : data.length < data.length + 2).trans_le (hsize.trans (by decide))
    refine except_bind_eq_ok.mpr ⟨OpCode.opReturn.toU8, rfl, ?_⟩
    rw [if_neg (not_not.mpr rfl), hbytes, if_neg (Nat.not_lt.mpr hsize),
      if_pos (Nat.le_add_left 2 data.length)]
    refine except_bind_eq_ok.mpr ⟨data, rfl, except_bind_eq_ok.mpr ⟨_, rfl, ?_⟩⟩
    · rw [if_neg (not_not.mpr hlength.symm)]

/-- Whether a script carries `OP_RETURN` data. -/
def isOpReturn (script : Script) : Bool := script.extractOpReturnData.isOk

private theorem isOpReturn_iff : script.isOpReturn ↔
    ∃ data, script = opReturn data ∧ data.length + 2 ≤ MAX_OPRETURN_SIZE := by
  simp only [← extractOpReturnData_eq_ok]
  unfold isOpReturn
  cases script.extractOpReturnData with
  | error e => exact ⟨fun h => (nomatch h), fun ⟨_, h⟩ => (nomatch h)⟩
  | ok data => exact ⟨fun _ => ⟨data, rfl⟩, fun _ => rfl⟩

/-- The kinds of scripts that are told apart. -/
def recognisers : List (Script → Bool) := [isP2pkh, isP2sh, isP2wpkhV0, isP2wshV0, isOpReturn]

/-- Two scripts of different kinds differ in one of their first two bytes. -/
theorem recognisers_exclusive :
    recognisers.Pairwise fun f g => ∀ script, ¬ (f script ∧ g script) := by
  simp only [recognisers, List.pairwise_cons, List.mem_cons, List.not_mem_nil, or_false,
    forall_eq_or_imp, forall_eq, isP2pkh_iff, isP2sh_iff, isP2wpkhV0_iff, isP2wshV0_iff,
    isOpReturn_iff]
  refine ⟨⟨?_, ?_, ?_, ?_⟩, ⟨?_, ?_, ?_⟩, ⟨?_, ?_⟩, ?_, fun _ h => h.elim, .nil⟩
  · exact fun _ ⟨⟨_, h⟩, _, h'⟩ => nomatch Address.toScriptPubKey_injective (h.symm.trans h')
  · exact fun _ ⟨⟨_, h⟩, _, h'⟩ => nomatch Address.toScriptPubKey_injective (h.symm.trans h')
  · exact fun _ ⟨⟨_, h⟩, _, h'⟩ => nomatch Address.toScriptPubKey_injective (h.symm.trans h')
  · exact fun _ ⟨⟨_, h⟩, _, h', _⟩ => Address.toScriptPubKey_ne_opReturn (h.symm.trans h')
  · exact fun _ ⟨⟨_, h⟩, _, h'⟩ => nomatch Address.toScriptPubKey_injective (h.symm.trans h')
  · exact fun _ ⟨⟨_, h⟩, _, h'⟩ => nomatch Address.toScriptPubKey_injective (h.symm.trans h')
  · exact fun _ ⟨⟨_, h⟩, _, h', _⟩ => Address.toScriptPubKey_ne_opReturn (h.symm.trans h')
  · exact fun _ ⟨⟨_, h⟩, _, h'⟩ => nomatch Address.toScriptPubKey_injective (h.symm.trans h')
  · exact fun _ ⟨⟨_, h⟩, _, h', _⟩ => Address.toScriptPubKey_ne_opReturn (h.symm.trans h')
  · exact fun _ ⟨⟨_, h⟩, _, h', _⟩ => Address.toScriptPubKey_ne_opReturn (h.symm.trans h')

end Script

/-! ## Outputs -/

namespace TransactionOutput

/-- An output that pays to an address. -/
def payment (value : Int64) (address : Address) : TransactionOutput :=
  ⟨value, address.toScriptPubKey⟩

/-- An output that carries data. -/
def opReturn (value : Int64) (returnContent : List UInt8) : TransactionOutput :=
  ⟨value, Script.opReturn returnContent⟩

/-- The address an output pays to. -/
def extractAddress (output : TransactionOutput) : Except BitcoinError Address :=
  Address.fromScriptPubKey output.script

/-- An address is extracted from the payments to it. -/
theorem extractAddress_eq_ok {output : TransactionOutput} {address : Address} :
    output.extractAddress = .ok address ↔ output = payment output.value address := by
  rcases output with ⟨value, script⟩
  rw [extractAddress, Address.fromScriptPubKey_eq_ok, payment, mk.injEq]
  exact (and_iff_right rfl).symm

end TransactionOutput

/-- Addresses and the scripts that pay to them correspond one to one, and no script is of two
kinds. The checks of the script kinds say what is read. -/
theorem Address.scripts_correspond :
    (∀ a : Address, fromScriptPubKey a.toScriptPubKey = .ok a) ∧
    (∀ script a, fromScriptPubKey script = .ok a → a.toScriptPubKey = script) ∧
    (∀ script script' a, fromScriptPubKey script = .ok a → fromScriptPubKey script' = .ok a →
      script = script') ∧
    (Script.recognisers.Pairwise fun f g => ∀ script, ¬ (f script ∧ g script)) ∧
    ∀ script : Script,
      (script.isP2pkh ↔ ∃ hash, fromScriptPubKey script = .ok (.p2pkh hash)) ∧
      (script.isP2sh ↔ ∃ hash, fromScriptPubKey script = .ok (.p2sh hash)) ∧
      (script.isP2wpkhV0 ↔ ∃ hash, fromScriptPubKey script = .ok (.p2wpkhv0 hash)) ∧
      (script.isP2wshV0 ↔ ∃ hash, fromScriptPubKey script = .ok (.p2wshv0 hash)) := by
  refine ⟨?_, ?_, ?_, Script.recognisers_exclusive, ?_⟩
  · intro a
    exact fromScriptPubKey_eq_ok.mpr rfl
  · intro script a h
    exact (fromScriptPubKey_eq_ok.mp h).symm
  · intro script script' a h h'
    rw [fromScriptPubKey_eq_ok.mp h, fromScriptPubKey_eq_ok.mp h']
  · intro script
    simp only [fromScriptPubKey_eq_ok]
    exact ⟨Script.isP2pkh_iff, Script.isP2sh_iff, Script.isP2wpkhV0_iff, Script.isP2wshV0_iff⟩

end Interbtc
