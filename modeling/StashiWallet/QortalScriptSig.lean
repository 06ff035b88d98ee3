import StashiWallet.Models
import StashiWallet.ScriptPushes

/-!
# The script that unlocks a P2SH output

The script pushes a signature, the secret when there is one, a selector of the branch, and the
script that the output was locked with. The length of a push has four bytes at most, and a longer
one is cut to them.
-/

namespace StashiWallet

def pushScriptData (script data : Bytes) : Bytes :=
  if data.length ≤ 75 then script ++ [data.length.toUInt8] ++ data
  else if data.length ≤ 0xff then script ++ [0x4c] ++ [data.length.toUInt8] ++ data
  else if data.length ≤ 0xffff then script ++ [0x4d] ++ ByteOrder.lowBytes 2 data.length ++ data
  else script ++ [0x4e] ++ ByteOrder.lowBytes 4 data.length ++ data

def buildP2shScriptSig (sigBytes secret redeemScript : Bytes) : Bytes :=
  if secret.isEmpty then
    let script := pushScriptData [] sigBytes
    let script := pushScriptData script [0x51]
    pushScriptData script redeemScript
  else
    let script := pushScriptData [] sigBytes
    let script := pushScriptData script secret
    let script := pushScriptData script [0x00]
    pushScriptData script redeemScript

/-- What the script is meant to push: for a refund the signature and its selector, for a
redemption the signature, the secret and its selector; then the redeem script. -/
def scriptSigItems (sigBytes secret redeemScript : Bytes) : List Bytes :=
  if secret = [] then [sigBytes, [0x51], redeemScript]
  else [sigBytes, secret, [0x00], redeemScript]

variable {sigBytes secret redeemScript data : Bytes}

/-- A push goes behind what is there. -/
theorem pushScriptData_append (script data : Bytes) :
    pushScriptData script data = script ++ pushScriptData [] data := by
  unfold pushScriptData
  split_ifs
  · simp
  · simp
  · simp
  · simp

theorem buildP2shScriptSig_eq (sigBytes secret redeemScript : Bytes) :
    buildP2shScriptSig sigBytes secret redeemScript =
      ((scriptSigItems sigBytes secret redeemScript).map (pushScriptData [])).flatten := by
  unfold buildP2shScriptSig scriptSigItems
  simp only [List.isEmpty_iff]
  split
  · conv_lhs => rw [pushScriptData_append _ redeemScript, pushScriptData_append _ [0x51]]
    simp
  · conv_lhs => rw [pushScriptData_append _ redeemScript, pushScriptData_append _ [0x00],
      pushScriptData_append _ secret]
    simp

/-- Each of the four opcodes is read back with the data. -/
theorem readPush_pushScriptData (h : data.length < 2 ^ 32) (rest : Bytes) :
    ScriptPushes.readPush (pushScriptData [] data ++ rest) = some (data, rest) := by
  unfold pushScriptData
  split_ifs with hdirect hone htwo
  · have hopcode : data.length.toUInt8.toNat = data.length :=
      UInt8.toNat_ofNat_of_lt' (hdirect.trans_lt (by decide))
    simp only [List.nil_append, List.cons_append, ScriptPushes.readPush]
    rw [hopcode, if_pos hdirect]
    exact ScriptPushes.takeBytes_append data rest
  · have hlength : [data.length.toUInt8] = ByteOrder.lowBytes 1 data.length := rfl
    have hcount : data.length < 256 ^ 1 := by omega
    rw [hlength]
    simp only [List.nil_append, List.append_assoc, List.singleton_append, ScriptPushes.readPush]
    exact ScriptPushes.takeCounted_lowBytes hcount
  · have hcount : data.length < 256 ^ 2 := by omega
    simp only [List.nil_append, List.append_assoc, List.singleton_append, ScriptPushes.readPush]
    exact ScriptPushes.takeCounted_lowBytes hcount
  · have hcount : data.length < 256 ^ 4 := by omega
    simp only [List.nil_append, List.append_assoc, List.singleton_append, ScriptPushes.readPush]
    exact ScriptPushes.takeCounted_lowBytes hcount

theorem stackItems_of_lengths
    (h : ∀ item ∈ scriptSigItems sigBytes secret redeemScript, item.length < 2 ^ 32) :
    ScriptPushes.stackItems (buildP2shScriptSig sigBytes secret redeemScript) =
      some (scriptSigItems sigBytes secret redeemScript) := by
  rw [buildP2shScriptSig_eq]
  exact ScriptPushes.readPushes_flatten
    (fun item hitem rest => readPush_pushScriptData (h item hitem) rest) le_rfl

theorem lengths_of_stackItems
    (h : ScriptPushes.stackItems (buildP2shScriptSig sigBytes secret redeemScript) =
      some (scriptSigItems sigBytes secret redeemScript)) :
    ∀ item ∈ scriptSigItems sigBytes secret redeemScript, item.length < 2 ^ 32 :=
  fun _ hitem => ScriptPushes.length_of_readPushes h hitem

/-- **The script is read back** as what it is meant to push, exactly when four bytes can count each
of its pushes. A push is read back as its data then, whatever follows it. -/
theorem scriptSig_reads_back (sigBytes secret redeemScript : Bytes) :
    (ScriptPushes.stackItems (buildP2shScriptSig sigBytes secret redeemScript) =
        some (scriptSigItems sigBytes secret redeemScript) ↔
      sigBytes.length < 2 ^ 32 ∧ secret.length < 2 ^ 32 ∧ redeemScript.length < 2 ^ 32) ∧
    ∀ data rest, ScriptPushes.readPush (pushScriptData [] data ++ rest) = some (data, rest) ↔
      data.length < 2 ^ 32 := by
  -- a refund pushes a zero in place of the secret
  have hlengths : (∀ item ∈ scriptSigItems sigBytes secret redeemScript, item.length < 2 ^ 32) ↔
      sigBytes.length < 2 ^ 32 ∧ secret.length < 2 ^ 32 ∧ redeemScript.length < 2 ^ 32 := by
    unfold scriptSigItems
    split
    · rename_i hrefund
      subst hrefund
      simp
    · simp
  rw [← hlengths]
  refine ⟨⟨lengths_of_stackItems, stackItems_of_lengths⟩, fun data rest => ?_⟩
  exact ⟨ScriptPushes.length_of_readPush, fun h => readPush_pushScriptData h rest⟩

theorem redeemScript_mem_scriptSigItems :
    redeemScript ∈ scriptSigItems sigBytes secret redeemScript := by
  unfold scriptSigItems
  split
  · simp
  · simp

/-- A DER signature with the byte of its type. -/
def refundSignature : Bytes := [48, 6, 2, 1, 1, 2, 1, 1, 1]

/-- A redeem script of four gibibytes is not read back: its length does not fit the four bytes that
count it. -/
theorem long_script_is_lost :
    ScriptPushes.stackItems
        (buildP2shScriptSig refundSignature [] (List.replicate 4294967296 0)) ≠
      some (scriptSigItems refundSignature [] (List.replicate 4294967296 0)) := by
  intro h
  have hlength := lengths_of_stackItems h _ redeemScript_mem_scriptSigItems
  rw [List.length_replicate] at hlength
  exact absurd hlength (by decide)

example : ScriptPushes.stackItems (buildP2shScriptSig [1, 2] [3] [4, 5, 6]) =
    some [[1, 2], [3], [0x00], [4, 5, 6]] := by decide

end StashiWallet
