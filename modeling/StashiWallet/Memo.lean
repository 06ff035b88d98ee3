import Mathlib.Algebra.Order.Ring.Nat
import Mathlib.Data.List.DropRight
import StashiWallet.SpendingProtection

/-!
# Memos

A memo travels in a field of 512 bytes. A text is padded with zeros, and the padding is removed
when the field is read; bytes that are no text are kept as they are. Outputs of a transaction get
their field from another encoder, which is given a memo's bytes without padding.
-/

namespace StashiWallet

inductive MemoError where
  | invalidMemo (message : String)
  | memoTooLong (message : String)
deriving DecidableEq, Repr

inductive Memo where
  | empty
  | text (text : String)
  | arbitrary (bytes : Bytes)
deriving DecidableEq, Repr

def maxMemoLength : Nat := 512

/-- `char::is_control`: the general category `Cc`. -/
def isControl (c : Char) : Bool := c.toNat < 0x20 || (0x7f ≤ c.toNat && c.toNat ≤ 0x9f)

/-- What `is_valid_memo_text` asks of a character. -/
def isMemoChar (c : Char) : Bool := c == '\n' || c == '\t' || c == '\r' || !isControl c

namespace Memo

def trimPadding (bytes : Bytes) : Bytes := bytes.rdropWhile (· == 0)

def isValidMemoText (text : String) : Bool := text.toList.all isMemoChar

def fromText (text : String) : Except MemoError Memo :=
  if text = "" then .ok .empty
  else if !isValidMemoText text then
    .error (.invalidMemo
      "Memo contains invalid characters (control characters not allowed)")
  else if maxMemoLength < text.utf8ByteSize then
    .error (.memoTooLong
      s!"Memo is {text.utf8ByteSize} bytes, maximum is {maxMemoLength} bytes")
  else .ok (.text text)

/-- The loop of `truncate_to_bytes`, with the length of what it has pushed. -/
def pushChars (maxBytes : Nat) : Nat → List Char → List Char
  | _, [] => []
  | len, c :: rest =>
    if maxBytes < len + c.utf8Size then [] else c :: pushChars maxBytes (len + c.utf8Size) rest

def truncateToBytes (text : String) (maxBytes : Nat) : String :=
  if text.utf8ByteSize ≤ maxBytes then text
  else String.ofList (pushChars maxBytes 0 text.toList)

def fromTextTruncated (text : String) : Memo :=
  if text = "" then .empty
  else
    let filtered := String.ofList ((truncateToBytes text maxMemoLength).toList.filter isMemoChar)
    if filtered = "" then .empty else .text filtered

/-- `Vec::resize` with zeros. -/
def resize (bytes : Bytes) (length : Nat) : Bytes :=
  bytes.take length ++ List.replicate (length - bytes.length) 0

def content : Memo → Bytes
  | .empty => []
  | .text string => asBytes string
  | .arbitrary bytes => bytes

def encode (memo : Memo) : Bytes := resize memo.content maxMemoLength

def decode (bytes : Bytes) : Except MemoError Memo :=
  if bytes.length ≠ maxMemoLength then
    .error (.invalidMemo s!"Memo must be exactly {maxMemoLength} bytes")
  else
    let data := trimPadding bytes
    if data = [] then .ok .empty
    else
      match fromUtf8 data with
      | some string =>
        if isValidMemoText string then .ok (.text string) else .ok (.arbitrary data)
      | none => .ok (.arbitrary data)

end Memo

/-- `MemoBytes` of the protocol library: the field without a memo, and the field of a content, or
why there is none. -/
structure MemoBytes where
  empty : Bytes
  fromBytes : Bytes → Except String Bytes

/-- What is documented of the field: no memo is the byte `0xF6` and zeros, and a content that fits
is padded with zeros. -/
structure MemoBytes.Documented (field : MemoBytes) : Prop where
  empty : field.empty = 0xF6 :: List.replicate 511 0
  padded : ∀ bytes : Bytes, bytes.length ≤ 512 →
    field.fromBytes bytes = .ok (bytes ++ List.replicate (512 - bytes.length) 0)

def Memo.toMemoBytes (field : MemoBytes) : Memo → Except MemoError Bytes
  | .empty => .ok field.empty
  | .text string =>
    (field.fromBytes (asBytes string)).mapError fun e => .invalidMemo s!"Invalid memo: {e}"
  | .arbitrary bytes =>
    (field.fromBytes bytes).mapError fun e => .invalidMemo s!"Invalid memo bytes: {e}"

namespace Memo

/-! ## Padding -/

theorem resize_trimPadding {bytes : Bytes} (h : bytes.length = maxMemoLength) :
    resize (trimPadding bytes) maxMemoLength = bytes := by
  have hsplit : trimPadding bytes ++ bytes.rtakeWhile (· == 0) = bytes :=
    List.rdropWhile_append_rtakeWhile
  have hpadding : bytes.rtakeWhile (· == 0) =
      List.replicate (bytes.rtakeWhile (· == 0)).length 0 := by
    refine List.eq_replicate_of_mem fun byte hbyte => ?_
    have hzero := @List.mem_rtakeWhile_imp _ (· == 0) bytes byte hbyte
    exact eq_of_beq hzero
  have hlength := congrArg List.length hsplit
  rw [List.length_append, h] at hlength
  unfold resize
  rw [List.take_of_length_le (by omega), ← hlength, Nat.add_sub_cancel_left, ← hpadding, hsplit]

/-- Content without zeros is what is left of its field. -/
theorem trimPadding_padded {bytes : Bytes} (h : 0 ∉ bytes) (n : Nat) :
    trimPadding (bytes ++ List.replicate n 0) = bytes := by
  unfold trimPadding
  induction n with
  | zero =>
    rw [List.replicate_zero, List.append_nil, List.rdropWhile_eq_self_iff]
    intro hne hzero
    exact h (eq_of_beq hzero ▸ List.getLast_mem hne)
  | succ n ih =>
    rw [List.replicate_succ', ← List.append_assoc, List.rdropWhile_concat_pos _ _ _ (by decide), ih]

theorem resize_of_le {bytes : Bytes} {length : Nat} (h : bytes.length ≤ length) :
    resize bytes length = bytes ++ List.replicate (length - bytes.length) 0 := by
  unfold resize
  rw [List.take_of_length_le h]

theorem length_padded {bytes : Bytes} (h : bytes.length ≤ maxMemoLength) :
    (bytes ++ List.replicate (maxMemoLength - bytes.length) 0).length = maxMemoLength := by
  rw [List.length_append, List.length_replicate]
  omega

/-! ## UTF-8 -/

theorem asBytes_of_fromUtf8 {bytes : Bytes} {text : String} (h : fromUtf8 bytes = some text) :
    asBytes text = bytes := by
  unfold fromUtf8 String.fromUTF8? at h
  split at h
  · obtain rfl := Option.some.inj h
    rfl
  · cases h

theorem length_asBytes (text : String) : (asBytes text).length = text.utf8ByteSize := rfl

theorem asBytes_eq (text : String) : asBytes text = text.toList.flatMap String.utf8EncodeChar := by
  unfold asBytes
  rw [String.toUTF8_eq_toByteArray, ← String.utf8Encode_toList]
  unfold List.utf8Encode
  rw [List.data_toByteArray]

/-- Only the character NUL has a zero byte. -/
theorem zero_mem_utf8EncodeChar {c : Char} (h : 0 ∈ String.utf8EncodeChar c) : c.toNat = 0 := by
  have hrange : c.val.toNat < 1114112 := by
    rcases c.valid with hlow | ⟨-, hhigh⟩
    · exact hlow.trans (by decide)
    · exact hhigh
  have hzero : ∀ {n : Nat}, (0 : UInt8) = UInt8.ofNat n → n % 256 = 0 := by
    intro n hn
    have hn := congrArg UInt8.toNat hn
    rw [UInt8.toNat_ofNat'] at hn
    exact hn.symm
  show c.val.toNat = 0
  unfold String.utf8EncodeChar at h
  dsimp only at h
  split at h
  · have hbyte := hzero (List.mem_singleton.mp h)
    omega
  · -- the bytes of a longer encoding are marked in their high bits
    exfalso
    split at h
    · simp only [List.mem_cons, List.not_mem_nil, or_false] at h
      rcases h with hbyte | hbyte
      all_goals
        have hbyte := hzero hbyte
        omega
    · split at h
      · simp only [List.mem_cons, List.not_mem_nil, or_false] at h
        rcases h with hbyte | hbyte | hbyte
        all_goals
          have hbyte := hzero hbyte
          omega
      · simp only [List.mem_cons, List.not_mem_nil, or_false] at h
        rcases h with hbyte | hbyte | hbyte | hbyte
        all_goals
          have hbyte := hzero hbyte
          omega

theorem zero_not_mem_asBytes {text : String} (h : isValidMemoText text = true) :
    0 ∉ asBytes text := by
  rw [asBytes_eq, List.mem_flatMap]
  rintro ⟨c, hc, hzero⟩
  have hchar := List.all_eq_true.mp h c hc
  have hnul : c = '\x00' := by
    have hcode := zero_mem_utf8EncodeChar hzero
    exact Char.ext (UInt32.toNat_inj.mp hcode)
  rw [hnul] at hchar
  cases hchar

theorem asBytes_ne_nil {text : String} (h : text ≠ "") : asBytes text ≠ [] := by
  intro hnil
  have hback := fromUtf8_asBytes text
  rw [hnil] at hback
  exact h (Option.some.inj (hback.symm.trans (fromUtf8_asBytes "")))

/-! ## What is accepted -/

theorem fromText_eq_ok {text : String} {memo : Memo} :
    fromText text = .ok memo ↔ (text = "" ∧ memo = .empty) ∨
      (text ≠ "" ∧ isValidMemoText text = true ∧ text.utf8ByteSize ≤ maxMemoLength ∧
        memo = .text text) := by
  unfold fromText
  split
  · rename_i hempty
    constructor
    · intro h
      exact .inl ⟨hempty, (Except.ok.inj h).symm⟩
    · rintro (⟨-, rfl⟩ | ⟨hne, -⟩)
      · rfl
      · exact absurd hempty hne
  · rename_i hne
    split
    · rename_i hinvalid
      refine iff_of_false nofun ?_
      rintro (⟨hempty, -⟩ | ⟨-, hvalid, -⟩)
      · exact hne hempty
      · rw [hvalid] at hinvalid
        cases hinvalid
    · rename_i hvalid
      split
      · rename_i hlong
        refine iff_of_false nofun ?_
        rintro (⟨hempty, -⟩ | ⟨-, -, hfits, -⟩)
        · exact hne hempty
        · omega
      · rename_i hfits
        constructor
        · intro h
          refine .inr ⟨hne, by simpa using hvalid, by omega, (Except.ok.inj h).symm⟩
        · rintro (⟨hempty, -⟩ | ⟨-, -, -, rfl⟩)
          · exact absurd hempty hne
          · rfl

/-! ## Reading a field -/

/-- A field is what its memo is written as. -/
theorem decode_encode {bytes : Bytes} (h : bytes.length = maxMemoLength) :
    ∃ memo, decode bytes = .ok memo ∧ memo.content = trimPadding bytes := by
  unfold decode
  rw [if_neg (not_not_intro h)]
  dsimp only
  split
  · rename_i hempty
    exact ⟨.empty, rfl, hempty.symm⟩
  · split
    · rename_i text hutf8
      split
      · exact ⟨.text text, rfl, asBytes_of_fromUtf8 hutf8⟩
      · exact ⟨.arbitrary _, rfl, rfl⟩
    · exact ⟨.arbitrary _, rfl, rfl⟩

/-- The field of a text that is accepted reads as the text. -/
theorem decode_padded {text : String} (hne : text ≠ "") (hvalid : isValidMemoText text = true)
    (hfits : text.utf8ByteSize ≤ maxMemoLength) :
    decode (asBytes text ++ List.replicate (maxMemoLength - (asBytes text).length) 0) =
      .ok (.text text) := by
  unfold decode
  rw [if_neg (not_not_intro (length_padded (length_asBytes text ▸ hfits)))]
  dsimp only
  rw [trimPadding_padded (zero_not_mem_asBytes hvalid), if_neg (asBytes_ne_nil hne),
    fromUtf8_asBytes]
  dsimp only
  rw [if_pos hvalid]

theorem decode_encode_empty : decode Memo.empty.encode = .ok .empty := by
  have htrim : trimPadding (resize [] maxMemoLength) = [] := by
    rw [resize_of_le (Nat.zero_le _)]
    exact trimPadding_padded List.not_mem_nil _
  have hlength : (resize [] maxMemoLength).length = maxMemoLength := by
    rw [resize_of_le (Nat.zero_le _)]
    exact length_padded (Nat.zero_le _)
  unfold encode content decode
  dsimp only
  rw [if_neg (not_not_intro hlength), htrim, if_pos rfl]

/-! ## Cutting a text -/

theorem pushChars_prefix (maxBytes len : Nat) (chars : List Char) :
    pushChars maxBytes len chars <+: chars := by
  induction chars generalizing len with
  | nil => exact List.prefix_rfl
  | cons c rest ih =>
    unfold pushChars
    split
    · exact List.nil_prefix
    · exact List.cons_prefix_cons.mpr ⟨rfl, ih _⟩

theorem size_pushChars (maxBytes len : Nat) (chars : List Char) (h : len ≤ maxBytes) :
    len + ((pushChars maxBytes len chars).map Char.utf8Size).sum ≤ maxBytes := by
  induction chars generalizing len with
  | nil => exact h
  | cons c rest ih =>
    unfold pushChars
    split
    · exact h
    · rename_i hfits
      have hrest := ih (len + c.utf8Size) (by omega)
      rw [List.map_cons, List.sum_cons]
      omega

theorem sum_filter_le (keep : Char → Bool) (chars : List Char) :
    ((chars.filter keep).map Char.utf8Size).sum ≤ (chars.map Char.utf8Size).sum := by
  induction chars with
  | nil => exact Nat.le_refl _
  | cons c rest ih =>
    rw [List.map_cons, List.sum_cons, List.filter_cons]
    split
    · rw [List.map_cons, List.sum_cons]
      omega
    · omega

theorem utf8ByteSize_ofList (chars : List Char) :
    (String.ofList chars).utf8ByteSize = (chars.map Char.utf8Size).sum := by
  rw [← length_asBytes, asBytes_eq, String.toList_ofList, List.length_flatMap]
  congr 1
  exact List.map_congr_left fun c _ => String.length_utf8EncodeChar c

/-- A truncated text is a prefix of the characters that fits. -/
theorem truncateToBytes_spec (text : String) (maxBytes : Nat) :
    (truncateToBytes text maxBytes).toList <+: text.toList ∧
      (truncateToBytes text maxBytes).utf8ByteSize ≤ maxBytes := by
  unfold truncateToBytes
  split
  · rename_i hfits
    exact ⟨List.prefix_rfl, hfits⟩
  · rw [String.toList_ofList, utf8ByteSize_ofList]
    have hsize := size_pushChars maxBytes 0 text.toList (Nat.zero_le _)
    exact ⟨ pushChars_prefix _ _ _, by omega⟩

theorem fromText_truncated (text : String) :
    fromText (String.ofList
        ((truncateToBytes text maxMemoLength).toList.filter isMemoChar)) =
      .ok (fromTextTruncated text) := by
  rw [fromText_eq_ok]
  unfold fromTextTruncated
  split
  · rename_i hempty
    rw [hempty]
    exact .inl ⟨rfl, rfl⟩
  · dsimp only
    split
    · rename_i hfiltered
      exact .inl ⟨hfiltered, rfl⟩
    · rename_i hfiltered
      refine .inr ⟨hfiltered, ?_, ?_, rfl⟩
      · unfold isValidMemoText
        rw [String.toList_ofList, List.all_eq_true]
        exact fun c hc => (List.mem_filter.mp hc).2
      · have hfits := (truncateToBytes_spec text maxMemoLength).2
        have hfilter := sum_filter_le isMemoChar (truncateToBytes text maxMemoLength).toList
        rw [utf8ByteSize_ofList]
        rw [← @String.ofList_toList (truncateToBytes text maxMemoLength), utf8ByteSize_ofList] at hfits
        omega

theorem fromUtf8_noMemo : fromUtf8 [0xF6] = none := by decide

theorem decode_noMemo : decode (0xF6 :: List.replicate 511 0) = .ok (.arbitrary [0xF6]) := by
  have htrim : trimPadding (0xF6 :: List.replicate 511 0) = [0xF6] :=
    @trimPadding_padded [0xF6] (by decide) 511
  unfold decode
  rw [if_neg (not_not_intro (by rw [List.length_cons, List.length_replicate]; rfl))]
  dsimp only
  rw [htrim, if_neg (by simp), fromUtf8_noMemo]

/-- Outputs carry a text's own field, and for no memo the byte `0xF6`. -/
theorem toMemoBytes_text {field : MemoBytes} (hfield : field.Documented) {text : String}
    (hfits : text.utf8ByteSize ≤ maxMemoLength) :
    (Memo.text text).toMemoBytes field =
      .ok (asBytes text ++ List.replicate (maxMemoLength - (asBytes text).length) 0) := by
  unfold toMemoBytes
  dsimp only
  rw [hfield.padded (asBytes text) hfits]
  rfl

end Memo

open Memo in
/-- **What survives of a memo.** A field that is read and written again is the same field; an
accepted text is read from its field; a truncated text is accepted, and is what is printable of a
prefix of the characters; and the field of an output reads as its memo exactly when there is one. -/
theorem memo_round_trips (field : MemoBytes) (hfield : field.Documented) :
    (∀ bytes, bytes.length = maxMemoLength →
      ∃ memo, decode bytes = .ok memo ∧ memo.encode = bytes) ∧
    (∀ text memo, fromText text = .ok memo → decode memo.encode = .ok memo) ∧
    (∀ text, ∃ cut, cut <+: text.toList ∧
      fromText (String.ofList (cut.filter isMemoChar)) = .ok (fromTextTruncated text)) ∧
    ∀ text memo, fromText text = .ok memo →
      ((∃ bytes, memo.toMemoBytes field = .ok bytes ∧ decode bytes = .ok memo) ↔ text ≠ "") := by
  refine ⟨fun bytes hlength => ?_, fun text memo hmemo => ?_, fun text => ?_,
    fun text memo hmemo => ?_⟩
  · obtain ⟨memo, hdecode, hcontent⟩ := decode_encode hlength
    refine ⟨memo, hdecode, ?_⟩
    unfold encode
    rw [hcontent, resize_trimPadding hlength]
  · rcases fromText_eq_ok.mp hmemo with ⟨-, rfl⟩ | ⟨hne, hvalid, hfits, rfl⟩
    · exact decode_encode_empty
    · have hlength : (asBytes text).length ≤ maxMemoLength := hfits
      unfold encode content
      dsimp only
      rw [resize_of_le hlength]
      exact decode_padded hne hvalid hfits
  · exact ⟨_, (truncateToBytes_spec text maxMemoLength).1, fromText_truncated text⟩
  · rcases fromText_eq_ok.mp hmemo with ⟨rfl, rfl⟩ | ⟨hne, hvalid, hfits, rfl⟩
    · refine iff_of_false ?_ (fun h => h rfl)
      rintro ⟨bytes, hbytes, hdecode⟩
      obtain rfl := Except.ok.inj hbytes
      rw [hfield.empty, decode_noMemo] at hdecode
      cases hdecode
    · refine iff_of_true ⟨_, toMemoBytes_text hfield hfits, ?_⟩ hne
      exact decode_padded hne hvalid hfits

/-- The field as the protocol library makes it. -/
def protocolField : MemoBytes where
  empty := 0xF6 :: List.replicate 511 0
  fromBytes bytes :=
    if bytes.length ≤ 512 then .ok (bytes ++ List.replicate (512 - bytes.length) 0)
    else .error s!"TooLong({bytes.length})"

theorem protocolField_documented : protocolField.Documented where
  empty := rfl
  padded _ h := if_pos h

theorem memo_round_trips_short :
    Memo.decode ((Memo.text "hi").encode) = .ok (.text "hi") ∧
      ∃ bytes, (Memo.text "hi").toMemoBytes protocolField = .ok bytes ∧
        Memo.decode bytes = .ok (.text "hi") :=
  have h := memo_round_trips protocolField protocolField_documented
  have haccepted : Memo.fromText "hi" = .ok (.text "hi") := by decide
  ⟨h.2.1 "hi" _ haccepted, (h.2.2.2 "hi" _ haccepted).mpr (by decide)⟩

/-- **No memo is not read as no memo** when it was put into an output. -/
theorem empty_memo_reads_arbitrary :
    Memo.fromText "" = .ok .empty ∧
      ((Memo.empty.toMemoBytes protocolField).bind Memo.decode) = .ok (.arbitrary [0xF6]) ∧
      ¬ ∀ text memo, Memo.fromText text = .ok memo →
        ∃ bytes, memo.toMemoBytes protocolField = .ok bytes ∧ Memo.decode bytes = .ok memo := by
  have hbytes : Memo.empty.toMemoBytes protocolField = .ok (0xF6 :: List.replicate 511 0) := rfl
  have haccepted : Memo.fromText "" = .ok .empty := if_pos rfl
  refine ⟨haccepted, ?_, fun hall => ?_⟩
  · have hreads : ∀ bytes, Except.bind (.ok bytes) Memo.decode = Memo.decode bytes := fun _ => rfl
    rw [hbytes, hreads, Memo.decode_noMemo]
  obtain ⟨bytes, hfield, hdecode⟩ := hall "" .empty haccepted
  obtain rfl := Except.ok.inj (hbytes.symm.trans hfield)
  rw [Memo.decode_noMemo] at hdecode
  cases hdecode

end StashiWallet
