import StashiWallet.KeyFiles

/-!
# A call that is stopped

What a stopped `open_encrypted_db_with_migration` leaves is opened again by a later call with the
same passphrase as long as no file is left incomplete, and no database is left under a derived
key whose salt has not been written (`Settled`). The two branches that write a salt do so in
different orders: a new database comes after its salt, the key of a database that is moved comes
before it.
-/

namespace StashiWallet

section Stops

variable {F D : Type} [DecidableEq F]

/-- What a write puts into the salt file. -/
def FileWrite.saltBytes : FileWrite F → Option Bytes
  | .salt bytes => some bytes
  | _ => none

/-- What a write puts into the file of the sealed key. -/
def FileWrite.sealedBytes : FileWrite F → Option Bytes
  | .sealedKey bytes => some bytes
  | _ => none

/-- The key a write changes the database to. -/
def FileWrite.rekeyedTo : FileWrite F → Option F
  | .rekey key => some key
  | _ => none

/-- Where a call may be stopped: the salt file and the file of the sealed key are complete if
they were begun, and a database that was moved to another key is back under its old key or the
salt has been written. -/
structure Settled (legacy : Option F) (taken : List (FileWrite F)) : Prop where
  salt : ∀ bytes, (taken.filterMap FileWrite.saltBytes).getLast? = some bytes → bytes.length = 32
  sealedKey : ∀ bytes, (taken.filterMap FileWrite.sealedBytes).getLast? = some bytes →
    ∃ sealedKey, SealedKey.deserialize bytes = .ok sealedKey
  rekeyed : ∀ key, (taken.filterMap FileWrite.rekeyedTo).getLast? = some key →
    key ∈ legacy ∨ taken.filterMap FileWrite.saltBytes ≠ []

/-- The call opens a database with these contents. -/
def Reopens (keys : DbKeys F) (empty : D) (later : OpenCall F) (contents : D)
    (files : KeyFiles F D) : Prop :=
  ∃ key, (files.openEncryptedDb keys later).2 = .ok key ∧
    (files.after empty (files.openEncryptedDb keys later).1).database = some (key, contents)

/-- The stored sealed key, if there is one, can be read. -/
def KeyFiles.SealedReadable (files : KeyFiles F D) : Prop :=
  ∀ data, files.sealedKey = some data → ∃ sealedKey, SealedKey.deserialize data = .ok sealedKey

/-- The files a call may start from: a database under the key of its salt, a database without a
salt under the key of earlier versions, or nothing; with or without a sealed key, of this or any
other key. -/
structure KeyFiles.Openable (keys : DbKeys F) (files : KeyFiles F D) : Prop where
  salted : ∀ salt, files.salt = some salt →
    salt.length = 32 ∧ ∃ data, files.database = some (keys.derive salt, data)
  unsalted : files.salt = none → ∀ key data, files.database = some (key, data) →
    keys.legacy = some key
  readable : files.SealedReadable

/-- A call that is not stopped, writes its salt, and whose keystore, if there is one, answers. -/
structure OpenCall.RunsThrough (call : OpenCall F) : Prop where
  salt : call.saltFault = none
  answers : ∀ keystore, call.keystore = some keystore → ∀ sealedKey,
    (∃ key, keystore.unsealKey sealedKey = .success key) ∨
      keystore.unsealKey sealedKey = .notAvailable

/-! ## The files after some writes -/

omit [DecidableEq F] in
theorem after_append (empty : D) (first second : List (FileWrite F)) (files : KeyFiles F D) :
    files.after empty (first ++ second) = (files.after empty first).after empty second :=
  List.foldl_append

omit [DecidableEq F] in
theorem after_salt (empty : D) (states : List Bytes) (files : KeyFiles F D) :
    files.after empty (states.map FileWrite.salt) =
      { files with salt := states.getLast?.or files.salt } := by
  induction states using List.reverseRecOn with
  | nil => rfl
  | append_singleton states bytes ih =>
    rw [List.map_append, after_append, ih, List.getLast?_concat]
    rfl

omit [DecidableEq F] in
theorem after_sealedKey (empty : D) (states : List Bytes) (files : KeyFiles F D) :
    files.after empty (states.map FileWrite.sealedKey) =
      { files with sealedKey := states.getLast?.or files.sealedKey } := by
  induction states using List.reverseRecOn with
  | nil => rfl
  | append_singleton states bytes ih =>
    rw [List.map_append, after_append, ih, List.getLast?_concat]
    rfl

theorem prefix_append_cases {α : Type} {taken first second : List α}
    (h : taken <+: first ++ second) :
    taken <+: first ∨ ∃ rest, taken = first ++ rest ∧ rest <+: second := by
  rcases List.prefix_or_prefix_of_prefix h (List.prefix_append first second) with hle | hle
  · exact Or.inl hle
  · obtain ⟨rest, rfl⟩ := hle
    exact Or.inr ⟨rest, rfl, (List.prefix_append_right_inj first).mp h⟩

/-- The states of a file that is written are beginnings of it. -/
theorem prefix_of_mem_fsWrite {fault : Option Nat} {data state : Bytes}
    (h : state ∈ (fsWrite fault data).1) : state <+: data := by
  unfold fsWrite at h
  split at h
  · exact (List.mem_inits _ _).mp h
  · exact (List.mem_inits _ _).mp (List.mem_of_mem_dropLast (List.mem_of_mem_take h))

theorem getLast?_inits (data : Bytes) : data.inits.getLast? = some data := by
  rw [List.getLast?_eq_getElem?, List.length_inits, Nat.add_sub_cancel,
    List.getElem?_eq_getElem (by rw [List.length_inits]; omega), List.getElem_inits,
    List.take_length]

omit [DecidableEq F] in
/-- What `maybe_store_sealed_db_key` writes are states of the file of the sealed key. -/
theorem maybeStoreSealedDbKey_eq (call : OpenCall F) (key : F) (files : KeyFiles F D) :
    ∃ states : List Bytes,
      files.maybeStoreSealedDbKey call key = states.map FileWrite.sealedKey := by
  unfold KeyFiles.maybeStoreSealedDbKey
  split
  · exact ⟨[], rfl⟩
  · split
    · exact ⟨[], rfl⟩
    · split
      · exact ⟨[], rfl⟩
      · exact ⟨_, rfl⟩

omit [DecidableEq F] in
theorem prefix_maybeStore {call : OpenCall F} {key : F} {files : KeyFiles F D}
    {taken : List (FileWrite F)} (h : taken <+: files.maybeStoreSealedDbKey call key) :
    ∃ states : List Bytes, taken = states.map FileWrite.sealedKey := by
  obtain ⟨states, hstates⟩ := maybeStoreSealedDbKey_eq call key files
  rw [hstates] at h
  obtain ⟨begun, -, rfl⟩ := List.prefix_map_iff.mp h
  exact ⟨begun, rfl⟩

/-! ## What a later call does -/

variable {keys : DbKeys F} {empty : D} {later : OpenCall F} {files : KeyFiles F D}

omit [DecidableEq F] in
/-- A readable sealed key is no obstacle. -/
theorem unsealed_eq_ok (hlater : later.RunsThrough) (hread : files.SealedReadable) :
    ∃ unsealed, files.unsealed later.keystore = .ok unsealed := by
  unfold KeyFiles.unsealed
  split
  · exact ⟨none, rfl⟩
  · rename_i data hdata
    obtain ⟨sealedKey, hsealed⟩ := hread data hdata
    rw [hsealed]
    show ∃ unsealed, tryUnsealDbKey later.keystore sealedKey = .ok unsealed
    unfold tryUnsealDbKey
    split
    · exact ⟨none, rfl⟩
    · rename_i keystore hkeystore
      rcases hlater.answers keystore hkeystore sealedKey with ⟨key, hkey⟩ | hnone
      · rw [hkey]
        exact ⟨some key, rfl⟩
      · rw [hnone]
        exact ⟨none, rfl⟩

theorem loadSalt_of_length {salt : Bytes} (h : salt.length = 32) : loadSalt salt = .ok salt :=
  if_pos h

omit [DecidableEq F] in
theorem after_maybeStore_database (call : OpenCall F) (key : F) (files base : KeyFiles F D) :
    (base.after empty (files.maybeStoreSealedDbKey call key)).database = base.database := by
  obtain ⟨states, hstates⟩ := maybeStoreSealedDbKey_eq call key files
  rw [hstates, after_sealedKey]

/-- Files with a complete salt and a readable sealed key are opened, if the database is under the
key of the salt or does not exist yet. -/
theorem reopens_of_salted (hlater : later.RunsThrough) {salt : Bytes}
    (hsalt : files.salt = some salt) (hlength : salt.length = 32) (hread : files.SealedReadable)
    (hdatabase : ∀ key data, files.database = some (key, data) → key = keys.derive salt) :
    Reopens keys empty later (files.contents empty) files := by
  obtain ⟨unsealed, hunsealed⟩ := unsealed_eq_ok hlater hread
  unfold Reopens KeyFiles.openEncryptedDb
  rw [hsalt]
  dsimp only
  rw [loadSalt_of_length hlength]
  dsimp only
  unfold KeyFiles.openSalted KeyFiles.openDatabase KeyFiles.contents
  rw [hunsealed]
  cases hstored : files.database with
  | none =>
    refine ⟨_, rfl, ?_⟩
    show (files.after empty ([.create _] ++ _)).database = _
    rw [after_append, after_maybeStore_database]
    rfl
  | some stored =>
    obtain ⟨key, data⟩ := stored
    obtain rfl := hdatabase key data hstored
    dsimp only
    by_cases hfits : keys.derive salt = unsealed.getD (keys.derive salt)
    · rw [if_pos hfits]
      refine ⟨_, rfl, ?_⟩
      dsimp only
      rw [List.nil_append, after_maybeStore_database, hstored, ← hfits]
      rfl
    · rw [if_neg hfits, if_pos rfl]
      refine ⟨_, rfl, ?_⟩
      dsimp only
      rw [List.nil_append, after_maybeStore_database, hstored]
      rfl

theorem not_reopens_of_damaged_salt {contents : D} {bytes : Bytes} (hsalt : files.salt = some bytes)
    (hlength : bytes.length ≠ 32) : ¬ Reopens keys empty later contents files := by
  rintro ⟨key, hkey, -⟩
  unfold KeyFiles.openEncryptedDb loadSalt at hkey
  rw [hsalt] at hkey
  dsimp only at hkey
  rw [if_neg hlength] at hkey
  cases hkey

theorem not_reopens_of_damaged_key {contents : D} {salt data : Bytes}
    (hsalt : files.salt = some salt) (hlength : salt.length = 32)
    (hsealed : files.sealedKey = some data)
    (hdamaged : ∀ sealedKey, SealedKey.deserialize data ≠ .ok sealedKey) :
    ¬ Reopens keys empty later contents files := by
  have hunsealed : ∃ message, files.unsealed later.keystore = .error message := by
    unfold KeyFiles.unsealed
    rw [hsealed]
    cases hread : SealedKey.deserialize data with
    | error message => exact ⟨message, by dsimp only; rw [hread]; rfl⟩
    | ok sealedKey => exact absurd hread (hdamaged sealedKey)
  obtain ⟨message, hmessage⟩ := hunsealed
  rintro ⟨key, hkey, -⟩
  unfold KeyFiles.openEncryptedDb at hkey
  rw [hsalt] at hkey
  dsimp only at hkey
  rw [loadSalt_of_length hlength] at hkey
  dsimp only at hkey
  unfold KeyFiles.openSalted at hkey
  rw [hmessage] at hkey
  cases hkey

/-- Without a salt, a database is opened under the key of earlier versions only. -/
theorem reopens_unsalted_iff (hlater : later.RunsThrough) (hsalt : files.salt = none) {key : F}
    {data : D} (hdatabase : files.database = some (key, data)) :
    Reopens keys empty later data files ↔ keys.legacy = some key := by
  unfold Reopens KeyFiles.openEncryptedDb fsWrite
  rw [hsalt, hdatabase, hlater.salt]
  dsimp only
  cases hlegacy : keys.legacy with
  | none =>
    refine iff_of_false ?_ nofun
    rintro ⟨_, h, -⟩
    cases h
  | some legacy =>
    dsimp only
    by_cases hsame : key = legacy
    · subst hsame
      rw [if_neg (not_not.mpr rfl), if_pos rfl]
      refine iff_of_true ⟨_, rfl, ?_⟩ rfl
      show (files.after empty ([.rekey _] ++ _ ++ _)).database = _
      rw [after_append, after_append, after_maybeStore_database, after_salt]
      show (files.database.map (fun db => (_, db.2))) = _
      rw [hdatabase]
      rfl
    · rw [if_pos hsame]
      refine iff_of_false ?_ (fun heq => hsame (Option.some.inj heq).symm)
      rintro ⟨_, h, -⟩
      cases h

/-- Where there is nothing, a new database is made. -/
theorem reopens_nothing (hlater : later.RunsThrough) (hsalt : files.salt = none)
    (hdatabase : files.database = none) : Reopens keys empty later empty files := by
  unfold Reopens KeyFiles.openEncryptedDb fsWrite
  rw [hsalt, hdatabase, hlater.salt]
  dsimp only
  rw [if_pos rfl]
  refine ⟨_, rfl, ?_⟩
  dsimp only
  rw [after_append, after_append, after_maybeStore_database, after_salt]
  rfl

/-! ## The kinds of writes of a list -/

omit [DecidableEq F]

theorem filterMap_salt (states : List Bytes) :
    (states.map (@FileWrite.salt F)).filterMap FileWrite.saltBytes = states ∧
    (states.map (@FileWrite.salt F)).filterMap FileWrite.sealedBytes = [] ∧
    (states.map (@FileWrite.salt F)).filterMap FileWrite.rekeyedTo = [] := by
  simp [List.filterMap_map, Function.comp_def, FileWrite.saltBytes, FileWrite.sealedBytes,
    FileWrite.rekeyedTo]

theorem filterMap_sealedKey (states : List Bytes) :
    (states.map (@FileWrite.sealedKey F)).filterMap FileWrite.saltBytes = [] ∧
    (states.map (@FileWrite.sealedKey F)).filterMap FileWrite.sealedBytes = states ∧
    (states.map (@FileWrite.sealedKey F)).filterMap FileWrite.rekeyedTo = [] := by
  simp [List.filterMap_map, Function.comp_def, FileWrite.saltBytes, FileWrite.sealedBytes,
    FileWrite.rekeyedTo]

/-- Writes that do not reach the sealed key. -/
theorem settled_unsealed_iff {legacy : Option F} {taken : List (FileWrite F)} {salts : List Bytes}
    {moved : List F} (hsealed : taken.filterMap FileWrite.sealedBytes = [])
    (hsalts : taken.filterMap FileWrite.saltBytes = salts)
    (hmoved : taken.filterMap FileWrite.rekeyedTo = moved) :
    Settled legacy taken ↔ (∀ bytes, salts.getLast? = some bytes → bytes.length = 32) ∧
      ∀ key, moved.getLast? = some key → key ∈ legacy ∨ salts ≠ [] := by
  subst hsalts hmoved
  refine ⟨fun h => ⟨h.salt, h.rekeyed⟩, fun h => ⟨h.1, fun bytes hbytes => ?_, h.2⟩⟩
  rw [hsealed] at hbytes
  cases hbytes

/-- Salts that are written leave only themselves to settle. -/
theorem settled_salts_iff {legacy : Option F} (states : List Bytes) :
    Settled legacy (states.map FileWrite.salt) ↔
      ∀ bytes, states.getLast? = some bytes → bytes.length = 32 := by
  obtain ⟨hsalts, hnoSealed, hnoRekey⟩ := @filterMap_salt F states
  rw [settled_unsealed_iff hnoSealed hsalts hnoRekey]
  simp

/-- A new key before the salt has to wait for the salt, unless it is the old one. -/
theorem settled_moving_iff {legacy : Option F} (key : F) (states : List Bytes) :
    Settled legacy (.rekey key :: states.map FileWrite.salt) ↔
      (∀ bytes, states.getLast? = some bytes → bytes.length = 32) ∧
        (key ∈ legacy ∨ states ≠ []) := by
  obtain ⟨hsalts, hnoSealed, hnoRekey⟩ := @filterMap_salt F states
  have hmoved : (FileWrite.rekey key :: states.map FileWrite.salt).filterMap FileWrite.rekeyedTo =
      [key] := congrArg (key :: ·) hnoRekey
  rw [@settled_unsealed_iff F legacy (.rekey key :: states.map .salt) states [key] hnoSealed hsalts
    hmoved]
  simp

/-- With the old key back, only the salt has to be complete. -/
theorem settled_restored_iff {legacy moved : F} (states : List Bytes) :
    Settled (some legacy) (.rekey moved :: states.map FileWrite.salt ++ [.rekey legacy]) ↔
      ∀ bytes, states.getLast? = some bytes → bytes.length = 32 := by
  obtain ⟨hsalts, hnoSealed, hnoRekey⟩ := @filterMap_salt F states
  have hmoved : (FileWrite.rekey moved :: states.map FileWrite.salt ++
      [FileWrite.rekey legacy]).filterMap FileWrite.rekeyedTo = [moved, legacy] := by
    rw [List.filterMap_append]
    exact congrArg (moved :: · ++ [legacy]) hnoRekey
  rw [@settled_unsealed_iff F _ _ states [moved, legacy] ?_ ?_ hmoved]
  · simp
  · rw [List.filterMap_append]
    exact congrArg (· ++ []) hnoSealed
  · rw [List.filterMap_append]
    exact (congrArg (· ++ []) hsalts).trans (List.append_nil states)

/-- A list of writes that ends with the file of the sealed key is settled if that file is
complete. -/
theorem settled_sealing_iff {legacy : Option F} {head : List (FileWrite F)} {states : List Bytes}
    (hsealed : head.filterMap FileWrite.sealedBytes = [])
    (hsalt : ∀ bytes, (head.filterMap FileWrite.saltBytes).getLast? = some bytes →
      bytes.length = 32)
    (hrekeyed : head.filterMap FileWrite.rekeyedTo = [] ∨
      head.filterMap FileWrite.saltBytes ≠ []) :
    Settled legacy (head ++ states.map FileWrite.sealedKey) ↔
      ∀ bytes, states.getLast? = some bytes →
        ∃ sealedKey, SealedKey.deserialize bytes = .ok sealedKey := by
  obtain ⟨hnoSalt, hstates, hnoRekey⟩ := @filterMap_sealedKey F states
  constructor
  · intro h bytes hbytes
    refine h.sealedKey bytes ?_
    rwa [List.filterMap_append, hsealed, hstates, List.nil_append]
  · intro h
    refine ⟨fun bytes hbytes => ?_, fun bytes hbytes => ?_, fun key hkey => ?_⟩
    · rw [List.filterMap_append, hnoSalt, List.append_nil] at hbytes
      exact hsalt bytes hbytes
    · rw [List.filterMap_append, hsealed, hstates, List.nil_append] at hbytes
      exact h bytes hbytes
    · rw [List.filterMap_append, hnoRekey, List.append_nil] at hkey
      rw [List.filterMap_append, hnoSalt, List.append_nil]
      refine Or.inr (hrekeyed.resolve_left (fun hnone => ?_))
      rw [hnone] at hkey
      cases hkey

/-! ## Every start and every stop -/

variable [DecidableEq F] {call : OpenCall F}

/-- Once salt and key agree, only an incomplete sealed key keeps a later call from opening the
database. -/
theorem reopens_sealing_iff (hlater : later.RunsThrough) {salt : Bytes}
    (hsalt : files.salt = some salt) (hlength : salt.length = 32) (hread : files.SealedReadable)
    (hdatabase : ∀ key data, files.database = some (key, data) → key = keys.derive salt)
    (states : List Bytes) :
    Reopens keys empty later (files.contents empty)
        { files with sealedKey := states.getLast?.or files.sealedKey } ↔
      ∀ bytes, states.getLast? = some bytes →
        ∃ sealedKey, SealedKey.deserialize bytes = .ok sealedKey := by
  constructor
  · intro hreopens bytes hbytes
    by_contra hdamaged
    have hstored : states.getLast?.or files.sealedKey = some bytes := by
      rw [hbytes]
      rfl
    refine absurd hreopens (not_reopens_of_damaged_key hsalt hlength hstored ?_)
    exact fun sealedKey hsealed => hdamaged ⟨sealedKey, hsealed⟩
  · intro hcomplete
    refine @reopens_of_salted F D _ keys empty later
      { files with sealedKey := states.getLast?.or files.sealedKey } hlater salt hsalt hlength ?_
      hdatabase
    intro data hdata
    change states.getLast?.or files.sealedKey = some data at hdata
    cases hlast : states.getLast? with
    | none =>
      rw [hlast] at hdata
      exact hread data hdata
    | some bytes =>
      rw [hlast] at hdata
      obtain rfl := Option.some.inj hdata
      exact hcomplete bytes hlast

/-- A salt that was begun is read back once it is complete. -/
theorem reopens_begun_iff (hlater : later.RunsThrough) (hread : files.SealedReadable)
    (hdatabase : ∀ key data, files.database = some (key, data) → key = keys.derive call.newSalt)
    {bytes : Bytes} (hbytes : bytes <+: call.newSalt) :
    Reopens keys empty later (files.contents empty) { files with salt := some bytes } ↔
      bytes.length = 32 := by
  constructor
  · intro hreopens
    by_contra hlength
    exact not_reopens_of_damaged_salt rfl hlength hreopens
  · intro hlength
    obtain rfl := hbytes.eq_of_length (hlength.trans call.newSalt_length.symm)
    exact @reopens_of_salted F D _ keys empty later { files with salt := some call.newSalt } hlater
      call.newSalt rfl hlength hread hdatabase

/-- While the salt of a database that was moved is written, the database is lost. -/
theorem reopens_moving_iff (hlater : later.RunsThrough) (hsalt : files.salt = none)
    (hread : files.SealedReadable) {data : D}
    (hdatabase : files.database = some (keys.derive call.newSalt, data)) {states : List Bytes}
    (hstates : ∀ state ∈ states, state <+: call.newSalt) :
    Reopens keys empty later data { files with salt := states.getLast?.or files.salt } ↔
      Settled keys.legacy (.rekey (keys.derive call.newSalt) :: states.map FileWrite.salt) := by
  rw [settled_moving_iff]
  cases hlast : states.getLast? with
  | none =>
    obtain rfl := List.getLast?_eq_none_iff.mp hlast
    change Reopens keys empty later data files ↔ _
    rw [reopens_unsalted_iff hlater hsalt hdatabase]
    simp
  | some bytes =>
    have hmem : bytes ∈ states := List.mem_of_getLast? hlast
    have hcontents : files.contents empty = data := by simp [KeyFiles.contents, hdatabase]
    have hbegun := @reopens_begun_iff F D keys empty later files _ call hlater hread
      (fun key found hfound => by simp_all) bytes (hstates bytes hmem)
    rw [hcontents] at hbegun
    simpa [List.ne_nil_of_mem hmem] using hbegun

/-- A file that was written is complete. -/
theorem fsWrite_whole {fault : Option Nat} {data : Bytes} (h : (fsWrite fault data).2 = true) :
    (fsWrite fault data).1.getLast? = some data := by
  cases fault with
  | none => exact getLast?_inits data
  | some count => cases h

/-- **A database under the key of its salt.** The call only stores a sealed key. -/
theorem reopens_salted_iff (hlater : later.RunsThrough) {salt : Bytes}
    (hsalt : files.salt = some salt) (hlength : salt.length = 32) (hread : files.SealedReadable)
    {data : D} (hdatabase : files.database = some (keys.derive salt, data))
    {taken : List (FileWrite F)} (htaken : taken <+: (files.openEncryptedDb keys call).1) :
    Reopens keys empty later (files.contents empty) (files.after empty taken) ↔
      Settled keys.legacy taken := by
  have hkey : ∀ key found, files.database = some (key, found) → key = keys.derive salt := by
    intro key found hfound
    rw [hdatabase] at hfound
    exact (Prod.mk.inj (Option.some.inj hfound)).1.symm
  obtain ⟨states, rfl⟩ : ∃ states : List Bytes, taken = states.map FileWrite.sealedKey := by
    unfold KeyFiles.openEncryptedDb at htaken
    rw [hsalt] at htaken
    dsimp only at htaken
    rw [loadSalt_of_length hlength] at htaken
    dsimp only at htaken
    unfold KeyFiles.openSalted KeyFiles.openDatabase at htaken
    rw [hdatabase] at htaken
    split at htaken
    · exact ⟨[], List.prefix_nil.mp htaken⟩
    · dsimp only at htaken
      split at htaken
      · rename_i writes hwrites
        obtain rfl : writes = [] := by
          split at hwrites
          · exact (Option.some.inj hwrites).symm
          · cases hwrites
        exact prefix_maybeStore htaken
      · rw [if_pos rfl] at htaken
        exact prefix_maybeStore htaken
  rw [after_sealedKey, reopens_sealing_iff hlater hsalt hlength hread hkey]
  exact (@settled_sealing_iff F keys.legacy [] states rfl (fun bytes hbytes => by cases hbytes)
    (Or.inl rfl)).symm

theorem length_lt_of_mem_dropLast_inits {state bytes : Bytes} (h : state ∈ bytes.inits.dropLast) :
    state.length < bytes.length := by
  obtain ⟨i, hi, rfl⟩ := List.mem_iff_getElem.mp h
  rw [List.length_dropLast, List.length_inits, Nat.add_sub_cancel] at hi
  rw [List.getElem_dropLast, List.getElem_inits, List.length_take]
  omega

/-- A salt that could not be written and the old key again: fine only if the file was not even
created. -/
theorem reopens_restored_iff (hlater : later.RunsThrough) (hsalt : files.salt = none) {legacy : F}
    (hlegacy : keys.legacy = some legacy) {data : D}
    (hdatabase : files.database = some (legacy, data)) {moved : F} {states : List Bytes}
    (hstates : ∀ state ∈ states, state.length ≠ 32) :
    Reopens keys empty later data { files with salt := states.getLast?.or files.salt } ↔
      Settled keys.legacy
        (.rekey moved :: states.map FileWrite.salt ++ [.rekey legacy]) := by
  rw [hlegacy, settled_restored_iff]
  cases hlast : states.getLast? with
  | none =>
    change Reopens keys empty later data files ↔ _
    rw [reopens_unsalted_iff hlater hsalt hdatabase]
    simp [hlegacy]
  | some bytes =>
    have hlength := hstates bytes (List.mem_of_getLast? hlast)
    refine iff_of_false (not_reopens_of_damaged_salt rfl hlength) ?_
    exact fun hsettled => hlength (hsettled bytes rfl)

/-- **A database of an earlier version.** Its key is changed first, the salt written second. -/
theorem reopens_legacy_iff (hlater : later.RunsThrough) (hsalt : files.salt = none)
    (hread : files.SealedReadable) {legacy : F} (hlegacy : keys.legacy = some legacy) {data : D}
    (hdatabase : files.database = some (legacy, data)) {taken : List (FileWrite F)}
    (htaken : taken <+: (files.openEncryptedDb keys call).1) :
    Reopens keys empty later data (files.after empty taken) ↔ Settled keys.legacy taken := by
  -- the files after the key was changed and some states of the salt were written
  have hmoved : ∀ states : List Bytes, files.after empty
      (FileWrite.rekey (keys.derive call.newSalt) :: states.map FileWrite.salt) =
      { files with
        database := some (keys.derive call.newSalt, data)
        salt := states.getLast?.or files.salt } := by
    intro states
    show KeyFiles.after empty (states.map FileWrite.salt)
      { files with database := files.database.map _ } = _
    rw [after_salt, hdatabase]
    rfl
  have hbegun : ∀ {begun : List (FileWrite F)},
      begun <+: FileWrite.rekey (keys.derive call.newSalt) ::
        (fsWrite call.saltFault call.newSalt).1.map FileWrite.salt →
      (Reopens keys empty later data (files.after empty begun) ↔ Settled keys.legacy begun) := by
    intro begun hstart
    rcases List.prefix_cons_iff.mp hstart with rfl | ⟨rest, rfl, hrest⟩
    · change Reopens keys empty later data files ↔ _
      rw [reopens_unsalted_iff hlater hsalt hdatabase]
      exact iff_of_true hlegacy ((settled_salts_iff []).mpr nofun)
    · obtain ⟨states, hstates, rfl⟩ := List.prefix_map_iff.mp hrest
      rw [hmoved]
      exact @reopens_moving_iff F D keys empty later
        { files with database := some (keys.derive call.newSalt, data) } _ call hlater hsalt hread
        data rfl states (fun state hmem => prefix_of_mem_fsWrite (hstates.subset hmem))
  unfold KeyFiles.openEncryptedDb at htaken
  rw [hsalt, hdatabase, hlegacy] at htaken
  dsimp only at htaken
  rw [if_neg (not_not.mpr rfl)] at htaken
  split at htaken
  · rename_i hwritten
    rcases prefix_append_cases htaken with htaken | ⟨rest, rfl, hrest⟩
    · exact hbegun htaken
    · -- the salt is complete, and the sealed key follows
      obtain ⟨sealing, rfl⟩ := prefix_maybeStore hrest
      have hstates := fsWrite_whole hwritten
      have hsaved : (FileWrite.rekey (keys.derive call.newSalt) ::
          (fsWrite call.saltFault call.newSalt).1.map FileWrite.salt).filterMap
            FileWrite.saltBytes = (fsWrite call.saltFault call.newSalt).1 := by
        rw [List.filterMap_cons_none rfl, (filterMap_salt _).1]
      rw [after_append, hmoved, after_sealedKey, settled_sealing_iff ?_ ?_ (Or.inr ?_), hstates]
      · have hiff := @reopens_sealing_iff F D keys empty later
          { files with
            database := some (keys.derive call.newSalt, data)
            salt := some call.newSalt } _ hlater call.newSalt rfl call.newSalt_length hread (by
              intro key found hfound
              exact (Prod.mk.inj (Option.some.inj hfound)).1.symm) sealing
        exact hiff
      · rw [List.filterMap_cons_none rfl, (filterMap_salt _).2.1]
      · intro bytes hbytes
        rw [hsaved, hstates] at hbytes
        obtain rfl := Option.some.inj hbytes
        exact call.newSalt_length
      · rw [hsaved]
        intro hnil
        rw [hnil] at hstates
        cases hstates
  · rename_i hwritten
    rcases prefix_append_cases htaken with htaken | ⟨rest, rfl, hrest⟩
    · exact hbegun htaken
    · split at hrest
      · rw [List.prefix_nil.mp hrest, List.append_nil]
        exact hbegun (List.prefix_refl _)
      · rcases List.prefix_cons_iff.mp hrest with rfl | ⟨rest, rfl, hnil⟩
        · rw [List.append_nil]
          exact hbegun (List.prefix_refl _)
        · rw [List.prefix_nil.mp hnil]
          rw [after_append, hmoved]
          refine @reopens_restored_iff F D keys empty later
            { files with database := some (legacy, data) } _ hlater hsalt legacy hlegacy data rfl
            (keys.derive call.newSalt) (fsWrite call.saltFault call.newSalt).1 ?_
          intro state hmem
          unfold fsWrite at hmem hwritten
          split at hmem
          · rename_i hfault
            rw [hfault] at hwritten
            exact absurd rfl hwritten
          · have hlt := length_lt_of_mem_dropLast_inits (List.mem_of_mem_take hmem)
            rw [call.newSalt_length] at hlt
            exact hlt.ne

/-- **Nothing yet.** The salt of a new database is written before the database is made. -/
theorem reopens_new_iff (hlater : later.RunsThrough) (hsalt : files.salt = none)
    (hread : files.SealedReadable) (hdatabase : files.database = none)
    {taken : List (FileWrite F)} (htaken : taken <+: (files.openEncryptedDb keys call).1) :
    Reopens keys empty later empty (files.after empty taken) ↔ Settled keys.legacy taken := by
  have hbegun : ∀ {begun : List (FileWrite F)},
      begun <+: (fsWrite call.saltFault call.newSalt).1.map FileWrite.salt →
      (Reopens keys empty later empty (files.after empty begun) ↔ Settled keys.legacy begun) := by
    intro begun hstart
    obtain ⟨states, hstates, rfl⟩ := List.prefix_map_iff.mp hstart
    have hcontents : files.contents empty = empty := by simp [KeyFiles.contents, hdatabase]
    rw [after_salt, settled_salts_iff]
    cases hlast : states.getLast? with
    | none => exact iff_of_true (reopens_nothing hlater hsalt hdatabase) nofun
    | some bytes =>
      have hsaved := @reopens_begun_iff F D keys empty later files _ call hlater hread
        (fun key found hfound => by simp_all) bytes
        (prefix_of_mem_fsWrite (hstates.subset (List.mem_of_getLast? hlast)))
      rw [hcontents] at hsaved
      simpa using hsaved
  unfold KeyFiles.openEncryptedDb at htaken
  rw [hsalt, hdatabase] at htaken
  dsimp only at htaken
  split at htaken
  · rename_i hwritten
    have hstates := fsWrite_whole hwritten
    rw [List.append_assoc] at htaken
    rcases prefix_append_cases htaken with htaken | ⟨rest, rfl, hrest⟩
    · exact hbegun htaken
    · rcases List.prefix_cons_iff.mp hrest with rfl | ⟨rest, rfl, hsealing⟩
      · rw [List.append_nil]
        exact hbegun (List.prefix_refl _)
      · -- the database is made, and the sealed key follows
        obtain ⟨sealing, rfl⟩ := prefix_maybeStore hsealing
        have hsaved : ((fsWrite call.saltFault call.newSalt).1.map FileWrite.salt ++
            [FileWrite.create (keys.derive call.newSalt)]).filterMap FileWrite.saltBytes =
            (fsWrite call.saltFault call.newSalt).1 := by
          rw [List.filterMap_append, (filterMap_salt _).1]
          exact List.append_nil _
        have hmade : files.after empty ((fsWrite call.saltFault call.newSalt).1.map FileWrite.salt ++
            [FileWrite.create (keys.derive call.newSalt)]) =
            { files with
              database := some (keys.derive call.newSalt, empty)
              salt := some call.newSalt } := by
          rw [after_append, after_salt, hstates]
          rfl
        rw [List.append_cons, after_append, hmade, after_sealedKey,
          settled_sealing_iff ?_ ?_ (Or.inl ?_)]
        · exact @reopens_sealing_iff F D keys empty later
            { files with
              database := some (keys.derive call.newSalt, empty)
              salt := some call.newSalt } _ hlater call.newSalt rfl call.newSalt_length hread (by
                intro key found hfound
                exact (Prod.mk.inj (Option.some.inj hfound)).1.symm) sealing
        · rw [List.filterMap_append, (filterMap_salt _).2.1]
          rfl
        · intro bytes hbytes
          rw [hsaved, hstates] at hbytes
          obtain rfl := Option.some.inj hbytes
          exact call.newSalt_length
        · rw [List.filterMap_append, (filterMap_salt _).2.2]
          rfl
  · exact hbegun htaken

/-- **A later call opens what a stopped call leaves exactly if the call was not stopped inside
one of the two files, nor between the new key of the database and its salt.** -/
theorem stopped_open_reopens_iff (hfiles : files.Openable keys) (hlater : later.RunsThrough)
    {taken : List (FileWrite F)} (htaken : taken <+: (files.openEncryptedDb keys call).1) :
    Reopens keys empty later (files.contents empty) (files.after empty taken) ↔
      Settled keys.legacy taken := by
  cases hsalt : files.salt with
  | some salt =>
    obtain ⟨hlength, data, hdatabase⟩ := hfiles.salted salt hsalt
    exact reopens_salted_iff hlater hsalt hlength hfiles.readable hdatabase htaken
  | none =>
    unfold KeyFiles.contents
    cases hdatabase : files.database with
    | none => exact reopens_new_iff hlater hsalt hfiles.readable hdatabase htaken
    | some stored =>
      obtain ⟨key, data⟩ := stored
      have hlegacy := hfiles.unsalted hsalt key data hdatabase
      exact reopens_legacy_iff hlater hsalt hfiles.readable hlegacy hdatabase htaken

end Stops

/-- A call on a platform without a keystore. -/
def plainCall (salt : Bytes) (h : salt.length = 32) : OpenCall Bytes :=
  ⟨salt, h, none, none, false, none⟩

theorem plainCall_runsThrough (salt : Bytes) (h : salt.length = 32) :
    (plainCall salt h).RunsThrough :=
  ⟨rfl, nofun⟩

/-- A database of an earlier version, under the key it had there. -/
def legacyFiles : KeyFiles Bytes Nat := ⟨some ([7], 5), none, none⟩

/-- Every salt is its own key. -/
def plainKeys : DbKeys Bytes := ⟨id, some [7]⟩

theorem legacyFiles_openable : legacyFiles.Openable plainKeys where
  salted := nofun
  unsalted := by
    rintro - key data ⟨⟩
    rfl
  readable := nofun

/-- A database of an earlier version that was moved completely. -/
theorem moved_legacy_reopens :
    Reopens plainKeys 0 (plainCall (List.replicate 32 2) rfl) 5
      (legacyFiles.after 0
        (legacyFiles.openEncryptedDb plainKeys (plainCall (List.replicate 32 1) rfl)).1) := by
  refine (stopped_open_reopens_iff legacyFiles_openable (plainCall_runsThrough _ _)
    (List.prefix_refl _)).mpr ⟨?_, ?_, ?_⟩
  · intro bytes hbytes
    obtain rfl : List.replicate 32 1 = bytes := Option.some.inj hbytes
    rfl
  · rintro _ ⟨⟩
  · rintro key -
    exact Or.inr (by decide)

/-- Stopped right after the key was changed, it is lost: the salt was in memory only. -/
theorem stopped_after_rekey_lost :
    legacyFiles.Openable plainKeys ∧
    (plainCall (List.replicate 32 2) rfl).RunsThrough ∧
    [.rekey (List.replicate 32 1)] <+:
      (legacyFiles.openEncryptedDb plainKeys (plainCall (List.replicate 32 1) rfl)).1 ∧
    ¬ Reopens plainKeys 0 (plainCall (List.replicate 32 2) rfl) (legacyFiles.contents 0)
      (legacyFiles.after 0 [.rekey (List.replicate 32 1)]) := by
  refine ⟨legacyFiles_openable, plainCall_runsThrough _ _, ⟨_, rfl⟩, ?_⟩
  rintro ⟨key, hkey, -⟩
  cases hkey

end StashiWallet
