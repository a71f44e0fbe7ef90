import UnichainBuilder.Lib.Text
import UnichainBuilder.Flashtestations.Execution

/-! # The stored TEE key

`load_or_generate_tee_key` of `service.rs` and the file functions of
`signer.rs`, on one path that no other process touches. Every operation on the
file may fail; what the file goes through is kept, so that a file written back
as it was still counts as written. -/
namespace UnichainBuilder.Flashtestations.TeeKey
open UnichainBuilder.Lib.RustStd UnichainBuilder.Lib.Bytes UnichainBuilder.Lib.Text
open UnichainBuilder.Block UnichainBuilder.Flashtestations.Execution

abbrev IoError := String

/-- The file at the path: what it holds, and everything it was made to hold. -/
structure Disk where
  content : Option Bytes
  writes : List Bytes := []
  deriving DecidableEq, Repr

def Disk.put (disk : Disk) (bytes : Bytes) : Disk where
  content := some bytes
  writes := disk.writes ++ [bytes]

/-- The order of the group of `secp256k1`. -/
def curveOrder : Nat := 0xFFFFFFFFFFFFFFFFFFFFFFFFFFFFFFFEBAAEDCE6AF48A03BBFD25E8CD0364141

def IsSecret (bytes : B256) : Prop := 0 < bytes.toNat ∧ bytes.toNat < curveOrder

instance (bytes : B256) : Decidable (IsSecret bytes) := inferInstanceAs (Decidable (_ ∧ _))

/-- `hex` and `PrivateKeySigner` of alloy, as far as the key file goes. Which
marks may stand in front of the digits is up to the release. -/
structure Alloy where
  decode : Bytes → Except String Bytes
  fromBytes : B256 → Except String BuilderSigner
  marks : List Bytes
  unmarked : [] ∈ marks
  prefixed : [48, 120] ∈ marks
  plain : ∀ mark ∈ marks, ∀ c ∈ mark,
    c.toNat < 128 ∧ isWhitespace (Char.ofNat c.toNat) = false
  decode_eq_ok : ∀ {input bytes}, decode input = .ok bytes ↔
    ∃ mark ∈ marks, ∃ digits, input = mark ++ digits ∧ decodePairs 0 digits = .ok bytes
  fromBytes_eq_ok : ∀ {bytes signer}, fromBytes bytes = .ok signer ↔
    IsSecret bytes ∧ signer = ⟨bytes⟩

/-- The release that takes `0X` as well. -/
def Alloy.known : Alloy where
  decode input := (Lib.Text.decode input).mapError fun e => match e with
    | .oddLength => "odd number of digits"
    | .invalidHexCharacter _ _ => "invalid character"
  fromBytes bytes := if IsSecret bytes then .ok ⟨bytes⟩ else .error "signature error"
  marks := Lib.Text.marks
  unmarked := by decide
  prefixed := by decide
  plain _ := plain_of_mem_marks
  decode_eq_ok := by
    intro input bytes
    rw [mapError_eq_ok, decode_eq_ok_iff]
  fromBytes_eq_ok := by
    intro bytes signer
    split
    · rename_i h
      rw [Except.ok.injEq, and_iff_right h, eq_comm]
    · rename_i h
      exact iff_of_false (fun h => by cases h) fun h' => h h'.1

/-- What the system and the key generation answer during one call. -/
structure CallEnv where
  statError : Option IoError := none
  readError : Option IoError := none
  openError : Option IoError := none
  /-- How many bytes are written before the error. -/
  writeError : Option (Nat × IoError) := none
  random : {bytes : B256 // IsSecret bytes}
  fromSeed : String → BuilderSigner := fun _ => ⟨random⟩

/-! ## The signer and its file -/

section
variable (alloy : Alloy)

def random (env : CallEnv) : BuilderSigner := ⟨env.random⟩

def tryFromBytes (bytes : B256) : Except Report BuilderSigner :=
  (alloy.fromBytes bytes).mapError .source

/-- `std::fs::read_to_string`. -/
def readToString (env : CallEnv) (disk : Disk) : Except Report (List Char) :=
  match env.readError, disk.content with
  | some e, _ => .error (.source e)
  | none, none => .error (.source "No such file or directory")
  | none, some bytes => match fromUtf8 bytes with
    | some s => .ok s
    | none => .error (.source "stream did not contain valid UTF-8")

/-- `B256::try_from` on a slice. -/
def b256TryFrom (slice : Bytes) : Except Report B256 :=
  match ofSlice slice with
  | some bytes => .ok bytes
  | none => .error (.source "could not convert slice to array")

def hexDecode (s : List Char) : Except Report Bytes := (alloy.decode (utf8 s)).mapError .source

def pathExists (env : CallEnv) (disk : Disk) : Bool :=
  disk.content.isSome && env.statError.isNone

def tryFromFile (env : CallEnv) (disk : Disk) : Except Report BuilderSigner :=
  if !pathExists env disk then .error (.msg "path doesn't exist")
  else do
    let keyHex ← (readToString env disk).mapError (.wrap "failed to read key file")
    let decoded ← (hexDecode alloy (trim keyHex)).mapError (.wrap "failed to decode hex from file")
    let secretBytes ← (b256TryFrom decoded).mapError (.wrap "failed to parse key from file")
    (tryFromBytes alloy secretBytes).mapError (.wrap "failed to create signer from key")

/-- `to_bytes` in hexadecimal. -/
def keyHex (signer : BuilderSigner) : Bytes := utf8 (encode (toBytes signer.secret))

/-- Opening the file truncates it. -/
def writeToFile (signer : BuilderSigner) (env : CallEnv) (disk : Disk) :
    Except Report Unit × Disk :=
  match env.openError with
  | some e => (.error (.source e), disk)
  | none =>
    let file := disk.put []
    match env.writeError with
    | some (count, e) => (.error (.source e), file.put ((keyHex signer).take count))
    | none => (.ok (), file.put (keyHex signer))

def loadOrGenerateTeeKey (debug : Bool) (debugSeed : String) (env : CallEnv) (disk : Disk) :
    Except Report BuilderSigner × Disk :=
  if debug then (.ok (env.fromSeed debugSeed), disk)
  else match tryFromFile alloy env disk with
    | .ok signer => (.ok signer, disk)
    | .error _ =>
      let signer := random env
      let (written, disk) := writeToFile signer env disk
      (written.map fun _ => signer, disk)

/-! ## What a call does to a stored key -/

/-- What a call would load if no operation failed. -/
def Stored (disk : Disk) (signer : BuilderSigner) : Prop :=
  ∃ s decoded bytes, disk.content.bind fromUtf8 = some s ∧
    hexDecode alloy (trim s) = .ok decoded ∧ b256TryFrom decoded = .ok bytes ∧
    tryFromBytes alloy bytes = .ok signer

end

/-- The file is found and read. -/
def Reads (env : CallEnv) : Prop := env.statError = none ∧ env.readError = none

instance (env : CallEnv) : Decidable (Reads env) := inferInstanceAs (Decidable (_ ∧ _))

variable {alloy : Alloy} {env : CallEnv} {disk : Disk} {signer : BuilderSigner} {seed : String}

theorem readToString_eq_ok {s : List Char} :
    readToString env disk = .ok s ↔ env.readError = none ∧ disk.content.bind fromUtf8 = some s := by
  unfold readToString
  cases env.readError with
  | some e => simp
  | none =>
    cases disk.content with
    | none => simp
    | some bytes => cases hutf8 : fromUtf8 bytes <;> simp [hutf8]

theorem isSome_of_stored (h : Stored alloy disk signer) : disk.content.isSome := by
  obtain ⟨s, _, _, hs, _⟩ := h
  obtain ⟨content, hcontent, _⟩ := Option.bind_eq_some_iff.mp hs
  rw [hcontent]
  rfl

theorem tryFromFile_eq_ok :
    tryFromFile alloy env disk = .ok signer ↔ Reads env ∧ Stored alloy disk signer := by
  unfold tryFromFile
  cases hexists : pathExists env disk with
  | true =>
    have hstat : env.statError = none :=
      Option.isNone_iff_eq_none.mp (Bool.and_eq_true_iff.mp hexists).2
    simp only [Bool.not_true, Bool.false_eq_true, if_false, bind_eq_ok, mapError_eq_ok,
      readToString_eq_ok, Reads, Stored, hstat, true_and, and_assoc, exists_and_left]
  | false =>
    refine iff_of_false (by simp) fun ⟨hreads, hstored⟩ => ?_
    have h : pathExists env disk = true := by
      rw [pathExists, isSome_of_stored hstored, hreads.1]
      rfl
    rw [hexists] at h
    cases h

theorem b256TryFrom_toBytes (bytes : B256) : b256TryFrom (toBytes bytes) = .ok bytes := by
  rw [b256TryFrom, ofSlice_toBytes]

theorem tryFromBytes_eq_ok {bytes : B256} :
    tryFromBytes alloy bytes = .ok signer ↔ IsSecret bytes ∧ signer = ⟨bytes⟩ := by
  rw [tryFromBytes, mapError_eq_ok, alloy.fromBytes_eq_ok]

/-- A secret is stored once its digits are written in full. -/
theorem stored_of_content (h : IsSecret signer.secret) (written : disk.content = keyHex signer) :
    Stored alloy disk signer := by
  have htrim : trim (encode (toBytes signer.secret)) = encode (toBytes signer.secret) :=
    trim_eq_self fun _ => isWhitespace_of_mem_encode
  refine ⟨encode (toBytes signer.secret), toBytes signer.secret, signer.secret, ?_, ?_,
    b256TryFrom_toBytes _, tryFromBytes_eq_ok.mpr ⟨h, rfl⟩⟩
  · rw [written, Option.bind_some, keyHex, fromUtf8_utf8]
  · rw [htrim, hexDecode, mapError_eq_ok, alloy.decode_eq_ok]
    exact ⟨[], alloy.unmarked, _, (List.nil_append _).symm, decodePairs_encode 0 _⟩

theorem Stored.unique {other : BuilderSigner} (h : Stored alloy disk signer)
    (h' : Stored alloy disk other) : signer = other := by
  obtain ⟨_, _, _, hs, hdecoded, hbytes, hsigner⟩ := h
  obtain ⟨_, _, _, hs', hdecoded', hbytes', hsigner'⟩ := h'
  rw [hs] at hs'
  cases hs'
  rw [hdecoded] at hdecoded'
  cases hdecoded'
  rw [hbytes] at hbytes'
  cases hbytes'
  rw [hsigner] at hsigner'
  exact Except.ok.inj hsigner'

/-- The four ways a call with debug off ends. -/
inductive Call (alloy : Alloy) (env : CallEnv) (disk : Disk) :
    Except Report BuilderSigner × Disk → Prop
  | loaded {signer : BuilderSigner} (reads : Reads env) (stored : Stored alloy disk signer) :
      Call alloy env disk (.ok signer, disk)
  | notOpened {e : IoError} (missing : ∀ signer, ¬ (Reads env ∧ Stored alloy disk signer))
      (opening : env.openError = some e) :
      Call alloy env disk (.error (.source e), disk)
  | cutShort {count : Nat} {e : IoError}
      (missing : ∀ signer, ¬ (Reads env ∧ Stored alloy disk signer))
      (opening : env.openError = none) (writing : env.writeError = some (count, e)) :
      Call alloy env disk
        (.error (.source e), (disk.put []).put ((keyHex (random env)).take count))
  | saved (missing : ∀ signer, ¬ (Reads env ∧ Stored alloy disk signer))
      (opening : env.openError = none) (writing : env.writeError = none) :
      Call alloy env disk (.ok (random env), (disk.put []).put (keyHex (random env)))

theorem call_of_loadOrGenerate (alloy : Alloy) (seed : String) (env : CallEnv) (disk : Disk) :
    Call alloy env disk (loadOrGenerateTeeKey alloy false seed env disk) := by
  simp only [loadOrGenerateTeeKey, Bool.false_eq_true, if_false]
  cases hload : tryFromFile alloy env disk with
  | ok signer =>
    obtain ⟨hreads, hstored⟩ := tryFromFile_eq_ok.mp hload
    exact .loaded hreads hstored
  | error e =>
    have missing : ∀ signer, ¬ (Reads env ∧ Stored alloy disk signer) := by
      intro signer h
      rw [tryFromFile_eq_ok.mpr h] at hload
      cases hload
    simp only [writeToFile]
    cases opening : env.openError with
    | some e => exact .notOpened missing opening
    | none =>
      cases writing : env.writeError with
      | some cut => exact .cutShort missing opening writing
      | none => exact .saved missing opening writing

theorem Call.stored {outcome : Except Report BuilderSigner × Disk}
    (h : Call alloy env disk outcome) (returned : outcome.1 = .ok signer) :
    Stored alloy outcome.2 signer := by
  cases h with
  | loaded reads stored =>
    rw [← Except.ok.inj returned]
    exact stored
  | notOpened missing opening => cases returned
  | cutShort missing opening writing => cases returned
  | saved missing opening writing =>
    rw [← Except.ok.inj returned]
    exact stored_of_content env.random.2 rfl

/-- **What a call returns is what the file holds afterwards.** -/
theorem stored_of_returned (seed : String) (env : CallEnv) (disk : Disk)
    (h : (loadOrGenerateTeeKey alloy false seed env disk).1 = .ok signer) :
    Stored alloy (loadOrGenerateTeeKey alloy false seed env disk).2 signer :=
  (call_of_loadOrGenerate alloy seed env disk).stored h

/-! ## Restarts -/

/-- The file after some calls and what they returned, oldest first. -/
structure Restarts where
  disk : Disk
  returned : List (Except Report BuilderSigner)

def Restarts.call (alloy : Alloy) (seed : String) (s : Restarts) (env : CallEnv) : Restarts :=
  let (returned, disk) := loadOrGenerateTeeKey alloy false seed env s.disk
  { disk, returned := s.returned ++ [returned] }

theorem Restarts.call_ends (alloy : Alloy) (seed : String) (s : Restarts) (env : CallEnv) :
    ∃ outcome, Call alloy env s.disk outcome ∧
      s.call alloy seed env = { disk := outcome.2, returned := s.returned ++ [outcome.1] } :=
  ⟨_, call_of_loadOrGenerate alloy seed env s.disk, rfl⟩

/-- The call does not come to write over a stored key. -/
def Harmless (env : CallEnv) : Prop := Reads env ∨ env.openError ≠ none

instance (env : CallEnv) : Decidable (Harmless env) := inferInstanceAs (Decidable (_ ∨ _))

/-- Nothing but `signer` is returned. -/
def Only (signer : BuilderSigner) (returned : List (Except Report BuilderSigner)) : Prop :=
  ∀ other, .ok other ∈ returned → other = signer

theorem only_concat {returned : List (Except Report BuilderSigner)}
    {last : Except Report BuilderSigner} :
    Only signer (returned ++ [last]) ↔
      Only signer returned ∧ ∀ other, last = .ok other → other = signer := by
  simp only [Only, List.mem_append, List.mem_singleton, or_imp, forall_and, eq_comm]

theorem writes_call (alloy : Alloy) (seed : String) (s : Restarts) (env : CallEnv) :
    s.disk.writes <+: (s.call alloy seed env).disk.writes := by
  obtain ⟨outcome, hends, hcall⟩ := s.call_ends alloy seed env
  rw [hcall]
  cases hends with
  | loaded | notOpened => exact List.prefix_rfl
  | cutShort | saved => exact ⟨_, (List.append_assoc ..).symm⟩

theorem writes_calls (alloy : Alloy) (seed : String) (s : Restarts) (envs : List CallEnv) :
    s.disk.writes <+: (envs.foldl (Restarts.call alloy seed) s).disk.writes := by
  induction envs generalizing s with
  | nil => exact List.prefix_rfl
  | cons env envs ih => exact (writes_call alloy seed s env).trans (ih _)

/-- A harmless call returns the stored key or fails. -/
theorem call_of_harmless (seed : String) {s : Restarts} (stored : Stored alloy s.disk signer)
    (h : Harmless env) :
    (s.call alloy seed env).disk = s.disk ∧
      (Only signer (s.call alloy seed env).returned ↔ Only signer s.returned) := by
  obtain ⟨outcome, hends, hcall⟩ := s.call_ends alloy seed env
  rw [hcall]
  cases hends with
  | loaded reads stored' =>
    refine ⟨rfl, only_concat.trans (and_iff_left ?_)⟩
    intro other hother
    rw [← Except.ok.inj hother]
    exact stored'.unique stored
  | notOpened missing opening =>
    refine ⟨rfl, only_concat.trans (and_iff_left ?_)⟩
    intro other hother
    cases hother
  | cutShort missing opening | saved missing opening =>
    rcases h with hreads | hopening
    · exact absurd ⟨hreads, stored⟩ (missing signer)
    · exact absurd opening hopening

/-- Any other call truncates the file. -/
theorem writes_of_harmful (alloy : Alloy) (seed : String) {s : Restarts} (h : ¬ Harmless env) :
    s.disk.writes.length < (s.call alloy seed env).disk.writes.length := by
  rw [Harmless, not_or, not_not] at h
  obtain ⟨outcome, hends, hcall⟩ := s.call_ends alloy seed env
  rw [hcall]
  cases hends with
  | loaded reads => exact absurd reads h.1
  | notOpened missing opening =>
    rw [h.2] at opening
    cases opening
  | cutShort | saved => simp [Disk.put]

theorem calls_keep_iff {s : Restarts} (stored : Stored alloy s.disk signer) (envs : List CallEnv) :
    ((envs.foldl (Restarts.call alloy seed) s).disk = s.disk ∧
        Only signer (envs.foldl (Restarts.call alloy seed) s).returned) ↔
      Only signer s.returned ∧ ∀ env ∈ envs, Harmless env := by
  induction envs generalizing s with
  | nil => simp
  | cons env envs ih =>
    rw [List.foldl_cons, List.forall_mem_cons]
    by_cases henv : Harmless env
    · obtain ⟨hdisk, honly⟩ := call_of_harmless seed stored henv
      have hrest := ih (s := s.call alloy seed env) (hdisk ▸ stored)
      rw [hdisk, honly] at hrest
      rw [hrest, and_iff_right henv]
    · refine iff_of_false (fun h => ?_) fun h => henv h.2.1
      have hgrew := writes_of_harmful alloy seed (s := s) henv
      have hkept := (writes_calls alloy seed (s.call alloy seed env) envs).length_le
      rw [h.1] at hkept
      omega

/-- **When a stored key survives.** From any file that holds a key, every call
returns that key or fails and none writes to the file, if and only if in each
call the file is found and read, or it cannot be opened for writing. -/
theorem key_survives_iff (stored : Stored alloy disk signer) (envs : List CallEnv) :
    ((envs.foldl (Restarts.call alloy seed) ⟨disk, []⟩).disk = disk ∧
        Only signer (envs.foldl (Restarts.call alloy seed) ⟨disk, []⟩).returned) ↔
      ∀ env ∈ envs, Harmless env := by
  have hnone : Only signer [] := fun _ h => by cases h
  rw [calls_keep_iff (s := ⟨disk, []⟩) stored envs]
  exact and_iff_right hnone

/-- Read once, then not found but not writable either. -/
theorem key_survives_read_only :
    let key : BuilderSigner := ⟨1⟩
    let disk : Disk := { content := keyHex key }
    let envs : List CallEnv :=
      [{ random := ⟨2, by decide⟩ },
       { statError := some "permission denied", openError := some "permission denied",
         random := ⟨3, by decide⟩ }]
    (envs.foldl (Restarts.call .known "debug") ⟨disk, []⟩).disk = disk ∧
      Only key (envs.foldl (Restarts.call .known "debug") ⟨disk, []⟩).returned := by
  intro key disk envs
  have stored : Stored .known disk key := stored_of_content (by decide) rfl
  exact (key_survives_iff stored envs).mpr (by decide)

/-- One failing read, and the stored key is lost. -/
theorem key_lost_on_read_error :
    let key : BuilderSigner := ⟨1⟩
    let disk : Disk := { content := keyHex key }
    let env : CallEnv := { readError := some "input/output error", random := ⟨2, by decide⟩ }
    Stored .known disk key ∧ (loadOrGenerateTeeKey .known false "debug" env disk).1 = .ok ⟨2⟩ ∧
      (loadOrGenerateTeeKey .known false "debug" env disk).2 =
        { content := keyHex ⟨2⟩, writes := [[], keyHex ⟨2⟩] } := by
  intro key disk env
  exact ⟨stored_of_content (by decide) rfl, rfl, rfl⟩

end UnichainBuilder.Flashtestations.TeeKey
