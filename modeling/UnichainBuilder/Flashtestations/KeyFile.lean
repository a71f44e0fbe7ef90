import UnichainBuilder.Flashtestations.TeeKey

/-! # The format of the key file

What `BuilderSigner::try_from_file` makes a key of: exactly the texts of one
format, each of them one key. What a write leaves that was cut short is none of
these texts, so that no key comes out of the file that did not go into it. -/
namespace UnichainBuilder.Flashtestations.KeyFile
open UnichainBuilder.Lib.RustStd UnichainBuilder.Lib.Bytes UnichainBuilder.Lib.Text
open UnichainBuilder.Block UnichainBuilder.Flashtestations.Execution
open UnichainBuilder.Flashtestations.TeeKey

/-- A secret in 64 hexadecimal digits of either case, behind one of the marks of
the decoder, with blanks around it. -/
def KeyText (alloy : Alloy) (content : Bytes) (secret : B256) : Prop :=
  ∃ (before after : List Char) (mark digits : Bytes),
    content = utf8 before ++ (mark ++ digits) ++ utf8 after ∧
      (∀ c ∈ before ++ after, isWhitespace c) ∧ mark ∈ alloy.marks ∧
      digits.length = 64 ∧ decodeNat digits = some secret.toNat

theorem decodeNat_eq_readDigits {digits : Bytes} (h : digits ≠ []) :
    decodeNat digits = readDigits 0 digits := by
  rw [decodeNat, if_neg (by simpa using h)]
  rfl

theorem b256TryFrom_eq_ok {slice : Bytes} {bytes : B256} :
    b256TryFrom slice = .ok bytes ↔ slice.length = 32 ∧ ofBigEndian slice = bytes.toNat := by
  rw [← ofSlice_eq_some, b256TryFrom]
  cases ofSlice slice <;> simp

variable {alloy : Alloy} {env : CallEnv} {disk : Disk} {signer : BuilderSigner}

theorem keyText_of_decoded {s : List Char} {decoded : Bytes} {bytes : B256}
    (hdecoded : hexDecode alloy (trim s) = .ok decoded)
    (hbytes : b256TryFrom decoded = .ok bytes) : KeyText alloy (utf8 s) bytes := by
  obtain ⟨hlength, hvalue⟩ := b256TryFrom_eq_ok.mp hbytes
  obtain ⟨before, after, hs, hblank⟩ := trim_parts s
  obtain ⟨mark, hmark, digits, hparts, hpairs⟩ :=
    alloy.decode_eq_ok.mp (mapError_eq_ok.mp hdecoded)
  obtain ⟨hdigits, hread⟩ := readDigits_of_decodePairs hpairs 0
  have hcount : digits.length = 64 := by omega
  have hne : digits ≠ [] := by
    intro h
    rw [h] at hcount
    cases hcount
  refine ⟨before, after, mark, digits, ?_, hblank, hmark, hcount, ?_⟩
  · rw [← hparts, ← utf8_append, ← utf8_append, ← hs]
  · rw [decodeNat_eq_readDigits hne, hread, ← hvalue]
    rfl

/-- What stands between the blanks is ASCII without blanks. -/
theorem plain_of_mark {mark digits : Bytes} (hmark : mark ∈ alloy.marks)
    (hall : ∀ c ∈ digits, (digitValue c).isSome) :
    ∀ c ∈ mark ++ digits, c.toNat < 128 ∧ isWhitespace (Char.ofNat c.toNat) = false := by
  have hdigits : ∀ c ∈ digits, c.toNat < 128 ∧ isWhitespace (Char.ofNat c.toNat) = false := by
    intro c hc
    obtain ⟨d, hd⟩ := Option.isSome_iff_exists.mp (hall c hc)
    exact ⟨(lt_of_digitValue hd).2, isWhitespace_of_digitValue hd⟩
  exact List.forall_mem_append.mpr ⟨alloy.plain mark hmark, hdigits⟩

theorem decoded_of_keyText {content : Bytes} {bytes : B256} (h : KeyText alloy content bytes) :
    ∃ s decoded, fromUtf8 content = some s ∧ hexDecode alloy (trim s) = .ok decoded ∧
      b256TryFrom decoded = .ok bytes := by
  obtain ⟨before, after, mark, digits, rfl, hblank, hmark, hcount, hvalue⟩ := h
  have hne : digits ≠ [] := by
    intro h
    rw [h] at hcount
    cases hcount
  rw [decodeNat_eq_readDigits hne] at hvalue
  have hall := digitValue_of_readDigits hvalue
  have hplain := plain_of_mark hmark hall
  obtain ⟨core, hcore, hblankless⟩ :
      ∃ core, utf8 core = mark ++ digits ∧ ∀ c ∈ core, isWhitespace c = false := by
    refine ⟨_, utf8_ascii fun b hb => (hplain b hb).1, ?_⟩
    rw [List.forall_mem_map]
    exact fun b hb => (hplain b hb).2
  obtain ⟨decoded, hdecoded⟩ := exists_decodePairs (by rw [hcount]) hvalue 0
  obtain ⟨hlength, hread⟩ := readDigits_of_decodePairs hdecoded 0
  refine ⟨before ++ core ++ after, decoded, ?_, ?_, b256TryFrom_eq_ok.mpr ⟨by omega, ?_⟩⟩
  · rw [← hcore, ← utf8_append, ← utf8_append, fromUtf8_utf8]
  · rw [trim_append hblank hblankless, hexDecode, mapError_eq_ok, hcore, alloy.decode_eq_ok]
    exact ⟨mark, hmark, digits, rfl, hdecoded⟩
  · exact Option.some.inj (hread.symm.trans hvalue)

theorem stored_iff :
    Stored alloy disk signer ↔ ∃ content, disk.content = some content ∧
      KeyText alloy content signer.secret ∧ IsSecret signer.secret := by
  constructor
  · rintro ⟨s, decoded, bytes, hs, hdecoded, hbytes, hsigner⟩
    obtain ⟨content, hcontent, hutf8⟩ := Option.bind_eq_some_iff.mp hs
    obtain ⟨hsecret, rfl⟩ := tryFromBytes_eq_ok.mp hsigner
    rw [eq_utf8_of_fromUtf8 hutf8] at hcontent
    exact ⟨_, hcontent, keyText_of_decoded hdecoded hbytes, hsecret⟩
  · rintro ⟨content, hcontent, htext, hsecret⟩
    obtain ⟨s, decoded, hs, hdecoded, hbytes⟩ := decoded_of_keyText htext
    refine ⟨s, decoded, signer.secret, ?_, hdecoded, hbytes,
      tryFromBytes_eq_ok.mpr ⟨hsecret, rfl⟩⟩
    rw [hcontent, Option.bind_some, hs]

/-- **What loads.** Whichever marks the decoder takes: a key is loaded if and only
if the file is found and read, its text is that key's, and the key is one of the
curve. -/
theorem loads_iff (alloy : Alloy) (env : CallEnv) (disk : Disk) (signer : BuilderSigner) :
    tryFromFile alloy env disk = .ok signer ↔
      Reads env ∧ ∃ content, disk.content = some content ∧
        KeyText alloy content signer.secret ∧ IsSecret signer.secret := by
  rw [tryFromFile_eq_ok, stored_iff]

/-! ## Writes that are cut short -/

theorem length_keyHex (signer : BuilderSigner) : (keyHex signer).length = 64 := by
  rw [keyHex, length_utf8_encode, length_toBytes]
  rfl

theorem le_length_of_keyText {content : Bytes} {secret : B256}
    (h : KeyText alloy content secret) : 64 ≤ content.length := by
  obtain ⟨before, after, mark, digits, rfl, -, -, hcount, -⟩ := h
  simp only [List.length_append]
  omega

/-- Whatever part of a key was written, no other key is stored then. -/
theorem stored_of_take {count : Nat} (h : IsSecret signer.secret)
    (written : disk.content = (keyHex signer).take count) {other : BuilderSigner}
    (stored : Stored alloy disk other) : other = signer := by
  by_cases hcount : 64 ≤ count
  · rw [List.take_of_length_le (by rwa [length_keyHex])] at written
    exact stored.unique (stored_of_content h written)
  · obtain ⟨content, hcontent, htext, -⟩ := stored_iff.mp stored
    rw [written] at hcontent
    cases hcontent
    have hlong := le_length_of_keyText htext
    rw [List.length_take, length_keyHex] at hlong
    omega

/-- A key that the first file held, or that one of the calls generated. -/
def Known (alloy : Alloy) (disk : Disk) (envs : List CallEnv) (signer : BuilderSigner) : Prop :=
  Stored alloy disk signer ∨ ∃ env ∈ envs, signer = random env

theorem Known.concat {envs : List CallEnv} (h : Known alloy disk envs signer) (env : CallEnv) :
    Known alloy disk (envs ++ [env]) signer :=
  h.imp id fun ⟨e, he, hsigner⟩ => ⟨e, List.mem_append_left _ he, hsigner⟩

theorem known_random (alloy : Alloy) (disk : Disk) (envs : List CallEnv) (env : CallEnv) :
    Known alloy disk (envs ++ [env]) (random env) :=
  .inr ⟨env, List.mem_append_right _ (List.mem_singleton_self env), rfl⟩

/-- Behind some calls the file holds nothing but a known key, and nothing else
was returned. -/
structure Provenance (alloy : Alloy) (disk : Disk) (past : List CallEnv) (s : Restarts) :
    Prop where
  stored : ∀ signer, Stored alloy s.disk signer → Known alloy disk past signer
  returned : ∀ signer, .ok signer ∈ s.returned → Known alloy disk past signer

theorem Provenance.call {past : List CallEnv} {s : Restarts} (h : Provenance alloy disk past s)
    (seed : String) (env : CallEnv) :
    Provenance alloy disk (past ++ [env]) (s.call alloy seed env) := by
  obtain ⟨outcome, hends, hcall⟩ := s.call_ends alloy seed env
  have hstored : ∀ signer, Stored alloy outcome.2 signer →
      Known alloy disk (past ++ [env]) signer := by
    intro signer hsigner
    cases hends with
    | loaded | notOpened => exact (h.stored signer hsigner).concat env
    | cutShort missing opening writing =>
      rw [stored_of_take env.random.2 rfl hsigner]
      exact known_random alloy disk past env
    | saved missing opening writing =>
      rw [hsigner.unique (stored_of_content env.random.2 rfl)]
      exact known_random alloy disk past env
  rw [hcall]
  refine ⟨hstored, fun signer hsigner => ?_⟩
  rcases List.mem_append.mp hsigner with hsigner | hsigner
  · exact (h.returned signer hsigner).concat env
  · exact hstored signer (hends.stored (List.mem_singleton.mp hsigner).symm)

theorem provenance_calls (alloy : Alloy) (seed : String) (disk : Disk) (envs : List CallEnv) :
    Provenance alloy disk envs (envs.foldl (Restarts.call alloy seed) ⟨disk, []⟩) := by
  induction envs using List.reverseRecOn with
  | nil => exact ⟨fun signer h => .inl h, fun _ h => by cases h⟩
  | append_singleton envs env ih =>
    rw [List.foldl_append]
    exact ih.call seed env

/-- **Where a key comes from.** Over any restarts, whatever fails in them: a
key that is returned was in the file at first, or was generated by one of the
calls. A write that was cut short is never taken for a key. -/
theorem returned_known (seed : String) (disk : Disk) (envs : List CallEnv)
    (h : .ok signer ∈ (envs.foldl (Restarts.call alloy seed) ⟨disk, []⟩).returned) :
    Known alloy disk envs signer :=
  (provenance_calls alloy seed disk envs).returned signer h

/-- No space, then space, then the key is read back. -/
theorem returned_known_no_space :
    let envs : List CallEnv :=
      [{ writeError := some (63, "no space left on device"), random := ⟨2, by decide⟩ },
       { random := ⟨3, by decide⟩ }, { random := ⟨4, by decide⟩ }]
    (envs.foldl (Restarts.call .known "debug") ⟨{ content := none }, []⟩).returned =
        [.error (.source "no space left on device"), .ok ⟨3⟩, .ok ⟨3⟩] ∧
      Known .known { content := none } envs ⟨3⟩ := by
  intro envs
  have hreturned : (envs.foldl (Restarts.call .known "debug") ⟨{ content := none }, []⟩).returned =
      [.error (.source "no space left on device"), .ok ⟨3⟩, .ok ⟨3⟩] := by decide +kernel
  refine ⟨hreturned, returned_known "debug" _ envs ?_⟩
  rw [hreturned]
  simp

end UnichainBuilder.Flashtestations.KeyFile
