import UnichainBuilder.Lib.Runs
import UnichainBuilder.Lib.Text
import UnichainBuilder.Flashtestations.Pipeline

/-! # The attestation of the builder

`attestation.rs`, and `setup` of `step.rs`: a service is asked for the quote
that a registration carries, under a URL that says what the quote has to
attest. A setup that gets none leaves the next one to ask again. -/
namespace UnichainBuilder.Flashtestations.Attestation
open UnichainBuilder.Lib.Bytes UnichainBuilder.Lib.RustStd UnichainBuilder.Lib.Runs
open UnichainBuilder.Lib.Text UnichainBuilder.Block UnichainBuilder.Publish
open UnichainBuilder.Flashtestations.Contracts UnichainBuilder.Flashtestations.Execution
open UnichainBuilder.Flashtestations.Executor UnichainBuilder.Flashtestations.Permit
open UnichainBuilder.Flashtestations.Prologue UnichainBuilder.Flashtestations.Pipeline

/-! ## Asking for a quote -/

structure Response where
  status : UInt16
  /-- Reading the body may fail. -/
  body : Except String Bytes

/-- One GET request, with its timeout. -/
abbrev Client := String → Except String Response

/-- `Response::error_for_status`. -/
def errorForStatus (response : Response) : Except Report Response :=
  if 400 ≤ response.status ∧ response.status < 600 then .error (.source "HTTP status error")
  else .ok response

structure RemoteAttestationProvider where
  serviceUrl : String
  deriving DecidableEq, Repr

/-- TEE address, hash of the extended registration data and padding. -/
def reportData (teeAddress : Address) (registrationDataHash : B256) : Bytes :=
  toBytes teeAddress ++ toBytes registrationDataHash ++ List.replicate 12 0

section
variable {σ : Type} (b : Backend σ)

def prepareReportData (signer : BuilderSigner) : Bytes :=
  reportData (b.address signer) (b.keccak256 [])

namespace RemoteAttestationProvider
variable (self : RemoteAttestationProvider)

def url (data : Bytes) : String := self.serviceUrl ++ String.ofList ('/' :: encode data)

def queryClient (client : Client) (data : Bytes) : Except Report Bytes := do
  let response ← (client (self.url data)).mapError .source
  let response ← errorForStatus response
  response.body.mapError .source

def getAttestation (client : Client) (signer : BuilderSigner) : Except Report Bytes :=
  self.queryClient client (prepareReportData b signer)

end RemoteAttestationProvider

/-! ## The prologue with its provider -/

structure AttestingManager extends FlashtestationsManager where
  attestationProvider : RemoteAttestationProvider
  deriving DecidableEq, Repr

def AttestingManager.getAttestation (self : AttestingManager) (client : Client) :
    Except Report Bytes :=
  self.attestationProvider.getAttestation b client self.teeSigner

/-- What it asks for. -/
def AttestingManager.url (self : AttestingManager) : String :=
  self.attestationProvider.url (prepareReportData b self.teeSigner)

structure AttestingPrologue where
  manager : Option AttestingManager
  attestation : Option Bytes
  deriving DecidableEq, Repr

namespace AttestingPrologue

/-- The prologue as its steps see it. -/
def prologue (self : AttestingPrologue) : FlashtestationsPrologue where
  manager := self.manager.map AttestingManager.toFlashtestationsManager
  attestation := self.attestation

end AttestingPrologue

/-! ## Setups and steps -/

inductive Entry (σ : Type)
  | request (url : String) (answer : Except Report Bytes)
  | step (payload : Checkpoint σ) (ctx : BlockContext) (returned : Checkpoint σ)

/-- What a setup asks, with the answer, and the prologue that it leaves. -/
def AttestingPrologue.setup (self : AttestingPrologue) (client : Client) :
    List (Entry σ) × AttestingPrologue :=
  match self.manager with
  | none => ([], self)
  | some manager =>
    if self.attestation.isSome then ([], self)
    else
      let answer := manager.getAttestation b client
      ([.request (manager.url b) answer],
        match answer with
        | .ok attestation => { self with attestation := some attestation }
        | .error _ => self)

inductive Event (σ : Type)
  | setup (client : Client)
  | step (payload : Checkpoint σ) (ctx : BlockContext)

structure Session (σ : Type) where
  prologue : AttestingPrologue
  log : List (Entry σ) := []

namespace Session

def handle (s : Session σ) : Event σ → Session σ
  | .setup client =>
    let (entries, prologue) := s.prologue.setup b client
    { prologue, log := s.log ++ entries }
  | .step payload ctx =>
    { s with log := s.log ++ [.step payload ctx (s.prologue.prologue.step b payload ctx).payload] }

def after (start : AttestingPrologue) (events : List (Event σ)) : Session σ :=
  events.foldl (handle b) { prologue := start }

end Session

/-! ## What a registration carries -/

/-- A registration that submits a quote, permitted by the TEE key. -/
def Registers (teeSigner : BuilderSigner) (quote extended : Bytes) (tx : Transaction) : Prop :=
  ∃ request signature signer nonce deadline digest permitSignature,
    tx = .signed request signature signer ∧
      request.input = .registry (.permitRegisterTEEService quote extended nonce deadline
        permitSignature.asBytes) ∧
      b.signMessage teeSigner digest = .ok permitSignature

/-- `url` asks the service of the manager for a quote of its TEE key and of its
registration data. -/
def AskedBy (manager : AttestingManager) (url : String) : Prop :=
  url = manager.attestationProvider.url
    (reportData (b.address manager.teeSigner) (b.keccak256 manager.extraRegistrationData))

/-- The quote that a request of the log was answered with. -/
def Entry.quote : Entry σ → Option Bytes
  | .request _ (.ok quote) => some quote
  | _ => none

/-- What each entry is, in the light of the entries before it. -/
def Justified (manager : Option AttestingManager) (past : List (Entry σ)) : Entry σ → Prop
  | .request url _ => (∃ m ∈ manager, AskedBy b m url) ∧ ∀ entry ∈ past, entry.quote = none
  | .step payload _ returned => returned = payload ∨
      ∃ m ∈ manager, ∃ quote url tx more,
        .request url (.ok quote) ∈ past ∧
        Registers b m.teeSigner quote m.extraRegistrationData tx ∧
        returned.allTransactions = payload.allTransactions ++ tx :: more

variable {b}

theorem length_reportData (teeAddress : Address) (hash : B256) :
    (reportData teeAddress hash).length = 64 := by
  simp only [reportData, List.length_append, length_toBytes, List.length_replicate]
  rfl

theorem reportData_inj {teeAddress teeAddress' : Address} {hash hash' : B256}
    (h : reportData teeAddress hash = reportData teeAddress' hash') :
    teeAddress = teeAddress' ∧ hash = hash' := by
  obtain ⟨hfront, -⟩ := List.append_inj' h rfl
  obtain ⟨haddress, hhash⟩ := List.append_inj hfront (by simp only [length_toBytes])
  exact ⟨toBytes_injective haddress, toBytes_injective hhash⟩

/-- **The URL says what is to be attested.** Whatever the URL of the service
looks like, two requests under one URL go to one service and ask for a quote
of the same address and of data with the same hash. -/
theorem url_identifies {provider provider' : RemoteAttestationProvider}
    {teeAddress teeAddress' : Address} {hash hash' : B256}
    (h : provider.url (reportData teeAddress hash) =
      provider'.url (reportData teeAddress' hash')) :
    provider = provider' ∧ teeAddress = teeAddress' ∧ hash = hash' := by
  have hchars := congrArg String.toList h
  simp only [RemoteAttestationProvider.url, String.toList_append, String.toList_ofList] at hchars
  obtain ⟨hservice, hpath⟩ := List.append_inj' hchars (by
    simp only [List.length_cons, length_encode, length_reportData])
  have hdata := encode_injective (List.cons.inj hpath).2
  refine ⟨?_, reportData_inj hdata⟩
  cases provider
  cases provider'
  rw [RemoteAttestationProvider.mk.injEq]
  exact String.toList_inj.mp hservice

/-- Two requests under one URL, to a service whose own URL ends in a slash. -/
theorem url_identifies_slash :
    (⟨"http://quotes/"⟩ : RemoteAttestationProvider).url (reportData 7 1) =
        (⟨"http://quotes" ++ "/"⟩ : RemoteAttestationProvider).url (reportData (3 + 4) 1) ∧
      (⟨"http://quotes/"⟩ : RemoteAttestationProvider) = ⟨"http://quotes" ++ "/"⟩ ∧
      (7 : Address) = 3 + 4 ∧ (1 : B256) = 1 :=
  ⟨rfl, @url_identifies ⟨"http://quotes/"⟩ ⟨"http://quotes" ++ "/"⟩ 7 (3 + 4) 1 1 rfl⟩

/-- The manager never changes. The prologue has a quote if and only if a
request was answered with it. -/
structure Invariant (b : Backend σ) (start : AttestingPrologue) (s : Session σ) : Prop where
  manager_eq : s.prologue.manager = start.manager
  none_answered : s.prologue.attestation = none → ∀ entry ∈ s.log, entry.quote = none
  answered : ∀ quote ∈ s.prologue.attestation, ∀ manager ∈ start.manager,
    .request (manager.url b) (.ok quote) ∈ s.log
  justified : AtEvery (Justified b start.manager) [] s.log

variable {start : AttestingPrologue} {s : Session σ}

end

/-! ## A session on the devnet -/

end UnichainBuilder.Flashtestations.Attestation
