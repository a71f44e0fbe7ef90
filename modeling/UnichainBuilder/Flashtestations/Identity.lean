import UnichainBuilder.Flashtestations.KeyFile
import UnichainBuilder.Flashtestations.Attestation

/-! # The identity of the TEE

The TEE is known by the address of its key, which is all that survives a
restart. Every start loads the key anew, asks for a quote of it, and registers
it again. -/
namespace UnichainBuilder.Flashtestations.Identity
open UnichainBuilder.Lib.Runs UnichainBuilder.Block UnichainBuilder.Flashtestations.Execution
open UnichainBuilder.Flashtestations.Executor UnichainBuilder.Flashtestations.Pipeline
open UnichainBuilder.Flashtestations.TeeKey UnichainBuilder.Flashtestations.Attestation

section
variable {σ : Type} (alloy : Alloy) (b : Backend σ)

variable {alloy} {b} {disk : Disk} {signer : BuilderSigner}

end

end UnichainBuilder.Flashtestations.Identity
