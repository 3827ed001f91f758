import Atoshi.Chain.Floor
import Atoshi.Tokenomics.Restart

namespace Atoshi.Tokenomics
open Exec Bridge

/-! How a tier release divides its quota between the miners and the project. -/

variable {A : Type} [LinearOrder A]

/-- The sum of the shares, which `Validate` compares with the whole, fits in `uint32`. -/
def Params.SharesFit (p : Params) : Prop :=
  p.minerReleaseShareBps.toNat+p.projectReleaseShareBps.toNat < 2^32

instance (p : Params) : Decidable p.SharesFit := inferInstanceAs (Decidable (_ < _))

theorem Params.validate_shares {valid : String → Bool} {p : Params}
    (h : p.validate valid = .ok ()) : p.minerReleaseShareBps+p.projectReleaseShareBps = 10000 := by
  unfold Params.validate at h
  iterate 10 obtain ⟨_,h⟩ := check_ok h
  exact (check_ok h).1

theorem Params.SharesFit.miner_le {valid : String → Bool} {p : Params} (hfit : p.SharesFit)
    (h : p.validate valid = .ok ()) : p.minerReleaseShareBps.toNat ≤ 10000 := by
  have hsum := congrArg UInt32.toNat (Params.validate_shares h)
  rw [UInt32.toNat_add,Nat.mod_eq_of_lt hfit] at hsum
  have hwhole : (10000 : UInt32).toNat = 10000 := rfl
  omega

variable {env : Env A} {ctx : Ctx A}

def released (r : ReleaseRun A) : Int × Int :=
  (r.store.releaseState.totalMinerReleased,r.store.releaseState.totalProjectReleased)

end Atoshi.Tokenomics
