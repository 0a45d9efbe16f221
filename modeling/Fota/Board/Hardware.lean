import Fota.Modem.Port
import Fota.Storage.Flash

/-
  This file defines the hardware of a board as the firmware sees
  it: the serial port to the modem, the power key and the supply
  line of the modem, a delay and the flash memory.

  Key definitions include:
    * `Hardware`
-/

namespace Fota

------------------------------------------------------------
-- Hardware
------------------------------------------------------------

/-
  Hardware is a port with a delay, a power key that is pressed
  and released, a line that is up while the supply of the modem
  is, and a flash memory. A delay lasts as long as it is asked
  to, or longer.
-/
class Hardware
    (σ : Type)
    extends Port σ where
  delay : UInt32 → σ → σ
  pressKey : σ → σ
  releaseKey : σ → σ
  isSupplyUp : σ → Bool
  flash : σ → Flash
  setFlash : Flash → σ → σ
  now_delay :
    ∀ (ms : UInt32) (s : σ),
      ((now s).after ms.toNat).toNat ≤ (now (delay ms s)).toNat

end Fota
