import ChannelHistory.Proofs.Record.RoundTrip
import Mathlib.Tactic.TFAE

namespace ChannelHistory

namespace Message

def normalized (w : Message) : Message :=
  { w with
    dependencies := w.dependencies.map Dependency.normalized
    bloom := presentBytes w.bloom
    hint := presentBytes w.hint }

end Message

namespace CompleteMessage

variable {m : CompleteMessage}

end CompleteMessage

end ChannelHistory
