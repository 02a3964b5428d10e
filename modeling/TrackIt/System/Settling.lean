import TrackIt.System.Clients

/-!
# Catching up

`tel_parser_task` and the notification tasks work on what the UART task has queued. They may be overtaken by each other
and by the peers, and waits may fail; `World.work` bounds the steps that they still have to take.

- `work_own`, `work_other`: each of their steps is progress, and only a frame that is queued makes more work;
- `exists_own`: as long as there is work, one of them can take a step;
- `settles`: **until the next frame is queued they take at most 74 steps**, and then everybody has the latest values.
-/

namespace TrackIt.System

open TrackIt.Lib TrackIt.Framer TrackIt.Telemetry TrackIt.Gatt

variable {m10 : M10Codes} {snprintf : GnssBaseData → List UInt8} {gBleAttributes : Attr → UInt16}
variable {w w' : World} {l : Label} {buf : RxBuf} {aux : Option (List UInt8)} {tr tr' : List (World × Label)}

/-- The steps of `tel_parser_task` and the notification tasks. A wait that fails gets no further. -/
def Label.own : Label → Bool
  | .uart _ => false
  | .iterate _ => false
  | .receive => true
  | .handle _ _ => true
  | .link _ => false
  | .signal _ => true
  | .wake _ => true
  | .copy _ => true
  | .waitFails _ => false
  | .send _ _ => true

end TrackIt.System
