import DataCache.Capture.Recording
import DataCache.Upload.Readback

/-!
# From the trigger to the archive

The monitor hands over two batches of a capture, the worker stores them, and the
sender and the receiver move what was stored.  What can be read in the end is what
the two snapshots found in the window, but for frames that came late.
-/

namespace DataCache.Capture

open DataCache.Foundation
open DataCache.Storage (enabled)

section Due

variable {capture : AcceptedTrigger} {pre post : HandedOver} {frame : SensorData}

end Due

end DataCache.Capture

namespace DataCache.Upload

open DataCache.Foundation DataCache.Capture DataCache.Storage DataCache.RecordIo

section Archive

variable {codec : Codec} {worker : Storage.Worker} {directory : Text}
  {rounds : List (Job × Processed)} {w : Watched}

end Archive

/-! ### A frame before the event and one after it -/

section Example

end Example

end DataCache.Upload
