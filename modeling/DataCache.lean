import DataCache.Capture.History
import DataCache.Capture.Offline
import DataCache.Config.Validation
import DataCache.Lifecycle.Intake
import DataCache.Lifecycle.Refused
import DataCache.Lifecycle.Traces
import DataCache.Receiver.Crash
import DataCache.Receiver.Isolation
import DataCache.Receiver.Refusals
import DataCache.Receiver.Retransmission
import DataCache.RecordIo.Checksums
import DataCache.RecordIo.Export
import DataCache.RecordIo.Judged
import DataCache.RecordIo.RoundTrip
import DataCache.RecordIo.Torn
import DataCache.RecordIo.Verify
import DataCache.Recorder.Events
import DataCache.Retention.Safety
import DataCache.Storage.Capacity
import DataCache.Storage.Contents
import DataCache.Storage.Conversions
import DataCache.Storage.PowerCut
import DataCache.Trigger.Keyboard
import DataCache.Trigger.Release
import DataCache.Trigger.Retry
import DataCache.Upload.Archive
import DataCache.Upload.Delivery
import DataCache.Upload.EventNames
import DataCache.Upload.Exclusion
import DataCache.Upload.Retries
