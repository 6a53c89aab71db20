import DataCache.Foundation.Text

/-!
# Sensor data

The messages the node buffers and stores.  Times are header stamps in
nanoseconds; a message is reached through a pointer that may be null.
-/

namespace DataCache.Capture

open DataCache.Foundation

def nanosPerSecond : Int := 1000000000

/-- `sensor_msgs/Image`: the fields that are read. -/
structure Image where
  stamp : Int
  height : UInt32
  width : UInt32
  encoding : Text
  step : UInt32
  data : Bytes
  deriving DecidableEq

/-- `sensor_msgs/PointCloud2`: the fields that are read. -/
structure PointCloud2 where
  stamp : Int
  height : UInt32
  width : UInt32
  fields : List Text
  pointStep : UInt32
  data : Bytes
  deriving DecidableEq

inductive SensorType where
  | camera
  | lidar
  deriving DecidableEq

inductive SensorData where
  | camera (timestamp : Int) (image : Option Image)
  | lidar (timestamp : Int) (cloud : Option PointCloud2)
  deriving DecidableEq

def SensorData.type : SensorData → SensorType
  | .camera _ _ => .camera
  | .lidar _ _ => .lidar

def timestampOf : SensorData → Int
  | .camera timestamp _ => timestamp
  | .lidar timestamp _ => timestamp

def payloadBytes : SensorData → Nat
  | .camera _ image => (image.map fun message => message.data.length).getD 0
  | .lidar _ cloud => (cloud.map fun message => message.data.length).getD 0

inductive PairStatus where
  | matched
  | cameraOnly
  | lidarOnly
  deriving DecidableEq

structure PairRecord where
  pairId : Nat
  hasCamera : Bool
  hasLidar : Bool
  cameraTimestamp : Int
  lidarTimestamp : Int
  difference : Int
  status : PairStatus
  reason : Text
  deriving DecidableEq

/-- The stamp a pair is selected by: the camera's where there is one. -/
def PairRecord.timestamp (record : PairRecord) : Int :=
  if record.hasCamera then record.cameraTimestamp else record.lidarTimestamp

end DataCache.Capture
