import FabricFootprint.Value

/-!
FabricFootprint.Chunks — the flat records collected from devices.

A chunk is a named list of records. `DeviceChunks` holds the chunks of one device; a chunk
that is not there reads as the empty list. `ChunkStore` holds the devices in load order;
device names may repeat, and a look-up by name takes the first.
-/

namespace FabricFootprint

/-- The chunks of one device. -/
structure DeviceChunks where
  name : String
  chunks : FieldMap (List Record)
  deriving DecidableEq, Inhabited

namespace DeviceChunks

/-- The records of a chunk; none when the chunk is absent. -/
def records (device : DeviceChunks) (chunk : String) : List Record :=
  (device.chunks.get? chunk).getD []

/-- The names of the device's chunks, in increasing order. -/
def chunkNames (device : DeviceChunks) : List String := device.chunks.names

end DeviceChunks

/-- The chunks of every device, in load order. -/
structure ChunkStore where
  devices : List DeviceChunks
  deriving DecidableEq, Inhabited

namespace ChunkStore

/-- The first device of a name. -/
def device? (store : ChunkStore) (name : String) : Option DeviceChunks :=
  store.devices.find? fun d => d.name == name

/-- The records of a device's chunk; none when the device or the chunk is absent. -/
def records (store : ChunkStore) (device chunk : String) : List Record :=
  ((store.device? device).map fun d => d.records chunk).getD []

end ChunkStore

end FabricFootprint
