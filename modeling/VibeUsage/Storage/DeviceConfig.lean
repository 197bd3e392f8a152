import VibeUsage.Storage.Store

/-!
# The device configuration

`device_config_save` of `device_config.c`: the settings as one packed record with a checksum. A
record that the loader would refuse is not written.

Only what the controller needs of the record is here: that a save writes the settings it is given,
and when it refuses them.
-/

namespace VibeUsage

/-- A `device_config_t`, without the language and the volume, which have keys of their own. -/
structure DeviceConfig where
  configRevision : UInt32
  refreshSeconds : UInt32
  timezone : Timezone
  deviceId : CString
  deriving DecidableEq

/-- `"VUF1"` -/
def configMagic : List UInt8 := ascii ['V', 'U', 'F', '1']

/-- The fields of a `stored_config_t` before the checksum. -/
def configBody (config : DeviceConfig) : List UInt8 :=
  configMagic ++ (Codec.u32 schemaVersion ++ (Codec.u32 config.configRevision ++
    (Codec.u32 config.refreshSeconds ++ (Codec.u8 config.timezone.code.toUInt8 ++
    (config.deviceId.bytes ++ [0])))))

/-- What a configuration must be to be saved. -/
def DeviceConfig.Storable (config : DeviceConfig) : Prop :=
  config.configRevision ≠ 0 ∧ 60 ≤ config.refreshSeconds ∧ config.timezone.Supported ∧
    config.deviceId.bytes.length = 4

instance (config : DeviceConfig) : Decidable config.Storable :=
  inferInstanceAs (Decidable (_ ∧ _ ∧ _ ∧ _))

def deviceConfigSave (config : DeviceConfig) : Nvs Unit := do
  Prog.check config.Storable .invalidArg
  nvsOpen .vibeCfg
  nvsSet .vibeCfg .settings
    (.blob (configBody config ++ Codec.u32 (vibeCrc32 (configBody config))))
  nvsCommit

end VibeUsage
