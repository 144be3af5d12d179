import Cboot.Utils.Checksum
import Cboot.Heap.Conservation
import Cboot.Heap.FirstFit
import Cboot.Heap.Routing
import Cboot.Ivc.Handshake
import Cboot.Ivc.Reset
import Cboot.Ivc.Wakeup
import Cboot.Ivc.Hostile
import Cboot.Smd.Fallback
import Cboot.Smd.PowerOn
import Cboot.Blockdev.Session
import Cboot.Blockdev.Lifetime
import Cboot.PartitionManager.Files
import Cboot.PartitionManager.Async
import Cboot.PartitionManager.ReadBack
import Cboot.Gpt.Bounds
import Cboot.Gpt.Decode
import Cboot.BlUpdate.History
import Cboot.Bcache.ReadBack
import Cboot.Linuxboot.Header
import Cboot.Linuxboot.Recovery
import Cboot.Fastboot.Download
import Cboot.Fastboot.Slots
import Cboot.Fastboot.Flash
import Cboot.Drivers.Ufs
import Cboot.Fs.Isolation
import Cboot.Rpmb.Accepted
import Cboot.Cmdline.Whole
import Cboot.PluginManager.Override
import Cboot.PluginManager.MatchId
import Cboot.Devicetree.StringArray
import Cboot.Ext4.Hashed
import Cboot.Ext4.Mapping
import Cboot.Sparse.Contained
import Cboot.Sparse.Reported
import Cboot.BlUpdate.Inside
import Cboot.Nvblob.Bounds
import Cboot.Decompress.Outside
import Cboot.Smd.Selection
import Cboot.Cmdline.Buffer
import Cboot.Cmdline.Existing
import Cboot.Extlinux.Parsed
import Cboot.Clib.Compose
import Cboot.Clib.RoundTrip
import Cboot.DtbUpdate.Param
import Cboot.DtbUpdate.Chosen
import Cboot.DtbUpdate.Placeholder
import Cboot.DtbUpdate.Retry
import Cboot.DtbUpdate.Memblocks
import Cboot.Cbo.Storage
import Cboot.Cbo.IpInfo
import Cboot.Ufs.Async
import Cboot.Qspi.Erase
import Cboot.FileManager.Read
import Cboot.Usb.MassStorage
import Cboot.PartitionManager.BootLookup
import Cboot.Eeprom.Discovery
import Cboot.Display.Edid
import Cboot.Drivers.I2cDev
import Cboot.Display.LinkTraining
import Cboot.Linuxboot.Sort
import Cboot.Clib.Memory
import Cboot.Ext2.BlockMap
