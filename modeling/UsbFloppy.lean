import UsbFloppy.Lib.Run
import UsbFloppy.Lib.PathLength
import UsbFloppy.Kernel.IoEvents
import UsbFloppy.Kernel.Basic
import UsbFloppy.Kernel.Head
import UsbFloppy.Kernel.Instance
import UsbFloppy.Kernel.Lun
import UsbFloppy.Kernel.Command
import UsbFloppy.Files.Path
import UsbFloppy.Files.Fs
import UsbFloppy.Gadget.SysfsBackend
import UsbFloppy.Gadget.Controller
import UsbFloppy.Gadget.Boot
import UsbFloppy.Gadget.Faultless
import UsbFloppy.Gadget.Concurrent
import UsbFloppy.Storage.Scanner
import UsbFloppy.Web.Api
import UsbFloppy.Web.WriteProtection
import UsbFloppy.Kernel.Transfer
import UsbFloppy.Kernel.Counters
import UsbFloppy.Files.Folder
import UsbFloppy.Lib.Search
import UsbFloppy.Files.Tree
import UsbFloppy.Storage.Library
import UsbFloppy.Lib.Trace
import UsbFloppy.Storage.Settling
import UsbFloppy.Storage.Arrivals
import UsbFloppy.Storage.Normalizer
import UsbFloppy.Web.Upload
import UsbFloppy.Audio.Renderer
import UsbFloppy.Audio.Loop
import UsbFloppy.Audio.Tearing
import UsbFloppy.Lib.Json.Number
import UsbFloppy.Lib.Json.Strings
import UsbFloppy.Lib.Json.Document
import UsbFloppy.Core.Config
import UsbFloppy.Core.SaveConfig
import UsbFloppy.Audio.Buzzer
import UsbFloppy.Web.AudioSettings
import UsbFloppy.Core.Runtime
import UsbFloppy.Core.Restart
import UsbFloppy.Kernel.Scsi
import UsbFloppy.Kernel.UnitAttention
import UsbFloppy.Web.Rejection
import UsbFloppy.Gadget.Presents
import UsbFloppy.Gadget.FailedMounts
import UsbFloppy.Kernel.Delay
import UsbFloppy.Gadget.ConfigFs
import UsbFloppy.Gadget.CutShort
import UsbFloppy.Gadget.InterruptedBuild
import UsbFloppy.Core.Startup
import UsbFloppy.Storage.Lossless
import UsbFloppy.Storage.FailedExtraction
import UsbFloppy.Storage.Selection
import UsbFloppy.Web.Batch
import UsbFloppy.Web.TargetSet
import UsbFloppy.Web.PostUpload
import UsbFloppy.Web.Containment
import UsbFloppy.Web.UploadProtection
import UsbFloppy.Audio.Pwm
import UsbFloppy.Gadget.Inquiry
import UsbFloppy.Audio.Texture
import UsbFloppy.Kernel.Preset
import UsbFloppy.Storage.Numbering
import UsbFloppy.Lib.Patch
import UsbFloppy.Kernel.Medium
import UsbFloppy.Kernel.Stored
import UsbFloppy.Kernel.Drive
import UsbFloppy.Kernel.ReadBack
import UsbFloppy.Kernel.Completed
import UsbFloppy.Kernel.BulkOnly
import UsbFloppy.Kernel.Buffers
import UsbFloppy.Kernel.Wrappers
import UsbFloppy.Kernel.Transport
import UsbFloppy.Kernel.Answered
import UsbFloppy.Kernel.Exceptions
import UsbFloppy.Kernel.BulkReset
import UsbFloppy.Gadget.Appliance
import UsbFloppy.Gadget.Durable
import UsbFloppy.Gadget.Agreement
