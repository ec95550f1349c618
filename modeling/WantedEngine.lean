import WantedEngine.Ota.Rp2350Boot
import WantedEngine.Ota.LinuxCommit
import WantedEngine.Vfs.Confinement
import WantedEngine.Vfs.Mounting
import WantedEngine.Vfs.ReadOnly
import WantedEngine.Vfs.TarEntrypoint
import WantedEngine.Vfs.TarSize
import WantedEngine.Vfs.Ed25519
import WantedEngine.Vfs.InputQueue
import WantedEngine.Wasi.ShortCount
import WantedEngine.Wasi.PollEvents
import WantedEngine.Registry.Latest
import WantedEngine.Vfs.RootListing
import WantedEngine.Lora.DutyCycle
import WantedEngine.Registry.ImageVerify
import WantedEngine.Registry.Published
import WantedEngine.Lifecycle.Rollback
import WantedEngine.Lifecycle.Delete
import WantedEngine.Lifecycle.Workers
import WantedEngine.Vfs.Pipe
import WantedEngine.Vfs.NinePSession
import WantedEngine.Lifecycle.ConfigOverlay
import WantedEngine.Registry.References
import WantedEngine.Lifecycle.SupervisorImage
import WantedEngine.Registry.PageReadBack
import WantedEngine.Registry.EspFlash
