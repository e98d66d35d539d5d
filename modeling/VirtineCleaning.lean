import VirtineCleaning.Main
import VirtineCleaning.Device.Describe
import VirtineCleaning.Proofs.Ring.Fifo
import VirtineCleaning.Proofs.Device.Wakeup
import VirtineCleaning.Proofs.Device.Coherence
import VirtineCleaning.Proofs.Device.Shutdown
import VirtineCleaning.Proofs.Device.Display
import VirtineCleaning.Proofs.Register.Places
import VirtineCleaning.Proofs.Device.Batches
import VirtineCleaning.Proofs.Device.Moves
import VirtineCleaning.Proofs.Host.HandOver
import VirtineCleaning.Proofs.Host.Attachment
import VirtineCleaning.Proofs.Host.Custody
import VirtineCleaning.Proofs.Host.Cutoff
import VirtineCleaning.Proofs.Host.Synchrony
import VirtineCleaning.Proofs.Host.Publication
import VirtineCleaning.Proofs.Session.Run
import VirtineCleaning.Proofs.Session.Arithmetic
import VirtineCleaning.Proofs.Device.Frame
import VirtineCleaning.Proofs.Host.Ranges
import VirtineCleaning.Proofs.Memory.Copies
import VirtineCleaning.Proofs.Device.Settings
import VirtineCleaning.Proofs.Notification
import VirtineCleaning.Proofs.Host.Hearing
import VirtineCleaning.Proofs.Host.Workers
import VirtineCleaning.Proofs.Host.Requests
