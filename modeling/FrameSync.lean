import FrameSync.Config.Reader
import FrameSync.Shaping
import FrameSync.Synchronizer.Execute
import FrameSync.Synchronizer.Description
import FrameSync.Synchronizer.Depth
import FrameSync.Proofs.Call
import FrameSync.Proofs.SymbolBuffer
import FrameSync.Proofs.Tracking
import FrameSync.Proofs.WorkList
import FrameSync.Proofs.Replay
import FrameSync.Proofs.Run
import FrameSync.Proofs.SymbolStream
import FrameSync.Proofs.Search
import FrameSync.Proofs.Frames
import FrameSync.Proofs.Nesting
import FrameSync.Proofs.Comparison
import FrameSync.Proofs.Peak
import FrameSync.Proofs.Sound
import FrameSync.Proofs.Restart
import FrameSync.Proofs.Checked
import FrameSync.Proofs.Safety
import FrameSync.Proofs.Superposition
import FrameSync.Proofs.SymbolQueue
import FrameSync.Proofs.Convolution
import FrameSync.Proofs.Rounding
import FrameSync.Proofs.Quotient
import FrameSync.Proofs.WholeNumbers
import FrameSync.Proofs.RectangularPulse
import FrameSync.Proofs.Polyphase
import FrameSync.Proofs.Construction
import FrameSync.Proofs.Conversion
import FrameSync.Proofs.Estimate
import FrameSync.Proofs.Alignment
import FrameSync.Proofs.Decimation
import FrameSync.Proofs.Narrowing
import FrameSync.Proofs.Doubles
import FrameSync.Proofs.Wrapping
