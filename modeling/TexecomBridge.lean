import TexecomBridge.Library.LittleEndian
import TexecomBridge.Library.Missing
import TexecomBridge.RingBuffer
import TexecomBridge.RingBuffer.Refinement
import TexecomBridge.SessionState
import TexecomBridge.Format.RoundTrip
import TexecomBridge.Capture.Basic
import TexecomBridge.Capture.Hexdump
import TexecomBridge.Capture.Store
import TexecomBridge.Capture.Archive
import TexecomBridge.Capture.EventRing
import TexecomBridge.Capture.Flush
import TexecomBridge.Capture.Lifecycle
import TexecomBridge.Capture.Banner
import TexecomBridge.Capture.Budget
import TexecomBridge.Capture.Sidecar
import TexecomBridge.Capture.Promise
import TexecomBridge.Texecom.Basic
import TexecomBridge.Texecom.Trace
import TexecomBridge.Texecom.Pumps
import TexecomBridge.Texecom.Agreement
import TexecomBridge.Texecom.PanelBound
import TexecomBridge.Texecom.ClientBound
import TexecomBridge.Texecom.Fidelity
import TexecomBridge.Library.Inserted
import TexecomBridge.Texecom.Noninterference
import TexecomBridge.Capture.Queue
import TexecomBridge.Format.Truncation
import TexecomBridge.Capture.Counting
import TexecomBridge.Texecom.TickBound
import TexecomBridge.Capture.Timestamps
import TexecomBridge.Texecom.Shutdown
import TexecomBridge.Capture.Host
import TexecomBridge.Capture.Names
import TexecomBridge.Http.Basic
import TexecomBridge.Http.Filenames
import TexecomBridge.Http.Route
import TexecomBridge.Library.Lists
import TexecomBridge.Library.Buffers
import TexecomBridge.Library.Slots
import TexecomBridge.Capture.Buffers
import TexecomBridge.Capture.Slots
import TexecomBridge.Http.Download
import TexecomBridge.Texecom.Calls
import TexecomBridge.Texecom.Device
import TexecomBridge.Capture.Labels
import TexecomBridge.Http.Delivery
import TexecomBridge.Http.Snapshot
import TexecomBridge.Http.Pointers
import TexecomBridge.Library.Segments
import TexecomBridge.Texecom.Isolation
import TexecomBridge.Texecom.Transparency
import TexecomBridge.Texecom.Observer
import TexecomBridge.Texecom.CaptureExact
import TexecomBridge.Library.Pipe
import TexecomBridge.Texecom.PipeRefinement
import TexecomBridge.Capture.Retention
import TexecomBridge.Http.Crawl
import TexecomBridge.SessionState.History
import TexecomBridge.Texecom.ClientIds
import TexecomBridge.Texecom.Streaming
import TexecomBridge.Http.Answers
import TexecomBridge.Texecom.SharedLine
import TexecomBridge.Capture.Recorder
