import IbmmqExporter.Foundation.Outcome
import IbmmqExporter.Foundation.Bytes
import IbmmqExporter.Foundation.Framing
import IbmmqExporter.Foundation.Text
import IbmmqExporter.Pcf.Parameter
import IbmmqExporter.Pcf.Parser
import IbmmqExporter.Pcf.Encode
import IbmmqExporter.Pcf.RoundTrip
import IbmmqExporter.Pcf.Statistics
import IbmmqExporter.Pcf.Safety
import IbmmqExporter.Foundation.Accumulator
import IbmmqExporter.Pcf.MqiFields
import IbmmqExporter.Pcf.MqiOrder
import IbmmqExporter.Pcf.MqiSums
import IbmmqExporter.Foundation.Intern
import IbmmqExporter.Monitor.Stream
import IbmmqExporter.Monitor.Agreement
import IbmmqExporter.Monitor.Integer64
import IbmmqExporter.Pcf.Inquiry
import IbmmqExporter.Pcf.InquirySafety
import IbmmqExporter.Pcf.InquiryRoundTrip
import IbmmqExporter.Foundation.Effect
import IbmmqExporter.Mq.Mqi
import IbmmqExporter.Mq.Client
import IbmmqExporter.Foundation.Recorder
import IbmmqExporter.Mq.Buffers
import IbmmqExporter.Foundation.Ledger
import IbmmqExporter.Foundation.Double
import IbmmqExporter.Monitor.ResourceMonitor
import IbmmqExporter.Monitor.Samples
import IbmmqExporter.Monitor.Metadata
import IbmmqExporter.Mq.Handles
import IbmmqExporter.Monitor.Elements
import IbmmqExporter.Monitor.Lifecycle
import IbmmqExporter.Foundation.Size
import IbmmqExporter.Mq.Discovery
import IbmmqExporter.Mq.Sizes
import IbmmqExporter.Monitor.Sizes
import IbmmqExporter.Metrics.Messages
import IbmmqExporter.Metrics.QueueStats
import IbmmqExporter.Metrics.Publications
import IbmmqExporter.Mq.Drain
import IbmmqExporter.Metrics.Batch
import IbmmqExporter.Metrics.Delivery
import IbmmqExporter.Collector.Connection
import IbmmqExporter.Collector.Machine
import IbmmqExporter.Collector.Steps
import IbmmqExporter.Foundation.History
import IbmmqExporter.Collector.Reconnect
import IbmmqExporter.Collector.Stop
import IbmmqExporter.Collector.Overlap
import IbmmqExporter.Foundation.Gauge
import IbmmqExporter.Metrics.Accounting
import IbmmqExporter.Metrics.Selection
import IbmmqExporter.Collector.Selection
import IbmmqExporter.Mq.Exceptions
import IbmmqExporter.Mq.Replies
import IbmmqExporter.Collector.Queues
import IbmmqExporter.Pcf.Status
import IbmmqExporter.Foundation.Course
import IbmmqExporter.Mq.Traffic
import IbmmqExporter.Monitor.Subscriptions
import IbmmqExporter.Metrics.Status
import IbmmqExporter.Foundation.Overlay
import IbmmqExporter.Metrics.Measurements
import IbmmqExporter.Exporter.Cycle
import IbmmqExporter.Exporter.Disconnection
import IbmmqExporter.Collector.Rediscovery
import IbmmqExporter.Exporter.Rediscovery
import IbmmqExporter.Exporter.Series
import IbmmqExporter.Exporter.HandleGauges
import IbmmqExporter.Exporter.Draining
import IbmmqExporter.Configuration.Config
import IbmmqExporter.Configuration.Load
import IbmmqExporter.Configuration.Precedence
import IbmmqExporter.Configuration.MetaLabels
import IbmmqExporter.Foundation.Fields
import IbmmqExporter.Pcf.Extractors
import IbmmqExporter.Pcf.StatusReplies
import IbmmqExporter.Foundation.Locality
import IbmmqExporter.Pcf.Locality
import IbmmqExporter.Monitor.Places
import IbmmqExporter.Foundation.Extent
import IbmmqExporter.Mq.Names
import IbmmqExporter.Monitor.Strings
import IbmmqExporter.Pcf.QueueStatus
import IbmmqExporter.Pcf.Structures
import IbmmqExporter.Pcf.HandleSegments
import IbmmqExporter.Pcf.StatusRoundTrip
import IbmmqExporter.Mq.Walkers
import IbmmqExporter.Pcf.Loops
import IbmmqExporter.Foundation.Words
import IbmmqExporter.Monitor.MetricNames
import IbmmqExporter.Metrics.Exclusion
import IbmmqExporter.Monitor.Trimming
import IbmmqExporter.Pcf.Values
import IbmmqExporter.Mq.DiscoveredNames
import IbmmqExporter.Metrics.OpenModes
import IbmmqExporter.Foundation.Numeral
import IbmmqExporter.Collector.Timed
import IbmmqExporter.Configuration.Durations
import IbmmqExporter.Collector.Cycles
import IbmmqExporter.Mq.ObjectNames
import IbmmqExporter.Foundation.Potential
import IbmmqExporter.Collector.Pacing
import IbmmqExporter.Collector.Ending
import IbmmqExporter.Collector.Ownership
import IbmmqExporter.Monitor.Course
import IbmmqExporter.Metrics.Exposition
import IbmmqExporter.Exporter.Exposition
import IbmmqExporter.Foundation.Transcript
import IbmmqExporter.Mq.Exchanges
import IbmmqExporter.Collector.Conduct
import IbmmqExporter.Exporter.Conduct
import IbmmqExporter.Pcf.StatusFormats
import IbmmqExporter.Foundation.Supply
import IbmmqExporter.Mq.Answers
import IbmmqExporter.Metrics.Reports
import IbmmqExporter.Exporter.Reports
import IbmmqExporter.Foundation.Blame
import IbmmqExporter.Mq.Harm
import IbmmqExporter.Exporter.Harm
import IbmmqExporter.Collector.Pulse
import IbmmqExporter.Exporter.Published
import IbmmqExporter.Mq.Links
import IbmmqExporter.Collector.Links
