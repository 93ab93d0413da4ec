import CountingSheep.Ingest.InTurn
import CountingSheep.Ingest.Retry
import CountingSheep.Ingest.Decode
import CountingSheep.Ingest.Verdict
import CountingSheep.Theory.Abnf
import CountingSheep.Theory.Rfc3986
import CountingSheep.Ingest.Uri
import CountingSheep.Http.Envelope
import CountingSheep.Config.PostHog
import CountingSheep.Observability.Egress
import CountingSheep.Theory.Margins
import CountingSheep.Theory.Rfc2045
import CountingSheep.Ingest.MediaType
import CountingSheep.Ingest.Routing
import CountingSheep.Config.Kafka
import CountingSheep.Ingest.KafkaProducer
import CountingSheep.Http.Confidential
import CountingSheep.Ingest.EventTime
import CountingSheep.Http.Logged
import CountingSheep.Theory.Protocol
import CountingSheep.Http.Ledger
import CountingSheep.Observability.InitLog
import CountingSheep.Config.Server
import CountingSheep.Bin.Server
import CountingSheep.Theory.Matched
import CountingSheep.Bin.Secrets
import CountingSheep.Http.Payload
import CountingSheep.Ingest.Delivery
import CountingSheep.Ingest.Linear
import CountingSheep.Http.Connection
import CountingSheep.TestUtils.Producer
import CountingSheep.Ingest.WaitFree
